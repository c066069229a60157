/-
The breakpoints of a debugged process in breakpoints.c: a table sorted by address, whose entries keep
what their patch has overwritten in the memory of the process.
-/
import Omiiba.Lib.Slots
import Omiiba.Lib.Memory

namespace Omiiba.Rosalina

open Slots Memory

/-! ## The table -/

structure Breakpoint where
  address : UInt32
  savedInstruction : UInt32
  instructionSize : Nat
  persistent : Bool
  deriving DecidableEq

def Breakpoint.zero : Breakpoint := ⟨0, 0, 0, false⟩

/-- `MAX_BREAKPOINT`. -/
def maxBreakpoint : Nat := 64

/-- `breakpoints` and `nbBreakpoints` of a context. -/
structure BreakpointTable where
  breakpoints : Nat → Breakpoint
  nbBreakpoints : Nat

def BreakpointTable.empty : BreakpointTable := ⟨fun _ => Breakpoint.zero, 0⟩

/-- The loop of `GDB_FindClosestBreakpointSlot`. -/
def searchSlot (breakpoints : Nat → Breakpoint) (address : UInt32) : Nat → Nat → Nat → Nat
  | 0, _, b => b
  | fuel + 1, a, b =>
    let m := (a + b) / 2
    if (breakpoints m).address < address then if b - m > 1 then searchSlot breakpoints address fuel m b else b
    else if (breakpoints m).address > address then if m - a > 1 then searchSlot breakpoints address fuel a m else m
    else m

/-- `GDB_FindClosestBreakpointSlot`; its loop halves a part of the table. -/
def findClosestBreakpointSlot (ctx : BreakpointTable) (address : UInt32) : Nat :=
  if ctx.nbBreakpoints = 0 ∨ address ≤ (ctx.breakpoints 0).address then 0
  else if address > (ctx.breakpoints (ctx.nbBreakpoints - 1)).address then ctx.nbBreakpoints
  else searchSlot ctx.breakpoints address ctx.nbBreakpoints 0 (ctx.nbBreakpoints - 1)

/-- `GDB_GetBreakpointInstruction`; none for `-EINVAL`. -/
def getBreakpointInstruction (ctx : BreakpointTable) (address : UInt32) : Option UInt32 :=
  let id := findClosestBreakpointSlot ctx address
  if id = ctx.nbBreakpoints ∨ (ctx.breakpoints id).address ≠ address then none
  else some (ctx.breakpoints id).savedInstruction

/-! ## Operations -/

inductive GdbResult
  | ok
  | einval
  | ebusy
  | efault
  deriving DecidableEq

/-- `address & ~1`. -/
def clearThumbBit (address : UInt32) : UInt32 := address &&& ~~~1

/-- `BREAKPOINT_INSTRUCTION_THUMB` or `BREAKPOINT_INSTRUCTION_ARM`. -/
def breakpointInstruction (thumb : Bool) : Nat := if thumb then 0xDFFF else 0xEF0000FF

def instructionSize (thumb : Bool) : Nat := if thumb then 2 else 4

/-- What `svcReadProcessMemory` of an instruction leaves in a word: of a Thumb one, only its lower half. -/
def readInstruction (mem : Memory UInt8) (address : UInt32) (thumb : Bool) (old : UInt32) : UInt32 :=
  if thumb then UInt32.ofNat (old.toNat / 2 ^ 16 * 2 ^ 16 + mem.load address.toNat 2) else UInt32.ofNat (mem.load address.toNat 4)

/-- `GDB_AddBreakpoint`, whose read and whose write succeed or not. -/
def addBreakpoint (ctx : BreakpointTable) (mem : Memory UInt8) (address : UInt32) (thumb persist readOk writeOk : Bool) :
    GdbResult × BreakpointTable × Memory UInt8 :=
  if !thumb ∧ address &&& 3 ≠ 0 then (.einval, ctx, mem)
  else
    let address := clearThumbBit address
    let id := findClosestBreakpointSlot ctx address
    if id ≠ ctx.nbBreakpoints ∧ (ctx.breakpoints id).instructionSize ≠ 0 ∧ (ctx.breakpoints id).address = address then
      (.ok, ctx, mem)
    else if ctx.nbBreakpoints = maxBreakpoint then (.ebusy, ctx, mem)
    else
      let shifted := shiftUp id ctx.nbBreakpoints ctx.breakpoints
      let saved := if readOk then readInstruction mem address thumb (shifted id).savedInstruction else (shifted id).savedInstruction
      if readOk ∧ writeOk then
        (.ok, ⟨Function.update shifted id ⟨address, saved, instructionSize thumb, persist⟩, ctx.nbBreakpoints + 1⟩,
          mem.store address.toNat (leBytes (instructionSize thumb) (breakpointInstruction thumb)))
      else
        (.efault,
          ⟨erase (ctx.nbBreakpoints + 1) id Breakpoint.zero
            (Function.update shifted id { shifted id with savedInstruction := saved }), ctx.nbBreakpoints⟩, mem)

/-- `GDB_DisableBreakpointById`, whose write succeeds or not. -/
def disableBreakpointById (ctx : BreakpointTable) (mem : Memory UInt8) (id : Nat) (writeOk : Bool) : GdbResult × Memory UInt8 :=
  let bkpt := ctx.breakpoints id
  if writeOk then (.ok, mem.store bkpt.address.toNat (leBytes bkpt.instructionSize bkpt.savedInstruction.toNat))
  else (.efault, mem)

/-- `GDB_RemoveBreakpoint`, whose write succeeds or not. -/
def removeBreakpoint (ctx : BreakpointTable) (mem : Memory UInt8) (address : UInt32) (writeOk : Bool) :
    GdbResult × BreakpointTable × Memory UInt8 :=
  let address := clearThumbBit address
  let id := findClosestBreakpointSlot ctx address
  if id = ctx.nbBreakpoints ∨ (ctx.breakpoints id).address ≠ address then (.einval, ctx, mem)
  else
    match disableBreakpointById ctx mem id writeOk with
    | (.ok, mem) => (.ok, ⟨erase ctx.nbBreakpoints id Breakpoint.zero ctx.breakpoints, ctx.nbBreakpoints - 1⟩, mem)
    | (r, mem) => (r, ctx, mem)

/-! ## Slots -/

/-- The address that a table is sorted by. -/
def Breakpoint.key (bkpt : Breakpoint) : Nat := bkpt.address.toNat

/-- The first entries of a table have increasing addresses. -/
abbrev BreakpointTable.Sorted (ctx : BreakpointTable) : Prop := Slots.Sorted Breakpoint.key ctx.nbBreakpoints ctx.breakpoints

/-- `id` is the slot of an address: the first of which the address is not smaller. -/
abbrev BreakpointTable.IsSlot (ctx : BreakpointTable) (address : UInt32) (id : Nat) : Prop :=
  Slots.IsSlot Breakpoint.key ctx.nbBreakpoints ctx.breakpoints address.toNat id

theorem searchSlot_eq (breakpoints : Nat → Breakpoint) (address : UInt32) (fuel : Nat) : ∀ a b : Nat,
    searchSlot breakpoints address fuel a b = Slots.search Breakpoint.key breakpoints address.toNat fuel a b := by
  induction fuel with
  | zero => exact fun a b => rfl
  | succ fuel ih =>
    intro a b
    simp only [searchSlot, Slots.search, Breakpoint.key, UInt32.lt_iff_toNat_lt, gt_iff_lt, ih]

/-- The slot that is found is the slot of the address. -/
theorem findClosestBreakpointSlot_isSlot {ctx : BreakpointTable} (hs : ctx.Sorted) (address : UInt32) :
    ctx.IsSlot address (findClosestBreakpointSlot ctx address) := by
  have heq : findClosestBreakpointSlot ctx address =
      Slots.closestSlot Breakpoint.key ctx.nbBreakpoints ctx.breakpoints address.toNat := by
    simp only [findClosestBreakpointSlot, Slots.closestSlot, Breakpoint.key, UInt32.lt_iff_toNat_lt, UInt32.le_iff_toNat_le,
      gt_iff_lt, searchSlot_eq]
  rw [heq]
  exact hs.closestSlot _

/-- An address is in a table exactly if it is at its slot. -/
theorem found_iff {ctx : BreakpointTable} (hs : ctx.Sorted) (address : UInt32) :
    (∃ i < ctx.nbBreakpoints, (ctx.breakpoints i).address = address) ↔
      ¬(findClosestBreakpointSlot ctx address = ctx.nbBreakpoints ∨
        (ctx.breakpoints (findClosestBreakpointSlot ctx address)).address ≠ address) := by
  have hslot := findClosestBreakpointSlot_isSlot hs address
  have hmem := hslot.mem_iff hs
  simp only [Breakpoint.key, UInt32.toNat_inj] at hmem
  rw [hmem]
  have hle := hslot.le
  constructor
  · rintro ⟨hlt, heq⟩ (hend | hne)
    · omega
    · exact hne heq
  · rintro hnot
    push Not at hnot
    exact ⟨by omega, hnot.2⟩

/-! ## Runs -/

inductive BreakpointOp
  | add (address : UInt32) (thumb persist readOk writeOk : Bool)
  | remove (address : UInt32) (writeOk : Bool)
  | disable (id : Nat) (writeOk : Bool)

/-- A table, the memory of the process, and the addresses that have been added and not since removed. -/
structure BreakpointRun where
  ctx : BreakpointTable
  mem : Memory UInt8
  added : Finset UInt32

def stepBreakpoint (run : BreakpointRun) : BreakpointOp → GdbResult × BreakpointRun
  | .add address thumb persist readOk writeOk =>
    let (r, ctx, mem) := addBreakpoint run.ctx run.mem address thumb persist readOk writeOk
    (r, ⟨ctx, mem, if r = .ok then insert (clearThumbBit address) run.added else run.added⟩)
  | .remove address writeOk =>
    let (r, ctx, mem) := removeBreakpoint run.ctx run.mem address writeOk
    (r, ⟨ctx, mem, if r = .ok then run.added.erase (clearThumbBit address) else run.added⟩)
  | .disable id writeOk =>
    let (r, mem) := disableBreakpointById run.ctx run.mem id writeOk
    (r, { run with mem })

def runBreakpoints (run : BreakpointRun) (ops : List BreakpointOp) : BreakpointRun :=
  ops.foldl (fun run op => (stepBreakpoint run op).2) run

/-- A table as it is after any operations. -/
structure BreakpointTable.Good (ctx : BreakpointTable) (added : Finset UInt32) : Prop where
  sorted : ctx.Sorted
  size : ctx.nbBreakpoints ≤ maxBreakpoint
  used : ∀ i < ctx.nbBreakpoints, (ctx.breakpoints i).instructionSize ≠ 0
  unused : ∀ i, ctx.nbBreakpoints ≤ i → ctx.breakpoints i = Breakpoint.zero
  exact : ∀ address, (∃ i < ctx.nbBreakpoints, (ctx.breakpoints i).address = address) ↔ address ∈ added

theorem empty_good : BreakpointTable.empty.Good ∅ := by
  constructor
  · exact fun i j _ hj => absurd hj (Nat.not_lt_zero j)
  · exact Nat.zero_le _
  · exact fun i hi => absurd hi (Nat.not_lt_zero i)
  · exact fun _ _ => rfl
  · exact fun address => ⟨fun ⟨i, hi, _⟩ => absurd hi (Nat.not_lt_zero i), fun h => absurd h (Finset.notMem_empty _)⟩

variable {ctx : BreakpointTable} {added : Finset UInt32}

/-- Adding a breakpoint leaves the table as it is, or puts a new entry into the slot of its address. -/
theorem addBreakpoint_cases (h : ctx.Good added) (mem : Memory UInt8) (address : UInt32) (thumb persist readOk writeOk : Bool) :
    (∃ r, r ≠ GdbResult.ok ∧ addBreakpoint ctx mem address thumb persist readOk writeOk = (r, ctx, mem)) ∨
    (clearThumbBit address ∈ added ∧ addBreakpoint ctx mem address thumb persist readOk writeOk = (.ok, ctx, mem)) ∨
    (clearThumbBit address ∉ added ∧ ctx.nbBreakpoints < maxBreakpoint ∧ ¬(!thumb ∧ address &&& 3 ≠ 0) ∧ ∃ old,
      addBreakpoint ctx mem address thumb persist readOk writeOk =
        (.ok, ⟨Slots.insert ctx.nbBreakpoints (findClosestBreakpointSlot ctx (clearThumbBit address))
            ⟨clearThumbBit address, readInstruction mem (clearThumbBit address) thumb old, instructionSize thumb, persist⟩
            ctx.breakpoints, ctx.nbBreakpoints + 1⟩,
          mem.store (clearThumbBit address).toNat (leBytes (instructionSize thumb) (breakpointInstruction thumb)))) := by
  unfold addBreakpoint
  by_cases hunaligned : !thumb ∧ address &&& 3 ≠ 0
  · rw [if_pos hunaligned]
    exact Or.inl ⟨.einval, by simp, rfl⟩
  · rw [if_neg hunaligned]
    dsimp only
    generalize clearThumbBit address = a
    have hslot := findClosestBreakpointSlot_isSlot h.sorted a
    have hfound := found_iff h.sorted a
    rw [h.exact] at hfound
    generalize findClosestBreakpointSlot ctx a = id at *
    by_cases hpresent : id ≠ ctx.nbBreakpoints ∧ (ctx.breakpoints id).instructionSize ≠ 0 ∧ (ctx.breakpoints id).address = a
    · rw [if_pos hpresent]
      refine Or.inr (Or.inl ⟨hfound.mpr ?_, rfl⟩)
      rintro (hend | hne)
      · exact hpresent.1 hend
      · exact hne hpresent.2.2
    · rw [if_neg hpresent]
      have hnew : a ∉ added := by
        rw [hfound, not_not]
        by_contra hnot
        push Not at hnot
        have hlt : id < ctx.nbBreakpoints := Nat.lt_of_le_of_ne hslot.le hnot.1
        exact hpresent ⟨hnot.1, h.used id hlt, hnot.2⟩
      by_cases hfull : ctx.nbBreakpoints = maxBreakpoint
      · rw [if_pos hfull]
        exact Or.inl ⟨.ebusy, by simp, rfl⟩
      · rw [if_neg hfull]
        by_cases haccess : readOk ∧ writeOk
        · rw [if_pos haccess]
          rw [if_pos haccess.1]
          exact Or.inr (Or.inr ⟨hnew, Nat.lt_of_le_of_ne h.size hfull, hunaligned, _, rfl⟩)
        · rw [if_neg haccess]
          refine Or.inl ⟨.efault, by simp, ?_⟩
          have hback := erase_insert (n := ctx.nbBreakpoints) { shiftUp id ctx.nbBreakpoints ctx.breakpoints id with
            savedInstruction := if readOk then readInstruction mem a thumb (shiftUp id ctx.nbBreakpoints ctx.breakpoints id).savedInstruction
              else (shiftUp id ctx.nbBreakpoints ctx.breakpoints id).savedInstruction } Breakpoint.zero ctx.breakpoints hslot.le
            (h.unused _ le_rfl)
          rw [Slots.insert] at hback
          rw [hback]

/-- Removing a breakpoint leaves the table as it is, or takes the entry in the slot of its address out. -/
theorem removeBreakpoint_cases (h : ctx.Good added) (mem : Memory UInt8) (address : UInt32) (writeOk : Bool) :
    (∃ r, r ≠ GdbResult.ok ∧ removeBreakpoint ctx mem address writeOk = (r, ctx, mem)) ∨
    (∃ id < ctx.nbBreakpoints, (ctx.breakpoints id).address = clearThumbBit address ∧
      removeBreakpoint ctx mem address writeOk =
        (.ok, ⟨Slots.erase ctx.nbBreakpoints id Breakpoint.zero ctx.breakpoints, ctx.nbBreakpoints - 1⟩,
          mem.store (ctx.breakpoints id).address.toNat
            (leBytes (ctx.breakpoints id).instructionSize (ctx.breakpoints id).savedInstruction.toNat))) := by
  unfold removeBreakpoint
  dsimp only
  generalize clearThumbBit address = a
  have hslot := findClosestBreakpointSlot_isSlot h.sorted a
  generalize findClosestBreakpointSlot ctx a = id at *
  by_cases hmissing : id = ctx.nbBreakpoints ∨ (ctx.breakpoints id).address ≠ a
  · rw [if_pos hmissing]
    exact Or.inl ⟨.einval, by simp, rfl⟩
  · rw [if_neg hmissing]
    push Not at hmissing
    unfold disableBreakpointById
    cases writeOk with
    | false => exact Or.inl ⟨.efault, by simp, rfl⟩
    | true => exact Or.inr ⟨id, Nat.lt_of_le_of_ne hslot.le hmissing.1, hmissing.2, rfl⟩

theorem insert_good (h : ctx.Good added) {e : Breakpoint} (hsize : e.instructionSize ≠ 0) (hnew : e.address ∉ added)
    (hroom : ctx.nbBreakpoints < maxBreakpoint) :
    (⟨Slots.insert ctx.nbBreakpoints (findClosestBreakpointSlot ctx e.address) e ctx.breakpoints, ctx.nbBreakpoints + 1⟩ :
      BreakpointTable).Good (insert e.address added) := by
  have hslot := findClosestBreakpointSlot_isSlot h.sorted e.address
  constructor
  · refine h.sorted.insert hslot ?_
    rintro ⟨i, hi, heq⟩
    exact hnew ((h.exact e.address).mp ⟨i, hi, UInt32.toNat_inj.mp heq⟩)
  · exact hroom
  · intro i hi
    show (Slots.insert ctx.nbBreakpoints (findClosestBreakpointSlot ctx e.address) e ctx.breakpoints i).instructionSize ≠ 0
    rcases insert_cases e ctx.breakpoints hslot.le hi with ⟨hlt, hv⟩ | ⟨-, hv⟩ | ⟨j, -, -, hj, hv⟩
    · rw [hv]
      exact h.used i (Nat.lt_of_lt_of_le hlt hslot.le)
    · rw [hv]
      exact hsize
    · rw [hv]
      exact h.used j hj
  · intro i hi
    have hbeyond : ctx.nbBreakpoints < i := hi
    exact (insert_beyond e ctx.breakpoints hslot.le hbeyond).trans (h.unused i (Nat.le_of_lt hbeyond))
  · intro address
    rw [Finset.mem_insert, ← h.exact]
    refine (insert_mem e ctx.breakpoints hslot.le fun b => b.address = address).trans ?_
    rw [eq_comm]

theorem erase_good (h : ctx.Good added) {id : Nat} (hid : id < ctx.nbBreakpoints) :
    (⟨Slots.erase ctx.nbBreakpoints id Breakpoint.zero ctx.breakpoints, ctx.nbBreakpoints - 1⟩ : BreakpointTable).Good
      (added.erase (ctx.breakpoints id).address) := by
  constructor
  · exact h.sorted.erase hid Breakpoint.zero
  · exact Nat.le_trans (Nat.sub_le _ _) h.size
  · intro i hi
    show (Slots.erase ctx.nbBreakpoints id Breakpoint.zero ctx.breakpoints i).instructionSize ≠ 0
    rcases erase_cases Breakpoint.zero ctx.breakpoints hid hi with ⟨hlt, hv⟩ | ⟨hge, hv⟩
    · rw [hv]
      exact h.used i (by omega)
    · rw [hv]
      have hi' : i < ctx.nbBreakpoints - 1 := hi
      exact h.used (i + 1) (by omega)
  · intro i hi
    have hi' : ctx.nbBreakpoints - 1 ≤ i := hi
    rcases Nat.lt_or_eq_of_le hi' with hlt | rfl
    · exact (erase_beyond Breakpoint.zero ctx.breakpoints hid (by omega)).trans (h.unused i (by omega))
    · exact erase_last id Breakpoint.zero ctx.breakpoints
  · intro address
    rw [Finset.mem_erase, ← h.exact]
    refine (erase_mem Breakpoint.zero ctx.breakpoints hid fun b => b.address = address).trans ?_
    constructor
    · rintro ⟨i, hi, hne, rfl⟩
      refine ⟨fun heq => ?_, i, hi, rfl⟩
      rcases Nat.lt_or_gt_of_ne hne with hlt | hgt
      · exact absurd (h.sorted i id hlt hid) (by simp [Breakpoint.key, heq])
      · exact absurd (h.sorted id i hgt hi) (by simp [Breakpoint.key, heq])
    · rintro ⟨hne, i, hi, rfl⟩
      refine ⟨i, hi, ?_, rfl⟩
      rintro rfl
      exact hne rfl

theorem instructionSize_ne_zero (thumb : Bool) : instructionSize thumb ≠ 0 := by
  cases thumb <;> decide

theorem stepBreakpoint_add (run : BreakpointRun) (address : UInt32) (thumb persist readOk writeOk : Bool) :
    (stepBreakpoint run (.add address thumb persist readOk writeOk)).2 =
      let result := addBreakpoint run.ctx run.mem address thumb persist readOk writeOk
      ⟨result.2.1, result.2.2, if result.1 = .ok then insert (clearThumbBit address) run.added else run.added⟩ := rfl

theorem stepBreakpoint_remove (run : BreakpointRun) (address : UInt32) (writeOk : Bool) :
    (stepBreakpoint run (.remove address writeOk)).2 =
      let result := removeBreakpoint run.ctx run.mem address writeOk
      ⟨result.2.1, result.2.2, if result.1 = .ok then run.added.erase (clearThumbBit address) else run.added⟩ := rfl

/-- An operation keeps a good table good. -/
theorem stepBreakpoint_good {run : BreakpointRun} (h : run.ctx.Good run.added) (op : BreakpointOp) :
    (stepBreakpoint run op).2.ctx.Good (stepBreakpoint run op).2.added := by
  cases op with
  | add address thumb persist readOk writeOk =>
    rw [stepBreakpoint_add]
    rcases addBreakpoint_cases h run.mem address thumb persist readOk writeOk with
      ⟨r, hr, heq⟩ | ⟨hmem, heq⟩ | ⟨hnew, hroom, -, old, heq⟩
    · rw [heq]
      simp only [hr, if_false]
      exact h
    · rw [heq]
      simp only [if_true, Finset.insert_eq_self.mpr hmem]
      exact h
    · rw [heq]
      simp only [if_true]
      exact insert_good h (e := ⟨clearThumbBit address, _, instructionSize thumb, persist⟩)
        (instructionSize_ne_zero thumb) hnew hroom
  | remove address writeOk =>
    rw [stepBreakpoint_remove]
    rcases removeBreakpoint_cases h run.mem address writeOk with ⟨r, hr, heq⟩ | ⟨id, hid, haddress, heq⟩
    · rw [heq]
      simp only [hr, if_false]
      exact h
    · rw [heq, ← haddress]
      simp only [if_true]
      exact erase_good h hid
  | disable id writeOk => exact h

theorem runBreakpoints_good (ops : List BreakpointOp) : ∀ {run : BreakpointRun}, run.ctx.Good run.added →
    (runBreakpoints run ops).ctx.Good (runBreakpoints run ops).added := by
  induction ops with
  | nil => exact fun h => h
  | cons op ops ih => exact fun h => ih (stepBreakpoint_good h op)

theorem getBreakpointInstruction_iff (h : ctx.Good added) (address : UInt32) :
    (getBreakpointInstruction ctx address).isSome ↔ address ∈ added := by
  rw [← h.exact, found_iff h.sorted]
  unfold getBreakpointInstruction
  dsimp only
  split_ifs with hmissing
  · simp [hmissing]
  · simp [hmissing]

/-- After any operations: the table is sorted, the slot of an address is found, the addresses found are those
added and not since removed, with their Thumb bit cleared, and adding that fails changes nothing. -/
theorem breakpoints_after (mem : Memory UInt8) (ops : List BreakpointOp) :
    let run := runBreakpoints ⟨BreakpointTable.empty, mem, ∅⟩ ops
    run.ctx.Sorted ∧ (∀ address, run.ctx.IsSlot address (findClosestBreakpointSlot run.ctx address)) ∧
      (∀ address, (getBreakpointInstruction run.ctx address).isSome ↔ address ∈ run.added) ∧
      ∀ address thumb persist readOk writeOk,
        (addBreakpoint run.ctx run.mem address thumb persist readOk writeOk).1 ≠ .ok →
          (addBreakpoint run.ctx run.mem address thumb persist readOk writeOk).2 = (run.ctx, run.mem) := by
  intro run
  have h : run.ctx.Good run.added := runBreakpoints_good ops empty_good
  refine ⟨h.sorted, findClosestBreakpointSlot_isSlot h.sorted, getBreakpointInstruction_iff h, ?_⟩
  intro address thumb persist readOk writeOk hfail
  rcases addBreakpoint_cases h run.mem address thumb persist readOk writeOk with
    ⟨r, hr, heq⟩ | ⟨hmem, heq⟩ | ⟨hnew, hroom, -, old, heq⟩
  · rw [heq]
  · rw [heq] at hfail
    exact absurd rfl hfail
  · rw [heq] at hfail
    exact absurd rfl hfail

/-- The Thumb breakpoint that is added at `0x1001` is found at `0x1000` only. -/
theorem thumb_address_not_found :
    let step := stepBreakpoint ⟨BreakpointTable.empty, fun _ => 0, ∅⟩ (.add 0x1001 true false true true)
    step.1 = .ok ∧ getBreakpointInstruction step.2.ctx 0x1001 = none ∧ (getBreakpointInstruction step.2.ctx 0x1000).isSome := by
  decide +kernel

end Omiiba.Rosalina
