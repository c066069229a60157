/-
What breakpoints leave in the memory of the debugged process once they are all removed, one by one or by
detaching from it.
-/
import Omiiba.Lib.Patches
import Omiiba.Rosalina.GdbBreakpoints

namespace Omiiba.Rosalina

open Slots Memory Patch

open scoped List

/-! ## Adding and removing -/

/-- A call of `GDB_AddBreakpoint`, and how the accesses to the memory go in it. -/
structure AddCall where
  address : UInt32
  thumb : Bool
  persist : Bool
  readOk : Bool
  writeOk : Bool

/-- `GDB_AddBreakpoint` for each call; none if one fails. -/
def addAll (ctx : BreakpointTable) (mem : Memory UInt8) : List AddCall → Option (BreakpointTable × Memory UInt8)
  | [] => some (ctx, mem)
  | c :: calls =>
    match addBreakpoint ctx mem c.address c.thumb c.persist c.readOk c.writeOk with
    | (.ok, ctx, mem) => addAll ctx mem calls
    | _ => none

/-- `GDB_RemoveBreakpoint` for each address, in a memory that can be written; none if one fails. -/
def removeAll (ctx : BreakpointTable) (mem : Memory UInt8) : List UInt32 → Option (BreakpointTable × Memory UInt8)
  | [] => some (ctx, mem)
  | address :: addresses =>
    match removeBreakpoint ctx mem address true with
    | (.ok, ctx, mem) => removeAll ctx mem addresses
    | _ => none

/-- What `GDB_DetachFromProcess` does with the breakpoints, in a memory that can be written. -/
def detachBreakpoints (ctx : BreakpointTable) (mem : Memory UInt8) : BreakpointTable × Memory UInt8 :=
  (BreakpointTable.empty, (List.range ctx.nbBreakpoints).foldl
    (fun mem i => if !(ctx.breakpoints i).persistent then (disableBreakpointById ctx mem i true).2 else mem) mem)

/-! ## What is added -/

/-- The instruction that a breakpoint is put at. -/
structure Target where
  address : UInt32
  thumb : Bool
  deriving DecidableEq

/-- The breakpoint instruction in the memory. -/
def Target.patch (t : Target) : Patch UInt8 :=
  ⟨t.address.toNat, leBytes (instructionSize t.thumb) (breakpointInstruction t.thumb)⟩

/-- The instructions that calls put breakpoints at: of those with one address, only the first counts. -/
def targetsAfter (placed : List Target) : List AddCall → List Target
  | [] => placed
  | c :: calls =>
    if placed.any (·.address = clearThumbBit c.address) then targetsAfter placed calls
    else targetsAfter (placed ++ [⟨clearThumbBit c.address, c.thumb⟩]) calls

def targets (calls : List AddCall) : List Target := targetsAfter [] calls

/-- Of two breakpoints that overlap and are removed in the order they were added in, the first has changed nothing
where they overlap. -/
def Transparent (mem : Memory UInt8) (placed : List Target) (before : UInt32 → UInt32 → Prop) : Prop :=
  ∀ q p x, [q, p] <+ placed → before q.address p.address → q.patch.Covers x → p.patch.Covers x → q.patch.put mem x = mem x

theorem patch_injective : Function.Injective Target.patch := by
  rintro ⟨a, t⟩ ⟨b, u⟩ h
  obtain ⟨haddress, hbytes⟩ := Patch.mk.inj h
  obtain rfl : a = b := UInt32.toNat_inj.mp haddress
  have hlen := congrArg List.length hbytes
  simp only [leBytes_length] at hlen
  obtain rfl : t = u := by
    revert hlen
    cases t <;> cases u <;> decide
  rfl

/-- The addresses of breakpoints are different, and aligned. -/
structure Distinct (placed : List Target) : Prop where
  nodup : (placed.map (·.address)).Nodup
  aligned : ∀ t ∈ placed, t.address.toNat % instructionSize t.thumb = 0

theorem clearThumbBit_even (address : UInt32) : (clearThumbBit address).toNat % 2 = 0 := by
  unfold clearThumbBit
  have h : (address &&& ~~~1) &&& 1 = 0 := by
    rw [UInt32.and_assoc]
    simp
  have hnat := congrArg UInt32.toNat h
  rw [UInt32.toNat_and] at hnat
  rw [← Nat.and_one_is_mod]
  exact hnat

/-- An instruction that a breakpoint is put at is aligned. -/
theorem clearThumbBit_aligned {address : UInt32} {thumb : Bool} (h : ¬(!thumb ∧ address &&& 3 ≠ 0)) :
    (clearThumbBit address).toNat % instructionSize thumb = 0 := by
  cases thumb with
  | true => exact clearThumbBit_even address
  | false =>
    have hthree : address &&& 3 = 0 := by simpa using h
    have hsame : (clearThumbBit address) &&& 3 = 0 := by
      unfold clearThumbBit
      rw [UInt32.and_assoc, UInt32.and_comm _ 3, ← UInt32.and_assoc, hthree]
      simp
    have hnat := congrArg UInt32.toNat hsame
    rw [UInt32.toNat_and] at hnat
    show (clearThumbBit address).toNat % 4 = 0
    rw [← Nat.and_two_pow_sub_one_eq_mod _ 2]
    exact hnat

/-- A breakpoint that covers a place is at one of two addresses. -/
theorem Distinct.address_of_covers {placed : List Target} (h : Distinct placed) {t : Target} (ht : t ∈ placed) {x : Nat}
    (hx : t.patch.Covers x) : t.address.toNat = x / 4 * 4 ∨ t.address.toNat = x / 2 * 2 := by
  have haligned := h.aligned t ht
  obtain ⟨hlow, hhigh⟩ := hx
  simp only [Target.patch, leBytes_length] at hlow hhigh
  rcases ht : t.thumb
  · simp only [ht, instructionSize] at haligned hhigh
    simp at haligned hhigh
    omega
  · simp only [ht, instructionSize] at haligned hhigh
    simp at haligned hhigh
    omega

theorem Distinct.nodup_patches {placed : List Target} (h : Distinct placed) : (placed.map Target.patch).Nodup :=
  (List.Nodup.of_map _ h.nodup).map patch_injective

/-- At most two breakpoints cover a place: an ARM one, and a Thumb one in its second half. -/
theorem Distinct.covering_length {placed : List Target} (h : Distinct placed) (x : Nat) :
    (covering (placed.map Target.patch) x).length ≤ 2 := by
  have hmap : covering (placed.map Target.patch) x = (placed.filter fun t => t.patch.Covers x).map Target.patch := by
    unfold covering
    rw [List.filter_map]
    rfl
  rw [hmap, List.length_map]
  obtain ⟨ts, hts⟩ : ∃ l, l = placed.filter fun t => t.patch.Covers x := ⟨_, rfl⟩
  rw [← hts]
  have hnodup : (ts.map fun t => t.address.toNat).Nodup := by
    have hsub : ts.map (·.address) <+ placed.map (·.address) := by
      rw [hts]
      exact List.filter_sublist.map _
    have haddresses := (hsub.nodup h.nodup).map (f := UInt32.toNat) fun a b hab => UInt32.toNat_inj.mp hab
    rwa [List.map_map] at haddresses
  have hsubset : ts.map (fun t => t.address.toNat) ⊆ [x / 4 * 4, x / 2 * 2] := by
    intro a ha
    obtain ⟨t, ht, rfl⟩ := List.mem_map.mp ha
    rw [hts, List.mem_filter] at ht
    have hcases := h.address_of_covers ht.1 (by simpa using ht.2)
    simpa using hcases
  have hlen := (hnodup.subperm hsubset).length_le
  rwa [List.length_map] at hlen

/-! ## What is kept -/

/-- What an entry puts back. -/
def Breakpoint.original (bkpt : Breakpoint) : Patch UInt8 :=
  ⟨bkpt.address.toNat, leBytes bkpt.instructionSize bkpt.savedInstruction.toNat⟩

theorem leBytes_readInstruction (mem : Memory UInt8) (address : UInt32) (thumb : Bool) (old : UInt32) :
    leBytes (instructionSize thumb) (readInstruction mem address thumb old).toNat =
      (List.range (instructionSize thumb)).map fun i => mem (address.toNat + i) := by
  cases thumb with
  | true =>
    have hold := old.toNat_lt
    have hload := mem.load_lt 2 address.toNat
    have hword : (old.toNat / 2 ^ 16 * 2 ^ 16 + mem.load address.toNat 2) % 2 ^ 32 % 256 ^ 2 = mem.load address.toNat 2 := by
      omega
    simp only [readInstruction, instructionSize, if_true, UInt32.toNat_ofNat']
    rw [← leBytes_load, ← leBytes_mod 2, hword]
  | false =>
    have hload := mem.load_lt 4 address.toNat
    have hword : mem.load address.toNat 4 % 2 ^ 32 = mem.load address.toNat 4 := Nat.mod_eq_of_lt hload
    simp only [readInstruction, instructionSize, Bool.false_eq_true, if_false, UInt32.toNat_ofNat']
    rw [← leBytes_load, hword]

/-- The entry of a breakpoint keeps what was in the memory before it. -/
def Keeps (mem : Memory UInt8) (placed : List Target) (bkpt : Breakpoint) : Prop :=
  ∃ t ∈ placed, bkpt.address = t.address ∧ bkpt.original = undo (placed.map Target.patch) mem t.patch

def BreakpointTable.Keeps (ctx : BreakpointTable) (mem : Memory UInt8) (placed : List Target) : Prop :=
  ∀ i < ctx.nbBreakpoints, Rosalina.Keeps mem placed (ctx.breakpoints i)

/-- A table and a memory that breakpoints have been added to. -/
structure Armed (mem : Memory UInt8) (placed : List Target) (ctx : BreakpointTable) (armed : Memory UInt8) : Prop where
  good : ctx.Good (placed.map (·.address)).toFinset
  distinct : Distinct placed
  keeps : ctx.Keeps mem placed
  memory : armed = putAll (placed.map Target.patch) mem

theorem empty_armed (mem : Memory UInt8) : Armed mem [] BreakpointTable.empty mem := by
  constructor
  · exact empty_good
  · constructor
    · exact List.nodup_nil
    · simp
  · exact fun i hi => absurd hi (Nat.not_lt_zero i)
  · rfl

theorem Keeps.append {mem : Memory UInt8} {placed : List Target} {bkpt : Breakpoint} (h : Keeps mem placed bkpt)
    (ts : List Target) : Keeps mem (placed ++ ts) bkpt := by
  obtain ⟨t, ht, haddress, horiginal⟩ := h
  refine ⟨t, List.mem_append_left ts ht, haddress, ?_⟩
  rw [horiginal, List.map_append, undo_append (List.mem_map_of_mem ht)]

section

variable {mem armed : Memory UInt8} {placed : List Target} {ctx : BreakpointTable}

/-- A new entry, in front of which the others are as they were. -/
theorem Armed.add (h : Armed mem placed ctx armed) {t : Target} (hnew : t.address ∉ placed.map (·.address))
    (haligned : t.address.toNat % instructionSize t.thumb = 0) (hroom : ctx.nbBreakpoints < maxBreakpoint)
    (old : UInt32) (persist : Bool) :
    Armed mem (placed ++ [t])
      ⟨Slots.insert ctx.nbBreakpoints (findClosestBreakpointSlot ctx t.address)
        ⟨t.address, readInstruction armed t.address t.thumb old, instructionSize t.thumb, persist⟩ ctx.breakpoints,
        ctx.nbBreakpoints + 1⟩ (t.patch.put armed) := by
  have hslot := findClosestBreakpointSlot_isSlot h.good.sorted t.address
  constructor
  · have hgood := insert_good h.good
      (e := ⟨t.address, readInstruction armed t.address t.thumb old, instructionSize t.thumb, persist⟩)
      (instructionSize_ne_zero t.thumb) (by simpa using hnew) hroom
    have hset : ((placed ++ [t]).map (·.address)).toFinset = Insert.insert t.address (placed.map (·.address)).toFinset := by
      ext a
      simp
    rw [hset]
    exact hgood
  · constructor
    · rw [List.map_append, List.map_singleton]
      refine List.Nodup.append h.distinct.nodup (List.nodup_singleton _) ?_
      simpa using hnew
    · intro u hu
      rcases List.mem_append.mp hu with hu | hu
      · exact h.distinct.aligned u hu
      · obtain rfl : u = t := by simpa using hu
        exact haligned
  · intro i hi
    show Rosalina.Keeps mem (placed ++ [t]) (Slots.insert _ _ _ _ i)
    rcases insert_cases _ ctx.breakpoints hslot.le hi with ⟨hlt, hv⟩ | ⟨-, hv⟩ | ⟨j, -, -, hj, hv⟩
    · rw [hv]
      exact (h.keeps i (Nat.lt_of_lt_of_le hlt hslot.le)).append [t]
    · rw [hv]
      refine ⟨t, by simp, rfl, ?_⟩
      have hlast : t.patch ∉ placed.map Target.patch := by
        intro hmem
        obtain ⟨u, hu, heq⟩ := List.mem_map.mp hmem
        obtain rfl := patch_injective heq
        exact hnew (List.mem_map_of_mem hu)
      rw [List.map_append, List.map_singleton, undo_last hlast, ← h.memory]
      simp only [Breakpoint.original, leBytes_readInstruction, overwritten, Target.patch, leBytes_length]
    · rw [hv]
      exact (h.keeps j hj).append [t]
  · rw [List.map_append, putAll_append, ← h.memory]
    rfl

theorem addAll_cons {ctx : BreakpointTable} {mem : Memory UInt8} {c : AddCall} {calls : List AddCall}
    {result : BreakpointTable × Memory UInt8} (h : addAll ctx mem (c :: calls) = some result) :
    ∃ ctx' mem', addBreakpoint ctx mem c.address c.thumb c.persist c.readOk c.writeOk = (.ok, ctx', mem') ∧
      addAll ctx' mem' calls = some result := by
  unfold addAll at h
  split at h
  · exact ⟨_, _, ‹_›, h⟩
  · simp at h

/-- What successful calls add to the memory, and what the table keeps of it. -/
theorem Armed.addAll (calls : List AddCall) : ∀ {placed : List Target} {ctx ctx' : BreakpointTable} {armed armed' : Memory UInt8},
    Armed mem placed ctx armed → addAll ctx armed calls = some (ctx', armed') →
      Armed mem (targetsAfter placed calls) ctx' armed' := by
  induction calls with
  | nil =>
    intro placed ctx ctx' armed armed' h heq
    obtain ⟨rfl, rfl⟩ : ctx = ctx' ∧ armed = armed' := by simpa [Rosalina.addAll] using heq
    exact h
  | cons c calls ih =>
    intro placed ctx ctx' armed armed' h heq
    obtain ⟨ctx₁, mem₁, hadd, hrest⟩ := addAll_cons heq
    have hany : placed.any (·.address = clearThumbBit c.address) = true ↔
        clearThumbBit c.address ∈ placed.map (·.address) := by
      simp
    unfold targetsAfter
    rcases addBreakpoint_cases h.good armed c.address c.thumb c.persist c.readOk c.writeOk with
      ⟨r, hr, hcase⟩ | ⟨hmem, hcase⟩ | ⟨hnew, hroom, haligned, old, hcase⟩
    · rw [hcase] at hadd
      exact absurd (Prod.mk.inj hadd).1 hr
    · rw [hcase] at hadd
      obtain ⟨rfl, rfl⟩ : ctx = ctx₁ ∧ armed = mem₁ := by simpa using hadd
      rw [if_pos (hany.mpr (by simpa using hmem))]
      exact ih h hrest
    · rw [hcase] at hadd
      obtain ⟨rfl, rfl⟩ := Prod.mk.inj (Prod.mk.inj hadd).2
      have hnotin : clearThumbBit c.address ∉ placed.map (·.address) := by simpa using hnew
      rw [if_neg (mt hany.mp hnotin)]
      exact ih (h.add (t := ⟨clearThumbBit c.address, c.thumb⟩) hnotin (clearThumbBit_aligned haligned) hroom old c.persist) hrest

/-! ## Removing -/

theorem removeAll_cons {ctx : BreakpointTable} {mem : Memory UInt8} {address : UInt32} {addresses : List UInt32}
    {result : BreakpointTable × Memory UInt8} (h : removeAll ctx mem (address :: addresses) = some result) :
    ∃ ctx' mem', removeBreakpoint ctx mem address true = (.ok, ctx', mem') ∧ removeAll ctx' mem' addresses = some result := by
  unfold removeAll at h
  split at h
  · exact ⟨_, _, ‹_›, h⟩
  · simp at h

theorem BreakpointTable.Keeps.erase (h : ctx.Keeps mem placed) {id : Nat} (hid : id < ctx.nbBreakpoints) :
    (⟨Slots.erase ctx.nbBreakpoints id Breakpoint.zero ctx.breakpoints, ctx.nbBreakpoints - 1⟩ : BreakpointTable).Keeps mem
      placed := by
  intro i hi
  have hi' : i < ctx.nbBreakpoints - 1 := hi
  show Rosalina.Keeps mem placed (Slots.erase _ _ _ _ i)
  rcases erase_cases Breakpoint.zero ctx.breakpoints hid hi' with ⟨hlt, hv⟩ | ⟨hge, hv⟩
  · rw [hv]
    exact h i (by omega)
  · rw [hv]
    exact h (i + 1) (by omega)

/-- Removing puts back what the entries keep, one after the other. -/
theorem removeAll_spec (addresses : List UInt32) : ∀ {ctx ctx' : BreakpointTable} {armed armed' : Memory UInt8}
    {added : Finset UInt32}, ctx.Good added → ctx.Keeps mem placed → removeAll ctx armed addresses = some (ctx', armed') →
      ∃ order : List Target, order ⊆ placed ∧ order.map (·.address) = addresses.map clearThumbBit ∧
        (order.map (·.address)).Nodup ∧ (∀ t ∈ order, t.address ∈ added) ∧
        ctx'.Good (added \ (order.map (·.address)).toFinset) ∧
        armed' = putAll ((order.map Target.patch).map (undo (placed.map Target.patch) mem)) armed := by
  induction addresses with
  | nil =>
    intro ctx ctx' armed armed' added hgood hkeeps heq
    obtain ⟨rfl, rfl⟩ : ctx = ctx' ∧ armed = armed' := by simpa [removeAll] using heq
    refine ⟨[], by simp, rfl, by simp, by simp, ?_, rfl⟩
    simpa using hgood
  | cons address addresses ih =>
    intro ctx ctx' armed armed' added hgood hkeeps heq
    obtain ⟨ctx₁, mem₁, hremove, hrest⟩ := removeAll_cons heq
    rcases removeBreakpoint_cases hgood armed address true with ⟨r, hr, hcase⟩ | ⟨id, hid, haddress, hcase⟩
    · rw [hcase] at hremove
      exact absurd (Prod.mk.inj hremove).1 hr
    · rw [hcase] at hremove
      obtain ⟨rfl, rfl⟩ := Prod.mk.inj (Prod.mk.inj hremove).2
      obtain ⟨order, hsub, hmap, hnodup, hadded, hgood', harmed⟩ :=
        ih (erase_good hgood hid) (hkeeps.erase hid) hrest
      obtain ⟨t, ht, htaddress, horiginal⟩ := hkeeps id hid
      have hfirst : t.address = clearThumbBit address := htaddress.symm.trans haddress
      have hother : ∀ u ∈ order, u.address ≠ t.address := by
        intro u hu
        have hmem := hadded u hu
        rw [htaddress, Finset.mem_erase] at hmem
        exact hmem.1
      refine ⟨t :: order, List.cons_subset.mpr ⟨ht, hsub⟩, ?_, ?_, ?_, ?_, ?_⟩
      · simp only [List.map_cons, hmap, hfirst]
      · rw [List.map_cons, List.nodup_cons]
        refine ⟨?_, hnodup⟩
        rintro hmem
        obtain ⟨u, hu, heq⟩ := List.mem_map.mp hmem
        exact hother u hu heq
      · rintro u (_ | ⟨_, hu⟩)
        · rw [← htaddress]
          exact (hgood.exact _).mp ⟨id, hid, rfl⟩
        · exact Finset.mem_of_mem_erase (hadded u hu)
      · have hset : (ctx.breakpoints id).address = t.address := htaddress
        rw [hset] at hgood'
        rw [List.map_cons, List.toFinset_cons, Finset.sdiff_insert, ← Finset.erase_sdiff_comm]
        exact hgood'
      · rw [harmed, List.map_cons, List.map_cons, ← horiginal]
        rfl

/-- Detaching puts back what the entries keep, in the order of the table. -/
theorem detach_spec (hkeeps : ctx.Keeps mem placed) (hnone : ∀ i < ctx.nbBreakpoints, (ctx.breakpoints i).persistent = false)
    (armed : Memory UInt8) :
    ∃ order : List Target, order ⊆ placed ∧
      order.map (·.address) = (List.range ctx.nbBreakpoints).map (fun i => (ctx.breakpoints i).address) ∧
      (detachBreakpoints ctx armed).2 = putAll ((order.map Target.patch).map (undo (placed.map Target.patch) mem)) armed := by
  have hloop (n : Nat) (hn : n ≤ ctx.nbBreakpoints) :
      ∃ order : List Target, order ⊆ placed ∧
        order.map (·.address) = (List.range n).map (fun i => (ctx.breakpoints i).address) ∧
        (List.range n).foldl (fun mem i => if !(ctx.breakpoints i).persistent then (disableBreakpointById ctx mem i true).2
          else mem) armed = putAll ((order.map Target.patch).map (undo (placed.map Target.patch) mem)) armed := by
    induction n with
    | zero => exact ⟨[], by simp, rfl, rfl⟩
    | succ n ih =>
      obtain ⟨order, hsub, hmap, hmem⟩ := ih (Nat.le_of_succ_le hn)
      obtain ⟨t, ht, htaddress, horiginal⟩ := hkeeps n hn
      refine ⟨order ++ [t], List.append_subset.mpr ⟨hsub, by simpa using ht⟩, ?_, ?_⟩
      · rw [List.range_succ, List.map_append, List.map_append, hmap, List.map_singleton, List.map_singleton, htaddress]
      · rw [List.range_succ, List.foldl_append, hmem, List.map_append, List.map_append, putAll_append, List.map_singleton,
          List.map_singleton, ← horiginal]
        simp only [List.foldl_cons, List.foldl_nil, hnone n hn, Bool.not_false, if_true]
        rfl
  exact hloop ctx.nbBreakpoints le_rfl

end

/-! ## The memory afterwards -/

theorem Distinct.eq_of_address {placed : List Target} (h : Distinct placed) {t u : Target} (ht : t ∈ placed) (hu : u ∈ placed)
    (heq : t.address = u.address) : t = u := List.inj_on_of_nodup_map h.nodup ht hu heq

/-- What is put back, each once, is what was added. -/
theorem Distinct.perm {placed order : List Target} (h : Distinct placed) (hsub : order ⊆ placed)
    (hnodup : (order.map (·.address)).Nodup) (hall : ∀ t ∈ placed, t.address ∈ order.map (·.address)) : order ~ placed := by
  refine (List.perm_ext_iff_of_nodup hnodup.of_map h.nodup.of_map).mpr fun t => ⟨fun ht => hsub ht, fun ht => ?_⟩
  obtain ⟨u, hu, heq⟩ := List.mem_map.mp (hall t ht)
  rwa [← h.eq_of_address (hsub hu) ht heq]

/-- Of two breakpoints, the one with the first address among the addresses is the first. -/
theorem Distinct.pair_sublist {placed order : List Target} (h : Distinct placed) (hsub : order ⊆ placed) {q p : Target}
    (hq : q ∈ placed) (hp : p ∈ placed) : [q, p] <+ order ↔ [q.address, p.address] <+ order.map (·.address) := by
  constructor
  · intro hpair
    exact hpair.map Target.address
  · intro hpair
    obtain ⟨l, hl, heq⟩ := List.sublist_map_iff.mp hpair
    obtain ⟨u, v, rfl⟩ : ∃ u v, l = [u, v] := by
      have hlen := congrArg List.length heq
      exact List.length_eq_two.mp (by simpa using hlen.symm)
    have hmem : u ∈ placed ∧ v ∈ placed := ⟨hsub (hl.subset (by simp)), hsub (hl.subset (by simp))⟩
    obtain ⟨hu, hv⟩ : q.address = u.address ∧ p.address = v.address := by simpa using heq
    rwa [h.eq_of_address hq hmem.1 hu, h.eq_of_address hp hmem.2 hv]

theorem pair_sublist_map {placed : List Target} {q p : Patch UInt8} (h : [q, p] <+ placed.map Target.patch) :
    ∃ u v, [u, v] <+ placed ∧ u.patch = q ∧ v.patch = p := by
  obtain ⟨l, hl, heq⟩ := List.sublist_map_iff.mp h
  obtain ⟨u, v, rfl⟩ : ∃ u v, l = [u, v] := by
    have hlen := congrArg List.length heq
    exact List.length_eq_two.mp (by simpa using hlen.symm)
  obtain ⟨hu, hv⟩ : q = u.patch ∧ p = v.patch := by simpa using heq
  exact ⟨u, v, hl, hu.symm, hv.symm⟩

/-- Putting back in an order what was added restores the memory exactly if the breakpoints are transparent in it. -/
theorem Distinct.restore_iff {placed order : List Target} (h : Distinct placed) (hperm : order ~ placed) (mem : Memory UInt8)
    {before : UInt32 → UInt32 → Prop}
    (hbefore : ∀ q ∈ placed, ∀ p ∈ placed, q ≠ p → ([q, p] <+ order ↔ before q.address p.address)) :
    restore (placed.map Target.patch) (order.map Target.patch) mem = mem ↔ Transparent mem placed before := by
  have hsides {q p : Target} (hpair : [q, p] <+ placed) : q ∈ placed ∧ p ∈ placed ∧ q ≠ p :=
    ⟨hpair.subset (by simp), hpair.subset (by simp), by simpa using hpair.nodup h.nodup.of_map⟩
  rw [restore_eq_iff h.nodup_patches (hperm.map _) h.covering_length]
  constructor
  · intro hrestore q p x hplaced hbef hq hp
    obtain ⟨hqmem, hpmem, hne⟩ := hsides hplaced
    have horder := (hbefore q hqmem p hpmem hne).mpr hbef
    exact hrestore q.patch p.patch x (hplaced.map _) (horder.map _) hq hp
  · intro htrans q p x hplaced horder hq hp
    obtain ⟨u, v, huv, rfl, rfl⟩ := pair_sublist_map hplaced
    obtain ⟨u', v', huv', hu, hv⟩ := pair_sublist_map horder
    obtain rfl := patch_injective hu
    obtain rfl := patch_injective hv
    obtain ⟨humem, hvmem, hne⟩ := hsides huv
    exact htrans u' v' x huv ((hbefore u' humem v' hvmem hne).mp huv') hq hp

theorem pair_sublist_or {α : Type*} {l : List α} {a b : α} (ha : a ∈ l) (hb : b ∈ l) (hne : a ≠ b) :
    [a, b] <+ l ∨ [b, a] <+ l := by
  induction l with
  | nil => simp at ha
  | cons c l ih =>
    rcases List.mem_cons.mp ha with rfl | ha'
    · have hb' : b ∈ l := by simpa [Ne.symm hne] using hb
      exact Or.inl ((List.singleton_sublist.mpr hb').cons_cons a)
    · rcases List.mem_cons.mp hb with rfl | hb'
      · exact Or.inr ((List.singleton_sublist.mpr ha').cons_cons b)
      · exact (ih ha' hb').imp (fun h => h.cons c) (fun h => h.cons c)

/-- In a sorted order, the smaller one is the first. -/
theorem pair_sublist_iff_lt {l : List UInt32} (hs : l.Pairwise (· < ·)) {a b : UInt32} (ha : a ∈ l) (hb : b ∈ l) (hne : a ≠ b) :
    [a, b] <+ l ↔ a < b := by
  constructor
  · exact fun h => List.pairwise_iff_forall_sublist.mp hs h
  · intro hlt
    rcases pair_sublist_or ha hb hne with h | h
    · exact h
    · exact absurd (List.pairwise_iff_forall_sublist.mp hs h) (UInt32.not_lt.mpr (UInt32.le_of_lt hlt))

/-- Removing all breakpoints that were added leaves the memory as it was exactly if they are transparent in the order
of the removals; detaching, exactly if they are in the order of their addresses. -/
theorem breakpoints_restored_iff {mem armed : Memory UInt8} {calls : List AddCall} {ctx : BreakpointTable}
    (hadd : addAll BreakpointTable.empty mem calls = some (ctx, armed)) :
    (∀ addresses ctx' restored, removeAll ctx armed addresses = some (ctx', restored) → ctx'.nbBreakpoints = 0 →
      (restored = mem ↔ Transparent mem (targets calls) fun a b => [a, b] <+ addresses.map clearThumbBit)) ∧
    ((∀ i < ctx.nbBreakpoints, (ctx.breakpoints i).persistent = false) →
      ((detachBreakpoints ctx armed).2 = mem ↔ Transparent mem (targets calls) (· < ·))) := by
  have h : Armed mem (targets calls) ctx armed := (empty_armed mem).addAll calls hadd
  constructor
  · intro addresses ctx' restored hremove hempty
    obtain ⟨order, hsub, hmap, hnodup, -, hgood, hrestored⟩ := removeAll_spec addresses h.good h.keeps hremove
    have hall : ∀ t ∈ targets calls, t.address ∈ order.map (·.address) := by
      intro t ht
      by_contra hnot
      obtain ⟨i, hi, -⟩ := (hgood.exact t.address).mpr (by simpa using ⟨⟨t, ht, rfl⟩, by simpa using hnot⟩)
      omega
    have hperm := h.distinct.perm hsub hnodup hall
    have hbefore : ∀ q ∈ targets calls, ∀ p ∈ targets calls, q ≠ p →
        ([q, p] <+ order ↔ [q.address, p.address] <+ addresses.map clearThumbBit) := by
      intro q hq p hp _
      rw [h.distinct.pair_sublist hsub hq hp, hmap]
    rw [← h.distinct.restore_iff hperm mem hbefore, hrestored, h.memory]
    rfl
  · intro hnone
    obtain ⟨order, hsub, hmap, hrestored⟩ := detach_spec h.keeps hnone armed
    have hsorted : (order.map (·.address)).Pairwise (· < ·) := by
      rw [hmap, List.pairwise_map]
      refine List.pairwise_lt_range.imp_of_mem fun hi hj hij => ?_
      rw [UInt32.lt_iff_toNat_lt]
      exact h.good.sorted _ _ hij (List.mem_range.mp hj)
    have hall : ∀ t ∈ targets calls, t.address ∈ order.map (·.address) := by
      intro t ht
      obtain ⟨i, hi, heq⟩ := (h.good.exact t.address).mpr (by simpa using ⟨t, ht, rfl⟩)
      rw [hmap]
      exact List.mem_map.mpr ⟨i, List.mem_range.mpr hi, heq⟩
    have hnodup : (order.map (·.address)).Nodup := hsorted.imp fun hlt heq => by
      rw [heq] at hlt
      exact UInt32.lt_irrefl _ hlt
    have hperm := h.distinct.perm hsub hnodup hall
    have hbefore : ∀ q ∈ targets calls, ∀ p ∈ targets calls, q ≠ p → ([q, p] <+ order ↔ q.address < p.address) := by
      intro q hq p hp hne
      rw [h.distinct.pair_sublist hsub hq hp]
      exact pair_sublist_iff_lt hsorted (hall q hq) (hall p hp) fun heq => hne (h.distinct.eq_of_address hq hp heq)
    rw [← h.distinct.restore_iff hperm mem hbefore, hrestored, h.memory]
    rfl

/-- An ARM breakpoint, and a Thumb one in its second half. -/
def overlapping : List AddCall := [⟨0x1000, false, false, true, true⟩, ⟨0x1002, true, false, true, true⟩]

/-- The breakpoint added last, removed first. -/
theorem breakpoints_restored_reverse :
    ∃ ctx armed ctx' restored, addAll BreakpointTable.empty (fun _ => 0) overlapping = some (ctx, armed) ∧
      removeAll ctx armed [0x1002, 0x1000] = some (ctx', restored) ∧ ctx'.nbBreakpoints = 0 ∧ restored = fun _ => 0 := by
  have hsome : (addAll BreakpointTable.empty (fun _ => 0) overlapping).any fun added =>
      (removeAll added.1 added.2 [0x1002, 0x1000]).any fun removed => removed.1.nbBreakpoints = 0 := by decide +kernel
  obtain ⟨⟨ctx, armed⟩, hadd, hsome⟩ := (Option.any_eq_true _ _).mp hsome
  obtain ⟨⟨ctx', restored⟩, hremove, hempty⟩ := (Option.any_eq_true _ _).mp hsome
  have hempty : ctx'.nbBreakpoints = 0 := by simpa using hempty
  refine ⟨ctx, armed, ctx', restored, hadd, hremove, hempty, ?_⟩
  refine ((breakpoints_restored_iff hadd).1 [0x1002, 0x1000] ctx' restored hremove hempty).mpr ?_
  intro q p x hplaced hbefore hq hp
  have htargets : targets overlapping = [⟨0x1000, false⟩, ⟨0x1002, true⟩] := by decide
  rw [htargets] at hplaced
  obtain ⟨rfl, rfl⟩ : q = ⟨0x1000, false⟩ ∧ p = ⟨0x1002, true⟩ := by simpa using hplaced.eq_of_length rfl
  exact absurd (hbefore.eq_of_length rfl) (by decide)

/-- The breakpoint added first, removed first: a byte of it stays, and also when the process is detached from. -/
theorem overlapping_not_restored :
    ∃ ctx armed ctx' restored, addAll BreakpointTable.empty (fun _ => 0) overlapping = some (ctx, armed) ∧
      removeAll ctx armed [0x1000, 0x1002] = some (ctx', restored) ∧ ctx'.nbBreakpoints = 0 ∧ restored 0x1003 = 0xEF ∧
      (∀ i < ctx.nbBreakpoints, (ctx.breakpoints i).persistent = false) ∧ (detachBreakpoints ctx armed).2 0x1003 = 0xEF := by
  have hsome : (addAll BreakpointTable.empty (fun _ => 0) overlapping).any fun added =>
      (removeAll added.1 added.2 [0x1000, 0x1002]).any (fun removed => removed.1.nbBreakpoints = 0 ∧ removed.2 0x1003 = 0xEF) ∧
        (∀ i < added.1.nbBreakpoints, (added.1.breakpoints i).persistent = false) ∧
        (detachBreakpoints added.1 added.2).2 0x1003 = 0xEF := by decide +kernel
  obtain ⟨⟨ctx, armed⟩, hadd, hsome⟩ := (Option.any_eq_true _ _).mp hsome
  obtain ⟨hsome, hdetach⟩ := of_decide_eq_true hsome
  obtain ⟨⟨ctx', restored⟩, hremove, hremoved⟩ := (Option.any_eq_true _ _).mp hsome
  obtain ⟨hempty, hbyte⟩ := of_decide_eq_true hremoved
  exact ⟨ctx, armed, ctx', restored, hadd, hremove, hempty, hbyte, hdetach⟩

end Omiiba.Rosalina
