/-
The watchpoints of watchpoints.c: the manager of the two hardware watchpoints, and what each context lists of
them. When both agree, over any operations of any contexts.
-/
import Omiiba.Lib.System
import Omiiba.Rosalina.GdbBreakpoints

namespace Omiiba.Rosalina

/-! ## State -/

inductive WatchpointKind
  | disabled
  | read
  | write
  | readwrite
  deriving DecidableEq

def WatchpointKind.toUInt32 : WatchpointKind → UInt32
  | .disabled => 0
  | .read => 1
  | .write => 2
  | .readwrite => 3

structure Watchpoint where
  address : UInt32
  size : UInt32
  kind : WatchpointKind
  debug : UInt32
  deriving DecidableEq

def Watchpoint.zero : Watchpoint := ⟨0, 0, .disabled, 0⟩

structure WatchpointManager where
  total : UInt32
  watchpoints : Fin 2 → Watchpoint

/-- What is written to a register pair: the address, the control register and the context ID. -/
structure WatchpointRegisters where
  address : UInt32
  wcr : UInt32
  contextId : UInt32
  deriving DecidableEq

/-- The handle and the watchpoints of a context. -/
structure WatchContext where
  debug : UInt32
  nbWatchpoints : UInt32
  watchpoints : Nat → UInt32

/-- What the operations of a context read and write. -/
structure WatchState where
  manager : WatchpointManager
  hardware : Fin 2 → Option WatchpointRegisters
  ctx : WatchContext

/-! ## Operations -/

/-- The loops that look for a watchpoint in the manager; none when they reach 2. -/
def WatchpointManager.search (manager : WatchpointManager) (p : Watchpoint → Bool) : Option (Fin 2) :=
  if p (manager.watchpoints 0) then some 0 else if p (manager.watchpoints 1) then some 1 else none

/-- `GDB_GetWatchpointKind`. -/
def getWatchpointKind (manager : WatchpointManager) (ctx : WatchContext) (address : UInt32) : WatchpointKind :=
  match manager.search fun w => w.address = address ∧ w.debug = ctx.debug with
  | some id => (manager.watchpoints id).kind
  | none => .disabled

/-- `WCR`; a size above 4 is let through where its sum with the offset wraps around. -/
def watchpointControl (id : Fin 2) (offset size : UInt32) (kind : WatchpointKind) : UInt32 :=
  let selectMask := (((1 : UInt32) <<< size) - 1) <<< offset
  let linked := (1 : UInt32) <<< 20
  let userMode := (2 : UInt32) <<< 1
  linked ||| (UInt32.ofNat (4 + id) <<< 16) ||| (selectMask <<< 5) ||| (kind.toUInt32 <<< 3) ||| userMode ||| 1

/-- `GDB_AddWatchpoint`; `info` is the context ID, if `svcGetHandleInfo` succeeds. -/
def addWatchpoint (st : WatchState) (address size : UInt32) (kind : WatchpointKind) (info : Option UInt32) :
    GdbResult × WatchState :=
  let offset := address - (address &&& ~~~3)
  if st.manager.total = 2 then (.ebusy, st)
  else if size = 0 ∨ offset + size > 4 ∨ kind = .disabled then (.einval, st)
  else if getWatchpointKind st.manager st.ctx address ≠ .disabled then (.einval, st)
  else
    let id : Fin 2 := if (st.manager.watchpoints 0).kind = .disabled then 0 else 1
    match info with
    | some out =>
      (.ok,
        { manager := ⟨st.manager.total + 1, Function.update st.manager.watchpoints id ⟨address, size, kind, st.ctx.debug⟩⟩
          hardware := Function.update st.hardware id (some ⟨address, watchpointControl id offset size kind, out⟩)
          ctx := { st.ctx with
            nbWatchpoints := st.ctx.nbWatchpoints + 1
            watchpoints := Function.update st.ctx.watchpoints st.ctx.nbWatchpoints.toNat address } })
    | none => (.einval, st)

/-- The end of `GDB_RemoveWatchpoint`: a context does not list the address any more. -/
def WatchContext.unlist (ctx : WatchContext) (address : UInt32) : WatchContext :=
  if ctx.watchpoints 0 = address then
    { ctx with
      nbWatchpoints := ctx.nbWatchpoints - 1
      watchpoints := Function.update (Function.update ctx.watchpoints 0 (ctx.watchpoints 1)) 1 0 }
  else if ctx.watchpoints 1 = address then
    { ctx with nbWatchpoints := ctx.nbWatchpoints - 1, watchpoints := Function.update ctx.watchpoints 1 0 }
  else ctx

/-- What becomes of a search for a watchpoint of a kind, where any kind will do if it is `WATCHPOINT_DISABLED`. -/
def WatchpointManager.ofKind (manager : WatchpointManager) (found : Option (Fin 2)) (kind : WatchpointKind) : Option (Fin 2) :=
  found.filter fun id => ¬(kind ≠ .disabled ∧ (manager.watchpoints id).kind ≠ kind)

/-- The search of `GDB_RemoveWatchpoint`, which goes on as long as both the address and the handle are different. -/
def WatchpointManager.searchRemove (manager : WatchpointManager) (debug address : UInt32) : Option (Fin 2) :=
  manager.search fun w => ¬(w.address ≠ address ∧ w.debug ≠ debug)

/-- `GDB_RemoveWatchpoint`. -/
def removeWatchpoint (st : WatchState) (address : UInt32) (kind : WatchpointKind) : GdbResult × WatchState :=
  match st.manager.ofKind (st.manager.searchRemove st.ctx.debug address) kind with
  | none => (.einval, st)
  | some id =>
    (.ok,
      { manager := ⟨st.manager.total - 1, Function.update st.manager.watchpoints id Watchpoint.zero⟩
        hardware := Function.update st.hardware id none
        ctx := st.ctx.unlist address })

/-- The loop over the watchpoints in `GDB_DetachFromProcess`; the context has fewer of them after each removal. -/
def detachLoop : Nat → UInt32 → WatchState → WatchState
  | 0, _, st => st
  | fuel + 1, i, st =>
    if i < st.ctx.nbWatchpoints then
      let st := (removeWatchpoint st (st.ctx.watchpoints i.toNat) .disabled).2
      detachLoop fuel (i + 1) { st with ctx := { st.ctx with watchpoints := Function.update st.ctx.watchpoints i.toNat 0 } }
    else st

/-- What `GDB_DetachFromProcess` does with the watchpoints and the handle. -/
def detachWatchpoints (st : WatchState) : WatchState :=
  let st := detachLoop st.ctx.nbWatchpoints.toNat 0 st
  { st with ctx := { st.ctx with nbWatchpoints := 0, debug := 0 } }

/-! ## Contexts together -/

/-- The manager, the hardware and any contexts. -/
structure Watchpoints (ι : Type*) where
  manager : WatchpointManager
  hardware : Fin 2 → Option WatchpointRegisters
  contexts : ι → WatchContext

inductive WatchpointOp (ι : Type*)
  | attach (c : ι) (debug : UInt32)
  | add (c : ι) (address size : UInt32) (kind : WatchpointKind) (info : Option UInt32)
  | remove (c : ι) (address : UInt32) (kind : WatchpointKind)
  | detach (c : ι)

section

variable {ι : Type*} [DecidableEq ι]

/-- What a context sees. -/
def Watchpoints.view (st : Watchpoints ι) (c : ι) : WatchState := ⟨st.manager, st.hardware, st.contexts c⟩

/-- What a context leaves. -/
def Watchpoints.with (st : Watchpoints ι) (c : ι) (s : WatchState) : Watchpoints ι :=
  ⟨s.manager, s.hardware, Function.update st.contexts c s.ctx⟩

def stepWatchpoint (st : Watchpoints ι) : WatchpointOp ι → GdbResult × Watchpoints ι
  | .attach c debug => (.ok, st.with c { st.view c with ctx := { st.contexts c with debug } })
  | .add c address size kind info =>
    let (r, s) := addWatchpoint (st.view c) address size kind info
    (r, st.with c s)
  | .remove c address kind =>
    let (r, s) := removeWatchpoint (st.view c) address kind
    (r, st.with c s)
  | .detach c => (.ok, st.with c (detachWatchpoints (st.view c)))

/-- What the kernel does: the handle of a process that is attached to is new, and only a handle that is open
has a context ID. -/
def Kernel (st : Watchpoints ι) : WatchpointOp ι → Prop
  | .attach c debug => (st.contexts c).debug = 0 ∧ debug ≠ 0 ∧ ∀ c', (st.contexts c').debug ≠ debug
  | .add c _ _ _ info => info ≠ none → (st.contexts c).debug ≠ 0
  | _ => True

/-- After `GDB_ResetWatchpoints`, and with no context attached. -/
def Watchpoints.start : Watchpoints ι :=
  ⟨⟨0, fun _ => Watchpoint.zero⟩, fun _ => none, fun _ => ⟨0, 0, fun _ => 0⟩⟩

def watchpointSystem (ι : Type*) [DecidableEq ι] : System (Watchpoints ι) (WatchpointOp ι) where
  init st := st = Watchpoints.start
  step st op st' := Kernel st op ∧ st' = (stepWatchpoint st op).2

/-! ## Agreement -/

/-- An entry of the manager for an address of a context. -/
def Watchpoint.Of (w : Watchpoint) (debug address : UInt32) : Prop :=
  w.kind ≠ .disabled ∧ w.address = address ∧ w.debug = debug

instance (w : Watchpoint) (debug address : UInt32) : Decidable (w.Of debug address) := inferInstanceAs (Decidable (_ ∧ _))

def WatchContext.Lists (ctx : WatchContext) (address : UInt32) : Prop :=
  ∃ i < ctx.nbWatchpoints.toNat, ctx.watchpoints i = address

instance (ctx : WatchContext) (address : UInt32) : Decidable (ctx.Lists address) :=
  inferInstanceAs (Decidable (∃ i < ctx.nbWatchpoints.toNat, ctx.watchpoints i = address))

/-- The entries in use. -/
def WatchpointManager.used (manager : WatchpointManager) : Finset (Fin 2) :=
  Finset.univ.filter fun id => (manager.watchpoints id).kind ≠ .disabled

/-- The list of a context is one. -/
structure WatchContext.WellFormed (ctx : WatchContext) : Prop where
  size : ctx.nbWatchpoints.toNat ≤ 2
  distinct : ∀ i j, i < ctx.nbWatchpoints.toNat → j < ctx.nbWatchpoints.toNat → ctx.watchpoints i = ctx.watchpoints j → i = j

/-- The entries in use are counted, are those of the hardware, and are different. -/
structure WatchpointManager.Sound (manager : WatchpointManager) (hardware : Fin 2 → Option WatchpointRegisters) : Prop where
  unused : ∀ id, (manager.watchpoints id).kind = .disabled → manager.watchpoints id = Watchpoint.zero
  opened : ∀ id, (manager.watchpoints id).kind ≠ .disabled → (manager.watchpoints id).debug ≠ 0
  once : ∀ id id' debug address, (manager.watchpoints id).Of debug address → (manager.watchpoints id').Of debug address → id = id'
  total : manager.total.toNat = manager.used.card
  hardware : ∀ id, (hardware id).isSome ↔ (manager.watchpoints id).kind ≠ .disabled

/-- An entry exists for an address and a context exactly if the context lists the address, and the entries in use are
of contexts that are attached. -/
structure Agree (st : Watchpoints ι) : Prop where
  lists : ∀ c address, (∃ id, (st.manager.watchpoints id).Of (st.contexts c).debug address) ↔ (st.contexts c).Lists address
  owned : ∀ id, (st.manager.watchpoints id).kind ≠ .disabled → ∃ c, (st.contexts c).debug = (st.manager.watchpoints id).debug
  sound : st.manager.Sound st.hardware
  handles : ∀ c c', (st.contexts c).debug = (st.contexts c').debug → (st.contexts c).debug ≠ 0 → c = c'
  contexts : ∀ c, (st.contexts c).WellFormed

/-- The entry for an address of a context. -/
def WatchpointManager.searchBoth (manager : WatchpointManager) (debug address : UInt32) : Option (Fin 2) :=
  manager.search fun w => w.Of debug address

/-- The search of `GDB_RemoveWatchpoint` stops where it should. -/
def RemoveExact (st : WatchState) (address : UInt32) (kind : WatchpointKind) : Prop :=
  st.manager.ofKind (st.manager.searchRemove st.ctx.debug address) kind =
    st.manager.ofKind (st.manager.searchBoth st.ctx.debug address) kind

instance (st : WatchState) (address : UInt32) (kind : WatchpointKind) : Decidable (RemoveExact st address kind) :=
  inferInstanceAs (Decidable (_ = _))

/-- It also does for the only watchpoint of a context that detaches. -/
def Exact (st : Watchpoints ι) : WatchpointOp ι → Prop
  | .remove c address kind => RemoveExact (st.view c) address kind
  | .detach c => (st.contexts c).nbWatchpoints = 0 ∨
      (st.contexts c).nbWatchpoints = 1 ∧ RemoveExact (st.view c) ((st.contexts c).watchpoints 0) .disabled
  | _ => True

/-! ## Searches -/

omit [DecidableEq ι]

theorem WatchpointManager.search_some {manager : WatchpointManager} {p : Watchpoint → Bool} {id : Fin 2}
    (h : manager.search p = some id) : p (manager.watchpoints id) = true := by
  unfold WatchpointManager.search at h
  split_ifs at h with h0 h1
  · obtain rfl : 0 = id := by simpa using h
    exact h0
  · obtain rfl : 1 = id := by simpa using h
    exact h1

theorem WatchpointManager.search_none {manager : WatchpointManager} {p : Watchpoint → Bool}
    (h : manager.search p = none) (id : Fin 2) : p (manager.watchpoints id) = false := by
  unfold WatchpointManager.search at h
  split_ifs at h with h0 h1
  fin_cases id
  · simpa using h0
  · simpa using h1

variable {st : Watchpoints ι}

theorem getWatchpointKind_disabled (h : Agree st) {c : ι} {address : UInt32}
    (hkind : getWatchpointKind st.manager (st.contexts c) address = .disabled) (hopen : (st.contexts c).debug ≠ 0) (id : Fin 2) :
    ¬(st.manager.watchpoints id).Of (st.contexts c).debug address := by
  rintro ⟨hused, haddress, hdebug⟩
  unfold getWatchpointKind at hkind
  cases hsearch : st.manager.search fun w => w.address = address ∧ w.debug = (st.contexts c).debug with
  | none =>
    have hnot := WatchpointManager.search_none hsearch id
    simp [haddress, hdebug] at hnot
  | some found =>
    have hfound := WatchpointManager.search_some hsearch
    rw [hsearch] at hkind
    have hzero := h.sound.unused found hkind
    simp only [hzero, Watchpoint.zero, decide_eq_true_eq] at hfound
    exact hopen hfound.2.symm

/-- Where its search stops where it should, removing takes the entry for the address of the context out, or does
nothing if there is none of the kind. -/
theorem removeWatchpoint_cases {s : WatchState} {address : UInt32} {kind : WatchpointKind} (hexact : RemoveExact s address kind)
    (hsound : s.manager.Sound s.hardware) :
    (removeWatchpoint s address kind = (.einval, s) ∧
      ∀ id, (s.manager.watchpoints id).Of s.ctx.debug address → kind ≠ .disabled ∧ (s.manager.watchpoints id).kind ≠ kind) ∨
    ∃ id, (s.manager.watchpoints id).Of s.ctx.debug address ∧
      removeWatchpoint s address kind =
        (.ok, ⟨⟨s.manager.total - 1, Function.update s.manager.watchpoints id Watchpoint.zero⟩,
          Function.update s.hardware id none, s.ctx.unlist address⟩) := by
  unfold removeWatchpoint
  rw [show s.manager.ofKind (s.manager.searchRemove s.ctx.debug address) kind = _ from hexact]
  cases hsearch : s.manager.searchBoth s.ctx.debug address with
  | none =>
    refine Or.inl ⟨rfl, fun id hof => ?_⟩
    have hnot := WatchpointManager.search_none hsearch id
    simp [hof] at hnot
  | some found =>
    have hfound : (s.manager.watchpoints found).Of s.ctx.debug address := by
      simpa using WatchpointManager.search_some hsearch
    unfold WatchpointManager.ofKind
    by_cases hkind : kind ≠ .disabled ∧ (s.manager.watchpoints found).kind ≠ kind
    · refine Or.inl ⟨?_, fun id hof => ?_⟩
      · rw [Option.filter_some, if_neg (by simpa using hkind)]
      · rw [hsound.once id found _ _ hof hfound]
        exact hkind
    · refine Or.inr ⟨found, hfound, ?_⟩
      rw [Option.filter_some, if_pos (decide_eq_true hkind)]

/-! ## Lists -/

section

variable {ctx : WatchContext}

theorem WatchContext.lists_of_zero (h : ctx.nbWatchpoints.toNat = 0) (a : UInt32) : ¬ctx.Lists a := by
  rintro ⟨i, hi, -⟩
  omega

theorem WatchContext.lists_of_one (h : ctx.nbWatchpoints.toNat = 1) (a : UInt32) : ctx.Lists a ↔ ctx.watchpoints 0 = a := by
  constructor
  · rintro ⟨i, hi, rfl⟩
    rw [show i = 0 by omega]
  · exact fun h0 => ⟨0, by omega, h0⟩

theorem WatchContext.lists_of_two (h : ctx.nbWatchpoints.toNat = 2) (a : UInt32) :
    ctx.Lists a ↔ ctx.watchpoints 0 = a ∨ ctx.watchpoints 1 = a := by
  constructor
  · rintro ⟨i, hi, rfl⟩
    rcases (by omega : i = 0 ∨ i = 1) with rfl | rfl
    · exact Or.inl rfl
    · exact Or.inr rfl
  · rintro (h0 | h1)
    · exact ⟨0, by omega, h0⟩
    · exact ⟨1, by omega, h1⟩

theorem WatchContext.unlist_debug (ctx : WatchContext) (address : UInt32) : (ctx.unlist address).debug = ctx.debug := by
  unfold WatchContext.unlist
  split_ifs <;> rfl

/-- At most one address in a list is well formed. -/
theorem WatchContext.wellFormed_of_le_one (h : ctx.nbWatchpoints.toNat ≤ 1) : ctx.WellFormed := by
  constructor
  · omega
  · intro i j hi hj _
    omega

/-- A list without an address that is on it. -/
theorem WatchContext.WellFormed.unlist (h : ctx.WellFormed) {address : UInt32} (hlists : ctx.Lists address) :
    (ctx.unlist address).nbWatchpoints.toNat + 1 = ctx.nbWatchpoints.toNat ∧
      ∀ a, (ctx.unlist address).Lists a ↔ ctx.Lists a ∧ a ≠ address := by
  have hpos : 1 ≤ ctx.nbWatchpoints.toNat := by
    obtain ⟨i, hi, -⟩ := hlists
    omega
  have hminus : (ctx.nbWatchpoints - 1).toNat = ctx.nbWatchpoints.toNat - 1 := by
    rw [UInt32.toNat_sub_of_le _ _ (UInt32.le_iff_toNat_le.mpr (show (1 : UInt32).toNat ≤ _ from hpos))]
    rfl
  have hcount : (ctx.unlist address).nbWatchpoints = ctx.nbWatchpoints - 1 := by
    unfold WatchContext.unlist
    split_ifs with h0 h1
    · rfl
    · rfl
    · obtain ⟨i, hi, heq⟩ := hlists
      have hsize := h.size
      rcases (by omega : i = 0 ∨ i = 1) with rfl | rfl
      · exact absurd heq h0
      · exact absurd heq h1
  refine ⟨by rw [hcount, hminus]; omega, fun a => ?_⟩
  rcases (by have hsize := h.size; omega : ctx.nbWatchpoints.toNat = 1 ∨ ctx.nbWatchpoints.toNat = 2) with hone | htwo
  · rw [lists_of_one hone] at hlists ⊢
    constructor
    · exact fun hl => absurd hl (lists_of_zero (by rw [hcount, hminus]; omega) a)
    · rintro ⟨rfl, hne⟩
      exact absurd hlists hne
  · rw [lists_of_two htwo] at hlists ⊢
    rw [lists_of_one (by rw [hcount, hminus]; omega)]
    have hne : ctx.watchpoints 0 ≠ ctx.watchpoints 1 := fun heq => absurd (h.distinct 0 1 (by omega) (by omega) heq) (by decide)
    by_cases h0 : ctx.watchpoints 0 = address
    · -- the other address moves to the front
      have hfirst : (ctx.unlist address).watchpoints 0 = ctx.watchpoints 1 := by simp [WatchContext.unlist, h0]
      rw [hfirst]
      subst h0
      constructor
      · rintro rfl
        exact ⟨Or.inr rfl, hne.symm⟩
      · rintro ⟨rfl | h1, hne'⟩
        · exact absurd rfl hne'
        · exact h1
    · have h1 : ctx.watchpoints 1 = address := hlists.resolve_left h0
      have hfirst : (ctx.unlist address).watchpoints 0 = ctx.watchpoints 0 := by simp [WatchContext.unlist, h0, h1]
      rw [hfirst]
      subst h1
      constructor
      · rintro rfl
        exact ⟨Or.inl rfl, hne⟩
      · rintro ⟨h0' | rfl, hne'⟩
        · exact h0'
        · exact absurd rfl hne'

/-- A list with one more address, at its end. -/
theorem WatchContext.WellFormed.list (h : ctx.WellFormed) (hroom : ctx.nbWatchpoints.toNat ≤ 1) {address : UInt32}
    (hnew : ¬ctx.Lists address) :
    let ctx' : WatchContext := { ctx with
      nbWatchpoints := ctx.nbWatchpoints + 1
      watchpoints := Function.update ctx.watchpoints ctx.nbWatchpoints.toNat address }
    ctx'.WellFormed ∧ ∀ a, ctx'.Lists a ↔ ctx.Lists a ∨ a = address := by
  intro ctx'
  have hplus : ctx'.nbWatchpoints.toNat = ctx.nbWatchpoints.toNat + 1 := by
    show (ctx.nbWatchpoints + 1).toNat = _
    rw [UInt32.toNat_add]
    show (ctx.nbWatchpoints.toNat + 1) % 2 ^ 32 = _
    omega
  have hlast : ctx'.watchpoints ctx.nbWatchpoints.toNat = address := Function.update_self ..
  have hother {i : Nat} (hi : i < ctx.nbWatchpoints.toNat) : ctx'.watchpoints i = ctx.watchpoints i :=
    Function.update_of_ne (by omega) ..
  constructor
  · constructor
    · omega
    · intro i j hi hj heq
      rw [hplus] at hi hj
      rcases Nat.lt_succ_iff_lt_or_eq.mp hi with hi | rfl <;> rcases Nat.lt_succ_iff_lt_or_eq.mp hj with hj | rfl
      · rw [hother hi, hother hj] at heq
        exact h.distinct i j hi hj heq
      · rw [hother hi, hlast] at heq
        exact absurd ⟨i, hi, heq⟩ hnew
      · rw [hother hj, hlast] at heq
        exact absurd ⟨j, hj, heq.symm⟩ hnew
      · rfl
  · intro a
    unfold WatchContext.Lists
    rw [hplus]
    constructor
    · rintro ⟨i, hi, rfl⟩
      rcases Nat.lt_succ_iff_lt_or_eq.mp hi with hi | rfl
      · exact Or.inl ⟨i, hi, (hother hi).symm⟩
      · exact Or.inr hlast
    · rintro (⟨i, hi, rfl⟩ | rfl)
      · exact ⟨i, by omega, hother hi⟩
      · exact ⟨_, by omega, hlast⟩

end

/-! ## Entries -/

section

variable {w : Fin 2 → Watchpoint} {id : Fin 2}

theorem exists_of_update {e : Watchpoint} (hfree : (w id).kind = .disabled) (debug address : UInt32) :
    (∃ i, (Function.update w id e i).Of debug address) ↔ (∃ i, (w i).Of debug address) ∨ e.Of debug address := by
  constructor
  · rintro ⟨i, hi⟩
    by_cases heq : i = id
    · subst heq
      rw [Function.update_self] at hi
      exact Or.inr hi
    · rw [Function.update_of_ne heq] at hi
      exact Or.inl ⟨i, hi⟩
  · rintro (⟨i, hi⟩ | he)
    · have hne : i ≠ id := by
        rintro rfl
        exact hi.1 hfree
      exact ⟨i, by rwa [Function.update_of_ne hne]⟩
    · exact ⟨id, by rwa [Function.update_self]⟩

theorem zero_not_of (debug address : UInt32) : ¬Watchpoint.zero.Of debug address := fun h => h.1 rfl

theorem exists_of_update_zero
    (honce : ∀ i i' debug address, (w i).Of debug address → (w i').Of debug address → i = i') {debug address : UInt32}
    (hof : (w id).Of debug address) (debug' address' : UInt32) :
    (∃ i, (Function.update w id Watchpoint.zero i).Of debug' address') ↔
      (∃ i, (w i).Of debug' address') ∧ ¬(debug' = debug ∧ address' = address) := by
  constructor
  · rintro ⟨i, hi⟩
    have hne : i ≠ id := by
      rintro rfl
      rw [Function.update_self] at hi
      exact zero_not_of _ _ hi
    rw [Function.update_of_ne hne] at hi
    refine ⟨⟨i, hi⟩, ?_⟩
    rintro ⟨rfl, rfl⟩
    exact hne (honce i id _ _ hi hof)
  · rintro ⟨⟨i, hi⟩, hother⟩
    have hne : i ≠ id := by
      rintro rfl
      exact hother ⟨hi.2.2.symm.trans hof.2.2, hi.2.1.symm.trans hof.2.1⟩
    exact ⟨i, by rwa [Function.update_of_ne hne]⟩

variable {manager : WatchpointManager} {hardware : Fin 2 → Option WatchpointRegisters}

theorem used_card_le (manager : WatchpointManager) : manager.used.card ≤ 2 := (Finset.card_le_univ _).trans (by simp)

/-- An entry that is free gets used. -/
theorem WatchpointManager.Sound.enter (h : manager.Sound hardware) (hfree : (manager.watchpoints id).kind = .disabled)
    {e : Watchpoint} (hkind : e.kind ≠ .disabled) (hopen : e.debug ≠ 0)
    (hnew : ¬∃ i, (manager.watchpoints i).Of e.debug e.address) (registers : WatchpointRegisters) :
    (⟨manager.total + 1, Function.update manager.watchpoints id e⟩ : WatchpointManager).Sound
      (Function.update hardware id (some registers)) := by
  constructor
  · intro i
    by_cases heq : i = id
    · subst heq
      simp [hkind]
    · simpa [heq] using h.unused i
  · intro i
    by_cases heq : i = id
    · subst heq
      simpa using fun _ => hopen
    · simpa [heq] using h.opened i
  · intro i j debug address hi hj
    by_cases hid : i = id <;> by_cases hjd : j = id
    · rw [hid, hjd]
    · simp only [hid, Function.update_self] at hi
      simp only [Function.update_of_ne hjd, ← hi.2.1, ← hi.2.2] at hj
      exact absurd ⟨j, hj⟩ hnew
    · simp only [hjd, Function.update_self] at hj
      simp only [Function.update_of_ne hid, ← hj.2.1, ← hj.2.2] at hi
      exact absurd ⟨i, hi⟩ hnew
    · simp only [Function.update_of_ne hid] at hi
      simp only [Function.update_of_ne hjd] at hj
      exact h.once i j debug address hi hj
  · have hset : (⟨manager.total + 1, Function.update manager.watchpoints id e⟩ : WatchpointManager).used =
        insert id manager.used := by
      ext i
      by_cases heq : i = id
      · subst heq
        simp [WatchpointManager.used, hkind]
      · simp [WatchpointManager.used, heq]
    have hmem : id ∉ manager.used := by simp [WatchpointManager.used, hfree]
    have hle := used_card_le manager
    have htotal := h.total
    rw [hset, Finset.card_insert_of_notMem hmem]
    show (manager.total + 1).toNat = _
    rw [UInt32.toNat_add]
    show (manager.total.toNat + 1) % 2 ^ 32 = _
    omega
  · intro i
    by_cases heq : i = id
    · subst heq
      simp [hkind]
    · simpa [heq] using h.hardware i

theorem WatchpointManager.Sound.total_sub_one (h : manager.Sound hardware) (hused : (manager.watchpoints id).kind ≠ .disabled) :
    (manager.total - 1).toNat + 1 = manager.total.toNat := by
  have hmem : id ∈ manager.used := by simpa [WatchpointManager.used] using hused
  have hpos : 0 < manager.used.card := Finset.card_pos.mpr ⟨id, hmem⟩
  rw [← h.total] at hpos
  have hle : (1 : UInt32) ≤ manager.total := UInt32.le_iff_toNat_le.mpr hpos
  rw [UInt32.toNat_sub_of_le _ _ hle]
  show manager.total.toNat - 1 + 1 = _
  omega

/-- An entry in use becomes free. -/
theorem WatchpointManager.Sound.leave (h : manager.Sound hardware) (hused : (manager.watchpoints id).kind ≠ .disabled) :
    (⟨manager.total - 1, Function.update manager.watchpoints id Watchpoint.zero⟩ : WatchpointManager).Sound
      (Function.update hardware id none) := by
  constructor
  · intro i
    by_cases heq : i = id
    · subst heq
      simp
    · simpa [heq] using h.unused i
  · intro i
    by_cases heq : i = id
    · subst heq
      simp [Watchpoint.zero]
    · simpa [heq] using h.opened i
  · intro i j debug address hi hj
    have hkeep {k : Fin 2} (hk : (Function.update manager.watchpoints id Watchpoint.zero k).Of debug address) :
        (manager.watchpoints k).Of debug address := by
      by_cases heq : k = id
      · subst heq
        rw [Function.update_self] at hk
        exact absurd hk (zero_not_of _ _)
      · rwa [Function.update_of_ne heq] at hk
    exact h.once i j debug address (hkeep hi) (hkeep hj)
  · have hset : (⟨manager.total - 1, Function.update manager.watchpoints id Watchpoint.zero⟩ : WatchpointManager).used =
        manager.used.erase id := by
      ext i
      by_cases heq : i = id
      · subst heq
        simp only [WatchpointManager.used, Finset.mem_filter, Function.update_self, Finset.mem_erase]
        simp [Watchpoint.zero]
      · simp [WatchpointManager.used, heq]
    have hmem : id ∈ manager.used := by simpa [WatchpointManager.used] using hused
    have htotal := h.total
    have hless := h.total_sub_one hused
    rw [hset, Finset.card_erase_of_mem hmem]
    show (manager.total - 1).toNat = _
    omega
  · intro i
    by_cases heq : i = id
    · subst heq
      simp [Watchpoint.zero]
    · simpa [heq] using h.hardware i

end

/-! ## What operations keep -/

theorem start_agree : Agree (Watchpoints.start : Watchpoints ι) := by
  constructor
  · intro c address
    constructor
    · rintro ⟨id, hof⟩
      exact absurd hof (zero_not_of _ _)
    · exact fun hl => absurd hl (WatchContext.lists_of_zero rfl address)
  · exact fun id hused => absurd rfl hused
  · constructor
    · exact fun id _ => rfl
    · exact fun id hused => absurd rfl hused
    · exact fun id id' debug address hof => absurd hof (zero_not_of _ _)
    · rfl
    · intro id
      simp [Watchpoints.start, Watchpoint.zero]
  · exact fun c c' _ hopen => absurd rfl hopen
  · exact fun c => WatchContext.wellFormed_of_le_one (Nat.zero_le 1)

/-- Where an entry is free, a context lists one address at most. -/
theorem Agree.length_le (h : Agree st) {id : Fin 2} (hfree : (st.manager.watchpoints id).kind = .disabled) (c : ι) :
    (st.contexts c).nbWatchpoints.toNat ≤ 1 := by
  have hwell := h.contexts c
  by_contra hmore
  obtain ⟨i, hi⟩ := (h.lists c _).mpr ⟨0, by omega, rfl⟩
  obtain ⟨j, hj⟩ := (h.lists c _).mpr ⟨1, by omega, rfl⟩
  have hij : i ≠ j := by
    rintro rfl
    exact absurd (hwell.distinct 0 1 (by omega) (by omega) (hi.2.1.symm.trans hj.2.1)) (by decide)
  have hiid : i ≠ id := by
    rintro rfl
    exact hi.1 hfree
  have hjid : j ≠ id := by
    rintro rfl
    exact hj.1 hfree
  omega

theorem Agree.not_lists_of_closed (h : Agree st) {c : ι} (hclosed : (st.contexts c).debug = 0) (a : UInt32) :
    ¬(st.contexts c).Lists a := by
  rw [← h.lists]
  rintro ⟨id, hused, -, hdebug⟩
  exact h.sound.opened id hused (hdebug.trans hclosed)

variable [DecidableEq ι]

theorem Watchpoints.with_self (st : Watchpoints ι) (c : ι) : st.with c (st.view c) = st := by
  simp [Watchpoints.with, Watchpoints.view]

/-- What one context does keeps the agreement if it agrees itself, and leaves the entries of the others. -/
theorem Agree.with (h : Agree st) {c : ι} {s : WatchState} (hsound : s.manager.Sound s.hardware) (hwell : s.ctx.WellFormed)
    (hself : ∀ a, (∃ id, (s.manager.watchpoints id).Of s.ctx.debug a) ↔ s.ctx.Lists a)
    (hothers : ∀ c' ≠ c, ∀ a, (∃ id, (s.manager.watchpoints id).Of (st.contexts c').debug a) ↔
      ∃ id, (st.manager.watchpoints id).Of (st.contexts c').debug a)
    (howned : ∀ id, (s.manager.watchpoints id).kind ≠ .disabled →
      (s.manager.watchpoints id).debug = s.ctx.debug ∨ ∃ c' ≠ c, (st.contexts c').debug = (s.manager.watchpoints id).debug)
    (hhandle : s.ctx.debug ≠ 0 → ∀ c' ≠ c, (st.contexts c').debug ≠ s.ctx.debug) : Agree (st.with c s) := by
  have hctx : (st.with c s).contexts c = s.ctx := Function.update_self ..
  have hctxs {c' : ι} (hne : c' ≠ c) : (st.with c s).contexts c' = st.contexts c' := Function.update_of_ne hne ..
  constructor
  · intro c' a
    by_cases heq : c' = c
    · subst heq
      rw [hctx]
      exact hself a
    · rw [hctxs heq, ← h.lists]
      exact hothers c' heq a
  · intro id hused
    rcases howned id hused with hmine | ⟨c', hne, htheirs⟩
    · refine ⟨c, ?_⟩
      rw [hctx]
      exact hmine.symm
    · refine ⟨c', ?_⟩
      rw [hctxs hne]
      exact htheirs
  · exact hsound
  · intro a b hab hopen
    by_cases ha : a = c <;> by_cases hb : b = c
    · rw [ha, hb]
    · subst ha
      rw [hctx] at hab hopen
      rw [hctxs hb] at hab
      exact absurd hab.symm (hhandle hopen b hb)
    · subst hb
      rw [hctx, hctxs ha] at hab
      rw [hctxs ha, hab] at hopen
      exact absurd hab (hhandle hopen a ha)
    · rw [hctxs ha, hctxs hb] at hab
      rw [hctxs ha] at hopen
      exact h.handles a b hab hopen
  · intro c'
    by_cases heq : c' = c
    · subst heq
      rw [hctx]
      exact hwell
    · rw [hctxs heq]
      exact h.contexts c'

/-- A context that is not attached attaches. -/
theorem Agree.attach (h : Agree st) {c : ι} {debug : UInt32} (hclosed : (st.contexts c).debug = 0)
    (hfresh : ∀ c', (st.contexts c').debug ≠ debug) :
    Agree (st.with c { st.view c with ctx := { st.contexts c with debug } }) := by
  have hwell := h.contexts c
  refine h.with h.sound ⟨hwell.size, hwell.distinct⟩ ?_ ?_ ?_ ?_
  · intro a
    constructor
    · rintro ⟨id, hused, -, hdebug⟩
      obtain ⟨c', hc'⟩ := h.owned id hused
      exact absurd (hc'.trans hdebug) (hfresh c')
    · exact fun hl => absurd hl (h.not_lists_of_closed hclosed a)
  · exact fun c' _ a => Iff.rfl
  · intro id hused
    obtain ⟨c', hc'⟩ := h.owned id hused
    refine Or.inr ⟨c', ?_, hc'⟩
    rintro rfl
    exact h.sound.opened id hused (hc'.symm.trans hclosed)
  · exact fun _ c' _ => hfresh c'

/-- A context that lists nothing closes its handle. -/
theorem Agree.close (h : Agree st) {c : ι} (hempty : (st.contexts c).nbWatchpoints.toNat = 0) (watchpoints : Nat → UInt32) :
    Agree (st.with c ⟨st.manager, st.hardware, ⟨0, 0, watchpoints⟩⟩) := by
  refine h.with h.sound (WatchContext.wellFormed_of_le_one (Nat.zero_le 1)) ?_ ?_ ?_ ?_
  · intro a
    constructor
    · rintro ⟨id, hused, -, hdebug⟩
      exact absurd hdebug (h.sound.opened id hused)
    · exact fun hl => absurd hl (WatchContext.lists_of_zero rfl a)
  · exact fun c' _ a => Iff.rfl
  · intro id hused
    obtain ⟨c', hc'⟩ := h.owned id hused
    refine Or.inr ⟨c', ?_, hc'⟩
    rintro rfl
    exact WatchContext.lists_of_zero hempty _ ((h.lists c' _).mp ⟨id, hused, rfl, hc'.symm⟩)
  · exact fun hopen => absurd rfl hopen

/-- A context enters an entry that is free. -/
theorem Agree.enter (h : Agree st) {c : ι} {id : Fin 2} (hfree : (st.manager.watchpoints id).kind = .disabled) {e : Watchpoint}
    (hkind : e.kind ≠ .disabled) (hdebug : e.debug = (st.contexts c).debug) (hopen : (st.contexts c).debug ≠ 0)
    (hnew : ¬(st.contexts c).Lists e.address) (registers : WatchpointRegisters) :
    Agree (st.with c
      { manager := ⟨st.manager.total + 1, Function.update st.manager.watchpoints id e⟩
        hardware := Function.update st.hardware id (some registers)
        ctx := { st.contexts c with
          nbWatchpoints := (st.contexts c).nbWatchpoints + 1
          watchpoints := Function.update (st.contexts c).watchpoints (st.contexts c).nbWatchpoints.toNat e.address } }) := by
  obtain ⟨hwell, hlisted⟩ := (h.contexts c).list (h.length_le hfree c) hnew
  have hnone : ¬∃ i, (st.manager.watchpoints i).Of e.debug e.address := by
    rwa [hdebug, h.lists]
  have hhandle : ∀ c' ≠ c, (st.contexts c').debug ≠ (st.contexts c).debug := by
    intro c' hne heq
    exact hne (h.handles c' c heq (by rwa [heq]))
  refine h.with (h.sound.enter hfree hkind (by rwa [hdebug]) hnone registers) hwell ?_ ?_ ?_ ?_
  · intro a
    rw [hlisted, ← h.lists]
    refine (exists_of_update hfree _ a).trans (or_congr_right ?_)
    exact ⟨fun he => he.2.1.symm, fun haddress => ⟨hkind, haddress.symm, hdebug⟩⟩
  · intro c' hne a
    refine (exists_of_update hfree _ a).trans (or_iff_left ?_)
    exact fun he => hhandle c' hne (he.2.2.symm.trans hdebug)
  · intro i hi
    by_cases heq : i = id
    · subst heq
      exact Or.inl (by simpa using hdebug)
    · simp only [Function.update_of_ne heq] at hi ⊢
      obtain ⟨c', hc'⟩ := h.owned i hi
      by_cases hcc : c' = c
      · subst hcc
        exact Or.inl hc'.symm
      · exact Or.inr ⟨c', hcc, hc'⟩
  · exact fun _ => hhandle

/-- A context takes an entry of its own out. -/
theorem Agree.leave (h : Agree st) {c : ι} {id : Fin 2} {a : UInt32}
    (hof : (st.manager.watchpoints id).Of (st.contexts c).debug a) :
    Agree (st.with c
      { manager := ⟨st.manager.total - 1, Function.update st.manager.watchpoints id Watchpoint.zero⟩
        hardware := Function.update st.hardware id none
        ctx := (st.contexts c).unlist a }) := by
  obtain ⟨hcount, hlisted⟩ := (h.contexts c).unlist ((h.lists c a).mp ⟨id, hof⟩)
  have hopen : (st.contexts c).debug ≠ 0 := by
    rw [← hof.2.2]
    exact h.sound.opened id hof.1
  have hhandle : ∀ c' ≠ c, (st.contexts c').debug ≠ (st.contexts c).debug := by
    intro c' hne heq
    exact hne (h.handles c' c heq (by rwa [heq]))
  have hsize := (h.contexts c).size
  refine h.with (h.sound.leave hof.1) (WatchContext.wellFormed_of_le_one (by dsimp only; omega)) ?_ ?_ ?_ ?_
  · intro b
    dsimp only
    rw [hlisted, ← h.lists, WatchContext.unlist_debug]
    refine (exists_of_update_zero h.sound.once hof _ b).trans ?_
    simp
  · intro c' hne b
    refine (exists_of_update_zero h.sound.once hof _ b).trans ?_
    simp [hhandle c' hne]
  · intro i hi
    have hne : i ≠ id := by
      rintro rfl
      simp [Watchpoint.zero] at hi
    simp only [Function.update_of_ne hne, WatchContext.unlist_debug] at hi ⊢
    obtain ⟨c', hc'⟩ := h.owned i hi
    by_cases hcc : c' = c
    · subst hcc
      exact Or.inl hc'.symm
    · exact Or.inr ⟨c', hcc, hc'⟩
  · dsimp only
    rw [WatchContext.unlist_debug]
    exact fun _ => hhandle

/-- Adding a watchpoint, if it succeeds, enters it into an entry that is free. -/
theorem addWatchpoint_agree (h : Agree st) {c : ι} {address size : UInt32} {kind : WatchpointKind} {info : Option UInt32}
    (hinfo : info ≠ none → (st.contexts c).debug ≠ 0) :
    Agree (st.with c (addWatchpoint (st.view c) address size kind info).2) := by
  have hsame : Agree (st.with c (st.view c)) := by rwa [Watchpoints.with_self]
  unfold addWatchpoint
  dsimp only
  by_cases htotal : (st.view c).manager.total = 2
  · rw [if_pos htotal]
    exact hsame
  rw [if_neg htotal]
  by_cases hargs : size = 0 ∨ address - (address &&& ~~~3) + size > 4 ∨ kind = .disabled
  · rw [if_pos hargs]
    exact hsame
  rw [if_neg hargs]
  by_cases hduplicate : getWatchpointKind (st.view c).manager (st.view c).ctx address ≠ .disabled
  · rw [if_pos hduplicate]
    exact hsame
  rw [if_neg hduplicate]
  cases info with
  | none => exact hsame
  | some out =>
    have hopen : (st.contexts c).debug ≠ 0 := hinfo (by simp)
    have hfree : (st.manager.watchpoints (if (st.manager.watchpoints 0).kind = .disabled then 0 else 1)).kind = .disabled := by
      split_ifs with hfirst
      · exact hfirst
      · by_contra hsecond
        refine htotal (UInt32.toNat_inj.mp ?_)
        have hall : st.manager.used = Finset.univ := by
          ext i
          fin_cases i
          · simp [WatchpointManager.used, hfirst]
          · simp [WatchpointManager.used, hsecond]
        show st.manager.total.toNat = 2
        rw [h.sound.total, hall]
        rfl
    have hnew : ¬(st.contexts c).Lists address := by
      rw [← h.lists]
      rintro ⟨i, hi⟩
      exact getWatchpointKind_disabled h (not_not.mp hduplicate) hopen i hi
    exact h.enter (e := ⟨address, size, kind, (st.contexts c).debug⟩) hfree (fun hkind => hargs (Or.inr (Or.inr hkind)))
      rfl hopen hnew _

omit [DecidableEq ι] in
/-- Detaching, where it is exact, takes the entry of the context out, if it has one. -/
theorem detachWatchpoints_cases (h : Agree st) {c : ι} (hexact : Exact st (.detach c)) :
    ((st.contexts c).nbWatchpoints.toNat = 0 ∧
      detachWatchpoints (st.view c) = ⟨st.manager, st.hardware, ⟨0, 0, (st.contexts c).watchpoints⟩⟩) ∨
    ∃ id, (st.contexts c).nbWatchpoints.toNat = 1 ∧
      (st.manager.watchpoints id).Of (st.contexts c).debug ((st.contexts c).watchpoints 0) ∧ ∃ watchpoints,
      detachWatchpoints (st.view c) =
        ⟨⟨st.manager.total - 1, Function.update st.manager.watchpoints id Watchpoint.zero⟩,
          Function.update st.hardware id none, ⟨0, 0, watchpoints⟩⟩ := by
  rcases hexact with hnone | ⟨hone, hexact⟩
  · refine Or.inl ⟨by rw [hnone]; rfl, ?_⟩
    unfold detachWatchpoints
    simp only [Watchpoints.view, hnone]
    rfl
  · obtain ⟨id, hof⟩ := (h.lists c _).mpr ⟨0, by rw [hone]; decide, rfl⟩
    refine Or.inr ⟨id, by rw [hone]; rfl, hof, ?_⟩
    have hremove : removeWatchpoint (st.view c) ((st.contexts c).watchpoints 0) .disabled = (.ok,
        ⟨⟨st.manager.total - 1, Function.update st.manager.watchpoints id Watchpoint.zero⟩,
          Function.update st.hardware id none, (st.contexts c).unlist ((st.contexts c).watchpoints 0)⟩) := by
      rcases removeWatchpoint_cases hexact h.sound with ⟨-, hnone⟩ | ⟨id', hof', heq⟩
      · exact absurd rfl (hnone id hof).1
      · rw [heq, h.sound.once id' id _ _ hof' hof]
        rfl
    refine ⟨Function.update ((st.contexts c).unlist ((st.contexts c).watchpoints 0)).watchpoints 0 0, ?_⟩
    unfold detachWatchpoints
    simp only [show (st.view c).ctx = st.contexts c from rfl, hone]
    show _ = (_ : WatchState)
    simp only [show (1 : UInt32).toNat = 1 from rfl, detachLoop, show (st.view c).ctx = st.contexts c from rfl, hone]
    rw [if_pos (by decide)]
    simp only [show (0 : UInt32).toNat = 0 from rfl, hremove]

/-- A step that is exact keeps the agreement. -/
theorem stepWatchpoint_agree (h : Agree st) {op : WatchpointOp ι} (hkernel : Kernel st op) (hexact : Exact st op) :
    Agree (stepWatchpoint st op).2 := by
  cases op with
  | attach c debug =>
    obtain ⟨hclosed, -, hfresh⟩ := hkernel
    exact h.attach hclosed hfresh
  | add c address size kind info => exact addWatchpoint_agree h hkernel
  | remove c address kind =>
    show Agree (st.with c (removeWatchpoint (st.view c) address kind).2)
    rcases removeWatchpoint_cases (s := st.view c) hexact h.sound with ⟨heq, -⟩ | ⟨id, hof, heq⟩
    · rw [heq]
      show Agree (st.with c (st.view c))
      rwa [Watchpoints.with_self]
    · rw [heq]
      exact h.leave hof
  | detach c =>
    show Agree (st.with c (detachWatchpoints (st.view c)))
    rcases detachWatchpoints_cases h hexact with ⟨hempty, heq⟩ | ⟨id, hone, hof, watchpoints, heq⟩
    · rw [heq]
      exact h.close hempty _
    · have hleave := h.leave hof
      have hcount := ((h.contexts c).unlist ((h.lists c _).mp ⟨id, hof⟩)).1
      have hclose := hleave.close (c := c) (by
        simp only [Watchpoints.with, Function.update_self]
        omega) watchpoints
      rw [heq]
      simpa [Watchpoints.with] using hclose

/-- In every run whose removals and detachments are exact, the manager and the contexts agree; removing takes out the
entry for the address and the context and nothing else; and detaching takes out the entries of the context. -/
theorem watchpoints_agree (h : ((watchpointSystem ι).restrict Exact).Reachable st) :
    Agree st ∧
      (∀ c address kind, Exact st (.remove c address kind) →
        let (r, st') := stepWatchpoint st (.remove c address kind)
        (r = .ok → ∃ id, (st.manager.watchpoints id).Of (st.contexts c).debug address ∧
          st'.manager.watchpoints = Function.update st.manager.watchpoints id Watchpoint.zero ∧ (st'.hardware id) = none) ∧
        (r ≠ .ok → st' = st ∧ ∀ id, (st.manager.watchpoints id).Of (st.contexts c).debug address →
          kind ≠ .disabled ∧ (st.manager.watchpoints id).kind ≠ kind)) ∧
      ∀ c, Exact st (.detach c) → ∀ id,
        let st' := (stepWatchpoint st (.detach c)).2
        st'.manager.watchpoints id =
            (if (st.manager.watchpoints id).debug = (st.contexts c).debug then Watchpoint.zero else st.manager.watchpoints id) ∧
          st'.manager.total.toNat + (st.contexts c).nbWatchpoints.toNat = st.manager.total.toNat := by
  have hagree : Agree st := by
    refine h.invariant ?_ ?_
    · rintro s rfl
      exact start_agree
    · rintro s op s' - hs ⟨hexact, hkernel, rfl⟩
      exact stepWatchpoint_agree hs hkernel hexact
  refine ⟨hagree, ?_, ?_⟩
  · intro c address kind hexact
    rcases removeWatchpoint_cases (s := st.view c) hexact hagree.sound with ⟨heq, hnone⟩ | ⟨id, hof, heq⟩
    · simp only [stepWatchpoint, heq]
      exact ⟨by simp, fun _ => ⟨Watchpoints.with_self st c, hnone⟩⟩
    · simp only [stepWatchpoint, heq]
      exact ⟨fun _ => ⟨id, hof, rfl, Function.update_self ..⟩, by simp⟩
  · intro c hexact id
    -- an entry with the handle of the context is free, or for an address that it lists
    have hmine (hdebug : (st.manager.watchpoints id).debug = (st.contexts c).debug) :
        st.manager.watchpoints id = Watchpoint.zero ∨ (st.manager.watchpoints id).Of (st.contexts c).debug
          (st.manager.watchpoints id).address := by
      by_cases hused : (st.manager.watchpoints id).kind = .disabled
      · exact Or.inl (hagree.sound.unused id hused)
      · exact Or.inr ⟨hused, rfl, hdebug⟩
    rcases detachWatchpoints_cases hagree hexact with ⟨hempty, heq⟩ | ⟨id', hone, hof, watchpoints, heq⟩
    · simp only [stepWatchpoint, heq]
      refine ⟨?_, by rw [hempty]; rfl⟩
      show st.manager.watchpoints id = _
      split_ifs with hdebug
      · rcases hmine hdebug with hzero | hused
        · exact hzero
        · exact absurd ((hagree.lists c _).mp ⟨id, hused⟩) (WatchContext.lists_of_zero hempty _)
      · rfl
    · simp only [stepWatchpoint, heq]
      refine ⟨?_, by rw [hone]; exact hagree.sound.total_sub_one hof.1⟩
      show Function.update st.manager.watchpoints id' Watchpoint.zero id = _
      by_cases hid : id = id'
      · subst hid
        rw [Function.update_self, if_pos hof.2.2]
      · rw [Function.update_of_ne hid]
        split_ifs with hdebug
        · rcases hmine hdebug with hzero | hused
          · exact hzero
          · have haddress := (WatchContext.lists_of_one hone _).mp ((hagree.lists c _).mp ⟨id, hused⟩)
            rw [haddress] at hof
            exact absurd (hagree.sound.once id id' _ _ hused hof) hid
        · rfl

theorem reachable_step (h : ((watchpointSystem ι).restrict Exact).Reachable st) (op : WatchpointOp ι) (hexact : Exact st op)
    (hkernel : Kernel st op) : ((watchpointSystem ι).restrict Exact).Reachable (stepWatchpoint st op).2 :=
  h.step ⟨hexact, hkernel, rfl⟩

end

/-- Two contexts watch the same address, and the one that has the first entry leaves. -/
theorem watchpoints_agree_two :
    let st := (stepWatchpoint (stepWatchpoint (stepWatchpoint (stepWatchpoint (Watchpoints.start : Watchpoints Bool)
      (.attach false 5)).2 (.attach true 6)).2 (.add false 0x1000 4 .write (some 1))).2 (.add true 0x1000 4 .read (some 2))).2
    Agree st ∧ Agree (stepWatchpoint st (.detach false)).2 := by
  intro st
  have hstart : ((watchpointSystem Bool).restrict Exact).Reachable Watchpoints.start := .init rfl
  have hattach := reachable_step hstart (.attach false 5) trivial ⟨rfl, by decide, by decide⟩
  have hattach' := reachable_step hattach (.attach true 6) trivial ⟨rfl, by decide, by decide⟩
  have hadd := reachable_step hattach' (.add false 0x1000 4 .write (some 1)) trivial fun _ => by decide
  have hadd' : ((watchpointSystem Bool).restrict Exact).Reachable st :=
    reachable_step hadd (.add true 0x1000 4 .read (some 2)) trivial fun _ => by decide
  have hdetach := reachable_step hadd' (.detach false) (Or.inr ⟨by decide, by decide⟩) trivial
  exact ⟨(watchpoints_agree hadd').1, (watchpoints_agree hdetach).1⟩

/-- Removing the second of two watchpoints of a context takes the entry of the first; and detaching leaves one of them. -/
theorem second_watchpoint_removes_first :
    let st := (stepWatchpoint (stepWatchpoint (stepWatchpoint (Watchpoints.start : Watchpoints Unit)
      (.attach () 5)).2 (.add () 0x1000 4 .write (some 1))).2 (.add () 0x2000 4 .write (some 1))).2
    let removed := stepWatchpoint st (.remove () 0x2000 .write)
    let detached := (stepWatchpoint st (.detach ())).2
    removed.1 = .ok ∧ (removed.2.manager.watchpoints 1).Of 5 0x2000 ∧ ¬(removed.2.contexts ()).Lists 0x2000 ∧
      (removed.2.contexts ()).Lists 0x1000 ∧ (∀ id, ¬(removed.2.manager.watchpoints id).Of 5 0x1000) ∧
      (detached.manager.watchpoints 1).Of 5 0x2000 ∧ detached.manager.total = 1 := by
  decide

end Omiiba.Rosalina
