/-
The contexts of the debugger, after server.c, debugger.c and process_list.c: which of them the network server and
the menus take, on which port, and when they are given back.
-/
import Omiiba.Lib.System

namespace Omiiba.Rosalina

/-- `MAX_DEBUG` and `GDB_PORT_BASE`. -/
def maxDebug : Nat := 3
def gdbPortBase : Nat := 4000

/-- `GDB_FLAG_SELECTED`, `GDB_FLAG_USED`, `GDB_FLAG_EXTENDED_REMOTE` and `GDB_FLAG_ATTACHED_AT_START`. -/
def flagSelected : UInt32 := 1
def flagUsed : UInt32 := 2
def flagExtendedRemote : UInt32 := 4
def flagAttachedAtStart : UInt32 := 64

/-- `GDB_FLAG_ALLOCATED_MASK` and `GDB_FLAG_PROC_RESTART_MASK`. -/
def flagAllocatedMask : UInt32 := flagSelected ||| flagUsed
def flagProcRestartMask : UInt32 := 8 ||| flagExtendedRemote ||| flagUsed

/-- `GDBState`. -/
inductive GdbState
  | disconnected
  | connected
  | attached
  | detaching
  deriving DecidableEq

/-- The fields of a `GDBContext` that decide who has it. -/
structure GdbCtx where
  localPort : Nat
  flags : UInt32
  state : GdbState
  debug : UInt32
  pid : UInt32
  shouldClose : Bool
  deriving DecidableEq

namespace GdbCtx

def zero : GdbCtx := ⟨0, 0, .disconnected, 0, 0, false⟩

/-- One of some flags is set. -/
def has (c : GdbCtx) (mask : UInt32) : Bool := c.flags &&& mask ≠ 0

def allocated (c : GdbCtx) : Bool := c.has flagAllocatedMask

end GdbCtx

/-- The contexts of the server, and the one for the next application (`nextApplicationGdbCtx`). -/
structure GdbContexts where
  ctxs : Fin maxDebug → GdbCtx
  next : Option (Fin maxDebug)

namespace GdbContexts

variable (s : GdbContexts)

/-- `GDB_InitializeServer`. -/
def init : GdbContexts := ⟨fun _ => .zero, none⟩

def setCtx (i : Fin maxDebug) (c : GdbCtx) : GdbContexts := { s with ctxs := Function.update s.ctxs i c }

/-! ## Contexts for clients -/

/-- `GDB_SelectAvailableContext`; the context it returns, if any. -/
def selectAvailable (minPort maxPort : Nat) : Option (Fin maxDebug) × GdbContexts :=
  match Fin.find? fun id => !(s.ctxs id).allocated with
  | none => (none, s)
  | some id =>
    let portUsed port := (List.finRange maxDebug).any fun id => (s.ctxs id).allocated && (s.ctxs id).localPort == port
    match (List.range' minPort (maxPort - minPort)).find? fun port => !portUsed port with
    | none => (none, s.setCtx id { s.ctxs id with flags := ~~~flagSelected })
    | some port => (some id, s.setCtx id { s.ctxs id with flags := (s.ctxs id).flags ||| flagSelected, localPort := port })

/-- A context with its client. -/
def use (i : Fin maxDebug) (port : Nat) : GdbContexts :=
  s.setCtx i { s.ctxs i with localPort := port, flags := (s.ctxs i).flags ||| flagUsed, state := .connected }

/-- `GDB_GetClient`, up to the wait for the next application. -/
def getClient (port : Nat) : GdbContexts :=
  match Fin.find? fun i => (s.ctxs i).localPort == port with
  | some i => if (s.ctxs i).has flagUsed then s else s.use i port
  | none =>
    if gdbPortBase ≤ port ∧ port < gdbPortBase + maxDebug then
      match Fin.find? fun id => !(s.ctxs id).allocated with
      | none => s
      | some id => s.use id port
    else s

/-- `GDB_AcceptClient`; a context that has been selected is attached to its process, which may fail. -/
def acceptClient (i : Fin maxDebug) (attached : Option UInt32) : GdbContexts :=
  match (s.ctxs i).has flagSelected, attached with
  | true, some pid => s.setCtx i { s.ctxs i with state := .attached, pid := pid }
  | _, _ => s.setCtx i { s.ctxs i with state := .connected }

/-- `GDB_CloseClient`. -/
def closeClient (i : Fin maxDebug) : GdbContexts :=
  let c := s.ctxs i
  let detach := c.state = .attached ∨ c.state = .detaching ∨ c.debug ≠ 0
  s.setCtx i
    { localPort := 0
      flags := 0
      state := .disconnected
      debug := if detach then 0 else c.debug
      pid := if detach then 0 else c.pid
      shouldClose := false }

/-- `GDB_HandleEnableExtendedMode`. -/
def enableExtendedMode (i : Fin maxDebug) : GdbContexts :=
  if gdbPortBase ≤ (s.ctxs i).localPort ∧ (s.ctxs i).localPort < gdbPortBase + maxDebug then
    s.setCtx i { s.ctxs i with flags := (s.ctxs i).flags ||| flagExtendedRemote }
  else s

/-- `GDB_DetachImmediatelyExtended`; the connection stays. -/
def detachExtended (i : Fin maxDebug) : GdbContexts :=
  s.setCtx i { s.ctxs i with state := .detaching, debug := 0, pid := 0, flags := (s.ctxs i).flags &&& flagProcRestartMask }

/-! ## Menus -/

/-- `GDB_FindAllocatedContextByPid`. -/
def findAllocatedContextByPid (pid : UInt32) : Option (Fin maxDebug) :=
  (List.finRange maxDebug).foldl
    (fun ctx i =>
      if ((s.ctxs i).has flagSelected ∨ (s.ctxs i).state = .attached) ∧ (s.ctxs i).pid = pid then some i else ctx) none

/-- `ProcessListMenu_HandleSelected`: a process is selected, or selected no more. -/
def handleSelected (pid : UInt32) : GdbContexts :=
  match s.findAllocatedContextByPid pid with
  | some i =>
    let c := s.ctxs i
    if c.has flagUsed ∧ c.has flagSelected then s.setCtx i { c with shouldClose := true }
    else if c.has flagSelected ∧ gdbPortBase ≤ c.localPort ∧ c.localPort < gdbPortBase + maxDebug then
      s.setCtx i { c with flags := c.flags &&& ~~~flagSelected, localPort := 0 }
    else s
  | none =>
    match s.selectAvailable gdbPortBase (gdbPortBase + maxDebug) with
    | (none, s) => s
    | (some i, s) => s.setCtx i { s.ctxs i with pid := pid }

/-- `DebuggerMenu_DebugNextApplicationByForce`; `pm` agrees or not. -/
def debugNextApplicationByForce (succeeded : Bool) : GdbContexts :=
  if s.next.isSome then s
  else
    match s.selectAvailable (gdbPortBase + 3) (gdbPortBase + 4) with
    | (none, s) => s
    | (some i, s) =>
      if succeeded then { s.setCtx i { s.ctxs i with debug := 0, pid := 0xFFFFFFFF } with next := some i }
      else s.setCtx i { s.ctxs i with debug := 0, pid := 0xFFFFFFFF, flags := 0, localPort := 0 }

/-- `debuggerFetchAndSetNextApplicationDebugHandleTask`, with what `pm` has got. -/
def fetchAndSetNextApplicationDebugHandle (debug : UInt32) : GdbContexts :=
  match s.next with
  | none => s
  | some i =>
    if debug = 0 then { s.setCtx i { s.ctxs i with debug := 0, flags := 0 } with next := none }
    else
      { s.setCtx i { s.ctxs i with debug := debug, flags := (s.ctxs i).flags ||| flagAttachedAtStart } with next := none }

end GdbContexts

/-- What can happen to the contexts; the server listens on the ports from 4000 to 4003. -/
inductive GdbInput
  | getClient (k : Fin (maxDebug + 1))
  | accept (i : Fin maxDebug) (attached : Option UInt32)
  | close (i : Fin maxDebug)
  | extendedMode (i : Fin maxDebug)
  | detachExtended (i : Fin maxDebug)
  | handleSelected (pid : UInt32)
  | debugNext (succeeded : Bool)
  | fetchNext (debug : UInt32)

def gdbStep (s : GdbContexts) : GdbInput → GdbContexts
  | .getClient k => s.getClient (gdbPortBase + k)
  | .accept i attached => s.acceptClient i attached
  | .close i => s.closeClient i
  | .extendedMode i => s.enableExtendedMode i
  | .detachExtended i => s.detachExtended i
  | .handleSelected pid => s.handleSelected pid
  | .debugNext succeeded => s.debugNextApplicationByForce succeeded
  | .fetchNext debug => s.fetchAndSetNextApplicationDebugHandle debug

def gdbSystem : System GdbContexts GdbInput where
  init s := s = .init
  step s i s' := s' = gdbStep s i

/-! ## Flags -/

namespace GdbCtx

variable {c : GdbCtx}

theorem allocated_iff : c.allocated = true ↔ c.flags &&& 3 ≠ 0 := by
  show decide (c.flags &&& flagAllocatedMask ≠ 0) = true ↔ _
  rw [decide_eq_true_iff]
  rfl

theorem or_and_distrib (f g m : UInt32) : (f ||| g) &&& m = (f &&& m) ||| (g &&& m) := by
  apply UInt32.eq_of_toBitVec_eq
  simp only [UInt32.toBitVec_or, UInt32.toBitVec_and]
  exact BitVec.and_or_distrib_right

theorem or_allocated {f m : UInt32} (h : m &&& 3 ≠ 0) : (f ||| m) &&& 3 ≠ 0 := by
  intro hbits
  apply h
  rw [or_and_distrib, ← UInt32.toNat_inj, UInt32.toNat_or] at hbits
  rw [← UInt32.toNat_inj]
  exact (Nat.or_eq_zero_iff.mp hbits).2

theorem or_other {f m : UInt32} (h : m &&& 3 = 0) : (f ||| m) &&& 3 = f &&& 3 := by
  rw [or_and_distrib, h, UInt32.or_zero]

theorem free_of_flags (h : c.flags = 0) : c.allocated = false := by
  rw [← Bool.not_eq_true, allocated_iff, h]
  decide

theorem allocated_congr {c' : GdbCtx} (h : c'.flags &&& 3 = c.flags &&& 3) : c'.allocated = c.allocated := by
  rw [Bool.eq_iff_iff, allocated_iff, allocated_iff, h]

/-- A context that is not used is free once it is selected no more. -/
theorem deselect_free (h : c.has flagUsed = false) : (c.flags &&& ~~~flagSelected) &&& 3 = 0 := by
  have hused : c.flags &&& 2 = 0 := by
    have h' : decide (c.flags &&& 2 ≠ 0) = false := h
    simpa using h'
  rw [UInt32.and_assoc, show ~~~flagSelected &&& 3 = 2 from rfl, hused]

end GdbCtx

namespace GdbContexts

/-- Contexts that are selected or used have ports of the server, each its own. -/
structure Ports (s : GdbContexts) : Prop where
  served : ∀ i, (s.ctxs i).allocated = true →
    gdbPortBase ≤ (s.ctxs i).localPort ∧ (s.ctxs i).localPort ≤ gdbPortBase + maxDebug
  distinct : ∀ i j, (s.ctxs i).allocated = true → (s.ctxs j).allocated = true → (s.ctxs i).localPort = (s.ctxs j).localPort → i = j

/-- A context that is free can still have its old port; one that is allocated with the same port comes first. -/
structure Inv (s : GdbContexts) : Prop extends Ports s where
  first : ∀ i j, (s.ctxs i).allocated = true → (s.ctxs j).allocated = false → (s.ctxs i).localPort = (s.ctxs j).localPort → i < j

variable {s : GdbContexts} {i : Fin maxDebug} {c : GdbCtx}

@[simp] theorem setCtx_self : (s.setCtx i c).ctxs i = c := Function.update_self ..

theorem setCtx_of_ne {j : Fin maxDebug} (h : j ≠ i) : (s.setCtx i c).ctxs j = s.ctxs j := Function.update_of_ne h ..

/-- A context given a port that no other one has, or that others have behind it that are free. -/
theorem Inv.allocate (h : s.Inv) (hserved : gdbPortBase ≤ c.localPort ∧ c.localPort ≤ gdbPortBase + maxDebug)
    (hother : ∀ j, j ≠ i → (s.ctxs j).localPort = c.localPort → (s.ctxs j).allocated = false ∧ i < j) (hc : c.allocated = true) :
    (s.setCtx i c).Inv := by
  refine ⟨⟨fun j hj => ?_, fun j k hj hk hport => ?_⟩, fun j k hj hk hport => ?_⟩
  · by_cases hji : j = i
    · subst hji
      rwa [setCtx_self]
    · rw [setCtx_of_ne hji] at hj ⊢
      exact h.served j hj
  · by_cases hji : j = i <;> by_cases hki : k = i
    · rw [hji, hki]
    · subst hji
      rw [setCtx_self, setCtx_of_ne hki] at hport
      rw [setCtx_of_ne hki, (hother k hki hport.symm).1] at hk
      cases hk
    · subst hki
      rw [setCtx_self, setCtx_of_ne hji] at hport
      rw [setCtx_of_ne hji, (hother j hji hport).1] at hj
      cases hj
    · rw [setCtx_of_ne hji] at hj hport
      rw [setCtx_of_ne hki] at hk hport
      exact h.distinct j k hj hk hport
  · have hki : k ≠ i := by
      rintro rfl
      rw [setCtx_self, hc] at hk
      cases hk
    by_cases hji : j = i
    · subst hji
      rw [setCtx_self, setCtx_of_ne hki] at hport
      exact (hother k hki hport.symm).2
    · rw [setCtx_of_ne hji] at hj hport
      rw [setCtx_of_ne hki] at hk hport
      exact h.first j k hj hk hport

/-- A context given back, with its old port or none. -/
theorem Inv.release (h : s.Inv) (hport : c.localPort = (s.ctxs i).localPort ∨ c.localPort = 0) (hc : c.allocated = false) :
    (s.setCtx i c).Inv := by
  refine ⟨⟨fun j hj => ?_, fun j k hj hk heq => ?_⟩, fun j k hj hk heq => ?_⟩
  · have hji : j ≠ i := by
      rintro rfl
      rw [setCtx_self, hc] at hj
      cases hj
    rw [setCtx_of_ne hji] at hj ⊢
    exact h.served j hj
  · have hji : j ≠ i := by
      rintro rfl
      rw [setCtx_self, hc] at hj
      cases hj
    have hki : k ≠ i := by
      rintro rfl
      rw [setCtx_self, hc] at hk
      cases hk
    rw [setCtx_of_ne hji] at hj heq
    rw [setCtx_of_ne hki] at hk heq
    exact h.distinct j k hj hk heq
  · have hji : j ≠ i := by
      rintro rfl
      rw [setCtx_self, hc] at hj
      cases hj
    rw [setCtx_of_ne hji] at hj heq
    by_cases hki : k = i
    · subst hki
      rw [setCtx_self] at heq
      rcases hport with hport | hport
      · rw [hport] at heq
        cases halloc : (s.ctxs k).allocated with
        | true => exact absurd (h.distinct j k hj halloc heq) hji
        | false => exact h.first j k hj halloc heq
      · have := (h.served j hj).1
        unfold gdbPortBase at this
        omega
    · rw [setCtx_of_ne hki] at hk heq
      exact h.first j k hj hk heq

/-- Nothing changes that matters here. -/
theorem Inv.keep (h : s.Inv) (hport : c.localPort = (s.ctxs i).localPort) (hc : c.allocated = (s.ctxs i).allocated) :
    (s.setCtx i c).Inv := by
  cases halloc : (s.ctxs i).allocated with
  | false => exact h.release (Or.inl hport) (hc.trans halloc)
  | true =>
    refine h.allocate (hport ▸ h.served i halloc) (fun j hji hj => ?_) (hc.trans halloc)
    rw [hport] at hj
    cases hfree : (s.ctxs j).allocated with
    | true => exact absurd (h.distinct j i hfree halloc hj) hji
    | false => exact ⟨rfl, h.first i j halloc hfree hj.symm⟩

theorem inv_init : init.Inv := by
  have hfree : ∀ i, (init.ctxs i).allocated ≠ true := by
    intro i
    rw [show (init.ctxs i).allocated = false from GdbCtx.free_of_flags rfl]
    exact Bool.false_ne_true
  exact ⟨⟨fun i hi => absurd hi (hfree i), fun i _ hi => absurd hi (hfree i)⟩, fun i _ hi => absurd hi (hfree i)⟩

/-! ## Selecting -/

/-- What a selection does: there is no free context; or the first free one gets the first port that none has; or
all the ports are taken. -/
theorem selectAvailable_cases (s : GdbContexts) (minPort maxPort : Nat) :
    ((∀ i, (s.ctxs i).allocated = true) ∧ s.selectAvailable minPort maxPort = (none, s)) ∨
      ∃ i, (s.ctxs i).allocated = false ∧ (∀ j, (s.ctxs j).allocated = false → i ≤ j) ∧
        ((∃ port, minPort ≤ port ∧ port < maxPort ∧ (∀ j, (s.ctxs j).allocated = true → (s.ctxs j).localPort ≠ port) ∧
            s.selectAvailable minPort maxPort =
              (some i, s.setCtx i { s.ctxs i with flags := (s.ctxs i).flags ||| flagSelected, localPort := port })) ∨
          ((∀ port, minPort ≤ port → port < maxPort → ∃ j, (s.ctxs j).allocated = true ∧ (s.ctxs j).localPort = port) ∧
            s.selectAvailable minPort maxPort = (none, s.setCtx i { s.ctxs i with flags := ~~~flagSelected }))) := by
  have hused : ∀ port, ((List.finRange maxDebug).any fun id => (s.ctxs id).allocated && (s.ctxs id).localPort == port) = true ↔
      ∃ j, (s.ctxs j).allocated = true ∧ (s.ctxs j).localPort = port := by
    intro port
    simp [List.any_eq_true]
  unfold selectAvailable
  cases hfree : Fin.find? fun id => !(s.ctxs id).allocated with
  | none =>
    left
    refine ⟨fun i => ?_, rfl⟩
    simpa using Fin.find?_eq_none_iff.mp hfree i
  | some i =>
    right
    obtain ⟨hi, hfirst⟩ := Fin.find?_eq_some_iff.mp hfree
    refine ⟨i, by simpa using hi, fun j hj => ?_, ?_⟩
    · by_contra hlt
      have := hfirst j (lt_of_not_ge hlt)
      rw [hj] at this
      cases this
    dsimp only
    cases hport : (List.range' minPort (maxPort - minPort)).find? fun port =>
        !(List.finRange maxDebug).any fun id => (s.ctxs id).allocated && (s.ctxs id).localPort == port with
    | none =>
      right
      refine ⟨fun port hmin hmax => ?_, rfl⟩
      have htaken := List.find?_eq_none.mp hport port (List.mem_range'_1.mpr ⟨hmin, by omega⟩)
      rw [Bool.not_eq_true', Bool.not_eq_false] at htaken
      exact (hused port).mp htaken
    | some port =>
      left
      have hmem := List.mem_range'_1.mp (List.mem_of_find?_eq_some hport)
      have hnot := List.find?_some hport
      refine ⟨port, hmem.1, by omega, fun j hj heq => ?_, rfl⟩
      rw [(hused port).mpr ⟨j, hj, heq⟩] at hnot
      cases hnot

/-- A selection that fails leaves the flags as they were. -/
def SelectionKeeps (s : GdbContexts) (minPort maxPort : Nat) : Prop :=
  (s.selectAvailable minPort maxPort).1 = none → ∀ i, ((s.selectAvailable minPort maxPort).2.ctxs i).flags = (s.ctxs i).flags

/-- A free context and a free port in the range, if there is a free context at all. -/
def PortFree (s : GdbContexts) (minPort maxPort : Nat) : Prop :=
  (∃ i, (s.ctxs i).allocated = false) →
    ∃ port, minPort ≤ port ∧ port < maxPort ∧ ∀ j, (s.ctxs j).allocated = true → (s.ctxs j).localPort ≠ port

/-- With a free port there are only the cases of the source that are meant. -/
theorem selectAvailable_portFree {minPort maxPort : Nat} (h : s.PortFree minPort maxPort) :
    s.selectAvailable minPort maxPort = (none, s) ∨
      ∃ i port, (s.ctxs i).allocated = false ∧ (∀ j, (s.ctxs j).allocated = false → i ≤ j) ∧ minPort ≤ port ∧ port < maxPort ∧
        (∀ j, (s.ctxs j).allocated = true → (s.ctxs j).localPort ≠ port) ∧
        s.selectAvailable minPort maxPort =
          (some i, s.setCtx i { s.ctxs i with flags := (s.ctxs i).flags ||| flagSelected, localPort := port }) := by
  rcases selectAvailable_cases s minPort maxPort with ⟨_, hnone⟩ | ⟨i, hi, hfirst, ⟨port, hmin, hmax, hport, hsome⟩ | ⟨htaken, _⟩⟩
  · exact Or.inl hnone
  · exact Or.inr ⟨i, port, hi, hfirst, hmin, hmax, hport, hsome⟩
  · obtain ⟨port, hmin, hmax, hport⟩ := h ⟨i, hi⟩
    obtain ⟨j, hj, heq⟩ := htaken port hmin hmax
    exact absurd heq (hport j hj)

theorem selectionKeeps_of_portFree {minPort maxPort : Nat} (h : s.PortFree minPort maxPort) : s.SelectionKeeps minPort maxPort := by
  intro hnone
  rcases selectAvailable_portFree h with heq | ⟨i, port, _, _, _, _, _, heq⟩
  · rw [heq]
    exact fun _ => rfl
  · rw [heq] at hnone
    cases hnone

/-- There is a port for each context. -/
theorem portFree_served (s : GdbContexts) : s.PortFree gdbPortBase (gdbPortBase + maxDebug) := by
  rintro ⟨i, hi⟩
  by_contra hno
  -- each port would have a context of its own, and so each context a port
  have htaken : ∀ k : Fin maxDebug, ∃ j, (s.ctxs j).allocated = true ∧ (s.ctxs j).localPort = gdbPortBase + k := by
    intro k
    by_contra hk
    exact hno ⟨gdbPortBase + k, Nat.le_add_right _ _, Nat.add_lt_add_left k.2 _, fun j hj heq => hk ⟨j, hj, heq⟩⟩
  choose f hf using htaken
  have hinj : Function.Injective f := by
    intro k k' heq
    have hport := (hf k).2
    rw [heq, (hf k').2] at hport
    exact Fin.ext (Nat.add_left_cancel hport).symm
  obtain ⟨k, rfl⟩ := Finite.surjective_of_injective hinj i
  rw [(hf k).1] at hi
  cases hi

/-- A selection keeps the invariant, and returns a context that is allocated. -/
theorem Inv.select (h : s.Inv) {minPort maxPort : Nat} (hfree : s.PortFree minPort maxPort) (hmin : gdbPortBase ≤ minPort)
    (hmax : maxPort ≤ gdbPortBase + maxDebug + 1) : (s.selectAvailable minPort maxPort).2.Inv := by
  rcases selectAvailable_portFree hfree with heq | ⟨i, port, hi, hfirst, hlow, hhigh, hport, heq⟩
  · rw [heq]
    exact h
  · rw [heq]
    refine h.allocate ⟨hmin.trans hlow, by simp only; omega⟩ (fun j hji hj => ?_) ?_
    · cases halloc : (s.ctxs j).allocated with
      | true => exact absurd hj (hport j halloc)
      | false => exact ⟨rfl, lt_of_le_of_ne (hfirst j halloc) (Ne.symm hji)⟩
    · exact GdbCtx.allocated_iff.mpr (GdbCtx.or_allocated (by decide))

/-! ## Steps -/

theorem Inv.use (h : s.Inv) {port : Nat} (hserved : gdbPortBase ≤ port ∧ port ≤ gdbPortBase + maxDebug)
    (hother : ∀ j, j ≠ i → (s.ctxs j).localPort = port → (s.ctxs j).allocated = false ∧ i < j) : (s.use i port).Inv :=
  h.allocate hserved hother (GdbCtx.allocated_iff.mpr (GdbCtx.or_allocated (by decide)))

theorem Inv.getClient (h : s.Inv) {port : Nat} (hserved : gdbPortBase ≤ port ∧ port ≤ gdbPortBase + maxDebug) :
    (s.getClient port).Inv := by
  unfold GdbContexts.getClient
  cases hfound : Fin.find? fun i => (s.ctxs i).localPort == port with
  | some i =>
    obtain ⟨hi, hfirst⟩ := Fin.find?_eq_some_iff.mp hfound
    have hport : (s.ctxs i).localPort = port := by simpa using hi
    dsimp only
    split
    · exact h
    refine h.use hserved fun j hji hj => ?_
    -- a context in front has another port
    have hbehind : i < j := by
      rcases lt_or_gt_of_ne hji with hlt | hgt
      · have := hfirst j hlt
        rw [hj, beq_self_eq_true] at this
        cases this
      · exact hgt
    refine ⟨?_, hbehind⟩
    cases hj' : (s.ctxs j).allocated with
    | false => rfl
    | true =>
      cases hi' : (s.ctxs i).allocated with
      | true => exact absurd (h.distinct j i hj' hi' (hj.trans hport.symm)) hji
      | false => exact absurd (h.first j i hj' hi' (hj.trans hport.symm)) (not_lt_of_gt hbehind)
  | none =>
    have hnone : ∀ j, (s.ctxs j).localPort ≠ port := by
      intro j
      simpa using Fin.find?_eq_none_iff.mp hfound j
    dsimp only
    split
    · split
      · exact h
      · exact h.use hserved fun j _ hj => absurd hj (hnone j)
    · exact h

theorem Inv.acceptClient (h : s.Inv) (i : Fin maxDebug) (attached : Option UInt32) : (s.acceptClient i attached).Inv := by
  unfold GdbContexts.acceptClient
  split
  · exact h.keep rfl rfl
  · exact h.keep rfl rfl

theorem Inv.closeClient (h : s.Inv) (i : Fin maxDebug) : (s.closeClient i).Inv :=
  h.release (Or.inr rfl) (GdbCtx.free_of_flags rfl)

theorem Inv.enableExtendedMode (h : s.Inv) (i : Fin maxDebug) : (s.enableExtendedMode i).Inv := by
  unfold GdbContexts.enableExtendedMode
  split
  · exact h.keep rfl (GdbCtx.allocated_congr (GdbCtx.or_other (by decide)))
  · exact h

theorem Inv.detachExtended (h : s.Inv) (i : Fin maxDebug) : (s.detachExtended i).Inv := by
  unfold GdbContexts.detachExtended
  cases hfree : GdbCtx.allocated { s.ctxs i with
      state := .detaching, debug := 0, pid := 0, flags := (s.ctxs i).flags &&& flagProcRestartMask } with
  | false => exact h.release (Or.inl rfl) hfree
  | true =>
    refine h.keep rfl (hfree.trans (Eq.symm (GdbCtx.allocated_iff.mpr fun hzero => ?_)))
    -- what is masked out of no flag is no flag
    refine GdbCtx.allocated_iff.mp hfree ?_
    rw [UInt32.and_assoc, UInt32.and_comm flagProcRestartMask, ← UInt32.and_assoc, hzero, UInt32.zero_and]

theorem Inv.handleSelected (h : s.Inv) (pid : UInt32) : (s.handleSelected pid).Inv := by
  unfold GdbContexts.handleSelected
  split
  · rename_i i _
    dsimp only
    split
    · exact h.keep rfl rfl
    · rename_i hboth
      split
      · rename_i hsel
        refine h.release (Or.inr rfl) ?_
        have hused : (s.ctxs i).has flagUsed = false := by
          rw [← Bool.not_eq_true]
          exact fun hu => hboth ⟨hu, hsel.1⟩
        rw [← Bool.not_eq_true, GdbCtx.allocated_iff]
        exact not_not.mpr (GdbCtx.deselect_free hused)
      · exact h
  · have hselect := h.select s.portFree_served le_rfl (Nat.le_succ _)
    generalize s.selectAvailable gdbPortBase (gdbPortBase + maxDebug) = r at hselect
    rcases r with ⟨_ | i, s'⟩
    · exact hselect
    · exact Inv.keep hselect rfl rfl

end GdbContexts

/-- The next application can be selected: no context is waiting for it already, and port 4003 is free, unless there is
no context for it anyway. -/
def NextFree (s : GdbContexts) : GdbInput → Prop
  | .debugNext _ => s.next = none → s.PortFree (gdbPortBase + 3) (gdbPortBase + 4)
  | _ => True

namespace GdbContexts

variable {s : GdbContexts}

theorem Inv.debugNext (h : s.Inv) {succeeded : Bool} (hfree : NextFree s (.debugNext succeeded)) :
    (s.debugNextApplicationByForce succeeded).Inv := by
  unfold debugNextApplicationByForce
  split
  · exact h
  · rename_i hnext
    have hselect := h.select (hfree (by simpa using hnext)) (Nat.le_add_right _ _) le_rfl
    generalize s.selectAvailable (gdbPortBase + 3) (gdbPortBase + 4) = r at hselect
    rcases r with ⟨_ | i, s'⟩
    · exact hselect
    · cases succeeded with
      | true =>
        have hkept : (s'.setCtx i { s'.ctxs i with debug := 0, pid := 0xFFFFFFFF }).Inv := Inv.keep hselect rfl rfl
        exact ⟨⟨hkept.served, hkept.distinct⟩, hkept.first⟩
      | false => exact Inv.release hselect (Or.inr rfl) (GdbCtx.free_of_flags rfl)

theorem Inv.fetchNext (h : s.Inv) (debug : UInt32) : (s.fetchAndSetNextApplicationDebugHandle debug).Inv := by
  unfold fetchAndSetNextApplicationDebugHandle
  split
  · exact h
  · rename_i i _
    split
    · have hreleased : (s.setCtx i { s.ctxs i with debug := 0, flags := 0 }).Inv :=
        h.release (Or.inl rfl) (GdbCtx.free_of_flags rfl)
      exact ⟨⟨hreleased.served, hreleased.distinct⟩, hreleased.first⟩
    · have hkept : (s.setCtx i { s.ctxs i with debug := debug, flags := (s.ctxs i).flags ||| flagAttachedAtStart }).Inv := by
        exact h.keep rfl (GdbCtx.allocated_congr (GdbCtx.or_other (by decide)))
      exact ⟨⟨hkept.served, hkept.distinct⟩, hkept.first⟩

theorem Inv.step (h : s.Inv) {i : GdbInput} (hfree : NextFree s i) : (gdbStep s i).Inv := by
  cases i with
  | getClient k => exact h.getClient ⟨Nat.le_add_right _ _, Nat.add_le_add_left (Nat.lt_succ_iff.mp k.2) _⟩
  | accept i attached => exact h.acceptClient i attached
  | close i => exact h.closeClient i
  | extendedMode i => exact h.enableExtendedMode i
  | detachExtended i => exact h.detachExtended i
  | handleSelected pid => exact h.handleSelected pid
  | debugNext succeeded => exact h.debugNext hfree
  | fetchNext debug => exact h.fetchNext debug

end GdbContexts

/-- A context is never shared, and no selection that fails leaves a trace. -/
theorem gdb_ports {s : GdbContexts} (h : (gdbSystem.restrict NextFree).Reachable s) :
    s.Ports ∧ s.SelectionKeeps gdbPortBase (gdbPortBase + maxDebug) ∧
      ∀ succeeded, NextFree s (.debugNext succeeded) → s.next = none → s.SelectionKeeps (gdbPortBase + 3) (gdbPortBase + 4) := by
  have hinv : s.Inv := by
    refine h.invariant ?_ ?_
    · rintro s rfl
      exact GdbContexts.inv_init
    · rintro s i s' _ hs ⟨hfree, rfl⟩
      exact hs.step hfree
  exact ⟨hinv.toPorts, GdbContexts.selectionKeeps_of_portFree s.portFree_served,
    fun _ hfree hnext => GdbContexts.selectionKeeps_of_portFree (hfree hnext)⟩

/-- The first context waits for the next application. -/
def oneWaiting : GdbContexts := gdbStep .init (.debugNext true)

theorem gdb_ports_oneWaiting : (oneWaiting.ctxs ⟨0, by decide⟩).localPort = 4003 ∧ oneWaiting.Ports ∧
    oneWaiting.SelectionKeeps gdbPortBase (gdbPortBase + maxDebug) ∧
      ∀ succeeded, NextFree oneWaiting (.debugNext succeeded) → oneWaiting.next = none →
        oneWaiting.SelectionKeeps (gdbPortBase + 3) (gdbPortBase + 4) := by
  have hfree : NextFree .init (.debugNext true) := by
    intro _ _
    refine ⟨4003, le_rfl, by decide, fun j hj => ?_⟩
    rw [show (GdbContexts.init.ctxs j).allocated = false from GdbCtx.free_of_flags rfl] at hj
    cases hj
  exact ⟨by decide, gdb_ports (.step (i := GdbInput.debugNext true) (.init rfl) ⟨hfree, rfl⟩)⟩

/-- The application has been launched, and another one is asked for. -/
def askedTwice : GdbContexts := gdbStep (gdbStep oneWaiting (.fetchNext 1)) (.debugNext true)

/-- The second context counts as used, with no port at all. -/
theorem askedTwice_unserved : gdbSystem.Reachable askedTwice ∧ ¬askedTwice.Ports := by
  constructor
  · have hwaiting : gdbSystem.Reachable oneWaiting := .step (i := GdbInput.debugNext true) (.init rfl) rfl
    have hfetched : gdbSystem.Reachable (gdbStep oneWaiting (.fetchNext 1)) := .step (i := GdbInput.fetchNext 1) hwaiting rfl
    exact .step (i := GdbInput.debugNext true) hfetched rfl
  · intro h
    exact absurd (h.served ⟨1, by decide⟩ (by decide)) (by decide)

end Omiiba.Rosalina
