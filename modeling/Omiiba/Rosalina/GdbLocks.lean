/-
The locks of the debugger in server.c, debug.c and watchpoints.c: the one of the watchpoint manager, and one for each
context, over the packets that a context is sent.
-/
import Omiiba.Lib.Locks
import Omiiba.Rosalina.GdbContexts
import Omiiba.Rosalina.GdbWatchpoints

namespace Omiiba.Rosalina

/-- `watchpointManagerLock`, and the `lock` of a context. -/
inductive GdbLock
  | watchpointManager
  | context (i : Fin maxDebug)
  deriving DecidableEq

/-- `GDB_FLAG_NOACK`, `GDB_FLAG_PROCESS_CONTINUING`, `GDB_FLAG_TERMINATE_PROCESS` and `GDB_FLAG_CREATED`. -/
def flagNoAck : UInt32 := 8
def flagProcessContinuing : UInt32 := 16
def flagTerminateProcess : UInt32 := 32
def flagCreated : UInt32 := 128

/-- What the paths through the code depend on: the watchpoints and handles, the states and the flags of the contexts. -/
structure GdbWorld where
  watchpoints : Watchpoints (Fin maxDebug)
  state : Fin maxDebug → GdbState
  flags : Fin maxDebug → UInt32

abbrev Gdb := Locking GdbWorld GdbLock

/-! ## Watchpoints -/

section

variable (i : Fin maxDebug)

def GdbWorld.view (w : GdbWorld) : WatchState := w.watchpoints.view i

/-- An operation on the watchpoints of a context. -/
def watching {α : Type} (f : WatchState → α × WatchState) : Gdb α :=
  onState fun w => ((f (w.view i)).1, { w with watchpoints := w.watchpoints.with i (f (w.view i)).2 })

def setState (state : GdbState) : Gdb Unit := onState fun w => ((), { w with state := Function.update w.state i state })

def setFlags (f : UInt32 → UInt32) : Gdb Unit :=
  onState fun w => ((), { w with flags := Function.update w.flags i (f (w.flags i)) })

def setDebug (debug : UInt32) : Gdb Unit := watching i fun st => ((), { st with ctx := { st.ctx with debug := debug } })

def getWorld : Gdb GdbWorld := onState fun w => (w, w)

/-- What is refused before a watchpoint is set: both are used, the size or the kind is wrong, or the context has one there. -/
def Refused (st : WatchState) (address size : UInt32) (kind : WatchpointKind) : Prop :=
  st.manager.total = 2 ∨ (size = 0 ∨ (address - (address &&& ~~~3)) + size > 4 ∨ kind = .disabled) ∨
    getWatchpointKind st.manager st.ctx address ≠ .disabled

instance (st : WatchState) (address size : UInt32) (kind : WatchpointKind) : Decidable (Refused st address size kind) := by
  unfold Refused
  exact inferInstance

/-- `GDB_AddWatchpoint`. -/
def gdbAddWatchpoint (address size : UInt32) (kind : WatchpointKind) (info : Option UInt32) : Gdb GdbResult := do
  lock .watchpointManager
  let st := (← getWorld).view i
  let offset := address - (address &&& ~~~3)
  if st.manager.total = 2 then pure .ebusy
  else if size = 0 ∨ offset + size > 4 ∨ kind = .disabled then pure .einval
  else if getWatchpointKind st.manager st.ctx address ≠ .disabled then pure .einval
  else if info.isSome then
    let r ← watching i fun st => addWatchpoint st address size kind info
    unlock .watchpointManager
    pure r
  else
    unlock .watchpointManager
    pure .einval

/-- `GDB_RemoveWatchpoint`. -/
def gdbRemoveWatchpoint (address : UInt32) (kind : WatchpointKind) : Gdb GdbResult := do
  lock .watchpointManager
  let st := (← getWorld).view i
  if st.manager.ofKind (st.manager.searchRemove st.ctx.debug address) kind = none then
    unlock .watchpointManager
    pure .einval
  else
    let r ← watching i fun st => removeWatchpoint st address kind
    unlock .watchpointManager
    pure r

/-! ## Processes -/

/-- The loop over the watchpoints in `GDB_DetachFromProcess`. -/
def gdbDetachLoop : Nat → UInt32 → Gdb Unit
  | 0, _ => pure ()
  | fuel + 1, n => do
    let st := (← getWorld).view i
    if n < st.ctx.nbWatchpoints then
      let _ ← gdbRemoveWatchpoint i (st.ctx.watchpoints n.toNat) .disabled
      watching i fun st => ((), { st with ctx := { st.ctx with watchpoints := Function.update st.ctx.watchpoints n.toNat 0 } })
      gdbDetachLoop fuel (n + 1)
    else pure ()

/-- `GDB_DetachFromProcess`. -/
def gdbDetachFromProcess : Gdb Unit := do
  let st := (← getWorld).view i
  gdbDetachLoop i st.ctx.nbWatchpoints.toNat 0
  watching i fun st => ((), { st with ctx := { st.ctx with nbWatchpoints := 0, debug := 0 } })

/-- `GDB_DetachImmediatelyExtended`, which gives the lock back while it waits for the monitor. -/
def detachImmediatelyExtended : Gdb Unit := do
  lock (.context i)
  setState i .detaching
  unlock (.context i)
  lock (.context i)
  gdbDetachFromProcess i
  setFlags i (· &&& flagProcRestartMask)
  unlock (.context i)

/-- What the kernel and the process manager answer: a handle for the process, and if the events of its start come. -/
structure ProcessAnswers where
  debug : Option UInt32
  started : Bool

/-- `GDB_AttachToProcess`; true for success. -/
def gdbAttachToProcess (answers : ProcessAnswers) : Gdb Bool := do
  let w ← getWorld
  match if w.flags i &&& flagAttachedAtStart = 0 then answers.debug else some (w.view i).ctx.debug with
  | none => pure false
  | some debug =>
    setDebug i debug
    onlyIf (answers.started = true) (setState i .attached)
    pure answers.started

/-- `GDB_CreateProcess`. -/
def gdbCreateProcess (answers : ProcessAnswers) : Gdb Bool := do
  setDebug i 0
  match answers.debug with
  | none => pure false
  | some debug =>
    setFlags i (· ||| flagCreated ||| flagAttachedAtStart)
    setDebug i debug
    gdbAttachToProcess i answers

/-! ## Packets -/

/-- The commands whose handlers take locks, with what their arguments are and what they are answered, and the others, which
may change the flags. -/
inductive Handler
  | toggleStopPoint (add : Bool) (kind addr size : UInt32) (info : Option UInt32)
  | run (parsed : Bool) (answers : ProcessAnswers)
  | restart (answers : ProcessAnswers)
  | attach (parsed : Bool) (answers : ProcessAnswers)
  | detach (allowed : Bool)
  | kill
  | verboseKill (allowed : Bool)
  | other (flags : UInt32 → UInt32)

/-- `kinds`, for the kinds of stop points 2, 3 and 4. -/
def stopPointKind (kind : UInt32) : Option WatchpointKind :=
  if kind = 2 then some .write else if kind = 3 then some .read else if kind = 4 then some .readwrite else none

/-- `GDB_HandleToggleStopPoint`, after its arguments have been parsed; breakpoints take no lock. -/
def handleToggleStopPoint (add : Bool) (kind addr size : UInt32) (info : Option UInt32) : Gdb Unit :=
  match stopPointKind kind with
  | none => pure ()
  | some kind =>
    if add then (fun _ => ()) <$> gdbAddWatchpoint i addr size kind info
    else (fun _ => ()) <$> gdbRemoveWatchpoint i addr kind

def extendedRemote : Gdb Bool := do return (← getWorld).flags i &&& flagExtendedRemote ≠ 0

/-- A handler detaches at once in extended mode. -/
def detachExtended : Gdb Unit := do
  let extended ← extendedRemote i
  onlyIf (extended = true) (detachImmediatelyExtended i)

/-- What the handlers do. -/
def Handler.handle : Handler → Gdb Unit
  | .toggleStopPoint add kind addr size info => handleToggleStopPoint i add kind addr size info
  | .run parsed answers => do
    let extended ← extendedRemote i
    onlyIf (extended = true ∧ parsed = true) do
      lock (.context i)
      let created ← gdbCreateProcess i answers
      if created then unlock (.context i)
      else
        let w ← getWorld
        onlyIf ((w.view i).ctx.debug ≠ 0) (detachImmediatelyExtended i)
        unlock (.context i)
  | .restart answers => do
    let extended ← extendedRemote i
    let w ← getWorld
    onlyIf (extended = true ∧ w.flags i &&& flagCreated ≠ 0) do
      setFlags i (· ||| flagTerminateProcess)
      detachExtended i
      lock (.context i)
      let created ← gdbCreateProcess i answers
      let w ← getWorld
      onlyIf (created = false ∧ (w.view i).ctx.debug ≠ 0) (detachImmediatelyExtended i)
      unlock (.context i)
  | .attach parsed answers => do
    let extended ← extendedRemote i
    onlyIf (extended = true ∧ parsed = true) do
      lock (.context i)
      let attached ← gdbAttachToProcess i answers
      onlyIf (attached = false) (detachImmediatelyExtended i)
      unlock (.context i)
  | .detach allowed =>
    onlyIf (allowed = true) do
      setState i .detaching
      detachExtended i
  | .kill => do
    setState i .detaching
    setFlags i (· ||| flagTerminateProcess)
    detachExtended i
  | .verboseKill allowed =>
    onlyIf (allowed = true) do
      setState i .detaching
      setFlags i (· ||| flagTerminateProcess)
      detachExtended i
  | .other flags => setFlags i flags

/-- What `GDB_ReceivePacket` has got: nothing to do, an error, the interrupt, a command and what its handler returns, or
anything else. -/
inductive Packet
  | nothing
  | failed
  | interrupt
  | command (handler : Handler) (ret : Int)
  | unknown

/-- A packet, if acknowledgements end with it, and if `svcBreakDebugProcess` succeeds. -/
structure PacketInput where
  packet : Packet
  noAck : Bool
  breaks : Bool

/-- `GDB_ReceivePacket`, and what is done with what it has got. -/
def Packet.handle (packet : Packet) (noAck : Bool) : Gdb Int := do
  onlyIf (noAck = true) (setFlags i (· ||| flagNoAck))
  match packet with
  | .nothing => pure 0
  | .failed => pure (-1)
  | .interrupt =>
    setFlags i (· &&& ~~~flagProcessContinuing)
    pure 0
  | .command handler ret =>
    handler.handle i
    pure ret
  | .unknown => pure 0

/-- `GDB_DoPacket`. -/
def doPacket (input : PacketInput) : Gdb Int := do
  lock (.context i)
  let oldFlags := (← getWorld).flags i
  if (← getWorld).state i = .disconnected then pure (-1)
  else
    let ret ← input.packet.handle i input.noAck
    let w ← getWorld
    if w.state i = .detaching then
      if w.flags i &&& flagExtendedRemote ≠ 0 then
        setState i .connected
        unlock (.context i)
        pure ret
      else
        unlock (.context i)
        pure (-1)
    else
      onlyIf (oldFlags &&& flagProcessContinuing ≠ 0 ∧ w.flags i &&& flagProcessContinuing = 0 ∧ input.breaks = false)
        (setFlags i (· ||| flagProcessContinuing))
      unlock (.context i)
      pure ret

end

/-- The contexts that are sent packets, one after the other. -/
def doPackets : List (Fin maxDebug × PacketInput) → Gdb Unit
  | [] => pure ()
  | (i, input) :: packets => do
    let _ ← doPacket i input
    doPackets packets

/-! ## What is left held -/

section

variable (i : Fin maxDebug)

/-- The lock that `GDB_AddWatchpoint` leaves held. -/
def addLeak (address size : UInt32) (kind : WatchpointKind) (w : GdbWorld) : Option GdbLock :=
  if Refused (w.view i) address size kind then some .watchpointManager else none

/-- The lock that a handler leaves held. -/
def Handler.leak (w : GdbWorld) : Handler → Option GdbLock
  | .toggleStopPoint add kind addr size _ =>
    if add then (stopPointKind kind).bind fun kind => addLeak i addr size kind w else none
  | _ => none

theorem leaves_watching {α : Type} (f : WatchState → α × WatchState) : LeavesLocks (watching i f) fun _ => none := leaves_onState _

theorem leaves_setState (state : GdbState) : LeavesLocks (setState i state) fun _ => none := leaves_onState _

theorem leaves_setFlags (f : UInt32 → UInt32) : LeavesLocks (setFlags i f) fun _ => none := leaves_onState _

theorem leaves_getWorld : LeavesLocks getWorld fun _ => none := leaves_onState _

theorem gdbAddWatchpoint_leaves (address size : UInt32) (kind : WatchpointKind) (info : Option UInt32) :
    LeavesLocks (gdbAddWatchpoint i address size kind info) (addLeak i address size kind) := by
  intro s
  have hleak (h : Refused (s.state.view i) address size kind) :
      addLeak i address size kind s.state = some .watchpointManager := if_pos h
  show ((if (s.state.view i).manager.total = 2 then pure GdbResult.ebusy
    else if size = 0 ∨ (address - (address &&& ~~~3)) + size > 4 ∨ kind = WatchpointKind.disabled then pure .einval
    else if getWatchpointKind (s.state.view i).manager (s.state.view i).ctx address ≠ WatchpointKind.disabled then pure .einval
    else _ : Gdb GdbResult).run _).2.locks = _
  by_cases htotal : (s.state.view i).manager.total = 2
  · rw [if_pos htotal, hleak (Or.inl htotal)]
    rfl
  by_cases hsize : size = 0 ∨ (address - (address &&& ~~~3)) + size > 4 ∨ kind = .disabled
  · rw [if_neg htotal, if_pos hsize, hleak (Or.inr (Or.inl hsize))]
    rfl
  by_cases hkind : getWatchpointKind (s.state.view i).manager (s.state.view i).ctx address ≠ .disabled
  · rw [if_neg htotal, if_neg hsize, if_pos hkind, hleak (Or.inr (Or.inr hkind))]
    rfl
  · have hnone : addLeak i address size kind s.state = none := if_neg fun h => h.elim htotal fun h => h.elim hsize hkind
    rw [if_neg htotal, if_neg hsize, if_neg hkind, hnone]
    have hrest (r : GdbResult) : LeavesLocks (pure r : Gdb GdbResult) fun _ => none := leaves_pure r
    exact leavesUnder_ite (LeavesUnder.bind (leaves_watching i _) fun r => (hrest r).afterUnlock _) ((hrest _).afterUnlock _) s

theorem gdbRemoveWatchpoint_leaves (address : UInt32) (kind : WatchpointKind) :
    LeavesLocks (gdbRemoveWatchpoint i address kind) fun _ => none := by
  refine LeavesUnder.lock (LeavesUnder.bind leaves_getWorld fun w => leavesUnder_ite ?_ ?_)
  · exact (leaves_pure _).afterUnlock _
  · exact LeavesUnder.bind (leaves_watching i _) fun r => (leaves_pure r).afterUnlock _

theorem gdbDetachLoop_leaves : ∀ fuel n, LeavesLocks (gdbDetachLoop i fuel n) fun _ => none
  | 0, _ => leaves_pure ()
  | fuel + 1, n => by
    unfold gdbDetachLoop
    refine LeavesLocks.bind leaves_getWorld fun w => leaves_ite ?_ (leaves_pure ())
    refine LeavesLocks.bind (gdbRemoveWatchpoint_leaves i _ _) fun _ => ?_
    exact LeavesLocks.bind (leaves_watching i _) fun _ => gdbDetachLoop_leaves fuel (n + 1)

theorem gdbDetachFromProcess_leaves : LeavesLocks (gdbDetachFromProcess i) fun _ => none := by
  refine LeavesLocks.bind leaves_getWorld fun w => ?_
  exact LeavesLocks.bind (gdbDetachLoop_leaves i _ _) fun _ => leaves_watching i _

theorem detachImmediatelyExtended_leaves : LeavesLocks (detachImmediatelyExtended i) fun _ => none := by
  refine LeavesUnder.lock (LeavesUnder.bind (leaves_setState i _) fun _ => LeavesLocks.afterUnlock ?_ _)
  refine LeavesUnder.lock (LeavesUnder.bind (gdbDetachFromProcess_leaves i) fun _ => ?_)
  exact LeavesUnder.bind (leaves_setFlags i _) fun _ => leavesUnder_unlock _

theorem setDebug_leaves (debug : UInt32) : LeavesLocks (setDebug i debug) fun _ => none := leaves_watching i _

theorem extendedRemote_leaves : LeavesLocks (extendedRemote i) fun _ => none := LeavesLocks.bind leaves_getWorld fun _ => leaves_pure _

theorem gdbAttachToProcess_leaves (answers : ProcessAnswers) : LeavesLocks (gdbAttachToProcess i answers) fun _ => none := by
  refine LeavesLocks.bind leaves_getWorld fun w => ?_
  split
  · exact leaves_pure false
  · refine LeavesLocks.bind (setDebug_leaves i _) fun _ => ?_
    exact LeavesLocks.bind ((leaves_setState i _).onlyIf _) fun _ => leaves_pure _

theorem gdbCreateProcess_leaves (answers : ProcessAnswers) : LeavesLocks (gdbCreateProcess i answers) fun _ => none := by
  refine LeavesLocks.bind (setDebug_leaves i 0) fun _ => ?_
  split
  · exact leaves_pure false
  · refine LeavesLocks.bind (leaves_setFlags i _) fun _ => LeavesLocks.bind (setDebug_leaves i _) fun _ => ?_
    exact gdbAttachToProcess_leaves i answers

theorem detachExtended_leaves : LeavesLocks (detachExtended i) fun _ => none :=
  LeavesLocks.bind (extendedRemote_leaves i) fun _ => (detachImmediatelyExtended_leaves i).onlyIf _

theorem handleToggleStopPoint_leaves (add : Bool) (kind addr size : UInt32) (info : Option UInt32) :
    LeavesLocks (handleToggleStopPoint i add kind addr size info)
      fun w => if add then (stopPointKind kind).bind fun kind => addLeak i addr size kind w else none := by
  unfold handleToggleStopPoint
  rcases stopPointKind kind with _ | k
  · have hnone : (fun w => if add then (none : Option WatchpointKind).bind fun kind => addLeak i addr size kind w else none) =
        fun _ => none := by
      funext w
      exact ite_self _
    rw [hnone]
    exact leaves_pure ()
  · cases add with
    | true => exact (gdbAddWatchpoint_leaves i addr size k info).map _
    | false => exact (gdbRemoveWatchpoint_leaves i addr k).map _

/-- Only a watchpoint that is refused leaves a lock held. -/
theorem handle_leaves (handler : Handler) : LeavesLocks (handler.handle i) fun w => handler.leak i w := by
  cases handler with
  | toggleStopPoint add kind addr size info => exact handleToggleStopPoint_leaves i add kind addr size info
  | run parsed answers =>
    refine LeavesLocks.bind (extendedRemote_leaves i) fun _ => LeavesLocks.onlyIf ?_ _
    refine LeavesUnder.lock (LeavesUnder.bind (gdbCreateProcess_leaves i answers) fun _ => ?_)
    refine leavesUnder_ite (leavesUnder_unlock _) (LeavesUnder.bind leaves_getWorld fun w => ?_)
    exact LeavesUnder.bind ((detachImmediatelyExtended_leaves i).onlyIf _) fun _ => leavesUnder_unlock _
  | restart answers =>
    refine LeavesLocks.bind (extendedRemote_leaves i) fun _ => LeavesLocks.bind leaves_getWorld fun _ => LeavesLocks.onlyIf ?_ _
    refine LeavesLocks.bind (leaves_setFlags i _) fun _ => LeavesLocks.bind (detachExtended_leaves i) fun _ => ?_
    refine LeavesUnder.lock (LeavesUnder.bind (gdbCreateProcess_leaves i answers) fun _ => ?_)
    refine LeavesUnder.bind leaves_getWorld fun w => ?_
    exact LeavesUnder.bind ((detachImmediatelyExtended_leaves i).onlyIf _) fun _ => leavesUnder_unlock _
  | attach parsed answers =>
    refine LeavesLocks.bind (extendedRemote_leaves i) fun _ => LeavesLocks.onlyIf ?_ _
    refine LeavesUnder.lock (LeavesUnder.bind (gdbAttachToProcess_leaves i answers) fun _ => ?_)
    exact LeavesUnder.bind ((detachImmediatelyExtended_leaves i).onlyIf _) fun _ => leavesUnder_unlock _
  | detach allowed => exact (LeavesLocks.bind (leaves_setState i _) fun _ => detachExtended_leaves i).onlyIf _
  | kill => exact LeavesLocks.bind (leaves_setState i _) fun _ => LeavesLocks.bind (leaves_setFlags i _) fun _ => detachExtended_leaves i
  | verboseKill allowed =>
    refine LeavesLocks.onlyIf (LeavesLocks.bind (leaves_setState i _) fun _ => ?_) _
    exact LeavesLocks.bind (leaves_setFlags i _) fun _ => detachExtended_leaves i
  | other flags => exact leaves_setFlags i flags

/-- The lock that `GDB_DoPacket` leaves held: its own one if the context is closed, or what the handler leaves. -/
def PacketInput.leak (input : PacketInput) (w : GdbWorld) : Option GdbLock :=
  if w.state i = .disconnected then some (.context i)
  else
    match input.packet with
    | .command handler _ => handler.leak i w
    | _ => none

theorem packet_leaves (packet : Packet) (noAck : Bool) : LeavesLocks (packet.handle i noAck) fun w =>
    match packet with
    | .command handler _ => handler.leak i w
    | _ => none := by
  have hnoAck : LeavesLocks (onlyIf (noAck = true) (setFlags i (· ||| flagNoAck))) fun _ => none := (leaves_setFlags i _).onlyIf _
  unfold Packet.handle
  cases packet with
  | nothing => exact hnoAck.bind fun _ => leaves_pure 0
  | failed => exact hnoAck.bind fun _ => leaves_pure (-1)
  | interrupt => exact hnoAck.bind fun _ => (leaves_setFlags i _).bind fun _ => leaves_pure 0
  | command handler ret =>
    refine hnoAck.before (fun _ => (handle_leaves i handler).bind fun _ => leaves_pure ret) fun s => ?_
    rw [onlyIf]
    split_ifs
    · rfl
    · rfl
  | unknown => exact hnoAck.bind fun _ => leaves_pure 0

/-- All exits of `GDB_DoPacket` but the first one release the lock. -/
theorem doPacket_leaves (input : PacketInput) : LeavesLocks (doPacket i input) (input.leak i) := by
  intro s
  unfold PacketInput.leak
  show ((if s.state.state i = .disconnected then pure (-1) else _ : Gdb Int).run _).2.locks = _
  by_cases hclosed : s.state.state i = .disconnected
  · rw [if_pos hclosed, if_pos hclosed]
    rfl
  · rw [if_neg hclosed, if_neg hclosed]
    have hunlock (ret : Int) : LeavesUnder (.context i) (unlock (.context i) >>= fun _ => pure ret : Gdb Int) fun _ => none :=
      (leaves_pure ret).afterUnlock _
    refine LeavesUnder.bind (packet_leaves i input.packet input.noAck) (fun ret => ?_) s
    refine LeavesUnder.bind leaves_getWorld fun w => leavesUnder_ite (leavesUnder_ite ?_ (hunlock _)) ?_
    · exact LeavesUnder.bind (leaves_setState i _) fun _ => hunlock ret
    · exact LeavesUnder.bind ((leaves_setFlags i _).onlyIf _) fun _ => hunlock ret

end

/-! ## Packets that leave nothing held -/

/-- A packet for a context that is not closed, and not for a watchpoint that is refused. -/
structure PacketInput.Fine (i : Fin maxDebug) (w : GdbWorld) (input : PacketInput) : Prop where
  connected : w.state i ≠ .disconnected
  added : ∀ kind addr size info ret k, input.packet = .command (.toggleStopPoint true kind addr size info) ret →
    stopPointKind kind = some k → ¬Refused (w.view i) addr size k

/-- All packets are, each in the state that the ones before it have left. -/
def AllFine : Locked GdbWorld GdbLock → List (Fin maxDebug × PacketInput) → Prop
  | _, [] => True
  | s, (i, input) :: packets => input.Fine i s.state ∧ AllFine ((doPacket i input).run s).2 packets

section

variable {i : Fin maxDebug} {w : GdbWorld}

theorem addLeak_eq_none_iff {address size : UInt32} {kind : WatchpointKind} :
    addLeak i address size kind w = none ↔ ¬Refused (w.view i) address size kind := by
  unfold addLeak
  split_ifs with h
  · exact ⟨fun hnone => absurd hnone (by simp), fun hn => absurd h hn⟩
  · exact ⟨fun _ => h, fun _ => rfl⟩

theorem packet_leak_eq_none_iff {input : PacketInput} : input.leak i w = none ↔ input.Fine i w := by
  unfold PacketInput.leak
  constructor
  · intro h
    split_ifs at h with hclosed
    refine ⟨hclosed, fun kind addr size info ret k hpacket hkind => ?_⟩
    rw [hpacket] at h
    simp only [Handler.leak, hkind, ↓reduceIte, Option.bind_some] at h
    exact addLeak_eq_none_iff.mp h
  · rintro ⟨hconnected, hadded⟩
    rw [if_neg hconnected]
    split
    · rename_i handler ret hpacket
      unfold Handler.leak
      split
      · rename_i add kind addr size info
        split_ifs with hadd
        · subst hadd
          rcases hkind : stopPointKind kind with _ | k
          · rfl
          · exact addLeak_eq_none_iff.mpr (hadded kind addr size info ret k hpacket hkind)
        · rfl
      · rfl
    · rfl

/-- No packet makes up for a lock that has been left. -/
theorem doPackets_held_le : ∀ (packets : List (Fin maxDebug × PacketInput)) (s : Locked GdbWorld GdbLock) (l : GdbLock),
    s.locks.held l ≤ ((doPackets packets).run s).2.locks.held l
  | [], _, _ => le_rfl
  | (i, input) :: packets, s, l => by
    have hfirst := s.locks.held_le_take (input.leak i s.state) l
    rw [← doPacket_leaves i input s] at hfirst
    exact hfirst.trans (doPackets_held_le packets ((doPacket i input).run s).2 l)

theorem doPackets_locks_iff : ∀ (packets : List (Fin maxDebug × PacketInput)) (s : Locked GdbWorld GdbLock),
    ((doPackets packets).run s).2.locks = s.locks ↔ AllFine s packets
  | [], _ => ⟨fun _ => trivial, fun _ => rfl⟩
  | (i, input) :: packets, s => by
    have hrest := doPackets_locks_iff packets ((doPacket i input).run s).2
    have hlocks : ((doPacket i input).run s).2.locks = s.locks.take (input.leak i s.state) := doPacket_leaves i input s
    constructor
    · intro h
      have hleak : input.leak i s.state = none := by
        refine s.locks.take_eq_none h fun l => ?_
        rw [← hlocks]
        exact doPackets_held_le packets ((doPacket i input).run s).2 l
      rw [hleak] at hlocks
      exact ⟨packet_leak_eq_none_iff.mp hleak, hrest.mp (h.trans hlocks.symm)⟩
    · rintro ⟨hfine, hall⟩
      rw [packet_leak_eq_none_iff.mpr hfine] at hlocks
      exact (hrest.mpr hall).trans hlocks

end

/-- The locks are released as often as they are taken exactly where no watchpoint is refused and no closed context is sent a
packet. -/
theorem gdb_locks_balanced (i : Fin maxDebug) (w : GdbWorld) (address size : UInt32) (kind : WatchpointKind)
    (info : Option UInt32) (input : PacketInput) (locks : Locks GdbLock) (packets : List (Fin maxDebug × PacketInput)) :
    (Balanced (gdbAddWatchpoint i address size kind info) w ↔ ¬Refused (w.view i) address size kind) ∧
      Balanced (gdbRemoveWatchpoint i address kind) w ∧
      (Balanced (doPacket i input) w ↔ input.Fine i w) ∧
      (((doPackets packets).run ⟨w, locks⟩).2.locks = locks ↔ AllFine ⟨w, locks⟩ packets) := by
  refine ⟨?_, ?_, ?_, doPackets_locks_iff packets ⟨w, locks⟩⟩
  · exact ((gdbAddWatchpoint_leaves i address size kind info).balanced_iff w).trans addLeak_eq_none_iff
  · exact ((gdbRemoveWatchpoint_leaves i address kind).balanced_iff w).mpr rfl
  · exact ((doPacket_leaves i input).balanced_iff w).trans packet_leak_eq_none_iff

def firstContext : Fin maxDebug := ⟨0, by decide⟩
def secondContext : Fin maxDebug := ⟨1, by decide⟩

/-- The first context is attached to a process, and nothing has been set. -/
def firstAttached : GdbWorld where
  watchpoints := Watchpoints.start.with firstContext ⟨⟨0, fun _ => .zero⟩, fun _ => none, ⟨1, 0, fun _ => 0⟩⟩
  state i := if i = firstContext then .attached else .disconnected
  flags _ := 0

/-- The packet `Z2` for four bytes at an address. -/
def writeWatchpoint (addr : UInt32) : Fin maxDebug × PacketInput :=
  (firstContext, ⟨.command (.toggleStopPoint true 2 addr 4 (some 5)) 6, false, true⟩)

/-- A third watchpoint leaves the lock of the manager held, and so does a packet for a closed context its own lock. -/
theorem third_watchpoint_keeps_lock :
    ((doPackets [writeWatchpoint 0x1000, writeWatchpoint 0x2000]).run ⟨firstAttached, .free⟩).2.locks.held .watchpointManager = 0 ∧
      ((doPackets [writeWatchpoint 0x1000, writeWatchpoint 0x2000, writeWatchpoint 0x3000]).run
        ⟨firstAttached, .free⟩).2.locks.held .watchpointManager = 1 ∧
      ((doPacket secondContext ⟨.nothing, false, true⟩).run ⟨firstAttached, .free⟩).2.locks.held (.context secondContext) = 1 := by
  exact ⟨by decide +kernel, by decide +kernel, by decide +kernel⟩

end Omiiba.Rosalina
