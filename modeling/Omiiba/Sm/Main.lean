/-
main.c: the main loop of sm, one iteration at a time. Everything an iteration takes from outside
(what clients did, what `svcReplyAndReceive` returned, the answers to system calls) is its input,
and the contract of the kernel says which inputs can come.
-/
import Omiiba.Lib.System
import Omiiba.Sm.Actions

namespace Omiiba.Sm

/-! ## Inputs -/

/-- What `svcReplyAndReceive` returned: a failure other than 0xC920181A, the failure 0xC920181A
(unreachable remote) with the index of the handle, or the index of a signalled handle with the
message received from it if it is a session. -/
inductive Received
  | failed (res : Result)
  | unreachable (id : Int)
  | signalled (id : Nat) (message : Words)

structure Input where
  /-- The notification semaphores that processes acquired since the last iteration. -/
  acquired : List Handle
  received : Received
  sys : Syscalls

/-! ## The loop -/

namespace State

/-- `handles[3..3+nbSessions)`. -/
def sessionHandles (s : State) : List Handle :=
  (s.sessionLists .inUse).map fun a => (s.sessionDataPool a).handle

def portHandles (s : State) : List Handle :=
  (s.sessionLists .waitingPortReady).map fun a => (s.sessionDataPool a).busyClientPortHandle

/-- The array given to `svcReplyAndReceive`. -/
def handles (g : Globals) (s : State) : List Handle :=
  [g.resumeGetServiceHandleOrPortRegisteredSemaphore, g.srvPort, g.srvPmPort] ++ s.sessionHandles ++ s.portHandles

def nbSessions (s : State) : Nat := (s.sessionLists .inUse).length

end State

/-- The message received, if a session was signalled. -/
def messageOf (s : State) (i : Input) : Option Words :=
  match i.received with
  | .signalled id message => if 3 ≤ id ∧ id < 3 + s.nbSessions then some message else none
  | _ => none

/-- Whether a token of the semaphore is taken. -/
def takesToken (i : Input) : Bool :=
  match i.received with
  | .signalled 0 _ => true
  | _ => false

/-- The state when `svcReplyAndReceive` returns: `cmdbuf[0]` said there was no reply, processes have
acquired their notification semaphores, a token was taken or a message received. -/
def svcReplyAndReceive (g : Globals) (s : State) (i : Input) : State :=
  let kernel := i.acquired.foldl Kernel.acquire s.kernel
  { s with
    cmdbuf := (messageOf s i).getD (if s.replyTarget = 0 then s.cmdbuf.set 0 0xFFFF0000 else s.cmdbuf)
    kernel :=
      if takesToken i then kernel.acquire g.resumeGetServiceHandleOrPortRegisteredSemaphore
      else
        match (messageOf s i).bind firstShared with
        | none => kernel
        | some h => if h = 0 then kernel else kernel.opened h .received }

/-- What the branches of the loop start from. -/
def received (g : Globals) (s : State) (i : Input) : State := { svcReplyAndReceive g s i with replyTarget := 0 }

/-- "Session closed": the last element of the pool with the handle is freed. -/
def sessionClosed (s : State) (h : Handle) : Except Panic State :=
  match (List.range poolSize).reverse.find? fun i => (s.sessionDataPool i).handle == h with
  | none => .error .sessionNotFound
  | some a => .ok ({ s with kernel := s.kernel.closeHandle (s.sessionDataPool a).handle }.moveSession a .free false)

/-- "Update the command postponing reason accordingly" on one session. -/
def portClosedOne (s : State) (a : Nat) : State :=
  let d := s.sessionDataPool a
  (s.setSession a { d with replayCmdbuf := d.replayCmdbuf.set 1 0xD0406401, busyClientPortHandle := 0 }).moveSession a
    .waitingForServiceOrPortRegister true

/-- "Port closed": every session waiting for the port waits for a registration from here on. -/
def portClosedLoop (h : Handle) : List Nat → State → State
  | [], s => s
  | node :: nodes, s =>
    if (s.sessionDataPool node).busyClientPortHandle == h then portClosedLoop h nodes (portClosedOne s node)
    else portClosedLoop h nodes s

/-- A new session is accepted. -/
def newSession (sys : Syscalls) (s : State) (isSrvPm : Bool) : Except Panic State :=
  let (res, session) := sys.acceptSession
  if rFailed res then .error (.result res)
  else
    match (s.sessionLists .free).head? with
    | none => .error .emptyFreeList
    | some a =>
      let s := { s with kernel := s.kernel.opened session .session }
      .ok ((s.setSession a { SessionData.zero with pid := -1, handle := session, isSrvPm }).moveSession a .inUse false)

/-- The end of an iteration that handles a command. -/
def serve (g : Globals) (sys : Syscalls) (s : State) (a : Nat) : Except Panic State :=
  match handleCommands g sys s a with
  | .error e => .error e
  | .ok (res, s) =>
    if wouldBlock res then
      if res = 0xD0406401 then .ok (s.moveSession a .waitingForServiceOrPortRegister true)
      else if res = 0xD0406402 then .ok (s.moveSession a .waitingPortReady true)
      else .error (.result res)
    else .ok { s with replyTarget := (s.sessionDataPool a).handle }

/-- A waiting session goes back to the sessions in use with its request in the command buffer. -/
def State.resume (s : State) (a : Nat) : State :=
  let s := s.moveSession a .inUse false
  { s with cmdbuf := Words.copy16 s.cmdbuf (s.sessionDataPool a).replayCmdbuf }

/-- `id == 0`: the longest woken session is resumed. -/
def resumeWoken (s : State) : Except Panic (Nat × State) :=
  match (s.sessionLists .toWakeUpAfterServiceOrPortRegister).head? with
  | none => .error .emptyWakeUpList
  | some a =>
    let s := { s with history := { s.history with resumed := s.history.resumed ++ [a] } }
    .ok (a, s.resume a)

/-- A port has room again: the longest waiting session of the port, if there is one, is resumed. -/
def resumePort (s : State) (h : Handle) : Option (Nat × State) :=
  ((s.sessionLists .waitingPortReady).find? fun a => (s.sessionDataPool a).busyClientPortHandle == h).map fun a =>
    let s := s.resume a
    (a, s.setSession a { s.sessionDataPool a with busyClientPortHandle := 0 })

/-- A command of a session in use, already in the command buffer. -/
def command (s : State) (h : Handle) : Except Panic (Nat × State) :=
  match (s.sessionLists .inUse).find? fun a => (s.sessionDataPool a).handle == h with
  | none => .error .sessionNotFound
  | some a =>
    let sent := fun b => if b = a then s.cmdbuf else s.history.sent b
    .ok (a, { s with history := { s.history with sent } })

/-- The session whose command is handled when `id` is no port of sm, and the state it is handled in;
none when a port has room that nobody waits for any more. -/
def select (s : State) (handles : List Handle) (id : Nat) : Except Panic (Option (Nat × State)) :=
  if id = 0 then (resumeWoken s).map some
  else if 3 + s.nbSessions ≤ id then .ok (resumePort s (handles.getD id 0))
  else (command s (handles.getD id 0)).map some

/-- The index `id` stands for: that of the reply target if `id` is negative. -/
def resolveId (handles : List Handle) (replyTarget : Handle) (id : Int) : Option Nat :=
  if id < 0 then handles.findIdx? (· == replyTarget) else some id.toNat

/-- One iteration of the loop of `main`. -/
def iterate (g : Globals) (s : State) (i : Input) : Except Panic State :=
  let handles := s.handles g
  let s1 := received g s i
  match i.received with
  | .failed res => .error (.result res)
  | .unreachable id =>
    match resolveId handles s.replyTarget id with
    | none => .error (.result 0xC920181A)
    | some id =>
      if id < 3 then .error .serverHandleClosed
      else if id < 3 + s.nbSessions then sessionClosed s1 (handles.getD id 0)
      else .ok (portClosedLoop (handles.getD id 0) (s1.sessionLists .waitingPortReady) s1)
  | .signalled id _ =>
    if id = 1 then newSession i.sys s1 false
    else if id = 2 then newSession i.sys s1 true -- srvPmSessionCreated is never set
    else
      match select s1 handles id with
      | .error e => .error e
      | .ok none => .ok s1
      | .ok (some (a, s2)) => serve g i.sys s2 a

/-! ## The contract of the kernel -/

/-- What the kernel guarantees for one iteration: an array with a closed handle is refused, an
index is one of the array, the semaphore is signalled only when it has a token, handles in a
message are new, and nobody else has the semaphore of sm. -/
structure KernelOk (g : Globals) (s : State) (i : Input) : Prop where
  closed : (∃ h ∈ s.handles g, s.kernel h = none) → ∃ res, i.received = .failed res
  index : ∀ id message, i.received = .signalled id message → id < (s.handles g).length
  indexUnreachable : ∀ id : Int, i.received = .unreachable id → id < (s.handles g).length
  token : ∀ message, i.received = .signalled 0 message →
    0 < s.kernel.count g.resumeGetServiceHandleOrPortRegisteredSemaphore
  shared : ∀ id message h, i.received = .signalled id message → firstShared message = some h → h ≠ 0 →
    s.kernel h = none
  acquired : g.resumeGetServiceHandleOrPortRegisteredSemaphore ∉ i.acquired
  syscalls : SyscallsOk (svcReplyAndReceive g s i).kernel i.sys

/-! ## Runs -/

/-- After `initSystem`, with sm's ports; the command buffer of the thread is not initialised. -/
def initSystem (g : Globals) (cmdbuf : Words) : State :=
  let kernel : Kernel := fun _ => none
  let kernel := kernel.opened g.resumeGetServiceHandleOrPortRegisteredSemaphore (.semaphore 0 64)
  { State.zero with
    kernel := (kernel.opened g.srvPort .serverPort).opened g.srvPmPort .serverPort
    cmdbuf
    sessionLists := Lanes.only .free (List.range poolSize)
    processLists := Lanes.only .free (List.range 64) }

/-- `main` up to the loop. -/
def start (g : Globals) (sys : Syscalls) (smPid : UInt32) (cmdbuf : Words) : Except Panic State :=
  if g.isPre7x then .ok (initSystem g cmdbuf)
  else
    match registerService g sys (initSystem g cmdbuf) smPid
      (fun i => [0x73, 0x72, 0x76, 0x3A, 0x70, 0x6D].getD i 0) 6 with
    | .error e => .error e
    | .ok (res, _, s) => if rFailed res then .error (.result res) else .ok s

/-- The states `main` enters its loop in. -/
def Initial (g : Globals) (s : State) : Prop :=
  [0, g.resumeGetServiceHandleOrPortRegisteredSemaphore, g.srvPort, g.srvPmPort].Nodup ∧
  ∃ sys smPid cmdbuf, start g sys smPid cmdbuf = .ok s ∧
    sys.createPort.2.2 ∉ [0, g.resumeGetServiceHandleOrPortRegisteredSemaphore, g.srvPort, g.srvPmPort]

/-- sm: every iteration that does not panic is a step. -/
def sm (g : Globals) : System State Input where
  init := Initial g
  step s i s' := KernelOk g s i ∧ iterate g s i = .ok s'

end Omiiba.Sm
