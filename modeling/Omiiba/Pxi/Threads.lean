/-
The threads of PXI, step by step: the sender takes commands of nine services, hands them to arm9 and replies; the
receiver writes the replies of arm9 into the sessions; main accepts sessions. After sender.c, receiver.c, main.c and
common.h.
-/
import Omiiba.Pxi.Sender

namespace Omiiba.Pxi

/-! ## Bits -/

/-- `getMSBPosition`, `none` for -1. -/
def getMSBPosition (val : UInt32) : Option Nat := (List.range 32).reverse.find? fun pos => val.toNat.testBit pos

/-- `getLSBPosition`, `none` for -1. -/
def getLSBPosition (val : UInt32) : Option Nat := (List.range 32).find? fun pos => val.toNat.testBit pos

/-- `val & ~(1 << pos)`. -/
def clearBit (val : UInt32) (pos : Nat) : UInt32 := val &&& ~~~((1 : UInt32) <<< pos.toUInt32)

/-- `clearMSBs`. -/
def clearMSBs (val : UInt32) : Nat → UInt32
  | 0 => val
  | nb + 1 =>
    match getMSBPosition val with
    | none => val
    | some pos => clearMSBs (clearBit val pos) nb

/-! ## Sessions -/

/-- The words of a command or a reply, as many as its header tells. -/
structure Message where
  header : UInt32
  params : List UInt32
  length_params : params.length + 1 = (sizeWords header).toNat
  deriving DecidableEq

/-- The header alone. -/
def Message.empty : Message := ⟨0, [], rfl⟩

/-- `SessionData`. -/
structure Session where
  state : SessionState
  buffer : Message
  handle : Bool
  usedStaticBuffers : UInt32
  deriving DecidableEq

/-- Where the sender is: on its way through the sessions to send their commands, in `svcReplyAndReceive`, or, woken by
the semaphore, on its way through the sessions to find a reply. -/
inductive SenderPhase
  | sending (sessions : List (Fin 9))
  | waiting
  | scanning (sessions : List (Fin 9))
  deriving DecidableEq

/-- `SessionManager` and the locals of the threads: the handles the sender waits for, by their sessions, the thread's
descriptors of static buffers, and the session whose reply the receiver has written and not yet told. -/
structure Threads where
  latestMC5Val : UInt32
  pendingArm9Commands : UInt32
  sendingDisabled : Bool
  sessionData : Fin 9 → Session
  replySemaphore : Nat
  sendAllBuffersToArm9Event : Bool
  freeStaticBuffers : UInt32
  currentlyProvidedStaticBuffers : UInt32
  staticBufs : List (Option Nat)
  handles : List (Fin 9)
  posToServiceId : List (Fin 9)
  replyTarget : Option (Fin 9)
  sender : SenderPhase
  receiver : Option (Fin 9)

/-- The threads with what clients and arm9 have seen, the latest first: the command of a service that is with arm9, the
commands that a client has sent, those that arm9 has answered with its replies, the replies that a client has got, and
the descriptors that were there when the last command came; and if sending was turned off last. -/
structure PxiRun extends Threads where
  withArm9 : Fin 9 → Option Message
  accepted : Fin 9 → List Message
  answered : Fin 9 → List (Message × Message)
  replied : Fin 9 → List Message
  arrival : Fin 9 → List (Option Nat)
  inWindow : Bool

/-- What ends in `svcBreak`: a check of a state, of a size, or of `sendingDisabled` and `pendingArm9Commands`. -/
inductive Panic
  | stateCheck
  | sizeCheck
  | gateCheck
  | sessionTaken
  deriving DecidableEq

/-- `nbStaticBuffersByService`. -/
def nbStaticBuffersByService : Fin 9 → Nat := ![0, 2, 2, 2, 2, 1, 4, 4, 4]

namespace PxiRun

variable (s : PxiRun)

def setSession (i : Fin 9) (session : Session) : PxiRun :=
  { s with sessionData := Function.update s.sessionData i session }

/-! ### Static buffers -/

/-- `updateTLSForStaticBuffers`: of the bits that are left, the lowest is next. -/
def staticBufsOf (val : UInt32) : Nat → List (Option Nat)
  | 0 => []
  | n + 1 =>
    match getLSBPosition val with
    | none => none :: staticBufsOf val n
    | some pos => some pos :: staticBufsOf (clearBit val pos) n

/-- `acquireStaticBuffers`. -/
def acquireStaticBuffers : PxiRun :=
  let free := clearMSBs s.freeStaticBuffers 4
  let provided := ~~~free &&& s.freeStaticBuffers
  { s with
    freeStaticBuffers := free
    currentlyProvidedStaticBuffers := provided
    staticBufs := staticBufsOf provided 4 }

/-- `releaseStaticBuffers`, of the used buffers of a session. -/
def releaseUsed (i : Fin 9) (nb : Nat) : PxiRun :=
  let src := (s.sessionData i).usedStaticBuffers
  let val := clearMSBs src nb
  { s.setSession i { s.sessionData i with usedStaticBuffers := val } with
    freeStaticBuffers := s.freeStaticBuffers ||| (~~~val &&& src) }

/-- `releaseStaticBuffers`, of the provided buffers. -/
def releaseProvided (nb : Nat) : PxiRun :=
  let src := s.currentlyProvidedStaticBuffers
  let val := clearMSBs src nb
  { s with
    currentlyProvidedStaticBuffers := val
    freeStaticBuffers := s.freeStaticBuffers ||| (~~~val &&& src) }

/-! ### The sender -/

/-- The command of a session is to be sent. -/
def waits (i : Fin 9) : Bool := (s.sessionData i).handle && decide ((s.sessionData i).state = .receivedFromArm11)

/-- No command is sent. -/
def blocked : Bool := s.sendingDisabled && (decide (s.pendingArm9Commands ≠ 0) || decide (s.latestMC5Val = 0))

/-- A session is looked at, on the way through all of them. -/
def sendOne (i : Fin 9) : PxiRun :=
  if !s.waits i || s.blocked then s
  else
    { s.setSession i { s.sessionData i with state := .sentToArm9 } with
      pendingArm9Commands := if s.sendingDisabled then s.pendingArm9Commands else s.pendingArm9Commands + 1
      withArm9 := Function.update s.withArm9 i (some (s.sessionData i).buffer) }

/-- The idle sessions are listed, and the sender waits. -/
def wait : PxiRun :=
  let idle := (List.finRange 9).filter fun i => (s.sessionData i).handle && decide ((s.sessionData i).state = .idle)
  { s with
    handles := idle
    posToServiceId := idle ++ s.posToServiceId.drop idle.length
    sender := .waiting }

/-- The loop begins: without a reply to give, with the commands to send. -/
def turn : PxiRun := if s.replyTarget = none then { s with sender := .sending (List.finRange 9) } else s.wait

/-- The counters of the gate, when a reply is handled. -/
def passReply : PxiRun :=
  { s with
    sendingDisabled := if s.latestMC5Val = 2 then false else s.sendingDisabled
    pendingArm9Commands := if s.latestMC5Val = 0 then s.pendingArm9Commands - 1 else s.pendingArm9Commands }

/-- The reply of a session is copied, to be given to its handle. -/
def giveReply (i : Fin 9) : PxiRun :=
  let s := s.releaseUsed i 4
  let session := s.sessionData i
  { s.setSession i { session with state := .idle } with
    replyTarget := if session.handle then some i else none
    replied := if session.handle then Function.update s.replied i (session.buffer :: s.replied i) else s.replied }

/-- The reply of a session is handled. -/
def arm9Reply (i : Fin 9) : Except Panic PxiRun :=
  if s.latestMC5Val = 2 ∧ s.pendingArm9Commands ≠ 0 then .error .gateCheck
  else if sizeWords (s.sessionData i).buffer.header > 64 then .error .sizeCheck
  else .ok (s.passReply.giveReply i).turn

/-- `latest_PXI_MC5_val` and `sendingDisabled`, when a command comes. -/
def passCommand (i : Fin 9) (header arg : UInt32) : Except Panic PxiRun :=
  if !isMC5 i header then .ok { s with latestMC5Val := 0 }
  else if arg &&& 0xFF ≠ 0 then
    if s.sendingDisabled then .error .gateCheck
    else .ok { s with latestMC5Val := 1, sendingDisabled := true, inWindow := true }
  else if !s.sendingDisabled then .error .gateCheck
  else .ok { s with latestMC5Val := 2, inWindow := false }

/-- The command is copied, and the session keeps the static buffers it has come with. -/
def takeCommand (client i : Fin 9) (message : Message) : PxiRun :=
  let arrival := Function.update s.arrival i s.staticBufs
  let s := s.setSession i { s.sessionData i with buffer := message, state := .receivedFromArm11 }
  let s := s.releaseProvided (4 - nbStaticBuffersByService i)
  let s := s.setSession i { s.sessionData i with usedStaticBuffers := s.currentlyProvidedStaticBuffers }
  { s.acquireStaticBuffers with
    replyTarget := none
    accepted := Function.update s.accepted client (message :: s.accepted client)
    arrival := arrival }

/-- A command of arm11, at an index of the handles: from the client there, into the session there. -/
def arm11Command (client i : Fin 9) (message : Message) (arg : UInt32) : Except Panic PxiRun :=
  if (s.sessionData i).state ≠ .idle then .error .stateCheck
  else
    match s.passCommand i message.header arg with
    | .error e => .error e
    | .ok s => if sizeWords message.header > 64 then .error .sizeCheck else .ok (s.takeCommand client i message).turn

/-- A session is closed by its client. -/
def closeSession (i : Fin 9) : PxiRun :=
  { s.setSession i { s.sessionData i with handle := false } with replyTarget := none }.turn

/-! ### The receiver and main -/

/-- `receiveFromArm9`, up to where the semaphore is released. -/
def receiveFromArm9 (i : Fin 9) (reply : Message) : Except Panic PxiRun :=
  if (s.sessionData i).state ≠ .sentToArm9 then .error .stateCheck
  else if sizeWords reply.header > 64 then .error .sizeCheck
  else .ok { s.setSession i { s.sessionData i with buffer := reply, state := .receivedFromArm9 } with
    receiver := some i
    answered := Function.update s.answered i ((s.withArm9 i).toList.map (·, reply) ++ s.answered i)
    withArm9 := Function.update s.withArm9 i none }

/-- `main` accepts a session. -/
def acceptSession (i : Fin 9) : Except Panic PxiRun :=
  if (s.sessionData i).handle then .error .sessionTaken
  else .ok { s.setSession i { s.sessionData i with handle := true } with sendAllBuffersToArm9Event := true }

end PxiRun

/-! ## Runs -/

/-- A step: the sender looks at the next session on its way, or goes on with the event, the semaphore, a reply that
fails, or a session that is closed or has a command, by the index of its handle; main accepts a session; the receiver
writes a reply, or releases the semaphore. -/
inductive ThreadInput
  | send
  | scan
  | event
  | token
  | replyFailed
  | closed (index : Nat)
  | command (index : Nat) (message : Message) (arg : UInt32)
  | accept (i : Fin 9)
  | receive (i : Fin 9) (reply : Message)
  | release

/-- arm9 answers what it has been sent; the lock of the sender is free while it waits. -/
def PxiRun.Enabled (s : PxiRun) : ThreadInput → Prop
  | .send => ∃ sessions, s.sender = .sending sessions
  | .scan => ∃ sessions, s.sender = .scanning sessions
  | .event => s.sender = .waiting ∧ s.sendAllBuffersToArm9Event = true
  | .token => s.sender = .waiting ∧ 0 < s.replySemaphore
  | .replyFailed => s.sender = .waiting ∧ s.replyTarget ≠ none
  | .closed index => s.sender = .waiting ∧ index < s.handles.length
  | .command index _ _ => s.sender = .waiting ∧ index < s.handles.length
  | .accept _ => s.sender = .waiting
  | .receive i _ => s.receiver = none ∧ s.withArm9 i ≠ none
  | .release => s.receiver ≠ none

/-- One step of a thread; indices beyond the handles do not come. -/
def threadStep (s : PxiRun) : ThreadInput → Except Panic PxiRun
  | .send =>
    match s.sender with
    | .sending [] => .ok s.wait
    | .sending (i :: sessions) => .ok { s.sendOne i with sender := .sending sessions }
    | _ => .ok s
  | .scan =>
    match s.sender with
    | .scanning [] => .error .stateCheck
    | .scanning (i :: sessions) =>
      if (s.sessionData i).state = .receivedFromArm9 then s.arm9Reply i
      else .ok { s with sender := .scanning sessions }
    | _ => .ok s
  | .event => .ok { s with sendAllBuffersToArm9Event := false, replyTarget := none }.turn
  | .token => .ok { s with replySemaphore := s.replySemaphore - 1, sender := .scanning (List.finRange 9) }
  | .replyFailed =>
    match s.replyTarget with
    | none => .error .stateCheck
    | some i => .ok (s.closeSession i)
  | .closed index =>
    match s.posToServiceId[index]? with
    | none => .error .stateCheck
    | some i => .ok (s.closeSession i)
  | .command index message arg =>
    match s.handles[index]?, s.posToServiceId[index]? with
    | some client, some i => s.arm11Command client i message arg
    | _, _ => .error .stateCheck
  | .accept i => s.acceptSession i
  | .receive i reply => s.receiveFromArm9 i reply
  | .release => .ok { s with replySemaphore := s.replySemaphore + 1, receiver := none }

/-- The sender has taken its first static buffers and is about to wait. -/
def threadInit : PxiRun :=
  PxiRun.acquireStaticBuffers
    { latestMC5Val := 0
      pendingArm9Commands := 0
      sendingDisabled := false
      sessionData := fun _ => ⟨.idle, .empty, false, 0⟩
      replySemaphore := 0
      sendAllBuffersToArm9Event := false
      freeStaticBuffers := ((1 : UInt32) <<< (21 : UInt32)) - 1
      currentlyProvidedStaticBuffers := 0
      staticBufs := []
      handles := []
      posToServiceId := List.replicate 9 0
      replyTarget := none
      sender := .sending (List.finRange 9)
      receiver := none
      withArm9 := fun _ => none
      accepted := fun _ => []
      answered := fun _ => []
      replied := fun _ => []
      arrival := fun _ => []
      inWindow := false }

def threadSystem : System PxiRun ThreadInput :=
  .guarded (· = threadInit) PxiRun.Enabled fun s input => (threadStep s input).toOption

end Omiiba.Pxi
