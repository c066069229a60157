/-
The loop in which loader, pm and rosalina serve their sessions, one kernel or service call at a time. What
these calls answer is the input. The wait handles, the contexts and the handler ids of the sessions are
parallel arrays, from which an entry is removed by moving the last one into its place.
-/
import Omiiba.Lib.Ledger
import Omiiba.Lib.System
import Mathlib.Tactic

namespace Omiiba.Loader.ServiceManager

abbrev Handle := UInt32
abbrev Result := UInt32
/-- A session context; `0` is `NULL`. -/
abbrev Ctx := UInt32

/-- `R_FAILED`. -/
def rFailed (res : Result) : Bool := decide (0x80000000 ≤ res)

/-- What `svcReplyAndReceive` returns when a session has been closed by its client. -/
def sessionClosedByRemote : Result := 0xC920181A

/-! ## Tables -/

structure ServiceEntry where
  maxSessions : Nat
  isGlobalPort : Bool
  deriving DecidableEq, Repr

/-- The tables the loop is started with. Handlers are known by their index, and names do not matter. -/
structure Config where
  services : List ServiceEntry
  notifications : List UInt32
  allocator : Bool
  deriving DecidableEq, Repr

namespace Config

def numServices (c : Config) : Nat := c.services.length

def maxSessionsTotal (c : Config) : Nat := (c.services.map ServiceEntry.maxSessions).sum

end Config

/-- Termination and ready for reboot events are sent without a subscription. -/
def needsSubscription (id : UInt32) : Bool := id != 0x100 && id != 0x179

/-- The tables of loader. -/
def loaderConfig : Config := ⟨[⟨2, false⟩, ⟨2, true⟩], [], false⟩

/-- The tables of pm. -/
def pmConfig : Config := ⟨[⟨4, false⟩, ⟨2, false⟩], [0x3000], false⟩

/-! ## State -/

/-- What a handle stands for; sessions are counted in the order in which they are accepted. -/
inductive Object where
  | notification
  | port (i : Nat)
  | clientPort (i : Nat)
  | session (n : Nat)
  deriving DecidableEq, Repr

/-- A session as it was accepted, with the context it was given. -/
structure Session where
  handle : Handle
  port : Nat
  ctx : Ctx
  deriving DecidableEq, Repr

/-- A call of a service's handler, and the object whose handle was reported. -/
structure Command where
  sender : Option Object
  service : Nat
  ctx : Ctx
  deriving DecidableEq, Repr

/-- The call that comes next. -/
inductive Phase where
  | enableNotification
  | subscribe (i : Nat)
  | registerService (i : Nat)
  | receive
  | cleanup
  | unsubscribe (i : Nat)
  | returned (res : Result)
  deriving DecidableEq, Repr

/-- The locals of the function, and the history of the handles, of the contexts, of the sessions, of the
handlers that were called and of the objects that were replied to. -/
structure State where
  phase : Phase
  waitHandles : Nat → Handle
  ctxs : Nat → Ctx
  handlerIds : Nat → UInt8
  numActiveSessions : Nat
  replyTarget : Handle
  terminationRequested : Bool
  res : Result
  handles : Ledger Handle Object
  contexts : Ledger Ctx Nat
  accepted : List Session
  commands : List Command
  replies : List (Option Object)
  notified : List Nat

/-- What the calls of one step answer: the result of the first one with the handles or the index it gives,
then the result of the call its answer leads to, with the notification or the context that one gives. -/
structure Answers where
  res : Result
  handle : Handle
  clientPort : Handle
  id : Int
  next : Result
  notificationId : UInt32
  ctx : Ctx

/-! ## Iteration -/

section

variable (c : Config) (s : State) (a : Answers)

/-- `TRY`: a failed call leads to the cleanup. -/
def tryResult (res : Result) (rest : State → State) : State :=
  if rFailed res then { s with res := res, phase := .cleanup } else rest { s with res := res }

/-- The first session whose handle is the one the reply was for. -/
def replyTargetOffset : Option Nat :=
  (List.range s.numActiveSessions).find? fun off => s.waitHandles (1 + c.numServices + off) == s.replyTarget

/-- The last entry takes the place of the one at `off`, whose handle is closed. -/
def dropSession (off : Nat) : State :=
  let last := s.numActiveSessions - 1
  { s with
    waitHandles := Function.update s.waitHandles (1 + c.numServices + off) (s.waitHandles (1 + c.numServices + last))
    handlerIds := Function.update s.handlerIds off (s.handlerIds last)
    ctxs := Function.update s.ctxs off (s.ctxs last)
    numActiveSessions := last
    handles := s.handles.take (s.waitHandles (1 + c.numServices + off))
    contexts := if c.allocator then s.contexts.take (s.ctxs off) else s.contexts
    replyTarget := 0
    res := 0 }

def sessionClosed : State :=
  if a.id = -1 then
    match replyTargetOffset c s with
    | none => { s with phase := .returned a.res }
    | some off => dropSession c s off
  else if a.id < 1 + c.numServices then { s with phase := .returned a.res }
  else dropSession c s (a.id.toNat - 1 - c.numServices)

def receiveNotification : State :=
  tryResult s a.next fun s =>
    { s with
      terminationRequested := a.notificationId == 0x100
      notified := s.notified ++ (c.notifications.findIdx? (· == a.notificationId)).toList
      phase := if a.notificationId == 0x100 then .cleanup else .receive }

/-- A session that is accepted from the port at `i`, with its context. -/
def addSession (i : Nat) (ctx : Ctx) : State :=
  { s with
    waitHandles := Function.update s.waitHandles (1 + c.numServices + s.numActiveSessions) a.handle
    handlerIds := Function.update s.handlerIds s.numActiveSessions (UInt8.ofNat i)
    ctxs := Function.update s.ctxs s.numActiveSessions ctx
    numActiveSessions := s.numActiveSessions + 1
    handles := s.handles.give a.handle (.session s.accepted.length)
    contexts := if c.allocator then s.contexts.give ctx s.accepted.length else s.contexts
    accepted := s.accepted ++ [⟨a.handle, i, ctx⟩] }

/-- A session for which there is no context is closed at once, and the function returns. -/
def refuseSession (i : Nat) : State :=
  { s with
    handles := (s.handles.give a.handle (.session s.accepted.length)).take a.handle
    accepted := s.accepted ++ [⟨a.handle, i, 0⟩]
    phase := .returned 0xDEAD0000 }

def acceptSession (i : Nat) : State :=
  tryResult s a.next fun s =>
    if c.allocator then
      if a.ctx = 0 then refuseSession s a i else addSession c s a i a.ctx
    else addSession c s a i 0

def command (off : Nat) : State :=
  { s with
    commands := s.commands ++
      [⟨s.handles.owner (s.waitHandles (1 + c.numServices + off)), (s.handlerIds off).toNat, s.ctxs off⟩]
    replyTarget := s.waitHandles (1 + c.numServices + off) }

/-- What `svcReplyAndReceive` replies to. -/
def replied : List (Option Object) := if s.replyTarget = 0 then [] else [s.handles.owner s.replyTarget]

def received : State := { s with res := a.res, replies := s.replies ++ replied s }

def receive : State :=
  let s := received s a
  if a.res = sessionClosedByRemote then sessionClosed c s a
  else if rFailed a.res then { s with phase := .returned a.res }
  else
    let s := { s with replyTarget := 0 }
    if a.id = 0 then receiveNotification c s a
    else if a.id < 1 + c.numServices then acceptSession c s a (a.id.toNat - 1)
    else command c s (a.id.toNat - 1 - c.numServices)

/-! ## Steps -/

def enableNotification : State :=
  tryResult s a.res fun s =>
    { s with
      waitHandles := Function.update s.waitHandles 0 a.handle
      handles := s.handles.give a.handle .notification
      phase := .subscribe 0 }

def subscribe (i : Nat) : State :=
  match c.notifications[i]? with
  | none => { s with phase := .registerService 0 }
  | some id =>
    if needsSubscription id then tryResult s a.res fun s => { s with phase := .subscribe (i + 1) }
    else { s with phase := .subscribe (i + 1) }

/-- The handle of a port is kept, that of its clients is closed. -/
def registerService (i : Nat) : State :=
  match c.services[i]? with
  | none => { s with phase := .receive }
  | some service =>
    tryResult s a.res fun s =>
      let handles := s.handles.give a.handle (.port i)
      { s with
        waitHandles := Function.update s.waitHandles (1 + i) a.handle
        handles := if service.isGlobalPort then (handles.give a.clientPort (.clientPort i)).take a.clientPort else handles
        phase := .registerService (i + 1) }

/-- The handles that the loop waits for. -/
def waitedFor : List Handle := (List.range (1 + c.numServices + s.numActiveSessions)).map s.waitHandles

def cleanup : State :=
  { s with handles := (waitedFor c s).foldl Ledger.take s.handles, phase := .unsubscribe 0 }

def freeContexts : Ledger Ctx Nat :=
  if c.allocator then ((List.range s.numActiveSessions).map s.ctxs).foldl Ledger.take s.contexts else s.contexts

/-- The last loops of the cleanup; a call that fails leads back to its beginning. -/
def unsubscribe (i : Nat) : State :=
  match c.notifications[i]? with
  | none => { s with contexts := freeContexts c s, phase := .returned s.res }
  | some id =>
    if needsSubscription id then tryResult s a.res fun s => { s with phase := .unsubscribe (i + 1) }
    else { s with phase := .unsubscribe (i + 1) }

/-- The calls up to the next one whose answer is looked at. -/
def step : State :=
  match s.phase with
  | .enableNotification => enableNotification s a
  | .subscribe i => subscribe c s a i
  | .registerService i => registerService c s a i
  | .receive => receive c s a
  | .cleanup => cleanup c s
  | .unsubscribe i => unsubscribe c s a i
  | .returned _ => s

end

/-! ## Kernel -/

/-- The sessions accepted from a port that have not been closed. -/
def openSessions (s : State) (i : Nat) : List Nat :=
  (List.range s.accepted.length).filter fun n =>
    Object.session n ∉ s.handles.returned ∧ (s.accepted[n]?.map Session.port) = some i

/-- A handle that can be given out. -/
def Fresh (s : State) (h : Handle) : Prop := h ≠ 0 ∧ s.handles.isOut h = false

/-- What the kernel promises about a call that reports a new session: the handle and the context of a session
that is accepted are not in use, and the port has less open sessions than it allows. -/
def AcceptOk (c : Config) (s : State) (a : Answers) (i : Nat) : Prop :=
  Fresh s a.handle ∧ (openSessions s i).length < ((c.services[i]?.map ServiceEntry.maxSessions).getD 0) ∧
    (a.ctx = 0 ∨ s.contexts.isOut a.ctx = false)

/-- What the kernel promises about the answer of `svcReplyAndReceive`: the index is that of a handle it was
given, or, when the session to reply to has been closed, `-1`. -/
def ReceiveOk (c : Config) (s : State) (a : Answers) : Prop :=
  if a.res = sessionClosedByRemote then a.id = -1 ∨ (0 ≤ a.id ∧ a.id < 1 + c.numServices + s.numActiveSessions)
  else rFailed a.res = true ∨ (0 ≤ a.id ∧ a.id < 1 + c.numServices + s.numActiveSessions ∧
    (1 ≤ a.id → a.id < 1 + c.numServices → rFailed a.next = false → AcceptOk c s a (a.id.toNat - 1)))

def EnabledIn (c : Config) (s : State) (a : Answers) : Phase → Prop
  | .enableNotification => Fresh s a.handle
  | .registerService _ => Fresh s a.handle ∧ Fresh s a.clientPort ∧ a.clientPort ≠ a.handle
  | .receive => ReceiveOk c s a
  | _ => True

/-- The answers the kernel can give in a state. -/
def Enabled (c : Config) (s : State) (a : Answers) : Prop := EnabledIn c s a s.phase

instance (s : State) (h : Handle) : Decidable (Fresh s h) := inferInstanceAs (Decidable (_ ∧ _))

instance (c : Config) (s : State) (a : Answers) (i : Nat) : Decidable (AcceptOk c s a i) :=
  inferInstanceAs (Decidable (_ ∧ _ ∧ _))

instance (c : Config) (s : State) (a : Answers) : Decidable (ReceiveOk c s a) := by
  unfold ReceiveOk
  infer_instance

instance (c : Config) (s : State) (a : Answers) : (p : Phase) → Decidable (EnabledIn c s a p)
  | .enableNotification => inferInstanceAs (Decidable (Fresh s a.handle))
  | .registerService _ => inferInstanceAs (Decidable (_ ∧ _ ∧ _))
  | .receive => inferInstanceAs (Decidable (ReceiveOk c s a))
  | .subscribe _ | .cleanup | .unsubscribe _ | .returned _ => .isTrue trivial

instance (c : Config) (s : State) (a : Answers) : Decidable (Enabled c s a) :=
  inferInstanceAs (Decidable (EnabledIn c s a s.phase))

/-- The arrays are not initialised. -/
structure Starts (s : State) : Prop where
  phase : s.phase = .enableNotification
  active : s.numActiveSessions = 0
  reply : s.replyTarget = 0
  termination : s.terminationRequested = false
  handles : s.handles = Ledger.empty
  contexts : s.contexts = Ledger.empty
  accepted : s.accepted = []
  commands : s.commands = []
  replies : s.replies = []

def loop (c : Config) : System State Answers := System.guarded Starts (Enabled c) fun s a => some (step c s a)

end Omiiba.Loader.ServiceManager
