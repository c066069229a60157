/-
The debug events of a process, after debug.c and thread.c: the list of its threads, the thread that is current, and the
stop replies.
-/
import Omiiba.Lib.Slots
import Omiiba.Lib.System
import Omiiba.Rosalina.GdbWatchpoints

namespace Omiiba.Rosalina

/-! ## Events -/

structure ThreadInfo where
  id : UInt32
  tls : UInt32
  deriving DecidableEq

def ThreadInfo.zero : ThreadInfo := ⟨0, 0⟩

/-- `EXITTHREAD_EVENT_EXIT` and so on. -/
inductive ExitThreadReason
  | exit
  | terminate
  | exitProcess
  | terminateProcess
  deriving DecidableEq

/-- `EXITPROCESS_EVENT_EXIT` and so on. -/
inductive ExitProcessReason
  | exit
  | terminate
  | debugTerminate
  deriving DecidableEq

inductive StopPointType
  | svcFF
  | breakpoint
  | watchpoint
  | other
  deriving DecidableEq

inductive ExceptionEvent
  | undefinedInstruction
  | prefetchAbort
  | dataAbort
  | unalignedDataAccess
  | undefinedSyscall
  | attachBreak
  | stopPoint (type : StopPointType) (faultInformation : UInt32)
  | userBreak
  | debuggerBreak (threadIds : Fin 4 → Int32)
  | other

inductive DebugEvent
  | attachProcess (processId : UInt32)
  | attachThread (creatorThreadId threadLocalStorage : UInt32)
  | exitThread (reason : ExitThreadReason)
  | exitProcess (reason : ExitProcessReason)
  | exception (exc : ExceptionEvent)
  | syscallIn (syscall : UInt32)
  | syscallOut (syscall : UInt32)
  | outputString (addr size : UInt32)
  | other

structure DebugEventInfo where
  event : DebugEvent
  threadId : UInt32
  flags : UInt32

/-! ## The context -/

def maxDebugThread : Nat := 127

/-- What `debug.c` uses of a `GDBContext`; of its state, if it is `GDB_STATE_DETACHING`. -/
structure DebugCtx where
  detaching : Bool
  attachedAtStart : Bool
  processContinuing : Bool
  pid : UInt32
  threadInfos : Nat → ThreadInfo
  nbThreads : Nat
  currentThreadId : UInt32
  selectedThreadId : UInt32
  selectedThreadIdForContinuing : UInt32
  totalNbCreatedThreads : Nat
  catchThreadEvents : Bool
  processEnded : Bool
  processExited : Bool
  latestDebugEvent : DebugEventInfo
  currentHioRequestTargetAddr : UInt32

def DebugCtx.init (attachedAtStart : Bool) : DebugCtx where
  detaching := false
  attachedAtStart := attachedAtStart
  processContinuing := false
  pid := 0
  threadInfos := fun _ => .zero
  nbThreads := 0
  currentThreadId := 0
  selectedThreadId := 0
  selectedThreadIdForContinuing := 0
  totalNbCreatedThreads := 0
  catchThreadEvents := false
  processEnded := false
  processExited := false
  latestDebugEvent := ⟨.attachProcess 0, 0, 0⟩
  currentHioRequestTargetAddr := 0

/-- What the kernel, the watchpoint manager and the memory of the process say while an event is handled: thread parameters,
none if the call fails; kinds of watchpoints; and if there is a request at the address of a string without a size. -/
structure KernelAnswers where
  schedulingMask : UInt32 → Option UInt32
  staticPriority : UInt32 → Option Int32
  dynamicPriority : UInt32 → Option Int32
  watchpointKind : UInt32 → WatchpointKind
  hioRequest : Bool

/-- `qsort`. -/
structure Sorter where
  qsort : (UInt32 → UInt32 → Int) → List UInt32 → List UInt32
  perm : ∀ cmp l, (qsort cmp l).Perm l

/-! ### The current thread -/

/-- `thread_compare_func`. -/
def threadCompare (answers : KernelAnswers) (a b : UInt32) : Int :=
  let maskA := (answers.schedulingMask a).getD 2
  let maskB := (answers.schedulingMask b).getD 2
  let prioADynamic := (answers.dynamicPriority a).getD 65
  let prioBDynamic := (answers.dynamicPriority b).getD 65
  if maskA = 1 ∧ maskB ≠ 1 then -1
  else if maskA ≠ 1 ∧ maskB = 1 then 1
  else if prioADynamic ≠ prioBDynamic then (prioADynamic - prioBDynamic).toInt
  else ((answers.staticPriority a).getD 65 - (answers.staticPriority b).getD 65).toInt

/-- `GDB_GetCurrentThreadFromList`, of a list that is not empty. -/
def getCurrentThreadFromList (sorter : Sorter) (answers : KernelAnswers) (threadIds : List UInt32) : UInt32 :=
  (sorter.qsort (threadCompare answers) threadIds).headD 0

namespace DebugCtx

variable (ctx : DebugCtx)

/-- The ids of `threadInfos`, as far as they are used. -/
def threadIds : List UInt32 := (List.range ctx.nbThreads).map fun i => (ctx.threadInfos i).id

/-- `GDB_GetCurrentThread`. -/
def getCurrentThread (sorter : Sorter) (answers : KernelAnswers) : UInt32 :=
  if ctx.nbThreads = 0 then 0 else getCurrentThreadFromList sorter answers ctx.threadIds

/-- `GDB_IsHioInProgress`. -/
def hioInProgress : Bool := ctx.currentHioRequestTargetAddr ≠ 0

/-! ## `GDB_PreprocessDebugEvent` -/

/-- The index of a thread. -/
def findThread (threadId : UInt32) : Option Nat :=
  (List.range ctx.nbThreads).find? fun i => (ctx.threadInfos i).id = threadId

/-- `DBGEVENT_ATTACH_THREAD`; none for the assertion. -/
def attachThread (threadId threadLocalStorage : UInt32) : Option DebugCtx :=
  if ctx.nbThreads = maxDebugThread then none
  else some { ctx with
    totalNbCreatedThreads := ctx.totalNbCreatedThreads + 1
    threadInfos := Function.update ctx.threadInfos ctx.nbThreads ⟨threadId, threadLocalStorage⟩
    nbThreads := ctx.nbThreads + 1 }

/-- `DBGEVENT_EXIT_THREAD`; none for the assertion. -/
def exitThread (threadId : UInt32) : Option DebugCtx :=
  (ctx.findThread threadId).map fun i => { ctx with
    threadInfos := Slots.erase ctx.nbThreads i .zero ctx.threadInfos
    nbThreads := ctx.nbThreads - 1 }

/-- The event that a string stands for. -/
def outputString (info : DebugEventInfo) (addr size : UInt32) (hioRequest : Bool) : DebugCtx × DebugEventInfo :=
  if addr ≥ 0xFFFFFFFE then
    (ctx, ⟨if addr = 0xFFFFFFFF then .syscallOut size else .syscallIn size, info.threadId, 1⟩)
  else if size = 0 then ({ ctx with currentHioRequestTargetAddr := if hioRequest then addr else 0 }, info)
  else (ctx, info)

/-- `GDB_PreprocessDebugEvent`; none if an assertion fails. -/
def preprocessDebugEvent (info : DebugEventInfo) (hioRequest : Bool) : Option (DebugCtx × DebugEventInfo) :=
  match info.event with
  | .attachProcess processId => some ({ ctx with pid := processId }, info)
  | .attachThread _ threadLocalStorage =>
    (ctx.attachThread info.threadId threadLocalStorage).map fun ctx => (ctx, info)
  | .exitThread _ => (ctx.exitThread info.threadId).map fun ctx => (ctx, info)
  | .exitProcess reason =>
    some ({ ctx with processEnded := true, processExited := reason = .exit }, info)
  | .outputString addr size => some (ctx.outputString info addr size hioRequest)
  | _ => some (ctx, info)

end DebugCtx

/-! ## `GDB_SendStopReply` -/

def sigInt : Nat := 2
def sigQuit : Nat := 3
def sigIll : Nat := 4
def sigTrap : Nat := 5
def sigSegv : Nat := 11
def sigSys : Nat := 12
def sigTerm : Nat := 15

/-- What comes behind the registers in a stop reply. -/
inductive StopReason
  | none
  | swbreak
  | watch (kind : WatchpointKind) (address : UInt32)
  | syscallEntry (syscall : UInt32)
  | syscallReturn (syscall : UInt32)
  deriving DecidableEq

/-- A packet that is sent: `T` with the common information on a thread, `T05create:;`, `w`, `W00` or `X0f`, `S`, and what is
written for the user. -/
inductive StopReply
  | thread (sig : Nat) (threadId : UInt32) (reason : StopReason)
  | create
  | threadExit (sig : Nat) (threadId : UInt32)
  | exited
  | terminated
  | signal (sig : Nat)
  | unknownWatchpoint
  | output (addr size : UInt32)
  | hioRequest
  deriving DecidableEq

/-- The thread ids that are put in a reply. -/
def StopReply.threads : StopReply → List UInt32
  | .thread _ threadId _ => [threadId]
  | .threadExit _ threadId => [threadId]
  | _ => []

/-- `threadExitRepliesSigs`. -/
def ExitThreadReason.sig : ExitThreadReason → Nat
  | .exit => 0
  | .terminate => sigTerm
  | .exitProcess => sigQuit
  | .terminateProcess => sigTerm

/-- The reason is below `EXITTHREAD_EVENT_EXIT_PROCESS`. -/
def ExitThreadReason.ofThread (reason : ExitThreadReason) : Bool := reason = .exit || reason = .terminate

/-- `processExitReplies`. -/
def ExitProcessReason.reply : ExitProcessReason → StopReply
  | .exit => .exited
  | _ => .terminated

/-- The ids of an `EXCEVENT_DEBUGGER_BREAK` that are above 0. -/
def breakThreadIds (threadIds : Fin 4 → Int32) : List UInt32 :=
  ((List.finRange 4).filter fun i => 0 < threadIds i).map fun i => (threadIds i).toUInt32

namespace DebugCtx

variable (ctx : DebugCtx) (sorter : Sorter) (answers : KernelAnswers)

def setCurrent (threadId : UInt32) : DebugCtx := { ctx with currentThreadId := threadId }

/-- The reply of `GDB_ParseCommonThreadInfo`, once a thread is current. -/
def replyThread (threadId : UInt32) (sig : Nat) (reason : StopReason) : DebugCtx × List StopReply :=
  (ctx.setCurrent threadId, [.thread sig threadId reason])

/-- `EXCEVENT_STOP_POINT`. -/
def replyStopPoint (threadId : UInt32) (type : StopPointType) (faultInformation : UInt32) : DebugCtx × List StopReply :=
  match type with
  | .svcFF | .breakpoint => ctx.replyThread threadId sigTrap .swbreak
  | .watchpoint =>
    let kind := answers.watchpointKind faultInformation
    (ctx.setCurrent threadId, (if kind = .disabled then [.unknownWatchpoint] else []) ++
      [.thread sigTrap threadId (.watch kind faultInformation)])
  | .other => (ctx.setCurrent threadId, [])

/-- `EXCEVENT_ATTACH_BREAK`: try to deduce which thread we can consider current. -/
def replyAttachBreak : DebugCtx × List StopReply :=
  let currentThreadId := if ctx.currentThreadId = 0 then ctx.getCurrentThread sorter answers else ctx.currentThreadId
  if currentThreadId ≠ 0 then ctx.replyThread currentThreadId 0 .none
  else (ctx.setCurrent currentThreadId, [.signal 0])

/-- The thread that an `EXCEVENT_DEBUGGER_BREAK` may make current. -/
def breakThread (threadIds : Fin 4 → Int32) : UInt32 :=
  let ids := breakThreadIds threadIds
  if ids ≠ [] then getCurrentThreadFromList sorter answers ids else ctx.getCurrentThread sorter answers

/-- `EXCEVENT_DEBUGGER_BREAK`: if all threads are asleep, the current one is not changed. -/
def replyDebuggerBreak (threadIds : Fin 4 → Int32) : DebugCtx × List StopReply :=
  let threadId := ctx.breakThread sorter answers threadIds
  let mask := (answers.schedulingMask threadId).getD 0
  let currentThreadId := if mask = 1 ∨ ctx.currentThreadId = 0 then threadId else ctx.currentThreadId
  if currentThreadId = 0 then (ctx.setCurrent currentThreadId, [.signal 2])
  else ctx.replyThread currentThreadId sigInt .none

/-- `DBGEVENT_EXCEPTION`. -/
def replyException (threadId : UInt32) : ExceptionEvent → DebugCtx × List StopReply
  | .undefinedInstruction => ctx.replyThread threadId sigIll .none
  | .prefetchAbort | .dataAbort | .unalignedDataAccess => ctx.replyThread threadId sigSegv .none
  | .undefinedSyscall => ctx.replyThread threadId sigSys .none
  | .attachBreak => ctx.replyAttachBreak sorter answers
  | .stopPoint type faultInformation => ctx.replyStopPoint answers threadId type faultInformation
  | .userBreak => ctx.replyThread threadId sigInt .none
  | .debuggerBreak threadIds => ctx.replyDebuggerBreak sorter answers threadIds
  | .other => (ctx, [])

/-- `DBGEVENT_ATTACH_THREAD`. -/
def replyAttachThread (threadId creatorThreadId : UInt32) : DebugCtx × List StopReply :=
  if ctx.attachedAtStart && ctx.totalNbCreatedThreads = 1 then ctx.replyThread threadId sigInt .none
  else if creatorThreadId = 0 || !ctx.catchThreadEvents then (ctx, [])
  else (ctx.setCurrent threadId, [.create])

/-- `GDB_SendStopReply`. -/
def sendStopReply (info : DebugEventInfo) : DebugCtx × List StopReply :=
  match info.event with
  | .attachThread creatorThreadId _ => ctx.replyAttachThread info.threadId creatorThreadId
  | .exitThread reason =>
    (ctx, if ctx.catchThreadEvents && reason.ofThread then [.threadExit reason.sig info.threadId] else [])
  | .exitProcess reason => (ctx, [reason.reply])
  | .exception exc => ctx.replyException sorter answers info.threadId exc
  | .syscallIn syscall => ctx.replyThread info.threadId sigTrap (.syscallEntry syscall)
  | .syscallOut syscall => ctx.replyThread info.threadId sigTrap (.syscallReturn syscall)
  | .outputString addr size =>
    (ctx, if ctx.hioInProgress then [.hioRequest] else if size = 0 then [] else [.output addr size])
  | _ => (ctx, [])

/-! ## `GDB_HandleDebugEvents` -/

/-- `continueAutomatically`. -/
def continueAutomatically (info : DebugEventInfo) : Bool :=
  (match info.event with
    | .outputString _ _ => !ctx.hioInProgress
    | .attachProcess _ => true
    | .attachThread creatorThreadId _ => creatorThreadId = 0 || !ctx.catchThreadEvents
    | .exitThread reason => !reason.ofThread || !ctx.catchThreadEvents
    | .exitProcess _ => true
    | _ => false) || info.flags &&& 1 = 0

/-- `GDB_HandleDebugEvents`, of an event that has been fetched, with the packets that are sent. -/
def handleDebugEvents (info : DebugEventInfo) : Option (DebugCtx × List StopReply) :=
  (ctx.preprocessDebugEvent info answers.hioRequest).map fun (ctx, info) =>
    if ctx.continueAutomatically info then ctx.sendStopReply sorter answers info
    else if ctx.processEnded then (ctx, [])
    else
      let (ctx, replies) := { ctx with latestDebugEvent := info }.sendStopReply sorter answers info
      ({ ctx with processContinuing := false }, replies)

/-! ## Packets -/

/-- `GDB_AttachToProcess`, before its loop over events. -/
def attachToProcess (attachedAtStart : Bool) : DebugCtx :=
  { ctx with attachedAtStart := attachedAtStart, processEnded := false, processExited := false }

/-- One event of the loops in `GDB_AttachToProcess`. -/
def attachEvent (info : DebugEventInfo) (hioRequest : Bool) : Option DebugCtx :=
  (ctx.preprocessDebugEvent info hioRequest).map fun (ctx, info) => { ctx with latestDebugEvent := info }

/-- `GDB_HandleSetThreadId`, of a thread that is of the process. -/
def setThreadId (forContinuing : Bool) (threadId : UInt32) : DebugCtx :=
  if forContinuing then { ctx with selectedThreadIdForContinuing := threadId } else { ctx with selectedThreadId := threadId }

/-- The thread whose registers or commands are asked for. -/
def selectThread : DebugCtx :=
  { ctx with selectedThreadId := if ctx.selectedThreadId = 0 then ctx.currentThreadId else ctx.selectedThreadId }

/-- `GDB_ContinueExecution`. -/
def continueExecution : DebugCtx :=
  { ctx with selectedThreadId := 0, selectedThreadIdForContinuing := 0, processContinuing := true }

/-- `GDB_DetachFromProcess`. -/
def detachFromProcess : DebugCtx :=
  { ctx with
    detaching := false
    pid := 0
    currentThreadId := 0
    selectedThreadId := 0
    selectedThreadIdForContinuing := 0
    nbThreads := 0
    totalNbCreatedThreads := 0
    threadInfos := fun _ => .zero
    currentHioRequestTargetAddr := 0 }

end DebugCtx

/-! ## Runs -/

/-- The context of a process, the threads that are attached and have not exited, the first one first, and the replies sent
so far, each with the ids of the threads that were alive. -/
structure DebugRun where
  ctx : DebugCtx
  live : List ThreadInfo
  sent : List (StopReply × List UInt32)

/-- An event is handled, or fetched while the context is attached; or a packet of the client. -/
inductive DebugInput
  | event (info : DebugEventInfo) (answers : KernelAnswers)
  | attachToProcess (attachedAtStart : Bool)
  | attachEvent (info : DebugEventInfo) (hioRequest : Bool)
  | stopReply (answers : KernelAnswers)
  | setThreadId (forContinuing : Bool) (threadId : UInt32)
  | selectThread
  | continueExecution
  | catchThreadEvents (catchEvents : Bool)
  | hioReply
  | setDetaching
  | detachFromProcess

namespace DebugRun

variable (sorter : Sorter) (s : DebugRun)

def init : DebugRun := ⟨.init false, [], []⟩

def liveIds : List UInt32 := s.live.map ThreadInfo.id

/-- The threads that are alive while an event is handled; a thread that exits still waits for the event to be continued. -/
def liveDuring (info : DebugEventInfo) : List ThreadInfo :=
  match info.event with
  | .attachThread _ threadLocalStorage => s.live ++ [⟨info.threadId, threadLocalStorage⟩]
  | _ => s.live

/-- The threads that are alive after it. -/
def liveAfter (info : DebugEventInfo) : List ThreadInfo :=
  match info.event with
  | .exitThread _ => s.live.filter fun thread => thread.id ≠ info.threadId
  | _ => s.liveDuring info

/-- An event that the kernel can report: a new thread has an id of its own, and is at most the 127th; other events are those
of threads that are alive. -/
def Reports (info : DebugEventInfo) : Prop :=
  match info.event with
  | .attachThread _ _ => info.threadId ≠ 0 ∧ info.threadId ∉ s.liveIds ∧ s.live.length < maxDebugThread
  | .exception (.debuggerBreak threadIds) => ∀ id ∈ breakThreadIds threadIds, id ∈ s.liveIds
  | .exception .attachBreak => True
  | .exitThread _ | .exception _ | .syscallIn _ | .syscallOut _ | .outputString _ _ => info.threadId ∈ s.liveIds
  | _ => True

/-- Only threads that are alive run. -/
def Answers (answers : KernelAnswers) : Prop := ∀ id, answers.schedulingMask id = some 1 → id ∈ s.liveIds

def Enabled : DebugInput → Prop
  | .event info answers => s.Reports info ∧ s.Answers answers
  | .attachEvent info _ => s.Reports info
  | .stopReply answers => s.Answers answers
  | _ => True

/-- Replies are sent while threads are alive. -/
def send (live : List ThreadInfo) (replies : List StopReply) : List (StopReply × List UInt32) :=
  replies.map fun reply => (reply, live.map ThreadInfo.id)

/-- An input; none if an assertion fails. -/
def step : DebugInput → Option DebugRun
  | .event info answers =>
    if s.ctx.detaching then some s
    else (s.ctx.handleDebugEvents sorter answers info).map fun (ctx, replies) =>
      ⟨ctx, s.liveAfter info, s.sent ++ send (s.liveDuring info) replies⟩
  | .attachToProcess attachedAtStart => some { s with ctx := s.ctx.attachToProcess attachedAtStart }
  | .attachEvent info hioRequest => (s.ctx.attachEvent info hioRequest).map fun ctx => ⟨ctx, s.liveAfter info, s.sent⟩
  | .stopReply answers =>
    let (ctx, replies) := s.ctx.sendStopReply sorter answers s.ctx.latestDebugEvent
    some ⟨ctx, s.live, s.sent ++ send s.live replies⟩
  | .setThreadId forContinuing threadId => some { s with ctx := s.ctx.setThreadId forContinuing threadId }
  | .selectThread => some { s with ctx := s.ctx.selectThread }
  | .continueExecution => some { s with ctx := s.ctx.continueExecution }
  | .catchThreadEvents catchEvents => some { s with ctx.catchThreadEvents := catchEvents }
  | .hioReply => some { s with ctx.currentHioRequestTargetAddr := 0 }
  | .setDetaching => some { s with ctx.detaching := true }
  | .detachFromProcess => some { s with ctx := s.ctx.detachFromProcess, live := [] }

end DebugRun

def debugSystem (sorter : Sorter) : System DebugRun DebugInput :=
  .guarded (· = .init) DebugRun.Enabled fun s => s.step sorter

namespace DebugRun

variable (s : DebugRun)

/-- No thread, or one that is alive. -/
def Names (live : List UInt32) (id : UInt32) : Prop := id = 0 ∨ id ∈ live

/-- The list of the context is that of the threads that are alive; its ids and those of all replies are of threads that are,
or were at that time; and no assertion fails. -/
structure Tracked (sorter : Sorter) (s : DebugRun) : Prop where
  listed : (List.range s.ctx.nbThreads).map s.ctx.threadInfos = s.live
  current : Names s.liveIds s.ctx.currentThreadId
  selected : Names s.liveIds s.ctx.selectedThreadId
  selectedForContinuing : Names s.liveIds s.ctx.selectedThreadIdForContinuing
  replies : ∀ entry ∈ s.sent, ∀ id ∈ entry.1.threads, Names entry.2 id
  noAssertion : ∀ i, s.Enabled i → s.step sorter i ≠ none

/-- The ids that a reply to an event takes from it. -/
def reportedThreads (ctx : DebugCtx) (info : DebugEventInfo) : List UInt32 :=
  match info.event with
  | .attachThread creatorThreadId _ =>
    if (ctx.attachedAtStart && ctx.totalNbCreatedThreads = 1) || !(creatorThreadId = 0 || !ctx.catchThreadEvents) then
      [info.threadId] else []
  | .exitThread reason => if ctx.catchThreadEvents && reason.ofThread then [info.threadId] else []
  | .exception .attachBreak | .exception .other => []
  | .exception (.debuggerBreak threadIds) => if ctx.currentThreadId = 0 then breakThreadIds threadIds else []
  | .exception _ | .syscallIn _ | .syscallOut _ => [info.threadId]
  | _ => []

/-- An event does not end the current thread, or one that is selected. -/
def ExitsOther (info : DebugEventInfo) : Prop :=
  match info.event with
  | .exitThread _ => info.threadId ≠ s.ctx.currentThreadId ∧ info.threadId ≠ s.ctx.selectedThreadId ∧
      info.threadId ≠ s.ctx.selectedThreadIdForContinuing
  | _ => True

/-- A thread that exits is neither the current one nor selected; a client selects threads that are alive, and asks again for
the latest event while its thread is alive. -/
def KeepsIds : DebugInput → Prop
  | .event info _ => s.ctx.detaching = true ∨ s.ExitsOther info
  | .attachEvent info _ => s.ExitsOther info
  | .setThreadId _ threadId => Names s.liveIds threadId
  | .stopReply _ => ∀ id ∈ reportedThreads s.ctx s.ctx.latestDebugEvent, Names s.liveIds id
  | _ => True

/-! ## Replies -/

end DebugRun

namespace DebugCtx

open DebugRun

variable {ctx : DebugCtx} {sorter : Sorter} {answers : KernelAnswers} {P : UInt32 → Prop}

/-- A reply makes a thread current, if anything, and it and those in the packets meet a condition. -/
def Replied (P : UInt32 → Prop) (ctx : DebugCtx) (r : DebugCtx × List StopReply) : Prop :=
  (∃ threadId, P threadId ∧ r.1 = ctx.setCurrent threadId) ∧ ∀ reply ∈ r.2, ∀ id ∈ reply.threads, P id

theorem replied_keep (hcurrent : P ctx.currentThreadId) {replies : List StopReply}
    (h : ∀ reply ∈ replies, ∀ id ∈ reply.threads, P id) : Replied P ctx (ctx, replies) :=
  ⟨⟨_, hcurrent, rfl⟩, h⟩

theorem replied_set {threadId : UInt32} (hid : P threadId) {replies : List StopReply}
    (h : ∀ reply ∈ replies, ∀ id ∈ reply.threads, P id) : Replied P ctx (ctx.setCurrent threadId, replies) :=
  ⟨⟨_, hid, rfl⟩, h⟩

theorem replied_thread {threadId : UInt32} (hid : P threadId) (sig : Nat) (reason : StopReason) :
    Replied P ctx (ctx.replyThread threadId sig reason) := by
  apply replied_set hid
  intro reply hreply id hmem
  rw [List.mem_singleton.mp hreply] at hmem
  rw [List.mem_singleton.mp hmem]
  exact hid

/-- Packets without a thread. -/
theorem no_threads {reply : StopReply} (h : reply.threads = []) : ∀ r ∈ [reply], ∀ id ∈ r.threads, P id := by
  intro r hr id hmem
  rw [List.mem_singleton.mp hr, h] at hmem
  exact absurd hmem List.not_mem_nil

theorem getCurrentThreadFromList_mem (sorter : Sorter) (answers : KernelAnswers) {ids : List UInt32} (h : ids ≠ []) :
    getCurrentThreadFromList sorter answers ids ∈ ids := by
  unfold getCurrentThreadFromList
  have hperm := sorter.perm (threadCompare answers) ids
  cases hsorted : sorter.qsort (threadCompare answers) ids with
  | nil =>
    rw [hsorted] at hperm
    exact absurd hperm.symm.eq_nil h
  | cons id rest =>
    rw [hsorted] at hperm
    exact hperm.mem_iff.mp List.mem_cons_self

theorem getCurrentThread_ok (hzero : P 0) (hlist : ∀ id ∈ ctx.threadIds, P id) : P (ctx.getCurrentThread sorter answers) := by
  unfold getCurrentThread
  split
  · exact hzero
  · rename_i hne
    apply hlist
    apply getCurrentThreadFromList_mem
    intro hnil
    apply hne
    have hlength := congrArg List.length hnil
    simpa [threadIds] using hlength

theorem breakThread_ok (hzero : P 0) (hlist : ∀ id ∈ ctx.threadIds, P id) {threadIds : Fin 4 → Int32}
    (hbreak : ∀ id ∈ breakThreadIds threadIds, P id) : P (ctx.breakThread sorter answers threadIds) := by
  unfold breakThread
  dsimp only
  split
  · rename_i hne
    exact hbreak _ (getCurrentThreadFromList_mem sorter answers hne)
  · exact getCurrentThread_ok hzero hlist

/-- A break makes a thread current that runs, or any if there was none. -/
theorem replied_debuggerBreak (hcurrent : P ctx.currentThreadId) (hzero : P 0) (hlist : ∀ id ∈ ctx.threadIds, P id)
    (hruns : ∀ id, answers.schedulingMask id = some 1 → P id) {threadIds : Fin 4 → Int32}
    (hbreak : ctx.currentThreadId = 0 → ∀ id ∈ breakThreadIds threadIds, P id) :
    Replied P ctx (ctx.replyDebuggerBreak sorter answers threadIds) := by
  unfold replyDebuggerBreak
  dsimp only
  have hthread : P (if (answers.schedulingMask (ctx.breakThread sorter answers threadIds)).getD 0 = 1 ∨ ctx.currentThreadId = 0
      then ctx.breakThread sorter answers threadIds else ctx.currentThreadId) := by
    split
    · rename_i hcase
      rcases hcase with hmask | hnone
      · apply hruns
        cases hanswer : answers.schedulingMask (ctx.breakThread sorter answers threadIds) with
        | none =>
          rw [hanswer] at hmask
          exact absurd hmask (by decide)
        | some mask =>
          rw [hanswer] at hmask
          exact congrArg some hmask
      · exact breakThread_ok hzero hlist (hbreak hnone)
    · exact hcurrent
  suffices h : ∀ threadId, P threadId → Replied P ctx
      (if threadId = 0 then (ctx.setCurrent threadId, [.signal 2]) else ctx.replyThread threadId sigInt .none) from h _ hthread
  intro threadId hid
  split
  · exact replied_set hid (no_threads rfl)
  · exact replied_thread hid sigInt .none

theorem replied_attachBreak (hcurrent : P ctx.currentThreadId) (hzero : P 0) (hlist : ∀ id ∈ ctx.threadIds, P id) :
    Replied P ctx (ctx.replyAttachBreak sorter answers) := by
  unfold replyAttachBreak
  dsimp only
  have hthread : P (if ctx.currentThreadId = 0 then ctx.getCurrentThread sorter answers else ctx.currentThreadId) := by
    split
    · exact getCurrentThread_ok hzero hlist
    · exact hcurrent
  suffices h : ∀ threadId, P threadId → Replied P ctx
      (if threadId ≠ 0 then ctx.replyThread threadId 0 .none else (ctx.setCurrent threadId, [.signal 0])) from h _ hthread
  intro threadId hid
  split
  · exact replied_thread hid 0 .none
  · exact replied_set hid (no_threads rfl)

theorem replied_stopPoint {threadId : UInt32} (hid : P threadId) (type : StopPointType) (faultInformation : UInt32) :
    Replied P ctx (ctx.replyStopPoint answers threadId type faultInformation) := by
  cases type with
  | svcFF => exact replied_thread hid sigTrap .swbreak
  | breakpoint => exact replied_thread hid sigTrap .swbreak
  | watchpoint =>
    apply replied_set hid
    intro reply hreply id hmem
    rcases List.mem_append.mp hreply with hwarning | hstop
    · split at hwarning
      · exact no_threads rfl reply hwarning id hmem
      · exact absurd hwarning List.not_mem_nil
    · rw [List.mem_singleton.mp hstop] at hmem
      rw [List.mem_singleton.mp hmem]
      exact hid
  | other => exact replied_set hid nofun

/-- A reply names the current thread, one of the list, one that runs, or those of the event. -/
theorem sendStopReply_replied {info : DebugEventInfo} (hcurrent : P ctx.currentThreadId) (hzero : P 0)
    (hlist : ∀ id ∈ ctx.threadIds, P id) (hruns : ∀ id, answers.schedulingMask id = some 1 → P id)
    (hreported : ∀ id ∈ reportedThreads ctx info, P id) : Replied P ctx (ctx.sendStopReply sorter answers info) := by
  obtain ⟨event, threadId, flags⟩ := info
  cases event with
  | attachProcess processId => exact replied_keep hcurrent nofun
  | attachThread creatorThreadId threadLocalStorage =>
    show Replied P ctx (ctx.replyAttachThread threadId creatorThreadId)
    unfold replyAttachThread
    dsimp only [reportedThreads] at hreported
    split
    · rename_i hstart
      rw [hstart] at hreported
      exact replied_thread (hreported _ List.mem_cons_self) sigInt .none
    · split
      · exact replied_keep hcurrent nofun
      · rename_i hcreated
        apply replied_set
        · apply hreported
          rw [if_pos (by simp [hcreated])]
          exact List.mem_cons_self
        · exact no_threads rfl
  | exitThread reason =>
    apply replied_keep hcurrent
    dsimp only [reportedThreads] at hreported ⊢
    split
    · rename_i hcatch
      rw [if_pos hcatch] at hreported
      intro reply hreply id hmem
      rw [List.mem_singleton.mp hreply] at hmem
      exact hreported id hmem
    · nofun
  | exitProcess reason =>
    refine replied_keep hcurrent (no_threads ?_)
    cases reason <;> rfl
  | exception exc =>
    cases exc with
    | attachBreak => exact replied_attachBreak hcurrent hzero hlist
    | debuggerBreak threadIds =>
      refine replied_debuggerBreak hcurrent hzero hlist hruns fun hnone => ?_
      dsimp only [reportedThreads] at hreported
      rwa [if_pos hnone] at hreported
    | other => exact replied_keep hcurrent nofun
    | stopPoint type faultInformation => exact replied_stopPoint (hreported _ List.mem_cons_self) type faultInformation
    | _ => exact replied_thread (hreported _ List.mem_cons_self) _ _
  | syscallIn syscall => exact replied_thread (hreported _ List.mem_cons_self) _ _
  | syscallOut syscall => exact replied_thread (hreported _ List.mem_cons_self) _ _
  | outputString addr size =>
    apply replied_keep hcurrent
    split
    · exact no_threads rfl
    · split
      · nofun
      · exact no_threads rfl
  | other => exact replied_keep hcurrent nofun

end DebugCtx

/-! ## The list of threads -/

namespace DebugRun

variable {sorter : Sorter} {s : DebugRun} {info : DebugEventInfo}

theorem Names.mono {live live' : List UInt32} (hsub : ∀ id ∈ live, id ∈ live') {id : UInt32} (h : Names live id) :
    Names live' id := h.imp_right (hsub id)

/-- The list of the context is that of the threads that are alive, and their ids are distinct. -/
structure Listed (s : DebugRun) : Prop where
  listed : (List.range s.ctx.nbThreads).map s.ctx.threadInfos = s.live
  ids : s.liveIds.Nodup

theorem Listed.nbThreads (h : s.Listed) : s.ctx.nbThreads = s.live.length := by
  have hlength := congrArg List.length h.listed
  simpa using hlength

/-- The ids that a context lists are those of its entries. -/
theorem threadIds_of_listed {ctx : DebugCtx} {live : List ThreadInfo} (h : (List.range ctx.nbThreads).map ctx.threadInfos = live) :
    ctx.threadIds = live.map ThreadInfo.id := by
  rw [← h, List.map_map]
  rfl

theorem Listed.attachThread (h : s.Listed) (hroom : s.live.length < maxDebugThread) (threadId threadLocalStorage : UInt32) :
    ∃ ctx, s.ctx.attachThread threadId threadLocalStorage = some ctx ∧
      (List.range ctx.nbThreads).map ctx.threadInfos = s.live ++ [⟨threadId, threadLocalStorage⟩] ∧
      ctx.currentThreadId = s.ctx.currentThreadId ∧ ctx.selectedThreadId = s.ctx.selectedThreadId ∧
      ctx.selectedThreadIdForContinuing = s.ctx.selectedThreadIdForContinuing := by
  refine ⟨_, if_neg ?_, ?_, rfl, rfl, rfl⟩
  · rw [h.nbThreads]
    exact hroom.ne
  · show (List.range (s.ctx.nbThreads + 1)).map (Function.update s.ctx.threadInfos s.ctx.nbThreads _) = _
    rw [Slots.map_range_push, h.listed]

theorem Listed.exitThread (h : s.Listed) {threadId : UInt32} (hlive : threadId ∈ s.liveIds) :
    ∃ ctx, s.ctx.exitThread threadId = some ctx ∧
      (List.range ctx.nbThreads).map ctx.threadInfos = s.live.filter (fun thread => thread.id ≠ threadId) ∧
      ctx.currentThreadId = s.ctx.currentThreadId ∧ ctx.selectedThreadId = s.ctx.selectedThreadId ∧
      ctx.selectedThreadIdForContinuing = s.ctx.selectedThreadIdForContinuing := by
  have hfound : ∃ i, s.ctx.findThread threadId = some i := by
    rw [← Option.isSome_iff_exists]
    unfold DebugCtx.findThread
    rw [List.find?_isSome]
    unfold liveIds at hlive
    rw [← h.listed, List.map_map] at hlive
    obtain ⟨i, hi, hid⟩ := List.mem_map.mp hlive
    exact ⟨i, hi, decide_eq_true hid⟩
  obtain ⟨i, hi⟩ := hfound
  have hlt : i < s.ctx.nbThreads := List.mem_range.mp (List.mem_of_find?_eq_some hi)
  have hid : (s.ctx.threadInfos i).id = threadId := by
    have hcond := List.find?_some hi
    exact of_decide_eq_true hcond
  refine ⟨_, congrArg (Option.map _) hi, ?_, rfl, rfl, rfl⟩
  show (List.range (s.ctx.nbThreads - 1)).map (Slots.erase s.ctx.nbThreads i .zero s.ctx.threadInfos) = _
  have hlen : i < s.live.length := h.nbThreads ▸ hlt
  have hentry : (s.live.get ⟨i, hlen⟩).id = threadId := by
    rw [← hid]
    have hget : s.live.get ⟨i, hlen⟩ = s.ctx.threadInfos i := by
      simp only [List.get_eq_getElem, ← h.listed, List.getElem_map, List.getElem_range]
    rw [hget]
  rw [Slots.map_range_erase _ _ hlt, h.listed, Slots.eraseIdx_eq_filter ThreadInfo.id h.ids hlen, hentry]

/-! ## One input -/

theorem liveAfter_of_not_exit (h : ∀ reason, info.event ≠ .exitThread reason) : s.liveAfter info = s.liveDuring info := by
  unfold liveAfter
  split
  · rename_i reason hexit
    exact absurd hexit (h reason)
  · rfl

theorem liveIds_during {id : UInt32} (h : id ∈ s.liveIds) : id ∈ (s.liveDuring info).map ThreadInfo.id := by
  unfold liveDuring
  split
  · rw [List.map_append]
    exact List.mem_append_left _ h
  · exact h

/-- The ids that a reply to an event that the kernel reports takes from it are alive. -/
theorem reportedThreads_during (hreports : s.Reports info) (ctx : DebugCtx) :
    ∀ id ∈ reportedThreads ctx info, id ∈ (s.liveDuring info).map ThreadInfo.id := by
  obtain ⟨event, threadId, flags⟩ := info
  intro id hmem
  cases event with
  | attachThread creator tls =>
    have hid : id = threadId := by
      dsimp only [reportedThreads] at hmem
      split at hmem
      · exact List.mem_singleton.mp hmem
      · exact absurd hmem List.not_mem_nil
    rw [hid]
    exact List.mem_map_of_mem (List.mem_append_right s.live (List.mem_singleton_self _))
  | exitThread reason =>
    dsimp only [reportedThreads] at hmem
    split at hmem
    · rw [List.mem_singleton.mp hmem]
      exact liveIds_during hreports
    · exact absurd hmem List.not_mem_nil
  | exception exc =>
    cases exc with
    | attachBreak => exact absurd hmem List.not_mem_nil
    | other => exact absurd hmem List.not_mem_nil
    | debuggerBreak threadIds =>
      dsimp only [reportedThreads] at hmem
      split at hmem
      · exact liveIds_during (hreports id hmem)
      · exact absurd hmem List.not_mem_nil
    | _ =>
      rw [List.mem_singleton.mp hmem]
      exact liveIds_during hreports
  | syscallIn syscall | syscallOut syscall =>
    rw [List.mem_singleton.mp hmem]
    exact liveIds_during hreports
  | _ => exact absurd hmem List.not_mem_nil

/-- What the first look at an event leaves of the context, and of the event. -/
structure Preprocessed (s : DebugRun) (info : DebugEventInfo) (ctx : DebugCtx) (info' : DebugEventInfo) : Prop where
  listed : (List.range ctx.nbThreads).map ctx.threadInfos = s.liveAfter info
  current : ctx.currentThreadId = s.ctx.currentThreadId
  selected : ctx.selectedThreadId = s.ctx.selectedThreadId
  selectedForContinuing : ctx.selectedThreadIdForContinuing = s.ctx.selectedThreadIdForContinuing
  reported : ∀ id ∈ reportedThreads ctx info', id ∈ (s.liveDuring info).map ThreadInfo.id
  exit : ∀ reason, info.event = .exitThread reason → info' = info

/-- The list is as it was, and the event is the same or one of its thread. -/
theorem Listed.preprocessed (h : s.Listed) {ctx : DebugCtx} {info' : DebugEventInfo} (hlive : s.liveAfter info = s.live)
    (hinfos : ctx.threadInfos = s.ctx.threadInfos) (hcount : ctx.nbThreads = s.ctx.nbThreads)
    (hcurrent : ctx.currentThreadId = s.ctx.currentThreadId) (hselected : ctx.selectedThreadId = s.ctx.selectedThreadId)
    (hcontinuing : ctx.selectedThreadIdForContinuing = s.ctx.selectedThreadIdForContinuing)
    (hreported : ∀ id ∈ reportedThreads ctx info', id ∈ (s.liveDuring info).map ThreadInfo.id)
    (hexit : ∀ reason, info.event = .exitThread reason → info' = info) : Preprocessed s info ctx info' where
  listed := by rw [hlive, hinfos, hcount, h.listed]
  current := hcurrent
  selected := hselected
  selectedForContinuing := hcontinuing
  reported := hreported
  exit := hexit

/-- A string that is written by a thread, or stands for a system call of it. -/
theorem Listed.preprocess_output (h : s.Listed) {threadId : UInt32} (addr size flags : UInt32) (hlive : threadId ∈ s.liveIds)
    (hioRequest : Bool) : Preprocessed s ⟨.outputString addr size, threadId, flags⟩
      (s.ctx.outputString ⟨.outputString addr size, threadId, flags⟩ addr size hioRequest).1
      (s.ctx.outputString ⟨.outputString addr size, threadId, flags⟩ addr size hioRequest).2 := by
  unfold DebugCtx.outputString
  by_cases hsyscall : addr ≥ 0xFFFFFFFE
  · rw [if_pos hsyscall]
    refine h.preprocessed rfl rfl rfl rfl rfl rfl (fun id hmem => ?_) nofun
    have hid : id = threadId := by
      unfold reportedThreads at hmem
      dsimp only at hmem
      by_cases hout : addr = 0xFFFFFFFF
      · rw [if_pos hout] at hmem
        exact List.mem_singleton.mp hmem
      · rw [if_neg hout] at hmem
        exact List.mem_singleton.mp hmem
    rw [hid]
    exact liveIds_during hlive
  · rw [if_neg hsyscall]
    by_cases hsize : size = 0
    · rw [if_pos hsize]
      exact h.preprocessed rfl rfl rfl rfl rfl rfl nofun nofun
    · rw [if_neg hsize]
      exact h.preprocessed rfl rfl rfl rfl rfl rfl nofun nofun

theorem Listed.preprocess (h : s.Listed) (hreports : s.Reports info) (hioRequest : Bool) :
    ∃ ctx info', s.ctx.preprocessDebugEvent info hioRequest = some (ctx, info') ∧ Preprocessed s info ctx info' := by
  have hreported := reportedThreads_during hreports
  obtain ⟨event, threadId, flags⟩ := info
  cases event with
  | attachThread creator tls =>
    obtain ⟨ctx, hctx, hlist, hcurrent, hselected, hcontinuing⟩ := h.attachThread hreports.2.2 threadId tls
    exact ⟨ctx, _, congrArg (Option.map fun ctx => (ctx, _)) hctx, hlist, hcurrent, hselected, hcontinuing, hreported ctx, nofun⟩
  | exitThread reason =>
    obtain ⟨ctx, hctx, hlist, hcurrent, hselected, hcontinuing⟩ := h.exitThread hreports
    exact ⟨ctx, _, congrArg (Option.map fun ctx => (ctx, _)) hctx, hlist, hcurrent, hselected, hcontinuing, hreported ctx,
      fun _ _ => rfl⟩
  | outputString addr size =>
    have hctx := Listed.preprocess_output h addr size flags hreports hioRequest
    exact ⟨_, _, rfl, hctx⟩
  | _ => exact ⟨_, _, rfl, h.preprocessed rfl rfl rfl rfl rfl rfl (hreported _) nofun⟩

/-- The threads of a context, the ids it remembers, and the replies sent are of threads that are alive. -/
structure Good (s : DebugRun) : Prop extends Listed s where
  current : Names s.liveIds s.ctx.currentThreadId
  selected : Names s.liveIds s.ctx.selectedThreadId
  selectedForContinuing : Names s.liveIds s.ctx.selectedThreadIdForContinuing
  replies : ∀ entry ∈ s.sent, ∀ id ∈ entry.1.threads, Names entry.2 id

/-- The ids that are remembered are still alive after an event. -/
theorem Good.names_after (h : s.Good) (hexits : s.ExitsOther info) :
    Names ((s.liveAfter info).map ThreadInfo.id) s.ctx.currentThreadId ∧
    Names ((s.liveAfter info).map ThreadInfo.id) s.ctx.selectedThreadId ∧
    Names ((s.liveAfter info).map ThreadInfo.id) s.ctx.selectedThreadIdForContinuing := by
  by_cases hexit : ∃ reason, info.event = .exitThread reason
  · obtain ⟨reason, hreason⟩ := hexit
    have hothers : ∀ {id}, info.threadId ≠ id → Names s.liveIds id → Names ((s.liveAfter info).map ThreadInfo.id) id := by
      intro id hne hid
      refine hid.imp_right fun hmem => ?_
      obtain ⟨thread, hthread, rfl⟩ := List.mem_map.mp hmem
      unfold liveAfter
      rw [hreason]
      exact List.mem_map_of_mem (List.mem_filter.mpr ⟨hthread, decide_eq_true hne.symm⟩)
    unfold ExitsOther at hexits
    rw [hreason] at hexits
    exact ⟨hothers hexits.1 h.current, hothers hexits.2.1 h.selected, hothers hexits.2.2 h.selectedForContinuing⟩
  · push Not at hexit
    rw [liveAfter_of_not_exit hexit]
    exact ⟨h.current.mono fun _ => liveIds_during, h.selected.mono fun _ => liveIds_during,
      h.selectedForContinuing.mono fun _ => liveIds_during⟩

/-- What an event, once it is handled, leaves of the context, and the packets sent for it. -/
structure Handled (s : DebugRun) (info : DebugEventInfo) (r : DebugCtx × List StopReply) : Prop where
  listed : (List.range r.1.nbThreads).map r.1.threadInfos = s.liveAfter info
  current : Names ((s.liveAfter info).map ThreadInfo.id) r.1.currentThreadId
  selected : Names ((s.liveAfter info).map ThreadInfo.id) r.1.selectedThreadId
  selectedForContinuing : Names ((s.liveAfter info).map ThreadInfo.id) r.1.selectedThreadIdForContinuing
  replies : ∀ reply ∈ r.2, ∀ id ∈ reply.threads, Names ((s.liveDuring info).map ThreadInfo.id) id

variable {ctx : DebugCtx} {info' : DebugEventInfo}

theorem Good.handled_silent (h : s.Good) (hexits : s.ExitsOther info) (hpre : Preprocessed s info ctx info')
    {replies : List StopReply}
    (hreplies : ∀ reply ∈ replies, ∀ id ∈ reply.threads, Names ((s.liveDuring info).map ThreadInfo.id) id) :
    Handled s info (ctx, replies) := by
  obtain ⟨hcurrent, hselected, hcontinuing⟩ := h.names_after hexits
  exact ⟨hpre.listed, hpre.current ▸ hcurrent, hpre.selected ▸ hselected, hpre.selectedForContinuing ▸ hcontinuing, hreplies⟩

theorem Good.handled_reply (h : s.Good) {answers : KernelAnswers} (hanswers : s.Answers answers) (hexits : s.ExitsOther info)
    (hpre : Preprocessed s info ctx info') : Handled s info (ctx.sendStopReply sorter answers info') := by
  by_cases hexit : ∃ reason, info.event = .exitThread reason
  · -- the reply to an exit leaves the context as it is, and names the thread that exits
    obtain ⟨reason, hreason⟩ := hexit
    obtain rfl := hpre.exit reason hreason
    have hreported := hpre.reported
    have hreply : ctx.sendStopReply sorter answers info' =
        (ctx, if ctx.catchThreadEvents && reason.ofThread then [.threadExit reason.sig info'.threadId] else []) := by
      unfold DebugCtx.sendStopReply
      rw [hreason]
    rw [hreply]
    apply h.handled_silent hexits hpre
    unfold reportedThreads at hreported
    rw [hreason] at hreported
    intro reply hmem id hid
    split at hmem
    · rename_i hcatch
      dsimp only at hreported
      rw [if_pos hcatch] at hreported
      rw [List.mem_singleton.mp hmem] at hid
      exact .inr (hreported id hid)
    · exact absurd hmem List.not_mem_nil
  · push Not at hexit
    have hlive := liveAfter_of_not_exit (s := s) hexit
    obtain ⟨hcurrent, hselected, hcontinuing⟩ := h.names_after hexits
    have hreplied : DebugCtx.Replied (Names ((s.liveAfter info).map ThreadInfo.id)) ctx
        (ctx.sendStopReply sorter answers info') := by
      apply DebugCtx.sendStopReply_replied
      · rw [hpre.current]
        exact hcurrent
      · exact .inl rfl
      · intro id hmem
        rw [threadIds_of_listed hpre.listed] at hmem
        exact .inr hmem
      · intro id hruns
        rw [hlive]
        exact .inr (liveIds_during (hanswers id hruns))
      · intro id hmem
        rw [hlive]
        exact .inr (hpre.reported id hmem)
    obtain ⟨⟨threadId, hid, hctx⟩, hreplies⟩ := hreplied
    refine ⟨?_, ?_, ?_, ?_, ?_⟩
    · rw [hctx]
      exact hpre.listed
    · rw [hctx]
      exact hid
    · rw [hctx]
      show Names _ ctx.selectedThreadId
      rw [hpre.selected]
      exact hselected
    · rw [hctx]
      show Names _ ctx.selectedThreadIdForContinuing
      rw [hpre.selectedForContinuing]
      exact hcontinuing
    · rw [← hlive]
      exact hreplies

/-- An event that comes is handled. -/
theorem Good.handle (h : s.Good) {answers : KernelAnswers} (hreports : s.Reports info) (hanswers : s.Answers answers)
    (hexits : s.ExitsOther info) :
    ∃ r, s.ctx.handleDebugEvents sorter answers info = some r ∧ Handled s info r := by
  obtain ⟨ctx, info', hctx, hpre⟩ := h.toListed.preprocess hreports answers.hioRequest
  have hlatest : Preprocessed s info { ctx with latestDebugEvent := info' } info' :=
    ⟨hpre.listed, hpre.current, hpre.selected, hpre.selectedForContinuing, hpre.reported, hpre.exit⟩
  unfold DebugCtx.handleDebugEvents
  rw [hctx, Option.map_some]
  refine ⟨_, rfl, ?_⟩
  dsimp only
  split
  · exact h.handled_reply hanswers hexits hpre
  · split
    · exact h.handled_silent hexits hpre nofun
    · have hreply : Handled s info ({ ctx with latestDebugEvent := info' }.sendStopReply sorter answers info') :=
        h.handled_reply hanswers hexits hlatest
      exact ⟨hreply.listed, hreply.current, hreply.selected, hreply.selectedForContinuing, hreply.replies⟩

/-! ## Every input -/

theorem Listed.ids_after (h : s.Listed) (hreports : s.Reports info) : ((s.liveAfter info).map ThreadInfo.id).Nodup := by
  obtain ⟨event, threadId, flags⟩ := info
  cases event with
  | attachThread creator tls =>
    show ((s.live ++ [ThreadInfo.mk threadId tls]).map ThreadInfo.id).Nodup
    rw [List.map_append]
    apply List.nodup_append.mpr
    refine And.intro h.ids (And.intro (List.nodup_singleton _) fun a ha b hb => ?_)
    rw [List.mem_singleton.mp hb]
    rintro rfl
    exact hreports.2.1 ha
  | exitThread reason => exact h.ids.sublist (List.filter_sublist.map _)
  | _ => exact h.ids

/-- Replies that name threads that are alive are added to those sent. -/
theorem Good.send (h : s.Good) {live : List ThreadInfo} {replies : List StopReply}
    (hreplies : ∀ reply ∈ replies, ∀ id ∈ reply.threads, Names (live.map ThreadInfo.id) id) :
    ∀ entry ∈ s.sent ++ DebugRun.send live replies, ∀ id ∈ entry.1.threads, Names entry.2 id := by
  intro entry hmem
  rcases List.mem_append.mp hmem with hold | hnew
  · exact h.replies entry hold
  · obtain ⟨reply, hreply, rfl⟩ := List.mem_map.mp hnew
    exact hreplies reply hreply

theorem Good.event (h : s.Good) {answers : KernelAnswers} (hreports : s.Reports info) (hanswers : s.Answers answers)
    (hkeeps : s.KeepsIds (.event info answers)) {s' : DebugRun} (hstep : s.step sorter (.event info answers) = some s') :
    s'.Good := by
  dsimp only [DebugRun.step] at hstep
  split at hstep
  · obtain rfl := Option.some.inj hstep
    exact h
  · rename_i hattached
    have hevent : ∃ r, s.ctx.handleDebugEvents sorter answers info = some r ∧ Handled s info r :=
      h.handle hreports hanswers (hkeeps.resolve_left hattached)
    obtain ⟨r, hr, hhandled⟩ := hevent
    rw [hr] at hstep
    obtain rfl := Option.some.inj hstep
    exact ⟨⟨hhandled.listed, h.toListed.ids_after hreports⟩, hhandled.current, hhandled.selected,
      hhandled.selectedForContinuing, h.send hhandled.replies⟩

theorem Good.attachEvent (h : s.Good) {hioRequest : Bool} (hreports : s.Reports info) (hexits : s.ExitsOther info)
    {s' : DebugRun} (hstep : s.step sorter (.attachEvent info hioRequest) = some s') : s'.Good := by
  obtain ⟨ctx, info', hctx, hpre⟩ := h.toListed.preprocess hreports hioRequest
  obtain ⟨hcurrent, hselected, hcontinuing⟩ := h.names_after hexits
  dsimp only [DebugRun.step, DebugCtx.attachEvent] at hstep
  rw [hctx] at hstep
  obtain rfl := Option.some.inj hstep
  exact ⟨⟨hpre.listed, h.toListed.ids_after hreports⟩, hpre.current ▸ hcurrent, hpre.selected ▸ hselected,
    hpre.selectedForContinuing ▸ hcontinuing, h.replies⟩

theorem Good.stopReply (h : s.Good) {answers : KernelAnswers} (hanswers : s.Answers answers)
    (hkeeps : s.KeepsIds (.stopReply answers)) {s' : DebugRun} (hstep : s.step sorter (.stopReply answers) = some s') :
    s'.Good := by
  have hreplied : DebugCtx.Replied (Names s.liveIds) s.ctx (s.ctx.sendStopReply sorter answers s.ctx.latestDebugEvent) := by
    refine DebugCtx.sendStopReply_replied h.current (.inl rfl) (fun id hmem => ?_) (fun id hruns => .inr (hanswers id hruns)) hkeeps
    rw [threadIds_of_listed h.listed] at hmem
    exact .inr hmem
  dsimp only [DebugRun.step] at hstep
  rcases hr : s.ctx.sendStopReply sorter answers s.ctx.latestDebugEvent with ⟨ctx, replies⟩
  rw [hr] at hreplied hstep
  obtain ⟨⟨threadId, hid, rfl⟩, hreplies⟩ := hreplied
  obtain rfl := Option.some.inj hstep
  exact ⟨⟨h.listed, h.ids⟩, hid, h.selected, h.selectedForContinuing, h.send hreplies⟩

/-- A packet leaves the list of threads as it is, and the current one. -/
theorem Good.keep (h : s.Good) (ctx : DebugCtx) (hinfos : ctx.threadInfos = s.ctx.threadInfos)
    (hcount : ctx.nbThreads = s.ctx.nbThreads) (hcurrent : ctx.currentThreadId = s.ctx.currentThreadId)
    (hselected : Names s.liveIds ctx.selectedThreadId) (hcontinuing : Names s.liveIds ctx.selectedThreadIdForContinuing) :
    Good { s with ctx := ctx } where
  listed := by
    rw [hinfos, hcount]
    exact h.listed
  ids := h.ids
  current := by
    rw [hcurrent]
    exact h.current
  selected := hselected
  selectedForContinuing := hcontinuing
  replies := h.replies

theorem Good.step (h : s.Good) {i : DebugInput} (henabled : s.Enabled i) (hkeeps : s.KeepsIds i) {s' : DebugRun}
    (hstep : s.step sorter i = some s') : s'.Good := by
  cases i with
  | event info answers => exact h.event henabled.1 henabled.2 hkeeps hstep
  | attachEvent info hioRequest => exact h.attachEvent henabled hkeeps hstep
  | stopReply answers => exact h.stopReply henabled hkeeps hstep
  | setThreadId forContinuing threadId =>
    obtain rfl := Option.some.inj hstep
    cases forContinuing with
    | true => exact h.keep (s.ctx.setThreadId true threadId) rfl rfl rfl h.selected hkeeps
    | false => exact h.keep (s.ctx.setThreadId false threadId) rfl rfl rfl hkeeps h.selectedForContinuing
  | selectThread =>
    obtain rfl := Option.some.inj hstep
    refine h.keep s.ctx.selectThread rfl rfl rfl ?_ h.selectedForContinuing
    show Names s.liveIds (if s.ctx.selectedThreadId = 0 then s.ctx.currentThreadId else s.ctx.selectedThreadId)
    split
    · exact h.current
    · exact h.selected
  | continueExecution =>
    obtain rfl := Option.some.inj hstep
    exact h.keep s.ctx.continueExecution rfl rfl rfl (.inl rfl) (.inl rfl)
  | detachFromProcess =>
    obtain rfl := Option.some.inj hstep
    exact ⟨⟨rfl, List.nodup_nil⟩, .inl rfl, .inl rfl, .inl rfl, h.replies⟩
  | attachToProcess attachedAtStart =>
    obtain rfl := Option.some.inj hstep
    exact h.keep (s.ctx.attachToProcess attachedAtStart) rfl rfl rfl h.selected h.selectedForContinuing
  | catchThreadEvents catchEvents | hioReply | setDetaching =>
    obtain rfl := Option.some.inj hstep
    exact h.keep _ rfl rfl rfl h.selected h.selectedForContinuing

/-- No assertion fails, even where ids have become stale. -/
theorem Listed.step_ne_none (h : s.Listed) {i : DebugInput} (henabled : s.Enabled i) : s.step sorter i ≠ none := by
  cases i with
  | event info answers =>
    obtain ⟨ctx, info', hctx, -⟩ := h.preprocess henabled.1 answers.hioRequest
    dsimp only [DebugRun.step, DebugCtx.handleDebugEvents]
    rw [hctx]
    split <;> nofun
  | attachEvent info hioRequest =>
    obtain ⟨ctx, info', hctx, -⟩ := h.preprocess henabled hioRequest
    dsimp only [DebugRun.step, DebugCtx.attachEvent]
    rw [hctx]
    nofun
  | _ => nofun

/-- The list is right after every input, whatever becomes of the ids that are remembered. -/
theorem Listed.step (h : s.Listed) {i : DebugInput} (henabled : s.Enabled i) {s' : DebugRun}
    (hstep : s.step sorter i = some s') : s'.Listed := by
  have hany : ∀ (ctx : DebugCtx) (answers : KernelAnswers) (info : DebugEventInfo),
      ∃ threadId, (ctx.sendStopReply sorter answers info).1 = ctx.setCurrent threadId := by
    intro ctx answers info
    have hreplied : DebugCtx.Replied (fun _ => True) ctx (ctx.sendStopReply sorter answers info) := by
      apply DebugCtx.sendStopReply_replied <;> simp
    obtain ⟨⟨threadId, -, hctx⟩, -⟩ := hreplied
    exact ⟨threadId, hctx⟩
  cases i with
  | event info answers =>
    obtain ⟨ctx, info', hctx, hpre⟩ := h.preprocess henabled.1 answers.hioRequest
    dsimp only [DebugRun.step, DebugCtx.handleDebugEvents] at hstep
    split at hstep
    · obtain rfl := Option.some.inj hstep
      exact h
    rw [hctx] at hstep
    obtain rfl := Option.some.inj hstep
    refine ⟨?_, h.ids_after henabled.1⟩
    dsimp only
    split
    · obtain ⟨threadId, hreply⟩ := hany ctx answers info'
      rw [hreply]
      exact hpre.listed
    · split
      · exact hpre.listed
      · obtain ⟨threadId, hreply⟩ := hany { ctx with latestDebugEvent := info' } answers info'
        rw [hreply]
        exact hpre.listed
  | attachEvent info hioRequest =>
    obtain ⟨ctx, info', hctx, hpre⟩ := h.preprocess henabled hioRequest
    dsimp only [DebugRun.step, DebugCtx.attachEvent] at hstep
    rw [hctx] at hstep
    obtain rfl := Option.some.inj hstep
    exact ⟨hpre.listed, h.ids_after henabled⟩
  | stopReply answers =>
    obtain ⟨threadId, hctx⟩ := hany s.ctx answers s.ctx.latestDebugEvent
    dsimp only [DebugRun.step] at hstep
    obtain rfl := Option.some.inj hstep
    refine ⟨?_, h.ids⟩
    dsimp only
    rw [hctx]
    exact h.listed
  | setThreadId forContinuing threadId =>
    obtain rfl := Option.some.inj hstep
    cases forContinuing <;> exact ⟨h.listed, h.ids⟩
  | detachFromProcess =>
    obtain rfl := Option.some.inj hstep
    exact ⟨rfl, List.nodup_nil⟩
  | _ =>
    obtain rfl := Option.some.inj hstep
    exact ⟨h.listed, h.ids⟩

end DebugRun

/-- In every run the list of the context is that of the threads that are alive, in the order in which they were attached,
and no assertion fails. -/
theorem threads_listed {sorter : Sorter} {s : DebugRun} (h : (debugSystem sorter).Reachable s) :
    (List.range s.ctx.nbThreads).map s.ctx.threadInfos = s.live ∧ ∀ i, s.Enabled i → s.step sorter i ≠ none := by
  have hlisted : s.Listed := by
    refine System.Reachable.invariant (S := debugSystem sorter) (J := DebugRun.Listed) ?_ (fun s i s' _ hs hstep => ?_) h
    · rintro s rfl
      exact ⟨rfl, List.nodup_nil⟩
    · exact hs.step hstep.1 hstep.2
  exact ⟨hlisted.listed, fun i => hlisted.step_ne_none⟩

/-- In every run that keeps the ids it remembers, threads are tracked. -/
theorem threads_tracked (sorter : Sorter) (s : DebugRun) (h : ((debugSystem sorter).restrict DebugRun.KeepsIds).Reachable s) :
    s.Tracked sorter := by
  have hgood : s.Good := by
    refine System.Reachable.invariant (S := (debugSystem sorter).restrict DebugRun.KeepsIds) (J := DebugRun.Good) ?_
      (fun s i s' _ hs hstep => ?_) h
    · rintro s rfl
      exact ⟨⟨rfl, List.nodup_nil⟩, .inl rfl, .inl rfl, .inl rfl, nofun⟩
    · obtain ⟨hkeeps, henabled, hok⟩ := hstep
      exact hs.step henabled hkeeps hok
  exact ⟨hgood.listed, hgood.current, hgood.selected, hgood.selectedForContinuing, hgood.replies,
    fun i => hgood.toListed.step_ne_none⟩

/-! ## Two threads -/

/-- `qsort`, by insertion. -/
def insertionSorter : Sorter where
  qsort cmp l := l.insertionSort fun a b => cmp a b ≤ 0
  perm _ l := List.perm_insertionSort _ l

/-- All threads are asleep. -/
def asleep : KernelAnswers := ⟨fun _ => none, fun _ => none, fun _ => none, fun _ => .disabled, false⟩

namespace DebugRun

/-- A thread is attached. -/
def oneAttached : DebugRun where
  ctx := { DebugCtx.init false with
    threadInfos := Function.update (fun _ => .zero) 0 ⟨1, 0x1FF82000⟩
    nbThreads := 1
    totalNbCreatedThreads := 1 }
  live := [⟨1, 0x1FF82000⟩]
  sent := []

/-- So is a second one. -/
def twoAttached : DebugRun where
  ctx := { DebugCtx.init false with
    threadInfos := Function.update (Function.update (fun _ => .zero) 0 ⟨1, 0x1FF82000⟩) 1 ⟨2, 0x1FF82200⟩
    nbThreads := 2
    totalNbCreatedThreads := 2 }
  live := [⟨1, 0x1FF82000⟩, ⟨2, 0x1FF82200⟩]
  sent := []

/-- The second one stops. -/
def secondStops : DebugRun where
  ctx := { twoAttached.ctx with
    currentThreadId := 2
    latestDebugEvent := ⟨.exception .userBreak, 2, 1⟩ }
  live := twoAttached.live
  sent := [(.thread sigInt 2 .none, [1, 2])]

theorem reachable_step {P : DebugRun → DebugInput → Prop} {s s' : DebugRun}
    (h : ((debugSystem insertionSorter).restrict P).Reachable s) (i : DebugInput) (henabled : s.Enabled i) (hkeeps : P s i)
    (hstep : s.step insertionSorter i = some s') : ((debugSystem insertionSorter).restrict P).Reachable s' :=
  h.step ⟨hkeeps, henabled, hstep⟩

/-- Runs of all kinds meet no condition. -/
theorem reachable_any {sorter : Sorter} {s : DebugRun} (h : (debugSystem sorter).Reachable s) :
    ((debugSystem sorter).restrict fun _ _ => True).Reachable s := by
  induction h with
  | init hi => exact .init hi
  | step _ hstep ih => exact ih.step ⟨trivial, hstep⟩

theorem secondStops_reachable : ((debugSystem insertionSorter).restrict KeepsIds).Reachable secondStops := by
  have hone : ((debugSystem insertionSorter).restrict KeepsIds).Reachable oneAttached := by
    refine reachable_step (.init rfl) (.event ⟨.attachThread 0 0x1FF82000, 1, 1⟩ asleep) ?_ (Or.inr trivial) rfl
    exact And.intro (And.intro (by decide) (And.intro (by decide) (by decide))) nofun
  have htwo : ((debugSystem insertionSorter).restrict KeepsIds).Reachable twoAttached := by
    refine reachable_step hone (.event ⟨.attachThread 1 0x1FF82200, 2, 1⟩ asleep) ?_ (Or.inr trivial) rfl
    exact And.intro (And.intro (by decide) (And.intro (by decide) (by decide))) nofun
  refine reachable_step htwo (.event ⟨.exception .userBreak, 2, 1⟩ asleep) ?_ (Or.inr trivial) rfl
  exact And.intro (List.mem_cons_of_mem _ List.mem_cons_self) nofun

end DebugRun

/-- The first thread exits while the second one is current. -/
theorem first_exits_tracked : ∃ s : DebugRun, s.Tracked insertionSorter ∧ s.live = [⟨2, 0x1FF82200⟩] ∧ s.ctx.nbThreads = 1 ∧
    s.ctx.currentThreadId = 2 := by
  have hexited := DebugRun.reachable_step DebugRun.secondStops_reachable (.event ⟨.exitThread .exit, 1, 1⟩ asleep)
    (And.intro List.mem_cons_self nofun) (Or.inr (And.intro (by decide) (And.intro (by decide) (by decide)))) rfl
  exact ⟨_, threads_tracked insertionSorter _ hexited, rfl, rfl, rfl⟩

/-- The second thread goes on and exits; at the next break the stop reply is for it. -/
theorem stale_thread_reported : ∃ s : DebugRun, (debugSystem insertionSorter).Reachable s ∧ s.live = [⟨1, 0x1FF82000⟩] ∧
    s.ctx.currentThreadId = 2 ∧ (.thread sigInt 2 .none, [1]) ∈ s.sent ∧ ¬ s.Tracked insertionSorter := by
  have hstopped := DebugRun.reachable_any DebugRun.secondStops_reachable.of_restrict
  have hcontinued := DebugRun.reachable_step hstopped .continueExecution trivial trivial rfl
  have hexited := DebugRun.reachable_step hcontinued (.event ⟨.exitThread .exit, 2, 1⟩ asleep)
    (And.intro (List.mem_cons_of_mem _ List.mem_cons_self) nofun) trivial rfl
  have hnone : breakThreadIds (fun _ => -1) = [] := by decide
  have hbroken := DebugRun.reachable_step hexited (.event ⟨.exception (.debuggerBreak fun _ => -1), 1, 1⟩ asleep)
    (And.intro (fun id hmem => absurd (hnone ▸ hmem) List.not_mem_nil) nofun) trivial rfl
  have hstale : ¬ DebugRun.Names [1] 2 := by
    unfold DebugRun.Names
    decide
  exact ⟨_, hbroken.of_restrict, rfl, rfl, List.mem_cons_of_mem _ List.mem_cons_self, fun htracked => hstale htracked.current⟩

end Omiiba.Rosalina
