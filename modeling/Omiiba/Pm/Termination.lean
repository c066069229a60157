/-
How PM terminates processes and waits for them, after termination.c and process_monitor.c: tasks of two threads,
the monitor, and the event between them, one step for each lock that is taken and each flag or event that is touched.
-/
import Omiiba.Lib.System
import Omiiba.Pm.ProcessData

namespace Omiiba.Pm

/-- What a task is to terminate: `TerminateApplication`, `TerminateTitle`, `TerminateProcess`,
`ChainloadHomebrewDirty`, and the two rounds of `terminateAllProcesses`. -/
inductive Request
  | application
  | title (titleId : UInt64)
  | process (pid : UInt32)
  | chainload
  | all (callerPid : UInt32)
  | builtins (numKips : Nat)
  deriving DecidableEq

/-- The part of `g_manager` that terminations use. -/
structure Manager where
  processes : List ProcessData
  runningApplicationData : Option Nat
  debugData : Option Nat
  waitingForTermination : Bool
  allNotifiedTerminationEvent : Bool

section Notify

variable (isN3ds : Bool) (services : Services)

/-- A process that is terminated by its title or its id tells of it itself. -/
def ProcessData.takeNotify (process : ProcessData) : ProcessData :=
  if process.notifyTermination then { process with notifyTermination := false, notifyTerminationTerminated := true }
  else process

/-- The loop of `TerminateProcessOrTitleAsync`; by id it stops at the first. -/
def terminateMatching (matching : ProcessData → Bool) (once : Bool) : List Nat → List ProcessData → List ProcessData
  | [], list => list
  | node :: nodes, list =>
    match list.find? (·.node = node) with
    | none => terminateMatching matching once nodes list
    | some process =>
      if matching process then
        let list := terminateProcessImpl isN3ds services process.takeNotify (modifyNode list node ProcessData.takeNotify)
        if once then list else terminateMatching matching once nodes list
      else terminateMatching matching once nodes list

/-- `terminateProcessByIdChecked`; nothing comes after a `panic`. -/
def terminateProcessByIdChecked (pid : UInt32) (list : List ProcessData) : Option (List ProcessData) :=
  (findProcessById list pid).map fun process => modifyNode list process.node (·.sendTerminationNotification services)

/-- A process in the first round of `terminateAllProcesses`. -/
def notifyUnlessCaller (caller : Option Nat) (dependencies : List UInt64) (process : ProcessData) : Option ProcessData :=
  if process.kip then some process
  else if caller = some process.node ∧ process.autoloaded = true then process.incref 1
  else if process.titleId ∉ dependencies then some (process.sendTerminationNotification services)
  else process.incref 1

/-- The processes of a running application, if there is one, and the application. -/
def withApplication (m : Manager) (f : ProcessData → List ProcessData → List ProcessData) : List ProcessData :=
  match m.runningApplicationData with
  | none => m.processes
  | some node =>
    match m.processes.find? (·.node = node) with
    | none => m.processes
    | some process => f process m.processes

/-- What a request does while its task holds the lock. -/
def Request.notify (m : Manager) : Request → Option (List ProcessData)
  | .application => some (withApplication m (terminateProcessImpl isN3ds services))
  | .title titleId =>
    some (terminateMatching isN3ds services (fun process => process.titleId = titleId || process.pid.toUInt64 = titleId) false
      (m.processes.map (·.node)) m.processes)
  | .process pid =>
    some (terminateMatching isN3ds services (fun process => process.pid = pid) true (m.processes.map (·.node)) m.processes)
  | .chainload =>
    some (withApplication m fun process list =>
      terminateProcessImpl isN3ds services { process with dependenciesLoaded := false, notifyTermination := false }
        (modifyNode list process.node fun process =>
          { process with dependenciesLoaded := false, notifyTermination := false }))
  | .all callerPid =>
    let caller := if callerPid = 0xFFFFFFFF then none else findProcessById m.processes callerPid
    let dependencies := ((caller.bind (getAndListDependencies isN3ds services)).getD [])
    (withApplication m fun process list =>
      modifyNode list process.node fun process =>
        { process with dependenciesLoaded := false }.sendTerminationNotification services).mapM
      (notifyUnlessCaller services (caller.map (·.node)) dependencies)
  | .builtins numKips =>
    (if 6 ≤ numKips then terminateProcessByIdChecked services 5 m.processes else some m.processes).bind
      (terminateProcessByIdChecked services 4)

end Notify

/-! ## Steps -/

/-- The thread of the services, and the task runner. -/
inductive TaskThread
  | services
  | taskRunner
  deriving DecidableEq

instance : Fintype TaskThread where
  elems := {.services, .taskRunner}
  complete t := by cases t <;> decide

/-- Where a task is that waits for the terminations it asks for. -/
inductive TaskPhase
  | idle
  | cleared (request : Request)
  | flagged (request : Request)
  /-- in `commitPendingTerminations`, from here to `waitingAgain` -/
  | notified
  | waiting
  | timedOut
  | waitingAgain
  | committed
  deriving DecidableEq

/-- Where `processMonitor` is. -/
inductive MonitorPhase
  | start
  | scanned (handles : List UInt32) (atLeastOneTerminating : Bool)
  | signaling (handles : List UInt32)
  | waiting (handles : List UInt32)
  | cleaning (processBackup : ProcessData)

structure PmState extends Manager where
  task : TaskThread → TaskPhase
  monitor : MonitorPhase

/-- A step of a task, of the monitor, or a process that is started or unregistered. -/
inductive PmInput
  | clearEvent (t : TaskThread) (request : Request)
  | setFlag (t : TaskThread)
  | notify (t : TaskThread) (services : Services)
  | lookForListeners (t : TaskThread)
  | waitEvent (t : TaskThread)
  | timeout (t : TaskThread)
  | terminateRest (t : TaskThread)
  | clearFlag (t : TaskThread)
  /-- a request with a negative timeout -/
  | notifyOnly (request : Request) (services : Services)
  | scan
  | testFlag
  | signal
  /-- `none` for `newProcessEvent` -/
  | wake (handle : Option UInt32)
  | cleanup (services : Services)
  | launch (process : ProcessData)
  | unregister (titleId : UInt64)

def PmState.setTask (s : PmState) (t : TaskThread) (phase : TaskPhase) : PmState :=
  { s with task := Function.update s.task t phase }

/-- `TERMSTATUS_NOTIFICATION_SENT` of some process. -/
def Manager.someSent (m : Manager) : Bool := m.processes.any fun process => process.terminationStatus = .notificationSent

/-- The end of a process, as the monitor sees it. -/
def ProcessData.terminate (process : ProcessData) : ProcessData :=
  { process with
    terminationStatus := .terminated
    notifyTerminationTerminated := process.notifyTerminationTerminated || process.notifyTermination }

/-- A step that is possible, and what comes of it; nothing comes after a `panic`. -/
def pmStep (isN3ds : Bool) (s : PmState) : PmInput → Option PmState
  | .clearEvent t request =>
    match s.task t with
    | .idle => some { s.setTask t (.cleared request) with allNotifiedTerminationEvent := false }
    | _ => none
  | .setFlag t =>
    match s.task t with
    | .cleared request => some { s.setTask t (.flagged request) with waitingForTermination := true }
    | _ => none
  | .notify t services =>
    match s.task t with
    | .flagged request =>
      (request.notify isN3ds services s.toManager).map fun list => { s.setTask t .notified with processes := list }
    | _ => none
  | .lookForListeners t =>
    match s.task t with
    | .notified => some (s.setTask t (if s.someSent then .waiting else .committed))
    | _ => none
  | .waitEvent t =>
    match s.task t, s.allNotifiedTerminationEvent with
    | .waiting, true | .waitingAgain, true =>
      some { s.setTask t .committed with allNotifiedTerminationEvent := false }
    | _, _ => none
  | .timeout t =>
    match s.task t with
    | .waiting => some (s.setTask t .timedOut)
    | _ => none
  | .terminateRest t =>
    match s.task t with
    | .timedOut => some (s.setTask t .waitingAgain)
    | _ => none
  | .clearFlag t =>
    match s.task t with
    | .committed => some { s.setTask t .idle with waitingForTermination := false }
    | _ => none
  | .notifyOnly request services =>
    (request.notify isN3ds services s.toManager).map fun list => { s with processes := list }
  | .scan =>
    match s.monitor with
    | .start =>
      let watched := s.processes.filter fun process => process.terminationStatus ≠ .terminated
      some { s with monitor := .scanned (watched.map (·.handle)) s.someSent }
    | _ => none
  | .testFlag =>
    match s.monitor with
    | .scanned handles atLeastOneTerminating =>
      some { s with
        monitor := if s.waitingForTermination && !atLeastOneTerminating then .signaling handles else .waiting handles }
    | _ => none
  | .signal =>
    match s.monitor with
    | .signaling handles => some { s with monitor := .waiting handles, allNotifiedTerminationEvent := true }
    | _ => none
  | .wake handle =>
    match s.monitor, handle with
    | .waiting _, none => some { s with monitor := .start }
    | .waiting handles, some handle =>
      if handle ∉ handles then none
      else
        match findProcessByHandle s.processes handle with
        | none => some { s with monitor := .start }
        | some process =>
          let processBackup := process.terminate
          some { s with
            monitor := .cleaning processBackup
            processes :=
              if processBackup.notifyTerminationTerminated then modifyNode s.processes process.node ProcessData.terminate
              else deleteNode s.processes process.node }
    | _, _ => none
  | .cleanup services =>
    match s.monitor with
    | .cleaning processBackup =>
      some { s with
        monitor := .start
        processes :=
          if processBackup.dependenciesLoaded then
            listAndTerminateDependencies isN3ds services processBackup s.processes
          else s.processes
        runningApplicationData := s.runningApplicationData.filter (· ≠ processBackup.node)
        debugData := s.debugData.filter (· ≠ processBackup.node) }
    | _ => none
  | .launch process =>
    if process.terminationStatus = .running then some { s with processes := s.processes ++ [process] } else none
  | .unregister titleId =>
    match findProcessByTitleId s.processes (titleId &&& ~~~n3dsTidMask) with
    | none => some s
    | some process =>
      some { s with
        processes := deleteNode s.processes process.node
        runningApplicationData := s.runningApplicationData.filter (· ≠ process.node)
        debugData := s.debugData.filter (· ≠ process.node) }

/-- Any processes that run; no task and no signal. -/
def pmSystem (isN3ds : Bool) : System PmState PmInput :=
  .guarded (fun s => (∀ process ∈ s.processes, process.terminationStatus = .running) ∧
      s.waitingForTermination = false ∧ s.allNotifiedTerminationEvent = false ∧
      (∀ t, match s.task t with | .idle => True | _ => False) ∧
      match s.monitor with | .start => True | _ => False)
    (fun _ _ => True) (pmStep isN3ds)

/-! ## What a signal means -/

/-- Between clearing the event and sending the notifications. -/
def TaskPhase.preparing : TaskPhase → Bool
  | .cleared _ | .flagged _ => true
  | _ => false

/-- Steps that leave no stale signal: the monitor signals when no notified process is left and no task is about to
notify, and whoever notifies without having cleared the event finds it clear. -/
def Fresh (s : PmState) : PmInput → Prop
  | .signal => s.someSent = false ∧ ∀ t, (s.task t).preparing = false
  | .notifyOnly _ _ => s.allNotifiedTerminationEvent = false
  | .cleanup _ =>
    match s.monitor with
    | .cleaning processBackup => processBackup.dependenciesLoaded = true → s.allNotifiedTerminationEvent = false
    | _ => True
  | _ => True

/-- `commitPendingTerminations` returns. -/
def CommitReturns (t : TaskThread) (s s' : PmState) : Prop := s.task t ≠ .committed ∧ s'.task t = .committed

/-- A signal means that no notified process is left. -/
structure PmState.Signaled (s : PmState) : Prop where
  none : s.allNotifiedTerminationEvent = true → s.someSent = false
  preparing : ∀ t, (s.task t).preparing = true → s.allNotifiedTerminationEvent = false

theorem someSent_eq_false {m : Manager} :
    m.someSent = false ↔ ∀ process ∈ m.processes, process.terminationStatus ≠ .notificationSent := by
  unfold Manager.someSent
  rw [List.any_eq_false]
  simp

theorem someSent_modifyNode {m m' : Manager} (h : m.someSent = false) (node : Nat) {f : ProcessData → ProcessData}
    (hf : ∀ process, (f process).terminationStatus ≠ .notificationSent) (hm : m'.processes = modifyNode m.processes node f) :
    m'.someSent = false := by
  rw [someSent_eq_false] at h ⊢
  rw [hm]
  intro process hprocess
  obtain ⟨old, hold, rfl⟩ := List.mem_map.mp hprocess
  split
  · exact hf old
  · exact h old hold

theorem someSent_deleteNode {m m' : Manager} (h : m.someSent = false) (node : Nat)
    (hm : m'.processes = deleteNode m.processes node) : m'.someSent = false := by
  rw [someSent_eq_false] at h ⊢
  rw [hm]
  intro process hprocess
  exact h process (List.mem_of_mem_filter hprocess)

/-- The phase of one task changes. -/
theorem preparing_update {task : TaskThread → TaskPhase} {t t' : TaskThread} {phase : TaskPhase}
    (hphase : phase.preparing = false) (h : (Function.update task t phase t').preparing = true) :
    (task t').preparing = true := by
  by_cases ht : t' = t
  · subst ht
    rw [Function.update_self, hphase] at h
    cases h
  · rw [Function.update_of_ne ht] at h
    exact h

namespace PmState.Signaled

variable {s : PmState}

/-- The processes are not notified by this step. -/
theorem of_someSent (h : s.Signaled) {s' : PmState} (hevent : s'.allNotifiedTerminationEvent = s.allNotifiedTerminationEvent)
    (htask : s'.task = s.task) (hsent : s.someSent = false → s'.someSent = false) : s'.Signaled := by
  constructor
  · intro hset
    rw [hevent] at hset
    exact hsent (h.none hset)
  · intro t ht
    rw [htask] at ht
    rw [hevent]
    exact h.preparing t ht

/-- The processes may be notified: the event is clear. -/
theorem of_clear {s' : PmState} (hevent : s'.allNotifiedTerminationEvent = false) : s'.Signaled := by
  constructor
  · intro hset
    rw [hevent] at hset
    cases hset
  · intro t _
    exact hevent

/-- A task that is done with its notifications goes on. -/
theorem setTask (h : s.Signaled) (t : TaskThread) {phase : TaskPhase} (hphase : phase.preparing = false)
    {s' : PmState} (hsent : s'.someSent = s.someSent) (htask : s'.task = Function.update s.task t phase)
    (hevent : s'.allNotifiedTerminationEvent = true → s.allNotifiedTerminationEvent = true) : s'.Signaled := by
  constructor
  · intro hset
    rw [hsent]
    exact h.none (hevent hset)
  · intro t' ht'
    rw [htask] at ht'
    by_contra hset
    rw [Bool.not_eq_false] at hset
    rw [h.preparing t' (preparing_update hphase ht')] at hevent
    cases hevent hset

theorem step {isN3ds : Bool} {s' : PmState} {input : PmInput} (h : s.Signaled) (hfresh : Fresh s input)
    (hstep : pmStep isN3ds s input = some s') : s'.Signaled := by
  cases input with
  | clearEvent t request =>
    unfold pmStep at hstep
    dsimp only at hstep
    split at hstep
    · obtain rfl := Option.some.inj hstep
      exact of_clear rfl
    · cases hstep
  | setFlag t =>
    unfold pmStep at hstep
    dsimp only at hstep
    split at hstep
    · rename_i request hphase
      obtain rfl := Option.some.inj hstep
      exact of_clear (h.preparing t (by rw [hphase]; rfl))
    · cases hstep
  | notify t services =>
    unfold pmStep at hstep
    dsimp only at hstep
    split at hstep
    · rename_i request hphase
      obtain ⟨list, _, rfl⟩ := Option.map_eq_some_iff.mp hstep
      exact of_clear (h.preparing t (by rw [hphase]; rfl))
    · cases hstep
  | lookForListeners t =>
    unfold pmStep at hstep
    dsimp only at hstep
    split at hstep
    · obtain rfl := Option.some.inj hstep
      refine h.setTask t ?_ rfl rfl id
      split <;> rfl
    · cases hstep
  | waitEvent t =>
    unfold pmStep at hstep
    dsimp only at hstep
    split at hstep
    · obtain rfl := Option.some.inj hstep
      exact of_clear rfl
    · obtain rfl := Option.some.inj hstep
      exact of_clear rfl
    · cases hstep
  | timeout t =>
    unfold pmStep at hstep
    dsimp only at hstep
    split at hstep
    · obtain rfl := Option.some.inj hstep
      exact h.setTask t rfl rfl rfl id
    · cases hstep
  | terminateRest t =>
    unfold pmStep at hstep
    dsimp only at hstep
    split at hstep
    · obtain rfl := Option.some.inj hstep
      exact h.setTask t rfl rfl rfl id
    · cases hstep
  | clearFlag t =>
    unfold pmStep at hstep
    dsimp only at hstep
    split at hstep
    · obtain rfl := Option.some.inj hstep
      exact h.setTask t rfl rfl rfl id
    · cases hstep
  | notifyOnly request services =>
    obtain ⟨list, _, rfl⟩ := Option.map_eq_some_iff.mp hstep
    exact of_clear hfresh
  | scan =>
    unfold pmStep at hstep
    dsimp only at hstep
    split at hstep
    · obtain rfl := Option.some.inj hstep
      exact h.of_someSent rfl rfl id
    · cases hstep
  | testFlag =>
    unfold pmStep at hstep
    dsimp only at hstep
    split at hstep
    · obtain rfl := Option.some.inj hstep
      exact h.of_someSent rfl rfl id
    · cases hstep
  | signal =>
    unfold pmStep at hstep
    dsimp only at hstep
    split at hstep
    · obtain rfl := Option.some.inj hstep
      constructor
      · intro _
        exact hfresh.1
      · intro t ht
        rw [show (s.task t).preparing = false from hfresh.2 t] at ht
        cases ht
    · cases hstep
  | wake handle =>
    unfold pmStep at hstep
    dsimp only at hstep
    split at hstep
    · obtain rfl := Option.some.inj hstep
      exact h.of_someSent rfl rfl id
    · split at hstep
      · cases hstep
      · split at hstep
        · obtain rfl := Option.some.inj hstep
          exact h.of_someSent rfl rfl id
        · obtain rfl := Option.some.inj hstep
          refine h.of_someSent rfl rfl fun hsent => ?_
          rename_i process _
          by_cases hkeep : process.terminate.notifyTerminationTerminated = true
          · exact someSent_modifyNode hsent process.node (fun _ => TerminationStatus.noConfusion) (if_pos hkeep)
          · exact someSent_deleteNode hsent process.node (if_neg hkeep)
    · cases hstep
  | cleanup services =>
    unfold pmStep at hstep
    dsimp only at hstep
    split at hstep
    · rename_i processBackup hmonitor
      obtain rfl := Option.some.inj hstep
      by_cases hloaded : processBackup.dependenciesLoaded = true
      · unfold Fresh at hfresh
        rw [hmonitor] at hfresh
        exact of_clear (hfresh hloaded)
      · refine h.of_someSent rfl rfl fun hsent => ?_
        unfold Manager.someSent at hsent ⊢
        rw [if_neg hloaded]
        exact hsent
    · cases hstep
  | launch process =>
    unfold pmStep at hstep
    dsimp only at hstep
    split at hstep
    · rename_i hrunning
      obtain rfl := Option.some.inj hstep
      refine h.of_someSent rfl rfl fun hsent => ?_
      rw [someSent_eq_false] at hsent ⊢
      intro process' hprocess'
      rcases List.mem_append.mp hprocess' with hold | hnew
      · exact hsent process' hold
      · rw [List.mem_singleton.mp hnew, hrunning]
        exact TerminationStatus.noConfusion
    · cases hstep
  | unregister titleId =>
    unfold pmStep at hstep
    dsimp only at hstep
    split at hstep
    · obtain rfl := Option.some.inj hstep
      exact h
    · rename_i process _
      obtain rfl := Option.some.inj hstep
      exact h.of_someSent rfl rfl fun hsent => someSent_deleteNode hsent process.node rfl

end PmState.Signaled

/-- The phases that a step leaves alone, or the one that it changes. -/
theorem pmStep_task {isN3ds : Bool} {s s' : PmState} {input : PmInput} (hstep : pmStep isN3ds s input = some s') :
    s'.task = s.task ∨ ∃ t phase, s'.task = Function.update s.task t phase ∧
      (phase = .committed → s'.processes = s.processes ∧ (s.someSent = false ∨ s.allNotifiedTerminationEvent = true)) := by
  cases input with
  | clearEvent t request =>
    unfold pmStep at hstep
    dsimp only at hstep
    split at hstep
    · obtain rfl := Option.some.inj hstep
      exact Or.inr ⟨t, _, rfl, TaskPhase.noConfusion⟩
    · cases hstep
  | setFlag t =>
    unfold pmStep at hstep
    dsimp only at hstep
    split at hstep
    · obtain rfl := Option.some.inj hstep
      exact Or.inr ⟨t, _, rfl, TaskPhase.noConfusion⟩
    · cases hstep
  | notify t services =>
    unfold pmStep at hstep
    dsimp only at hstep
    split at hstep
    · obtain ⟨list, _, rfl⟩ := Option.map_eq_some_iff.mp hstep
      exact Or.inr ⟨t, _, rfl, TaskPhase.noConfusion⟩
    · cases hstep
  | lookForListeners t =>
    unfold pmStep at hstep
    dsimp only at hstep
    split at hstep
    · obtain rfl := Option.some.inj hstep
      refine Or.inr ⟨t, _, rfl, fun hcommitted => ⟨rfl, Or.inl ?_⟩⟩
      by_contra hsent
      rw [Bool.not_eq_false] at hsent
      rw [hsent] at hcommitted
      cases hcommitted
    · cases hstep
  | waitEvent t =>
    unfold pmStep at hstep
    dsimp only at hstep
    split at hstep
    · rename_i hevent
      obtain rfl := Option.some.inj hstep
      exact Or.inr ⟨t, _, rfl, fun _ => ⟨rfl, Or.inr hevent⟩⟩
    · rename_i hevent
      obtain rfl := Option.some.inj hstep
      exact Or.inr ⟨t, _, rfl, fun _ => ⟨rfl, Or.inr hevent⟩⟩
    · cases hstep
  | timeout t =>
    unfold pmStep at hstep
    dsimp only at hstep
    split at hstep
    · obtain rfl := Option.some.inj hstep
      exact Or.inr ⟨t, _, rfl, TaskPhase.noConfusion⟩
    · cases hstep
  | terminateRest t =>
    unfold pmStep at hstep
    dsimp only at hstep
    split at hstep
    · obtain rfl := Option.some.inj hstep
      exact Or.inr ⟨t, _, rfl, TaskPhase.noConfusion⟩
    · cases hstep
  | clearFlag t =>
    unfold pmStep at hstep
    dsimp only at hstep
    split at hstep
    · obtain rfl := Option.some.inj hstep
      exact Or.inr ⟨t, _, rfl, TaskPhase.noConfusion⟩
    · cases hstep
  | notifyOnly request services =>
    obtain ⟨list, _, rfl⟩ := Option.map_eq_some_iff.mp hstep
    exact Or.inl rfl
  | scan | testFlag | signal | cleanup services | launch process =>
    unfold pmStep at hstep
    dsimp only at hstep
    split at hstep
    · obtain rfl := Option.some.inj hstep
      exact Or.inl rfl
    · cases hstep
  | wake handle =>
    unfold pmStep at hstep
    dsimp only at hstep
    split at hstep
    · obtain rfl := Option.some.inj hstep
      exact Or.inl rfl
    · split at hstep
      · cases hstep
      · split at hstep
        · obtain rfl := Option.some.inj hstep
          exact Or.inl rfl
        · obtain rfl := Option.some.inj hstep
          exact Or.inl rfl
    · cases hstep
  | unregister titleId =>
    unfold pmStep at hstep
    dsimp only at hstep
    split at hstep
    · obtain rfl := Option.some.inj hstep
      exact Or.inl rfl
    · obtain rfl := Option.some.inj hstep
      exact Or.inl rfl

/-- As long as no signal is stale, `commitPendingTerminations` returns only when no notified process is left. -/
theorem commit_returns (isN3ds : Bool) (s : PmState) (h : ((pmSystem isN3ds).restrict Fresh).Reachable s)
    (input : PmInput) (s' : PmState) (hstep : pmStep isN3ds s input = some s') (t : TaskThread)
    (hreturns : CommitReturns t s s') :
    ∀ process ∈ s'.processes, process.terminationStatus ≠ .notificationSent := by
  have hsignaled : s.Signaled := by
    refine System.Reachable.invariant (S := (pmSystem isN3ds).restrict Fresh) (J := PmState.Signaled) ?_
      (fun s input s' _ hs hstep => hs.step hstep.1 hstep.2.2) h
    intro s hs
    exact .of_clear hs.2.2.1
  obtain ⟨hbefore, hafter⟩ := hreturns
  rcases pmStep_task hstep with htask | ⟨t', phase, htask, hphase⟩
  · rw [htask] at hafter
    exact absurd hafter hbefore
  · rw [htask] at hafter
    by_cases ht : t = t'
    · subst ht
      rw [Function.update_self] at hafter
      obtain ⟨hprocesses, hnone | hevent⟩ := hphase hafter
      · rw [hprocesses]
        exact someSent_eq_false.mp hnone
      · rw [hprocesses]
        exact someSent_eq_false.mp (hsignaled.none hevent)
    · rw [Function.update_of_ne ht] at hafter
      exact absurd hafter hbefore

/-- An application and another process, both running. -/
def twoProcesses : PmState where
  processes := [⟨0, 100, 10, 0x0004000000000100, 1, false, false, false, false, false, true, 0, .running, 1⟩,
    ⟨1, 101, 11, 0x0004013000001002, 2, false, false, false, false, false, false, 0, .running, 1⟩]
  runningApplicationData := some 0
  debugData := none
  waitingForTermination := false
  allNotifiedTerminationEvent := false
  task _ := .idle
  monitor := .start

def answering : Services := ⟨fun _ => true, fun _ => some []⟩

theorem reachable_twoProcesses (isN3ds : Bool) : (pmSystem isN3ds).init twoProcesses := by
  refine ⟨?_, rfl, rfl, fun _ => trivial, trivial⟩
  intro process hprocess
  simp only [twoProcesses, List.mem_cons, List.not_mem_nil, or_false] at hprocess
  rcases hprocess with rfl | rfl <;> rfl

instance (s : PmState) (input : PmInput) : Decidable (Fresh s input) := by
  unfold Fresh
  split
  · infer_instance
  · infer_instance
  · split <;> infer_instance
  · infer_instance

/-- The application is terminated, and the monitor sees its end. -/
def orderlyInputs : List PmInput :=
  [.clearEvent .services .application, .setFlag .services, .notify .services answering, .lookForListeners .services,
    .scan, .testFlag, .wake (some 100), .cleanup answering, .scan, .testFlag, .signal]

theorem commit_returns_orderly : ∃ s s', CommitReturns .services s s' ∧
    ∀ process ∈ s'.processes, process.terminationStatus ≠ .notificationSent := by
  have hrun : (System.guardedRun (fun s input => Fresh s input ∧ True) (pmStep true) twoProcesses orderlyInputs).any
      (fun s => s.task .services = .waiting ∧ s.allNotifiedTerminationEvent = true) = true := by
    decide +kernel
  obtain ⟨s, hs, hready⟩ := (Option.any_eq_true _ _).mp hrun
  obtain ⟨htask, hevent⟩ := of_decide_eq_true hready
  have hreach : ((pmSystem true).restrict Fresh).Reachable s :=
    System.Reachable.restrict_guardedRun (.init (reachable_twoProcesses true)) hs
  have hstep : pmStep true s (.waitEvent .services) =
      some { s.setTask .services .committed with allNotifiedTerminationEvent := false } := by
    unfold pmStep
    dsimp only
    rw [htask, hevent]
  have hreturns : CommitReturns .services s { s.setTask .services .committed with allNotifiedTerminationEvent := false } := by
    constructor
    · rw [htask]
      exact TaskPhase.noConfusion
    · rfl
  exact ⟨s, _, hreturns, commit_returns true s hreach _ _ hstep _ hreturns⟩

/-- The monitor looks before the notification and signals after the flag is set. -/
def staleInputs : List PmInput :=
  [.clearEvent .services .application, .scan, .setFlag .services, .testFlag, .signal, .notify .services answering,
    .lookForListeners .services]

/-- A signal from before the notification ends the wait while the application still has to terminate. -/
theorem stale_signal : ∃ s s', (pmSystem true).Reachable s ∧ pmStep true s (.waitEvent .services) = some s' ∧
    CommitReturns .services s s' ∧ ∃ process ∈ s'.processes,
      process.terminationStatus = .notificationSent ∧ process ∈ s.processes := by
  have hrun : (System.guardedRun (fun _ _ => True) (pmStep true) twoProcesses staleInputs).any
      (fun s => s.task .services = .waiting ∧ s.allNotifiedTerminationEvent = true ∧
        ∃ process ∈ s.processes, process.terminationStatus = .notificationSent) = true := by
    decide +kernel
  obtain ⟨s, hs, hready⟩ := (Option.any_eq_true _ _).mp hrun
  obtain ⟨htask, hevent, process, hprocess, hsent⟩ := of_decide_eq_true hready
  refine ⟨s, { s.setTask .services .committed with allNotifiedTerminationEvent := false },
    System.Reachable.guardedRun (.init (reachable_twoProcesses true)) hs, ?_, ⟨?_, rfl⟩, process, hprocess, hsent, hprocess⟩
  · unfold pmStep
    dsimp only
    rw [htask, hevent]
  · rw [htask]
    exact TaskPhase.noConfusion

end Omiiba.Pm
