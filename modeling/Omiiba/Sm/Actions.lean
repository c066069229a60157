/-
What the commands can do: each is a chain of a few kinds of action. What is kept by every kind of
action is kept by every command, whatever its result.
-/
import Omiiba.Sm.Srv
import Mathlib.Logic.Relation

namespace Omiiba.Sm

open scoped List
open Relation

/-! ## Actions -/

/-- A handle the kernel may give out next. -/
def Fresh (k : Kernel) (h : Handle) : Prop := h ≠ 0 ∧ k h = none

/-- The system calls answer as documented: new handles are new, the results are not of the module
of sm's own, and a session is refused for want of room only by a port that is open. -/
structure SyscallsOk (k : Kernel) (sys : Syscalls) : Prop where
  createPort : rFailed sys.createPort.1 = false → Fresh k sys.createPort.2.2
  createSemaphore : rFailed sys.createSemaphore.1 = false → Fresh k sys.createSemaphore.2
  acceptSession : rFailed sys.acceptSession.1 = false → Fresh k sys.acceptSession.2
  fullPort : ∀ port, (sys.createSessionToPort port).1 = 0xD0401834 → k port = some .clientPort
  createPortModule : rModule sys.createPort.1 ≠ rmSrv
  createSessionModule : ∀ port, rModule (sys.createSessionToPort port).1 ≠ rmSrv
  getProcessIdModule : rModule sys.getProcessId.1 ≠ rmSrv

/-- A handle that came with a message: none, or one that nothing in sm refers to yet. -/
def Unowned (s : State) (h : Handle) : Prop :=
  h = 0 ∨ (s.kernel h = some .received ∧ ∀ e ∈ s.servicesInfo, e.clientPort ≠ h)

/-- The kinds of action of the commands of session `a` that close no ports but `ports`. -/
inductive Action (g : Globals) (a : Nat) (ports : List Handle) : State → State → Prop
  | reply (s : State) (cmdbuf : Words) : Action g a ports s { s with cmdbuf }
  | session (s : State) (d : SessionData) (handle : d.handle = (s.sessionDataPool a).handle)
      (isSrvPm : d.isSrvPm = (s.sessionDataPool a).isSrvPm) : Action g a ports s (s.setSession a d)
  | registerService (s s' : State) (info : ServiceInfo) (name : Nat → UInt8) (kind : info.isNamedPort = false)
      (port : Fresh s.kernel info.clientPort) (added : addService g (s.withPort false info.clientPort) info name = .ok s') :
      Action g a ports s s'
  | registerPort (s s' : State) (info : ServiceInfo) (name : Nat → UInt8) (kind : info.isNamedPort = true)
      (port : Unowned s info.clientPort) (added : addService g s info name = .ok s') : Action g a ports s s'
  | unregister (s : State) (removed kept : List ServiceInfo) (perm : removed ++ kept ~ s.servicesInfo)
      (closed : ∀ e ∈ removed, e.clientPort ∈ ports) :
      Action g a ports s { s with kernel := s.kernel.closeAll (removed.map (·.clientPort)), servicesInfo := kept }
  | newProcess (sys : Syscalls) (s s' : State) (pid : UInt32) (b : Nat)
      (fresh : rFailed sys.createSemaphore.1 = false → Fresh s.kernel sys.createSemaphore.2)
      (done : doRegisterProcess sys s pid = .ok (b, s')) : Action g a ports s s'
  | endProcess (s : State) (b : Nat) (inUse : b ∈ s.processLists .inUse) : Action g a ports s
      { s with
        kernel := s.kernel.closeHandle (s.processDataPool b).notificationSemaphore
        processLists := s.processLists.move b .free false }
  | process (s : State) (b : Nat) (p : ProcessData)
      (semaphore : p.notificationSemaphore = (s.processDataPool b).notificationSemaphore) :
      Action g a ports s (s.setProcess b p)
  | notify (s : State) (b : Nat) (kernel : Kernel) (inUse : b ∈ s.processLists .inUse)
      (released : s.kernel.releaseSemaphore (s.processDataPool b).notificationSemaphore 1 = some kernel) :
      Action g a ports s { s with kernel }
  | closeReceived (s : State) (h : Handle) (unowned : Unowned s h) :
      Action g a ports s { s with kernel := s.kernel.closeHandle h }

/-- Chains of actions. -/
abbrev Actions (g : Globals) (a : Nat) (ports : List Handle) : State → State → Prop :=
  ReflTransGen (Action g a ports)

theorem Actions.reply {g : Globals} {a : Nat} {ports : List Handle} {s s' : State} (h : Actions g a ports s s') (ws : List UInt32) :
    Actions g a ports s (s'.reply ws) := h.tail (.reply s' _)

section

variable {g : Globals} {sys : Syscalls} {a : Nat} {ports : List Handle} {s s' : State}

/-! ## services.c -/

theorem registerService_actions (hk : SyscallsOk s.kernel sys) {pid : UInt32} {name : Nat → UInt8}
    {nameSize : Int} {res : Result} {serverPort : Handle}
    (h : registerService g sys s pid name nameSize = .ok (res, serverPort, s')) : Actions g a ports s s' := by
  rcases doRegister_ok h with ⟨-, -, rfl⟩ | ⟨-, hr, hadd⟩
  · exact .refl
  · exact .single (.registerService s s' _ name rfl (hk.createPort (hr.port rfl)) hadd)

theorem registerPort_actions {clientPort : Handle} (hp : Unowned s clientPort) {pid : UInt32}
    {name : Nat → UInt8} {nameSize : Int} {res : Result} {serverPort : Handle}
    (h : registerPort g sys s pid clientPort name nameSize = .ok (res, serverPort, s')) : Actions g a ports s s' := by
  rcases doRegister_ok h with ⟨-, -, rfl⟩ | ⟨-, -, hadd⟩
  · exact .refl
  · exact .single (.registerPort s s' _ name rfl hp hadd)

/-- The port an unregistration closes. -/
def unregisteredPorts (s : State) (pid : UInt32) (name : Nat → UInt8) (nameSize : Int) (isNamedPort : Bool) : List Handle :=
  if rFailed (checkServiceName name nameSize) then []
  else
    match findService s.servicesInfo isNamedPort name nameSize with
    | none => []
    | some (_, info) => if info.pid = pid then [info.clientPort] else []

theorem unregister_actions {pid : UInt32} {name : Nat → UInt8} {nameSize : Int} {isNamedPort : Bool}
    (hp : ∀ h ∈ unregisteredPorts s pid name nameSize isNamedPort, h ∈ ports) :
    Actions g a ports s (unregisterServiceOrPort s pid name nameSize isNamedPort).2 := by
  rcases unregister_cases s pid name nameSize isNamedPort with ⟨-, heq⟩ | ⟨i, info, hv, hf, hpid, heq⟩
  · rw [heq]
  · rw [heq]
    refine .single (.unregister s [info] _ (swapRemove_perm_of_getElem (findService_getElem hf)) fun e he => hp _ ?_)
    unfold unregisteredPorts
    rw [hv, hf]
    simp [List.mem_singleton.1 he, hpid]

theorem getServiceHandle_actions (name : Nat → UInt8) (nameSize : Int) (flags : UInt32) :
    Actions g a ports s (getServiceHandle sys s a name nameSize flags).2.2 := by
  obtain ⟨busy, heq, -⟩ := getServiceHandle_cases sys s a name nameSize flags
  rw [heq]
  exact .single (.session s _ rfl rfl)

/-! ## processes.c and notifications.c -/

theorem doRegisterProcess_actions (hk : SyscallsOk s.kernel sys) {pid : UInt32} {b : Nat}
    (h : doRegisterProcess sys s pid = .ok (b, s')) : Actions g a ports s s' :=
  .single (.newProcess sys s s' pid b hk.createSemaphore h)

theorem registerProcess_actions (hk : SyscallsOk s.kernel sys) {pid size : UInt32} {res : Result}
    (h : registerProcess g sys s pid size = .ok (res, s')) : Actions g a ports s s' := by
  unfold registerProcess at h
  dsimp only at h
  by_cases hf : findProcessData s pid ≠ none
  · rw [if_pos hf] at h; cases h; exact .refl
  rw [if_neg hf] at h
  by_cases hsize : 8 * (if g.isPre93 then 32 else 34) < size - size % 8
  · rw [if_pos hsize] at h; cases h; exact .refl
  · rw [if_neg hsize] at h
    obtain ⟨r, hr, he⟩ := map_eq_ok.1 h
    cases he
    exact doRegisterProcess_actions hk hr

/-- The ports the end of a process closes. -/
def processPorts (s : State) (pid : UInt32) : List Handle :=
  if findProcessData s pid = none then [] else (s.servicesInfo.filter (·.pid == pid)).map (·.clientPort)

theorem unregisterProcess_actions {pid : UInt32} (hp : ∀ h ∈ processPorts s pid, h ∈ ports) : Actions g a ports s (unregisterProcess s pid).2 := by
  rcases unregisterProcess_cases s pid with ⟨-, heq⟩ | ⟨b, removed, kept, hf, hperm, hpid, -, heq⟩
  · rw [heq]
  · rw [heq]
    have hb := (findProcessData_some hf).1
    have hclosed : ∀ e ∈ removed, e.clientPort ∈ ports := fun e he => hp _ <| by
      unfold processPorts
      rw [hf, if_neg nofun]
      exact List.mem_map_of_mem (List.mem_filter.2 ⟨hperm.subset (List.mem_append_left _ he), by simpa using hpid e he⟩)
    refine (ReflTransGen.single (.unregister s removed kept hperm hclosed)).tail ?_
    -- the semaphore can as well be closed after the ports
    have hcomm : (s.kernel.closeHandle (s.processDataPool b).notificationSemaphore).closeAll
        (removed.map (·.clientPort)) =
        (s.kernel.closeAll (removed.map (·.clientPort))).closeHandle (s.processDataPool b).notificationSemaphore := by
      funext h
      unfold Kernel.closeHandle
      rw [Kernel.closeAll_apply, Kernel.closeAll_apply]
      split_ifs <;> rfl
    rw [hcomm]
    exact .endProcess _ b hb

theorem enableNotification_actions (hk : SyscallsOk s.kernel sys) {pid : UInt32} {res : Result} {h : Handle}
    (hr : enableNotification g sys s pid = .ok (res, h, s')) : Actions g a ports s s' := by
  unfold enableNotification at hr
  dsimp only at hr
  split at hr
  · cases hr
    exact .single (.process s _ _ rfl)
  · split at hr
    · obtain ⟨r, hr', he⟩ := map_eq_ok.1 hr
      cases he
      exact (doRegisterProcess_actions hk hr').tail (.process _ _ _ rfl)
    · cases hr; exact .refl

theorem subscribe_actions (pid notificationId : UInt32) : Actions g a ports s (subscribe s pid notificationId).2 := by
  unfold subscribe
  split
  · exact .refl
  · dsimp only
    split_ifs
    · exact .refl
    · exact .single (.process s _ _ rfl)
    · exact .refl

theorem unsubscribe_actions (pid notificationId : UInt32) : Actions g a ports s (unsubscribe s pid notificationId).2 := by
  unfold unsubscribe
  split
  · exact .refl
  · dsimp only
    split
    · exact .refl
    · exact .single (.process s _ _ rfl)

theorem receiveNotification_actions (pid : UInt32) : Actions g a ports s (receiveNotification s pid).2.2 := by
  unfold receiveNotification
  split
  · exact .refl
  · next b _ =>
    dsimp only
    by_cases hno : !(s.processDataPool b).notificationEnabled ∨ (s.processDataPool b).nbPendingNotifications = 0
    · rw [if_pos hno]
    · rw [if_neg hno]
      exact .single (.process s _ _ rfl)

theorem doPublishNotification_actions {b : Nat} (hb : b ∈ s.processLists .inUse) {notificationId flags : UInt32}
    {r : Bool} (h : doPublishNotification s b notificationId flags = .ok (r, s')) : Actions g a ports s s' := by
  obtain ⟨p, kernel, hp, hk, rfl⟩ := doPublishNotification_ok h
  have hsem : p.notificationSemaphore = (s.processDataPool b).notificationSemaphore := by
    cases hp <;> rfl
  rcases hk with rfl | hk
  · exact .single (.process s b p hsem)
  · exact (ReflTransGen.single (.notify s b kernel hb hk)).tail (.process _ b p hsem)

theorem publishLoop_actions {want : ProcessData → Bool} {notificationId flags : UInt32} :
    ∀ {nodes : List Nat} {s s' : State} {r : Bool} {done : List Nat}, (∀ b ∈ nodes, b ∈ s.processLists .inUse) →
      publishLoop want notificationId flags nodes s = .ok (r, done, s') → Actions g a ports s s'
  | [], s, s', r, done, _, h => by cases h; exact .refl
  | node :: nodes, s, s', r, done, hin, h => by
    unfold publishLoop at h
    split at h
    · rcases hdo : doPublishNotification s node notificationId flags with e | ⟨b1, s1⟩
      · rw [hdo] at h; cases h
      · rw [hdo] at h
        have hfirst : Actions g a ports s s1 := doPublishNotification_actions (hin node List.mem_cons_self) hdo
        cases b1 with
        | false => cases h; exact hfirst
        | true =>
          obtain ⟨r', hrest, he⟩ := map_eq_ok.1 h
          cases he
          have hlists : s1.processLists = s.processLists := by
            obtain ⟨p, kernel, -, -, rfl⟩ := doPublishNotification_ok hdo
            rfl
          refine hfirst.trans (publishLoop_actions (fun b hb => ?_) hrest)
          rw [hlists]
          exact hin b (List.mem_cons_of_mem _ hb)
    · exact publishLoop_actions (fun b hb => hin b (List.mem_cons_of_mem _ hb)) h

theorem publishToProcess_actions {process : Handle} (hp : Unowned s process) {notificationId : UInt32} {res : Result}
    (h : publishToProcess sys s process notificationId = .ok (res, s')) : Actions g a ports s s' := by
  unfold publishToProcess at h
  dsimp only at h
  split_ifs at h
  · cases h; exact .refl
  · split at h
    · cases h
      exact .single (.closeReceived s process hp)
    · next b hf =>
      obtain ⟨⟨r, s1⟩, hr, he⟩ := map_eq_ok.1 h
      cases he
      refine (doPublishNotification_actions (findEnabled_some hf).1 hr).tail (.closeReceived s1 process ?_)
      obtain ⟨p, kernel, -, hk, rfl⟩ := doPublishNotification_ok hr
      -- the semaphore released is no received handle
      refine hp.imp id fun ⟨hrec, hown⟩ => ⟨?_, hown⟩
      show kernel process = _
      rcases hk with rfl | hk
      · exact hrec
      · have hne : process ≠ (s.processDataPool b).notificationSemaphore := by
          rintro rfl
          unfold Kernel.releaseSemaphore at hk
          rw [hrec] at hk
          cases hk
        rw [(Kernel.releaseSemaphore_some hk).frame _ hne, hrec]

/-! ## srv.c and srv_pm.c -/

theorem postponeOrReply_actions (res : Result) (header desc : UInt32) (h : Handle) :
    Actions g a ports s (postponeOrReply s a res header desc h) := by
  unfold postponeOrReply
  split
  · exact .single (.session s _ rfl rfl)
  · exact .single (.reply s _)

/-- The handle in the command buffer, if its command takes one, belongs to nothing yet. -/
def CommandOk (s : State) : Prop :=
  ((s.cmdbuf 0 >>> 16).toNat = 5 ∨ (s.cmdbuf 0 >>> 16).toNat = 8) ∨
    ∀ h, firstShared s.cmdbuf = some h → Unowned s h

/-- The process handle of `PublishToProcess` belongs to nothing yet. -/
theorem CommandOk.process (hc : CommandOk s)
    (hhead : s.cmdbuf 0 = ipcMakeHeader ((s.cmdbuf 0 &&& 0x04000000) >>> 16 ||| 1) 1 2 ∧
      s.cmdbuf 2 = ipcDescSharedHandles 1) : Unowned s (s.cmdbuf 3) := by
  have hshared : firstShared s.cmdbuf = some (s.cmdbuf 3) := by
    obtain ⟨h0, h2⟩ := hhead
    unfold firstShared
    rcases mask_cases (s.cmdbuf 0) with hm | hm
    · rw [hm] at h0
      rw [h0]
      exact if_pos ⟨by decide, h2⟩
    · rw [hm] at h0
      rw [h0]
      exact if_pos ⟨by decide, h2⟩
  -- a request that can be postponed is another command
  have hone : ¬ ((s.cmdbuf 0 >>> 16).toNat = 5 ∨ (s.cmdbuf 0 >>> 16).toNat = 8) := by
    intro hn
    have h0 := hhead.1
    rw [mask_zero hn] at h0
    rw [h0] at hn
    exact absurd hn (by decide)
  exact hc.resolve_left hone _ hshared

/-- The ports a srv: command closes. -/
def srvClosedPorts (s : State) (a : Nat) : List Handle :=
  let unregistered := unregisteredPorts s (s.sessionDataPool a).pid s.cmdbuf.name (s32 (s.cmdbuf 3))
  match (s.cmdbuf 0 >>> 16).toNat with
  | 4 => unregistered false
  | 7 => unregistered true
  | _ => []

/-- The ports a command closes. -/
def closedPorts (g : Globals) (s : State) (a : Nat) : List Handle :=
  let mask := (s.cmdbuf 0 &&& 0x04000000) >>> 16
  if (s.sessionDataPool a).isSrvPm = false ∨ (g.isPre7x ∧ mask = 0) then srvClosedPorts s a
  else if !g.isPre7x ∧ mask ≠ 0 then []
  else
    match ((s.cmdbuf 0 >>> 16) &&& ~~~mask).toNat with
    | 4 => processPorts s (s.cmdbuf 1)
    | _ => []

theorem srvHandleCommands_actions (hp : ∀ h ∈ srvClosedPorts s a, h ∈ ports) (hk : SyscallsOk s.kernel sys)
    (hc : CommandOk s) {res : Result}
    (h : srvHandleCommands g sys s a = .ok (res, s')) : Actions g a ports s s' := by
  unfold srvHandleCommands at h
  dsimp only at h
  split at h
  · split_ifs at h
    · cases h
      have hset : Actions g a ports s (s.setSession a { s.sessionDataPool a with pid := s.cmdbuf 2 }) :=
        .single (.session s _ rfl rfl)
      exact hset.reply _
    · cases h; exact .single (.reply s _)
  · obtain ⟨r, hr, he⟩ := map_eq_ok.1 h
    cases he
    exact (enableNotification_actions hk hr).reply _
  · obtain ⟨r, hr, he⟩ := map_eq_ok.1 h
    cases he
    exact (registerService_actions hk hr).reply _
  · next hcmd =>
    cases h
    refine (unregister_actions fun h hh => hp h ?_).reply _
    unfold srvClosedPorts
    rw [hcmd]
    exact hh
  · cases h
    exact (getServiceHandle_actions _ _ _).trans (postponeOrReply_actions _ _ _ _)
  · next hcmd =>
    split_ifs at h with hhead
    · obtain ⟨r, hr, he⟩ := map_eq_ok.1 h
      cases he
      refine (registerPort_actions ?_ hr).reply _
      have hshared : firstShared s.cmdbuf = some (s.cmdbuf 5) := by
        unfold firstShared
        rw [hhead.1]
        exact if_pos ⟨by decide, hhead.2⟩
      exact hc.resolve_left (by rw [hcmd]; decide) _ hshared
    · cases h; exact .single (.reply s _)
  · next hcmd =>
    cases h
    refine (unregister_actions fun h hh => hp h ?_).reply _
    unfold srvClosedPorts
    rw [hcmd]
    exact hh
  · cases h
    exact postponeOrReply_actions _ _ _ _
  · cases h
    exact (subscribe_actions _ _).reply _
  · cases h
    exact (unsubscribe_actions _ _).reply _
  · cases h
    exact (receiveNotification_actions _).reply _
  · obtain ⟨r, hr, he⟩ := map_eq_ok.1 h
    cases he
    obtain ⟨r', hr', he⟩ := map_eq_ok.1 hr
    cases he
    exact (publishLoop_actions (fun _ hb => hb) hr').reply _
  · obtain ⟨r, hr, he⟩ := map_eq_ok.1 h
    cases he
    obtain ⟨r', hr', he⟩ := map_eq_ok.1 hr
    have hs : r'.2.2 = r.2.2.2 := by subst he; dsimp only; split <;> rfl
    exact (hs ▸ publishLoop_actions (fun _ hb => hb) hr').reply _
  · cases h
    exact .single (.reply s _)
  · cases h
    exact .single (.reply s _)

theorem srvPmHandleCommands_actions (hpm : (s.sessionDataPool a).isSrvPm = true) (hp : ∀ h ∈ closedPorts g s a, h ∈ ports)
    (hk : SyscallsOk s.kernel sys) (hc : CommandOk s) {res : Result}
    (h : srvPmHandleCommands g sys s a = .ok (res, s')) : Actions g a ports s s' := by
  unfold srvPmHandleCommands at h
  dsimp only at h
  have hports := hp
  unfold closedPorts at hports
  dsimp only at hports
  split at h
  · next hpre =>
    rw [if_pos (.inr hpre)] at hports
    exact srvHandleCommands_actions hports hk hc h
  next hpre =>
  split at h
  · cases h; exact .single (.reply s _)
  next hmask =>
  rw [if_neg (by rw [hpm]; simpa using hpre), if_neg hmask] at hports
  split at h
  · split at h
    · next hhead =>
      obtain ⟨r, hr, he⟩ := map_eq_ok.1 h
      cases he
      exact (publishToProcess_actions (hc.process hhead) hr).reply _
    · cases h; exact .single (.reply s _)
  · obtain ⟨r, hr, he⟩ := map_eq_ok.1 h
    cases he
    obtain ⟨r', hr', he⟩ := map_eq_ok.1 hr
    cases he
    exact (publishLoop_actions (fun _ hb => hb) hr').reply _
  · split at h
    · obtain ⟨r, hr, he⟩ := map_eq_ok.1 h
      cases he
      exact (registerProcess_actions hk hr).reply _
    · cases h; exact .single (.reply s _)
  · next hcmd =>
    cases h
    rw [hcmd] at hports
    exact (unregisterProcess_actions hports).reply _
  · cases h
    exact .single (.reply s _)

theorem handleCommands_actions (hk : SyscallsOk s.kernel sys) (hc : CommandOk s) {res : Result}
    (h : handleCommands g sys s a = .ok (res, s')) : Actions g a (closedPorts g s a) s s' := by
  unfold handleCommands at h
  split at h
  · next hpm => exact srvPmHandleCommands_actions hpm (fun _ => id) hk hc h
  · next hpm =>
    refine srvHandleCommands_actions (fun h hh => ?_) hk hc h
    unfold closedPorts
    rw [if_pos (.inl (by simpa using hpm))]
    exact hh

/-! ## Postponed requests -/

theorem wouldBlock_of_module {res : Result} (h : rModule res ≠ rmSrv) : wouldBlock res = false := by
  unfold wouldBlock
  rw [beq_eq_false_iff_ne.2 h]; rfl

theorem doRegister_wouldBlock (hk : SyscallsOk s.kernel sys) {pid : UInt32} {clientPort serverPort : Handle}
    {name : Nat → UInt8} {nameSize : Int} {isNamedPort : Bool} {res : Result}
    (h : doRegisterServiceOrPort g sys s pid clientPort name nameSize isNamedPort = .ok (res, serverPort, s')) :
    wouldBlock res = false := by
  unfold doRegisterServiceOrPort at h
  dsimp only at h
  split_ifs at h
  · cases h; exact wouldBlock_checkServiceName _ _
  · cases h; decide
  · cases h; decide
  · cases h; decide
  · split at h
    · cases h
    · cases h; exact wouldBlock_of_module hk.createPortModule
  · split at h
    · cases h
    · cases h; exact wouldBlock_checkServiceName _ _

theorem unregister_wouldBlock (pid : UInt32) (name : Nat → UInt8) (nameSize : Int) (isNamedPort : Bool) :
    wouldBlock (unregisterServiceOrPort s pid name nameSize isNamedPort).1 = false := by
  unfold unregisterServiceOrPort
  dsimp only
  split
  · exact wouldBlock_checkServiceName _ _
  · split
    · exact (by decide : wouldBlock 0xD8801BFA = false)
    · split
      · exact (by decide : wouldBlock 0xD8E06406 = false)
      · exact (by decide : wouldBlock 0 = false)

theorem enableNotification_wouldBlock {pid : UInt32} {res : Result} {h : Handle}
    (hr : enableNotification g sys s pid = .ok (res, h, s')) : wouldBlock res = false := by
  unfold enableNotification at hr
  dsimp only at hr
  split at hr
  · cases hr; decide
  · split at hr
    · obtain ⟨r, -, he⟩ := map_eq_ok.1 hr
      cases he; decide
    · cases hr; decide

theorem registerProcess_wouldBlock {pid size : UInt32} {res : Result}
    (h : registerProcess g sys s pid size = .ok (res, s')) : wouldBlock res = false := by
  unfold registerProcess at h
  dsimp only at h
  by_cases hf : findProcessData s pid ≠ none
  · rw [if_pos hf] at h; cases h; decide
  rw [if_neg hf] at h
  by_cases hsize : 8 * (if g.isPre93 then 32 else 34) < size - size % 8
  · rw [if_pos hsize] at h; cases h; decide
  · rw [if_neg hsize] at h
    obtain ⟨r, hr, he⟩ := map_eq_ok.1 h
    cases he; decide

theorem unregisterProcess_wouldBlock (pid : UInt32) : wouldBlock (unregisterProcess s pid).1 = false := by
  rcases unregisterProcess_cases s pid with ⟨-, heq⟩ | ⟨b, removed, kept, -, -, -, -, heq⟩
  · rw [heq]; exact (by decide : wouldBlock 0xD8806404 = false)
  · rw [heq]; exact (by decide : wouldBlock 0 = false)

theorem published_wouldBlock (b : Bool) : wouldBlock (if b then 0 else 0xD8606408) = false := by
  cases b <;> decide

theorem publishToProcess_wouldBlock (hk : SyscallsOk s.kernel sys) {process : Handle} {notificationId : UInt32}
    {res : Result} (h : publishToProcess sys s process notificationId = .ok (res, s')) : wouldBlock res = false := by
  unfold publishToProcess at h
  dsimp only at h
  split at h
  · cases h; exact wouldBlock_of_module hk.getProcessIdModule
  · split at h
    · cases h; decide
    · obtain ⟨r, -, he⟩ := map_eq_ok.1 h
      cases he; exact published_wouldBlock _

theorem subscribe_wouldBlock (pid notificationId : UInt32) : wouldBlock (subscribe s pid notificationId).1 = false := by
  unfold subscribe
  split
  · exact (by decide : wouldBlock 0xD8806404 = false)
  · dsimp only
    split_ifs
    · exact (by decide : wouldBlock 0xD9006403 = false)
    · exact (by decide : wouldBlock 0 = false)
    · exact (by decide : wouldBlock 0xD9006405 = false)

theorem unsubscribe_wouldBlock (pid notificationId : UInt32) :
    wouldBlock (unsubscribe s pid notificationId).1 = false := by
  unfold unsubscribe
  split
  · exact (by decide : wouldBlock 0xD8806404 = false)
  · dsimp only
    split
    · exact (by decide : wouldBlock 0xD8806404 = false)
    · exact (by decide : wouldBlock 0 = false)

theorem receiveNotification_wouldBlock (pid : UInt32) : wouldBlock (receiveNotification s pid).1 = false := by
  unfold receiveNotification
  split
  · exact (by decide : wouldBlock 0xD8806404 = false)
  · dsimp only
    split
    · exact (by decide : wouldBlock 0xD8806404 = false)
    · exact (by decide : wouldBlock 0 = false)

theorem isServiceRegistered_wouldBlock (name : Nat → UInt8) (nameSize : Int) :
    wouldBlock (isServiceRegistered s name nameSize).1 = false := by
  unfold isServiceRegistered
  dsimp only
  split
  · exact wouldBlock_checkServiceName _ _
  · exact (by decide : wouldBlock 0 = false)

/-- A command that is postponed is a GetServiceHandle or GetPort with a valid name. Its session keeps
the request, and the full port if that is the reason; nothing else changes. -/
structure Postponed (g : Globals) (s : State) (a : Nat) (res : Result) (busy : Handle) (s' : State) : Prop where
  command : (s.cmdbuf 0 >>> 16).toNat = 5 ∨ (s.cmdbuf 0 >>> 16).toNat = 8
  name : rFailed (checkServiceName s.cmdbuf.name (s32 (s.cmdbuf 3))) = false
  reason : (res = 0xD0406401 ∧ busy = (s.sessionDataPool a).busyClientPortHandle) ∨
    (res = 0xD0406402 ∧ s.kernel busy = some .clientPort)
  kind : (s.sessionDataPool a).isSrvPm = false ∨ g.isPre7x = true
  state : s' = s.setSession a { s.sessionDataPool a with
    replayCmdbuf := Words.copy16 (s.sessionDataPool a).replayCmdbuf s.cmdbuf, busyClientPortHandle := busy }

theorem postponeOrReply_state {res : Result} {header desc : UInt32} {h : Handle} (hb : wouldBlock res = true) :
    postponeOrReply s a res header desc h = s.setSession a { s.sessionDataPool a with
      replayCmdbuf := Words.copy16 (s.sessionDataPool a).replayCmdbuf s.cmdbuf } := by
  unfold postponeOrReply
  rw [if_pos hb]

theorem srvHandleCommands_postponed (hk : SyscallsOk s.kernel sys)
    (hkind : (s.sessionDataPool a).isSrvPm = false ∨ g.isPre7x = true) {res : Result}
    (h : srvHandleCommands g sys s a = .ok (res, s')) (hb : wouldBlock res = true) :
    ∃ busy, Postponed g s a res busy s' := by
  have hno : ∀ {r : Result}, wouldBlock r = false → res = r → False := by
    rintro r hr rfl
    rw [hr] at hb
    cases hb
  unfold srvHandleCommands at h
  dsimp only at h
  split at h
  · split_ifs at h
    · cases h; exact (hno (by decide) rfl).elim
    · cases h; exact (hno (by decide) rfl).elim
  · obtain ⟨r, hr, he⟩ := map_eq_ok.1 h
    cases he; exact (hno (enableNotification_wouldBlock hr) rfl).elim
  · obtain ⟨r, hr, he⟩ := map_eq_ok.1 h
    cases he; exact (hno (doRegister_wouldBlock hk hr) rfl).elim
  · cases h; exact (hno (unregister_wouldBlock _ _ _ _) rfl).elim
  · next hcmd =>
    obtain ⟨busy, hs, hpost⟩ := getServiceHandle_cases sys s a s.cmdbuf.name (s32 (s.cmdbuf 3)) (s.cmdbuf 4)
    cases h
    obtain ⟨hv, hr⟩ := hpost hb hk.createSessionModule
    refine ⟨busy, .inl hcmd, hv, hr.imp id (And.imp id (hk.fullPort busy)), hkind, ?_⟩
    rw [postponeOrReply_state hb, hs]
    unfold State.setSession
    dsimp only
    congr 1
    funext b
    split
    · simp
    · rfl
  · split_ifs at h
    · obtain ⟨r, hr, he⟩ := map_eq_ok.1 h
      cases he; exact (hno (doRegister_wouldBlock hk hr) rfl).elim
    · cases h; exact (hno (by decide) rfl).elim
  · cases h; exact (hno (unregister_wouldBlock _ _ _ _) rfl).elim
  · next hcmd =>
    cases h
    obtain ⟨hv, hr⟩ := getPort_wouldBlock hb
    exact ⟨_, .inr hcmd, hv, .inl ⟨hr, rfl⟩, hkind, postponeOrReply_state hb⟩
  · cases h; exact (hno (subscribe_wouldBlock _ _) rfl).elim
  · cases h; exact (hno (unsubscribe_wouldBlock _ _) rfl).elim
  · cases h; exact (hno (receiveNotification_wouldBlock _) rfl).elim
  · obtain ⟨r, hr, he⟩ := map_eq_ok.1 h
    cases he
    obtain ⟨r', -, he⟩ := map_eq_ok.1 hr
    cases he; exact (hno (published_wouldBlock _) rfl).elim
  · obtain ⟨r, hr, he⟩ := map_eq_ok.1 h
    cases he
    obtain ⟨r', -, he⟩ := map_eq_ok.1 hr
    have hres : r.1 = if r'.1 then 0 else 0xD8606408 := by subst he; dsimp only; split <;> rfl
    exact (hno (published_wouldBlock _) hres).elim
  · cases h; exact (hno (isServiceRegistered_wouldBlock _ _) rfl).elim
  · cases h; exact (hno (by decide) rfl).elim

theorem handleCommands_postponed (hk : SyscallsOk s.kernel sys) {res : Result}
    (h : handleCommands g sys s a = .ok (res, s')) (hb : wouldBlock res = true) :
    ∃ busy, Postponed g s a res busy s' := by
  have hno : ∀ {r : Result}, wouldBlock r = false → res = r → False := by
    rintro r hr rfl
    rw [hr] at hb
    cases hb
  unfold handleCommands at h
  split at h
  · unfold srvPmHandleCommands at h
    dsimp only at h
    split at h
    · next hpre => exact srvHandleCommands_postponed hk (.inr hpre.1) h hb
    split at h
    · cases h; exact (hno (by decide) rfl).elim
    split at h
    · split at h
      · obtain ⟨r, hr, he⟩ := map_eq_ok.1 h
        cases he; exact (hno (publishToProcess_wouldBlock hk hr) rfl).elim
      · cases h; exact (hno (by decide) rfl).elim
    · obtain ⟨r, hr, he⟩ := map_eq_ok.1 h
      cases he
      obtain ⟨r', -, he⟩ := map_eq_ok.1 hr
      cases he; exact (hno (published_wouldBlock _) rfl).elim
    · split at h
      · obtain ⟨r, hr, he⟩ := map_eq_ok.1 h
        cases he; exact (hno (registerProcess_wouldBlock hr) rfl).elim
      · cases h; exact (hno (by decide) rfl).elim
    · cases h; exact (hno (unregisterProcess_wouldBlock _) rfl).elim
    · cases h; exact (hno (by decide) rfl).elim
  · next hkind => exact srvHandleCommands_postponed hk (.inl (by simpa using hkind)) h hb

end

end Omiiba.Sm
