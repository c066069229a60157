/-
processes.c and notifications.c: the registered processes and their notification queues.
-/
import Omiiba.Lib.Ring
import Omiiba.Sm.Services

namespace Omiiba.Sm

/-! ## processes.c -/

def findProcessData (s : State) (pid : UInt32) : Option Nat :=
  (s.processLists .inUse).find? fun a => (s.processDataPool a).pid == pid

/-- `doRegisterProcess`: the element is taken from the free list, cleared and filled in. -/
def doRegisterProcess (sys : Syscalls) (s : State) (pid : UInt32) : Except Panic (Nat × State) :=
  match (s.processLists .free).head? with
  | none => .error .emptyFreeList
  | some a =>
    let (res, notificationSemaphore) := sys.createSemaphore
    if rFailed res then .error (.result res)
    else
      let s := (s.setProcess a .zero).moveProcess a .inUse false
      let s := { s with kernel := s.kernel.opened notificationSemaphore (.semaphore 0 0x10) }
      .ok (a, s.setProcess a { ProcessData.zero with pid, notificationSemaphore })

def registerProcess (g : Globals) (sys : Syscalls) (s : State) (pid serviceAccessListSize : UInt32) :
    Except Panic (Result × State) :=
  let serviceAccessListSize := serviceAccessListSize - serviceAccessListSize % 8
  if findProcessData s pid ≠ none then .ok (0xD9006403, s)
  else if 8 * (if g.isPre93 then 32 else 34) < serviceAccessListSize then .ok (0xD9006405, s)
  else (doRegisterProcess sys s pid).map fun r => (0, r.2)

/-- "Unregister the services registered by the process", from entry `i` on. -/
def unregisterServicesLoop (pid : UInt32) : Nat → Nat → State → State
  | 0, _, s => s
  | fuel + 1, i, s =>
    match s.servicesInfo[i]? with
    | none => s
    | some info =>
      if info.pid = pid then unregisterServicesLoop pid fuel i (removeService s i info)
      else unregisterServicesLoop pid fuel (i + 1) s

/-- `UnregisterProcess`; each turn of its loop comes one entry closer to the end of the table. -/
def unregisterProcess (s : State) (pid : UInt32) : Result × State :=
  match findProcessData s pid with
  | none => (0xD8806404, s)
  | some a =>
    let s := { s with kernel := s.kernel.closeHandle (s.processDataPool a).notificationSemaphore }
    let s := unregisterServicesLoop pid s.servicesInfo.length 0 s
    (0, s.moveProcess a .free false)

/-! ## notifications.c -/

/-- No notification is inhibited. -/
def isNotificationInhibited (_processData : ProcessData) (_notificationId : UInt32) : Bool := false

/-- The ids pending for a process, oldest first. -/
def ProcessData.pending (p : ProcessData) : List UInt32 :=
  Ring.window p.pendingNotifications 16 p.receivedNotificationIndex p.nbPendingNotifications

/-- The id put at the end of the ring. -/
def ProcessData.push (p : ProcessData) (notificationId : UInt32) : ProcessData :=
  { p with
    pendingNotifications := fun i => if i = p.pendingNotificationIndex then notificationId else p.pendingNotifications i
    pendingNotificationIndex := (p.pendingNotificationIndex + 1) % 16
    nbPendingNotifications := p.nbPendingNotifications + 1
    accepted := p.accepted ++ [notificationId] }

/-- `doPublishNotification` on the element `a`. -/
def doPublishNotification (s : State) (a : Nat) (notificationId flags : UInt32) : Except Panic (Bool × State) :=
  let p := s.processDataPool a
  if flags &&& 1 ≠ 0 ∧ p.nbPendingNotifications ≠ 0 ∧ p.pending.contains notificationId then .ok (true, s)
  else if p.nbPendingNotifications < 0x10 then
    match s.kernel.releaseSemaphore p.notificationSemaphore 1 with
    | none => .error .semaphoreRelease
    | some kernel => .ok (true, { s with kernel }.setProcess a (p.push notificationId))
  else .ok (flags &&& 2 ≠ 0, s)

def enableNotification (g : Globals) (sys : Syscalls) (s : State) (pid : UInt32) :
    Except Panic (Result × Handle × State) :=
  let enable (a : Nat) (s : State) :=
    (0, (s.processDataPool a).notificationSemaphore,
      s.setProcess a { s.processDataPool a with notificationEnabled := true })
  match findProcessData s pid with
  | some a => .ok (enable a s)
  | none =>
    -- modules of section 0 are not registered by pm
    if pid < g.nbSection0Modules then (doRegisterProcess sys s pid).map fun r => enable r.1 r.2
    else .ok (0xD8806404, 0, s)

/-- The element of a process that has enabled notifications. -/
def findEnabled (s : State) (pid : UInt32) : Option Nat :=
  (findProcessData s pid).filter fun a => (s.processDataPool a).notificationEnabled

def subscribe (s : State) (pid notificationId : UInt32) : Result × State :=
  match findEnabled s pid with
  | none => (0xD8806404, s)
  | some a =>
    let p := s.processDataPool a
    if notificationId ∈ p.subscribedNotifications then (0xD9006403, s)
    else if p.subscribedNotifications.length < 0x11 then
      (0, s.setProcess a { p with subscribedNotifications := p.subscribedNotifications ++ [notificationId] })
    else (0xD9006405, s)

def unsubscribe (s : State) (pid notificationId : UInt32) : Result × State :=
  match findEnabled s pid with
  | none => (0xD8806404, s)
  | some a =>
    let p := s.processDataPool a
    match p.subscribedNotifications.findIdx? (· == notificationId) with
    | none => (0xD8806404, s)
    | some i => (0, s.setProcess a { p with subscribedNotifications := swapRemove p.subscribedNotifications i })

/-- The oldest pending id taken out of the ring. -/
def ProcessData.pop (p : ProcessData) : UInt32 × ProcessData :=
  let notificationId := p.pendingNotifications p.receivedNotificationIndex
  (notificationId, { p with
    nbPendingNotifications := p.nbPendingNotifications - 1
    receivedNotificationIndex := (p.receivedNotificationIndex + 1) % 16
    received := p.received ++ [notificationId] })

/-- `ReceiveNotification`; the id is `none` where `*notificationId` is not written. -/
def receiveNotification (s : State) (pid : UInt32) : Result × Option UInt32 × State :=
  match findProcessData s pid with
  | none => (0xD8806404, none, s)
  | some a =>
    let p := s.processDataPool a
    if !p.notificationEnabled ∨ p.nbPendingNotifications = 0 then
      (0xD8806404, if p.nbPendingNotifications ≠ 0 then some 0 else none, s)
    else (0, some p.pop.1, s.setProcess a p.pop.2)

/-- The loops over the registered processes: publish to those wanted until one has no room. The
list is of the processes published to. -/
def publishLoop (want : ProcessData → Bool) (notificationId flags : UInt32) :
    List Nat → State → Except Panic (Bool × List Nat × State)
  | [], s => .ok (true, [], s)
  | node :: nodes, s =>
    if want (s.processDataPool node) then
      match doPublishNotification s node notificationId flags with
      | .error e => .error e
      | .ok (false, s) => .ok (false, [], s)
      | .ok (true, s) => (publishLoop want notificationId flags nodes s).map fun r => (r.1, node :: r.2.1, r.2.2)
    else publishLoop want notificationId flags nodes s

def isSubscriber (notificationId : UInt32) (p : ProcessData) : Bool :=
  p.notificationEnabled && !isNotificationInhibited p notificationId && p.subscribedNotifications.contains notificationId

def publishToSubscriber (s : State) (notificationId flags : UInt32) : Except Panic (Result × State) :=
  (publishLoop (isSubscriber notificationId) notificationId flags (s.processLists .inUse) s).map fun r =>
    (if r.1 then 0 else 0xD8606408, r.2.2)

/-- `PublishAndGetSubscriber`: the pids written to `pidList`, and `*pidCount` where it is written. -/
def publishAndGetSubscriber (s : State) (notificationId flags : UInt32) :
    Except Panic (Result × Option UInt32 × List UInt32 × State) :=
  (publishLoop (isSubscriber notificationId) notificationId flags (s.processLists .inUse) s).map fun r =>
    let pidList := (r.2.1.take 60).map fun a => (s.processDataPool a).pid
    if r.1 then (0, some (UInt32.ofNat pidList.length), pidList, r.2.2) else (0xD8606408, none, pidList, r.2.2)

/-- `PublishToProcess`; the process handle stays open when its pid cannot be had. -/
def publishToProcess (sys : Syscalls) (s : State) (process : Handle) (notificationId : UInt32) :
    Except Panic (Result × State) :=
  let (res, pid) := sys.getProcessId
  if rFailed res then .ok (res, s)
  else
    let close (r : Result × State) := (r.1, { r.2 with kernel := r.2.kernel.closeHandle process })
    match findEnabled s pid with
    | none => .ok (close (0xD8806404, s))
    | some a => (doPublishNotification s a notificationId 0).map fun r => close (if r.1 then 0 else 0xD8606408, r.2)

def publishToAll (s : State) (notificationId : UInt32) : Except Panic (Result × State) :=
  (publishLoop (·.notificationEnabled) notificationId 0 (s.processLists .inUse) s).map fun r =>
    (if r.1 then 0 else 0xD8606408, r.2.2)

/-! ## Finding and registering processes -/

theorem findProcessData_some {s : State} {pid : UInt32} {a : Nat} (h : findProcessData s pid = some a) :
    a ∈ s.processLists .inUse ∧ (s.processDataPool a).pid = pid := by
  unfold findProcessData at h
  exact ⟨List.mem_of_find?_eq_some h, by simpa using List.find?_some h⟩

theorem findEnabled_some {s : State} {pid : UInt32} {a : Nat} (h : findEnabled s pid = some a) :
    a ∈ s.processLists .inUse ∧ (s.processDataPool a).notificationEnabled = true := by
  unfold findEnabled at h
  obtain ⟨hf, he⟩ := Option.filter_eq_some_iff.1 h
  exact ⟨(findProcessData_some hf).1, he⟩

/-- A new process has a new semaphore and an empty queue. -/
theorem doRegisterProcess_ok {sys : Syscalls} {s s' : State} {pid : UInt32} {a : Nat}
    (h : doRegisterProcess sys s pid = .ok (a, s')) :
    (s.processLists .free).head? = some a ∧ rFailed sys.createSemaphore.1 = false ∧
      s' = { s with
        kernel := s.kernel.opened sys.createSemaphore.2 (.semaphore 0 0x10)
        processLists := s.processLists.move a .inUse false }.setProcess a
          { ProcessData.zero with pid, notificationSemaphore := sys.createSemaphore.2 } := by
  unfold doRegisterProcess at h
  rcases hf : (s.processLists .free).head? with - | b
  · rw [hf] at h; cases h
  · rw [hf] at h
    dsimp only at h
    split at h
    · cases h
    · next hc =>
      cases h
      refine ⟨rfl, by simpa using hc, ?_⟩
      unfold State.setProcess State.moveProcess
      dsimp only
      congr 1
      funext c
      split <;> rfl

/-! ## What publishing does -/

/-- What publishing an id does to a process, and whether it counts as published. -/
inductive Publish (notificationId flags : UInt32) (p : ProcessData) : Bool → ProcessData → Prop
  | pending : flags &&& 1 ≠ 0 → notificationId ∈ p.pending → Publish notificationId flags p true p
  | pushed : p.nbPendingNotifications < 0x10 → (flags &&& 1 = 0 ∨ notificationId ∉ p.pending) →
      Publish notificationId flags p true (p.push notificationId)
  | full : 0x10 ≤ p.nbPendingNotifications → (flags &&& 1 = 0 ∨ notificationId ∉ p.pending) →
      Publish notificationId flags p (flags &&& 2 ≠ 0) p

@[simp] theorem State.setProcess_self (s : State) (a : Nat) : s.setProcess a (s.processDataPool a) = s := by
  unfold State.setProcess
  congr 1
  funext b
  split
  · next hb => rw [hb]
  · rfl

theorem doPublishNotification_ok {s s' : State} {a : Nat} {notificationId flags : UInt32} {b : Bool}
    (h : doPublishNotification s a notificationId flags = .ok (b, s')) :
    ∃ p kernel, Publish notificationId flags (s.processDataPool a) b p ∧
      (kernel = s.kernel ∨ s.kernel.releaseSemaphore (s.processDataPool a).notificationSemaphore 1 = some kernel) ∧
      s' = { s with kernel }.setProcess a p := by
  unfold doPublishNotification at h
  dsimp only at h
  split_ifs at h with hdup hroom
  · cases h
    exact ⟨_, _, .pending hdup.1 (by simpa using hdup.2.2), .inl rfl, (s.setProcess_self a).symm⟩
  all_goals
    have hnew : flags &&& 1 = 0 ∨ notificationId ∉ (s.processDataPool a).pending := by
      by_contra hn
      push Not at hn
      refine hdup ⟨hn.1, fun h0 => ?_, by simpa using hn.2⟩
      rw [ProcessData.pending, h0] at hn
      simp at hn
  · split at h
    · cases h
    · next kernel hk =>
      cases h
      exact ⟨_, kernel, .pushed hroom hnew, .inr hk, rfl⟩
  · cases h
    exact ⟨_, _, .full (Nat.not_lt.1 hroom) hnew, .inl rfl, (s.setProcess_self a).symm⟩

/-! ## What unregistering a process does -/

open scoped List

/-- The loop closes and removes exactly the entries of the process. -/
theorem unregisterServicesLoop_spec (pid : UInt32) : ∀ (fuel i : Nat) (s : State),
    s.servicesInfo.length ≤ i + fuel → (∀ e ∈ s.servicesInfo.take i, e.pid ≠ pid) →
    ∃ removed kept, unregisterServicesLoop pid fuel i s =
        { s with kernel := s.kernel.closeAll (removed.map (·.clientPort)), servicesInfo := kept } ∧
      removed ++ kept ~ s.servicesInfo ∧ (∀ e ∈ removed, e.pid = pid) ∧ ∀ e ∈ kept, e.pid ≠ pid
  | 0, i, s, hlen, htake => by
    refine ⟨[], s.servicesInfo, rfl, List.Perm.refl _, nofun, ?_⟩
    rwa [List.take_of_length_le (show s.servicesInfo.length ≤ i from hlen)] at htake
  | fuel + 1, i, s, hlen, htake => by
    unfold unregisterServicesLoop
    rcases hi : s.servicesInfo[i]? with - | info
    · refine ⟨[], s.servicesInfo, rfl, List.Perm.refl _, nofun, ?_⟩
      rwa [List.take_of_length_le (List.getElem?_eq_none_iff.1 hi)] at htake
    · dsimp only
      by_cases hp : info.pid = pid
      · -- the entry goes, and the place is looked at again
        rw [if_pos hp]
        obtain ⟨removed, kept, heq, hperm, hr, hk⟩ := unregisterServicesLoop_spec pid fuel i (removeService s i info)
          (by have := swapRemove_length hi; simp only [removeService]; omega)
          (by simp only [removeService]; rwa [swapRemove_take hi])
        refine ⟨info :: removed, kept, heq, ?_, ?_, hk⟩
        · exact (hperm.cons info).trans (swapRemove_perm_of_getElem hi)
        · rintro e (_ | ⟨_, he⟩)
          · exact hp
          · exact hr e he
      · rw [if_neg hp]
        refine unregisterServicesLoop_spec pid fuel (i + 1) s (by omega) fun e he => ?_
        rw [List.take_add_one, hi] at he
        rcases List.mem_append.1 he with he | he
        · exact htake e he
        · obtain rfl : e = info := by simpa using he
          exact hp

/-- Unregistering fails on a process that is not registered, and otherwise closes its semaphore,
removes exactly its services and frees its element. -/
theorem unregisterProcess_cases (s : State) (pid : UInt32) :
    (findProcessData s pid = none ∧ unregisterProcess s pid = (0xD8806404, s)) ∨
    ∃ a removed kept, findProcessData s pid = some a ∧ removed ++ kept ~ s.servicesInfo ∧
      (∀ e ∈ removed, e.pid = pid) ∧ (∀ e ∈ kept, e.pid ≠ pid) ∧
      unregisterProcess s pid = (0, { s with
        kernel := (s.kernel.closeHandle (s.processDataPool a).notificationSemaphore).closeAll
          (removed.map (·.clientPort))
        servicesInfo := kept
        processLists := s.processLists.move a .free false }) := by
  unfold unregisterProcess
  rcases findProcessData s pid with - | a
  · exact .inl ⟨rfl, rfl⟩
  · obtain ⟨removed, kept, heq, hperm, hr, hk⟩ := unregisterServicesLoop_spec pid s.servicesInfo.length 0
      { s with kernel := s.kernel.closeHandle (s.processDataPool a).notificationSemaphore } (by simp) (by simp)
    refine .inr ⟨a, removed, kept, rfl, hperm, hr, hk, ?_⟩
    dsimp only
    rw [heq]; rfl

end Omiiba.Sm
