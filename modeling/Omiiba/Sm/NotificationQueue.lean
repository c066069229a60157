/-
The notification queues of the registered processes: over every sequence of commands each pending
ring is the queue of the ids accepted and not yet received, and a publication reaches the
subscribers and nobody else.
-/
import Omiiba.Lib.System
import Omiiba.Sm.Processes

namespace Omiiba.Sm

/-! ## The queue of one process -/

/-- The ring of a process is a queue: what was accepted is what was received and what is pending. -/
structure QueueOk (p : ProcessData) : Prop where
  fifo : p.accepted = p.received ++ p.pending
  bound : p.nbPendingNotifications ≤ 16
  indices : (p.receivedNotificationIndex + p.nbPendingNotifications) % 16 = p.pendingNotificationIndex % 16
  receivedLt : p.receivedNotificationIndex < 16
  pendingLt : p.pendingNotificationIndex < 16
  distinct : p.subscribedNotifications.Nodup
  capacity : p.subscribedNotifications.length ≤ 0x11
  enabled : p.subscribedNotifications ≠ [] → p.notificationEnabled = true

namespace QueueOk

variable {p : ProcessData}

theorem count (h : QueueOk p) : p.nbPendingNotifications = p.accepted.length - p.received.length := by
  rw [h.fifo, List.length_append, ProcessData.pending, Ring.window_length]
  omega

theorem fresh (pid : UInt32) (notificationSemaphore : Handle) :
    QueueOk { ProcessData.zero with pid, notificationSemaphore } := by
  refine ⟨rfl, Nat.zero_le 16, rfl, ?_, ?_, List.nodup_nil, Nat.zero_le _, fun h => absurd rfl h⟩
  · exact (by decide : 0 < 16)
  · exact (by decide : 0 < 16)

theorem push_pending (h : QueueOk p) (hroom : p.nbPendingNotifications < 0x10) (notificationId : UInt32) :
    (p.push notificationId).pending = p.pending ++ [notificationId] := by
  have hplace : p.pendingNotificationIndex = (p.receivedNotificationIndex + p.nbPendingNotifications) % 16 := by
    rw [h.indices, Nat.mod_eq_of_lt h.pendingLt]
  unfold ProcessData.pending ProcessData.push
  rw [hplace]
  exact Ring.window_push notificationId hroom

theorem push (h : QueueOk p) (hroom : p.nbPendingNotifications < 0x10) (notificationId : UInt32) :
    QueueOk (p.push notificationId) := by
  refine ⟨?_, hroom, ?_, h.receivedLt, Nat.mod_lt _ (by decide), h.distinct, h.capacity, h.enabled⟩
  · rw [h.push_pending hroom]
    show p.accepted ++ [notificationId] = p.received ++ (p.pending ++ [notificationId])
    rw [h.fifo, List.append_assoc]
  · have := h.indices
    show (p.receivedNotificationIndex + (p.nbPendingNotifications + 1)) % 16 = (p.pendingNotificationIndex + 1) % 16 % 16
    omega

theorem pop_pending (h : QueueOk p) (hne : p.nbPendingNotifications ≠ 0) :
    p.pending = p.pop.1 :: p.pop.2.pending := by
  obtain ⟨n, hn⟩ := Nat.exists_eq_succ_of_ne_zero hne
  unfold ProcessData.pending ProcessData.pop
  dsimp only
  rw [hn, Nat.succ_eq_add_one, Ring.window_pop, Nat.mod_eq_of_lt h.receivedLt]
  rfl

theorem pop (h : QueueOk p) (hne : p.nbPendingNotifications ≠ 0) : QueueOk p.pop.2 := by
  refine ⟨?_, ?_, ?_, Nat.mod_lt _ (by decide), h.pendingLt, h.distinct, h.capacity, h.enabled⟩
  · show p.accepted = p.received ++ [p.pop.1] ++ p.pop.2.pending
    rw [h.fifo, h.pop_pending hne, List.append_assoc]; rfl
  · have := h.bound
    show p.nbPendingNotifications - 1 ≤ 16
    omega
  · have := h.indices
    show ((p.receivedNotificationIndex + 1) % 16 + (p.nbPendingNotifications - 1)) % 16 = p.pendingNotificationIndex % 16
    omega

theorem enable (h : QueueOk p) : QueueOk { p with notificationEnabled := true } :=
  ⟨h.fifo, h.bound, h.indices, h.receivedLt, h.pendingLt, h.distinct, h.capacity, fun _ => rfl⟩

theorem subscribe (h : QueueOk p) (he : p.notificationEnabled = true) {notificationId : UInt32}
    (hnew : notificationId ∉ p.subscribedNotifications) (hroom : p.subscribedNotifications.length < 0x11) :
    QueueOk { p with subscribedNotifications := p.subscribedNotifications ++ [notificationId] } := by
  refine ⟨h.fifo, h.bound, h.indices, h.receivedLt, h.pendingLt, ?_, ?_, fun _ => he⟩
  · exact ((List.perm_append_singleton _ _).nodup_iff).2 (List.nodup_cons.2 ⟨hnew, h.distinct⟩)
  · show (p.subscribedNotifications ++ [notificationId]).length ≤ 0x11
    rw [List.length_append]
    exact hroom

theorem unsubscribe (h : QueueOk p) (he : p.notificationEnabled = true) {i : Nat} {notificationId : UInt32}
    (hi : p.subscribedNotifications[i]? = some notificationId) :
    QueueOk { p with subscribedNotifications := swapRemove p.subscribedNotifications i } := by
  refine ⟨h.fifo, h.bound, h.indices, h.receivedLt, h.pendingLt, ?_, ?_, fun _ => he⟩
  · exact (List.nodup_cons.1 ((swapRemove_perm_of_getElem hi).nodup_iff.2 h.distinct)).2
  · have := swapRemove_length hi
    have := h.capacity
    show (swapRemove p.subscribedNotifications i).length ≤ 0x11
    omega

theorem publish (h : QueueOk p) {p' : ProcessData} {notificationId flags : UInt32} {b : Bool}
    (hp : Publish notificationId flags p b p') : QueueOk p' := by
  cases hp with
  | pending => exact h
  | pushed hroom => exact h.push hroom notificationId
  | full => exact h

end QueueOk

/-! ## Publishing to many -/

/-- What a loop over processes does to one of them: it is published to, or unchanged; after a loop
that succeeds all those wanted have been published to. -/
def LoopEffect (want : ProcessData → Bool) (notificationId flags : UInt32) (nodes : List Nat) (b : Bool)
    (s s' : State) (a : Nat) : Prop :=
  ((a ∈ nodes ∧ want (s.processDataPool a) = true) ∧
    Publish notificationId flags (s.processDataPool a) true (s'.processDataPool a)) ∨
  (s'.processDataPool a = s.processDataPool a ∧ (b = true → ¬ (a ∈ nodes ∧ want (s.processDataPool a) = true)))

theorem publishLoop_ok {want : ProcessData → Bool} {notificationId flags : UInt32} :
    ∀ {nodes : List Nat} {s s' : State} {b : Bool} {done : List Nat}, nodes.Nodup →
      publishLoop want notificationId flags nodes s = .ok (b, done, s') →
      s'.processLists = s.processLists ∧ ∀ a, LoopEffect want notificationId flags nodes b s s' a
  | [], s, s', b, done, _, h => by
    cases h
    exact ⟨rfl, fun a => .inr ⟨rfl, fun _ ha => by cases ha.1⟩⟩
  | node :: nodes, s, s', b, done, hnd, h => by
    obtain ⟨hnode, hnd⟩ := List.nodup_cons.1 hnd
    unfold publishLoop at h
    split at h
    · next hw =>
      rcases hdo : doPublishNotification s node notificationId flags with e | ⟨b1, s1⟩
      · rw [hdo] at h; cases h
      · rw [hdo] at h
        obtain ⟨p, kernel, hp, -, rfl⟩ := doPublishNotification_ok hdo
        have hself : ({ s with kernel }.setProcess node p).processDataPool node = p := if_pos rfl
        have hother : ∀ a, a ≠ node → ({ s with kernel }.setProcess node p).processDataPool a = s.processDataPool a :=
          fun a ha => if_neg ha
        cases b1 with
        | false =>
          -- no room: the loop stops, and this process is as it was
          cases h
          obtain rfl : p = s.processDataPool node := by
            generalize hb : false = b at hp
            cases hp with
            | full => rfl
            | _ => cases hb
          refine ⟨rfl, fun a => .inr ⟨?_, nofun⟩⟩
          by_cases ha : a = node
          · subst ha; exact hself
          · exact hother a ha
        | true =>
          obtain ⟨r, hrest, he⟩ := map_eq_ok.1 h
          cases he
          obtain ⟨hlists, heff⟩ := publishLoop_ok hnd hrest
          refine ⟨hlists, fun a => ?_⟩
          by_cases ha : a = node
          · subst ha
            have hkeep := ((heff a).resolve_left fun h => hnode h.1.1).1
            rw [hself] at hkeep
            exact .inl ⟨⟨List.mem_cons_self, hw⟩, by rw [hkeep]; exact hp⟩
          · have heffa := heff a
            unfold LoopEffect at heffa ⊢
            rw [hother a ha] at heffa
            simpa [ha] using heffa
    · next hw =>
      obtain ⟨hlists, heff⟩ := publishLoop_ok hnd h
      refine ⟨hlists, fun a => ?_⟩
      by_cases ha : a = node
      · subst ha
        have hkeep := (heff a).resolve_left fun h => hnode h.1.1
        exact .inr ⟨hkeep.1, fun _ h => hw h.2⟩
      · have heffa := heff a
        unfold LoopEffect at heffa ⊢
        simpa [ha] using heffa

/-! ## Runs -/

/-- The commands that read or write process data, and every other step of sm. -/
inductive NotifOp
  | registerProcess (g : Globals) (sys : Syscalls) (pid serviceAccessListSize : UInt32)
  | unregisterProcess (pid : UInt32)
  | enableNotification (g : Globals) (sys : Syscalls) (pid : UInt32)
  | subscribe (pid notificationId : UInt32)
  | unsubscribe (pid notificationId : UInt32)
  | receiveNotification (pid : UInt32)
  | publishToSubscriber (notificationId flags : UInt32)
  | publishAndGetSubscriber (notificationId flags : UInt32)
  | publishToProcess (sys : Syscalls) (process : Handle) (notificationId : UInt32)
  | publishToAll (notificationId : UInt32)
  | other (s1 : State)

/-- The state after a command; other steps leave the processes alone. -/
def notifStep (s : State) : NotifOp → Except Panic State
  | .registerProcess g sys pid size => (registerProcess g sys s pid size).map (·.2)
  | .unregisterProcess pid => .ok (unregisterProcess s pid).2
  | .enableNotification g sys pid => (enableNotification g sys s pid).map (·.2.2)
  | .subscribe pid notificationId => .ok (subscribe s pid notificationId).2
  | .unsubscribe pid notificationId => .ok (unsubscribe s pid notificationId).2
  | .receiveNotification pid => .ok (receiveNotification s pid).2.2
  | .publishToSubscriber notificationId flags => (publishToSubscriber s notificationId flags).map (·.2)
  | .publishAndGetSubscriber notificationId flags => (publishAndGetSubscriber s notificationId flags).map (·.2.2.2)
  | .publishToProcess sys process notificationId => (publishToProcess sys s process notificationId).map (·.2)
  | .publishToAll notificationId => (publishToAll s notificationId).map (·.2)
  | .other s1 => .ok { s1 with processDataPool := s.processDataPool, processLists := s.processLists }

/-- The processes from the state `buildList` leaves on. -/
def processes : System State NotifOp :=
  .ofStep (fun s => s.processLists = fun l => if l = .free then List.range 64 else []) notifStep

/-- The lists of processes share the pool out, and every registered process's queue is right. -/
structure ProcessesOk (s : State) : Prop where
  lists : s.processLists.WF
  queue : ∀ a ∈ s.processLists .inUse, QueueOk (s.processDataPool a)

namespace ProcessesOk

variable {s s' : State}

theorem init (h : processes.init s) : ProcessesOk s := by
  have hl : s.processLists = fun l => if l = .free then List.range 64 else [] := h
  refine ⟨⟨fun l => ?_, fun {a l l'} h1 h2 => ?_⟩, fun a ha => ?_⟩
  · rw [hl]
    dsimp only
    split
    · exact List.nodup_range
    · exact List.nodup_nil
  · rw [hl] at h1 h2
    cases l <;> cases l' <;> first | rfl | simp at h1 h2
  · rw [hl] at ha
    simp at ha

theorem congr (h : ProcessesOk s) (hp : s'.processDataPool = s.processDataPool)
    (hl : s'.processLists = s.processLists) : ProcessesOk s' :=
  ⟨hl ▸ h.lists, by rw [hl, hp]; exact h.queue⟩

theorem setProcess (h : ProcessesOk s) {a : Nat} {p : ProcessData} (hp : QueueOk p) : ProcessesOk (s.setProcess a p) := by
  refine ⟨h.lists, fun b hb => ?_⟩
  show QueueOk (if b = a then p else s.processDataPool b)
  split
  · exact hp
  · exact h.queue b hb

theorem doRegisterProcess (h : ProcessesOk s) {sys : Syscalls} {pid : UInt32} {a : Nat}
    (hr : doRegisterProcess sys s pid = .ok (a, s')) : ProcessesOk s' ∧ QueueOk (s'.processDataPool a) := by
  obtain ⟨-, -, rfl⟩ := doRegisterProcess_ok hr
  have hself : QueueOk { ProcessData.zero with pid, notificationSemaphore := sys.createSemaphore.2 } := .fresh ..
  refine ⟨⟨h.lists.move a .inUse false, fun b hb => ?_⟩, ?_⟩
  · show QueueOk (if b = a then _ else s.processDataPool b)
    split
    · exact hself
    · next hne => exact h.queue b ((Lanes.mem_move_of_ne hne).1 hb)
  · show QueueOk (if a = a then _ else s.processDataPool a)
    rw [if_pos rfl]
    exact hself

theorem publishLoop (h : ProcessesOk s) {want : ProcessData → Bool} {notificationId flags : UInt32} {b : Bool}
    {done : List Nat} (hp : publishLoop want notificationId flags (s.processLists .inUse) s = .ok (b, done, s')) :
    ProcessesOk s' := by
  obtain ⟨hl, heff⟩ := publishLoop_ok (h.lists.nodup _) hp
  refine ⟨hl ▸ h.lists, fun a ha => ?_⟩
  rw [hl] at ha
  rcases heff a with ⟨-, hp⟩ | ⟨hk, -⟩
  · exact (h.queue a ha).publish hp
  · rw [hk]; exact h.queue a ha

/-- Every command keeps the queues. -/
theorem step (h : ProcessesOk s) {op : NotifOp} (hs : notifStep s op = .ok s') : ProcessesOk s' := by
  cases op with
  | registerProcess g sys pid size =>
    obtain ⟨r, hr, rfl⟩ := map_eq_ok.1 hs
    unfold registerProcess at hr
    dsimp only at hr
    by_cases hf : findProcessData s pid ≠ none
    · rw [if_pos hf] at hr; cases hr; exact h
    rw [if_neg hf] at hr
    by_cases hsize : 8 * (if g.isPre93 then 32 else 34) < size - size % 8
    · rw [if_pos hsize] at hr; cases hr; exact h
    · rw [if_neg hsize] at hr
      obtain ⟨r', hr', rfl⟩ := map_eq_ok.1 hr
      exact (h.doRegisterProcess hr').1
  | unregisterProcess pid =>
    cases hs
    rcases unregisterProcess_cases s pid with ⟨-, heq⟩ | ⟨a, removed, kept, hf, -, -, -, heq⟩
    · rw [heq]; exact h
    · rw [heq]
      refine ⟨h.lists.move a .free false, fun b hb => h.queue b ?_⟩
      have hb : b ∈ s.processLists.move a .free false .inUse := hb
      rcases (Lanes.mem_move h.lists).1 hb with ⟨-, hl⟩ | ⟨-, hb⟩
      · cases hl
      · exact hb
  | enableNotification g sys pid =>
    obtain ⟨r, hr, rfl⟩ := map_eq_ok.1 hs
    unfold enableNotification at hr
    dsimp only at hr
    split at hr
    · next a hf =>
      cases hr
      exact h.setProcess (h.queue a (findProcessData_some hf).1).enable
    · split at hr
      · obtain ⟨r', hr', rfl⟩ := map_eq_ok.1 hr
        obtain ⟨h1, h2⟩ := h.doRegisterProcess hr'
        exact h1.setProcess h2.enable
      · cases hr; exact h
  | subscribe pid notificationId =>
    cases hs
    unfold Sm.subscribe
    split
    · exact h
    · next a hf =>
      obtain ⟨ha, he⟩ := findEnabled_some hf
      dsimp only
      split_ifs with hin hroom
      · exact h
      · exact h.setProcess ((h.queue a ha).subscribe he hin hroom)
      · exact h
  | unsubscribe pid notificationId =>
    cases hs
    unfold Sm.unsubscribe
    split
    · exact h
    · next a hf =>
      obtain ⟨ha, he⟩ := findEnabled_some hf
      dsimp only
      split
      · exact h
      · next i hi =>
        obtain ⟨hlt, -⟩ := List.findIdx?_eq_some_iff_getElem.1 hi
        exact h.setProcess ((h.queue a ha).unsubscribe he (List.getElem?_eq_getElem hlt))
  | receiveNotification pid =>
    cases hs
    unfold Sm.receiveNotification
    split
    · exact h
    · next a hf =>
      dsimp only
      by_cases hno : !(s.processDataPool a).notificationEnabled ∨ (s.processDataPool a).nbPendingNotifications = 0
      · rw [if_pos hno]; exact h
      · rw [if_neg hno]
        exact h.setProcess ((h.queue a (findProcessData_some hf).1).pop fun h0 => hno (.inr h0))
  | publishToSubscriber notificationId flags =>
    obtain ⟨r, hr, rfl⟩ := map_eq_ok.1 hs
    obtain ⟨r', hr', rfl⟩ := map_eq_ok.1 hr
    exact h.publishLoop hr'
  | publishAndGetSubscriber notificationId flags =>
    obtain ⟨r, hr, rfl⟩ := map_eq_ok.1 hs
    obtain ⟨r', hr', rfl⟩ := map_eq_ok.1 hr
    dsimp only
    split_ifs
    · exact h.publishLoop hr'
    · exact h.publishLoop hr'
  | publishToProcess sys process notificationId =>
    obtain ⟨r, hr, rfl⟩ := map_eq_ok.1 hs
    unfold publishToProcess at hr
    dsimp only at hr
    split_ifs at hr
    · cases hr; exact h
    · split at hr
      · cases hr; exact h.congr rfl rfl
      · next a hf =>
        obtain ⟨⟨b, s1⟩, hr', rfl⟩ := map_eq_ok.1 hr
        obtain ⟨p, kernel, hp, -, rfl⟩ := doPublishNotification_ok hr'
        have h0 : ProcessesOk { s with kernel } := h.congr rfl rfl
        have h1 := h0.setProcess (a := a) ((h.queue a (findEnabled_some hf).1).publish hp)
        exact h1.congr rfl rfl
  | publishToAll notificationId =>
    obtain ⟨r, hr, rfl⟩ := map_eq_ok.1 hs
    obtain ⟨r', hr', rfl⟩ := map_eq_ok.1 hr
    exact h.publishLoop hr'
  | other s1 => cases hs; exact h.congr rfl rfl

end ProcessesOk

theorem processes_ok {s : State} (h : processes.Reachable s) : ProcessesOk s :=
  h.invariant (fun _ hi => .init hi) fun _ _ _ _ h hs => h.step hs

/-! ## The queues over runs -/

/-- What a successful publication does to a subscriber. -/
structure PublishedTo (notificationId flags : UInt32) (p p' : ProcessData) : Prop where
  pending : notificationId ∈ p'.pending ∨ (flags &&& 2 ≠ 0 ∧ p.nbPendingNotifications = 16 ∧ p' = p)
  noDuplicate : flags &&& 1 ≠ 0 → notificationId ∈ p.pending → p' = p
  appended : p' = p ∨ (p'.pending = p.pending ++ [notificationId] ∧ p'.accepted = p.accepted ++ [notificationId])

theorem QueueOk.publishedTo {p p' : ProcessData} (h : QueueOk p) {notificationId flags : UInt32}
    (hp : Publish notificationId flags p true p') : PublishedTo notificationId flags p p' := by
  generalize hb : true = b at hp
  cases hp with
  | pending hf hin => exact ⟨.inl hin, fun _ _ => rfl, .inl rfl⟩
  | pushed hroom hnew =>
    have heq := h.push_pending hroom notificationId
    refine ⟨.inl (by rw [heq]; simp), fun hf hin => ?_, .inr ⟨heq, rfl⟩⟩
    exact (hnew.elim hf (· hin)).elim
  | full hfull hnew =>
    have hflag : flags &&& 2 ≠ 0 := by simpa using hb
    exact ⟨.inr ⟨hflag, le_antisymm h.bound hfull, rfl⟩, fun _ _ => rfl, .inl rfl⟩

theorem isSubscriber_iff {p : ProcessData} (h : QueueOk p) {notificationId : UInt32} :
    isSubscriber notificationId p = true ↔ notificationId ∈ p.subscribedNotifications := by
  unfold isSubscriber isNotificationInhibited
  simp only [Bool.not_false, Bool.and_true, Bool.and_eq_true, List.contains_iff_mem]
  exact ⟨fun h => h.2, fun hin => ⟨h.enabled (List.ne_nil_of_mem hin), hin⟩⟩

/-- In every reachable state each process's ring is the queue of what was accepted and not yet
received; receiving takes the oldest id; and publishing to subscribers reaches every subscriber
but, with flag 2, those without room, and changes no other process. -/
theorem notifications_fifo {s : State} (h : processes.Reachable s) :
    (∀ a ∈ s.processLists .inUse, QueueOk (s.processDataPool a) ∧
      (s.processDataPool a).nbPendingNotifications =
        (s.processDataPool a).accepted.length - (s.processDataPool a).received.length) ∧
    (∀ pid id s', receiveNotification s pid = (0, id, s') →
      ∃ a ∈ s.processLists .inUse, ∃ x, id = some x ∧ (s.processDataPool a).pid = pid ∧
        (s.processDataPool a).pending = x :: (s'.processDataPool a).pending ∧
        (s'.processDataPool a).received = (s.processDataPool a).received ++ [x]) ∧
    ∀ notificationId flags s', publishToSubscriber s notificationId flags = .ok (0, s') → ∀ a,
      if a ∈ s.processLists .inUse ∧ notificationId ∈ (s.processDataPool a).subscribedNotifications then
        PublishedTo notificationId flags (s.processDataPool a) (s'.processDataPool a)
      else s'.processDataPool a = s.processDataPool a := by
  have hok := processes_ok h
  refine ⟨fun a ha => ⟨hok.queue a ha, (hok.queue a ha).count⟩, fun pid id s' hr => ?_, fun id flags s' hp a => ?_⟩
  · unfold receiveNotification at hr
    split at hr
    · exact absurd (congrArg Prod.fst hr) (show (0xD8806404 : Result) ≠ 0 by decide)
    · next a hf =>
      obtain ⟨ha, hpid⟩ := findProcessData_some hf
      dsimp only at hr
      split at hr
      · exact absurd (congrArg Prod.fst hr) (show (0xD8806404 : Result) ≠ 0 by decide)
      · next hno =>
        cases hr
        have hpop := (hok.queue a ha).pop_pending fun h0 => hno (.inr h0)
        refine ⟨a, ha, _, rfl, hpid, ?_, ?_⟩
        · show _ = _ :: (if a = a then _ else s.processDataPool a).pending
          rw [if_pos rfl]; exact hpop
        · show (if a = a then _ else s.processDataPool a).received = _
          rw [if_pos rfl]; rfl
  · obtain ⟨⟨b, done, s1⟩, hr, he⟩ := map_eq_ok.1 hp
    obtain ⟨hres, rfl⟩ := Prod.mk.inj he
    have hb : b = true := by
      by_contra hb
      rw [if_neg hb] at hres
      exact absurd hres (by decide)
    have heff := (publishLoop_ok (hok.lists.nodup _) hr).2 a
    unfold LoopEffect at heff
    split
    · next hsub =>
      have hq := hok.queue a hsub.1
      rcases heff with ⟨-, hpub⟩ | ⟨-, hno⟩
      · exact hq.publishedTo hpub
      · exact absurd ⟨hsub.1, (isSubscriber_iff hq).2 hsub.2⟩ (hno hb)
    · next hsub =>
      rcases heff with ⟨⟨ha, hw⟩, -⟩ | ⟨hk, -⟩
      · exact absurd ⟨ha, (isSubscriber_iff (hok.queue a ha)).1 hw⟩ hsub
      · exact hk

/-- sm with no process registered yet. -/
def noProcesses : State := { State.zero with processLists := fun l => if l = .free then List.range 64 else [] }

/-- Process 5 subscribes to 2 and is sent `n` notifications 1. -/
def subscribeAndFill (n : Nat) : List NotifOp :=
  let sys : Syscalls := ⟨(0, 1, 2), fun _ => (0, 3), (0, 4), (0, 5), (0, 6), 0⟩
  let g : Globals := ⟨7, 8, 9, 5, false, false⟩
  [.registerProcess g sys 5 0, .enableNotification g sys 5, .subscribe 5 2] ++
    List.replicate n (.publishToProcess sys 10 1)

theorem noProcesses_reachable : processes.Reachable noProcesses := .init (show noProcesses.processLists = _ from rfl)

/-- One notification pending, a second published to its subscriber. -/
theorem notifications_fifo_two : ∃ s, processes.Reachable s ∧ (s.processDataPool 0).accepted = [1] ∧
    QueueOk (s.processDataPool 0) := by
  have hrun : ((subscribeAndFill 1).foldlM notifStep noProcesses).toOption.map
      (fun s => (s.processLists .inUse, (s.processDataPool 0).accepted)) = some ([0], [1]) := by decide
  rcases hs : (subscribeAndFill 1).foldlM notifStep noProcesses with e | s
  · rw [hs] at hrun; cases hrun
  · rw [hs] at hrun
    obtain ⟨hin, hacc⟩ : s.processLists .inUse = [0] ∧ (s.processDataPool 0).accepted = [1] := by
      simpa [Except.toOption] using hrun
    have hr : processes.Reachable s := System.Reachable.foldlM noProcesses_reachable hs
    exact ⟨s, hr, hacc, ((notifications_fifo hr).1 0 (by rw [hin]; simp)).1⟩

/-- With flag 2 a subscriber without room is passed over, and the publication succeeds. -/
theorem publish_full_dropped : ∃ s s', processes.Reachable s ∧ publishToSubscriber s 2 2 = .ok (0, s') ∧
    0 ∈ s.processLists .inUse ∧ 2 ∈ (s.processDataPool 0).subscribedNotifications ∧
    2 ∉ (s'.processDataPool 0).pending := by
  have hrun : ((subscribeAndFill 16).foldlM notifStep noProcesses).toOption.map
      (fun s => (s.processLists .inUse, (s.processDataPool 0).subscribedNotifications,
        (publishToSubscriber s 2 2).toOption.map fun r => (r.1, (r.2.processDataPool 0).pending))) =
      some ([0], [2], some (0, List.replicate 16 1)) := by decide +kernel
  rcases hs : (subscribeAndFill 16).foldlM notifStep noProcesses with e | s
  · rw [hs] at hrun; cases hrun
  · rw [hs] at hrun
    simp only [Except.toOption, Option.map_some, Option.some.injEq, Prod.mk.injEq] at hrun
    obtain ⟨hin, hsub, hpub⟩ := hrun
    rcases hp : publishToSubscriber s 2 2 with e | ⟨res, s'⟩
    · rw [hp] at hpub; cases hpub
    · rw [hp] at hpub
      simp only [Option.map_some, Option.some.injEq, Prod.mk.injEq] at hpub
      obtain ⟨rfl, hpend⟩ := hpub
      refine ⟨s, s', System.Reachable.foldlM noProcesses_reachable hs, hp, by rw [hin]; simp, by rw [hsub]; simp, ?_⟩
      rw [hpend]; decide

end Omiiba.Sm
