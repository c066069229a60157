/-
The notification semaphores of processes: each has a token for every notification accepted and not
waited for, so a publication fails to release one exactly when its process has dequeued too many
notifications it did not wait for.
-/
import Omiiba.Sm.NotificationCommands
import Omiiba.Sm.WakeUp

namespace Omiiba.Sm

/-! ## Who gets a notification -/

/-- "Only send if not already pending". -/
def suppressed (notificationId flags : UInt32) (p : ProcessData) : Bool :=
  flags &&& 1 ≠ 0 ∧ p.nbPendingNotifications ≠ 0 ∧ p.pending.contains notificationId

/-- The id gets a place in the ring. -/
def accepts (notificationId flags : UInt32) (p : ProcessData) : Bool :=
  !suppressed notificationId flags p && decide (p.nbPendingNotifications < 0x10)

/-- There is no room, and the publication fails for it. -/
def refuses (notificationId flags : UInt32) (p : ProcessData) : Bool :=
  !suppressed notificationId flags p && decide (0x10 ≤ p.nbPendingNotifications) && flags &&& 2 == 0

/-- Of processes published to in this order, those whose rings take the id. -/
def acceptors (pool : Nat → ProcessData) (notificationId flags : UInt32) (nodes : List Nat) : List Nat :=
  (nodes.takeWhile fun b => !refuses notificationId flags (pool b)).filter fun b => accepts notificationId flags (pool b)

/-- The processes that get a notification from a command. -/
def notified (s : State) : NotifOp → List Nat
  | .publishToSubscriber notificationId flags | .publishAndGetSubscriber notificationId flags =>
    acceptors s.processDataPool notificationId flags
      ((s.processLists .inUse).filter fun b => isSubscriber notificationId (s.processDataPool b))
  | .publishToProcess sys _ notificationId =>
    acceptors s.processDataPool notificationId 0
      (if rFailed sys.getProcessId.1 then [] else (findEnabled s sys.getProcessId.2).toList)
  | .publishToAll notificationId =>
    acceptors s.processDataPool notificationId 0
      ((s.processLists .inUse).filter fun b => (s.processDataPool b).notificationEnabled)
  | _ => []

section

variable {notificationId flags : UInt32}

theorem not_accepts_of_refuses {p : ProcessData} (h : refuses notificationId flags p = true) :
    accepts notificationId flags p = false := by
  unfold refuses at h
  unfold accepts
  simp only [Bool.and_eq_true, decide_eq_true_eq] at h
  simp only [Bool.and_eq_false_iff, decide_eq_false_iff_not]
  omega

theorem acceptors_cons (pool : Nat → ProcessData) (b : Nat) (nodes : List Nat) :
    acceptors pool notificationId flags (b :: nodes) =
      if refuses notificationId flags (pool b) then []
      else if accepts notificationId flags (pool b) then b :: acceptors pool notificationId flags nodes
      else acceptors pool notificationId flags nodes := by
  unfold acceptors
  rw [List.takeWhile_cons]
  by_cases hr : refuses notificationId flags (pool b) = true
  · simp [hr]
  · by_cases ha : accepts notificationId flags (pool b) = true
    · simp [hr, ha]
    · simp [hr, ha]

theorem acceptors_congr {pool pool' : Nat → ProcessData} {nodes : List Nat} (h : ∀ b ∈ nodes, pool' b = pool b) :
    acceptors pool' notificationId flags nodes = acceptors pool notificationId flags nodes := by
  induction nodes with
  | nil => rfl
  | cons b nodes ih =>
    rw [acceptors_cons, acceptors_cons, h b List.mem_cons_self, ih fun b' hb' => h b' (List.mem_cons_of_mem _ hb')]

theorem acceptors_subset (pool : Nat → ProcessData) (nodes : List Nat) :
    ∀ b ∈ acceptors pool notificationId flags nodes, b ∈ nodes :=
  fun _ hb => (List.takeWhile_subset _) (List.mem_filter.1 hb).1

/-- Only processes in use are notified. -/
theorem notified_inUse (s : State) (op : NotifOp) : ∀ b ∈ notified s op, b ∈ s.processLists .inUse := by
  intro b hb
  cases op with
  | publishToSubscriber => exact (List.mem_filter.1 (acceptors_subset _ _ b hb)).1
  | publishAndGetSubscriber => exact (List.mem_filter.1 (acceptors_subset _ _ b hb)).1
  | publishToProcess sys process id =>
    have hin := acceptors_subset _ _ b hb
    split at hin
    · cases hin
    · exact (findEnabled_some (Option.mem_toList.1 hin)).1
  | publishToAll => exact (List.mem_filter.1 (acceptors_subset _ _ b hb)).1
  | _ => cases hb

/-! ## One publication -/

theorem doPublishNotification_eq (s : State) (a : Nat) : doPublishNotification s a notificationId flags =
    if accepts notificationId flags (s.processDataPool a) then
      match s.kernel.releaseSemaphore (s.semaphoreOf a) 1 with
      | none => .error .semaphoreRelease
      | some kernel => .ok (true, { s with kernel }.setProcess a ((s.processDataPool a).push notificationId))
    else .ok (!refuses notificationId flags (s.processDataPool a), s) := by
  unfold doPublishNotification accepts refuses
  dsimp only
  by_cases hs : suppressed notificationId flags (s.processDataPool a) = true
  · rw [if_pos (of_decide_eq_true hs), hs]
    rfl
  · rw [if_neg fun h => hs (decide_eq_true h), Bool.eq_false_iff.2 hs]
    by_cases hroom : (s.processDataPool a).nbPendingNotifications < 0x10
    · simp only [hroom, Bool.not_false, Bool.true_and, decide_true, if_true]
      rfl
    · have hfull : 0x10 ≤ (s.processDataPool a).nbPendingNotifications := Nat.not_lt.1 hroom
      by_cases hf : flags &&& 2 = 0
      · simp [hroom, hfull, hf]
      · simp [hroom, hfull, hf]

end

theorem Kernel.count_semaphore {k : Kernel} {h : Handle} {c m : Nat} (hc : k h = some (.semaphore c m)) :
    k.count h = c := by
  unfold Kernel.count
  rw [hc]

/-- Releasing the semaphore of a process fails at the maximum only. -/
theorem release_process {k : Kernel} {h : Handle} {c : Nat} (hc : k h = some (.semaphore c 16)) :
    k.releaseSemaphore h 1 = if c < 16 then some (k.opened h (.semaphore (c + 1) 16)) else none := by
  unfold Kernel.releaseSemaphore
  rw [hc]
  rfl

/-- What a loop over processes did: those that accept the id have it and a token more. -/
structure Publications (ns : List Nat) (notificationId : UInt32) (s s' : State) : Prop where
  pool : ∀ b, s'.processDataPool b =
    if b ∈ ns then (s.processDataPool b).push notificationId else s.processDataPool b
  lists : s'.processLists = s.processLists
  tokens : ∀ b ∈ s.processLists .inUse, s'.kernel.count (s.semaphoreOf b) =
    s.kernel.count (s.semaphoreOf b) + if b ∈ ns then 1 else 0
  bound : ∀ b ∈ ns, s.kernel.count (s.semaphoreOf b) < 16

section

variable {g : Globals} {s s' : State} {notificationId flags : UInt32}

/-- A process whose semaphore had `c` tokens got an id and a token. -/
def State.credit (s : State) (b c : Nat) (notificationId : UInt32) : State :=
  { s with kernel := s.kernel.opened (s.semaphoreOf b) (.semaphore (c + 1) 16) }.setProcess b
    ((s.processDataPool b).push notificationId)

theorem credit_semaphoreOf (s : State) (b c : Nat) : (s.credit b c notificationId).semaphoreOf = s.semaphoreOf := by
  funext b'
  show (if b' = b then _ else _ : ProcessData).notificationSemaphore = _
  split
  · next h => rw [h]; rfl
  · rfl

theorem credit_other (s : State) {b b' : Nat} (c : Nat) (h : b' ≠ b) :
    (s.credit b c notificationId).processDataPool b' = s.processDataPool b' := if_neg h

theorem credit_owned (notificationId : UInt32) (ho : ProcessesOwned s.kernel s.semaphoreOf s.processLists) (b c : Nat) :
    ProcessesOwned (s.credit b c notificationId).kernel (s.credit b c notificationId).semaphoreOf s.processLists := by
  rw [credit_semaphoreOf]
  refine ⟨ho.wf, fun b' hb' => ?_, ho.distinct⟩
  show ∃ c', s.kernel.opened (s.semaphoreOf b) (.semaphore (c + 1) 16) (s.semaphoreOf b') = some (.semaphore c' 16)
  by_cases heq : s.semaphoreOf b' = s.semaphoreOf b
  · rw [heq, Kernel.opened_same]
    exact ⟨c + 1, rfl⟩
  · rw [Kernel.opened_ne _ _ heq]
    exact ho.isOpen b' hb'

/-- The id is in the ring of that process, the token on its semaphore, and no other has changed. -/
theorem credit_publications (notificationId : UInt32) (ho : ProcessesOwned s.kernel s.semaphoreOf s.processLists) {b c : Nat}
    (hb : b ∈ s.processLists .inUse) (hc : s.kernel (s.semaphoreOf b) = some (.semaphore c 16)) (hlt : c < 16) :
    Publications [b] notificationId s (s.credit b c notificationId) := by
  have hcount := Kernel.count_semaphore hc
  refine ⟨fun b' => ?_, rfl, fun b' hb' => ?_, fun b' hb' => ?_⟩
  · by_cases heq : b' = b
    · subst heq
      rw [if_pos (List.mem_singleton.2 rfl)]
      exact if_pos rfl
    · rw [if_neg (mt List.mem_singleton.1 heq)]
      exact credit_other s c heq
  · show (s.kernel.opened (s.semaphoreOf b) (.semaphore (c + 1) 16)).count (s.semaphoreOf b') = _
    by_cases heq : b' = b
    · subst heq
      rw [Kernel.count_semaphore (Kernel.opened_same ..), hcount, if_pos (List.mem_singleton.2 rfl)]
    · rw [if_neg (mt List.mem_singleton.1 heq)]
      unfold Kernel.count
      rw [Kernel.opened_ne _ _ fun h => heq (ho.distinct b' hb' b hb h)]
      rfl
  · rw [List.mem_singleton.1 hb', hcount]
    exact hlt

theorem Publications.nil (s : State) : Publications [] notificationId s s :=
  ⟨fun _ => rfl, rfl, fun _ _ => rfl, nofun⟩

theorem Publications.cons {s1 : State} {b : Nat} {ns : List Nat} (hb : b ∉ ns) (hsem : s1.semaphoreOf = s.semaphoreOf)
    (hpool : ∀ b', b' ≠ b → s1.processDataPool b' = s.processDataPool b') (hns : ∀ b' ∈ ns, b' ∈ s.processLists .inUse)
    (h1 : Publications [b] notificationId s s1) (h2 : Publications ns notificationId s1 s') :
    Publications (b :: ns) notificationId s s' := by
  refine ⟨fun b' => ?_, h2.lists.trans h1.lists, fun b' hb' => ?_, fun b' hb' => ?_⟩
  · rw [h2.pool]
    by_cases heq : b' = b
    · subst heq
      rw [if_neg hb, h1.pool, if_pos (List.mem_singleton.2 rfl), if_pos List.mem_cons_self]
    · simp [heq, hpool b' heq]
  · have ht1 := h1.tokens b' hb'
    have ht2 := h2.tokens b' (by rw [h1.lists]; exact hb')
    rw [hsem] at ht2
    rw [ht2, ht1]
    by_cases heq : b' = b
    · subst heq
      simp [hb]
    · simp [heq]
  · rcases List.mem_cons.1 hb' with rfl | hin
    · exact h1.bound b' (List.mem_singleton.2 rfl)
    · have hlt := h2.bound b' hin
      have ht1 := h1.tokens b' (hns b' hin)
      rw [hsem, ht1, if_neg (mt List.mem_singleton.1 (by rintro rfl; exact hb hin))] at hlt
      exact hlt

/-- The loop gives the id and a token to each process that accepts, or stops at one with 16 tokens. -/
theorem publishLoop_tokens (notificationId flags : UInt32) (want : ProcessData → Bool) : ∀ {nodes : List Nat} {s : State}, nodes.Nodup →
    (∀ b ∈ nodes, b ∈ s.processLists .inUse) → ProcessesOwned s.kernel s.semaphoreOf s.processLists →
    let ns := acceptors s.processDataPool notificationId flags (nodes.filter fun b => want (s.processDataPool b))
    (∃ r, publishLoop want notificationId flags nodes s = .ok r ∧ Publications ns notificationId s r.2.2) ∨
    (publishLoop want notificationId flags nodes s = .error .semaphoreRelease ∧
      ∃ b ∈ ns, 16 ≤ s.kernel.count (s.semaphoreOf b))
  | [], s, _, _, _ => .inl ⟨_, rfl, Publications.nil s⟩
  | node :: nodes, s, hnd, hin, ho => by
    intro ns
    obtain ⟨hnode, hnd⟩ := List.nodup_cons.1 hnd
    have hrest : ∀ b ∈ nodes, b ∈ s.processLists .inUse := fun b hb => hin b (List.mem_cons_of_mem _ hb)
    have hself := hin node List.mem_cons_self
    unfold publishLoop
    by_cases hw : want (s.processDataPool node) = true
    · have hns : ns = if refuses notificationId flags (s.processDataPool node) then []
          else if accepts notificationId flags (s.processDataPool node) then
            node :: acceptors s.processDataPool notificationId flags (nodes.filter fun b => want (s.processDataPool b))
          else acceptors s.processDataPool notificationId flags (nodes.filter fun b => want (s.processDataPool b)) := by
        rw [← acceptors_cons, ← List.filter_cons_of_pos (p := fun b => want (s.processDataPool b)) hw]
      rw [if_pos hw, doPublishNotification_eq]
      by_cases hr : refuses notificationId flags (s.processDataPool node) = true
      · -- the loop stops here, and nothing is accepted
        rw [if_pos hr] at hns
        rw [not_accepts_of_refuses hr, hr, hns]
        exact .inl ⟨_, rfl, Publications.nil s⟩
      rw [if_neg hr] at hns
      by_cases ha : accepts notificationId flags (s.processDataPool node) = true
      · obtain ⟨c, hc⟩ := ho.isOpen node hself
        rw [if_pos ha] at hns
        rw [if_pos ha, release_process hc]
        by_cases hlt : c < 16
        · rw [if_pos hlt]
          have hpool : ∀ b ∈ nodes, (s.credit node c notificationId).processDataPool b = s.processDataPool b :=
            fun b hb => credit_other s c (by rintro rfl; exact hnode hb)
          have hsub : ∀ b ∈ acceptors s.processDataPool notificationId flags
              (nodes.filter fun b => want (s.processDataPool b)), b ∈ nodes := fun b hb =>
            (List.mem_filter.1 (acceptors_subset _ _ b hb)).1
          have h1 := credit_publications notificationId ho hself hc hlt
          have hin1 : ∀ b ∈ nodes, b ∈ (s.credit node c notificationId).processLists .inUse := hrest
          have ih := publishLoop_tokens notificationId flags want hnd hin1 (credit_owned notificationId ho node c)
          rw [List.filter_congr fun b hb => by rw [hpool b hb],
            acceptors_congr fun b hb => hpool b (List.mem_filter.1 hb).1] at ih
          rw [hns]
          rcases ih with ⟨r, hr, hp⟩ | ⟨he, b, hb, hfull⟩
          · show (∃ r', (publishLoop want notificationId flags nodes (s.credit node c notificationId)).map _ = .ok r' ∧ _) ∨ _
            rw [hr]
            exact .inl ⟨_, rfl, .cons (fun h => hnode (hsub _ h)) (credit_semaphoreOf s node c) (fun b hb => credit_other s c hb)
              (fun b hb => hrest b (hsub b hb)) h1 hp⟩
          · right
            show (publishLoop want notificationId flags nodes (s.credit node c notificationId)).map _ = _ ∧ _
            rw [he]
            refine ⟨rfl, b, List.mem_cons_of_mem _ hb, ?_⟩
            have ht := h1.tokens b (hrest b (hsub b hb))
            rw [credit_semaphoreOf, ht, if_neg (mt List.mem_singleton.1 (by rintro rfl; exact hnode (hsub b hb)))] at hfull
            exact hfull
        · rw [if_neg hlt, hns]
          refine .inr ⟨rfl, node, List.mem_cons_self, ?_⟩
          unfold Kernel.count
          rw [hc]
          exact Nat.not_lt.1 hlt
      · -- the process is passed over
        rw [if_neg ha] at hns
        rw [if_neg ha, hns, Bool.eq_false_iff.2 hr]
        simp only [Bool.not_false]
        rcases publishLoop_tokens notificationId flags want hnd hrest ho with ⟨r, hr, hp⟩ | ⟨he, hfull⟩
        · rw [hr]
          exact .inl ⟨_, rfl, hp⟩
        · rw [he]
          exact .inr ⟨rfl, hfull⟩
    · have hns : ns = acceptors s.processDataPool notificationId flags (nodes.filter fun b => want (s.processDataPool b)) := by
        rw [← List.filter_cons_of_neg (p := fun b => want (s.processDataPool b)) hw]
      rw [if_neg hw, hns]
      exact publishLoop_tokens notificationId flags want hnd hrest ho

/-! ## One command -/

/-- A process after a step is one of before, which has a token more for each notification accepted,
or a new one. -/
inductive TokenTurn (s s' : State) (b : Nat) : Prop
  | kept (n : Nat) (inUse : b ∈ s.processLists .inUse) (semaphore : s'.semaphoreOf b = s.semaphoreOf b)
      (accepted : (s'.processDataPool b).accepted.length = (s.processDataPool b).accepted.length + n)
      (count : s'.kernel.count (s.semaphoreOf b) = s.kernel.count (s.semaphoreOf b) + n)
      (bound : n = 0 ∨ s'.kernel.count (s.semaphoreOf b) ≤ 16)
  | new (closed : s.kernel (s'.semaphoreOf b) = none) (accepted : (s'.processDataPool b).accepted = [])
      (count : s'.kernel.count (s'.semaphoreOf b) = 0)

/-- The tokens of every process in use after the step. -/
def TokenTurns (s s' : State) : Prop := ∀ b ∈ s'.processLists .inUse, TokenTurn s s' b

theorem TokenTurns.of_kept (hlists : ∀ b ∈ s'.processLists .inUse, b ∈ s.processLists .inUse)
    (hsem : s'.semaphoreOf = s.semaphoreOf)
    (hacc : ∀ b, (s'.processDataPool b).accepted = (s.processDataPool b).accepted)
    (hkernel : ∀ b ∈ s'.processLists .inUse, s'.kernel (s.semaphoreOf b) = s.kernel (s.semaphoreOf b)) :
    TokenTurns s s' := by
  intro b hb
  refine .kept 0 (hlists b hb) (by rw [hsem]) (by rw [hacc]; rfl) ?_ (.inl rfl)
  unfold Kernel.count
  rw [hkernel b hb]
  rfl

theorem ProcessesKept.turns (h : ProcessesKept s s') : TokenTurns s s' := by
  refine .of_kept (fun b hb => h.lists ▸ hb) ?_ (fun b => by rw [h.pool]) fun b hb => h.semaphores b (h.lists ▸ hb)
  unfold State.semaphoreOf
  rw [h.pool]

/-- What changes nothing about semaphores and accepted notifications can follow. -/
theorem TokenTurns.congr {s1 : State} (h : TokenTurns s s1) (hlists : s'.processLists = s1.processLists)
    (hsem : s'.semaphoreOf = s1.semaphoreOf)
    (hacc : ∀ b, (s'.processDataPool b).accepted = (s1.processDataPool b).accepted)
    (hkernel : ∀ b ∈ s1.processLists .inUse, s'.kernel (s1.semaphoreOf b) = s1.kernel (s1.semaphoreOf b)) :
    TokenTurns s s' := by
  intro b hb
  rw [hlists] at hb
  have hcount : s'.kernel.count (s1.semaphoreOf b) = s1.kernel.count (s1.semaphoreOf b) := by
    unfold Kernel.count
    rw [hkernel b hb]
  cases h b hb with
  | kept n inUse semaphore accepted count bound =>
    rw [semaphore] at hcount
    exact .kept n inUse (by rw [hsem, semaphore]) (by rw [hacc, accepted]) (by rw [hcount, count]) (by rw [hcount]; exact bound)
  | new closed accepted count =>
    exact .new (by rw [hsem]; exact closed) (by rw [hacc, accepted]) (by rw [hsem, hcount, count])

theorem TokenTurns.refl (s : State) : TokenTurns s s := ProcessesKept.turns (.of_eq rfl rfl rfl)

/-- So can data of one process changed, but neither its semaphore nor what it accepted. -/
theorem TokenTurns.setProcess {s1 : State} (h : TokenTurns s s1) {b : Nat} {p : ProcessData}
    (hsem : p.notificationSemaphore = (s1.processDataPool b).notificationSemaphore)
    (hacc : p.accepted = (s1.processDataPool b).accepted) : TokenTurns s (s1.setProcess b p) := by
  refine h.congr rfl (funext fun b' => ?_) (fun b' => ?_) fun _ _ => rfl
  · show (if b' = b then p else s1.processDataPool b').notificationSemaphore = _
    split
    · next h => rw [h, hsem]; rfl
    · rfl
  · show (if b' = b then p else s1.processDataPool b').accepted = _
    split
    · next h => rw [h, hacc]
    · rfl

theorem Publications.turns {ns : List Nat} (h : Publications ns notificationId s s') : TokenTurns s s' := by
  intro b hb
  rw [h.lists] at hb
  have hsem : s'.semaphoreOf b = s.semaphoreOf b := by
    unfold State.semaphoreOf
    rw [h.pool]
    split <;> rfl
  by_cases hn : b ∈ ns
  · have ht := h.tokens b hb
    rw [if_pos hn] at ht
    refine .kept 1 hb hsem ?_ ht (.inr ?_)
    · rw [h.pool, if_pos hn]
      exact List.length_append
    · have := h.bound b hn
      omega
  · have ht := h.tokens b hb
    rw [if_neg hn] at ht
    exact .kept 0 hb hsem (by rw [h.pool, if_neg hn]; rfl) ht (.inl rfl)

/-- A process registered has a semaphore of its own, without tokens. -/
theorem doRegisterProcess_turns {sys : Syscalls} (hk : SyscallsOk s.kernel sys)
    (ho : ProcessesOwned s.kernel s.semaphoreOf s.processLists) {pid : UInt32} {a : Nat}
    (h : doRegisterProcess sys s pid = .ok (a, s')) : TokenTurns s s' := by
  obtain ⟨hfree, hc, heq⟩ := doRegisterProcess_ok h
  have hf := hk.createSemaphore hc
  have hlists : s'.processLists = s.processLists.move a .inUse false := by rw [heq]; rfl
  have hkernel : s'.kernel = s.kernel.opened sys.createSemaphore.2 (.semaphore 0 0x10) := by rw [heq]; rfl
  have hself : s'.processDataPool a = { ProcessData.zero with pid, notificationSemaphore := sys.createSemaphore.2 } := by
    rw [heq]; exact if_pos rfl
  have hother : ∀ b, b ≠ a → s'.processDataPool b = s.processDataPool b := fun b hb => by rw [heq]; exact if_neg hb
  intro b hb
  rw [hlists] at hb
  rcases (Lanes.mem_move ho.wf).1 hb with ⟨rfl, -⟩ | ⟨hne, hin⟩
  · have hsem : s'.semaphoreOf b = sys.createSemaphore.2 := by unfold State.semaphoreOf; rw [hself]
    refine .new ?_ (by rw [hself]; rfl) ?_
    · rw [hsem]; exact hf.2
    · rw [hsem, hkernel]
      exact Kernel.count_semaphore (Kernel.opened_same ..)
  · refine .kept 0 hin (by unfold State.semaphoreOf; rw [hother b hne]) (by rw [hother b hne]; rfl) ?_ (.inl rfl)
    obtain ⟨c, hcount⟩ := ho.isOpen b hin
    rw [hkernel]
    unfold Kernel.count
    rw [Kernel.opened_ne _ _ (by rintro heq; rw [heq, hf.2] at hcount; cases hcount)]
    rfl

/-- What the kernel and the message promise for a command. -/
def NotifOp.Ok (s : State) : NotifOp → Prop
  | .registerProcess _ sys _ _ | .enableNotification _ sys _ => SyscallsOk s.kernel sys
  | .publishToProcess _ process _ => Unowned s process
  | .other _ => False
  | _ => True

theorem srvNotifOp_ok {sys : Syscalls} {a : Nat} {op : NotifOp} (hk : SyscallsOk s.kernel sys)
    (h : srvNotifOp g sys s a = some op) : op.Ok s := by
  unfold srvNotifOp at h
  dsimp only at h
  split at h <;> cases h <;> first | exact hk | exact trivial

theorem notifOp_ok {sys : Syscalls} {a : Nat} {op : NotifOp} (hk : SyscallsOk s.kernel sys) (hc : CommandOk s)
    (h : notifOp g sys s a = some op) : op.Ok s := by
  unfold notifOp at h
  dsimp only at h
  split at h
  · exact srvNotifOp_ok hk h
  split at h
  · cases h
  split at h
  · split at h
    · next hhead => cases h; exact hc.process hhead
    · cases h
  · cases h; exact trivial
  · split at h
    · cases h; exact hk
    · cases h
  · cases h; exact trivial
  · cases h

theorem Publications.semaphoreOf {ns : List Nat} (h : Publications ns notificationId s s') :
    s'.semaphoreOf = s.semaphoreOf := by
  funext b
  unfold State.semaphoreOf
  rw [h.pool]
  split <;> rfl

theorem doPublishNotification_tokens (notificationId flags : UInt32) (ho : ProcessesOwned s.kernel s.semaphoreOf s.processLists) {b : Nat}
    (hb : b ∈ s.processLists .inUse) :
    (∃ r, doPublishNotification s b notificationId flags = .ok r ∧
      Publications (acceptors s.processDataPool notificationId flags [b]) notificationId s r.2) ∨
    (doPublishNotification s b notificationId flags = .error .semaphoreRelease ∧
      ∃ b' ∈ acceptors s.processDataPool notificationId flags [b], 16 ≤ s.kernel.count (s.semaphoreOf b')) := by
  rw [doPublishNotification_eq, acceptors_cons]
  by_cases hr : refuses notificationId flags (s.processDataPool b) = true
  · rw [if_pos hr, not_accepts_of_refuses hr]
    exact .inl ⟨_, rfl, Publications.nil s⟩
  rw [if_neg hr]
  by_cases ha : accepts notificationId flags (s.processDataPool b) = true
  · obtain ⟨c, hc⟩ := ho.isOpen b hb
    rw [if_pos ha, if_pos ha, release_process hc]
    by_cases hlt : c < 16
    · rw [if_pos hlt]
      exact .inl ⟨_, rfl, credit_publications notificationId ho hb hc hlt⟩
    · rw [if_neg hlt]
      refine .inr ⟨rfl, b, List.mem_cons_self, ?_⟩
      rw [Kernel.count_semaphore hc]
      exact Nat.not_lt.1 hlt
  · rw [if_neg ha, if_neg ha]
    exact .inl ⟨_, rfl, Publications.nil s⟩

/-- A step keeps the tokens, or stops at one of the processes notified that has 16 of them. -/
structure TokenOutcome (s : State) (ns : List Nat) (x : Except Panic State) : Prop where
  turns : ∀ s', x = .ok s' → TokenTurns s s'
  full_iff : x = .error .semaphoreRelease ↔ ∃ b ∈ ns, 16 ≤ s.kernel.count (s.semaphoreOf b)

namespace TokenOutcome

variable {ns : List Nat} {x : Except Panic State}

theorem ok (h : TokenTurns s s') (hns : ∀ b ∈ ns, s.kernel.count (s.semaphoreOf b) < 16) : TokenOutcome s ns (.ok s') := by
  refine ⟨fun s1 h1 => ?_, nofun, fun ⟨b, hb, hfull⟩ => absurd (hns b hb) (Nat.not_lt.2 hfull)⟩
  cases h1
  exact h

theorem full (h : ∃ b ∈ ns, 16 ≤ s.kernel.count (s.semaphoreOf b)) : TokenOutcome s ns (.error .semaphoreRelease) :=
  ⟨nofun, fun _ => h, fun _ => rfl⟩

/-- A command that publishes nothing. -/
theorem silent (h : ∀ s', x = .ok s' → TokenTurns s s') (hne : x ≠ .error .semaphoreRelease) : TokenOutcome s [] x :=
  ⟨h, fun he => absurd he hne, fun ⟨_, hb, _⟩ => nomatch hb⟩

end TokenOutcome

/-- `PublishToProcess` publishes to at most one process, and closes no semaphore. -/
theorem publishToProcess_tokens (ho : Owned g s) {sys : Syscalls} {process : Handle} (hp : Unowned s process)
    (notificationId : UInt32) : TokenOutcome s (notified s (.publishToProcess sys process notificationId))
      (notifStep s (.publishToProcess sys process notificationId)) := by
  have hclose : ∀ {s1 : State}, TokenTurns s s1 → s1.semaphoreOf = s.semaphoreOf → s1.processLists = s.processLists →
      TokenTurns s { s1 with kernel := s1.kernel.closeHandle process } := by
    intro s1 ht hsem hlists
    refine ht.congr rfl rfl (fun _ => rfl) fun b hb => Kernel.closeHandle_ne _ ?_
    rw [hlists] at hb
    rw [hsem]
    obtain ⟨c, hc⟩ := ho.processes.isOpen b hb
    rintro rfl
    rcases hp with hz | ⟨hr, -⟩
    · rw [hz, ho.base.zero] at hc; cases hc
    · rw [hr] at hc; cases hc
  unfold notifStep publishToProcess notified
  dsimp only
  split
  · exact .ok (.refl s) nofun
  cases hf : findEnabled s sys.getProcessId.2 with
  | none => exact .ok (hclose (.refl s) rfl rfl) nofun
  | some b =>
    dsimp only
    rcases doPublishNotification_tokens notificationId 0 ho.processes (findEnabled_some hf).1
      with ⟨r, hr, hpub⟩ | ⟨he, hfull⟩
    · rw [hr]
      exact .ok (hclose hpub.turns hpub.semaphoreOf hpub.lists) hpub.bound
    · rw [he]
      exact .full hfull

/-- A loop over the processes in use, whatever is answered after it. -/
theorem publishLoop_outcome (ho : Owned g s) (want : ProcessData → Bool) (notificationId flags : UInt32)
    {f : Bool × List Nat × State → State} (hf : ∀ r, f r = r.2.2) :
    TokenOutcome s (acceptors s.processDataPool notificationId flags
        ((s.processLists .inUse).filter fun b => want (s.processDataPool b)))
      ((publishLoop want notificationId flags (s.processLists .inUse) s).map f) := by
  rcases publishLoop_tokens notificationId flags want (ho.processes.wf.nodup _)
    (fun _ hb => hb) ho.processes with ⟨r, hr, hpub⟩ | ⟨he, hfull⟩
  · rw [hr]
    show TokenOutcome s _ (.ok (f r))
    rw [hf]
    exact .ok hpub.turns hpub.bound
  · rw [he]
    exact .full hfull

theorem unregisterProcess_turns (ho : Owned g s) (pid : UInt32) : TokenTurns s (unregisterProcess s pid).2 := by
  rcases unregisterProcess_cases s pid with ⟨-, heq⟩ | ⟨a, removed, kept, hf, hperm, -, -, heq⟩
  · rw [heq]; exact .refl s
  · rw [heq]
    have ha := (findProcessData_some hf).1
    have hin : ∀ b ∈ s.processLists.move a .free false .inUse, b ≠ a ∧ b ∈ s.processLists .inUse := fun b hb => by
      rcases (Lanes.mem_move ho.processes.wf).1 hb with ⟨-, hl⟩ | hb
      · cases hl
      · exact hb
    refine .of_kept (fun b hb => (hin b hb).2) rfl (fun _ => rfl) fun b hb => ?_
    obtain ⟨hne, hb⟩ := hin b hb
    obtain ⟨c, hc⟩ := ho.processes.isOpen b hb
    show ((s.kernel.closeHandle (s.semaphoreOf a)).closeAll (removed.map (·.clientPort))) (s.semaphoreOf b) = _
    rw [Kernel.closeAll_apply, if_neg, Kernel.closeHandle_ne _ fun heq => hne (ho.processes.distinct b hb a ha heq)]
    -- no port of the table is a semaphore
    intro hp
    obtain ⟨e, he, hport⟩ := List.mem_map.1 hp
    refine ho.services.ne_port hc nofun nofun e (hperm.subset (List.mem_append_left _ he)) (fun h0 => ?_) hport
    rw [← hport, h0, ho.base.zero] at hc
    cases hc

/-- Every command on processes keeps the tokens, or stops at a process that has 16 of them. -/
theorem notifStep_tokens (ho : Owned g s) {op : NotifOp} (hok : op.Ok s) :
    TokenOutcome s (notified s op) (notifStep s op) := by
  cases op with
  | registerProcess g' sys pid size =>
    refine .silent (fun s' h => ?_) fun he => ?_
    · obtain ⟨r, hr, rfl⟩ := map_eq_ok.1 h
      unfold registerProcess at hr
      dsimp only at hr
      by_cases hf : findProcessData s pid ≠ none
      · rw [if_pos hf] at hr; cases hr; exact .refl s
      rw [if_neg hf] at hr
      by_cases hsize : 8 * (if g'.isPre93 then 32 else 34) < size - size % 8
      · rw [if_pos hsize] at hr; cases hr; exact .refl s
      · rw [if_neg hsize] at hr
        obtain ⟨r', hr', rfl⟩ := map_eq_ok.1 hr
        exact doRegisterProcess_turns hok ho.processes hr'
    · rcases registerProcess_error (map_eq_error.1 he) with h | ⟨res, h⟩ <;> cases h
  | unregisterProcess pid =>
    refine .silent (fun s' h => ?_) nofun
    cases h
    exact unregisterProcess_turns ho pid
  | enableNotification g' sys pid =>
    refine .silent (fun s' h => ?_) fun he => ?_
    · obtain ⟨r, hr, rfl⟩ := map_eq_ok.1 h
      unfold enableNotification at hr
      dsimp only at hr
      split at hr
      · cases hr
        exact (TokenTurns.refl s).setProcess rfl rfl
      · split at hr
        · obtain ⟨r', hr', rfl⟩ := map_eq_ok.1 hr
          exact (doRegisterProcess_turns hok ho.processes hr').setProcess rfl rfl
        · cases hr; exact .refl s
    · rcases enableNotification_error (map_eq_error.1 he) with h | ⟨res, h⟩ <;> cases h
  | subscribe pid notificationId =>
    refine .silent (fun s' h => ?_) nofun
    cases h
    unfold subscribe
    split
    · exact .refl s
    · dsimp only
      split_ifs
      · exact .refl s
      · exact (TokenTurns.refl s).setProcess rfl rfl
      · exact .refl s
  | unsubscribe pid notificationId =>
    refine .silent (fun s' h => ?_) nofun
    cases h
    unfold unsubscribe
    split
    · exact .refl s
    · dsimp only
      split
      · exact .refl s
      · exact (TokenTurns.refl s).setProcess rfl rfl
  | receiveNotification pid =>
    refine .silent (fun s' h => ?_) nofun
    cases h
    unfold receiveNotification
    split
    · exact .refl s
    · next a _ =>
      dsimp only
      by_cases hno : !(s.processDataPool a).notificationEnabled ∨ (s.processDataPool a).nbPendingNotifications = 0
      · rw [if_pos hno]; exact .refl s
      · rw [if_neg hno]
        exact (TokenTurns.refl s).setProcess rfl rfl
  | publishToSubscriber notificationId flags =>
    have hx : notifStep s (.publishToSubscriber notificationId flags) =
        (publishLoop (isSubscriber notificationId) notificationId flags (s.processLists .inUse) s).map fun r => r.2.2 := by
      dsimp only [notifStep, publishToSubscriber]
      rcases publishLoop _ _ _ _ _ with e | r <;> rfl
    rw [hx]
    exact publishLoop_outcome ho _ _ _ fun _ => rfl
  | publishAndGetSubscriber notificationId flags =>
    have hx : notifStep s (.publishAndGetSubscriber notificationId flags) =
        (publishLoop (isSubscriber notificationId) notificationId flags (s.processLists .inUse) s).map fun r => r.2.2 := by
      dsimp only [notifStep, publishAndGetSubscriber]
      rcases publishLoop _ _ _ _ _ with e | ⟨b, done, s1⟩
      · rfl
      · cases b <;> rfl
    rw [hx]
    exact publishLoop_outcome ho _ _ _ fun _ => rfl
  | publishToProcess sys process notificationId => exact publishToProcess_tokens ho hok notificationId
  | publishToAll notificationId =>
    have hx : notifStep s (.publishToAll notificationId) =
        (publishLoop (·.notificationEnabled) notificationId 0 (s.processLists .inUse) s).map fun r => r.2.2 := by
      dsimp only [notifStep, publishToAll]
      rcases publishLoop _ _ _ _ _ with e | r <;> rfl
    rw [hx]
    exact publishLoop_outcome ho _ _ _ fun _ => rfl
  | other s1 => exact hok.elim

end

/-! ## The loop next to its clients -/

/-- The waits of an iteration that succeed: no more than there are tokens. -/
def waitsOn (s : State) (i : Input) (h : Handle) : Nat := min (i.acquired.count h) (s.kernel.count h)

/-- How often each open handle has been waited on with success. -/
def waitedAfter (s : State) (waited : Handle → Nat) (i : Input) (s' : State) : Handle → Nat := fun h =>
  if s.kernel h = none ∨ s'.kernel h = none then 0 else waited h + waitsOn s i h

/-- sm, and how often clients have waited on their semaphores. -/
def clients (g : Globals) : System (State × (Handle → Nat)) Input where
  init p := Initial g p.1 ∧ p.2 = fun _ => 0
  step p i p' := (sm g).step p.1 i p'.1 ∧ p'.2 = waitedAfter p.1 p.2 i p'.1

/-- A command that notifies a process finds its pending notifications, and those it has dequeued and
not waited for, below 16 together. -/
def Paced (g : Globals) (s : State) (waited : Handle → Nat) (i : Input) : Prop :=
  ∀ a ready op, selection g s i = some (a, ready) → notifOp g i.sys ready a = some op → ∀ b ∈ notified ready op,
    (s.processDataPool b).nbPendingNotifications + (s.processDataPool b).received.length <
      16 + (waited (s.semaphoreOf b) + waitsOn s i (s.semaphoreOf b))

/-- No command on processes stops because `svcReleaseSemaphore` fails. -/
def Released (g : Globals) (s : State) (i : Input) : Prop :=
  ∀ a ready op, selection g s i = some (a, ready) → notifOp g i.sys ready a = some op →
    handleCommands g i.sys ready a ≠ .error .semaphoreRelease

section

variable {g : Globals} {s s' ready : State} {i : Input} {a : Nat} {waited : Handle → Nat}

theorem foldl_acquire_semaphore (hs : List Handle) {k : Kernel} {h : Handle} {c m : Nat}
    (hk : k h = some (.semaphore c m)) : hs.foldl Kernel.acquire k h = some (.semaphore (c - hs.count h) m) := by
  induction hs generalizing k c with
  | nil => exact hk
  | cons x hs ih =>
    by_cases hx : x = h
    · subst hx
      rw [List.foldl_cons, ih (Kernel.acquire_semaphore hk), List.count_cons_self]
      congr 2
      omega
    · rw [List.foldl_cons, ih ((Kernel.acquire_ne k (Ne.symm hx)).trans hk), List.count_cons_of_ne hx]

/-- What clients waited for is gone when the iteration handles its command. -/
theorem received_process (ho : Owned g s) (hk : KernelOk g s i) {b c : Nat}
    (hc : s.kernel (s.semaphoreOf b) = some (.semaphore c 16)) :
    (received g s i).kernel (s.semaphoreOf b) = some (.semaphore (c - i.acquired.count (s.semaphoreOf b)) 16) := by
  have hfold := foldl_acquire_semaphore i.acquired hc
  have hne := ho.base.ne_semaphore hc fun _ => by simp
  have hacq : acquiredKernel g s i (s.semaphoreOf b) =
      some (.semaphore (c - i.acquired.count (s.semaphoreOf b)) 16) := by
    unfold acquiredKernel
    split
    · rw [Kernel.acquire_ne _ hne.symm, hfold]
    · exact hfold
  rcases received_kernel hk with heq | ⟨message, x, -, -, h0, hn, heq⟩
  · rw [heq, hacq]
  · rw [heq, Kernel.opened_ne _ _ (by rintro hx; rw [hx, hn] at hc; cases hc), hacq]

theorem Selected.processes (h : Selected g s i a ready) :
    ready.processDataPool = s.processDataPool ∧ ready.processLists = s.processLists := by
  cases h with
  | woken => exact ⟨rfl, rfl⟩
  | port => exact ⟨rfl, rfl⟩
  | command => exact ⟨rfl, rfl⟩

/-- The tokens and the queues after an iteration, from what `svcReplyAndReceive` left. -/
structure Turned (s s' : State) : Prop where
  turns : TokenTurns s s'
  queues : ProcessesOk s → ProcessesOk s'

theorem ProcessesKept.turned (h : ProcessesKept s s') : Turned s s' :=
  ⟨h.turns, fun hp => hp.congr h.pool h.lists⟩

/-- Only kernel, pool and lists of the state before matter. -/
theorem Turned.of_same {s1 : State} (h : Turned s1 s') (hkernel : s1.kernel = s.kernel)
    (hpool : s1.processDataPool = s.processDataPool) (hlists : s1.processLists = s.processLists) : Turned s s' := by
  have hsem : s1.semaphoreOf = s.semaphoreOf := by unfold State.semaphoreOf; rw [hpool]
  refine ⟨fun b hb => ?_, fun hp => h.queues (hp.congr hpool hlists)⟩
  cases h.turns b hb with
  | kept n inUse semaphore accepted count bound =>
    rw [hlists] at inUse
    rw [hsem] at semaphore
    rw [hpool] at accepted
    rw [hsem, hkernel] at count
    rw [hsem] at bound
    exact .kept n inUse semaphore accepted count bound
  | new closed accepted count => exact .new (hkernel ▸ closed) accepted count

theorem handleCommands_turned (hr : Ready g s a) (hk : SyscallsOk s.kernel i.sys) {res : Result}
    (h : handleCommands g i.sys s a = .ok (res, s')) : Turned s s' := by
  cases hop : notifOp g i.sys s a with
  | none => exact (handleCommands_other hr.owned hk hop h).turned
  | some op =>
    obtain ⟨s1, ws, hs1, rfl⟩ := (handleCommands_notif hop).of_ok h
    have ht := (notifStep_tokens hr.owned (notifOp_ok hk hr.command hop)).turns s1 hs1
    exact ⟨ht.congr rfl rfl (fun _ => rfl) fun _ _ => rfl, fun hp => (hp.step hs1).congr rfl rfl⟩

/-- Every iteration turns the processes by one command. -/
theorem iteration_turned (hinv : LoopInv g s) (hk : KernelOk g s i) (hi : iterate g s i = .ok s') :
    Turned (received g s i) s' := by
  have hf := iterate_notFailed hi
  have hu := received_inUseOpen (hinv.inUseOpen hk hf) hk
  have ho := received_owned hinv.owned hk
  have hsession : ∀ {h : Handle} {o : KObject}, (received g s i).kernel h = some o → (∀ c m, o ≠ .semaphore c m) →
      ∀ b ∈ s.processLists .inUse, s.semaphoreOf b ≠ h := by
    rintro h o hh hne b hb rfl
    obtain ⟨c, hc⟩ := ho.processes.isOpen b hb
    exact hne c 16 (Option.some.inj (hh.symm.trans hc))
  cases iteration hi with
  | sessionClosed n a s' at_n range takes inUse handle closed =>
    obtain ⟨b, -, -, -, rfl⟩ := sessionClosed_ok closed
    exact ProcessesKept.turned ⟨rfl, rfl, fun p hp => Kernel.closeHandle_ne _ (hsession (hu a inUse) nofun p hp)⟩
  | portClosed n at_n range takes =>
    rw [show s.sessionLists = (received g s i).sessionLists from rfl,
      portClosedLoop_eq _ (ho.sessions.wf.nodup _)]
    exact ProcessesKept.turned ⟨rfl, rfl, fun _ _ => rfl⟩
  | newSession isSrvPm s' open_ none takes new =>
    obtain ⟨b, -, hacc, rfl⟩ := newSession_ok new
    have hfresh := hk.syscalls.acceptSession hacc
    refine ProcessesKept.turned ⟨rfl, rfl, fun p hp => Kernel.opened_ne _ _ ?_⟩
    obtain ⟨c, hc⟩ := ho.processes.isOpen p hp
    intro heq
    exact absurd (hc.symm.trans ((congrArg _ heq).trans hfresh.2)) nofun
  | ignored open_ none takes => exact (ProcessesKept.of_eq rfl rfl rfl).turned
  | served a ready s' open_ some hs =>
    have hsel := selected some
    obtain ⟨hpool, hlists⟩ := hsel.processes
    have hsys : SyscallsOk ready.kernel i.sys := hsel.kernel ▸ hk.syscalls
    have hready := hsel.ready hinv hk hf
    suffices h : Turned ready s' from h.of_same hsel.kernel hpool hlists
    cases served hsys hs with
    | replied res s1 handled done =>
      have ht := handleCommands_turned hready hsys handled
      exact ⟨ht.turns.congr rfl rfl (fun _ => rfl) fun _ _ => rfl, fun hp => (ht.queues hp).congr rfl rfl⟩
    | parked res busy s1 handled postponed dst dst_eq =>
      have ht := handleCommands_turned hready hsys handled
      exact ⟨ht.turns.congr rfl rfl (fun _ => rfl) fun _ _ => rfl, fun hp => (ht.queues hp).congr rfl rfl⟩

/-- The invariant: a notification accepted has been waited for, or its token is still there. -/
structure TokensInv (s : State) (waited : Handle → Nat) : Prop where
  processes : ProcessesOk s
  tokens : ∀ b ∈ s.processLists .inUse,
    s.kernel.count (s.semaphoreOf b) + waited (s.semaphoreOf b) = (s.processDataPool b).accepted.length
  bound : ∀ b ∈ s.processLists .inUse, s.kernel.count (s.semaphoreOf b) ≤ 16
  closed : ∀ h, s.kernel h = none → waited h = 0

theorem initial_processLists (h : Initial g s) : s.processLists = Lanes.only .free (List.range 64) := by
  obtain ⟨-, sys, smPid, cmdbuf, hs, -⟩ := h
  unfold start at hs
  split at hs
  · cases hs; rfl
  split at hs
  · cases hs
  next res port s1 hreg =>
  split at hs
  · cases hs
  cases hs
  rcases doRegister_ok hreg with ⟨-, -, rfl⟩ | ⟨-, -, hadd⟩
  · rfl
  · obtain ⟨kernel, -, rfl⟩ := addService_ok hadd
    rfl

theorem TokensInv.initial (h : Initial g s) : TokensInv s fun _ => 0 := by
  have hl := initial_processLists h
  have hnone : ∀ b, b ∉ s.processLists .inUse := fun b hb => by
    rw [hl] at hb
    exact nomatch (Lanes.mem_only.1 hb).1
  exact ⟨.init hl, fun b hb => absurd hb (hnone b), fun b hb => absurd hb (hnone b), fun _ _ => rfl⟩

theorem TokensInv.step (h : TokensInv s waited) (hinv : LoopInv g s) (hstep : (sm g).step s i s') :
    TokensInv s' (waitedAfter s waited i s') := by
  obtain ⟨hk, hi⟩ := hstep
  have hinv' := hinv.step ⟨hk, hi⟩
  have ht := iteration_turned hinv hk hi
  have hboth : ∀ b ∈ s'.processLists .inUse,
      s'.kernel.count (s'.semaphoreOf b) + waitedAfter s waited i s' (s'.semaphoreOf b) =
          (s'.processDataPool b).accepted.length ∧ s'.kernel.count (s'.semaphoreOf b) ≤ 16 := by
    intro b hb
    obtain ⟨c', hc'⟩ := hinv'.owned.processes.isOpen b hb
    unfold waitedAfter
    cases ht.turns b hb with
    | kept n inUse semaphore accepted count bound =>
      obtain ⟨c, hc⟩ := hinv.owned.processes.isOpen b inUse
      have htok := h.tokens b inUse
      have hle := h.bound b inUse
      have hrec := Kernel.count_semaphore (received_process hinv.owned hk hc)
      have hsem : s'.semaphoreOf b = s.semaphoreOf b := semaphore
      have hcount : s'.kernel.count (s.semaphoreOf b) = (received g s i).kernel.count (s.semaphoreOf b) + n := count
      have hbound : n = 0 ∨ s'.kernel.count (s.semaphoreOf b) ≤ 16 := bound
      have hacc : (s'.processDataPool b).accepted.length = (s.processDataPool b).accepted.length + n := accepted
      rw [hsem] at hc' ⊢
      rw [if_neg (by rw [hc, hc']; simp)]
      unfold waitsOn
      rw [Kernel.count_semaphore hc] at htok hle ⊢
      constructor
      · omega
      · rcases hbound with h0 | hb16
        · omega
        · exact hb16
    | new closed accepted count =>
      -- the handle is new, so nobody has waited on it
      have hs : s.kernel (s'.semaphoreOf b) = none := by
        by_contra hne
        have hkeep : (received g s i).kernel (s'.semaphoreOf b) ≠ none := by
          have hacq := (sameHandles_acquiredKernel g s i).keeps _ hne
          rcases received_kernel hk with heq | ⟨message, x, -, -, h0, hn, heq⟩
          · rw [heq]; exact hacq
          · rw [heq]; exact keeps_opened _ _ _ _ hacq
        exact hkeep closed
      rw [if_pos (.inl hs), count, accepted]
      exact ⟨rfl, Nat.zero_le _⟩
  refine ⟨ht.queues (h.processes.congr rfl rfl), fun b hb => (hboth b hb).1, fun b hb => (hboth b hb).2, fun x hx => ?_⟩
  unfold waitedAfter
  rw [if_pos (.inr hx)]

theorem tokensInv {p : State × (Handle → Nat)} (h : (clients g).Reachable p) : LoopInv g p.1 ∧ TokensInv p.1 p.2 := by
  refine h.invariant (J := fun p => LoopInv g p.1 ∧ TokensInv p.1 p.2) ?_ ?_
  · rintro ⟨s, waited⟩ ⟨hi, rfl⟩
    exact ⟨.initial hi, .initial hi⟩
  · rintro ⟨s, waited⟩ i ⟨s', waited'⟩ - ⟨hinv, htok⟩ ⟨hstep, hwaited⟩
    obtain rfl : waited' = waitedAfter s waited i s' := hwaited
    exact ⟨hinv.step hstep, htok.step hinv hstep⟩

/-- In every state reached the count of each process's semaphore is at most its maximum, and the next
command releases the semaphores of those it notifies exactly when it finds none of them ahead of its
waits by too much. -/
theorem notificationTokens_iff (h : (clients g).Reachable (s, waited)) :
    (∀ b ∈ s.processLists .inUse, s.kernel.count (s.semaphoreOf b) ≤ 0x10) ∧
      ∀ i, KernelOk g s i → (Released g s i ↔ Paced g s waited i) := by
  obtain ⟨hinv, htok⟩ : LoopInv g s ∧ TokensInv s waited := tokensInv h
  refine ⟨htok.bound, fun i hk => forall₄_congr fun a ready op hsel => forall_congr' fun hop => ?_⟩
  have hf : ∀ res, i.received ≠ .failed res := by
    obtain ⟨id, message, hr, -⟩ := selection_some hsel
    exact fun res hres => nomatch hr.symm.trans hres
  have hsel := selected hsel
  have hready := hsel.ready hinv hk hf
  have hsys : SyscallsOk ready.kernel i.sys := hsel.kernel ▸ hk.syscalls
  obtain ⟨hpool, hlists⟩ := hsel.processes
  have hsem : ready.semaphoreOf = s.semaphoreOf := by unfold State.semaphoreOf; rw [hpool]
  have hout := notifStep_tokens hready.owned (notifOp_ok hsys hready.command hop)
  rw [ne_eq, (handleCommands_notif hop).error_iff, hout.full_iff]
  push Not
  refine forall₂_congr fun b hb => ?_
  have hin : b ∈ s.processLists .inUse := hlists ▸ notified_inUse ready op b hb
  obtain ⟨c, hc⟩ := hinv.owned.processes.isOpen b hin
  have hrec := Kernel.count_semaphore (received_process hinv.owned hk hc)
  have hcount := htok.tokens b hin
  have hacc := congrArg List.length (htok.processes.queue b hin).fifo
  rw [List.length_append, ProcessData.pending, Ring.window_length] at hacc
  unfold waitsOn
  rw [hsem, hsel.kernel, hrec]
  rw [Kernel.count_semaphore hc] at hcount ⊢
  omega

theorem clients_reachable (h : (sm g).Reachable s) : ∃ waited, (clients g).Reachable (s, waited) := by
  induction h with
  | init hi => exact ⟨fun _ => 0, .init ⟨hi, rfl⟩⟩
  | @step s i s' _ hstep ih =>
    obtain ⟨waited, hr⟩ := ih
    exact ⟨waitedAfter s waited i s', .step hr ⟨hstep, rfl⟩⟩

/-- Whether a command on processes stops because a semaphore cannot be released. -/
def stopsAtRelease (g : Globals) (sys : Syscalls) (a : Nat) (ready : State) : Bool :=
  (notifOp g sys ready a).isSome && match handleCommands g sys ready a with
    | .error .semaphoreRelease => true
    | _ => false

theorem released_iff : Released g s i ↔
    ((selection g s i).any fun r => stopsAtRelease g i.sys r.1 r.2) = false := by
  unfold Released
  rcases selection g s i with - | ⟨a, ready⟩
  · exact ⟨fun _ => rfl, fun _ _ _ _ h => nomatch h⟩
  · constructor
    · intro h
      rw [Option.any_some]
      unfold stopsAtRelease
      cases hop : notifOp g i.sys ready a with
      | none => rfl
      | some op =>
        have hne := h a ready op rfl hop
        split
        · next he => exact absurd he hne
        · rfl
    · intro h a' ready' op hsel hop he
      cases hsel
      rw [Option.any_some] at h
      unfold stopsAtRelease at h
      rw [hop, he] at h
      cases h

/-- A process enables notifications and subscribes to 2. -/
def subscribed : List Event :=
  [connect 16, request 3 [0x00010002, 0x20, 1], { request 3 [0x00020000] with semaphore := some 40 },
    request 3 [0x00090040, 2]]

/-- Its session publishes 2. -/
def publish2 : Event := request 3 [0x000C0080, 2, 0]

theorem notificationTokens_iff_one : ∃ s waited, (clients globals).Reachable (s, waited) ∧
    s.kernel.count 40 = 1 ∧ Paced globals s waited publish2.input := by
  have hrun : (play globals (initSystem globals fun _ => 0) (subscribed ++ [publish2])).map (fun s =>
      (s.kernel.count 40, publish2.possible globals s,
        (selection globals s publish2.input).any fun r => stopsAtRelease globals publish2.input.sys r.1 r.2)) =
      some (1, true, false) := by decide +kernel
  obtain ⟨s, hs, hv⟩ := Option.map_eq_some_iff.1 hrun
  simp only [Prod.mk.injEq] at hv
  obtain ⟨hcount, hpos, hstop⟩ := hv
  have hreach := play_reachable (P := fun _ _ => True) (fun _ _ _ => trivial) (.init (initSystem_initial _)) hs
  obtain ⟨waited, hc⟩ := clients_reachable hreach.of_restrict
  exact ⟨s, waited, hc, hcount,
    ((notificationTokens_iff hc).2 publish2.input (Event.kernelOk hpos)).1 (released_iff.2 hstop)⟩

/-- Sixteen notifications, and one received without a wait. -/
def receivedUnwaited : List Event := subscribed ++ List.replicate 16 publish2 ++ [request 3 [0x000B0000]]

/-- The next publication finds room in the ring, and 16 tokens. -/
theorem receivedUnwaited_notReleased : ∃ s waited i, (clients globals).Reachable (s, waited) ∧ KernelOk globals s i ∧
    ¬ Released globals s i := by
  have hrun : (play globals (initSystem globals fun _ => 0) receivedUnwaited).map (fun s =>
      (publish2.possible globals s,
        (selection globals s publish2.input).any fun r => stopsAtRelease globals publish2.input.sys r.1 r.2)) =
      some (true, true) := by decide +kernel
  obtain ⟨s, hs, hv⟩ := Option.map_eq_some_iff.1 hrun
  obtain ⟨hpos, hstop⟩ := Prod.mk.inj hv
  have hreach := play_reachable (P := fun _ _ => True) (fun _ _ _ => trivial) (.init (initSystem_initial _)) hs
  obtain ⟨waited, hc⟩ := clients_reachable hreach.of_restrict
  refine ⟨s, waited, publish2.input, hc, Event.kernelOk hpos, fun hrel => ?_⟩
  rw [released_iff.1 hrel] at hstop
  cases hstop

end

end Omiiba.Sm
