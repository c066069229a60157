/-
Runs of a service loop. The arrays describe the open sessions all the time and replies go where the commands
came from. A cleanup in which a subscription cannot be removed begins again and closes the handles a second
time; and the loop can return without any cleanup.
-/
import Omiiba.Loader.ServiceSessions

namespace Omiiba.Loader.ServiceManager

/-- What the loop owes its clients. -/
structure Served (c : Config) (s : State) : Prop where
  /-- The arrays describe the open sessions, each of them once. -/
  described : s.phase = .receive → ∃ order, Tabled c s order ∧ order.Nodup ∧
    ∀ n, n ∈ order ↔ n < s.accepted.length ∧ Object.session n ∉ s.handles.returned
  inBounds : s.numActiveSessions ≤ c.maxSessionsTotal
  once : ∀ n, s.handles.returned.count (.session n) ≤ 1 ∧ s.contexts.returned.count n ≤ 1
  /-- When the function has returned, every session is closed and its context is freed. -/
  settled : ∀ res, s.phase = .returned res → ∀ n < s.accepted.length, s.handles.returned.count (.session n) = 1 ∧
    s.contexts.returned.count n = if c.allocator = true ∧ (s.session n).ctx ≠ 0 then 1 else 0
  dispatched : Dispatched c s
  /-- The replies go to the senders of the commands, except for the last one as long as it is not answered. -/
  answered : s.commands.map Command.sender = s.replies ++ if s.phase = .receive then replied s else []

/-- The answers after which the function returns from within the loop: a failure to receive, a closed
session that cannot be told, a closed port, and a session for which there is no context. -/
def Abandons (c : Config) (s : State) (a : Answers) : Prop :=
  if a.res = sessionClosedByRemote then (a.id = -1 ∧ s.replyTarget = 0) ∨ (a.id ≠ -1 ∧ a.id < 1 + c.numServices)
  else rFailed a.res = true ∨
    (1 ≤ a.id ∧ a.id < 1 + c.numServices ∧ rFailed a.next = false ∧ c.allocator = true ∧ a.ctx = 0)

def OrderlyIn (c : Config) (s : State) (a : Answers) : Phase → Prop
  | .receive => Abandons c s a → s.numActiveSessions = 0
  | .unsubscribe i => c.notifications[i]?.map needsSubscription = some true → rFailed a.res = false
  | _ => True

/-- No subscription fails to be removed, and the loop is not left by a return while sessions are open. -/
def Orderly (c : Config) (s : State) (a : Answers) : Prop := OrderlyIn c s a s.phase

instance (c : Config) (s : State) (a : Answers) : Decidable (Abandons c s a) := by
  unfold Abandons
  infer_instance

instance (c : Config) (s : State) (a : Answers) : (p : Phase) → Decidable (OrderlyIn c s a p)
  | .receive => inferInstanceAs (Decidable (Abandons c s a → s.numActiveSessions = 0))
  | .unsubscribe i =>
    inferInstanceAs (Decidable (c.notifications[i]?.map needsSubscription = some true → rFailed a.res = false))
  | .enableNotification | .subscribe _ | .registerService _ | .cleanup | .returned _ => .isTrue trivial

instance (c : Config) (s : State) (a : Answers) : Decidable (Orderly c s a) :=
  inferInstanceAs (Decidable (OrderlyIn c s a s.phase))

/-- The states a loop goes through. -/
def runs (c : Config) (s : State) (ω : Nat → Answers) : Nat → State
  | 0 => s
  | k + 1 => runs c (step c s (ω 0)) (fun j => ω (j + 1)) k

section

variable {c : Config} {s s' : State} {a : Answers} {order : List Nat} {n k : Nat}

/-! ## Set-up -/

theorem Sessionless.congr (h : Sessionless s) (ha : s'.accepted = s.accepted)
    (hn : s'.numActiveSessions = s.numActiveSessions) (hr : s'.replyTarget = s.replyTarget)
    (hh : s'.handles = s.handles) (hx : s'.contexts = s.contexts)
    (hm : s'.commands = s.commands) (hp : s'.replies = s.replies)
    (ht : s'.terminationRequested = s.terminationRequested) : Sessionless s' := by
  constructor
  · rw [ha, h.accepted]
  · rw [hn, h.active]
  · rw [hr, h.reply]
  · rw [hh]
    exact h.given
  · rw [hh]
    exact h.owner
  · rw [hh]
    exact h.returned
  · rw [hx, h.contexts]
  · rw [hm, h.commands]
  · rw [hp, h.replies]
  · rw [ht, h.termination]

/-- A handle is given out for something that is no session. -/
theorem Sessionless.give (h : Sessionless s) {o : Object} (ho : ∀ n, o ≠ .session n) (w : Nat → Handle) (x : Handle)
    (res : Result) (p : Phase) :
    Sessionless { s with waitHandles := w, handles := s.handles.give x o, res := res, phase := p } where
  accepted := h.accepted
  active := h.active
  reply := h.reply
  given n hn := by
    rcases List.mem_append.mp hn with hn | hn
    · exact h.given n hn
    · exact ho n (List.mem_singleton.mp hn).symm
  owner x' n hx' := by
    rw [Ledger.give_owner, Function.update_apply] at hx'
    split at hx'
    · exact ho n (Option.some.inj hx')
    · exact h.owner x' n hx'
  returned := h.returned
  contexts := h.contexts
  commands := h.commands
  replies := h.replies
  termination := h.termination

/-- Handles can be closed without closing a session. -/
theorem Sessionless.takeAll (h : Sessionless s) (ks : List Handle) (p : Phase) :
    Sessionless { s with handles := ks.foldl Ledger.take s.handles, phase := p } where
  accepted := h.accepted
  active := h.active
  reply := h.reply
  given n := by
    rw [Ledger.foldl_take_given]
    exact h.given n
  owner x n := by
    rw [Ledger.foldl_take_owner]
    exact h.owner x n
  returned n hn := by
    rw [Ledger.foldl_take_returned, List.mem_append] at hn
    rcases hn with hn | hn
    · exact h.returned n hn
    · obtain ⟨x, -, hx⟩ := List.mem_flatMap.mp hn
      exact h.owner x n (Option.mem_toList.mp hx)
  contexts := h.contexts
  commands := h.commands
  replies := h.replies
  termination := h.termination

/-! ## Cleanup -/

/-- Every session has been closed once, and every context freed once. -/
structure Settled (c : Config) (s : State) : Prop where
  closed : ∀ n, s.handles.returned.count (.session n) = if n < s.accepted.length then 1 else 0
  freed : ∀ n, s.contexts.returned.count n =
    if n < s.accepted.length ∧ c.allocator = true ∧ (s.session n).ctx ≠ 0 then 1 else 0

/-- Every session has been closed once, and the contexts are still to be freed. -/
structure Closing (c : Config) (s : State) (order : List Nat) : Prop where
  closed : ∀ n, s.handles.returned.count (.session n) = if n < s.accepted.length then 1 else 0
  contexts : s.contexts.Keeps (heldContexts c s order)
  contextsGiven : ∀ n, s.contexts.given.count n = if c.allocator = true ∧ n < s.accepted.length then 1 else 0
  ctxs : order.map (fun n => (s.session n).ctx) = (List.range s.numActiveSessions).map s.ctxs
  accepted : ∀ n < s.accepted.length, c.allocator = true → (s.session n).ctx ≠ 0

theorem Tabled.map_eq {β : Type} (h : Tabled c s order) (f : Session → β) (g : Nat → β)
    (hfg : ∀ off n, order[off]? = some n → f (s.session n) = g off) :
    (order.map fun n => f (s.session n)) = (List.range s.numActiveSessions).map g := by
  refine List.ext_getElem (by rw [List.length_map, List.length_map, List.length_range, h.1]) fun off hl hr => ?_
  rw [List.getElem_map, List.getElem_map, List.getElem_range]
  exact hfg off _ (List.getElem?_eq_getElem _)

/-- The handles the loop waits for are those that it has to close. -/
theorem Serving.waitedFor_eq (h : Serving c s order) : waitedFor c s = (heldHandles c s order).map Prod.fst := by
  have hsessions := h.tabled.map_eq Session.handle (fun off => s.waitHandles (1 + c.numServices + off))
    fun off n hn => by rw [h.tabled.2 off n hn]
  have hstart : (heldStart s c.numServices).map Prod.fst = (List.range (1 + c.numServices)).map s.waitHandles := by
    rw [Nat.add_comm 1, List.range_succ_eq_map]
    simp [heldStart, heldPorts, Nat.add_comm]
  unfold waitedFor heldHandles
  rw [List.map_append, hstart, List.map_map, List.range_add, List.map_append, List.map_map]
  exact congrArg _ hsessions.symm

theorem Serving.cleanup (h : Serving c s order) : Closing c (cleanup c s) order where
  closed n := by
    have hkeeps : (ServiceManager.cleanup c s).handles.Keeps [] := by
      unfold ServiceManager.cleanup
      rw [h.waitedFor_eq]
      exact h.handles.takeAll
    have hcount := hkeeps.count (Object.session n)
    rw [List.map_nil, List.count_nil, Nat.add_zero] at hcount
    rw [hcount]
    unfold ServiceManager.cleanup
    rw [Ledger.foldl_take_given]
    exact h.given n
  contexts := h.contexts
  contextsGiven := h.contextsGiven
  ctxs := h.tabled.map_eq Session.ctx s.ctxs fun off n hn => by rw [h.tabled.2 off n hn]
  accepted n hn := (h.accepted n hn).2.2

theorem Closing.settled (h : Closing c s order) (p : Phase) :
    Settled c { s with contexts := freeContexts c s, phase := p } where
  closed := h.closed
  freed n := by
    have hgiven : (freeContexts c s).given = s.contexts.given := by
      unfold freeContexts
      rw [apply_ite Ledger.given, Ledger.foldl_take_given, ite_self]
    have hkeeps : (freeContexts c s).Keeps [] := by
      unfold freeContexts
      by_cases hc : c.allocator = true
      · have hall := h.contexts.takeAll
        rw [heldContexts, if_pos hc, List.map_map] at hall
        rw [if_pos hc, ← h.ctxs]
        exact hall
      · rw [if_neg hc, ← heldContexts_none hc s order]
        exact h.contexts
    have hcount := hkeeps.count n
    rw [List.map_nil, List.count_nil, Nat.add_zero, hgiven, h.contextsGiven] at hcount
    show (freeContexts c s).returned.count n =
      if n < s.accepted.length ∧ c.allocator = true ∧ (s.session n).ctx ≠ 0 then 1 else 0
    rw [hcount]
    by_cases hn : n < s.accepted.length
    · by_cases hc : c.allocator = true
      · simp [hn, hc, h.accepted n hn hc]
      · simp [hc]
    · simp [hn]

theorem Sessionless.settled (h : Sessionless s) (p : Phase) :
    Settled c { s with contexts := freeContexts c s, phase := p } where
  closed n := by
    rw [h.accepted, List.length_nil, if_neg (Nat.not_lt_zero n)]
    exact List.count_eq_zero.mpr (h.returned n)
  freed n := by
    have hfree : freeContexts c s = Ledger.empty := by
      unfold freeContexts
      rw [h.active, h.contexts]
      exact ite_self _
    show (freeContexts c s).returned.count n = if n < s.accepted.length ∧ _ then 1 else 0
    rw [hfree, h.accepted, if_neg fun hn => Nat.not_lt_zero n hn.1]
    rfl

/-- Without open sessions nothing is left to be done for them. -/
theorem Serving.settled (h : Serving c s order) (hidle : s.numActiveSessions = 0) : Settled c s := by
  obtain rfl : order = [] := List.length_eq_zero_iff.mp (h.tabled.1.trans hidle)
  constructor
  · intro n
    have hcount := h.handles.count (Object.session n)
    rw [count_held List.nodup_nil, if_neg List.not_mem_nil, Nat.add_zero] at hcount
    rw [hcount, h.given]
  · intro n
    have hcount := h.contexts.count n
    rw [show heldContexts c s [] = [] by unfold heldContexts; exact ite_self _, List.map_nil, List.count_nil, Nat.add_zero,
      h.contextsGiven] at hcount
    rw [hcount]
    by_cases hn : n < s.accepted.length
    · by_cases hc : c.allocator = true
      · simp [hn, hc, (h.accepted n hn).2.2 hc]
      · simp [hc]
    · simp [hn]

/-! ## Steps -/

/-- What holds of the handles and of the sessions when the next call is made. -/
def PhaseInv (c : Config) (s : State) : Phase → Prop
  | .enableNotification => Sessionless s ∧ s.handles.Keeps []
  | .subscribe _ => Sessionless s ∧ s.handles.Keeps (heldStart s 0)
  | .registerService i => Sessionless s ∧ i ≤ c.numServices ∧ s.handles.Keeps (heldStart s i)
  | .receive => ∃ order, Serving c s order ∧
    (s.replyTarget = 0 ∨ ∃ off < s.numActiveSessions, s.replyTarget = s.waitHandles (1 + c.numServices + off))
  | .cleanup => Sessionless s ∨ ∃ order, Serving c s order
  | .unsubscribe _ => Sessionless s ∨ ∃ order, Closing c s order
  | .returned _ => Settled c s

/-- The loop has been left. -/
def Phase.Finishing : Phase → Prop
  | .cleanup | .unsubscribe _ | .returned _ => True
  | _ => False

structure Inv (c : Config) (s : State) : Prop where
  phase : PhaseInv c s s.phase
  inBounds : s.numActiveSessions ≤ c.maxSessionsTotal
  dispatched : Dispatched c s
  answered : s.commands.map Command.sender = s.replies ++ if s.phase = .receive then replied s else []
  termination : s.terminationRequested = true → s.phase.Finishing

theorem Sessionless.inv (h : Sessionless s) (hp : PhaseInv c s s.phase) : Inv c s where
  phase := hp
  inBounds := by
    rw [h.active]
    exact Nat.zero_le _
  dispatched x hx := by
    rw [h.commands] at hx
    exact absurd hx List.not_mem_nil
  answered := by
    rw [h.commands, h.replies, replied, if_pos h.reply, ite_self]
    rfl
  termination ht := by
    rw [h.termination] at ht
    cases ht

/-- Within an iteration, after the last command has been replied to. -/
structure Running (c : Config) (s : State) (order : List Nat) : Prop where
  serving : Serving c s order
  dispatched : Dispatched c s
  caughtUp : s.commands.map Command.sender = s.replies

theorem Running.congr (h : Running c s order) (hw : s'.waitHandles = s.waitHandles) (hc : s'.ctxs = s.ctxs)
    (hi : s'.handlerIds = s.handlerIds) (hn : s'.numActiveSessions = s.numActiveSessions)
    (hh : s'.handles = s.handles) (hx : s'.contexts = s.contexts) (ha : s'.accepted = s.accepted)
    (hm : s'.commands = s.commands) (hr : s'.replies = s.replies) : Running c s' order where
  serving := h.serving.congr hw hc hi hn hh hx ha
  dispatched := by
    unfold Dispatched
    rw [hm, ha, show s'.session = s.session from funext (session_of_eq ha)]
    exact h.dispatched
  caughtUp := by rw [hm, hr, h.caughtUp]

theorem Running.inv (h : Running c s order) (hp : PhaseInv c s s.phase) (hr : s.phase = .receive → s.replyTarget = 0)
    (ht : s.terminationRequested = true → s.phase.Finishing) : Inv c s where
  phase := hp
  inBounds := h.serving.fits
  dispatched := h.dispatched
  answered := by
    rw [h.caughtUp]
    split_ifs with hreceive
    · rw [replied, if_pos (hr hreceive), List.append_nil]
    · exact (List.append_nil _).symm
  termination := ht

theorem Inv.running (h : Inv c s) (hp : s.phase = .receive) :
    ∃ order, Running c (received s a) order ∧
      (s.replyTarget = 0 ∨ ∃ off < s.numActiveSessions, s.replyTarget = s.waitHandles (1 + c.numServices + off)) := by
  have hphase := h.phase
  rw [hp] at hphase
  obtain ⟨order, hserving, hreply⟩ := hphase
  refine ⟨order, ⟨hserving.congr rfl rfl rfl rfl rfl rfl rfl, h.dispatched, ?_⟩, hreply⟩
  have hanswered := h.answered
  rw [if_pos hp] at hanswered
  exact hanswered

theorem Inv.not_terminating (h : Inv c s) (hp : s.phase = .receive) : s.terminationRequested = false := by
  rcases ht : s.terminationRequested with _ | _
  · rfl
  · have hfinishing := h.termination ht
    rw [hp] at hfinishing
    exact hfinishing.elim

/-- The answer of a `TRY` is a failure, which leads to the cleanup, or not. -/
theorem tryResult_cases {P : State → Prop} {res : Result} {rest : State → State}
    (hfail : P { s with res := res, phase := .cleanup }) (hok : rFailed res = false → P (rest { s with res := res })) :
    P (tryResult s res rest) := by
  unfold tryResult
  split_ifs with h
  · exact hfail
  · exact hok (Bool.eq_false_iff.mpr h)

theorem Running.dropSession (h : Running c s order) {off : Nat} (hoff : off < s.numActiveSessions)
    (hp : s.phase = .receive) (ht : s.terminationRequested = false) : Inv c (dropSession c s off) := by
  have hrun : Running c (ServiceManager.dropSession c s off) (swapRemove order off) :=
    ⟨h.serving.dropSession hoff, h.dispatched, h.caughtUp⟩
  have hphase : (ServiceManager.dropSession c s off).phase = .receive := hp
  refine hrun.inv ?_ (fun _ => rfl) fun hterm => absurd (ht.symm.trans hterm) Bool.false_ne_true
  rw [hphase]
  exact ⟨_, hrun.serving, Or.inl rfl⟩

/-- The session that is replied to is found. -/
theorem replyTargetOffset_spec (hreply : s.replyTarget = 0 ∨ ∃ off < s.numActiveSessions,
    s.replyTarget = s.waitHandles (1 + c.numServices + off)) :
    (replyTargetOffset c s = none ∧ s.replyTarget = 0) ∨
      ∃ off, replyTargetOffset c s = some off ∧ off < s.numActiveSessions := by
  rcases hfind : replyTargetOffset c s with _ | off
  · refine Or.inl ⟨rfl, hreply.resolve_right ?_⟩
    rintro ⟨off, hoff, heq⟩
    have hnot := List.find?_eq_none.mp hfind off (List.mem_range.mpr hoff)
    exact hnot (by simp [heq])
  · exact Or.inr ⟨off, rfl, List.mem_range.mp (List.mem_of_find?_eq_some hfind)⟩

theorem Running.abandon (h : Running c s order) (hidle : s.numActiveSessions = 0) (res : Result) :
    Inv c { s with phase := .returned res } := by
  have hsettled := h.serving.settled hidle
  have hrun : Running c { s with phase := .returned res } order := h.congr rfl rfl rfl rfl rfl rfl rfl rfl rfl
  exact hrun.inv ⟨hsettled.closed, hsettled.freed⟩ (fun hp => by cases hp) fun _ => trivial

theorem Running.sessionClosed (h : Running c s order) (hp : s.phase = .receive) (ht : s.terminationRequested = false)
    (hreply : s.replyTarget = 0 ∨ ∃ off < s.numActiveSessions, s.replyTarget = s.waitHandles (1 + c.numServices + off))
    (hid : a.id = -1 ∨ (0 ≤ a.id ∧ a.id < 1 + c.numServices + s.numActiveSessions))
    (hidle : (a.id = -1 ∧ s.replyTarget = 0) ∨ (a.id ≠ -1 ∧ a.id < 1 + c.numServices) → s.numActiveSessions = 0) :
    Inv c (sessionClosed c s a) := by
  unfold ServiceManager.sessionClosed
  by_cases hpending : a.id = -1
  · rw [if_pos hpending]
    rcases replyTargetOffset_spec hreply with ⟨hnone, hzero⟩ | ⟨off, hsome, hoff⟩
    · rw [hnone]
      exact h.abandon (hidle (Or.inl ⟨hpending, hzero⟩)) _
    · rw [hsome]
      exact h.dropSession hoff hp ht
  · rw [if_neg hpending]
    split_ifs with hport
    · exact h.abandon (hidle (Or.inr ⟨hpending, hport⟩)) _
    · exact h.dropSession (by omega) hp ht

theorem Running.receiveNotification (h : Running c s order) (hr : s.replyTarget = 0) :
    Inv c (receiveNotification c s a) := by
  refine tryResult_cases ?_ fun _ => ?_
  · have hrun : Running c { s with res := a.next, phase := .cleanup } order := h.congr rfl rfl rfl rfl rfl rfl rfl rfl rfl
    exact hrun.inv (Or.inr ⟨order, hrun.serving⟩) (fun hp => by cases hp) fun _ => trivial
  · refine @Running.inv c _ order ?_ ?_ (fun _ => hr) ?_
    · exact h.congr rfl rfl rfl rfl rfl rfl rfl rfl rfl
    · show PhaseInv c _ (if a.notificationId == 0x100 then .cleanup else .receive)
      split_ifs
      · exact Or.inr ⟨order, h.serving.congr rfl rfl rfl rfl rfl rfl rfl⟩
      · exact ⟨order, h.serving.congr rfl rfl rfl rfl rfl rfl rfl, Or.inl hr⟩
    · intro hterm
      show (if a.notificationId == 0x100 then Phase.cleanup else .receive).Finishing
      rw [if_pos hterm]
      trivial

theorem Dispatched.append {x : Session} (h : Dispatched c s) (ha : s'.accepted = s.accepted ++ [x])
    (hc : s'.commands = s.commands) : Dispatched c s' := by
  intro y hy
  rw [hc] at hy
  obtain ⟨n, hn, hsender, hservice, hbound, hctx⟩ := h y hy
  refine ⟨n, by rw [ha, List.length_append]; omega, hsender, ?_, hbound, ?_⟩
  · rw [session_of_append ha hn, hservice]
  · rw [session_of_append ha hn, hctx]

theorem Running.addSession (h : Running c s order) (hp : s.phase = .receive) (hr : s.replyTarget = 0)
    (ht : s.terminationRequested = false) {i : Nat} {ctx : Ctx} (hi : i < c.numServices) (hfew : c.numServices ≤ 256)
    (hok : AcceptOk c s a i) (hctx : c.allocator = true → ctx = a.ctx ∧ ctx ≠ 0) : Inv c (addSession c s a i ctx) := by
  have hserving := h.serving.addSession hi hfew hok hctx
  have hphase : (ServiceManager.addSession c s a i ctx).phase = .receive := hp
  have hrun : Running c (ServiceManager.addSession c s a i ctx) (order ++ [s.accepted.length]) :=
    ⟨hserving, h.dispatched.append rfl rfl, h.caughtUp⟩
  refine hrun.inv ?_ (fun _ => hr) fun hterm => absurd (ht.symm.trans hterm) Bool.false_ne_true
  rw [hphase]
  exact ⟨_, hserving, Or.inl hr⟩

/-- The session that is refused is the only one. -/
theorem Running.refuseSession (h : Running c s order) (hidle : s.numActiveSessions = 0) (i : Nat) :
    Inv c (refuseSession s a i) := by
  have hsettled := h.serving.settled hidle
  have hreturned : (ServiceManager.refuseSession s a i).handles.returned =
      s.handles.returned ++ [.session s.accepted.length] := by
    show ((s.handles.give a.handle (.session s.accepted.length)).take a.handle).returned = _
    rw [Ledger.take_returned, Ledger.give_owner, Function.update_self, Ledger.give_returned]
    rfl
  have hlen : (ServiceManager.refuseSession s a i).accepted.length = s.accepted.length + 1 := by
    show (s.accepted ++ [_]).length = _
    rw [List.length_append, List.length_singleton]
  constructor
  · constructor
    · intro n
      rw [hreturned, hlen, List.count_append, hsettled.closed, ← count_lengths n, List.count_singleton,
        List.count_singleton]
      simp
    · intro n
      show s.contexts.returned.count n = _
      rw [hsettled.freed, hlen]
      rcases Nat.lt_trichotomy n s.accepted.length with hlt | rfl | hgt
      · have hold : (ServiceManager.refuseSession s a i).session n = s.session n := session_of_append rfl hlt
        rw [hold]
        simp [hlt, Nat.lt_succ_of_lt hlt]
      · -- the session has no context
        have hlast : (ServiceManager.refuseSession s a i).session s.accepted.length = ⟨a.handle, i, 0⟩ :=
          session_of_last rfl
        rw [hlast]
        simp
      · simp [show ¬n < s.accepted.length by omega, show ¬n < s.accepted.length + 1 by omega]
  · exact h.serving.fits
  · exact h.dispatched.append rfl rfl
  · show s.commands.map Command.sender = s.replies ++ []
    rw [h.caughtUp, List.append_nil]
  · exact fun _ => trivial

theorem Running.command (h : Running c s order) (hp : s.phase = .receive) (ht : s.terminationRequested = false)
    {off : Nat} (hoff : off < s.numActiveSessions) : Inv c (command c s off) := by
  obtain ⟨n, hn⟩ : ∃ n, order[off]? = some n := ⟨_, List.getElem?_eq_getElem (h.serving.tabled.1 ▸ hoff)⟩
  have hsession := h.serving.tabled.2 off n hn
  have hmem := h.serving.mem_iff.mp (List.mem_of_getElem? hn)
  obtain ⟨hzero, hport, -⟩ := h.serving.accepted n hmem.1
  have howner : s.handles.owner (s.waitHandles (1 + c.numServices + off)) = some (.session n) := by
    have hheld : ((s.session n).handle, Object.session n) ∈ heldHandles c s order :=
      List.mem_append_right _ (List.mem_map.mpr ⟨n, List.mem_of_getElem? hn, rfl⟩)
    have hout := (h.serving.handles.out _ hheld).2
    rw [hsession] at hout
    exact hout
  rw [hsession] at hzero hport
  have hserving : Serving c (ServiceManager.command c s off) order := h.serving.congr rfl rfl rfl rfl rfl rfl rfl
  have hphase : (ServiceManager.command c s off).phase = .receive := hp
  constructor
  · rw [hphase]
    exact ⟨order, hserving, Or.inr ⟨off, hoff, rfl⟩⟩
  · exact hserving.fits
  · intro x hx
    rcases List.mem_append.mp hx with hx | hx
    · exact h.dispatched x hx
    · obtain rfl := List.mem_singleton.mp hx
      refine ⟨n, hmem.1, howner, ?_, hport, ?_⟩
      · exact (congrArg Session.port hsession).symm
      · exact (congrArg Session.ctx hsession).symm
  · have hreplied : replied (ServiceManager.command c s off) = [some (.session n)] := by
      unfold replied ServiceManager.command
      dsimp only
      rw [if_neg hzero, howner]
    rw [if_pos hphase, hreplied]
    unfold ServiceManager.command
    rw [List.map_append, h.caughtUp, howner]
    rfl
  · exact fun hterm => absurd (ht.symm.trans hterm) Bool.false_ne_true

theorem Running.acceptSession (h : Running c s order) (hp : s.phase = .receive) (hr : s.replyTarget = 0)
    (ht : s.terminationRequested = false) {i : Nat} (hi : i < c.numServices) (hfew : c.numServices ≤ 256)
    (hok : rFailed a.next = false → AcceptOk c s a i)
    (hidle : rFailed a.next = false → c.allocator = true → a.ctx = 0 → s.numActiveSessions = 0) :
    Inv c (acceptSession c s a i) := by
  refine tryResult_cases ?_ fun hsuccess => ?_
  · have hrun : Running c { s with res := a.next, phase := .cleanup } order := h.congr rfl rfl rfl rfl rfl rfl rfl rfl rfl
    exact hrun.inv (Or.inr ⟨order, hrun.serving⟩) (fun hp => by cases hp) fun _ => trivial
  · have hrun : Running c { s with res := a.next } order := h.congr rfl rfl rfl rfl rfl rfl rfl rfl rfl
    split_ifs with hallocator hnull
    · exact hrun.refuseSession (hidle hsuccess hallocator hnull) i
    · exact hrun.addSession hp hr ht hi hfew (hok hsuccess) fun _ => ⟨rfl, hnull⟩
    · exact hrun.addSession hp hr ht hi hfew (hok hsuccess) fun hc => absurd hc hallocator

theorem Inv.receive (h : Inv c s) (hp : s.phase = .receive) (hfew : c.numServices ≤ 256) (hok : ReceiveOk c s a)
    (hidle : Abandons c s a → s.numActiveSessions = 0) : Inv c (receive c s a) := by
  obtain ⟨order, hrun, hreply⟩ := h.running (a := a) hp
  have ht := h.not_terminating hp
  unfold ReceiveOk at hok
  unfold Abandons at hidle
  unfold ServiceManager.receive
  dsimp only
  by_cases hclosed : a.res = sessionClosedByRemote
  · rw [if_pos hclosed] at hok hidle ⊢
    exact hrun.sessionClosed hp ht hreply hok hidle
  · rw [if_neg hclosed] at hok hidle ⊢
    by_cases hfailed : rFailed a.res = true
    · rw [if_pos hfailed]
      exact hrun.abandon (hidle (Or.inl hfailed)) _
    · rw [if_neg hfailed]
      obtain ⟨hnonneg, hlt, hok⟩ := hok.resolve_left hfailed
      have hrun' : Running c { received s a with replyTarget := 0 } order :=
        hrun.congr rfl rfl rfl rfl rfl rfl rfl rfl rfl
      split_ifs with hzero hport
      · exact hrun'.receiveNotification rfl
      · refine hrun'.acceptSession hp rfl ht (by omega) hfew (fun hsuccess => hok (by omega) hport hsuccess) ?_
        exact fun hsuccess hc hnull => hidle (Or.inr ⟨by omega, hport, hsuccess, hc, hnull⟩)
      · refine hrun'.command hp ht ?_
        show a.id.toNat - 1 - c.numServices < s.numActiveSessions
        omega

theorem Sessionless.fails (h : Sessionless s) (res : Result) : Inv c { s with res := res, phase := .cleanup } := by
  have hs : Sessionless { s with res := res, phase := .cleanup } := h.congr rfl rfl rfl rfl rfl rfl rfl rfl
  exact hs.inv (Or.inl hs)

theorem Inv.enableNotification (h : Inv c s) (hp : s.phase = .enableNotification) (hfresh : Fresh s a.handle) :
    Inv c (enableNotification s a) := by
  have hphase := h.phase
  rw [hp] at hphase
  obtain ⟨hs, hkeeps⟩ := hphase
  refine tryResult_cases (hs.fails _) fun _ => ?_
  have hgiven := hs.give (o := .notification) (fun n hn => by cases hn) (Function.update s.waitHandles 0 a.handle)
    a.handle a.res (.subscribe 0)
  refine hgiven.inv ⟨hgiven, ?_⟩
  have hheld := hkeeps.give hfresh.2 .notification
  unfold heldStart
  dsimp only
  rw [Function.update_self]
  exact hheld

theorem Inv.subscribe (h : Inv c s) {i : Nat} (hp : s.phase = .subscribe i) : Inv c (subscribe c s a i) := by
  have hphase := h.phase
  rw [hp] at hphase
  obtain ⟨hs, hkeeps⟩ := hphase
  have hgoes (res : Result) (p : Phase) (hpi : PhaseInv c { s with res := res, phase := p } p) :
      Inv c { s with res := res, phase := p } :=
    Sessionless.inv (hs.congr rfl rfl rfl rfl rfl rfl rfl rfl) hpi
  have hnext (res : Result) : Inv c { s with res := res, phase := .subscribe (i + 1) } :=
    hgoes _ _ ⟨hs.congr rfl rfl rfl rfl rfl rfl rfl rfl, hkeeps⟩
  unfold ServiceManager.subscribe
  split
  · exact hgoes s.res _ ⟨hs.congr rfl rfl rfl rfl rfl rfl rfl rfl, Nat.zero_le _, hkeeps⟩
  · split_ifs
    · exact tryResult_cases (hs.fails _) fun _ => hnext _
    · exact hnext s.res

theorem heldStart_succ {k : Nat} (hw : ∀ j < 1 + k, s'.waitHandles j = s.waitHandles j) :
    (heldStart s' (k + 1)).Perm ((s'.waitHandles (1 + k), .port k) :: heldStart s k) := by
  have heq : heldStart s' (k + 1) = heldStart s' k ++ [(s'.waitHandles (1 + k), .port k)] := by
    unfold heldStart heldPorts
    rw [List.range_succ, List.map_append]
    rfl
  rw [heq, heldStart_congr hw]
  exact List.perm_append_singleton _ _

/-- All ports are registered, and no session has been accepted. -/
theorem Sessionless.serving (h : Sessionless s) (hkeeps : s.handles.Keeps (heldStart s c.numServices)) :
    Serving c s [] where
  tabled := ⟨h.active.symm, fun off n hn => by cases hn⟩
  nodup := List.nodup_nil
  handles := by
    unfold heldHandles
    rwa [List.map_nil, List.append_nil]
  given n := by
    rw [h.accepted, List.length_nil, if_neg (Nat.not_lt_zero n)]
    exact List.count_eq_zero.mpr (h.given n)
  contexts := by
    rw [h.contexts, show heldContexts c s [] = [] from ite_self _]
    exact Ledger.keeps_empty
  contextsGiven n := by
    rw [h.contexts, h.accepted, List.length_nil, if_neg fun hn => Nat.not_lt_zero n hn.2]
    rfl
  accepted n hn := by
    rw [h.accepted] at hn
    exact absurd hn (Nat.not_lt_zero n)
  quota _ := Nat.zero_le _

theorem Inv.registerService (h : Inv c s) {i : Nat} (hp : s.phase = .registerService i) (hfresh : Fresh s a.handle)
    (hclient : Fresh s a.clientPort) (hne : a.clientPort ≠ a.handle) : Inv c (registerService c s a i) := by
  have hphase := h.phase
  rw [hp] at hphase
  obtain ⟨hs, hi, hkeeps⟩ := hphase
  unfold ServiceManager.registerService
  split
  · next hnone =>
    obtain rfl : i = c.numServices := le_antisymm hi (List.getElem?_eq_none_iff.mp hnone)
    have hs' : Sessionless { s with phase := .receive } := hs.congr rfl rfl rfl rfl rfl rfl rfl rfl
    exact hs'.inv ⟨[], hs'.serving hkeeps, Or.inl hs.reply⟩
  · next service hsome =>
    have hlt : i < c.numServices := (List.getElem?_eq_some_iff.mp hsome).1
    refine tryResult_cases (hs.fails _) fun _ => ?_
    have hgiven := hs.give (o := .port i) (fun n hn => by cases hn) (Function.update s.waitHandles (1 + i) a.handle)
      a.handle a.res (.registerService (i + 1))
    have hport : (s.handles.give a.handle (.port i)).Keeps
        (heldStart { s with waitHandles := Function.update s.waitHandles (1 + i) a.handle } (i + 1)) := by
      refine (hkeeps.give hfresh.2 (.port i)).perm (List.Perm.trans ?_ (heldStart_succ (s := s) fun j hj => ?_).symm)
      · dsimp only
        rw [Function.update_self]
      · exact Function.update_of_ne (by omega) ..
    by_cases hglobal : service.isGlobalPort = true
    · -- the handle of the clients is given out and closed again
      have hout : (s.handles.give a.handle (.port i)).isOut a.clientPort = false :=
        (Function.update_of_ne hne ..).trans hclient.2
      have hboth := hgiven.give (o := .clientPort i) (fun n hn => by cases hn)
        (Function.update s.waitHandles (1 + i) a.handle) a.clientPort a.res (.registerService (i + 1))
      have hclosed := hboth.takeAll [a.clientPort] (.registerService (i + 1))
      simp only [hglobal, if_true]
      exact hclosed.inv ⟨hclosed, hlt, (hport.give hout (.clientPort i)).take⟩
    · simp only [hglobal]
      exact hgiven.inv ⟨hgiven, hlt, hport⟩

/-- Behind the loop, commands and replies do not change. -/
theorem Inv.advance (h : Inv c s) (hp : s.phase.Finishing) (hfin : s'.phase.Finishing)
    (hn : s'.numActiveSessions = s.numActiveSessions) (ha : s'.accepted = s.accepted) (hm : s'.commands = s.commands)
    (hr : s'.replies = s.replies) (hphase : PhaseInv c s' s'.phase) : Inv c s' := by
  have hleft {p : Phase} (hp : p.Finishing) : p ≠ .receive := by
    rintro rfl
    exact hp
  constructor
  · exact hphase
  · rw [hn]
    exact h.inBounds
  · unfold Dispatched
    rw [hm, ha, show s'.session = s.session from funext (session_of_eq ha)]
    exact h.dispatched
  · have hanswered := h.answered
    rw [if_neg (hleft hp)] at hanswered
    rw [if_neg (hleft hfin), hm, hr, hanswered]
  · exact fun _ => hfin

theorem Inv.cleanup (h : Inv c s) (hp : s.phase = .cleanup) : Inv c (cleanup c s) := by
  have hphase := h.phase
  rw [hp] at hphase
  refine h.advance (by rw [hp]; trivial) trivial rfl rfl rfl rfl ?_
  rcases hphase with hs | ⟨order, hserving⟩
  · exact Or.inl (hs.takeAll _ _)
  · exact Or.inr ⟨order, hserving.cleanup⟩

theorem Inv.unsubscribe (h : Inv c s) {i : Nat} (hp : s.phase = .unsubscribe i)
    (hok : c.notifications[i]?.map needsSubscription = some true → rFailed a.res = false) :
    Inv c (unsubscribe c s a i) := by
  have hphase := h.phase
  rw [hp] at hphase
  have hfinishing : s.phase.Finishing := by
    rw [hp]
    trivial
  have hnext (res : Result) : Inv c { s with res := res, phase := .unsubscribe (i + 1) } := by
    refine h.advance hfinishing trivial rfl rfl rfl rfl ?_
    rcases hphase with hs | ⟨order, hclosing⟩
    · exact Or.inl (hs.congr rfl rfl rfl rfl rfl rfl rfl rfl)
    · exact Or.inr ⟨order, hclosing.closed, hclosing.contexts, hclosing.contextsGiven, hclosing.ctxs, hclosing.accepted⟩
  unfold ServiceManager.unsubscribe
  split
  · refine h.advance hfinishing trivial rfl rfl rfl rfl ?_
    rcases hphase with hs | ⟨order, hclosing⟩
    · exact hs.settled _
    · exact hclosing.settled _
  · next id hid =>
    split_ifs with hneeds
    · unfold tryResult
      rw [hok (by rw [hid, Option.map_some, hneeds])]
      exact hnext _
    · exact hnext s.res

theorem Inv.step (h : Inv c s) (hfew : c.numServices ≤ 256) (he : Enabled c s a) (ho : Orderly c s a) :
    Inv c (step c s a) := by
  unfold Enabled at he
  unfold Orderly at ho
  unfold ServiceManager.step
  rcases hp : s.phase with _ | i | i | _ | _ | i | res <;> rw [hp] at he ho
  · exact h.enableNotification hp he
  · exact h.subscribe hp
  · exact h.registerService hp he.1 he.2.1 he.2.2
  · exact h.receive hp hfew he ho
  · exact h.cleanup hp
  · exact h.unsubscribe hp ho
  · exact h

/-! ## Runs -/

theorem Starts.inv (h : Starts s) : Inv c s := by
  have hs : Sessionless s := by
    constructor
    · exact h.accepted
    · exact h.active
    · exact h.reply
    · intro n
      rw [h.handles]
      exact List.not_mem_nil
    · intro x n hx
      rw [h.handles] at hx
      cases hx
    · intro n
      rw [h.handles]
      exact List.not_mem_nil
    · exact h.contexts
    · exact h.commands
    · exact h.replies
    · exact h.termination
  refine hs.inv ?_
  rw [h.phase]
  refine ⟨hs, ?_⟩
  rw [h.handles]
  exact Ledger.keeps_empty

theorem reachable_inv (hfew : c.numServices ≤ 256) (hr : ((loop c).restrict (Orderly c)).Reachable s) : Inv c s := by
  refine hr.invariant (fun s (hs : Starts s) => hs.inv) ?_
  rintro s a s' - hinv ⟨horderly, henabled, hstep⟩
  obtain rfl := Option.some.inj hstep
  exact hinv.step hfew henabled horderly

/-- How many steps of the cleanup are left. -/
def Phase.left (c : Config) : Phase → Nat
  | .cleanup => c.notifications.length + 2
  | .unsubscribe i => c.notifications.length - i + 1
  | _ => 0

/-- Behind the loop, the function gets closer to its end as long as no subscription fails to be removed. -/
theorem finishing_step (hf : s.phase.Finishing) (ho : Orderly c s a) :
    (∃ res, s.phase = .returned res) ∨
      ((step c s a).phase.Finishing ∧ (step c s a).phase.left c < s.phase.left c) := by
  unfold Orderly at ho
  unfold ServiceManager.step
  rcases hp : s.phase with _ | i | i | _ | _ | i | res <;> rw [hp] at hf ho
  · exact hf.elim
  · exact hf.elim
  · exact hf.elim
  · exact hf.elim
  · exact Or.inr ⟨trivial, Nat.lt_succ_self _⟩
  · refine Or.inr ?_
    dsimp only
    unfold ServiceManager.unsubscribe
    split
    · exact ⟨trivial, Nat.succ_pos _⟩
    · next id hid =>
      have hlt := (List.getElem?_eq_some_iff.mp hid).1
      have hless : c.notifications.length - (i + 1) + 1 < c.notifications.length - i + 1 := by omega
      split_ifs with hneeds
      · unfold tryResult
        rw [ho (by rw [hid, Option.map_some, hneeds])]
        exact ⟨trivial, hless⟩
      · exact ⟨trivial, hless⟩
  · exact Or.inl ⟨res, rfl⟩

theorem returns : ∀ {left : Nat} {s : State} {ω : Nat → Answers}, s.phase.Finishing → s.phase.left c ≤ left →
    (∀ k, Orderly c (runs c s ω k) (ω k)) → ∃ k res, (runs c s ω k).phase = .returned res := by
  intro left
  induction left with
  | zero =>
    intro s ω hf hleft ho
    rcases finishing_step hf (ho 0) with ⟨res, hres⟩ | ⟨-, hlt⟩
    · exact ⟨0, res, hres⟩
    · exact absurd hlt (by omega)
  | succ left ih =>
    intro s ω hf hleft ho
    rcases finishing_step hf (ho 0) with ⟨res, hres⟩ | ⟨hf', hlt⟩
    · exact ⟨0, res, hres⟩
    · obtain ⟨k, res, hres⟩ := ih (ω := fun j => ω (j + 1)) hf' (by omega) fun k => ho (k + 1)
      exact ⟨k + 1, res, hres⟩

theorem PhaseInv.once {p : Phase} (h : PhaseInv c s p) (n : Nat) :
    s.handles.returned.count (.session n) ≤ 1 ∧ s.contexts.returned.count n ≤ 1 := by
  have hsessionless (hs : Sessionless s) :
      s.handles.returned.count (.session n) ≤ 1 ∧ s.contexts.returned.count n ≤ 1 := by
    rw [List.count_eq_zero.mpr (hs.returned n), hs.contexts]
    exact ⟨Nat.zero_le _, Nat.zero_le _⟩
  have hcontexts {order : List Nat} (hk : s.contexts.Keeps (heldContexts c s order))
      (hg : ∀ n, s.contexts.given.count n = if c.allocator = true ∧ n < s.accepted.length then 1 else 0) :
      s.contexts.returned.count n ≤ 1 := by
    have hcount := hk.count n
    rw [hg] at hcount
    split_ifs at hcount <;> omega
  have hserving {order : List Nat} (hs : Serving c s order) :
      s.handles.returned.count (.session n) ≤ 1 ∧ s.contexts.returned.count n ≤ 1 := by
    refine ⟨?_, hcontexts hs.contexts hs.contextsGiven⟩
    have hcount := hs.handles.count (Object.session n)
    rw [hs.given] at hcount
    split_ifs at hcount <;> omega
  rcases p with _ | i | i | _ | _ | i | res
  · exact hsessionless h.1
  · exact hsessionless h.1
  · exact hsessionless h.1
  · obtain ⟨order, hs, -⟩ := h
    exact hserving hs
  · rcases h with hs | ⟨order, hs⟩
    · exact hsessionless hs
    · exact hserving hs
  · rcases h with hs | ⟨order, hs⟩
    · exact hsessionless hs
    · refine ⟨?_, hcontexts hs.contexts hs.contextsGiven⟩
      rw [hs.closed]
      split_ifs <;> omega
  · rw [h.closed, h.freed]
    constructor
    · split_ifs <;> omega
    · split_ifs <;> omega

theorem Inv.served (h : Inv c s) : Served c s where
  described hp := by
    have hphase := h.phase
    rw [hp] at hphase
    obtain ⟨order, hs, -⟩ := hphase
    exact ⟨order, hs.tabled, hs.nodup, fun n => hs.mem_iff⟩
  inBounds := h.inBounds
  once := h.phase.once
  settled res hp n hn := by
    have hphase := h.phase
    rw [hp] at hphase
    refine ⟨by rw [hphase.closed, if_pos hn], ?_⟩
    rw [hphase.freed]
    simp [hn]
  dispatched := h.dispatched
  answered := h.answered

/-- As long as no subscription fails to be removed and the loop is not left while sessions are open, the
sessions are served, and after a termination request the function returns. -/
theorem serviceManager_serves (c : Config) (hfew : c.numServices ≤ 256) (s : State)
    (hr : ((loop c).restrict (Orderly c)).Reachable s) :
    Served c s ∧ (s.terminationRequested = true → ∀ ω : Nat → Answers, (∀ k, Orderly c (runs c s ω k) (ω k)) →
      ∃ k res, (runs c s ω k).phase = .returned res) := by
  have hinv := reachable_inv hfew hr
  exact ⟨hinv.served, fun ht ω ho => returns (hinv.termination ht) le_rfl ho⟩

end

/-! ## Cleanups that begin again -/

section

variable {c : Config} {s : State} {order : List Nat} {n : Nat}

/-- Without subscriptions, as in loader, a cleanup does not begin again. -/
theorem orderly_of_unsubscribed (hnone : ∀ id ∈ c.notifications, needsSubscription id = false) {a : Answers}
    (hf : s.phase.Finishing) : Orderly c s a := by
  unfold Orderly
  rcases hp : s.phase with _ | i | i | _ | _ | i | res <;> rw [hp] at hf
  · exact hf.elim
  · exact hf.elim
  · exact hf.elim
  · exact hf.elim
  · trivial
  · intro hneeds
    obtain ⟨id, hid, hneeds⟩ := Option.map_eq_some_iff.mp hneeds
    rw [hnone id (List.mem_of_getElem? hid)] at hneeds
    cases hneeds
  · trivial

example {s : State} {a : Answers} (hf : s.phase.Finishing) : Orderly loaderConfig s a :=
  orderly_of_unsubscribed (List.forall_mem_nil _) hf

/-- A subscription that cannot be removed keeps the function from returning. -/
theorem never_returns {j : Nat} (hj : c.notifications[j]?.map needsSubscription = some true) (k : Nat) :
    ∀ {s : State} {ω : Nat → Answers}, (s.phase = .cleanup ∨ ∃ i ≤ j, s.phase = .unsubscribe i) →
      (∀ k, rFailed (ω k).res = true) → ∀ res, (runs c s ω k).phase ≠ .returned res := by
  obtain ⟨id, hid, hneeds⟩ := Option.map_eq_some_iff.mp hj
  have hlen : j < c.notifications.length := (List.getElem?_eq_some_iff.mp hid).1
  induction k with
  | zero =>
    rintro s ω (hp | ⟨i, -, hp⟩) - res hres
    · cases hp.symm.trans hres
    · cases hp.symm.trans hres
  | succ k ih =>
    intro s ω hp hfail
    refine ih ?_ fun k => hfail (k + 1)
    unfold step
    rcases hp with hp | ⟨i, hi, hp⟩
    · rw [hp]
      exact Or.inr ⟨0, Nat.zero_le j, rfl⟩
    · rw [hp]
      dsimp only
      unfold unsubscribe
      rw [List.getElem?_eq_getElem (by omega)]
      dsimp only
      split_ifs with hother
      · unfold tryResult
        rw [if_pos (hfail 0)]
        exact Or.inl rfl
      · -- the subscription that fails is still to come
        refine Or.inr ⟨i + 1, ?_, rfl⟩
        rcases Nat.lt_or_eq_of_le hi with hlt | rfl
        · exact hlt
        · obtain ⟨_, rfl⟩ := List.getElem?_eq_some_iff.mp hid
          exact absurd hneeds hother

/-- When the cleanup begins again, every session that was open is closed a second time. -/
theorem closed_again (h : Serving c s order) (hn : n ∈ order) (res : Result) :
    (cleanup c { cleanup c s with res := res, phase := .cleanup }).handles.returned.count (.session n) = 2 := by
  have hmem := h.mem_iff.mp hn
  have hfirst : (cleanup c s).handles.returned =
      s.handles.returned ++ (waitedFor c s).flatMap fun x => (s.handles.owner x).toList :=
    Ledger.foldl_take_returned _ _
  have hsecond : (cleanup c { cleanup c s with res := res, phase := .cleanup }).handles.returned =
      (cleanup c s).handles.returned ++ (waitedFor c s).flatMap fun x => (s.handles.owner x).toList := by
    -- the handles are still there, and they are still known
    have howner : (cleanup c s).handles.owner = s.handles.owner := Ledger.foldl_take_owner _ _
    rw [← howner]
    exact Ledger.foldl_take_returned _ _
  have hone := h.cleanup.closed n
  rw [show (cleanup c s).accepted = s.accepted from rfl, if_pos hmem.1, hfirst, List.count_append,
    List.count_eq_zero.mpr hmem.2, Nat.zero_add] at hone
  rw [hsecond, hfirst, List.count_append, List.count_append, List.count_eq_zero.mpr hmem.2, hone]

end

/-! ## Example runs -/

def started : State :=
  ⟨.enableNotification, fun _ => 0, fun _ => 0, fun _ => 0, 0, 0, false, 0, .empty, .empty, [], [], [], []⟩

theorem started_starts : Starts started := ⟨rfl, rfl, rfl, rfl, rfl, rfl, rfl, rfl, rfl⟩

/-- Every call succeeds, and nothing else is reported. -/
def succeeds : Answers := ⟨0, 0, 0, 0, 0, 0, 0⟩

/-- The set-up of two services with one subscription. -/
def setUpAnswers : List Answers :=
  [{ succeeds with handle := 1 }, succeeds, succeeds, { succeeds with handle := 2, clientPort := 9 },
    { succeeds with handle := 3, clientPort := 9 }, { succeeds with handle := 4, clientPort := 9 }]

/-- Two sessions with contexts; the client of the second one closes it instead of waiting for the reply. -/
def pendingClosed : List Answers :=
  setUpAnswers ++
    [{ succeeds with id := 1, handle := 5, ctx := 50 }, { succeeds with id := 2, handle := 6, ctx := 60 },
      { succeeds with id := 4 }, { succeeds with res := sessionClosedByRemote, id := -1 }, { succeeds with id := 3 },
      { succeeds with id := 0, notificationId := 0x100 }]

def contextConfig : Config := ⟨[⟨2, false⟩, ⟨1, true⟩], [0x3000], true⟩

theorem pendingClosed_served : ∃ s : State, s.terminationRequested = true ∧ s.accepted.length = 2 ∧
    s.handles.returned = [.clientPort 1, .session 1] ∧ Served contextConfig s ∧
    ∀ ω : Nat → Answers, (∀ k, Orderly contextConfig (runs contextConfig s ω k) (ω k)) →
      ∃ k res, (runs contextConfig s ω k).phase = .returned res := by
  have hrun : (System.guardedRun (fun s a => Orderly contextConfig s a ∧ Enabled contextConfig s a)
      (fun s a => some (step contextConfig s a)) started pendingClosed).any
        (fun s => s.terminationRequested = true ∧ s.accepted.length = 2 ∧
          s.handles.returned = [.clientPort 1, .session 1]) = true := by decide +kernel
  obtain ⟨s, hs, hprop⟩ := (Option.any_eq_true _ _).mp hrun
  obtain ⟨hterm, haccepted, hreturned⟩ := of_decide_eq_true hprop
  have hinit : ((loop contextConfig).restrict (Orderly contextConfig)).Reachable started := .init started_starts
  have hserves := serviceManager_serves contextConfig (by decide) s (hinit.restrict_guardedRun hs)
  exact ⟨s, hterm, haccepted, hreturned, hserves.1, hserves.2 hterm⟩

/-- A session of pm is open when it is asked to terminate, and the subscription cannot be removed. -/
def openAtTermination : List Answers :=
  setUpAnswers ++
    [{ succeeds with id := 2, handle := 5 }, { succeeds with id := 0, notificationId := 0x100 }, succeeds,
      { succeeds with res := 0xD8806404 }, succeeds]

/-- The cleanup has begun again, and the session has been closed twice. -/
theorem cleanup_not_once : ¬ ∀ (c : Config) (s : State), (loop c).Reachable s →
    Served c s ∧ (s.terminationRequested = true →
      ∀ ω : Nat → Answers, ∃ k res, (runs c s ω k).phase = .returned res) := by
  intro hclaim
  have hrun : (System.guardedRun (Enabled pmConfig) (fun s a => some (step pmConfig s a)) started openAtTermination).any
      (fun s => s.terminationRequested = true ∧ s.phase = .unsubscribe 0 ∧
        s.handles.returned.count (.session 0) = 2) = true := by decide +kernel
  obtain ⟨s, hs, hprop⟩ := (Option.any_eq_true _ _).mp hrun
  obtain ⟨-, -, htwice⟩ := of_decide_eq_true hprop
  have hinit : (loop pmConfig).Reachable started := .init started_starts
  obtain ⟨hserved, -⟩ := hclaim pmConfig s (hinit.guardedRun hs)
  have honce := (hserved.once 0).1
  rw [htwice] at honce
  omega

end Omiiba.Loader.ServiceManager
