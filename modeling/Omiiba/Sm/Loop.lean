/-
The main loop step by step: what `svcReplyAndReceive` leaves, the few kinds of iteration there are,
and the invariant of the loop, which every iteration that does not panic keeps.
-/
import Omiiba.Sm.Main
import Omiiba.Sm.Owned

namespace Omiiba.Sm

/-! ## The kinds of iteration -/

section

variable {g : Globals} {s s' : State} {i : Input}

@[simp] theorem received_sessionDataPool : (received g s i).sessionDataPool = s.sessionDataPool := rfl

@[simp] theorem received_sessionLists : (received g s i).sessionLists = s.sessionLists := rfl

@[simp] theorem received_history : (received g s i).history = s.history := rfl

@[simp] theorem received_servicesInfo : (received g s i).servicesInfo = s.servicesInfo := rfl

@[simp] theorem received_handleOf : (received g s i).handleOf = s.handleOf := rfl

theorem received_cmdbuf : (received g s i).cmdbuf =
    (messageOf s i).getD (if s.replyTarget = 0 then s.cmdbuf.set 0 0xFFFF0000 else s.cmdbuf) := rfl

/-- The handle at an index among the sessions is that of a session in use. -/
theorem handles_session {id : Nat} (h1 : 3 ≤ id) (h2 : id < 3 + s.nbSessions) :
    ∃ a ∈ s.sessionLists .inUse, (s.handles g).getD id 0 = s.handleOf a := by
  unfold State.nbSessions at h2
  have hlt : id - 3 < (s.sessionLists .inUse).length := by omega
  refine ⟨(s.sessionLists .inUse)[id - 3], List.getElem_mem hlt, ?_⟩
  unfold State.handles
  rw [List.getD_eq_getElem?_getD, List.append_assoc, List.getElem?_append_right (by simpa using h1),
    List.getElem?_append_left (by simpa [State.sessionHandles] using hlt)]
  simp [State.sessionHandles, State.handleOf, hlt]

theorem takesToken_iff : takesToken i = true ↔ ∃ message, i.received = .signalled 0 message := by
  unfold takesToken
  split
  · next m hr => exact ⟨fun _ => ⟨m, hr⟩, fun _ => rfl⟩
  · next hr => exact ⟨nofun, fun ⟨m, hm⟩ => (hr m hm).elim⟩

theorem takesToken_unreachable {id : Int} (h : i.received = .unreachable id) : takesToken i = false := by
  unfold takesToken
  rw [h]

theorem takesToken_signalled {id : Nat} {message : Words} (h : i.received = .signalled id message) (h0 : id ≠ 0) :
    takesToken i = false := by
  refine Bool.eq_false_iff.2 fun ht => ?_
  obtain ⟨m, hm⟩ := takesToken_iff.1 ht
  rw [h] at hm
  cases hm
  exact h0 rfl

/-- How a session is selected, and the state its command is handled in. -/
inductive Selected (g : Globals) (s : State) (i : Input) (a : Nat) : State → Prop
  | woken (rest : List Nat) (takes : takesToken i = true) (message_eq : messageOf s i = none)
      (first : s.sessionLists .toWakeUpAfterServiceOrPortRegister = a :: rest) : Selected g s i a
        ({ received g s i with history := { s.history with resumed := s.history.resumed ++ [a] } }.resume a)
  | port (takes : takesToken i = false) (message_eq : messageOf s i = none)
      (waiting : a ∈ s.sessionLists .waitingPortReady) : Selected g s i a
      (((received g s i).resume a).setSession a { s.sessionDataPool a with busyClientPortHandle := 0 })
  | command (message : Words) (takes : takesToken i = false) (inUse : a ∈ s.sessionLists .inUse)
      (message_eq : messageOf s i = some message) : Selected g s i a
        { received g s i with
          history := { s.history with sent := fun b => if b = a then message else s.history.sent b } }

/-- The session whose command the iteration handles, and the state it is handled in. -/
def selection (g : Globals) (s : State) (i : Input) : Option (Nat × State) :=
  match i.received with
  | .signalled id _ =>
    if id = 1 ∨ id = 2 then none
    else
      match select (received g s i) (s.handles g) id with
      | .ok r => r
      | .error _ => none
  | _ => none

/-- The index of the handle whose other end was closed. -/
def closedAt (g : Globals) (s : State) (i : Input) : Option Nat :=
  match i.received with
  | .unreachable id => resolveId (s.handles g) s.replyTarget id
  | _ => none

theorem selection_some {a : Nat} {ready : State} (h : selection g s i = some (a, ready)) :
    ∃ id message, i.received = .signalled id message ∧ (id ≠ 1 ∧ id ≠ 2) ∧
      select (received g s i) (s.handles g) id = .ok (some (a, ready)) := by
  unfold selection at h
  split at h
  · next id message hr =>
    split at h
    · cases h
    · next hid =>
      split at h
      · next r hsel => exact ⟨id, message, hr, not_or.1 hid, h ▸ hsel⟩
      · cases h
  · cases h

theorem selected {a : Nat} {ready : State} (hs : selection g s i = some (a, ready)) : Selected g s i a ready := by
  obtain ⟨id, message, hr, hp, h⟩ := selection_some hs
  unfold select at h
  split at h
  · next h0 =>
    subst h0
    obtain ⟨r, hw, he⟩ := map_eq_ok.1 h
    cases he
    unfold resumeWoken at hw
    split at hw
    · cases hw
    · next b hb =>
      cases hw
      obtain ⟨rest, hrest⟩ := List.head?_eq_some_iff.1 hb
      refine .woken rest (takesToken_iff.2 ⟨message, hr⟩) ?_ hrest
      unfold messageOf
      rw [hr]; rfl
  next h0 =>
  have ht := takesToken_signalled hr h0
  split at h
  · next hn =>
    obtain ⟨b, hb, he⟩ := Option.map_eq_some_iff.1 (Except.ok.inj h)
    cases he
    refine .port ht ?_ (List.mem_of_find?_eq_some hb)
    unfold messageOf
    rw [hr]
    exact if_neg fun hid => Nat.not_lt.2 hn hid.2
  · next hn =>
    obtain ⟨r, hw, he⟩ := map_eq_ok.1 h
    cases he
    unfold command at hw
    split at hw
    · cases hw
    · next b hb =>
      have hm : messageOf s i = some message := by
        unfold messageOf
        rw [hr]
        exact if_pos ⟨by omega, Nat.lt_of_not_le hn⟩
      obtain rfl : message = (received g s i).cmdbuf := by rw [received_cmdbuf, hm]; rfl
      cases hw
      exact .command _ ht (List.mem_of_find?_eq_some hb) hm

/-- What an iteration that does not panic was. -/
inductive Iteration (g : Globals) (s : State) (i : Input) : State → Prop
  | sessionClosed (n a : Nat) (s' : State) (at_n : closedAt g s i = some n) (range : n < 3 + s.nbSessions)
      (takes : takesToken i = false) (inUse : a ∈ s.sessionLists .inUse)
      (handle : (s.handles g).getD n 0 = s.handleOf a)
      (closed : sessionClosed (received g s i) (s.handleOf a) = .ok s') : Iteration g s i s'
  | portClosed (n : Nat) (at_n : closedAt g s i = some n) (range : 3 + s.nbSessions ≤ n) (takes : takesToken i = false) :
      Iteration g s i
        (portClosedLoop ((s.handles g).getD n 0) (s.sessionLists .waitingPortReady) (received g s i))
  | newSession (isSrvPm : Bool) (s' : State) (open_ : closedAt g s i = none) (none : selection g s i = none)
      (takes : takesToken i = false) (new : newSession i.sys (received g s i) isSrvPm = .ok s') : Iteration g s i s'
  | ignored (open_ : closedAt g s i = none) (none : selection g s i = none) (takes : takesToken i = false) :
      Iteration g s i (received g s i)
  | served (a : Nat) (ready s' : State) (open_ : closedAt g s i = none) (some : selection g s i = some (a, ready))
      (served : serve g i.sys ready a = .ok s') : Iteration g s i s'

theorem iteration (h : iterate g s i = .ok s') : Iteration g s i s' := by
  unfold iterate at h
  dsimp only at h
  split at h
  · cases h
  · next id hr =>
    split at h
    · cases h
    · next n hn =>
      have hat : closedAt g s i = some n := by
        unfold closedAt
        rw [hr]
        exact hn
      have ht : takesToken i = false := takesToken_unreachable hr
      split at h
      · cases h
      · next h3 =>
        split at h
        · next hs =>
          obtain ⟨a, ha, heq⟩ := handles_session (g := g) (Nat.le_of_not_lt h3) hs
          rw [heq] at h
          exact .sessionClosed n a s' hat hs ht ha heq h
        · next hs =>
          cases h
          exact .portClosed n hat (Nat.le_of_not_lt hs) ht
  · next id message hr =>
    have hat : closedAt g s i = none := by
      unfold closedAt
      rw [hr]
    have hsel : selection g s i = if id = 1 ∨ id = 2 then none else
        match select (received g s i) (s.handles g) id with
        | .ok r => r
        | .error _ => none := by
      unfold selection
      rw [hr]
    split at h
    · next h1 => exact .newSession false s' hat (by rw [hsel, if_pos (.inl h1)]) (takesToken_signalled hr (by omega)) h
    next h1 =>
    split at h
    · next h2 => exact .newSession true s' hat (by rw [hsel, if_pos (.inr h2)]) (takesToken_signalled hr (by omega)) h
    next h2 =>
    rw [if_neg (not_or.2 ⟨h1, h2⟩)] at hsel
    split at h
    · cases h
    · next hnone =>
      rw [hnone] at hsel
      cases h
      refine .ignored hat hsel (takesToken_signalled hr ?_)
      rintro rfl
      obtain ⟨r, -, he⟩ := map_eq_ok.1 hnone
      cases he
    · next a ready hsome =>
      rw [hsome] at hsel
      exact .served a ready s' hat hsel h

/-! ## What `svcReplyAndReceive` does to the handle table -/

/-- The same handles refer to the same objects, but for the counts of semaphores. -/
structure SameHandles (k k' : Kernel) : Prop where
  kept : ∀ h o, k h = some o → ∃ o', k' h = some o' ∧ SameKind o o'
  closed : ∀ h, k h = none → k' h = none

namespace SameHandles

theorem acquire (k : Kernel) (h : Handle) : SameHandles k (k.acquire h) := by
  refine ⟨fun x o hx => ?_, fun x hx => ?_⟩
  · rcases k.acquire_apply h x with heq | ⟨c, m, hc, heq⟩
    · exact ⟨o, heq.trans hx, .refl o⟩
    · rw [hc] at hx
      cases hx
      exact ⟨_, heq, .semaphore ..⟩
  · rcases k.acquire_apply h x with heq | ⟨c, m, hc, -⟩
    · exact heq.trans hx
    · rw [hc] at hx; cases hx

theorem trans {k k' k'' : Kernel} (h1 : SameHandles k k') (h2 : SameHandles k' k'') : SameHandles k k'' := by
  refine ⟨fun x o hx => ?_, fun x hx => h2.closed x (h1.closed x hx)⟩
  obtain ⟨o', ho', hs⟩ := h1.kept x o hx
  obtain ⟨o'', ho'', hs'⟩ := h2.kept x o' ho'
  refine ⟨o'', ho'', ?_⟩
  cases hs with
  | refl => exact hs'
  | semaphore c c' m => cases hs' <;> exact .semaphore ..

theorem foldl_acquire (k : Kernel) (hs : List Handle) : SameHandles k (hs.foldl Kernel.acquire k) := by
  induction hs generalizing k with
  | nil => exact ⟨fun _ o ho => ⟨o, ho, .refl o⟩, fun _ => id⟩
  | cons h hs ih => exact (acquire k h).trans (ih _)

variable {k k' : Kernel}

theorem evolves (h : SameHandles k k') : Evolves k k' := ⟨fun x o hx => .inl (h.kept x o hx), h.closed 0⟩

theorem keeps (h : SameHandles k k') : Keeps k k' := by
  intro x hx
  obtain ⟨o, ho⟩ := Option.ne_none_iff_exists'.1 hx
  obtain ⟨o', ho', -⟩ := h.kept x o ho
  rw [ho']
  exact Option.some_ne_none _

theorem owned (h : SameHandles s.kernel k') (ho : Owned g s) : Owned g { s with kernel := k' } :=
  ⟨h.evolves.base ho.base, ho.services.keeps h.evolves h.keeps, ho.processes.keeps h.evolves h.keeps,
    ho.sessions.evolves h.evolves⟩

end SameHandles

/-- The handle table after what was acquired, before the message. -/
def acquiredKernel (g : Globals) (s : State) (i : Input) : Kernel :=
  let kernel := i.acquired.foldl Kernel.acquire s.kernel
  if takesToken i then kernel.acquire g.resumeGetServiceHandleOrPortRegisteredSemaphore else kernel

theorem sameHandles_acquiredKernel (g : Globals) (s : State) (i : Input) :
    SameHandles s.kernel (acquiredKernel g s i) := by
  unfold acquiredKernel
  dsimp only
  split
  · exact (SameHandles.foldl_acquire ..).trans (.acquire ..)
  · exact .foldl_acquire ..

theorem messageOf_some {message : Words} (h : messageOf s i = some message) :
    ∃ id, i.received = .signalled id message ∧ 3 ≤ id ∧ id < 3 + s.nbSessions := by
  unfold messageOf at h
  split at h
  · next id m hr =>
    split at h
    · next hid => cases h; exact ⟨id, hr, hid⟩
    · cases h
  · cases h

/-- A message opens at most one new handle. -/
theorem received_kernel (hk : KernelOk g s i) :
    (received g s i).kernel = acquiredKernel g s i ∨
    ∃ message h, messageOf s i = some message ∧ firstShared message = some h ∧ h ≠ 0 ∧
      s.kernel h = none ∧ (received g s i).kernel = (acquiredKernel g s i).opened h .received := by
  unfold received svcReplyAndReceive acquiredKernel
  dsimp only
  by_cases ht : takesToken i = true
  · rw [if_pos ht, if_pos ht]
    exact .inl rfl
  · rw [if_neg ht, if_neg ht]
    rcases hm : messageOf s i with - | message
    · exact .inl rfl
    rcases hf : firstShared message with - | h
    · left; simp [hf]
    · by_cases h0 : h = 0
      · left; simp [hf, h0]
      · obtain ⟨id, hr, -⟩ := messageOf_some hm
        right
        exact ⟨message, h, rfl, hf, h0, hk.shared id message h hr hf h0, by simp [hf, h0]⟩

theorem received_owned (ho : Owned g s) (hk : KernelOk g s i) : Owned g (received g s i) := by
  have hs := sameHandles_acquiredKernel g s i
  have ha := hs.owned ho
  rcases received_kernel hk with heq | ⟨message, h, -, -, h0, hn, heq⟩
  · exact ⟨heq ▸ ha.base, heq ▸ ha.services, heq ▸ ha.processes, heq ▸ ha.sessions⟩
  · have hb := ha.opened ⟨h0, hs.closed h hn⟩ .received
    exact ⟨heq ▸ hb.base, heq ▸ hb.services, heq ▸ hb.processes, heq ▸ hb.sessions⟩

/-- What is no semaphore is untouched. -/
theorem received_kept (hk : KernelOk g s i) {h : Handle} {o : KObject} (hh : s.kernel h = some o)
    (ho : ∀ c m, o ≠ .semaphore c m) : (received g s i).kernel h = some o := by
  have hs : acquiredKernel g s i h = some o := by
    obtain ⟨o', ho', hsame⟩ := (sameHandles_acquiredKernel g s i).kept h o hh
    cases hsame with
    | refl => exact ho'
    | semaphore c c' m => exact absurd rfl (ho c m)
  rcases received_kernel hk with heq | ⟨message, x, -, -, h0, hn, heq⟩
  · rw [heq, hs]
  · rw [heq, Kernel.opened_ne _ _ (by rintro rfl; rw [hn] at hh; cases hh), hs]

/-- Only the iteration that takes a token changes the count. -/
theorem received_count (ho : Owned g s) (hk : KernelOk g s i) :
    (received g s i).kernel.count g.resumeGetServiceHandleOrPortRegisteredSemaphore =
      s.kernel.count g.resumeGetServiceHandleOrPortRegisteredSemaphore - if takesToken i then 1 else 0 := by
  obtain ⟨c, hc⟩ := ho.base.semaphore
  have hother : ∀ (hs : List Handle) (k : Kernel), g.resumeGetServiceHandleOrPortRegisteredSemaphore ∉ hs →
      hs.foldl Kernel.acquire k g.resumeGetServiceHandleOrPortRegisteredSemaphore =
        k g.resumeGetServiceHandleOrPortRegisteredSemaphore := by
    intro hs
    induction hs with
    | nil => exact fun _ _ => rfl
    | cons h hs ih =>
      intro k hn
      obtain ⟨hne, hn⟩ := not_or.1 (mt List.mem_cons.2 hn)
      exact (ih _ hn).trans (Kernel.acquire_ne k hne)
  have hacq : acquiredKernel g s i g.resumeGetServiceHandleOrPortRegisteredSemaphore =
      some (.semaphore (c - if takesToken i then 1 else 0) 64) := by
    have hfold := (hother _ s.kernel hk.acquired).trans hc
    unfold acquiredKernel
    split
    · exact Kernel.acquire_semaphore hfold
    · exact hfold
  unfold Kernel.count
  rcases received_kernel hk with heq | ⟨message, x, -, -, h0, hn, heq⟩
  · rw [heq, hacq, hc]
  · rw [heq, Kernel.opened_ne _ _ (by rintro rfl; rw [hn] at hc; cases hc), hacq, hc]

/-! ## The invariant of the loop -/

/-- What holds wherever no token is being handed over: there is one for each session of the wake-up
list, that list is what was woken and not resumed yet, and parked requests can be postponed. -/
structure Settled (g : Globals) (s : State) : Prop where
  owned : Owned g s
  tokens : s.kernel.count g.resumeGetServiceHandleOrPortRegisteredSemaphore =
    (s.sessionLists .toWakeUpAfterServiceOrPortRegister).length
  woken : s.history.woken = s.history.resumed ++ s.sessionLists .toWakeUpAfterServiceOrPortRegister
  requests : ∀ a, Parked s.sessionLists a →
    ((s.sessionDataPool a).replayCmdbuf 0 >>> 16).toNat = 5 ∨ ((s.sessionDataPool a).replayCmdbuf 0 >>> 16).toNat = 8

/-- The invariant at the head of the loop. A session that is in use may have lost its handle, which
the kernel notices. -/
structure LoopInv (g : Globals) (s : State) : Prop extends Settled g s where
  inUse : ∀ a ∈ s.sessionLists .inUse, s.kernel (s.handleOf a) = some .session ∨ s.kernel (s.handleOf a) = none

/-- The state a command of session `a` is handled in. -/
structure Ready (g : Globals) (s : State) (a : Nat) : Prop extends Settled g s where
  inUseOpen : InUseOpen s
  session : a ∈ s.sessionLists .inUse
  command : CommandOk s

theorem InUseOpen.loop (hs : Settled g s) (hu : InUseOpen s) : LoopInv g s := ⟨hs, fun a ha => .inl (hu a ha)⟩

/-- An iteration that does not panic began with every session in use open. -/
theorem LoopInv.inUseOpen (hinv : LoopInv g s) (hk : KernelOk g s i) (hf : ∀ res, i.received ≠ .failed res) :
    InUseOpen s := by
  intro a ha
  have hin : s.handleOf a ∈ s.handles g := by
    unfold State.handles State.sessionHandles
    simp only [List.mem_append, List.mem_map]
    exact .inl (.inr ⟨a, ha, rfl⟩)
  refine (hinv.inUse a ha).resolve_right fun hn => ?_
  obtain ⟨res, hres⟩ := hk.closed ⟨_, hin, hn⟩
  exact hf res hres

end

/-! ## Moving a session -/

section

variable {k : Kernel} {handle : Nat → Handle} {lists : Lanes SessionList Nat} {a b : Nat} {dst : SessionList} {back : Bool}

theorem live_move (hwf : lists.WF) (h : Live (lists.move a dst back) b) :
    (b = a ∧ dst ≠ .free) ∨ (b ≠ a ∧ Live lists b) := by
  obtain ⟨l, hl, hb⟩ := h
  rcases (Lanes.mem_move hwf).1 hb with ⟨rfl, rfl⟩ | ⟨hne, hb⟩
  · exact .inl ⟨rfl, hl⟩
  · exact .inr ⟨hne, l, hl, hb⟩

theorem parked_move (hwf : lists.WF) (h : Parked (lists.move a dst back) b) :
    (b = a ∧ dst ≠ .free ∧ dst ≠ .inUse) ∨ (b ≠ a ∧ Parked lists b) := by
  obtain ⟨l, hl, hu, hb⟩ := h
  rcases (Lanes.mem_move hwf).1 hb with ⟨rfl, rfl⟩ | ⟨hne, hb⟩
  · exact .inl ⟨rfl, hl, hu⟩
  · exact .inr ⟨hne, l, hl, hu, hb⟩

theorem Parked.live (h : Parked lists a) : Live lists a := by
  obtain ⟨l, hf, -, ha⟩ := h
  exact ⟨l, hf, ha⟩

/-- A live session that is open can be moved to any list. -/
theorem SessionsOwned.move (h : SessionsOwned k handle lists) (hlive : Live lists a)
    (hopen : k (handle a) = some .session) (dst : SessionList) (back : Bool) :
    SessionsOwned k handle (lists.move a dst back) := by
  have hbefore : ∀ b, Live (lists.move a dst back) b → Live lists b := by
    intro b hb
    rcases live_move h.wf hb with ⟨rfl, -⟩ | ⟨-, hb⟩
    · exact hlive
    · exact hb
  refine ⟨h.wf.move a dst back, fun b => ?_, fun b hb => ?_, fun b b' hb hb' => h.distinct b b' (hbefore b hb) (hbefore b' hb')⟩
  · obtain ⟨l, -, ha⟩ := hlive
    exact (Lanes.exists_mem_move ⟨l, ha⟩).trans (h.covers b)
  · rcases parked_move h.wf hb with ⟨rfl, -⟩ | ⟨-, hb⟩
    · exact hopen
    · exact h.parked b hb

/-- Freeing: a free element stays one. -/
theorem SessionsOwned.freed (h : SessionsOwned k handle lists) (ha : a < poolSize) {k' : Kernel}
    (hk : ∀ b, Parked lists b → b ≠ a → k' (handle b) = some .session) :
    SessionsOwned k' handle (lists.move a .free back) := by
  refine ⟨h.wf.move a _ back, fun b => ?_, fun b hb => ?_, fun b b' hb hb' => ?_⟩
  · exact (Lanes.exists_mem_move ((h.covers a).2 ha)).trans (h.covers b)
  · rcases parked_move h.wf hb with ⟨-, hf, -⟩ | ⟨hne, hb⟩
    · exact absurd rfl hf
    · exact hk b hb hne
  · rcases live_move h.wf hb with ⟨-, hf⟩ | ⟨-, hb⟩
    · exact absurd rfl hf
    rcases live_move h.wf hb' with ⟨-, hf⟩ | ⟨-, hb'⟩
    · exact absurd rfl hf
    exact h.distinct b b' hb hb'

/-- A free element gets a new handle and is put in use. -/
theorem SessionsOwned.accepted (h : SessionsOwned k handle lists) (ha : a ∈ lists .free) {x : Handle} (hx : k x = none)
    (hopen : ∀ b ∈ lists .inUse, k (handle b) = some .session) :
    SessionsOwned (k.opened x .session) (fun b => if b = a then x else handle b) (lists.move a .inUse false) := by
  have hlive : ∀ b, Live lists b → k (handle b) = some .session := by
    rintro b ⟨l, hl, hb⟩
    by_cases hu : l = .inUse
    · exact hopen b (hu ▸ hb)
    · exact h.parked b ⟨l, hl, hu, hb⟩
  have hnew : ∀ b, Live lists b → handle b ≠ x := by
    rintro b hb rfl
    rw [hlive b hb] at hx
    cases hx
  refine ⟨h.wf.move a _ _, fun b => (Lanes.exists_mem_move ⟨_, ha⟩).trans (h.covers b), fun b hb => ?_,
    fun b b' hb hb' heq => ?_⟩
  · rcases parked_move h.wf hb with ⟨-, -, hf⟩ | ⟨hne, hb⟩
    · exact absurd rfl hf
    · rw [if_neg hne, Kernel.opened_ne _ _ (hnew b hb.live)]
      exact h.parked b hb
  · rcases live_move h.wf hb with ⟨rfl, -⟩ | ⟨hne, hl⟩ <;> rcases live_move h.wf hb' with ⟨rfl, -⟩ | ⟨hne', hl'⟩
    · rfl
    · rw [if_pos rfl, if_neg hne'] at heq
      exact absurd heq.symm (hnew b' hl')
    · rw [if_pos rfl, if_neg hne] at heq
      exact absurd heq (hnew b hl)
    · rw [if_neg hne, if_neg hne'] at heq
      exact h.distinct b b' hl hl' heq

end

/-! ## What one iteration keeps -/

section

variable {g : Globals} {s s' : State} {i : Input} {a : Nat}

theorem received_inUseOpen (hu : InUseOpen s) (hk : KernelOk g s i) : InUseOpen (received g s i) :=
  fun a ha => received_kept hk (hu a ha) nofun

/-- A parked session is put back in use. -/
theorem Owned.resume (ho : Owned g s) (ha : Parked s.sessionLists a) : Owned g (s.resume a) :=
  ⟨ho.base, ho.services, ho.processes, ho.sessions.move ha.live (ho.sessions.parked a ha) .inUse false⟩

theorem InUseOpen.resume (hu : InUseOpen s) (ho : Owned g s) (ha : Parked s.sessionLists a) : InUseOpen (s.resume a) := by
  intro b hb
  rcases (Lanes.mem_move ho.sessions.wf).1 hb with ⟨rfl, -⟩ | ⟨-, hb⟩
  · exact ho.sessions.parked b ha
  · exact hu b hb

theorem mem_resume (s : State) (a : Nat) : a ∈ (s.resume a).sessionLists .inUse := Lanes.mem_move_self ..

theorem parked_resume (ho : Owned g s) {b : Nat} (h : Parked (s.resume a).sessionLists b) :
    b ≠ a ∧ Parked s.sessionLists b := by
  rcases parked_move ho.sessions.wf h with ⟨-, -, hu⟩ | hb
  · exact absurd rfl hu
  · exact hb

/-- A request that can be postponed carries no handle. -/
theorem commandOk_resume (hreq : ((s.sessionDataPool a).replayCmdbuf 0 >>> 16).toNat = 5 ∨
    ((s.sessionDataPool a).replayCmdbuf 0 >>> 16).toNat = 8) : CommandOk (s.resume a) := .inl hreq

/-- A handle that came with the message belongs to nothing yet. -/
theorem commandOk_received (ho : Owned g s) (hk : KernelOk g s i) {message : Words} (hm : messageOf s i = some message) :
    CommandOk (received g s i) := by
  have hcmd : (received g s i).cmdbuf = message := by rw [received_cmdbuf, hm]; rfl
  refine .inr fun h hf => ?_
  rw [hcmd] at hf
  by_cases h0 : h = 0
  · exact .inl h0
  obtain ⟨id, hr, hid, -⟩ := messageOf_some hm
  have hn := hk.shared id message h hr hf h0
  refine .inr ⟨?_, ?_⟩
  · have ht : takesToken i = false := takesToken_signalled hr (by omega)
    unfold received svcReplyAndReceive
    simp [ht, hm, hf, h0]
  · rintro e he rfl
    exact (ho.services.isOpen e he).ne_none h0 hn

/-- The state a command is handled in meets what the command needs. -/
theorem Selected.ready (hinv : LoopInv g s) (hk : KernelOk g s i) (hf : ∀ res, i.received ≠ .failed res)
    {ready : State} (h : Selected g s i a ready) : Ready g ready a := by
  have ho := received_owned hinv.owned hk
  have hu := received_inUseOpen (hinv.inUseOpen hk hf) hk
  have hc := received_count hinv.owned hk
  cases h with
  | woken rest takes message_eq first =>
    have hin : a ∈ s.sessionLists .toWakeUpAfterServiceOrPortRegister := by rw [first]; exact List.mem_cons_self
    have ha : Parked s.sessionLists a := ⟨.toWakeUpAfterServiceOrPortRegister, by decide, by decide, hin⟩
    have hrest : s.sessionLists.move a .inUse false .toWakeUpAfterServiceOrPortRegister = rest := by
      have hno : a ∉ s.sessionLists .inUse := fun hu => absurd (hinv.owned.sessions.wf.unique hu hin) (by decide)
      rw [Lanes.move_other false hno (by decide), first, List.erase_cons_head]
    refine ⟨⟨⟨ho.base, ho.services, ho.processes, (ho.resume ha).sessions⟩, ?_, ?_, fun b hb => ?_⟩, hu.resume ho ha,
      mem_resume .., commandOk_resume (hinv.requests a ha)⟩
    · show (received g s i).kernel.count _ = (s.sessionLists.move a .inUse false _).length
      rw [hc, hrest, hinv.tokens, takes, first]; rfl
    · show s.history.woken = (s.history.resumed ++ [a]) ++ s.sessionLists.move a .inUse false _
      rw [hrest, hinv.woken, first, List.append_assoc]; rfl
    · exact hinv.requests b (parked_resume (a := a) ho hb).2
  | port takes message_eq waiting =>
    have ha : Parked s.sessionLists a := ⟨.waitingPortReady, by decide, by decide, waiting⟩
    have hlane : s.sessionLists.move a .inUse false .toWakeUpAfterServiceOrPortRegister =
        s.sessionLists .toWakeUpAfterServiceOrPortRegister :=
      Lanes.move_frame false (fun hin => absurd (hinv.owned.sessions.wf.unique hin waiting) (by decide)) (by decide)
    have hh : { s.sessionDataPool a with busyClientPortHandle := 0 }.handle = ((received g s i).resume a).handleOf a := rfl
    have hor := (ho.resume ha).setSession hh
    refine ⟨⟨hor, ?_, ?_, fun b hb => ?_⟩, ?_, mem_resume .., ?_⟩
    · show (received g s i).kernel.count _ = (s.sessionLists.move a .inUse false _).length
      rw [hc, hlane, takes, hinv.tokens]; rfl
    · show s.history.woken = s.history.resumed ++ s.sessionLists.move a .inUse false _
      rw [hlane, hinv.woken]
    · obtain ⟨hne, hb⟩ := parked_resume (a := a) ho hb
      have heq : (((received g s i).resume a).setSession a
          { s.sessionDataPool a with busyClientPortHandle := 0 }).sessionDataPool b = s.sessionDataPool b := if_neg hne
      rw [heq]
      exact hinv.requests b hb
    · intro b hb
      rw [handleOf_setSession hh]
      exact hu.resume ho ha b hb
    · exact commandOk_resume (s := received g s i) (hinv.requests a ha)
  | command message takes inUse message_eq =>
    refine ⟨⟨⟨ho.base, ho.services, ho.processes, ho.sessions⟩, ?_, hinv.woken, hinv.requests⟩, hu, inUse,
      commandOk_received hinv.owned hk message_eq⟩
    show (received g s i).kernel.count _ = _
    rw [hc, takes, hinv.tokens]; rfl

/-- Other sessions stay on their lists, and keep their data. -/
theorem Selected.mem (hwf : s.sessionLists.WF) {ready : State} (h : Selected g s i a ready) {l : SessionList}
    (hl : l ≠ .inUse) {b : Nat} : b ∈ ready.sessionLists l ↔ b ∈ s.sessionLists l ∧ b ≠ a := by
  have hmove : b ∈ s.sessionLists.move a .inUse false l ↔ b ∈ s.sessionLists l ∧ b ≠ a := by
    rw [Lanes.mem_move hwf]
    simp [hl, and_comm]
  cases h with
  | woken rest takes message_eq first => exact hmove
  | port takes message_eq waiting => exact hmove
  | command message takes inUse message_eq =>
    refine iff_self_and.2 ?_
    rintro hb rfl
    exact hl (hwf.unique hb inUse)

theorem Selected.kernel {ready : State} (h : Selected g s i a ready) : ready.kernel = (received g s i).kernel := by
  cases h <;> rfl

theorem Selected.pool {ready : State} (h : Selected g s i a ready) {b : Nat} (hb : b ≠ a) :
    ready.sessionDataPool b = s.sessionDataPool b := by
  cases h with
  | woken rest takes message_eq first => rfl
  | port takes message_eq waiting => exact if_neg hb
  | command message takes inUse message_eq => rfl

/-- How a command ends: with a reply, or with its session parked. -/
inductive Served (g : Globals) (sys : Syscalls) (s : State) (a : Nat) : State → Prop
  | replied (res : Result) (s' : State) (handled : handleCommands g sys s a = .ok (res, s'))
      (done : wouldBlock res = false) : Served g sys s a { s' with replyTarget := (s'.sessionDataPool a).handle }
  | parked (res : Result) (busy : Handle) (s' : State) (handled : handleCommands g sys s a = .ok (res, s'))
      (postponed : Postponed g s a res busy s') (dst : SessionList)
      (dst_eq : (res = 0xD0406401 ∧ dst = .waitingForServiceOrPortRegister) ∨
        (res = 0xD0406402 ∧ dst = .waitingPortReady)) : Served g sys s a (s'.moveSession a dst true)

theorem served {sys : Syscalls} (hsys : SyscallsOk s.kernel sys) (h : serve g sys s a = .ok s') : Served g sys s a s' := by
  unfold serve at h
  split at h
  · cases h
  · next res s1 hh =>
    split at h
    · next hb =>
      obtain ⟨busy, hpost⟩ := handleCommands_postponed hsys hh hb
      split at h
      · next hres => cases h; exact .parked res busy s1 hh hpost _ (.inl ⟨hres, rfl⟩)
      · split at h
        · next hres => cases h; exact .parked res busy s1 hh hpost _ (.inr ⟨hres, rfl⟩)
        · cases h
    · next hb => cases h; exact .replied res s1 hh (by simpa using hb)

theorem parked_ne {lists : Lanes SessionList Nat} (hwf : lists.WF) (ha : a ∈ lists .inUse) {b : Nat} (hb : Parked lists b) :
    b ≠ a := by
  rintro rfl
  obtain ⟨l, -, hu, hb⟩ := hb
  exact hu (hwf.unique hb ha)

/-- What a command does to the sessions keeps the rest of the invariant. -/
theorem SessionFrame.settled {ws : List Nat} (h : SessionFrame g a ws s s') (hs : Settled g s) (ho : Owned g s')
    (ha : ∀ b, Parked s.sessionLists b → b ≠ a) : Settled g s' := by
  refine ⟨ho, ?_, ?_, fun b hb => ?_⟩
  · rw [h.tokens, h.woken.moved.at_dst, List.length_append, hs.tokens]
  · rw [h.history, h.woken.moved.at_dst, hs.woken, List.append_assoc]
  · have hb := h.woken.parked hs.owned.sessions.wf hb
    rw [h.others b (ha b hb)]
    exact hs.requests b hb

/-- A session in use, its request postponed, is parked. -/
theorem Settled.park (hs : Settled g s) (hu : InUseOpen s) (ha : a ∈ s.sessionLists .inUse)
    (hreq : ((s.sessionDataPool a).replayCmdbuf 0 >>> 16).toNat = 5 ∨
      ((s.sessionDataPool a).replayCmdbuf 0 >>> 16).toNat = 8) {dst : SessionList}
    (hdst : dst = .waitingForServiceOrPortRegister ∨ dst = .waitingPortReady) :
    Settled g (s.moveSession a dst true) ∧ InUseOpen (s.moveSession a dst true) := by
  have hwf := hs.owned.sessions.wf
  have hlane : s.sessionLists.move a dst true .toWakeUpAfterServiceOrPortRegister =
      s.sessionLists .toWakeUpAfterServiceOrPortRegister := by
    refine Lanes.move_frame true (fun hin => absurd (hwf.unique hin ha) (by decide)) ?_
    rcases hdst with rfl | rfl <;> decide
  refine ⟨⟨⟨hs.owned.base, hs.owned.services, hs.owned.processes,
    hs.owned.sessions.move ⟨.inUse, by decide, ha⟩ (hu a ha) dst true⟩, ?_, ?_, fun b hb => ?_⟩, fun b hb => ?_⟩
  · show s.kernel.count _ = (s.sessionLists.move a dst true _).length
    rw [hlane, hs.tokens]
  · show s.history.woken = s.history.resumed ++ s.sessionLists.move a dst true _
    rw [hlane, hs.woken]
  · rcases parked_move hwf hb with ⟨rfl, -⟩ | ⟨-, hb⟩
    · exact hreq
    · exact hs.requests b hb
  · rcases (Lanes.mem_move hwf).1 hb with ⟨rfl, hd⟩ | ⟨-, hb⟩
    · exact absurd hd (by rcases hdst with rfl | rfl <;> decide)
    · exact hu b hb

/-- A command keeps the invariant. -/
theorem Served.settled {sys : Syscalls} (hr : Ready g s a) (hsys : SyscallsOk s.kernel sys) (h : Served g sys s a s') :
    Settled g s' ∧ InUseOpen s' := by
  cases h with
  | replied res s1 handled done =>
    obtain ⟨ho, ws, hf⟩ := hr.owned.actions (handleCommands_actions hsys hr.command handled)
    have hs := hf.settled hr.toSettled ho fun _ => parked_ne hr.owned.sessions.wf hr.session
    exact ⟨⟨⟨hs.owned.base, hs.owned.services, hs.owned.processes, hs.owned.sessions⟩, hs.tokens, hs.woken, hs.requests⟩,
      hf.inUseOpen hr.inUseOpen⟩
  | parked res busy s1 handled postponed dst dst_eq =>
    obtain ⟨ho, ws, hf⟩ := hr.owned.actions (handleCommands_actions hsys hr.command handled)
    have hs := hf.settled hr.toSettled ho fun _ => parked_ne hr.owned.sessions.wf hr.session
    refine hs.park (hf.inUseOpen hr.inUseOpen) (hf.inUse ▸ hr.session) ?_ (dst_eq.imp And.right And.right)
    have hreplay : (s1.sessionDataPool a).replayCmdbuf 0 = s.cmdbuf 0 := by
      rw [postponed.state]
      unfold State.setSession
      dsimp only
      rw [if_pos rfl]; rfl
    rw [hreplay]
    exact postponed.command

/-- The element found is one of the pool with the handle. -/
theorem sessionClosed_ok {h : Handle} (hc : sessionClosed s h = .ok s') :
    ∃ a, a < poolSize ∧ s.handleOf a = h ∧ (∀ b < poolSize, s.handleOf b = h → b ≤ a) ∧
      s' = { s with kernel := s.kernel.closeHandle h, sessionLists := s.sessionLists.move a .free false } := by
  unfold sessionClosed at hc
  split at hc
  · cases hc
  · next a hf =>
    cases hc
    obtain ⟨hp, pre, post, heq, hpre⟩ := List.find?_eq_some_iff_append.1 hf
    have hmem : ∀ b, b < poolSize ↔ b ∈ pre ∨ b = a ∨ b ∈ post := fun b => by
      rw [← List.mem_range, ← List.mem_reverse, heq, List.mem_append, List.mem_cons]
    have hsorted : (pre ++ a :: post).Pairwise (· > ·) := by
      rw [← heq, List.pairwise_reverse]
      exact List.pairwise_lt_range
    have ha : s.handleOf a = h := beq_iff_eq.1 hp
    refine ⟨a, (hmem a).2 (.inr (.inl rfl)), ha, fun b hb heq => ?_, ?_⟩
    · rcases (hmem b).1 hb with hb | rfl | hb
      · have hnb := hpre b hb
        exact absurd (beq_iff_eq.2 heq) (by simpa [State.handleOf] using hnb)
      · exact Nat.le_refl _
      · exact Nat.le_of_lt ((List.pairwise_cons.1 (List.pairwise_append.1 hsorted).2.1).1 b hb)
    · rw [← ha]; rfl

/-- The handle of a session can be closed without touching what else is owned. -/
theorem Owned.closeSession (ho : Owned g s) {h : Handle} (hh : s.kernel h = some .session) {b : Nat} (hb : b < poolSize)
    (hother : ∀ b', Parked s.sessionLists b' → b' ≠ b → s.handleOf b' ≠ h) :
    Owned g { s with kernel := s.kernel.closeHandle h, sessionLists := s.sessionLists.move b .free false } := by
  have hne : ∀ {x o}, s.kernel x = some o → o ≠ .session → s.kernel.closeHandle h x = some o := by
    intro x o hx ho
    rw [Kernel.closeHandle_ne _ (by rintro rfl; rw [hh] at hx; cases hx; exact ho rfl), hx]
  refine ⟨⟨?_, ?_, hne ho.base.srvPort nofun, hne ho.base.srvPmPort nofun⟩,
    ho.services.closeHandle (ho.services.ne_port hh nofun nofun), ⟨ho.processes.wf, fun p hp => ?_, ho.processes.distinct⟩, ?_⟩
  · unfold Kernel.closeHandle
    dsimp only
    split
    · rfl
    · exact ho.base.zero
  · obtain ⟨c, hc⟩ := ho.base.semaphore
    exact ⟨c, hne hc nofun⟩
  · obtain ⟨c, hc⟩ := ho.processes.isOpen p hp
    exact ⟨c, hne hc nofun⟩
  · refine ho.sessions.freed hb fun b' hb' hn => ?_
    show s.kernel.closeHandle h (s.handleOf b') = _
    rw [Kernel.closeHandle_ne _ (hother b' hb' hn)]
    exact ho.sessions.parked b' hb'

/-- A closed session leaves the sessions in use, or stays there with a closed handle. -/
theorem sessionClosed_loop (hs : Settled g s) (hu : InUseOpen s) (ha : a ∈ s.sessionLists .inUse)
    (hc : sessionClosed s (s.handleOf a) = .ok s') : LoopInv g s' := by
  obtain ⟨b, hlt, hb, -, rfl⟩ := sessionClosed_ok hc
  have hwf := hs.owned.sessions.wf
  have hlive : Live s.sessionLists a := ⟨.inUse, by decide, ha⟩
  have hnp : ∀ c, Parked s.sessionLists c → s.handleOf c ≠ s.handleOf a := by
    rintro c ⟨l, hl, hnu, hin⟩ heq
    obtain rfl := hs.owned.sessions.distinct c a ⟨l, hl, hin⟩ hlive heq
    exact hnu (hwf.unique hin ha)
  -- the element found is no parked session
  have hlane : s.sessionLists.move b .free false .toWakeUpAfterServiceOrPortRegister =
      s.sessionLists .toWakeUpAfterServiceOrPortRegister :=
    Lanes.move_frame false (fun hin => hnp b ⟨_, by decide, by decide, hin⟩ hb) (by decide)
  obtain ⟨c, hcount⟩ := hs.owned.base.semaphore
  refine ⟨⟨hs.owned.closeSession (hu a ha) hlt fun c hc _ => hnp c hc, ?_, ?_, fun c hc => ?_⟩, fun c hc => ?_⟩
  · show (s.kernel.closeHandle (s.handleOf a)).count _ = (s.sessionLists.move b .free false _).length
    rw [hlane, ← hs.tokens]
    unfold Kernel.count
    rw [Kernel.closeHandle_ne]
    exact hs.owned.base.ne_semaphore (hu a ha) fun _ => by simp
  · show s.history.woken = s.history.resumed ++ s.sessionLists.move b .free false _
    rw [hlane, hs.woken]
  · rcases parked_move hwf hc with ⟨-, hf, -⟩ | ⟨-, hc⟩
    · exact absurd rfl hf
    · exact hs.requests c hc
  · rcases (Lanes.mem_move hwf).1 hc with ⟨-, hd⟩ | ⟨-, hc⟩
    · cases hd
    · show s.kernel.closeHandle (s.handleOf a) (s.handleOf c) = _ ∨ s.kernel.closeHandle (s.handleOf a) (s.handleOf c) = _
      by_cases heq : s.handleOf c = s.handleOf a
      · rw [heq, Kernel.closeHandle_same]
        exact .inr rfl
      · rw [Kernel.closeHandle_ne _ heq]
        exact .inl (hu c hc)

/-- The data of a session whose port was closed. -/
def SessionData.portClosed (d : SessionData) : SessionData :=
  { d with replayCmdbuf := d.replayCmdbuf.set 1 0xD0406401, busyClientPortHandle := 0 }

/-- The sessions that wait for a port. -/
def State.waitingFor (s : State) (h : Handle) (nodes : List Nat) : List Nat :=
  nodes.filter fun a => (s.sessionDataPool a).busyClientPortHandle == h

theorem portClosedLoop_eq (h : Handle) {nodes : List Nat} (hnd : nodes.Nodup) (s : State) :
    portClosedLoop h nodes s = { s with
      sessionDataPool := fun b => if b ∈ s.waitingFor h nodes then (s.sessionDataPool b).portClosed else s.sessionDataPool b
      sessionLists := s.sessionLists.moveAll (s.waitingFor h nodes) .waitingForServiceOrPortRegister } := by
  induction nodes generalizing s with
  | nil => simp [portClosedLoop, State.waitingFor, Lanes.moveAll]
  | cons node nodes ih =>
    obtain ⟨hn, hnd⟩ := List.nodup_cons.1 hnd
    unfold portClosedLoop
    by_cases hb : ((s.sessionDataPool node).busyClientPortHandle == h) = true
    · have hpool : ∀ b, b ≠ node → (portClosedOne s node).sessionDataPool b = s.sessionDataPool b := fun b hb => if_neg hb
      have hrest : (portClosedOne s node).waitingFor h nodes = s.waitingFor h nodes :=
        List.filter_congr fun b hb' => by rw [hpool b (by rintro rfl; exact hn hb')]
      have hcons : s.waitingFor h (node :: nodes) = node :: s.waitingFor h nodes := List.filter_cons_of_pos hb
      rw [if_pos hb, ih hnd, hrest, hcons]
      have hpools : (fun b => if b ∈ s.waitingFor h nodes then ((portClosedOne s node).sessionDataPool b).portClosed
            else (portClosedOne s node).sessionDataPool b) =
          fun b => if b ∈ node :: s.waitingFor h nodes then (s.sessionDataPool b).portClosed else s.sessionDataPool b := by
        funext b
        by_cases hbn : b = node
        · subst hbn
          have hnot : b ∉ s.waitingFor h nodes := fun hin => hn (List.mem_filter.1 hin).1
          rw [if_neg hnot, if_pos List.mem_cons_self]
          exact if_pos rfl
        · rw [hpool b hbn]
          simp [hbn]
      rw [hpools]; rfl
    · have hcons : s.waitingFor h (node :: nodes) = s.waitingFor h nodes := List.filter_cons_of_neg hb
      rw [if_neg hb, ih hnd, hcons]

/-- What closing a port does to the sessions that wait for it. -/
theorem portClosed_moved (hwf : s.sessionLists.WF) (h : Handle) :
    Moved .waitingPortReady .waitingForServiceOrPortRegister s.sessionLists
      (s.waitingFor h (s.sessionLists .waitingPortReady))
      (portClosedLoop h (s.sessionLists .waitingPortReady) s).sessionLists := by
  rw [portClosedLoop_eq h (hwf.nodup _)]
  exact Moved.of_nodup (by decide) (by decide) (by decide) hwf ((hwf.nodup _).filter _)
    fun a ha => (List.mem_filter.1 ha).1

theorem portClosed_settled (hs : Settled g s) (hu : InUseOpen s) (h : Handle) :
    Settled g (portClosedLoop h (s.sessionLists .waitingPortReady) s) ∧
      InUseOpen (portClosedLoop h (s.sessionLists .waitingPortReady) s) := by
  have hwf := hs.owned.sessions.wf
  have hm := portClosed_moved hwf h
  have heq := portClosedLoop_eq h (hwf.nodup .waitingPortReady) s
  have hhandle : (portClosedLoop h (s.sessionLists .waitingPortReady) s).handleOf = s.handleOf := by
    funext b
    rw [heq]
    unfold State.handleOf
    dsimp only
    split <;> rfl
  have hlane := hm.frame (l := .toWakeUpAfterServiceOrPortRegister) (by decide) (by decide)
  refine ⟨⟨⟨?_, ?_, ?_, ?_⟩, ?_, ?_, fun b hb => ?_⟩, fun b hb => ?_⟩
  · rw [heq]; exact hs.owned.base
  · rw [heq]; exact hs.owned.services
  · rw [heq]; exact hs.owned.processes
  · rw [hhandle]
    have hk : (portClosedLoop h (s.sessionLists .waitingPortReady) s).kernel = s.kernel := by rw [heq]
    rw [hk]
    exact hs.owned.sessions.moved hm
  · rw [hlane, ← hs.tokens, heq]
  · rw [hlane, heq]; exact hs.woken
  · have hreq := hs.requests b (hm.parked hwf hb)
    rw [heq]
    dsimp only
    split
    · exact hreq
    · exact hreq
  · rw [hm.inUse] at hb
    rw [hhandle, heq]
    exact hu b hb

theorem newSession_ok {sys : Syscalls} {isSrvPm : Bool} (h : newSession sys s isSrvPm = .ok s') :
    ∃ a, a ∈ s.sessionLists .free ∧ rFailed sys.acceptSession.1 = false ∧
      s' = ({ s with kernel := s.kernel.opened sys.acceptSession.2 .session }.setSession a
        { SessionData.zero with pid := -1, handle := sys.acceptSession.2, isSrvPm }).moveSession a .inUse false := by
  unfold newSession at h
  dsimp only at h
  split at h
  · cases h
  · next hacc =>
    split at h
    · cases h
    · next a ha =>
      cases h
      exact ⟨a, List.mem_of_mem_head? ha, by simpa using hacc, rfl⟩

/-- A new session is in use and open. -/
theorem newSession_settled {sys : Syscalls} {isSrvPm : Bool} (hs : Settled g s) (hu : InUseOpen s)
    (hsys : SyscallsOk s.kernel sys) (h : newSession sys s isSrvPm = .ok s') : Settled g s' ∧ InUseOpen s' := by
  obtain ⟨a, ha, hacc, heq⟩ := newSession_ok h
  have hf := hsys.acceptSession hacc
  have hwf := hs.owned.sessions.wf
  have ho := hs.owned.opened hf .session
  have hhandle : s'.handleOf = fun b => if b = a then sys.acceptSession.2 else s.handleOf b := by
    rw [heq]
    funext b
    unfold State.handleOf State.moveSession State.setSession
    dsimp only
    split <;> rfl
  have hlists : s'.sessionLists = s.sessionLists.move a .inUse false := by rw [heq]; rfl
  have hkernel : s'.kernel = s.kernel.opened sys.acceptSession.2 .session := by rw [heq]; rfl
  have hlane : s.sessionLists.move a .inUse false .toWakeUpAfterServiceOrPortRegister =
      s.sessionLists .toWakeUpAfterServiceOrPortRegister :=
    Lanes.move_frame false (fun hin => absurd (hwf.unique hin ha) (by decide)) (by decide)
  refine ⟨⟨⟨?_, ?_, ?_, ?_⟩, ?_, ?_, fun b hb => ?_⟩, fun b hb => ?_⟩
  · rw [heq]; exact ho.base
  · rw [heq]; exact ho.services
  · rw [heq]; exact ho.processes
  · rw [hkernel, hhandle, hlists]
    exact hs.owned.sessions.accepted ha hf.2 hu
  · rw [hkernel, hlists, hlane, ← hs.tokens]
    unfold Kernel.count
    rw [Kernel.opened_ne _ _ (hs.owned.base.ne_fresh hf)]
  · rw [hlists, hlane, heq]; exact hs.woken
  · rw [hlists] at hb
    rcases parked_move hwf hb with ⟨-, -, hin⟩ | ⟨hne, hb⟩
    · exact absurd rfl hin
    · have hpool : s'.sessionDataPool b = s.sessionDataPool b := by rw [heq]; exact if_neg hne
      rw [hpool]
      exact hs.requests b hb
  · rw [hlists] at hb
    rw [hhandle, hkernel]
    rcases (Lanes.mem_move hwf).1 hb with ⟨rfl, -⟩ | ⟨hne, hb⟩
    · dsimp only
      rw [if_pos rfl, Kernel.opened_same]
    · have hopen := hu b hb
      dsimp only
      rw [if_neg hne, Kernel.opened_ne _ _ (by intro hx; rw [hx, hf.2] at hopen; cases hopen), hopen]

/-- Between `svcReplyAndReceive` and the branches, when no token was taken. -/
theorem received_settled (hinv : LoopInv g s) (hk : KernelOk g s i) (ht : takesToken i = false) :
    Settled g (received g s i) := by
  refine ⟨received_owned hinv.owned hk, ?_, hinv.woken, hinv.requests⟩
  rw [received_count hinv.owned hk, ht, hinv.tokens]; rfl

theorem iterate_notFailed (h : iterate g s i = .ok s') : ∀ res, i.received ≠ .failed res := by
  intro res hr
  unfold iterate at h
  rw [hr] at h
  cases h

/-- Every iteration that does not panic keeps the invariant. -/
theorem LoopInv.step (hinv : LoopInv g s) (h : (sm g).step s i s') : LoopInv g s' := by
  obtain ⟨hk, hi⟩ := h
  have hf := iterate_notFailed hi
  have hu := received_inUseOpen (hinv.inUseOpen hk hf) hk
  cases iteration hi with
  | sessionClosed n a s' at_n range takes inUse handle closed =>
    exact sessionClosed_loop (received_settled hinv hk takes) hu inUse closed
  | portClosed n at_n range takes =>
    obtain ⟨hs, hu'⟩ := portClosed_settled (received_settled hinv hk takes) hu ((s.handles g).getD n 0)
    exact hu'.loop hs
  | newSession isSrvPm s' open_ none takes new =>
    obtain ⟨hs, hu'⟩ := newSession_settled (received_settled hinv hk takes) hu hk.syscalls new
    exact hu'.loop hs
  | ignored open_ none takes => exact hu.loop (received_settled hinv hk takes)
  | served a ready s' open_ some hs =>
    have hsel := selected some
    have hsys : SyscallsOk ready.kernel i.sys := hsel.kernel ▸ hk.syscalls
    obtain ⟨hs', hu'⟩ := (served hsys hs).settled (hsel.ready hinv hk hf) hsys
    exact hu'.loop hs'

theorem initSystem_semaphore
    (hnd : [0, g.resumeGetServiceHandleOrPortRegisteredSemaphore, g.srvPort, g.srvPmPort].Nodup) (cmdbuf : Words) :
    (initSystem g cmdbuf).kernel g.resumeGetServiceHandleOrPortRegisteredSemaphore = some (.semaphore 0 64) := by
  simp only [List.nodup_cons, List.mem_cons, List.not_mem_nil, or_false, not_or, List.nodup_nil, and_true] at hnd
  obtain ⟨-, ⟨h4, h5⟩, -⟩ := hnd
  simp [initSystem, Kernel.opened, h4, h5]

/-- Nothing is in use at first. -/
theorem owned_initSystem (hnd : [0, g.resumeGetServiceHandleOrPortRegisteredSemaphore, g.srvPort, g.srvPmPort].Nodup)
    (cmdbuf : Words) : Owned g (initSystem g cmdbuf) := by
  have hsem := initSystem_semaphore hnd cmdbuf
  simp only [List.nodup_cons, List.mem_cons, List.not_mem_nil, or_false, not_or, List.nodup_nil, and_true] at hnd
  obtain ⟨⟨h1, h2, h3⟩, -, h6, -⟩ := hnd
  have hmem : ∀ {l b}, b ∈ (initSystem g cmdbuf).sessionLists l ↔ l = .free ∧ b ∈ List.range poolSize := Lanes.mem_only
  have hfree : ∀ l b, b ∈ (initSystem g cmdbuf).sessionLists l → l = .free := fun _ _ hb => (hmem.1 hb).1
  have hfree' : ∀ l b, b ∈ (initSystem g cmdbuf).processLists l → l = .free := fun _ _ hb => (Lanes.mem_only.1 hb).1
  have hwf : (initSystem g cmdbuf).sessionLists.WF := Lanes.WF.only List.nodup_range SessionList.free
  have hwf' : (initSystem g cmdbuf).processLists.WF := Lanes.WF.only List.nodup_range ProcessList.free
  refine ⟨⟨?_, ⟨0, hsem⟩, ?_, ?_⟩, ⟨nofun, List.nodup_nil⟩, ⟨hwf', fun b hb => ?_, fun b hb => ?_⟩, ⟨hwf, fun b => ⟨fun ⟨l, hb⟩ => ?_, fun hb => ⟨.free, ?_⟩⟩, fun b hb => ?_, fun b b' hb => ?_⟩⟩
  · simp [initSystem, Kernel.opened, h1, h2, h3]
  · simp [initSystem, Kernel.opened, h6]
  · simp [initSystem, Kernel.opened]
  · exact nomatch hfree' _ _ hb
  · exact nomatch hfree' _ _ hb
  · exact List.mem_range.1 (hmem.1 hb).2
  · exact hmem.2 ⟨rfl, List.mem_range.2 hb⟩
  · obtain ⟨l, hf, -, hb⟩ := hb
    exact absurd (hfree _ _ hb) hf
  · obtain ⟨l, hf, hb⟩ := hb
    exact absurd (hfree _ _ hb) hf

/-- Before the loop sm registers at most a service of its own. -/
theorem initial_actions (h : Initial g s) : ∃ cmdbuf,
    [0, g.resumeGetServiceHandleOrPortRegisteredSemaphore, g.srvPort, g.srvPmPort].Nodup ∧
      Actions g 0 [] (initSystem g cmdbuf) s := by
  obtain ⟨hnd, sys, smPid, cmdbuf, hs, hport⟩ := h
  refine ⟨cmdbuf, hnd, ?_⟩
  unfold start at hs
  split at hs
  · cases hs; exact .refl
  split at hs
  · cases hs
  next res port s1 hreg =>
  split at hs
  · cases hs
  next hres =>
  cases hs
  rcases doRegister_ok hreg with ⟨hf, -⟩ | ⟨-, -, hadd⟩
  · exact absurd hf hres
  · have hfresh : Fresh (initSystem g cmdbuf).kernel sys.createPort.2.2 := by
      simp only [List.mem_cons, List.not_mem_nil, or_false, not_or] at hport
      obtain ⟨h0, h1, h2, h3⟩ := hport
      exact ⟨h0, by simp [initSystem, Kernel.opened, h1, h2, h3]⟩
    exact .single (.registerService _ _ _ _ rfl hfresh hadd)

/-- At first every session is free. -/
theorem initial_free (h : Initial g s) {l : SessionList} (ha : a ∈ s.sessionLists l) : l = .free := by
  obtain ⟨cmdbuf, hnd, hact⟩ := initial_actions h
  have ho := owned_initSystem hnd cmdbuf
  have hfree : ∀ l b, b ∈ (initSystem g cmdbuf).sessionLists l → l = .free := fun _ _ hb => (Lanes.mem_only.1 hb).1
  obtain ⟨-, ws, hf⟩ := ho.actions hact
  rcases (hf.woken.mem ho.sessions.wf).1 ha with ⟨hw, -⟩ | ⟨-, ha⟩
  · exact nomatch hfree _ _ (hf.woken.waiting a hw)
  · exact hfree _ _ ha

theorem initial_parked (h : Initial g s) : ¬ Parked s.sessionLists a := by
  rintro ⟨l, hl, -, ha⟩
  exact hl (initial_free h ha)

/-- The invariant holds where the loop begins. -/
theorem LoopInv.initial (h : Initial g s) : LoopInv g s := by
  obtain ⟨cmdbuf, hnd, hact⟩ := initial_actions h
  obtain ⟨ho, ws, hf⟩ := (owned_initSystem hnd cmdbuf).actions hact
  have hlane : s.sessionLists .toWakeUpAfterServiceOrPortRegister = [] :=
    List.eq_nil_iff_forall_not_mem.2 fun a ha => nomatch initial_free h ha
  have hws : ws = [] := by
    rw [hf.woken.moved.at_dst] at hlane
    exact (List.append_eq_nil_iff.1 hlane).2
  refine ⟨⟨ho, ?_, ?_, fun a ha => absurd ha (initial_parked h)⟩, fun a ha => nomatch initial_free h ha⟩
  · rw [hf.tokens, hlane, hws]
    unfold Kernel.count
    rw [initSystem_semaphore hnd]; rfl
  · rw [hf.history, hlane, hws]; rfl

/-- The invariant of the loop. -/
theorem loopInv (h : (sm g).Reachable s) : LoopInv g s :=
  h.invariant (fun _ => LoopInv.initial) fun _ _ _ _ => LoopInv.step

end

end Omiiba.Sm
