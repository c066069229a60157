/-
A session that its client closes. The element of the pool is looked up by handle, and a free element
still has the handle of its last session, which the kernel may have given out again.
-/
import Omiiba.Sm.HandleList

namespace Omiiba.Sm

section

variable {g : Globals} {s s' : State} {i : Input} {n a : Nat}

/-- No free element behind the session's in the pool still has its handle. -/
def OwnerLast (g : Globals) (s : State) (n : Nat) : Prop :=
  ∀ a ∈ s.sessionLists .inUse, s.handleOf a = (s.handles g).getD n 0 →
    ∀ b ∈ s.sessionLists .free, s.handleOf b = s.handleOf a → b < a

/-- The iteration closes the handle at index `n`, and frees the one live session that has it. -/
def ClosesOwner (g : Globals) (s : State) (i : Input) (n : Nat) : Prop :=
  ∃ s' a, iterate g s i = .ok s' ∧ a ∈ s.sessionLists .inUse ∧ s.handleOf a = (s.handles g).getD n 0 ∧
    (∀ b, Live s.sessionLists b → s.handleOf b = s.handleOf a → b = a) ∧
    (received g s i).kernel (s.handleOf a) = some .session ∧
    s'.kernel = (received g s i).kernel.closeHandle (s.handleOf a) ∧
    s'.sessionLists = s.sessionLists.move a .free false

/-- Every session that is reported closed is the last one with its handle in the pool. -/
def ClosesLast (g : Globals) (s : State) (i : Input) : Prop :=
  ∀ n, closedAt g s i = some n → 3 ≤ n → n < 3 + s.nbSessions → OwnerLast g s n

theorem closedAt_notFailed (hat : closedAt g s i = some n) : ∀ res, i.received ≠ .failed res := by
  intro res hr
  unfold closedAt at hat
  rw [hr] at hat
  cases hat

/-- The branch of the loop for an index among the sessions. -/
theorem iterate_closed (hat : closedAt g s i = some n) (h3 : 3 ≤ n) (hn : n < 3 + s.nbSessions) :
    iterate g s i = sessionClosed (received g s i) ((s.handles g).getD n 0) := by
  unfold closedAt at hat
  unfold iterate
  split at hat
  · next id hr =>
    rw [hr]
    dsimp only
    rw [hat]
    dsimp only
    rw [if_neg (Nat.not_lt.2 h3), if_pos hn]
  · cases hat

theorem iterate_closed_ge (hat : closedAt g s i = some n) (h : iterate g s i = .ok s') : 3 ≤ n := by
  unfold closedAt at hat
  unfold iterate at h
  split at hat
  · next id hr =>
    rw [hr] at h
    dsimp only at h
    rw [hat] at h
    dsimp only at h
    split at h
    · cases h
    · next hge => exact Nat.le_of_not_lt hge
  · cases hat

/-- The element found is the last one in the pool with the handle. -/
theorem sessionClosed_last (ha : a < poolSize) (hlast : ∀ b < poolSize, s.handleOf b = s.handleOf a → b ≤ a) :
    sessionClosed s (s.handleOf a) = .ok { s with
      kernel := s.kernel.closeHandle (s.handleOf a), sessionLists := s.sessionLists.move a .free false } := by
  rcases hres : sessionClosed s (s.handleOf a) with e | s'
  · unfold sessionClosed at hres
    split at hres
    · next hnone =>
      have hno := List.find?_eq_none.1 hnone a (List.mem_reverse.2 (List.mem_range.2 ha))
      exact absurd (beq_self_eq_true (s.handleOf a)) hno
    · cases hres
  · obtain ⟨d, hd, heq, hmax, rfl⟩ := sessionClosed_ok hres
    obtain rfl : d = a := Nat.le_antisymm (hlast d hd heq) (hmax a ha rfl)
    rfl

theorem closesOwner_iff (hinv : LoopInv g s) (hk : KernelOk g s i) (hat : closedAt g s i = some n) (h3 : 3 ≤ n)
    (hn : n < 3 + s.nbSessions) : ClosesOwner g s i n ↔ OwnerLast g s n := by
  have hwf := hinv.owned.sessions.wf
  constructor
  · rintro ⟨s', a, hi, ha, heq, hone, hsession, hkernel, hlists⟩ c hc hch b hb hbh
    have hlive : ∀ {x}, x ∈ s.sessionLists .inUse → Live s.sessionLists x := fun h => ⟨.inUse, by decide, h⟩
    obtain rfl : c = a := hone c (hlive hc) (hch.trans heq.symm)
    rw [iterate_closed hat h3 hn, ← heq] at hi
    obtain ⟨d, hlt, hd, hlast, rfl⟩ := sessionClosed_ok hi
    by_contra hle
    have hpool : b < poolSize := (hinv.owned.sessions.covers b).1 ⟨_, hb⟩
    have hbd := hlast b hpool hbh
    -- a free element is found, so that the session stays in use
    have hfree : d ∈ s.sessionLists .free := by
      rcases sessionClosed_found hinv.owned ha hlt hd with rfl | hfree
      · have hdb : d ≠ b := fun hdb => by
          have hboth := hwf.unique ha (hdb ▸ hb)
          cases hboth
        omega
      · exact hfree
    have hin : c ∈ (s.sessionLists.move c .free false) .inUse := by
      rw [← hlists]
      show c ∈ (s.sessionLists.move d .free false) .inUse
      rw [Lanes.move_of_mem false hfree]
      exact ha
    rcases (Lanes.mem_move hwf).1 hin with ⟨-, hf⟩ | ⟨hne, -⟩
    · cases hf
    · exact hne rfl
  · intro hlast
    obtain ⟨a, ha, heq⟩ := handles_session h3 hn
    have hpool : a < poolSize := (hinv.owned.sessions.covers a).1 ⟨_, ha⟩
    have hlive : Live s.sessionLists a := ⟨.inUse, by decide, ha⟩
    have hopen := received_inUseOpen (hinv.inUseOpen hk (closedAt_notFailed hat)) hk
    have hmax : ∀ b < poolSize, (received g s i).handleOf b = (received g s i).handleOf a → b ≤ a := by
      intro b hb hbh
      rcases sessionClosed_found hinv.owned ha hb hbh with rfl | hfree
      · exact Nat.le_refl b
      · exact Nat.le_of_lt (hlast a ha heq.symm b hfree hbh)
    have hclosed := (congrArg (sessionClosed (received g s i)) heq).trans (sessionClosed_last hpool hmax)
    exact ⟨_, a, (iterate_closed hat h3 hn).trans hclosed, ha, heq.symm,
      fun b hb hbh => hinv.owned.sessions.distinct b a hb hlive hbh, hopen a ha, rfl, rfl⟩

/-- In runs that free the sessions that are closed, every session in use is open. -/
theorem closesLast_open (h : ((sm g).restrict (ClosesLast g)).Reachable s) : InUseOpen s := by
  refine h.invariant (fun s hi a ha => nomatch initial_free hi ha) fun s i s' hreach hopen hstep => ?_
  obtain ⟨hlast, hk, hi⟩ := hstep
  have hinv := loopInv hreach.of_restrict
  have hf := iterate_notFailed hi
  have hu := received_inUseOpen hopen hk
  have hwf := hinv.owned.sessions.wf
  cases iteration hi with
  | sessionClosed n a s' at_n range takes inUse handle closed =>
    have howner := hlast n at_n (iterate_closed_ge at_n hi) range a inUse handle.symm
    obtain ⟨d, hlt, hd, hmax, rfl⟩ := sessionClosed_ok closed
    have hle : a ≤ d := hmax a ((hinv.owned.sessions.covers a).1 ⟨_, inUse⟩) rfl
    obtain rfl : d = a := by
      rcases sessionClosed_found hinv.owned inUse hlt hd with heq | hfree
      · exact heq
      · exact absurd (howner d hfree hd) (Nat.not_lt.2 hle)
    intro c hc
    rcases (Lanes.mem_move hwf).1 hc with ⟨-, hd⟩ | ⟨hne, hc⟩
    · cases hd
    · have hother : s.handleOf c ≠ s.handleOf d := fun heq =>
        hne (hinv.owned.sessions.distinct c d ⟨.inUse, by decide, hc⟩ ⟨.inUse, by decide, inUse⟩ heq)
      exact (Kernel.closeHandle_ne _ hother).trans (hu c hc)
  | portClosed n at_n range takes =>
    exact (portClosed_settled (received_settled hinv hk takes) hu ((s.handles g).getD n 0)).2
  | newSession isSrvPm s' open_ none takes new =>
    exact (newSession_settled (received_settled hinv hk takes) hu hk.syscalls new).2
  | ignored open_ none takes => exact hu
  | served a ready s' open_ some hs =>
    have hsel := selected some
    have hsys : SyscallsOk ready.kernel i.sys := hsel.kernel ▸ hk.syscalls
    exact ((served hsys hs).settled (hsel.ready hinv hk hf) hsys).2

/-- A session that is reported closed is freed, and its handle closed, exactly if no free element behind its own
in the pool still has its handle. In runs in which this is so, no session in use has a closed handle. -/
theorem session_closed_iff (hreach : (sm g).Reachable s) (hk : KernelOk g s i) (hat : closedAt g s i = some n)
    (h3 : 3 ≤ n) (hn : n < 3 + s.nbSessions) :
    (ClosesOwner g s i n ↔ OwnerLast g s n) ∧ (((sm g).restrict (ClosesLast g)).Reachable s → InUseOpen s) :=
  ⟨closesOwner_iff (loopInv hreach) hk hat h3 hn, closesLast_open⟩

/-- The client of the session at an index closes it. -/
def disconnect (id : Int) : Event := { received := .unreachable id }

/-- A session, accepted and closed. -/
theorem closed_once : ∃ s, play globals (initSystem globals fun _ => 0) [connect 16] = some s ∧
    (ClosesOwner globals s (disconnect 3).input 3 ↔ OwnerLast globals s 3) ∧
      (((sm globals).restrict (ClosesLast globals)).Reachable s → InUseOpen s) := by
  have hrun : (play globals (initSystem globals fun _ => 0) [connect 16]).map
      (fun s => ((disconnect 3).possible globals s, closedAt globals s (disconnect 3).input, s.nbSessions)) =
        some (true, some 3, 1) := by decide +kernel
  obtain ⟨s, hs, hv⟩ := Option.map_eq_some_iff.1 hrun
  simp only [Prod.mk.injEq] at hv
  obtain ⟨hpossible, hat, hone⟩ := hv
  have hreach := play_reachable (P := fun _ _ => True) (fun _ _ _ => trivial) (.init (initSystem_initial _)) hs
  exact ⟨s, hs, session_closed_iff hreach.of_restrict (Event.kernelOk hpossible) hat (Nat.le_refl 3) (by omega)⟩

/-- Two sessions, the second of which is closed first; then one with the handle of the second. -/
def reusedHandle : List Event := [connect 16, connect 17, disconnect 3, disconnect 3, connect 17]

/-- The free element of the second session is found, and the session stays in use with a closed handle. -/
theorem reused_not_freed : ∃ s, (sm globals).Reachable s ∧ KernelOk globals s (disconnect 3).input ∧
    closedAt globals s (disconnect 3).input = some 3 ∧ 3 < 3 + s.nbSessions ∧
      ¬ClosesOwner globals s (disconnect 3).input 3 := by
  have hrun : (play globals (initSystem globals fun _ => 0) reusedHandle).map
      (fun s => ((disconnect 3).possible globals s && decide (1 ∈ s.sessionLists .free),
        closedAt globals s (disconnect 3).input, s.sessionLists .inUse,
        [(s.handles globals).getD 3 0, s.handleOf 0, s.handleOf 1])) =
      some (true, some 3, [0], [17, 17, 17]) := by decide +kernel
  obtain ⟨s, hs, hv⟩ := Option.map_eq_some_iff.1 hrun
  simp only [Prod.mk.injEq, Bool.and_eq_true, decide_eq_true_eq, List.cons.injEq, and_true] at hv
  obtain ⟨⟨hpossible, hfree⟩, hat, huse, hhandle, h0, h1⟩ := hv
  have hreach := play_reachable (P := fun _ _ => True) (fun _ _ _ => trivial) (.init (initSystem_initial _)) hs
  have hk := Event.kernelOk hpossible
  have hn : 3 < 3 + s.nbSessions := by
    unfold State.nbSessions
    rw [huse]
    decide
  refine ⟨s, hreach.of_restrict, hk, hat, hn, fun hcloses => ?_⟩
  have hlast := (closesOwner_iff (loopInv hreach.of_restrict) hk hat (Nat.le_refl 3) hn).1 hcloses
  have h10 : 1 < 0 := hlast 0 (by rw [huse]; decide) (h0.trans hhandle.symm) 1 hfree (h1.trans h0.symm)
  exact absurd h10 (by decide)

end

end Omiiba.Sm
