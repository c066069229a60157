/-
The sessions of a service loop: the parallel arrays describe them index by index, whether a session is
added at the end or one is removed from the middle, and the handles and contexts that are out are theirs.
-/
import Omiiba.Lib.Table
import Omiiba.Loader.ServiceManager

namespace Omiiba.Loader.ServiceManager

/-- The `n`-th session that was accepted. -/
def State.session (s : State) (n : Nat) : Session := s.accepted.getD n ⟨0, 0, 0⟩

/-- Index by index, the entries of the arrays are those of the sessions in `order`. -/
def Tabled (c : Config) (s : State) (order : List Nat) : Prop :=
  order.length = s.numActiveSessions ∧ ∀ off n, order[off]? = some n →
    s.session n = ⟨s.waitHandles (1 + c.numServices + off), (s.handlerIds off).toNat, s.ctxs off⟩

/-- Handlers were called for sessions that had been accepted from their service, with the session's context. -/
def Dispatched (c : Config) (s : State) : Prop :=
  ∀ x ∈ s.commands, ∃ n < s.accepted.length, x.sender = some (.session n) ∧ x.service = (s.session n).port ∧
    x.service < c.numServices ∧ x.ctx = (s.session n).ctx

/-! ## Before the first session -/

/-- The ports that are registered first, with their handles. -/
def heldPorts (s : State) (k : Nat) : List (Handle × Object) :=
  (List.range k).map fun i => (s.waitHandles (1 + i), .port i)

structure Sessionless (s : State) : Prop where
  accepted : s.accepted = []
  active : s.numActiveSessions = 0
  reply : s.replyTarget = 0
  given : ∀ n, Object.session n ∉ s.handles.given
  owner : ∀ h n, s.handles.owner h ≠ some (.session n)
  returned : ∀ n, Object.session n ∉ s.handles.returned
  contexts : s.contexts = Ledger.empty
  commands : s.commands = []
  replies : s.replies = []
  termination : s.terminationRequested = false

/-- The handles of the notifications and of the ports that have been registered. -/
def heldStart (s : State) (k : Nat) : List (Handle × Object) := (s.waitHandles 0, .notification) :: heldPorts s k

/-! ## While sessions are served -/

/-- The handles the loop has to close. -/
def heldHandles (c : Config) (s : State) (order : List Nat) : List (Handle × Object) :=
  heldStart s c.numServices ++ order.map fun n => ((s.session n).handle, .session n)

/-- The contexts it has to free. -/
def heldContexts (c : Config) (s : State) (order : List Nat) : List (Ctx × Nat) :=
  if c.allocator then order.map fun n => ((s.session n).ctx, n) else []

/-- The sessions in `order` are those that are open. -/
structure Serving (c : Config) (s : State) (order : List Nat) : Prop where
  tabled : Tabled c s order
  nodup : order.Nodup
  handles : s.handles.Keeps (heldHandles c s order)
  given : ∀ n, s.handles.given.count (.session n) = if n < s.accepted.length then 1 else 0
  contexts : s.contexts.Keeps (heldContexts c s order)
  contextsGiven : ∀ n, s.contexts.given.count n = if c.allocator = true ∧ n < s.accepted.length then 1 else 0
  accepted : ∀ n < s.accepted.length, (s.session n).handle ≠ 0 ∧ (s.session n).port < c.numServices ∧
    (c.allocator = true → (s.session n).ctx ≠ 0)
  quota : ∀ i, order.countP (fun n => (s.session n).port = i) ≤ (c.services[i]?.map ServiceEntry.maxSessions).getD 0

section

variable {c : Config} {s s' : State} {a : Answers} {order : List Nat} {n : Nat}

theorem session_of_append {x : Session} (h : s'.accepted = s.accepted ++ [x]) (hn : n < s.accepted.length) :
    s'.session n = s.session n := by
  unfold State.session
  rw [h, List.getD_eq_getElem?_getD, List.getD_eq_getElem?_getD, List.getElem?_append_left hn]

theorem session_of_last {x : Session} (h : s'.accepted = s.accepted ++ [x]) :
    s'.session s.accepted.length = x := by
  unfold State.session
  rw [h, List.getD_eq_getElem?_getD, List.getElem?_concat_length]
  rfl

theorem session_of_eq (h : s'.accepted = s.accepted) (n : Nat) : s'.session n = s.session n := by
  unfold State.session
  rw [h]

theorem count_held (hnodup : order.Nodup) :
    ((heldHandles c s order).map Prod.snd).count (.session n) = if n ∈ order then 1 else 0 := by
  have hstart : ((heldStart s c.numServices).map Prod.snd).count (.session n) = 0 := by
    rw [List.count_eq_zero]
    simp [heldStart, heldPorts]
  have hinj : Function.Injective Object.session := fun _ _ h => Object.session.inj h
  have hsessions : ((order.map fun n => ((s.session n).handle, Object.session n)).map Prod.snd) =
      order.map Object.session := List.map_map
  unfold heldHandles
  rw [List.map_append, List.count_append, hstart, hsessions, List.count_map_of_injective _ _ hinj, Nat.zero_add,
    hnodup.count]

theorem Serving.mem_iff (h : Serving c s order) :
    n ∈ order ↔ n < s.accepted.length ∧ Object.session n ∉ s.handles.returned := by
  have hcount := h.handles.count (Object.session n)
  rw [count_held h.nodup, h.given] at hcount
  rw [← List.count_eq_zero]
  by_cases hmem : n ∈ order <;> by_cases hlt : n < s.accepted.length <;>
    simp only [hmem, hlt, if_true, if_false] at hcount ⊢
  · simp only [true_and, true_iff]
    omega
  · omega
  · simp only [true_and, false_iff]
    omega
  · simp

/-- Only the variables that describe the sessions matter. -/
theorem Serving.congr (h : Serving c s order) (hw : s'.waitHandles = s.waitHandles) (hc : s'.ctxs = s.ctxs)
    (hi : s'.handlerIds = s.handlerIds) (hn : s'.numActiveSessions = s.numActiveSessions)
    (hh : s'.handles = s.handles) (hx : s'.contexts = s.contexts) (ha : s'.accepted = s.accepted) :
    Serving c s' order := by
  have hsession : s'.session = s.session := funext (session_of_eq ha)
  have hheld : heldHandles c s' order = heldHandles c s order := by
    unfold heldHandles heldStart heldPorts
    rw [hw, hsession]
  have hcontexts : heldContexts c s' order = heldContexts c s order := by
    unfold heldContexts
    rw [hsession]
  constructor
  · unfold Tabled
    rw [hsession, hw, hc, hi, hn]
    exact h.tabled
  · exact h.nodup
  · rw [hh, hheld]
    exact h.handles
  · rw [hh, ha]
    exact h.given
  · rw [hx, hcontexts]
    exact h.contexts
  · rw [hx, ha]
    exact h.contextsGiven
  · rw [hsession, ha]
    exact h.accepted
  · rw [hsession]
    exact h.quota

/-! ### A closed session -/

theorem heldStart_congr {k : Nat} (hw : ∀ j < 1 + k, s'.waitHandles j = s.waitHandles j) :
    heldStart s' k = heldStart s k := by
  unfold heldStart heldPorts
  rw [hw 0 (by omega)]
  refine congrArg _ (List.map_congr_left fun i hi => ?_)
  rw [hw (1 + i) (by simpa using hi)]

theorem heldHandles_perm (s s' : State) {order' : List Nat}
    (hw : ∀ j < 1 + c.numServices, s'.waitHandles j = s.waitHandles j)
    (hs : ∀ n ∈ order', s'.session n = s.session n) (hp : (n :: order').Perm order) :
    (heldHandles c s order).Perm (((s.session n).handle, .session n) :: heldHandles c s' order') := by
  have hsessions : (order'.map fun n => ((s'.session n).handle, Object.session n)) =
      order'.map fun n => ((s.session n).handle, Object.session n) :=
    List.map_congr_left fun n hn => by rw [hs n hn]
  unfold heldHandles
  rw [heldStart_congr hw, hsessions]
  exact ((hp.symm.map _).append_left _).trans List.perm_middle

theorem heldContexts_perm (s s' : State) {order' : List Nat} (hs : ∀ n ∈ order', s'.session n = s.session n)
    (hp : (n :: order').Perm order) (hc : c.allocator = true) :
    (heldContexts c s order).Perm (((s.session n).ctx, n) :: heldContexts c s' order') := by
  have hsessions : (order'.map fun n => ((s'.session n).ctx, n)) = order'.map fun n => ((s.session n).ctx, n) :=
    List.map_congr_left fun n hn => by rw [hs n hn]
  unfold heldContexts
  rw [if_pos hc, if_pos hc, hsessions]
  exact hp.symm.map _

theorem heldContexts_none (hc : ¬c.allocator = true) (s : State) (order : List Nat) : heldContexts c s order = [] :=
  if_neg hc

theorem Tabled.dropSession (h : Tabled c s order) {off : Nat} (hoff : order[off]? = some n) :
    Tabled c (dropSession c s off) (swapRemove order off) := by
  obtain ⟨hlen, hentry⟩ := h
  have hshort := swapRemove_length hoff
  refine ⟨by rw [Nat.eq_sub_of_add_eq hshort, hlen]; rfl, ?_⟩
  intro j m hj
  have hlt : j < order.length - 1 := by
    obtain ⟨hlt, -⟩ := List.getElem?_eq_some_iff.mp hj
    omega
  rw [swapRemove_getElem? _ _ _ hlt] at hj
  unfold ServiceManager.dropSession
  dsimp only
  show s.session m = _
  by_cases heq : j = off
  · -- the entry that was the last one
    subst heq
    rw [if_pos rfl, hlen] at hj
    rw [Function.update_self, Function.update_self, Function.update_self]
    exact hentry _ m hj
  · rw [if_neg heq] at hj
    rw [Function.update_of_ne (by omega), Function.update_of_ne heq, Function.update_of_ne heq]
    exact hentry j m hj

/-- The array without the entry describes the sessions without the closed one. -/
theorem Serving.dropSession (h : Serving c s order) {off : Nat} (hoff : off < s.numActiveSessions) :
    Serving c (dropSession c s off) (swapRemove order off) := by
  obtain ⟨hlen, hentry⟩ := h.tabled
  obtain ⟨n, hn⟩ : ∃ n, order[off]? = some n := ⟨_, List.getElem?_eq_getElem (hlen ▸ hoff)⟩
  have hp := swapRemove_perm_of_getElem hn
  have hsession := hentry off n hn
  have hw (j : Nat) (hj : j < 1 + c.numServices) :
      (ServiceManager.dropSession c s off).waitHandles j = s.waitHandles j :=
    Function.update_of_ne (by omega) ..
  constructor
  · exact h.tabled.dropSession hn
  · exact (List.nodup_cons.mp (hp.nodup_iff.mpr h.nodup)).2
  · have hkeeps := (h.handles.perm (heldHandles_perm s _ hw (fun _ _ => rfl) hp)).take
    rw [hsession] at hkeeps
    exact hkeeps
  · exact h.given
  · show Ledger.Keeps (if c.allocator then s.contexts.take (s.ctxs off) else s.contexts) _
    split_ifs with hc
    · have hkeeps := (h.contexts.perm (heldContexts_perm s _ (fun _ _ => rfl) hp hc)).take
      rw [hsession] at hkeeps
      exact hkeeps
    · have hkeeps := h.contexts
      rw [heldContexts_none hc] at hkeeps ⊢
      exact hkeeps
  · intro n
    show List.count n (Ledger.given (if c.allocator then s.contexts.take (s.ctxs off) else s.contexts)) = _
    rw [apply_ite Ledger.given, Ledger.take_given, ite_self]
    exact h.contextsGiven n
  · exact h.accepted
  · intro i
    refine le_trans ?_ (h.quota i)
    rw [← hp.countP_eq, List.countP_cons]
    exact Nat.le_add_right _ _

/-! ### A new session -/

theorem accepted_getElem? (hn : n < s.accepted.length) : s.accepted[n]? = some (s.session n) := by
  unfold State.session
  rw [List.getD_eq_getElem?_getD, List.getElem?_eq_getElem hn, Option.getD_some]

/-- The kernel and the arrays agree on how many sessions a port has. -/
theorem Serving.openSessions_length (h : Serving c s order) (i : Nat) :
    (openSessions s i).length = order.countP fun n => (s.session n).port = i := by
  rw [List.countP_eq_length_filter]
  refine List.Perm.length_eq ((List.perm_ext_iff_of_nodup (List.nodup_range.filter _) (h.nodup.filter _)).mpr fun n => ?_)
  rw [List.mem_filter, List.mem_filter, h.mem_iff, List.mem_range]
  by_cases hlt : n < s.accepted.length
  · rw [accepted_getElem? hlt]
    simp [hlt]
  · simp [hlt]

theorem Serving.fits (h : Serving c s order) : s.numActiveSessions ≤ c.maxSessionsTotal := by
  have hports : ∀ p ∈ Multiset.ofList (order.map fun n => (s.session n).port), p ∈ Finset.range c.numServices := by
    intro p hp
    obtain ⟨n, hn, rfl⟩ := List.mem_map.mp (Multiset.mem_coe.mp hp)
    exact Finset.mem_range.mpr (h.accepted n (h.mem_iff.mp hn).1).2.1
  calc s.numActiveSessions = Multiset.card (order.map fun n => (s.session n).port : Multiset Nat) := by
        rw [Multiset.coe_card, List.length_map, h.tabled.1]
    _ = ∑ i ∈ Finset.range c.numServices, (order.map fun n => (s.session n).port).count i := by
        simpa using (Multiset.sum_count_eq_card hports).symm
    _ ≤ ∑ i ∈ Finset.range c.numServices, (c.services[i]?.map ServiceEntry.maxSessions).getD 0 := by
        refine Finset.sum_le_sum fun i _ => le_trans (le_of_eq ?_) (h.quota i)
        rw [List.count_eq_countP, List.countP_map]
        exact List.countP_congr fun n _ => by simp
    _ = c.maxSessionsTotal := by
        unfold Config.maxSessionsTotal Config.numServices
        rw [Finset.sum_range, ← Fin.sum_univ_fun_getElem]
        exact Finset.sum_congr rfl fun i _ => by simp

theorem count_lengths (n m : Nat) : (if n < m then 1 else 0) + [m].count n = if n < m + 1 then 1 else 0 := by
  rcases Nat.lt_trichotomy n m with hlt | rfl | hgt
  · simp [hlt, hlt.ne', Nat.lt_succ_of_lt hlt]
  · simp
  · simp [hgt.ne, show ¬n < m by omega, show ¬n < m + 1 by omega]

theorem Serving.addSession (h : Serving c s order) {i : Nat} {ctx : Ctx} (hi : i < c.numServices)
    (hfew : c.numServices ≤ 256) (hok : AcceptOk c s a i) (hctx : c.allocator = true → ctx = a.ctx ∧ ctx ≠ 0) :
    Serving c (addSession c s a i ctx) (order ++ [s.accepted.length]) := by
  obtain ⟨⟨hzero, hfresh⟩, hroom, hunused⟩ := hok
  obtain ⟨hlen, hentry⟩ := h.tabled
  have hlast : (ServiceManager.addSession c s a i ctx).session s.accepted.length = ⟨a.handle, i, ctx⟩ :=
    session_of_last rfl
  have hold (n : Nat) (hn : n < s.accepted.length) :
      (ServiceManager.addSession c s a i ctx).session n = s.session n := session_of_append rfl hn
  have hmem (n : Nat) (hn : n ∈ order) : n < s.accepted.length := (h.mem_iff.mp hn).1
  have hp : (s.accepted.length :: order).Perm (order ++ [s.accepted.length]) :=
    (List.perm_append_singleton _ _).symm
  have hsame : ∀ n ∈ order, s.session n = (ServiceManager.addSession c s a i ctx).session n :=
    fun n hn => (hold n (hmem n hn)).symm
  constructor
  · refine ⟨by rw [List.length_append, hlen]; rfl, ?_⟩
    intro off n hoff
    rcases Nat.lt_or_ge off order.length with hlt | hge
    · rw [List.getElem?_append_left hlt] at hoff
      rw [hold n (hmem n (List.mem_of_getElem? hoff)), hentry off n hoff]
      unfold ServiceManager.addSession
      dsimp only
      rw [Function.update_of_ne (by omega), Function.update_of_ne (by omega), Function.update_of_ne (by omega)]
    · -- the new entry
      obtain rfl : off = order.length := by
        have hlt := (List.getElem?_eq_some_iff.mp hoff).1
        rw [List.length_append, List.length_singleton] at hlt
        omega
      rw [List.getElem?_concat_length] at hoff
      obtain rfl := Option.some.inj hoff
      rw [hlast]
      unfold ServiceManager.addSession
      dsimp only
      rw [hlen, Function.update_self, Function.update_self, Function.update_self,
        UInt8.toNat_ofNat_of_lt' (by show i < 256; omega)]
  · rw [← hp.nodup_iff, List.nodup_cons]
    exact ⟨fun hn => lt_irrefl _ (hmem _ hn), h.nodup⟩
  · have hw (j : Nat) (hj : j < 1 + c.numServices) :
        s.waitHandles j = (ServiceManager.addSession c s a i ctx).waitHandles j :=
      (Function.update_of_ne (by omega) ..).symm
    refine (h.handles.give hfresh (.session s.accepted.length)).perm ?_
    have hheld := heldHandles_perm _ s hw hsame hp
    rw [hlast] at hheld
    exact hheld.symm
  · intro n
    show List.count _ (s.handles.given ++ [Object.session s.accepted.length]) =
      if n < (s.accepted ++ [_]).length then 1 else 0
    rw [List.count_append, h.given, List.length_append, List.length_singleton, ← count_lengths n,
      List.count_singleton, List.count_singleton]
    simp
  · by_cases hc : c.allocator = true
    · obtain ⟨rfl, hne⟩ := hctx hc
      have hcontexts := heldContexts_perm _ s hsame hp hc
      rw [hlast] at hcontexts
      have hgive := (h.contexts.give (hunused.resolve_left hne) s.accepted.length).perm hcontexts.symm
      show Ledger.Keeps (if c.allocator = true then s.contexts.give a.ctx s.accepted.length else s.contexts) _
      rwa [if_pos hc]
    · show Ledger.Keeps (if c.allocator = true then s.contexts.give ctx s.accepted.length else s.contexts) _
      have hcontexts := h.contexts
      rw [heldContexts_none hc] at hcontexts ⊢
      rwa [if_neg hc]
  · intro n
    show List.count n (Ledger.given (if c.allocator = true then s.contexts.give ctx s.accepted.length else s.contexts)) =
      if c.allocator = true ∧ n < (s.accepted ++ [_]).length then 1 else 0
    have hgiven := h.contextsGiven n
    rw [List.length_append, List.length_singleton]
    by_cases hc : c.allocator = true
    · simp only [hc, true_and, if_true] at hgiven ⊢
      rw [Ledger.give_given, List.count_append, hgiven, count_lengths]
    · simpa [hc] using hgiven
  · intro n hn
    have hn : n < s.accepted.length + 1 := by simpa [ServiceManager.addSession] using hn
    rcases Nat.lt_succ_iff_lt_or_eq.mp hn with hlt | rfl
    · rw [hold n hlt]
      exact h.accepted n hlt
    · rw [hlast]
      exact ⟨hzero, hi, fun hc => (hctx hc).2⟩
  · intro j
    have hcongr : order.countP (fun n => ((ServiceManager.addSession c s a i ctx).session n).port = j) =
        order.countP fun n => (s.session n).port = j :=
      List.countP_congr fun n hn => by rw [hold n (hmem n hn)]
    rw [List.countP_append, hcongr, List.countP_singleton, hlast]
    by_cases hj : i = j
    · subst hj
      rw [h.openSessions_length] at hroom
      simpa using hroom
    · simpa [hj] using h.quota j

end

end Omiiba.Loader.ServiceManager
