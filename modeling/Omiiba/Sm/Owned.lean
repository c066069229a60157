/-
Who owns which handle of sm: the fixed handles, the ports of the service table, the semaphores of
the processes and the handles of the sessions are open, of the right kind and all different. Every
action of a command keeps this, and closes no handle of a session.
-/
import Omiiba.Sm.Actions

namespace Omiiba.Sm

open scoped List

/-! ## The invariant -/

structure BaseOwned (g : Globals) (k : Kernel) : Prop where
  zero : k 0 = none
  semaphore : ∃ c, k g.resumeGetServiceHandleOrPortRegisteredSemaphore = some (.semaphore c 64)
  srvPort : k g.srvPort = some .serverPort
  srvPmPort : k g.srvPmPort = some .serverPort

/-- What the client port of an entry refers to. -/
def ServiceInfo.object (e : ServiceInfo) : KObject := if e.isNamedPort then .received else .clientPort

/-- The client port of an entry is open, where there is one. -/
def PortOpen (k : Kernel) (e : ServiceInfo) : Prop := e.clientPort = 0 ∨ k e.clientPort = some e.object

/-- The client ports of the table. -/
def portsOf (l : List ServiceInfo) : List Handle := (l.map (·.clientPort)).filter (· ≠ 0)

structure ServicesOwned (k : Kernel) (l : List ServiceInfo) : Prop where
  isOpen : ∀ e ∈ l, PortOpen k e
  distinct : (portsOf l).Nodup

structure ProcessesOwned (k : Kernel) (semaphore : Nat → Handle) (lists : Lanes ProcessList Nat) : Prop where
  wf : lists.WF
  isOpen : ∀ b ∈ lists .inUse, ∃ c, k (semaphore b) = some (.semaphore c 16)
  distinct : ∀ b ∈ lists .inUse, ∀ b' ∈ lists .inUse, semaphore b = semaphore b' → b = b'

/-- A session that is not free. -/
def Live (lists : Lanes SessionList Nat) (a : Nat) : Prop := ∃ l, l ≠ .free ∧ a ∈ lists l

/-- A session that waits, or has been woken, is parked. -/
def Parked (lists : Lanes SessionList Nat) (a : Nat) : Prop := ∃ l, l ≠ .free ∧ l ≠ .inUse ∧ a ∈ lists l

structure SessionsOwned (k : Kernel) (handle : Nat → Handle) (lists : Lanes SessionList Nat) : Prop where
  wf : lists.WF
  covers : ∀ a, (∃ l, a ∈ lists l) ↔ a < poolSize
  parked : ∀ a, Parked lists a → k (handle a) = some .session
  distinct : ∀ a a', Live lists a → Live lists a' → handle a = handle a' → a = a'

/-- The handles of the sessions of the pool. -/
def State.handleOf (s : State) (a : Nat) : Handle := (s.sessionDataPool a).handle

/-- The semaphores of the processes of the pool. -/
def State.semaphoreOf (s : State) (b : Nat) : Handle := (s.processDataPool b).notificationSemaphore

/-- The invariant but for the sessions in use, one of which may have a closed handle for the length
of a system call. -/
structure Owned (g : Globals) (s : State) : Prop where
  base : BaseOwned g s.kernel
  services : ServicesOwned s.kernel s.servicesInfo
  processes : ProcessesOwned s.kernel s.semaphoreOf s.processLists
  sessions : SessionsOwned s.kernel s.handleOf s.sessionLists

def InUseOpen (s : State) : Prop := ∀ a ∈ s.sessionLists .inUse, s.kernel (s.handleOf a) = some .session

/-! ## How a handle table can change -/

/-- Objects of one kind: semaphores count differently but have one maximum. -/
inductive SameKind : KObject → KObject → Prop
  | refl (o : KObject) : SameKind o o
  | semaphore (c c' m : Nat) : SameKind (.semaphore c m) (.semaphore c' m)

/-- Handles keep their kind of object; only the ports of the table, received handles and the
semaphores of processes are closed; 0 stays closed. -/
structure Evolves (k k' : Kernel) : Prop where
  kept : ∀ h o, k h = some o → (∃ o', k' h = some o' ∧ SameKind o o') ∨
    (k' h = none ∧ (o = .clientPort ∨ o = .received ∨ ∃ c, o = .semaphore c 16))
  zero : k 0 = none → k' 0 = none

namespace Evolves

variable {k k' : Kernel}

theorem refl (k : Kernel) : Evolves k k := ⟨fun _ o ho => .inl ⟨o, ho, .refl o⟩, id⟩

theorem opened {h : Handle} (hf : Fresh k h) (o : KObject) : Evolves k (k.opened h o) := by
  refine ⟨fun x o' hx => .inl ⟨o', ?_, .refl o'⟩, fun h0 => ?_⟩
  · rw [Kernel.opened_ne _ _ (by rintro rfl; rw [hf.2] at hx; cases hx), hx]
  · rw [Kernel.opened_ne _ _ hf.1.symm, h0]

theorem released {r : Handle} {n c m : Nat} (hr : k.Released r n k') (hc : k r = some (.semaphore c m)) :
    Evolves k k' := by
  refine ⟨fun x o hx => .inl ?_, fun h0 => ?_⟩
  · by_cases hxr : x = r
    · subst hxr
      rw [hc] at hx
      cases hx
      exact ⟨_, hr.added hc, .semaphore ..⟩
    · exact ⟨o, by rw [hr.frame x hxr, hx], .refl o⟩
  · rw [hr.frame 0 (by rintro rfl; rw [hc] at h0; cases h0), h0]

theorem closeAll {hs : List Handle} (hc : ∀ h ∈ hs, ∀ o, k h = some o →
    o = .clientPort ∨ o = .received ∨ ∃ c, o = .semaphore c 16) : Evolves k (k.closeAll hs) := by
  refine ⟨fun x o hx => ?_, fun h0 => ?_⟩
  · rw [Kernel.closeAll_apply]
    by_cases hin : x ∈ hs
    · exact .inr ⟨if_pos hin, hc x hin o hx⟩
    · exact .inl ⟨o, by rw [if_neg hin, hx], .refl o⟩
  · rw [Kernel.closeAll_apply]
    split
    · rfl
    · exact h0

theorem closeHandle {h : Handle} (hc : ∀ o, k h = some o → o = .clientPort ∨ o = .received ∨ ∃ c, o = .semaphore c 16) :
    Evolves k (k.closeHandle h) := by
  have hone : k.closeHandle h = k.closeAll [h] := rfl
  rw [hone]
  exact closeAll fun x hx => List.mem_singleton.1 hx ▸ hc

theorem session (h : Evolves k k') {x : Handle} (hx : k x = some .session) : k' x = some .session := by
  rcases h.kept x _ hx with ⟨o, ho, hk⟩ | ⟨-, ho⟩
  · cases hk; exact ho
  · rcases ho with ho | ho | ⟨c, ho⟩ <;> cases ho

theorem base (h : Evolves k k') {g : Globals} (hb : BaseOwned g k) : BaseOwned g k' := by
  have hserver : ∀ x, k x = some .serverPort → k' x = some .serverPort := by
    intro x hx
    rcases h.kept x _ hx with ⟨o, ho, hk⟩ | ⟨-, ho⟩
    · cases hk; exact ho
    · rcases ho with ho | ho | ⟨c, ho⟩ <;> cases ho
  refine ⟨h.zero hb.zero, ?_, hserver _ hb.srvPort, hserver _ hb.srvPmPort⟩
  obtain ⟨c, hc⟩ := hb.semaphore
  rcases h.kept _ _ hc with ⟨o, ho, hk⟩ | ⟨-, ho⟩
  · cases hk
    · exact ⟨c, ho⟩
    · exact ⟨_, ho⟩
  · rcases ho with ho | ho | ⟨c', ho⟩ <;> cases ho

theorem portOpen (h : Evolves k k') {e : ServiceInfo} (he : PortOpen k e)
    (hkeep : e.clientPort ≠ 0 → k' e.clientPort ≠ none) : PortOpen k' e := by
  by_cases h0 : e.clientPort = 0
  · exact .inl h0
  · right
    rcases h.kept _ _ (he.resolve_left h0) with ⟨o', ho', hs⟩ | ⟨hn, -⟩
    · cases hn : e.isNamedPort <;>
      · simp only [ServiceInfo.object, hn] at hs ⊢
        cases hs
        exact ho'
    · exact absurd hn (hkeep h0)

theorem semaphore (h : Evolves k k') {x : Handle} {m : Nat} (hx : ∃ c, k x = some (.semaphore c m))
    (hkeep : k' x ≠ none) : ∃ c, k' x = some (.semaphore c m) := by
  obtain ⟨c, hc⟩ := hx
  rcases h.kept _ _ hc with ⟨o', ho', hs⟩ | ⟨hn, -⟩
  · cases hs
    · exact ⟨c, ho'⟩
    · exact ⟨_, ho'⟩
  · exact absurd hn hkeep

end Evolves

/-! ## The parts of the invariant -/

/-- A table opens nothing else: every open handle stays open. -/
def Keeps (k k' : Kernel) : Prop := ∀ h, k h ≠ none → k' h ≠ none

theorem keeps_opened (k : Kernel) (h : Handle) (o : KObject) : Keeps k (k.opened h o) := by
  intro x hx
  unfold Kernel.opened
  split
  · simp
  · exact hx

theorem keeps_released {k k' : Kernel} {r : Handle} {n c m : Nat} (hr : k.Released r n k')
    (hc : k r = some (.semaphore c m)) : Keeps k k' := by
  intro x hx
  by_cases hxr : x = r
  · subst hxr; rw [hr.added hc]; simp
  · rw [hr.frame x hxr]; exact hx

theorem PortOpen.ne_none {k : Kernel} {e : ServiceInfo} (h : PortOpen k e) (h0 : e.clientPort ≠ 0) :
    k e.clientPort ≠ none := by
  rw [h.resolve_left h0]; simp

theorem mem_portsOf {l : List ServiceInfo} {h : Handle} : h ∈ portsOf l ↔ h ≠ 0 ∧ ∃ e ∈ l, e.clientPort = h := by
  unfold portsOf
  simp [and_comm]

namespace ServicesOwned

variable {k k' : Kernel} {l : List ServiceInfo}

theorem keeps (h : ServicesOwned k l) (he : Evolves k k') (hk : Keeps k k') : ServicesOwned k' l :=
  ⟨fun e hm => he.portOpen (h.isOpen e hm) fun h0 => hk _ ((h.isOpen e hm).ne_none h0), h.distinct⟩

/-- A new entry with a port of its own. -/
theorem snoc (h : ServicesOwned k l) {e : ServiceInfo} (he : PortOpen k e)
    (hnew : e.clientPort = 0 ∨ ∀ e' ∈ l, e'.clientPort ≠ e.clientPort) : ServicesOwned k (l ++ [e]) := by
  refine ⟨fun e' he' => ?_, ?_⟩
  · rcases List.mem_append.1 he' with he' | he'
    · exact h.isOpen e' he'
    · rw [List.mem_singleton.1 he']; exact he
  · have hsplit : portsOf (l ++ [e]) = portsOf l ++ portsOf [e] := by unfold portsOf; simp
    rw [hsplit, List.nodup_append]
    refine ⟨h.distinct, ?_, fun x hx y hy => ?_⟩
    · unfold portsOf
      exact (List.nodup_singleton _).filter _
    · rintro rfl
      obtain ⟨h0, e1, he1, rfl⟩ := mem_portsOf.1 hx
      obtain ⟨-, e2, he2, heq⟩ := mem_portsOf.1 hy
      obtain rfl := List.mem_singleton.1 he2
      rcases hnew with hnew | hnew
      · exact h0 (heq.symm.trans hnew)
      · exact hnew e1 he1 heq.symm

/-- Entries removed with their ports closed. -/
theorem kept (h : ServicesOwned k l) {removed kept : List ServiceInfo} (hp : removed ++ kept ~ l) :
    ServicesOwned (k.closeAll (removed.map (·.clientPort))) kept := by
  have hnd : (portsOf removed ++ portsOf kept).Nodup := by
    have hsplit : portsOf removed ++ portsOf kept = portsOf (removed ++ kept) := by unfold portsOf; simp
    rw [hsplit]
    exact ((hp.map _).filter _).nodup_iff.2 h.distinct
  obtain ⟨-, hkept, hdisj⟩ := List.nodup_append.1 hnd
  refine ⟨fun e he => ?_, hkept⟩
  rcases h.isOpen e (hp.subset (List.mem_append_right _ he)) with h0 | ho
  · exact .inl h0
  · by_cases h0 : e.clientPort = 0
    · exact .inl h0
    · right
      rw [Kernel.closeAll_apply, if_neg, ho]
      intro hin
      obtain ⟨e', he', heq⟩ := List.mem_map.1 hin
      exact hdisj _ (mem_portsOf.2 ⟨h0, e', he', heq⟩) _ (mem_portsOf.2 ⟨h0, e, he, rfl⟩) rfl

theorem evolves (h : ServicesOwned k l) (h0 : k 0 = none) {removed kept : List ServiceInfo}
    (hp : removed ++ kept ~ l) : Evolves k (k.closeAll (removed.map (·.clientPort))) := by
  refine Evolves.closeAll fun x hx o ho => ?_
  obtain ⟨e, he, rfl⟩ := List.mem_map.1 hx
  rcases h.isOpen e (hp.subset (List.mem_append_left _ he)) with hz | hz
  · rw [hz, h0] at ho; cases ho
  · rw [hz] at ho
    cases ho
    unfold ServiceInfo.object
    split
    · exact .inr (.inl rfl)
    · exact .inl rfl

theorem closeHandle (h : ServicesOwned k l) {x : Handle} (hx : ∀ e ∈ l, e.clientPort ≠ 0 → e.clientPort ≠ x) :
    ServicesOwned (k.closeHandle x) l := by
  refine ⟨fun e he => ?_, h.distinct⟩
  by_cases h0 : e.clientPort = 0
  · exact .inl h0
  · right
    rw [Kernel.closeHandle_ne _ (hx e he h0)]
    exact (h.isOpen e he).resolve_left h0

/-- An open handle of another kind is no port of the table. -/
theorem ne_port (h : ServicesOwned k l) {x : Handle} {o : KObject} (hx : k x = some o) (hc : o ≠ .clientPort)
    (hr : o ≠ .received) : ∀ e ∈ l, e.clientPort ≠ 0 → e.clientPort ≠ x := by
  rintro e he h0 rfl
  rw [(h.isOpen e he).resolve_left h0] at hx
  cases hx
  cases hn : e.isNamedPort
  · exact hc (by simp [ServiceInfo.object, hn])
  · exact hr (by simp [ServiceInfo.object, hn])

end ServicesOwned

namespace ProcessesOwned

variable {k k' : Kernel} {semaphore : Nat → Handle} {lists : Lanes ProcessList Nat}

theorem evolves (h : ProcessesOwned k semaphore lists) (he : Evolves k k')
    (hkeep : ∀ b ∈ lists .inUse, k' (semaphore b) ≠ none) : ProcessesOwned k' semaphore lists :=
  ⟨h.wf, fun b hb => he.semaphore (h.isOpen b hb) (hkeep b hb), h.distinct⟩

theorem ne_none (h : ProcessesOwned k semaphore lists) {b : Nat} (hb : b ∈ lists .inUse) : k (semaphore b) ≠ none := by
  obtain ⟨c, hc⟩ := h.isOpen b hb
  rw [hc]; simp

theorem keeps (h : ProcessesOwned k semaphore lists) (he : Evolves k k') (hk : Keeps k k') :
    ProcessesOwned k' semaphore lists :=
  h.evolves he fun _ hb => hk _ (h.ne_none hb)

/-- A process with a new semaphore is put in use. -/
theorem opened (h : ProcessesOwned k semaphore lists) {b : Nat} {x : Handle} (hb : b ∈ lists .free) (hx : Fresh k x) :
    ProcessesOwned (k.opened x (.semaphore 0 16)) (fun b' => if b' = b then x else semaphore b')
      (lists.move b .inUse false) := by
  have hnew : ∀ b' ∈ lists .inUse, semaphore b' ≠ x := by
    rintro b' hb' rfl
    exact h.ne_none hb' hx.2
  refine ⟨h.wf.move b _ _, fun b' hb' => ?_, fun b1 h1 b2 h2 heq => ?_⟩
  · rcases (Lanes.mem_move h.wf).1 hb' with ⟨rfl, -⟩ | ⟨hne, hb'⟩
    · rw [if_pos rfl]
      exact ⟨0, Kernel.opened_same ..⟩
    · rw [if_neg hne, Kernel.opened_ne _ _ (hnew b' hb')]
      exact h.isOpen b' hb'
  · rcases (Lanes.mem_move h.wf).1 h1 with ⟨rfl, -⟩ | ⟨hne1, hu1⟩ <;>
      rcases (Lanes.mem_move h.wf).1 h2 with ⟨rfl, -⟩ | ⟨hne2, hu2⟩
    · rfl
    · rw [if_pos rfl, if_neg hne2] at heq
      exact absurd heq.symm (hnew b2 hu2)
    · rw [if_pos rfl, if_neg hne1] at heq
      exact absurd heq (hnew b1 hu1)
    · rw [if_neg hne1, if_neg hne2] at heq
      exact h.distinct b1 hu1 b2 hu2 heq

/-- The semaphore of a process is closed and the process freed. -/
theorem freed (h : ProcessesOwned k semaphore lists) {b : Nat} (hb : b ∈ lists .inUse) :
    ProcessesOwned (k.closeHandle (semaphore b)) semaphore (lists.move b .free false) := by
  have hother : ∀ b' ∈ lists.move b .free false .inUse, b' ≠ b ∧ b' ∈ lists .inUse := fun b' hb' => by
    rcases (Lanes.mem_move h.wf).1 hb' with ⟨-, hl⟩ | hb'
    · cases hl
    · exact hb'
  refine ⟨h.wf.move b _ _, fun b' hb' => ?_, fun b1 h1 b2 h2 => h.distinct b1 (hother b1 h1).2 b2 (hother b2 h2).2⟩
  obtain ⟨hne, hb'⟩ := hother b' hb'
  rw [Kernel.closeHandle_ne _ fun heq => hne (h.distinct b' hb' b hb heq)]
  exact h.isOpen b' hb'

end ProcessesOwned

/-! ## Sessions moved from one list to another -/

/-- A list a session waits on. -/
def Parking (l : SessionList) : Prop := l ≠ .free ∧ l ≠ .inUse

instance (l : SessionList) : Decidable (Parking l) := inferInstanceAs (Decidable (l ≠ .free ∧ l ≠ .inUse))

/-- Waiting sessions have been moved, in order, to the back of another list. -/
structure Moved (src dst : SessionList) (lists : Lanes SessionList Nat) (ws : List Nat)
    (lists' : Lanes SessionList Nat) : Prop where
  ne : src ≠ dst
  src_parking : Parking src
  dst_parking : Parking dst
  waiting : ∀ a ∈ ws, a ∈ lists src
  moved : Lanes.MovedAll lists ws src dst lists'
  wf : lists'.WF

/-- Sessions waiting for a registration have been woken. -/
abbrev Woken := Moved .waitingForServiceOrPortRegister .toWakeUpAfterServiceOrPortRegister

namespace Moved

variable {src dst : SessionList} {lists lists' lists'' : Lanes SessionList Nat} {ws ws' : List Nat}

theorem of_nodup (hne : src ≠ dst) (hsrc : Parking src) (hdst : Parking dst) (h : lists.WF) (hnd : ws.Nodup)
    (hw : ∀ a ∈ ws, a ∈ lists src) : Moved src dst lists ws (lists.moveAll ws dst) :=
  ⟨hne, hsrc, hdst, hw, Lanes.moveAll_spec h hnd hw hne, h.moveAll _ _⟩

theorem refl (hne : src ≠ dst) (hsrc : Parking src) (hdst : Parking dst) (h : lists.WF) : Moved src dst lists [] lists :=
  ⟨hne, hsrc, hdst, nofun, .refl .., h⟩

theorem trans (h1 : Moved src dst lists ws lists') (h2 : Moved src dst lists' ws' lists'') :
    Moved src dst lists (ws ++ ws') lists'' := by
  refine ⟨h1.ne, h1.src_parking, h1.dst_parking, fun a ha => ?_, h1.moved.trans h2.moved, h2.wf⟩
  rcases List.mem_append.1 ha with ha | ha
  · exact h1.waiting a ha
  · have hm := h2.waiting a ha
    rw [h1.moved.at_src] at hm
    exact (List.mem_filter.1 hm).1

theorem mem (hwf : lists.WF) (h : Moved src dst lists ws lists') {a : Nat} {l : SessionList} :
    a ∈ lists' l ↔ (a ∈ ws ∧ l = dst) ∨ (a ∉ ws ∧ a ∈ lists l) :=
  h.moved.mem hwf h.waiting h.ne

/-- The lists but the two are untouched. -/
theorem frame (h : Moved src dst lists ws lists') {l : SessionList} (hs : l ≠ src) (hd : l ≠ dst) : lists' l = lists l :=
  h.moved.frame l hs hd

theorem inUse (h : Moved src dst lists ws lists') : lists' .inUse = lists .inUse :=
  h.frame h.src_parking.2.symm h.dst_parking.2.symm

theorem live (hwf : lists.WF) (h : Moved src dst lists ws lists') {a : Nat} (ha : Live lists' a) : Live lists a := by
  obtain ⟨l, hl, ha⟩ := ha
  rcases (h.mem hwf).1 ha with ⟨ha, -⟩ | ⟨-, ha⟩
  · exact ⟨src, h.src_parking.1, h.waiting a ha⟩
  · exact ⟨l, hl, ha⟩

theorem parked (hwf : lists.WF) (h : Moved src dst lists ws lists') {a : Nat} (ha : Parked lists' a) :
    Parked lists a := by
  obtain ⟨l, hf, hu, ha⟩ := ha
  rcases (h.mem hwf).1 ha with ⟨ha, -⟩ | ⟨-, ha⟩
  · exact ⟨src, h.src_parking.1, h.src_parking.2, h.waiting a ha⟩
  · exact ⟨l, hf, hu, ha⟩

/-- Every session is on a list before and after. -/
theorem covers (hwf : lists.WF) (h : Moved src dst lists ws lists') {a : Nat} :
    (∃ l, a ∈ lists' l) ↔ ∃ l, a ∈ lists l := by
  constructor
  · rintro ⟨l, ha⟩
    rcases (h.mem hwf).1 ha with ⟨ha, -⟩ | ⟨-, ha⟩
    · exact ⟨src, h.waiting a ha⟩
    · exact ⟨l, ha⟩
  · rintro ⟨l, ha⟩
    by_cases hw : a ∈ ws
    · exact ⟨dst, (h.mem hwf).2 (.inl ⟨hw, rfl⟩)⟩
    · exact ⟨l, (h.mem hwf).2 (.inr ⟨hw, ha⟩)⟩

end Moved

theorem Woken.refl {lists : Lanes SessionList Nat} (h : lists.WF) : Woken lists [] lists :=
  Moved.refl (by decide) (by decide) (by decide) h

namespace SessionsOwned

variable {k k' : Kernel} {handle : Nat → Handle} {lists lists' : Lanes SessionList Nat}

/-- Commands close no session. -/
theorem evolves (h : SessionsOwned k handle lists) (he : Evolves k k') : SessionsOwned k' handle lists :=
  ⟨h.wf, h.covers, fun a ha => he.session (h.parked a ha), h.distinct⟩

theorem moved (h : SessionsOwned k handle lists) {src dst : SessionList} {ws : List Nat}
    (hw : Moved src dst lists ws lists') : SessionsOwned k handle lists' where
  wf := hw.wf
  covers a := (hw.covers h.wf).trans (h.covers a)
  parked a ha := h.parked a (hw.parked h.wf ha)
  distinct a a' ha ha' := h.distinct a a' (hw.live h.wf ha) (hw.live h.wf ha')

end SessionsOwned

/-! ## What commands do to sessions -/

/-- The waiters of a name are woken by a registration. -/
theorem woken_waiters {s : State} (hwf : s.sessionLists.WF) (isNamedPort : Bool) (name : Nat → UInt8) :
    Woken s.sessionLists (waiters s isNamedPort name)
      (s.sessionLists.moveAll (waiters s isNamedPort name) .toWakeUpAfterServiceOrPortRegister) := by
  exact Moved.of_nodup (by decide) (by decide) (by decide) hwf ((hwf.nodup _).filter _)
    fun a ha => (List.mem_filter.1 ha).1

/-- What a command of session `a` does to sessions: it changes neither another session nor a handle,
and what it wakes is recorded and has tokens. -/
structure SessionFrame (g : Globals) (a : Nat) (ws : List Nat) (s s' : State) : Prop where
  others : ∀ b, b ≠ a → s'.sessionDataPool b = s.sessionDataPool b
  handleOf : s'.handleOf = s.handleOf
  isSrvPm : ∀ b, (s'.sessionDataPool b).isSrvPm = (s.sessionDataPool b).isSrvPm
  woken : Woken s.sessionLists ws s'.sessionLists
  history : s'.history = { s.history with woken := s.history.woken ++ ws }
  replyTarget : s'.replyTarget = s.replyTarget
  sessions : ∀ h, s.kernel h = some .session → s'.kernel h = some .session
  tokens : s'.kernel.count g.resumeGetServiceHandleOrPortRegisteredSemaphore =
    s.kernel.count g.resumeGetServiceHandleOrPortRegisteredSemaphore + ws.length

namespace SessionFrame

variable {g : Globals} {a : Nat} {ws ws' : List Nat} {s s' s'' : State}

/-- A step that has nothing to do with sessions. -/
theorem of_eq (hwf : s.sessionLists.WF) (hpool : s'.sessionDataPool = s.sessionDataPool)
    (hlists : s'.sessionLists = s.sessionLists) (hhistory : s'.history = s.history)
    (hreply : s'.replyTarget = s.replyTarget) (he : Evolves s.kernel s'.kernel)
    (hkernel : s'.kernel g.resumeGetServiceHandleOrPortRegisteredSemaphore =
      s.kernel g.resumeGetServiceHandleOrPortRegisteredSemaphore) : SessionFrame g a [] s s' where
  others b _ := by rw [hpool]
  handleOf := by unfold State.handleOf; rw [hpool]
  isSrvPm b := by rw [hpool]
  woken := by rw [hlists]; exact Woken.refl hwf
  history := by rw [hhistory, List.append_nil]
  replyTarget := hreply
  sessions h hh := he.session hh
  tokens := by unfold Kernel.count; rw [hkernel]; rfl

theorem trans (h1 : SessionFrame g a ws s s') (h2 : SessionFrame g a ws' s' s'') :
    SessionFrame g a (ws ++ ws') s s'' where
  others b hb := by rw [h2.others b hb, h1.others b hb]
  handleOf := by rw [h2.handleOf, h1.handleOf]
  isSrvPm b := by rw [h2.isSrvPm b, h1.isSrvPm b]
  woken := h1.woken.trans h2.woken
  history := by rw [h2.history, h1.history, List.append_assoc]
  replyTarget := by rw [h2.replyTarget, h1.replyTarget]
  sessions h hh := h2.sessions h (h1.sessions h hh)
  tokens := by rw [h2.tokens, h1.tokens, List.length_append, Nat.add_assoc]

/-- Sessions in use stay in use. -/
theorem inUse (h : SessionFrame g a ws s s') : s'.sessionLists .inUse = s.sessionLists .inUse := h.woken.inUse

/-- Only the loop parks a session on a full port, and takes it back. -/
theorem portReady (h : SessionFrame g a ws s s') :
    s'.sessionLists .waitingPortReady = s.sessionLists .waitingPortReady := h.woken.frame (by decide) (by decide)

theorem inUseOpen (h : SessionFrame g a ws s s') (hu : InUseOpen s) : InUseOpen s' := by
  intro b hb
  rw [h.inUse] at hb
  rw [h.handleOf]
  exact h.sessions _ (hu b hb)

end SessionFrame

/-! ## Actions keep the invariant -/

section

variable {g : Globals} {a : Nat} {s s' : State}

theorem BaseOwned.ne_semaphore {k : Kernel} (hb : BaseOwned g k) {h : Handle} {o : KObject} (ho : k h = some o)
    (hne : ∀ c, o ≠ .semaphore c 64) : g.resumeGetServiceHandleOrPortRegisteredSemaphore ≠ h := by
  rintro rfl
  obtain ⟨c, hc⟩ := hb.semaphore
  rw [hc] at ho
  cases ho
  exact hne c rfl

theorem BaseOwned.ne_fresh {k : Kernel} (hb : BaseOwned g k) {h : Handle} (hf : Fresh k h) :
    g.resumeGetServiceHandleOrPortRegisteredSemaphore ≠ h := by
  rintro rfl
  obtain ⟨c, hc⟩ := hb.semaphore
  rw [hf.2] at hc
  cases hc

/-- Adding an entry whose port is open and no other entry's. -/
theorem Owned.addService (ho : Owned g s) {info : ServiceInfo} {name : Nat → UInt8} (hp : PortOpen s.kernel info)
    (hnew : info.clientPort = 0 ∨ ∀ e ∈ s.servicesInfo, e.clientPort ≠ info.clientPort)
    (h : addService g s info name = .ok s') :
    Owned g s' ∧ SessionFrame g a (waiters s info.isNamedPort name) s s' := by
  obtain ⟨kernel, hr, rfl⟩ := addService_ok h
  obtain ⟨c, hc⟩ := ho.base.semaphore
  have hev := Evolves.released hr hc
  have hk := keeps_released hr hc
  have hw := woken_waiters ho.sessions.wf info.isNamedPort name
  refine ⟨⟨hev.base ho.base, (ho.services.snoc hp hnew).keeps hev hk, ho.processes.keeps hev hk,
    (ho.sessions.evolves hev).moved hw⟩, ⟨fun _ _ => rfl, rfl, fun _ => rfl, hw, rfl, rfl,
      fun _ => hev.session, ?_⟩⟩
  unfold Kernel.count
  dsimp only
  rw [hr.added hc, hc]

/-- A new service has a new port. -/
theorem Owned.opened (ho : Owned g s) {h : Handle} (hf : Fresh s.kernel h) (o : KObject) :
    Owned g { s with kernel := s.kernel.opened h o } := by
  have hev := Evolves.opened hf o
  have hk := keeps_opened s.kernel h o
  exact ⟨hev.base ho.base, ho.services.keeps hev hk, ho.processes.keeps hev hk, ho.sessions.evolves hev⟩

theorem handleOf_setSession {d : SessionData} (hh : d.handle = s.handleOf a) : (s.setSession a d).handleOf = s.handleOf := by
  funext b
  unfold State.handleOf State.setSession
  dsimp only
  split
  · next hb => rw [hb, hh]; rfl
  · rfl

theorem Owned.setSession (ho : Owned g s) {d : SessionData} (hh : d.handle = s.handleOf a) : Owned g (s.setSession a d) :=
  ⟨ho.base, ho.services, ho.processes, (handleOf_setSession hh).symm ▸ ho.sessions⟩

/-- An action keeps the invariant, and what it does to sessions. -/
theorem Owned.action {ports : List Handle} (ho : Owned g s) (h : Action g a ports s s') : Owned g s' ∧ ∃ ws, SessionFrame g a ws s s' := by
  cases h with
  | reply _ cmdbuf =>
    exact ⟨⟨ho.base, ho.services, ho.processes, ho.sessions⟩, _, .of_eq ho.sessions.wf rfl rfl rfl rfl (.refl _) rfl⟩
  | session _ d hh hpm =>
    refine ⟨ho.setSession hh, [], fun b hb => if_neg hb, handleOf_setSession hh, fun b => ?_, Woken.refl ho.sessions.wf, ?_,
      rfl, fun _ => id, rfl⟩
    · unfold State.setSession
      dsimp only
      split
      · next hb => rw [hb, hpm]
      · rfl
    · rw [List.append_nil]; rfl
  | registerService _ _ info name kind port added =>
    have hev := Evolves.opened port .clientPort
    have hopen : PortOpen (s.kernel.opened info.clientPort .clientPort) info := by
      right
      rw [Kernel.opened_same, ServiceInfo.object, kind]; rfl
    have hnew : ∀ e ∈ s.servicesInfo, e.clientPort ≠ info.clientPort := fun e he heq =>
      (ho.services.isOpen e he).ne_none (heq ▸ port.1) (heq ▸ port.2)
    obtain ⟨ho', hf⟩ := (ho.opened port .clientPort).addService (a := a) hopen (.inr hnew) added
    have hs : SessionFrame g a [] s { s with kernel := s.kernel.opened info.clientPort .clientPort } :=
      .of_eq ho.sessions.wf rfl rfl rfl rfl hev (Kernel.opened_ne _ _ (ho.base.ne_fresh port))
    exact ⟨ho', _, hs.trans hf⟩
  | registerPort _ _ info name kind port added =>
    have hopen : PortOpen s.kernel info := port.imp id fun hr => by rw [hr.1, ServiceInfo.object, kind]; rfl
    obtain ⟨ho', hf⟩ := ho.addService (a := a) hopen (port.imp id And.right) added
    exact ⟨ho', _, hf⟩
  | unregister _ removed kept perm closed =>
    have hev := ho.services.evolves ho.base.zero perm
    -- no semaphore is a port of the table
    have hsem : ∀ {x c m}, s.kernel x = some (.semaphore c m) →
        s.kernel.closeAll (removed.map (·.clientPort)) x = s.kernel x := by
      intro x c m hx
      rw [Kernel.closeAll_apply, if_neg]
      intro hin
      obtain ⟨e, he, rfl⟩ := List.mem_map.1 hin
      refine ho.services.ne_port hx nofun nofun e (perm.subset (List.mem_append_left _ he)) (fun h0 => ?_) rfl
      rw [h0, ho.base.zero] at hx
      cases hx
    refine ⟨⟨hev.base ho.base, ho.services.kept perm, ho.processes.evolves hev fun b hb => ?_,
      ho.sessions.evolves hev⟩, [], .of_eq ho.sessions.wf rfl rfl rfl rfl hev ?_⟩
    · obtain ⟨c, hc⟩ := ho.processes.isOpen b hb
      exact ne_of_eq_of_ne ((hsem hc).trans hc) (Option.some_ne_none _)
    · obtain ⟨c, hc⟩ := ho.base.semaphore
      exact hsem hc
  | newProcess sys _ _ pid b fresh done =>
    obtain ⟨hfree, hc, rfl⟩ := doRegisterProcess_ok done
    have hf := fresh hc
    have hev := Evolves.opened hf (.semaphore 0 0x10)
    have hk := keeps_opened s.kernel sys.createSemaphore.2 (.semaphore 0 0x10)
    refine ⟨⟨hev.base ho.base, ho.services.keeps hev hk, ?_, ho.sessions.evolves hev⟩, [],
      .of_eq ho.sessions.wf rfl rfl rfl rfl hev (Kernel.opened_ne _ _ (ho.base.ne_fresh hf))⟩
    have hpool : (s.setProcess b { ProcessData.zero with pid, notificationSemaphore := sys.createSemaphore.2 }).semaphoreOf =
        fun b' => if b' = b then sys.createSemaphore.2 else s.semaphoreOf b' := by
      funext b'
      unfold State.semaphoreOf State.setProcess
      dsimp only
      split <;> rfl
    have hopened := ho.processes.opened (List.mem_of_mem_head? hfree) hf
    rw [← hpool] at hopened
    exact hopened
  | endProcess _ b inUse =>
    obtain ⟨c, hc⟩ := ho.processes.isOpen b inUse
    have hev : Evolves s.kernel (s.kernel.closeHandle (s.semaphoreOf b)) :=
      .closeHandle fun o hb => .inr (.inr ⟨c, Option.some.inj (hb.symm.trans hc)⟩)
    refine ⟨⟨hev.base ho.base, ho.services.closeHandle (ho.services.ne_port hc nofun nofun), ho.processes.freed inUse,
      ho.sessions.evolves hev⟩, [], .of_eq ho.sessions.wf rfl rfl rfl rfl hev ?_⟩
    exact Kernel.closeHandle_ne _ (ho.base.ne_semaphore hc fun _ => by simp)
  | process _ b p semaphore =>
    have hpool : (s.setProcess b p).semaphoreOf = s.semaphoreOf := by
      funext b'
      unfold State.semaphoreOf State.setProcess
      dsimp only
      split
      · next hb => rw [hb, semaphore]
      · rfl
    refine ⟨⟨ho.base, ho.services, ?_, ho.sessions⟩, [], .of_eq ho.sessions.wf rfl rfl rfl rfl (.refl _) rfl⟩
    rw [hpool]; exact ho.processes
  | notify _ b kernel inUse released =>
    obtain ⟨c, hc⟩ := ho.processes.isOpen b inUse
    have hr := Kernel.releaseSemaphore_some released
    have hev := Evolves.released hr hc
    have hk := keeps_released hr hc
    refine ⟨⟨hev.base ho.base, ho.services.keeps hev hk, ho.processes.keeps hev hk, ho.sessions.evolves hev⟩, [],
      .of_eq ho.sessions.wf rfl rfl rfl rfl hev ?_⟩
    exact hr.frame _ (ho.base.ne_semaphore hc fun _ => by simp)
  | closeReceived _ h unowned =>
    have hev : Evolves s.kernel (s.kernel.closeHandle h) := by
      refine .closeHandle fun o hh => ?_
      rcases unowned with rfl | ⟨hr, -⟩
      · rw [ho.base.zero] at hh; cases hh
      · exact .inr (.inl (Option.some.inj (hh.symm.trans hr)))
    -- a received handle is no semaphore
    have hsem : ∀ {x c m}, s.kernel x = some (.semaphore c m) → x ≠ h := by
      rintro x c m hx rfl
      rcases unowned with rfl | ⟨hr, -⟩
      · rw [ho.base.zero] at hx; cases hx
      · rw [hr] at hx; cases hx
    refine ⟨⟨hev.base ho.base, ho.services.closeHandle fun e he h0 => ?_, ho.processes.evolves hev fun b hb => ?_,
      ho.sessions.evolves hev⟩, [], .of_eq ho.sessions.wf rfl rfl rfl rfl hev ?_⟩
    · rcases unowned with rfl | ⟨-, hu⟩
      · exact h0
      · exact hu e he
    · obtain ⟨c, hc⟩ := ho.processes.isOpen b hb
      exact ne_of_eq_of_ne ((Kernel.closeHandle_ne _ (hsem hc)).trans hc) (Option.some_ne_none _)
    · obtain ⟨c, hc⟩ := ho.base.semaphore
      exact Kernel.closeHandle_ne _ (hsem hc)

/-- Commands keep the invariant, and what they do to sessions. -/
theorem Owned.actions {ports : List Handle} (ho : Owned g s) (h : Actions g a ports s s') : Owned g s' ∧ ∃ ws, SessionFrame g a ws s s' := by
  induction h with
  | refl => exact ⟨ho, [], .of_eq ho.sessions.wf rfl rfl rfl rfl (.refl _) rfl⟩
  | tail _ hlast ih =>
    obtain ⟨ho1, ws, h1⟩ := ih
    obtain ⟨ho2, ws', h2⟩ := ho1.action hlast
    exact ⟨ho2, ws ++ ws', h1.trans h2⟩

end

end Omiiba.Sm
