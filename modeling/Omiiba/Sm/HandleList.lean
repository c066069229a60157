/-
The handles given to `svcReplyAndReceive`. A client port is in the service table and, while it is
full, in the sessions that wait for room: unregistering closes it under them. A closed session is
looked up by handle in the whole pool, where a free element may still hold the same value. Short of
these two every handle of the array is open, in every state the loop reaches.
-/
import Omiiba.Sm.Script

namespace Omiiba.Sm

/-! ## What closes a port -/

section

variable {g : Globals} {s s' : State} {i : Input} {a : Nat}

/-- An action closes no client port but those it may close. -/
theorem Action.port {ports : List Handle} (ho : Owned g s) (h : Action g a ports s s') {x : Handle}
    (hx : s.kernel x = some .clientPort) (hp : x ∉ ports) : s'.kernel x = some .clientPort := by
  cases h with
  | reply _ cmdbuf => exact hx
  | session _ d hh hpm => exact hx
  | registerService _ _ info name kind port added =>
    obtain ⟨kernel, hr, rfl⟩ := addService_ok added
    refine (hr.frame x (ho.base.ne_semaphore hx nofun).symm).trans ((Kernel.opened_ne _ _ ?_).trans hx)
    rintro rfl
    rw [port.2] at hx; cases hx
  | registerPort _ _ info name kind port added =>
    obtain ⟨kernel, hr, rfl⟩ := addService_ok added
    exact (hr.frame x (ho.base.ne_semaphore hx nofun).symm).trans hx
  | unregister _ removed kept perm closed =>
    show s.kernel.closeAll _ x = _
    rw [Kernel.closeAll_apply, if_neg, hx]
    intro hin
    obtain ⟨e, he, rfl⟩ := List.mem_map.1 hin
    exact hp (closed e he)
  | newProcess sys _ _ pid b fresh done =>
    obtain ⟨-, hc, rfl⟩ := doRegisterProcess_ok done
    exact (Kernel.opened_ne _ _ (by rintro rfl; rw [(fresh hc).2] at hx; cases hx)).trans hx
  | endProcess _ b inUse =>
    obtain ⟨c, hc⟩ := ho.processes.isOpen b inUse
    exact (Kernel.closeHandle_ne _ (by rintro rfl; exact absurd (hc.symm.trans hx) (by simp))).trans hx
  | process _ b p semaphore => exact hx
  | notify _ b kernel inUse released =>
    obtain ⟨c, hc⟩ := ho.processes.isOpen b inUse
    exact ((Kernel.releaseSemaphore_some released).frame x
      (by rintro rfl; exact absurd (hc.symm.trans hx) (by simp))).trans hx
  | closeReceived _ h unowned =>
    refine (Kernel.closeHandle_ne _ ?_).trans hx
    rintro rfl
    rcases unowned with rfl | ⟨hr, -⟩
    · rw [ho.base.zero] at hx; cases hx
    · rw [hr] at hx; cases hx

theorem Actions.port {ports : List Handle} (ho : Owned g s) (h : Actions g a ports s s') {x : Handle}
    (hx : s.kernel x = some .clientPort) (hp : x ∉ ports) : s'.kernel x = some .clientPort := by
  induction h with
  | refl => exact hx
  | tail hs hlast ih => exact hlast.port (ho.actions hs).1 ih hp

theorem unregister_closes {pid : UInt32} {name : Nat → UInt8} {nameSize : Int} {isNamedPort : Bool} {x : Handle}
    (hx : x ∈ unregisteredPorts s pid name nameSize isNamedPort) :
    (unregisterServiceOrPort s pid name nameSize isNamedPort).2.kernel x = none := by
  unfold unregisteredPorts at hx
  unfold unregisterServiceOrPort
  dsimp only
  split at hx
  · cases hx
  · next hv =>
    rw [if_neg hv]
    rcases hf : findService s.servicesInfo isNamedPort name nameSize with - | ⟨n, info⟩
    · rw [hf] at hx; cases hx
    · rw [hf] at hx
      dsimp only at hx ⊢
      split at hx
      · next hpid =>
        obtain rfl := List.mem_singleton.1 hx
        rw [if_neg (not_not.2 hpid)]
        exact Kernel.closeHandle_same ..
      · cases hx

theorem unregisterProcess_closes {pid : UInt32} {x : Handle} (hx : x ∈ processPorts s pid) :
    (unregisterProcess s pid).2.kernel x = none := by
  unfold processPorts at hx
  rcases unregisterProcess_cases s pid with ⟨hf, -⟩ | ⟨b, removed, kept, hf, hperm, -, hkept, heq⟩
  · rw [if_pos hf] at hx; cases hx
  · rw [if_neg (by rw [hf]; nofun)] at hx
    obtain ⟨e, he, rfl⟩ := List.mem_map.1 hx
    obtain ⟨he, hpid⟩ := List.mem_filter.1 he
    rw [heq]
    show (s.kernel.closeHandle _).closeAll _ _ = _
    rw [Kernel.closeAll_apply, if_pos]
    rcases List.mem_append.1 (hperm.symm.subset he) with he | he
    · exact List.mem_map_of_mem he
    · exact absurd (by simpa using hpid) (hkept e he)

theorem srvHandleCommands_closes {sys : Syscalls} {res : Result} (h : srvHandleCommands g sys s a = .ok (res, s'))
    {x : Handle} (hx : x ∈ srvClosedPorts s a) : s'.kernel x = none := by
  unfold srvClosedPorts at hx
  dsimp only at hx
  unfold srvHandleCommands at h
  dsimp only at h
  split at hx
  · next hcmd =>
    rw [hcmd] at h
    cases h
    exact unregister_closes hx
  · next hcmd =>
    rw [hcmd] at h
    cases h
    exact unregister_closes hx
  · cases hx

/-- The ports a command may close are closed by it. -/
theorem handleCommands_closes {sys : Syscalls} {res : Result} (h : handleCommands g sys s a = .ok (res, s')) {x : Handle}
    (hx : x ∈ closedPorts g s a) : s'.kernel x = none := by
  unfold closedPorts at hx
  dsimp only at hx
  unfold handleCommands at h
  split at h
  · next hpm =>
    unfold srvPmHandleCommands at h
    dsimp only at h
    by_cases hpre : g.isPre7x = true ∧ (s.cmdbuf 0 &&& 0x04000000) >>> 16 = 0
    · rw [if_pos hpre] at h
      rw [if_pos (.inr hpre)] at hx
      exact srvHandleCommands_closes h hx
    rw [if_neg hpre] at h
    rw [if_neg (by rw [hpm]; simpa using hpre)] at hx
    split at hx
    · cases hx
    · next hmask =>
      rw [if_neg hmask] at h
      split at hx
      · next hcmd =>
        rw [hcmd] at h
        cases h
        exact unregisterProcess_closes hx
      · cases hx
  · next hpm =>
    rw [if_pos (.inl (by simpa using hpm))] at hx
    exact srvHandleCommands_closes h hx

/-! ## The invariant -/

/-- Every handle given to `svcReplyAndReceive` is open. -/
def HandlesOpen (g : Globals) (s : State) : Prop := ∀ h ∈ s.handles g, s.kernel h ≠ none

/-- The port a waiting session waits for is open. -/
def BusyOpen (s : State) : Prop :=
  ∀ b ∈ s.sessionLists .waitingPortReady, s.kernel (s.sessionDataPool b).busyClientPortHandle = some .clientPort

structure HandleInv (g : Globals) (s : State) : Prop extends LoopInv g s where
  inUseOpen : InUseOpen s
  busyOpen : BusyOpen s

theorem mem_sessionHandles {b : Nat} (hb : b ∈ s.sessionLists .inUse) : s.handleOf b ∈ s.handles g := by
  unfold State.handles State.sessionHandles
  simp only [List.mem_append, List.mem_map]
  exact .inl (.inr ⟨b, hb, rfl⟩)

theorem mem_portHandles {b : Nat} (hb : b ∈ s.sessionLists .waitingPortReady) :
    (s.sessionDataPool b).busyClientPortHandle ∈ s.handles g := by
  unfold State.handles State.portHandles
  simp only [List.mem_append, List.mem_map]
  exact .inr ⟨b, hb, rfl⟩

theorem HandleInv.handlesOpen (h : HandleInv g s) : HandlesOpen g s := by
  intro x hx
  obtain ⟨c, hc⟩ := h.owned.base.semaphore
  unfold State.handles State.sessionHandles State.portHandles at hx
  simp only [List.mem_append, List.mem_map, List.mem_cons, List.not_mem_nil, or_false] at hx
  rcases hx with ((rfl | rfl | rfl) | ⟨b, hb, rfl⟩) | ⟨b, hb, rfl⟩
  · rw [hc]; nofun
  · rw [h.owned.base.srvPort]; nofun
  · rw [h.owned.base.srvPmPort]; nofun
  · rw [show (s.sessionDataPool b).handle = s.handleOf b from rfl, h.inUseOpen b hb]; nofun
  · rw [h.busyOpen b hb]; nofun

/-- What a step must not do: free another element of the pool than the closed session's, or close
a port that a session waits for. -/
structure HandlesKept (g : Globals) (s : State) (i : Input) : Prop where
  session : ∀ n, closedAt g s i = some n → n < 3 + s.nbSessions → ∀ a ∈ s.sessionLists .inUse,
    s.handleOf a = (s.handles g).getD n 0 → ∀ b ∈ s.sessionLists .free, s.handleOf b = s.handleOf a → b < a
  port : ∀ a ready, selection g s i = some (a, ready) → ∀ b ∈ s.sessionLists .waitingPortReady, b ≠ a →
    (s.sessionDataPool b).busyClientPortHandle ∉ closedPorts g ready a

/-! ## What a step keeps -/

/-- The element found for a closed session is the session's, or a free one above it. -/
theorem sessionClosed_found (ho : Owned g s) (ha : a ∈ s.sessionLists .inUse) {b : Nat} (hb : b < poolSize)
    (heq : s.handleOf b = s.handleOf a) : b = a ∨ b ∈ s.sessionLists .free := by
  obtain ⟨l, hl⟩ := (ho.sessions.covers b).2 hb
  by_cases hf : l = .free
  · exact .inr (hf ▸ hl)
  · exact .inl (ho.sessions.distinct b a ⟨l, hf, hl⟩ ⟨.inUse, by decide, ha⟩ heq)

/-- The session freed is the one whose other end was closed, or a free element is found instead and
the closed handle stays in the array. -/
theorem sessionClosed_open (hinv : HandleInv g s) (hk : KernelOk g s i) (ha : a ∈ s.sessionLists .inUse)
    (hc : sessionClosed (received g s i) (s.handleOf a) = .ok s') :
    (InUseOpen s' ∧ BusyOpen s' ∧ ∀ b ∈ s.sessionLists .free, s.handleOf b = s.handleOf a → b < a) ∨
      ((∃ b ∈ s.sessionLists .free, s.handleOf b = s.handleOf a ∧ a < b) ∧ ¬ HandlesOpen g s') := by
  obtain ⟨b, hlt, hb, hlast, rfl⟩ := sessionClosed_ok hc
  have hwf := hinv.owned.sessions.wf
  have hopen := hinv.inUseOpen a ha
  have hlive : Live s.sessionLists a := ⟨.inUse, by decide, ha⟩
  rcases sessionClosed_found hinv.owned ha hlt hb with rfl | hfree
  · refine .inl ⟨fun c hc => ?_, fun c hc => ?_, fun c hc heq => ?_⟩
    · rcases (Lanes.mem_move hwf).1 hc with ⟨-, hd⟩ | ⟨hne, hc⟩
      · cases hd
      · have hh : s.handleOf c ≠ s.handleOf b := fun heq =>
          hne (hinv.owned.sessions.distinct c b ⟨.inUse, by decide, hc⟩ hlive heq)
        exact (Kernel.closeHandle_ne _ hh).trans (received_kept hk (hinv.inUseOpen c hc) nofun)
    · rcases (Lanes.mem_move hwf).1 hc with ⟨-, hd⟩ | ⟨-, hc⟩
      · cases hd
      · have hbusy := hinv.busyOpen c hc
        have hh : (s.sessionDataPool c).busyClientPortHandle ≠ s.handleOf b := by
          intro heq
          rw [heq, hopen] at hbusy
          cases hbusy
        exact (Kernel.closeHandle_ne _ hh).trans (received_kept hk hbusy nofun)
    · have hle := hlast c ((hinv.owned.sessions.covers c).1 ⟨_, hc⟩) heq
      refine Nat.lt_of_le_of_ne hle fun hcb => ?_
      rw [hcb] at hc
      exact absurd (hwf.unique hc ha) (by decide)
  · refine .inr ⟨⟨b, hfree, hb, Nat.lt_of_le_of_ne (hlast a ((hinv.owned.sessions.covers a).1 ⟨_, ha⟩) rfl) ?_⟩, fun ho => ?_⟩
    · rintro rfl
      exact absurd (hwf.unique hfree ha) (by decide)
    · refine ho (s.handleOf a) (mem_sessionHandles (b := a) ?_) (Kernel.closeHandle_same ..)
      show a ∈ s.sessionLists.move b .free false .inUse
      rw [Lanes.move_of_mem false hfree]
      exact ha

/-- The port of a waiting session is still open when a command is handled. -/
theorem Selected.busyOpen {ready : State} (hinv : HandleInv g s) (hk : KernelOk g s i) (hsel : Selected g s i a ready)
    {b : Nat} (hb : b ∈ s.sessionLists .waitingPortReady) :
    ready.kernel (s.sessionDataPool b).busyClientPortHandle = some .clientPort := by
  rw [hsel.kernel]
  exact received_kept hk (hinv.busyOpen b hb) nofun

theorem served_busyOpen {ready : State} (hinv : HandleInv g s) (hk : KernelOk g s i)
    (hf : ∀ res, i.received ≠ .failed res) (hsel : Selected g s i a ready)
    (hkept : ∀ b ∈ s.sessionLists .waitingPortReady, b ≠ a →
      (s.sessionDataPool b).busyClientPortHandle ∉ closedPorts g ready a)
    (hs : Served g i.sys ready a s') : BusyOpen s' := by
  have hr := hsel.ready hinv.toLoopInv hk hf
  have hsys : SyscallsOk ready.kernel i.sys := hsel.kernel ▸ hk.syscalls
  have hwf := hinv.owned.sessions.wf
  intro b hb
  cases hs with
  | replied res s1 handled done =>
    have hact := handleCommands_actions hsys hr.command handled
    obtain ⟨-, ws, hframe⟩ := hr.owned.actions hact
    have hb' : b ∈ ready.sessionLists .waitingPortReady := hframe.portReady ▸ hb
    obtain ⟨hin, hne⟩ := (hsel.mem hwf (by decide)).1 hb'
    show s1.kernel (s1.sessionDataPool b).busyClientPortHandle = _
    rw [hframe.others b hne, hsel.pool hne]
    exact hact.port hr.owned (hsel.busyOpen hinv hk hin) (hkept b hin hne)
  | parked res busy s1 handled postponed dst dst_eq =>
    have hstate := postponed.state
    subst hstate
    rcases (Lanes.mem_move hr.owned.sessions.wf).1 hb with ⟨rfl, hd⟩ | ⟨hne, hb⟩
    · rcases dst_eq with ⟨-, hd'⟩ | ⟨hres, -⟩
      · rw [hd'] at hd; cases hd
      · rcases postponed.reason with ⟨hres', -⟩ | ⟨-, hport⟩
        · rw [hres] at hres'; exact absurd hres' (by decide)
        · show ready.kernel (if b = b then _ else _ : SessionData).busyClientPortHandle = _
          rw [if_pos rfl]
          exact hport
    · show ready.kernel (if b = a then _ else ready.sessionDataPool b : SessionData).busyClientPortHandle = _
      rw [if_neg hne, hsel.pool hne]
      exact hsel.busyOpen hinv hk ((hsel.mem hwf (by decide)).1 hb).1

theorem served_closed {ready : State} (hinv : HandleInv g s) (hk : KernelOk g s i)
    (hf : ∀ res, i.received ≠ .failed res) (hsel : Selected g s i a ready)
    {b : Nat} (hb : b ∈ s.sessionLists .waitingPortReady) (hne : b ≠ a)
    (hclosed : (s.sessionDataPool b).busyClientPortHandle ∈ closedPorts g ready a)
    (hs : Served g i.sys ready a s') : ¬ HandlesOpen g s' := by
  have hr := hsel.ready hinv.toLoopInv hk hf
  have hsys : SyscallsOk ready.kernel i.sys := hsel.kernel ▸ hk.syscalls
  have hb' := (hsel.mem hinv.owned.sessions.wf (by decide)).2 ⟨hb, hne⟩
  cases hs with
  | replied res s1 handled done =>
    obtain ⟨-, ws, hframe⟩ := hr.owned.actions (handleCommands_actions hsys hr.command handled)
    intro ho
    have hin : b ∈ s1.sessionLists .waitingPortReady := hframe.portReady.symm ▸ hb'
    have hmem := mem_portHandles (g := g) hin
    rw [hframe.others b hne, hsel.pool hne] at hmem
    exact ho _ hmem (handleCommands_closes handled hclosed)
  | parked res busy s1 handled postponed dst dst_eq =>
    -- a postponed command changes no handle
    have hnone := handleCommands_closes handled hclosed
    rw [postponed.state] at hnone
    exact absurd (hnone.symm.trans (hsel.busyOpen hinv hk hb)) nofun

theorem selection_none {n : Nat} (h : closedAt g s i = some n) : selection g s i = none := by
  unfold closedAt at h
  unfold selection
  split at h
  · next id hr => rw [hr]
  · cases h

/-- A step keeps every handle of the array open exactly when it meets the condition. -/
theorem HandleInv.step (hinv : HandleInv g s) (h : (sm g).step s i s') :
    (HandlesKept g s i ∧ HandleInv g s') ∨ (¬ HandlesKept g s i ∧ ¬ HandlesOpen g s') := by
  have hloop := hinv.toLoopInv.step h
  obtain ⟨hk, hi⟩ := h
  have hf := iterate_notFailed hi
  have hu := received_inUseOpen hinv.inUseOpen hk
  have hbusy : ∀ b ∈ s.sessionLists .waitingPortReady,
      (received g s i).kernel (s.sessionDataPool b).busyClientPortHandle = some .clientPort :=
    fun b hb => received_kept hk (hinv.busyOpen b hb) nofun
  cases iteration hi with
  | sessionClosed n a s' at_n range takes inUse handle closed =>
    rcases sessionClosed_open hinv hk inUse closed with ⟨hu', hb', hlt⟩ | ⟨⟨b, hb, heq, hlt⟩, hno⟩
    · refine .inl ⟨⟨fun m hm hmr c hc hch => ?_, fun b ready hsel => ?_⟩, hloop, hu', hb'⟩
      · rw [at_n] at hm
        cases hm
        obtain rfl := hinv.owned.sessions.distinct c a ⟨.inUse, by decide, hc⟩ ⟨.inUse, by decide, inUse⟩ (hch.trans handle)
        exact hlt
      · rw [selection_none at_n] at hsel
        cases hsel
    · refine .inr ⟨fun hkept => ?_, hno⟩
      exact Nat.lt_asymm hlt (hkept.session n at_n range a inUse handle.symm b hb heq)
  | portClosed n at_n range takes =>
    have hs := (portClosed_settled (received_settled hinv.toLoopInv hk takes) hu ((s.handles g).getD n 0)).2
    refine .inl ⟨⟨fun m hm hmr => ?_, fun b ready hsel => ?_⟩, hloop, hs, fun b hb => ?_⟩
    · rw [at_n] at hm
      cases hm
      exact absurd hmr (Nat.not_lt.2 range)
    · rw [selection_none at_n] at hsel
      cases hsel
    · -- the sessions that still wait for a port wait for another
      have hm := portClosed_moved (s := received g s i) hinv.owned.sessions.wf ((s.handles g).getD n 0)
      rcases (hm.mem hinv.owned.sessions.wf).1 hb with ⟨-, hd⟩ | ⟨hn, hin⟩
      · cases hd
      · have heq := portClosedLoop_eq ((s.handles g).getD n 0) (hinv.owned.sessions.wf.nodup .waitingPortReady)
          (received g s i)
        rw [received_sessionLists] at hn
        rw [heq]
        dsimp only
        rw [if_neg hn]
        exact hbusy b hin
  | newSession isSrvPm s' open_ none takes new =>
    have hs := (newSession_settled (received_settled hinv.toLoopInv hk takes) hu hk.syscalls new).2
    refine .inl ⟨⟨fun m hm => ?_, fun b ready hsel => ?_⟩, hloop, hs, fun b hb => ?_⟩
    · rw [open_] at hm; cases hm
    · rw [none] at hsel; cases hsel
    · obtain ⟨c, hc, hacc, rfl⟩ := newSession_ok new
      have hfresh := hk.syscalls.acceptSession hacc
      rcases (Lanes.mem_move hinv.owned.sessions.wf).1 hb with ⟨-, hd⟩ | ⟨hne, hin⟩
      · cases hd
      · show (received g s i).kernel.opened _ _ (if b = c then _ else s.sessionDataPool b : SessionData).busyClientPortHandle = _
        rw [if_neg hne, Kernel.opened_ne _ _ _, hbusy b hin]
        intro heq
        have := hbusy b hin
        rw [heq, show (received g s i).kernel _ = _ from hfresh.2] at this
        cases this
  | ignored open_ none takes =>
    refine .inl ⟨⟨fun m hm => ?_, fun b ready hsel => ?_⟩, hloop, hu, hbusy⟩
    · rw [open_] at hm; cases hm
    · rw [none] at hsel; cases hsel
  | served a ready s' open_ some hs =>
    have hsel := selected some
    have hserved := served (hsel.kernel ▸ hk.syscalls : SyscallsOk ready.kernel i.sys) hs
    by_cases hkept : ∀ b ∈ s.sessionLists .waitingPortReady, b ≠ a →
        (s.sessionDataPool b).busyClientPortHandle ∉ closedPorts g ready a
    · refine .inl ⟨⟨fun m hm => ?_, fun b ready' hsel' => ?_⟩, hloop, ?_, served_busyOpen hinv hk hf hsel hkept hserved⟩
      · rw [open_] at hm; cases hm
      · rw [some] at hsel'
        cases hsel'
        exact hkept
      · exact (hserved.settled (hsel.ready hinv.toLoopInv hk hf) (hsel.kernel ▸ hk.syscalls)).2
    · refine .inr ⟨fun h => hkept (h.port a ready some), ?_⟩
      push Not at hkept
      obtain ⟨b, hb, hne, hclosed⟩ := hkept
      exact served_closed hinv hk hf hsel hb hne hclosed hserved

theorem HandleInv.initial (h : Initial g s) : HandleInv g s :=
  ⟨.initial h, fun _ hb => (nomatch initial_free h hb), fun _ hb => (nomatch initial_free h hb)⟩

/-- In every run whose steps meet the condition every handle given to `svcReplyAndReceive` is open;
a step that does not meet it leaves a closed one at once. -/
theorem handles_open (h : ((sm g).restrict (HandlesKept g)).Reachable s) :
    HandlesOpen g s ∧ ∀ i s', (sm g).step s i s' → (HandlesOpen g s' ↔ HandlesKept g s i) := by
  have hinv : HandleInv g s := by
    refine h.invariant (fun _ => HandleInv.initial) fun s i s' _ hinv hstep => ?_
    rcases hinv.step hstep.2 with ⟨-, hinv'⟩ | ⟨hno, -⟩
    · exact hinv'
    · exact absurd hstep.1 hno
  refine ⟨hinv.handlesOpen, fun i s' hstep => ?_⟩
  rcases hinv.step hstep with ⟨hkept, hinv'⟩ | ⟨hno, hclosed⟩
  · exact ⟨fun _ => hkept, fun _ => hinv'.handlesOpen⟩
  · exact ⟨fun ho => absurd ho hclosed, fun hkept => absurd hkept hno⟩

/-- One session, accepted. -/
theorem handles_open_connect : ∃ s, play globals (initSystem globals fun _ => 0) [connect 16] = some s ∧
    s.handles globals = [1, 2, 3, 16] ∧ HandlesOpen globals s := by
  have hrun : (play globals (initSystem globals fun _ => 0) [connect 16]).map (·.handles globals) =
      some [1, 2, 3, 16] := by decide +kernel
  obtain ⟨s, hs, hh⟩ := Option.map_eq_some_iff.1 hrun
  have hkept : ∀ s, HandlesKept globals s (connect 16).input := fun s => ⟨nofun, nofun⟩
  have hreach := play_reachable (P := HandlesKept globals) (fun s e he => List.mem_singleton.1 he ▸ hkept s)
    (.init (initSystem_initial _)) hs
  exact ⟨s, hs, hh, (handles_open hreach).1⟩

/-- A session waits for a full port of a service, which is then unregistered. -/
def unregisterFull : List Event :=
  [connect 16, connect 17,
    { request 4 [0x00030100, 0x00636261, 0, 3, 4] with port := some (32, 33) },
    { request 3 [0x00050100, 0x00636261, 0, 3, 0] with full := some 33 },
    request 3 [0x000400C0, 0x00636261, 0, 3]]

theorem unregisterFull_closed : ¬ ∀ s, (sm globals).Reachable s → HandlesOpen globals s := by
  intro hall
  have hrun : (play globals (initSystem globals fun _ => 0) unregisterFull).map
      (fun s => (s.handles globals, s.kernel 33)) = some ([1, 2, 3, 16, 33], none) := by decide +kernel
  obtain ⟨s, hs, hv⟩ := Option.map_eq_some_iff.1 hrun
  obtain ⟨hhandles, hkernel⟩ := Prod.mk.inj hv
  have hreach := play_reachable (P := fun _ _ => True) (fun _ _ _ => trivial) (.init (initSystem_initial _)) hs
  refine hall s hreach.of_restrict 33 ?_ hkernel
  rw [hhandles]
  decide

end

end Omiiba.Sm
