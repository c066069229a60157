/-
The sessions that wait for a registration. Their request is parked in 16 bytes; when the port a
session waited for is closed, the first word of the name is overwritten with the reason it waits
for, so the session waits for a name it never asked for. A registration compares names with the
size of the waiter alone. Apart from these every waiter is woken by the registration it asked for.
-/
import Omiiba.Sm.Script
import Omiiba.Sm.Names

namespace Omiiba.Sm

/-! ## Requests -/

/-- The header, the name and the size of two requests are the same. -/
def SameRequest (w w' : Words) : Prop := ∀ j < 4, w j = w' j

theorem SameRequest.trans {w w' w'' : Words} (h1 : SameRequest w w') (h2 : SameRequest w' w'') : SameRequest w w'' :=
  fun j hj => (h1 j hj).trans (h2 j hj)

theorem SameRequest.copy16 (dst src : Words) : SameRequest (Words.copy16 dst src) src := fun _ hj => if_pos hj

theorem SameRequest.name {w w' : Words} (h : SameRequest w w') {j : Nat} (hj : j < 12) : w.name j = w'.name j := by
  unfold Words.name
  rw [h (1 + j / 4) (by omega)]

theorem SameRequest.valid {w w' : Words} (h : SameRequest w w') (hv : ValidName w.name (s32 (w 3))) :
    ValidName w'.name (s32 (w' 3)) := by
  have hsize : s32 (w' 3) = s32 (w 3) := by rw [h 3 (by decide)]
  rw [hsize]
  have hle := hv.le
  exact ⟨hv.pos, hle, fun j hj => h.name (j := j) (by omega) ▸ hv.nonzero j hj⟩

/-- A request asks for a service or named port of this name. -/
def AsksFor (w : Words) (isNamedPort : Bool) (name : Nat → UInt8) (nameSize : Int) : Prop :=
  (w 0 >>> 16).toNat = (if isNamedPort then 8 else 5) ∧ s32 (w 3) = nameSize ∧ ∀ j < nameSize.toNat, w.name j = name j

theorem land_shiftLeft_sixteen (n m : Nat) : n &&& (m <<< 16) = ((n >>> 16) &&& m) <<< 16 := by
  refine Nat.eq_of_testBit_eq fun j => ?_
  rw [Nat.testBit_and, Nat.testBit_shiftLeft, Nat.testBit_shiftLeft, Nat.testBit_and, Nat.testBit_shiftRight]
  by_cases hj : 16 ≤ j
  · simp [hj]
  · simp [hj]

/-- The four bits of the command id that a registration looks at. -/
theorem toNat_command (w : UInt32) : (w &&& 0xF0000).toNat = ((w >>> 16).toNat &&& 15) <<< 16 := by
  rw [UInt32.toNat_and, UInt32.toNat_shiftRight]
  exact land_shiftLeft_sixteen w.toNat 15

/-- The kind a registration reads off a request that can be postponed. -/
theorem command_kind {w : UInt32} (h : (w >>> 16).toNat = 5 ∨ (w >>> 16).toNat = 8) (isNamedPort : Bool) :
    (w &&& 0xF0000 == (if !isNamedPort then 0x50000 else 0x80000)) = true ↔
      (w >>> 16).toNat = if isNamedPort then 8 else 5 := by
  rw [beq_iff_eq, ← UInt32.toNat_inj, toNat_command]
  rcases h with h | h <;> cases isNamedPort <;> rw [h] <;> decide

/-- A request is compared with the name registered byte by byte, up to its own size. -/
theorem isWaitingFor_iff {d : SessionData} {w : Words} (hs : SameRequest d.replayCmdbuf w)
    (hc : (w 0 >>> 16).toNat = 5 ∨ (w 0 >>> 16).toNat = 8) (hv : ValidName w.name (s32 (w 3)))
    (isNamedPort : Bool) (name : Nat → UInt8) : isWaitingFor d isNamedPort name = true ↔
      (w 0 >>> 16).toNat = (if isNamedPort then 8 else 5) ∧ (∀ j < (s32 (w 3)).toNat, w.name j = name j) ∧
        Terminated w.name (s32 (w 3)) := by
  have hle := hv.le
  have hbytes : ∀ j ≤ (s32 (w 3)).toNat, d.replayCmdbuf.name j = w.name j := fun j hj => hs.name (by omega)
  unfold isWaitingFor areServiceNamesEqual
  rw [Bool.and_eq_true, Bool.and_eq_true, Bool.or_eq_true, hs 0 (by decide), hs 3 (by decide), command_kind hc, hv.sizeT,
    strncmpEq_iff fun j hj => .inl (hbytes j (Nat.le_of_lt hj) ▸ hv.nonzero j hj), beq_iff_eq, beq_iff_eq,
    hbytes _ le_rfl]
  refine and_congr_right fun _ => and_congr_left fun _ => forall₂_congr fun j hj => ?_
  rw [hbytes j (Nat.le_of_lt hj)]

/-! ## The invariant -/

section

variable {g : Globals} {s s' : State} {i : Input} {a : Nat}

/-- The waiting sessions keep the request they sent. -/
def Intact (s : State) : Prop :=
  ∀ a ∈ s.sessionLists .waitingForServiceOrPortRegister, SameRequest (s.sessionDataPool a).replayCmdbuf (s.history.sent a)

structure QueueInv (g : Globals) (s : State) : Prop extends LoopInv g s where
  same : ∀ a, Parked s.sessionLists a → SameRequest (s.sessionDataPool a).replayCmdbuf (s.history.sent a)
  valid : ∀ a, Parked s.sessionLists a → ValidName (s.history.sent a).name (s32 (s.history.sent a 3))
  kind : ∀ a, Parked s.sessionLists a → (s.sessionDataPool a).isSrvPm = false ∨ g.isPre7x = true

theorem parked_of_mem {l : SessionList} (hl : Parking l) (ha : a ∈ s.sessionLists l) : Parked s.sessionLists a :=
  ⟨l, hl.1, hl.2, ha⟩

theorem QueueInv.intact (h : QueueInv g s) : Intact s := fun a ha => h.same a (parked_of_mem (by decide) ha)

/-- What a step must not do: overwrite the name of a session whose port is closed. -/
def Undamaged (g : Globals) (s : State) (i : Input) : Prop :=
  ∀ n, closedAt g s i = some n → 3 + s.nbSessions ≤ n →
    ∀ a ∈ s.waitingFor ((s.handles g).getD n 0) (s.sessionLists .waitingPortReady),
      (s.sessionDataPool a).replayCmdbuf 1 = 0xD0406401

/-- A session is handled with the request it sent in the command buffer. -/
theorem Selected.request (hinv : QueueInv g s) {ready : State} (h : Selected g s i a ready) :
    SameRequest ready.cmdbuf (ready.history.sent a) := by
  cases h with
  | woken rest takes message_eq first =>
    have hin : a ∈ s.sessionLists .toWakeUpAfterServiceOrPortRegister := by rw [first]; exact List.mem_cons_self
    exact (SameRequest.copy16 _ _).trans (hinv.same a (parked_of_mem (by decide) hin))
  | port takes message_eq waiting => exact (SameRequest.copy16 _ _).trans (hinv.same a (parked_of_mem (by decide) waiting))
  | command message takes inUse message_eq =>
    intro j _
    dsimp only
    rw [if_pos rfl, received_cmdbuf, message_eq]; rfl

theorem Selected.sent {ready : State} (h : Selected g s i a ready) {b : Nat} (hb : b ≠ a) :
    ready.history.sent b = s.history.sent b := by
  cases h with
  | woken rest takes message_eq first => rfl
  | port takes message_eq waiting => rfl
  | command message takes inUse message_eq => exact if_neg hb

/-- A session parked in the state a command is handled in was parked before. -/
theorem Selected.parked (hwf : s.sessionLists.WF) {ready : State} (h : Selected g s i a ready) {b : Nat}
    (hb : Parked ready.sessionLists b) : b ≠ a ∧ Parked s.sessionLists b := by
  obtain ⟨l, hf, hu, hb⟩ := hb
  obtain ⟨hb, hne⟩ := (h.mem hwf hu).1 hb
  exact ⟨hne, l, hf, hu, hb⟩

/-- A parked session has its request and its own data from before, or has just been postponed. -/
theorem Served.parked_cases {sys : Syscalls} (hr : Ready g s a) (hsys : SyscallsOk s.kernel sys)
    (h : Served g sys s a s') {b : Nat} (hb : Parked s'.sessionLists b) :
    s'.history.sent = s.history.sent ∧
      ((b ≠ a ∧ Parked s.sessionLists b ∧ s'.sessionDataPool b = s.sessionDataPool b) ∨
        (b = a ∧ ValidName s.cmdbuf.name (s32 (s.cmdbuf 3)) ∧
          SameRequest (s'.sessionDataPool b).replayCmdbuf s.cmdbuf ∧
          ((s'.sessionDataPool b).isSrvPm = false ∨ g.isPre7x = true))) := by
  have hwf := hr.owned.sessions.wf
  cases h with
  | replied res s1 handled done =>
    obtain ⟨-, ws, hf⟩ := hr.owned.actions (handleCommands_actions hsys hr.command handled)
    have hb := hf.woken.parked hwf hb
    have hne := parked_ne hwf hr.session hb
    refine ⟨?_, .inl ⟨hne, hb, hf.others b hne⟩⟩
    show s1.history.sent = _
    rw [hf.history]
  | parked res busy s1 handled postponed dst dst_eq =>
    have hstate := postponed.state
    subst hstate
    refine ⟨rfl, ?_⟩
    rcases parked_move hwf hb with ⟨rfl, -⟩ | ⟨hne, hb⟩
    · have hpool : (s.setSession b { s.sessionDataPool b with
          replayCmdbuf := Words.copy16 (s.sessionDataPool b).replayCmdbuf s.cmdbuf,
          busyClientPortHandle := busy }).sessionDataPool b = _ := if_pos rfl
      refine .inr ⟨rfl, checkServiceName_iff.1 postponed.name, ?_, ?_⟩
      · show SameRequest (State.setSession _ _ _ |>.sessionDataPool b).replayCmdbuf _
        rw [hpool]
        exact SameRequest.copy16 _ _
      · show (State.setSession _ _ _ |>.sessionDataPool b).isSrvPm = false ∨ _
        rw [hpool]
        exact postponed.kind
    · exact .inl ⟨hne, hb, if_neg hne⟩

/-- A step keeps the requests of the waiting sessions exactly when it meets the condition. -/
theorem QueueInv.step (hinv : QueueInv g s) (h : (sm g).step s i s') :
    (Undamaged g s i ∧ QueueInv g s') ∨ (¬ Undamaged g s i ∧ ¬ Intact s') := by
  have hloop := hinv.toLoopInv.step h
  obtain ⟨hk, hi⟩ := h
  have hf := iterate_notFailed hi
  have hwf := hinv.owned.sessions.wf
  cases iteration hi with
  | sessionClosed n a s' at_n range takes inUse handle closed =>
    obtain ⟨b, -, -, -, rfl⟩ := sessionClosed_ok closed
    have hparked : ∀ c, Parked (s.sessionLists.move b .free false) c → Parked s.sessionLists c := by
      intro c hc
      rcases parked_move hwf hc with ⟨-, hfree, -⟩ | ⟨-, hc⟩
      · exact absurd rfl hfree
      · exact hc
    refine .inl ⟨fun m hm hmr => ?_, hloop, fun c hc => hinv.same c (hparked c hc),
      fun c hc => hinv.valid c (hparked c hc), fun c hc => hinv.kind c (hparked c hc)⟩
    rw [at_n] at hm
    cases hm
    exact absurd range (Nat.not_lt.2 hmr)
  | portClosed n at_n range takes =>
    have hm := portClosed_moved (s := received g s i) hwf ((s.handles g).getD n 0)
    have heq := portClosedLoop_eq ((s.handles g).getD n 0) (hwf.nodup .waitingPortReady) (received g s i)
    rw [received_sessionLists] at hm
    by_cases hund : ∀ b ∈ s.waitingFor ((s.handles g).getD n 0) (s.sessionLists .waitingPortReady),
        (s.sessionDataPool b).replayCmdbuf 1 = 0xD0406401
    · have hpool : ∀ b, SameRequest ((portClosedLoop ((s.handles g).getD n 0) (s.sessionLists .waitingPortReady)
          (received g s i)).sessionDataPool b).replayCmdbuf (s.sessionDataPool b).replayCmdbuf := by
        intro b j hj
        rw [heq]
        dsimp only
        split
        · next hb =>
          show (s.sessionDataPool b).replayCmdbuf.set 1 0xD0406401 j = _
          by_cases h1 : j = 1
          · rw [h1, Words.set_same]
            exact (hund b hb).symm
          · exact Words.set_ne _ _ h1
        · rfl
      have hsent : (portClosedLoop ((s.handles g).getD n 0) (s.sessionLists .waitingPortReady)
          (received g s i)).history = s.history := by rw [heq]; rfl
      refine .inl ⟨fun m hm' _ => ?_, hloop, fun b hb => ?_, fun b hb => ?_, fun b hb => ?_⟩
      · rw [at_n] at hm'
        cases hm'
        exact hund
      · rw [hsent]
        exact (hpool b).trans (hinv.same b (hm.parked hwf hb))
      · rw [hsent]
        exact hinv.valid b (hm.parked hwf hb)
      · have hkind := hinv.kind b (hm.parked hwf hb)
        rw [heq]
        dsimp only
        split
        · exact hkind
        · exact hkind
    · refine .inr ⟨fun h => hund (h n at_n range), fun hint => hund fun b hb => ?_⟩
      -- the word written is the first of the name sent
      have hsame := hint b ((hm.mem hwf).2 (.inl ⟨hb, rfl⟩)) 1 (by decide)
      have hb' : b ∈ (received g s i).waitingFor ((s.handles g).getD n 0) (s.sessionLists .waitingPortReady) := hb
      rw [heq] at hsame
      dsimp only at hsame
      rw [if_pos hb'] at hsame
      rw [hinv.same b (parked_of_mem (by decide) (List.mem_filter.1 hb).1) 1 (by decide)]
      exact hsame.symm
  | newSession isSrvPm s' open_ none takes new =>
    obtain ⟨b, hb, -, rfl⟩ := newSession_ok new
    have hparked : ∀ c, Parked (s.sessionLists.move b .inUse false) c → c ≠ b ∧ Parked s.sessionLists c := by
      intro c hc
      rcases parked_move hwf hc with ⟨-, -, hin⟩ | hc
      · exact absurd rfl hin
      · exact hc
    refine .inl ⟨fun m hm => ?_, hloop, fun c hc => ?_, fun c hc => hinv.valid c (hparked c hc).2, fun c hc => ?_⟩
    · rw [open_] at hm; cases hm
    · show SameRequest (if c = b then _ else s.sessionDataPool c : SessionData).replayCmdbuf _
      rw [if_neg (hparked c hc).1]
      exact hinv.same c (hparked c hc).2
    · show (if c = b then _ else s.sessionDataPool c : SessionData).isSrvPm = false ∨ _
      rw [if_neg (hparked c hc).1]
      exact hinv.kind c (hparked c hc).2
  | ignored open_ none takes =>
    refine .inl ⟨fun m hm => ?_, hloop, hinv.same, hinv.valid, hinv.kind⟩
    rw [open_] at hm; cases hm
  | served a ready s' open_ some hs =>
    have hsel := selected some
    have hsys : SyscallsOk ready.kernel i.sys := hsel.kernel ▸ hk.syscalls
    have hcases := fun b hb => (served hsys hs).parked_cases (b := b) (hsel.ready hinv.toLoopInv hk hf) hsys hb
    have hrequest := hsel.request hinv
    refine .inl ⟨fun m hm => ?_, hloop, fun b hb => ?_, fun b hb => ?_, fun b hb => ?_⟩
    · rw [open_] at hm; cases hm
    · obtain ⟨hsent, hb⟩ := hcases b hb
      rw [hsent]
      rcases hb with ⟨hne, hb, hpool⟩ | ⟨rfl, -, hsame, -⟩
      · rw [hpool, hsel.pool hne, hsel.sent hne]
        exact hinv.same b (hsel.parked hwf hb).2
      · exact hsame.trans hrequest
    · obtain ⟨hsent, hb⟩ := hcases b hb
      rw [hsent]
      rcases hb with ⟨hne, hb, -⟩ | ⟨rfl, hv, -⟩
      · rw [hsel.sent hne]
        exact hinv.valid b (hsel.parked hwf hb).2
      · exact hrequest.valid hv
    · rcases (hcases b hb).2 with ⟨hne, hb, hpool⟩ | ⟨-, -, -, hkind⟩
      · rw [hpool, hsel.pool hne]
        exact hinv.kind b (hsel.parked hwf hb).2
      · exact hkind

theorem QueueInv.initial (h : Initial g s) : QueueInv g s :=
  ⟨.initial h, fun _ hb => absurd hb (initial_parked h), fun _ hb => absurd hb (initial_parked h),
    fun _ hb => absurd hb (initial_parked h)⟩

theorem queueInv (h : ((sm g).restrict (Undamaged g)).Reachable s) : QueueInv g s := by
  refine h.invariant (fun _ => QueueInv.initial) fun s i s' _ hinv hstep => ?_
  rcases hinv.step hstep.2 with ⟨-, hinv'⟩ | ⟨hno, -⟩
  · exact hinv'
  · exact absurd hstep.1 hno

/-! ## Registrations -/

/-- No waiter of the kind is mistaken for one of the name: one whose name the name begins with ends
there in its buffer exactly when it is as long. -/
def Delimited (s : State) (isNamedPort : Bool) (name : Nat → UInt8) (nameSize : Int) : Prop :=
  ∀ b ∈ s.sessionLists .waitingForServiceOrPortRegister,
    (s.history.sent b 0 >>> 16).toNat = (if isNamedPort then 8 else 5) →
    (∀ j < (s32 (s.history.sent b 3)).toNat, (s.history.sent b).name j = name j) →
    (Terminated (s.history.sent b).name (s32 (s.history.sent b 3)) ↔ s32 (s.history.sent b 3) = nameSize)

/-- The sessions a registration wakes are those that asked for the name. -/
def WakesAskers (s s' : State) (isNamedPort : Bool) (name : Nat → UInt8) (nameSize : Int) : Prop :=
  ∀ b ∈ s.sessionLists .waitingForServiceOrPortRegister,
    (b ∈ s'.sessionLists .toWakeUpAfterServiceOrPortRegister ↔ AsksFor (s.history.sent b) isNamedPort name nameSize) ∧
    (b ∈ s'.sessionLists .waitingForServiceOrPortRegister ↔ ¬ AsksFor (s.history.sent b) isNamedPort name nameSize)

/-- A registration wakes the waiters it compares equal. -/
theorem register_wakes {sys : Syscalls} {pid : UInt32} {clientPort serverPort : Handle} {name : Nat → UInt8}
    {nameSize : Int} {isNamedPort : Bool} {res : Result} (hwf : s.sessionLists.WF)
    (h : doRegisterServiceOrPort g sys s pid clientPort name nameSize isNamedPort = .ok (res, serverPort, s'))
    (hres : rFailed res = false) : Woken s.sessionLists (waiters s isNamedPort name) s'.sessionLists := by
  rcases doRegister_ok h with ⟨hf, -⟩ | ⟨-, -, hadd⟩
  · rw [hf] at hres; cases hres
  · obtain ⟨kernel, -, rfl⟩ := addService_ok hadd
    have hs : (s.withPort isNamedPort (storedPort sys clientPort isNamedPort)).sessionLists = s.sessionLists := by
      unfold State.withPort; split <;> rfl
    have hp : (s.withPort isNamedPort (storedPort sys clientPort isNamedPort)).sessionDataPool = s.sessionDataPool := by
      unfold State.withPort; split <;> rfl
    have hw : waiters (s.withPort isNamedPort (storedPort sys clientPort isNamedPort)) isNamedPort name =
        waiters s isNamedPort name := by
      unfold waiters; rw [hs, hp]
    dsimp only
    rw [hs, hw]
    exact woken_waiters hwf isNamedPort name

/-- A waiter keeps its request until a command is handled. -/
theorem Selected.waiter (hinv : QueueInv g s) {ready : State} (h : Selected g s i a ready) {b : Nat}
    (hb : b ∈ ready.sessionLists .waitingForServiceOrPortRegister) (isNamedPort : Bool) (name : Nat → UInt8) :
    isWaitingFor (ready.sessionDataPool b) isNamedPort name = true ↔
      (ready.history.sent b 0 >>> 16).toNat = (if isNamedPort then 8 else 5) ∧
        (∀ j < (s32 (ready.history.sent b 3)).toNat, (ready.history.sent b).name j = name j) ∧
        Terminated (ready.history.sent b).name (s32 (ready.history.sent b 3)) := by
  obtain ⟨hb, hne⟩ := (h.mem hinv.owned.sessions.wf (by decide)).1 hb
  have hp : Parked s.sessionLists b := parked_of_mem (by decide) hb
  have hsame := hinv.same b hp
  have hreq := hinv.requests b hp
  rw [hsame 0 (by decide)] at hreq
  rw [h.pool hne, h.sent hne]
  exact isWaitingFor_iff hsame hreq (hinv.valid b hp) isNamedPort name

/-- In every run that damages no request the waiting sessions keep theirs, a step that damages one
is seen at once, and a registration wakes those who asked for its name exactly when no waiter is
mistaken for one. -/
theorem waitQueue_kept (h : ((sm g).restrict (Undamaged g)).Reachable s) :
    Intact s ∧ (∀ i s', (sm g).step s i s' → (Intact s' ↔ Undamaged g s i)) ∧
      ∀ (i : Input) (a : Nat) (ready s' : State) (sys : Syscalls) (pid : UInt32) (clientPort serverPort : Handle)
        (name : Nat → UInt8) (nameSize : Int) (isNamedPort : Bool) (res : Result),
        selection g s i = some (a, ready) →
        doRegisterServiceOrPort g sys ready pid clientPort name nameSize isNamedPort = .ok (res, serverPort, s') →
        rFailed res = false →
        (WakesAskers ready s' isNamedPort name nameSize ↔ Delimited ready isNamedPort name nameSize) := by
  have hinv := queueInv h
  refine ⟨hinv.intact, fun i s' hstep => ?_, fun i a ready s' sys pid clientPort serverPort name nameSize isNamedPort res
    hsel hreg hres => ?_⟩
  · rcases hinv.step hstep with ⟨hund, hinv'⟩ | ⟨hno, hlost⟩
    · exact ⟨fun _ => hund, fun _ => hinv'.intact⟩
    · exact ⟨fun hint => absurd hint hlost, fun hund => absurd hund hno⟩
  · have hsel := selected hsel
    have hwf : ready.sessionLists.WF := by
      cases hsel with
      | woken => exact hinv.owned.sessions.wf.move _ _ _
      | port => exact hinv.owned.sessions.wf.move _ _ _
      | command => exact hinv.owned.sessions.wf
    have hwoken := register_wakes hwf hreg hres
    -- a waiter is woken when it compares equal
    have hmem : ∀ b ∈ ready.sessionLists .waitingForServiceOrPortRegister,
        (b ∈ s'.sessionLists .toWakeUpAfterServiceOrPortRegister ↔
            isWaitingFor (ready.sessionDataPool b) isNamedPort name = true) ∧
        (b ∈ s'.sessionLists .waitingForServiceOrPortRegister ↔
            ¬ isWaitingFor (ready.sessionDataPool b) isNamedPort name = true) := by
      intro b hb
      have hno : b ∉ ready.sessionLists .toWakeUpAfterServiceOrPortRegister := fun hin =>
        absurd (hwf.unique hin hb) (by decide)
      have hw : b ∈ waiters ready isNamedPort name ↔ isWaitingFor (ready.sessionDataPool b) isNamedPort name = true :=
        ⟨fun hin => (List.mem_filter.1 hin).2, fun hp => List.mem_filter.2 ⟨hb, hp⟩⟩
      rw [hwoken.mem hwf, hwoken.mem hwf, hw]
      simp [hno, hb]
    unfold WakesAskers Delimited AsksFor
    refine forall₂_congr fun b hb => ?_
    rw [(hmem b hb).1, (hmem b hb).2, hsel.waiter hinv hb]
    constructor
    · rintro ⟨hiff, -⟩ hkind hbytes
      constructor
      · exact fun ht => (hiff.1 ⟨hkind, hbytes, ht⟩).2.1
      · exact fun hn => (hiff.2 ⟨hkind, hn, hn ▸ hbytes⟩).2.2
    · intro hd
      have hiff : ((ready.history.sent b 0 >>> 16).toNat = (if isNamedPort then 8 else 5) ∧
          (∀ j < (s32 (ready.history.sent b 3)).toNat, (ready.history.sent b).name j = name j) ∧
          Terminated (ready.history.sent b).name (s32 (ready.history.sent b 3))) ↔
          ((ready.history.sent b 0 >>> 16).toNat = (if isNamedPort then 8 else 5) ∧
            s32 (ready.history.sent b 3) = nameSize ∧ ∀ j < nameSize.toNat, (ready.history.sent b).name j = name j) := by
        constructor
        · rintro ⟨hkind, hbytes, ht⟩
          have hn := (hd hkind hbytes).1 ht
          exact ⟨hkind, hn, hn ▸ hbytes⟩
        · rintro ⟨hkind, hn, hbytes⟩
          have hbytes' : ∀ j < (s32 (ready.history.sent b 3)).toNat, (ready.history.sent b).name j = name j := hn ▸ hbytes
          exact ⟨hkind, hbytes', (hd hkind hbytes').2 hn⟩
      exact ⟨hiff, not_congr hiff⟩

/-- A session asks for a service nobody has registered. -/
def askAbsent : List Event := [connect 16, connect 17, request 4 [0x00050100, 0x00636261, 0, 3, 1]]

theorem waitQueue_kept_abc : ∃ s, play globals (initSystem globals fun _ => 0) askAbsent = some s ∧
    s.sessionLists .waitingForServiceOrPortRegister = [0] ∧
    SameRequest (s.sessionDataPool 0).replayCmdbuf (s.history.sent 0) := by
  have hrun : (play globals (initSystem globals fun _ => 0) askAbsent).map
      (·.sessionLists .waitingForServiceOrPortRegister) = some [0] := by decide +kernel
  obtain ⟨s, hs, hlane⟩ := Option.map_eq_some_iff.1 hrun
  have hund : ∀ s, ∀ e ∈ askAbsent, Undamaged globals s e.input := by
    intro s e he
    simp only [askAbsent, List.mem_cons, List.not_mem_nil, or_false] at he
    rcases he with rfl | rfl | rfl <;> exact nofun
  have hreach := play_reachable (P := Undamaged globals) hund (.init (initSystem_initial _)) hs
  refine ⟨s, hs, hlane, (waitQueue_kept hreach).1 0 ?_⟩
  rw [hlane]
  exact List.mem_singleton.2 rfl

/-- A session waits for a full port, which its owner then closes. -/
def closeFull : List Event :=
  [connect 16, connect 17,
    { request 4 [0x00030100, 0x00636261, 0, 3, 4] with port := some (32, 33) },
    { request 3 [0x00050100, 0x00636261, 0, 3, 0] with full := some 33 },
    { received := .unreachable 4 }]

theorem closeFull_damaged : ¬ ∀ s, (sm globals).Reachable s → Intact s := by
  intro hall
  have hrun : (play globals (initSystem globals fun _ => 0) closeFull).map
      (fun s => (s.sessionLists .waitingForServiceOrPortRegister, (s.sessionDataPool 1).replayCmdbuf 1,
        s.history.sent 1 1)) = some ([1], 0xD0406401, 0x00636261) := by decide +kernel
  obtain ⟨s, hs, hv⟩ := Option.map_eq_some_iff.1 hrun
  simp only [Prod.mk.injEq] at hv
  obtain ⟨hlane, hreplay, hsent⟩ := hv
  have hreach := play_reachable (P := fun _ _ => True) (fun _ _ _ => trivial) (.init (initSystem_initial _)) hs
  have hsame := hall s hreach.of_restrict 1 (by rw [hlane]; exact List.mem_singleton.2 rfl) 1 (by decide)
  rw [hreplay, hsent] at hsame
  exact absurd hsame (by decide)

end

end Omiiba.Sm
