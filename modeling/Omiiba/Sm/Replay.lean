/-
Resumed requests. A postponed request is kept as its first four words; the fifth, the flags, is
whatever later commands left in the command buffer. A resumed request is answered as a fresh one
would be exactly when that word happens to be the one sent.
-/
import Omiiba.Sm.WaitQueue

namespace Omiiba.Sm

/-! ## What an answer depends on -/

theorem strncmpFrom_congr {a b b' : Nat → UInt8} : ∀ {n i : Nat}, (∀ j < i + n, b j = b' j) →
    strncmpFrom a b n i = strncmpFrom a b' n i
  | 0, _, _ => rfl
  | n + 1, i, h => by
    unfold strncmpFrom
    rw [h i (by omega), strncmpFrom_congr (n := n) (i := i + 1) fun j hj => h j (by omega)]

theorem strnlen_congr {name name' : Nat → UInt8} : ∀ {n : Nat}, (∀ j < n, name j = name' j) →
    strnlen name n = strnlen name' n
  | 0, _ => rfl
  | n + 1, h => by
    rw [strnlen_succ, strnlen_succ, strnlen_congr (n := n) fun j hj => h j (by omega), h n (by omega)]

section

variable {g : Globals} {sys : Syscalls} {s : State} {i : Input} {a : Nat}

/-- A name is looked at up to its eighth byte. -/
theorem checkServiceName_congr {name name' : Nat → UInt8} (h : ∀ j < 8, name j = name' j) (nameSize : Int) :
    checkServiceName name nameSize = checkServiceName name' nameSize := by
  unfold checkServiceName
  split
  · rfl
  · rw [strnlen_congr fun j hj => h j (by omega)]

theorem findService_congr {name name' : Nat → UInt8} (h : ∀ j < 8, name j = name' j) {nameSize : Int}
    (hv : ValidName name nameSize) (l : List ServiceInfo) (isNamedPort : Bool) :
    findService l isNamedPort name nameSize = findService l isNamedPort name' nameSize := by
  have hle := hv.le
  have heq : ∀ stored, areServiceNamesEqual stored name nameSize = areServiceNamesEqual stored name' nameSize := by
    intro stored
    unfold areServiceNamesEqual strncmpEq
    rw [hv.sizeT, strncmpFrom_congr fun j hj => h j (by omega)]
  unfold findService findServicePortByName
  simp only [heq]

theorem getServiceHandle_congr {name name' : Nat → UInt8} (h : ∀ j < 8, name j = name' j) (nameSize : Int)
    (flags : UInt32) : getServiceHandle sys s a name nameSize flags = getServiceHandle sys s a name' nameSize flags := by
  unfold getServiceHandle
  rw [← checkServiceName_congr h nameSize]
  dsimp only
  split
  · rfl
  · next hv => rw [findService_congr h (checkServiceName_iff.1 (by simpa using hv))]

theorem getPort_congr {name name' : Nat → UInt8} (h : ∀ j < 8, name j = name' j) (nameSize : Int) (flags : UInt8) :
    getPort s name nameSize flags = getPort s name' nameSize flags := by
  unfold getPort
  rw [← checkServiceName_congr h nameSize]
  dsimp only
  split
  · rfl
  · next hv => rw [findService_congr h (checkServiceName_iff.1 (by simpa using hv))]

/-- The command buffer plays no part in opening a session. -/
theorem getServiceHandle_cmdbuf (w : Words) (name : Nat → UInt8) (nameSize : Int) (flags : UInt32) :
    getServiceHandle sys { s with cmdbuf := w } a name nameSize flags =
      ((getServiceHandle sys s a name nameSize flags).1, (getServiceHandle sys s a name nameSize flags).2.1,
        { (getServiceHandle sys s a name nameSize flags).2.2 with cmdbuf := w }) := by
  unfold getServiceHandle
  dsimp only
  split
  · rfl
  · split
    · rfl
    · split
      · rfl
      · rfl

/-! ## Answers -/

/-- Two answers are the same: the result, the four words of the reply, and the state but for the
rest of the command buffer. -/
def SameOutcome : Except Panic (Result × State) → Except Panic (Result × State) → Prop
  | .ok (res, s), .ok (res', s') => res = res' ∧ s = { s' with cmdbuf := s.cmdbuf } ∧ SameRequest s.cmdbuf s'.cmdbuf
  | .error e, .error e' => e = e'
  | _, _ => False

theorem postponeOrReply_outcome {w : Words} (h : SameRequest s.cmdbuf w) (res : Result) (header desc : UInt32) (x : Handle) :
    SameOutcome (.ok (res, postponeOrReply s a res header desc x))
      (.ok (res, postponeOrReply { s with cmdbuf := w } a res header desc x)) := by
  refine ⟨rfl, ?_, ?_⟩
  · unfold postponeOrReply
    split
    · have hcopy : ∀ dst, Words.copy16 dst s.cmdbuf = Words.copy16 dst w := by
        intro dst
        funext j
        unfold Words.copy16
        split
        · next hj => exact h j hj
        · rfl
      rw [hcopy]; rfl
    · rfl
  · unfold postponeOrReply
    split
    · exact h
    · intro j hj
      unfold State.reply
      dsimp only
      rw [List.getElem?_eq_getElem (by simpa using hj)]
      rfl

theorem srvHandleCommands_getServiceHandle (hc : (s.cmdbuf 0 >>> 16).toNat = 5) : srvHandleCommands g sys s a =
    let r := getServiceHandle sys s a s.cmdbuf.name (s32 (s.cmdbuf 3)) (s.cmdbuf 4)
    .ok (r.1, postponeOrReply r.2.2 a r.1 (ipcMakeHeader 5 1 2) (ipcDescMoveHandles 1) r.2.1) := by
  unfold srvHandleCommands
  dsimp only
  rw [hc]
  rfl

theorem srvHandleCommands_getPort (hc : (s.cmdbuf 0 >>> 16).toNat = 8) : srvHandleCommands g sys s a =
    let r := getPort s s.cmdbuf.name (s32 (s.cmdbuf 3)) (s.cmdbuf 4).toUInt8
    .ok (r.1, postponeOrReply s a r.1 (ipcMakeHeader 8 1 2) (ipcDescSharedHandles 1) r.2) := by
  unfold srvHandleCommands
  dsimp only
  rw [hc]
  rfl

/-- Requests for a service or port that agree in their five words are answered alike. -/
theorem srvHandleCommands_outcome {w : Words} (hc : (s.cmdbuf 0 >>> 16).toNat = 5 ∨ (s.cmdbuf 0 >>> 16).toNat = 8)
    (h : ∀ j < 5, s.cmdbuf j = w j) :
    SameOutcome (srvHandleCommands g sys s a) (srvHandleCommands g sys { s with cmdbuf := w } a) := by
  have hsame : SameRequest s.cmdbuf w := fun j hj => h j (by omega)
  have hname : ∀ j < 8, s.cmdbuf.name j = w.name j := fun j hj => hsame.name (by omega)
  rcases hc with hc | hc
  · have hc' : (w 0 >>> 16).toNat = 5 := h 0 (by decide) ▸ hc
    rw [srvHandleCommands_getServiceHandle hc, srvHandleCommands_getServiceHandle (s := { s with cmdbuf := w }) hc']
    dsimp only
    rw [← h 3 (by decide), ← h 4 (by decide), getServiceHandle_cmdbuf w, ← getServiceHandle_congr hname]
    have hw : (getServiceHandle sys s a s.cmdbuf.name (s32 (s.cmdbuf 3)) (s.cmdbuf 4)).2.2.cmdbuf = s.cmdbuf := by
      obtain ⟨busy, heq, -⟩ := getServiceHandle_cases sys s a s.cmdbuf.name (s32 (s.cmdbuf 3)) (s.cmdbuf 4)
      rw [heq]; rfl
    exact postponeOrReply_outcome (hw.symm ▸ hsame) _ _ _ _
  · have hc' : (w 0 >>> 16).toNat = 8 := h 0 (by decide) ▸ hc
    rw [srvHandleCommands_getPort hc, srvHandleCommands_getPort (s := { s with cmdbuf := w }) hc']
    have hport : ∀ name nameSize flags, getPort { s with cmdbuf := w } name nameSize flags = getPort s name nameSize flags :=
      fun _ _ _ => rfl
    dsimp only
    rw [hport, ← h 3 (by decide), ← h 4 (by decide), ← getPort_congr hname]
    exact postponeOrReply_outcome hsame _ _ _ _

/-- A request that can be postponed is handled as a srv: command. -/
theorem handleCommands_eq_srv (hc : (s.cmdbuf 0 >>> 16).toNat = 5 ∨ (s.cmdbuf 0 >>> 16).toNat = 8)
    (hkind : (s.sessionDataPool a).isSrvPm = false ∨ g.isPre7x = true) :
    handleCommands g sys s a = srvHandleCommands g sys s a := by
  unfold handleCommands
  split
  · next hpm =>
    have hpre := hkind.resolve_left (by rw [hpm]; decide)
    unfold srvPmHandleCommands
    dsimp only
    rw [if_pos ⟨hpre, mask_zero hc⟩]
  · rfl

/-! ## Resumed requests -/

/-- A resumed request is the one sent, and is answered as the same request would be if it came in
now, whatever the rest of the command buffer. -/
def Replays (g : Globals) (sys : Syscalls) (ready : State) (a : Nat) : Prop :=
  (∀ j < 5, ready.cmdbuf j = ready.history.sent a j) ∧
    ∀ w : Words, (∀ j < 5, w j = ready.history.sent a j) →
      SameOutcome (handleCommands g sys ready a) (srvHandleCommands g sys { ready with cmdbuf := w } a)

/-- Only the header of the command buffer is written between two iterations. -/
theorem received_cmdbuf_resumed (hm : messageOf s i = none) {j : Nat} (hj : j ≠ 0) :
    (received g s i).cmdbuf j = s.cmdbuf j := by
  rw [received_cmdbuf, hm]
  dsimp only [Option.getD]
  split
  · exact Words.set_ne _ _ hj
  · rfl

/-- In every run that damages no request, a session resumed from any of the lists it can wait on is
answered as its own request exactly when the flags it sent are what the command buffer holds. -/
theorem replay_iff (h : ((sm g).restrict (Undamaged g)).Reachable s) {ready : State}
    (hsel : selection g s i = some (a, ready)) (hp : Parked s.sessionLists a) :
    Replays g i.sys ready a ↔ s.cmdbuf 4 = s.history.sent a 4 := by
  have hinv := queueInv h
  have hsel := selected hsel
  have hsame := hinv.same a hp
  have hreq := hinv.requests a hp
  obtain ⟨hsent, hflags, hcmd, hpool⟩ : ready.history.sent = s.history.sent ∧ ready.cmdbuf 4 = s.cmdbuf 4 ∧
      SameRequest ready.cmdbuf (s.sessionDataPool a).replayCmdbuf ∧
      (ready.sessionDataPool a).isSrvPm = (s.sessionDataPool a).isSrvPm := by
    cases hsel with
    | woken rest takes message_eq first =>
      exact ⟨rfl, received_cmdbuf_resumed (g := g) message_eq (by decide), SameRequest.copy16 _ _, rfl⟩
    | port takes message_eq waiting =>
      refine ⟨rfl, received_cmdbuf_resumed (g := g) message_eq (by decide), SameRequest.copy16 _ _, ?_⟩
      show (if a = a then _ else _ : SessionData).isSrvPm = _
      rw [if_pos rfl]
    | command message takes inUse message_eq =>
      exact absurd rfl (parked_ne hinv.owned.sessions.wf inUse hp)
  unfold Replays
  rw [hsent]
  constructor
  · rintro ⟨hwords, -⟩
    rw [← hflags]
    exact hwords 4 (by decide)
  · intro h4
    have hwords : ∀ j < 5, ready.cmdbuf j = s.history.sent a j := by
      intro j hj
      rcases Nat.lt_succ_iff_lt_or_eq.1 hj with hj | rfl
      · exact (hcmd.trans hsame) j hj
      · rw [hflags, h4]
    have hc : (ready.cmdbuf 0 >>> 16).toNat = 5 ∨ (ready.cmdbuf 0 >>> 16).toNat = 8 := by
      rw [hcmd 0 (by decide)]
      exact hreq
    refine ⟨hwords, fun w hw => ?_⟩
    rw [handleCommands_eq_srv hc (hpool ▸ hinv.kind a hp)]
    exact srvHandleCommands_outcome hc fun j hj => (hwords j hj).trans (hw j hj).symm

/-- A session asks for a service with the given flags before another registers it for four sessions. -/
def askWithFlags (flags : UInt32) : List Event :=
  [connect 16, connect 17, request 4 [0x00050100, 0x00636261, 0, 3, flags],
    { request 3 [0x00030100, 0x00636261, 0, 3, 4] with port := some (32, 33) }]

/-- The waiting session is resumed, and the port of the service is full. -/
def resumeFull : Event := { received := .signalled 0 fun _ => 0, full := some 33 }

theorem replay_iff_four : ∃ s ready, play globals (initSystem globals fun _ => 0) (askWithFlags 4) = some s ∧
    selection globals s resumeFull.input = some (0, ready) ∧ Replays globals resumeFull.input.sys ready 0 := by
  have hrun : (play globals (initSystem globals fun _ => 0) (askWithFlags 4)).map (fun s =>
      (s.sessionLists .toWakeUpAfterServiceOrPortRegister, (selection globals s resumeFull.input).map Prod.fst,
        s.cmdbuf 4, s.history.sent 0 4)) = some ([0], some 0, 4, 4) := by decide +kernel
  obtain ⟨s, hs, hv⟩ := Option.map_eq_some_iff.1 hrun
  simp only [Prod.mk.injEq] at hv
  obtain ⟨hlane, hsel, hbuf, hsent⟩ := hv
  obtain ⟨⟨a, ready⟩, hsel, ha⟩ := Option.map_eq_some_iff.1 hsel
  obtain rfl : a = 0 := ha
  have hund : ∀ s, ∀ e ∈ askWithFlags 4, Undamaged globals s e.input := by
    intro s e he
    simp only [askWithFlags, List.mem_cons, List.not_mem_nil, or_false] at he
    rcases he with rfl | rfl | rfl | rfl <;> exact nofun
  have hreach := play_reachable (P := Undamaged globals) hund (.init (initSystem_initial _)) hs
  have hp : Parked s.sessionLists 0 := ⟨.toWakeUpAfterServiceOrPortRegister, by decide, by decide, by
    rw [hlane]; exact List.mem_singleton.2 rfl⟩
  exact ⟨s, ready, hs, hsel, (replay_iff hreach hsel hp).2 (hbuf.trans hsent.symm)⟩

/-- The same request, come in now. -/
def State.sentAgain (s : State) (a : Nat) : State :=
  { s with cmdbuf := fun j => if j < 5 then s.history.sent a j else 0 }

/-- The result of a command that did not panic. -/
def resultOf : Except Panic (Result × State) → Result
  | .ok (res, _) => res
  | .error _ => 0

/-- The flags of a session that does not want to wait for a full port are lost, and it waits. -/
theorem askWithFlags_one_lost : ¬ ∀ s i a ready, (sm globals).Reachable s → KernelOk globals s i →
    selection globals s i = some (a, ready) → Parked s.sessionLists a → Replays globals i.sys ready a := by
  intro hall
  have hrun : (play globals (initSystem globals fun _ => 0) (askWithFlags 1)).map (fun s =>
      (s.sessionLists .toWakeUpAfterServiceOrPortRegister, resumeFull.possible globals s,
        (selection globals s resumeFull.input).map fun r =>
          (r.1, resultOf (handleCommands globals resumeFull.input.sys r.2 0),
            resultOf (srvHandleCommands globals resumeFull.input.sys (r.2.sentAgain 0) 0)))) =
      some ([0], true, some (0, 0xD0406402, 0xD0401834)) := by decide +kernel
  obtain ⟨s, hs, hv⟩ := Option.map_eq_some_iff.1 hrun
  simp only [Prod.mk.injEq] at hv
  obtain ⟨hlane, hpos, hsel⟩ := hv
  obtain ⟨⟨a, ready⟩, hsel, hv⟩ := Option.map_eq_some_iff.1 hsel
  simp only [Prod.mk.injEq] at hv
  obtain ⟨ha, hres, hfresh⟩ := hv
  obtain rfl : a = 0 := ha
  have hreach := play_reachable (P := fun _ _ => True) (fun _ _ _ => trivial) (.init (initSystem_initial _)) hs
  have hp : Parked s.sessionLists 0 := ⟨.toWakeUpAfterServiceOrPortRegister, by decide, by decide, by
    rw [hlane]; exact List.mem_singleton.2 rfl⟩
  have hsame := (hall s _ 0 ready hreach.of_restrict (Event.kernelOk hpos) hsel hp).2 (ready.sentAgain 0).cmdbuf
    fun j hj => if_pos hj
  -- the two answers differ in their result
  have hno : ∀ {x y : Except Panic (Result × State)}, SameOutcome x y → resultOf x = resultOf y := by
    intro x y hxy
    rcases x with e | ⟨res, t⟩ <;> rcases y with e' | ⟨res', t'⟩
    · rfl
    · exact hxy.elim
    · exact hxy.elim
    · exact hxy.1
  rw [hno hsame] at hres
  exact absurd (hfresh.symm.trans hres) (by decide)

end

end Omiiba.Sm
