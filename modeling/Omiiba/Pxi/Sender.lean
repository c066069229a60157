/-
The sender and the receiver of PXI, after sender.c and receiver.c: commands of nine services go to arm9, their
replies come back in any order, and command 5 of pxi:mc turns sending off and on.
-/
import Omiiba.Lib.System

namespace Omiiba.Pxi

inductive SessionState
  | idle
  | receivedFromArm11
  | sentToArm9
  | receivedFromArm9
  deriving DecidableEq

/-- `SessionData`: its state, the header in its buffer, and if it has a handle. -/
structure SessionData where
  state : SessionState
  header : UInt32
  handle : Bool
  deriving DecidableEq

/-- `SessionManager`, for the services of the sender, and the handle the sender is to reply to. -/
structure SessionManager where
  latestMC5Val : UInt32
  pendingArm9Commands : UInt32
  sendingDisabled : Bool
  sessionData : Fin 9 → SessionData
  replySemaphore : Nat
  sendAllBuffersToArm9Event : Bool
  replyTarget : Option (Fin 9)

/-- The manager, with what has been done to it: for a command that is with arm9, if sending was enabled when it was
sent; and the last argument of command 5. -/
structure PxiState extends SessionManager where
  sentEnabled : Fin 9 → Bool
  inWindow : Bool

/-- The checks that end in `svcBreak`. -/
inductive SvcBreak
  | unexpectedReply
  | replyTooLarge
  | commandTooLarge
  | sessionTaken
  | noReply
  /-- arm9 replies to MC5(0) and commands are pending -/
  | commandsPending
  /-- MC5(1) while sending is disabled -/
  | alreadyDisabled
  /-- MC5(0) while sending is enabled -/
  | alreadyEnabled
  deriving DecidableEq

/-- The checks on `sendingDisabled` and `pendingArm9Commands`. -/
def SvcBreak.gating : SvcBreak → Bool
  | .commandsPending | .alreadyDisabled | .alreadyEnabled => true
  | _ => false

/-- Words of a command or a reply, from its header. -/
def sizeWords (header : UInt32) : UInt32 := (header &&& (0x3F : UInt32)) + ((header &&& (0xFC0 : UInt32)) >>> (6 : UInt32)) + 1

instance neZero_nine : NeZero 9 := ⟨by decide⟩

/-- Command 5 of pxi:mc. -/
def isMC5 (i : Fin 9) (header : UInt32) : Bool := decide (i = 0) && decide (header >>> 16 = 5)

namespace PxiState

variable (s : PxiState)

def setState (i : Fin 9) (state : SessionState) : PxiState :=
  { s with sessionData := Function.update s.sessionData i { s.sessionData i with state := state } }

/-- The command of a session is to be sent. -/
def waiting (i : Fin 9) : Bool := (s.sessionData i).handle && decide ((s.sessionData i).state = .receivedFromArm11)

/-- No command is sent. -/
def blocked : Bool := s.sendingDisabled && (decide (s.pendingArm9Commands ≠ 0) || decide (s.latestMC5Val = 0))

/-- A session is looked at, on the way through all of them. -/
def sendOne (i : Fin 9) : PxiState :=
  if !s.waiting i || s.blocked then s
  else if s.sendingDisabled then
    { s.setState i .sentToArm9 with sentEnabled := Function.update s.sentEnabled i false }
  else
    { s.setState i .sentToArm9 with
      pendingArm9Commands := s.pendingArm9Commands + 1
      sentEnabled := Function.update s.sentEnabled i true }

/-- What the sender does before it waits: without a reply to give it sends what it has. -/
def sendAll : PxiState :=
  if s.replyTarget = none then (List.finRange 9).foldl sendOne s else s

/-- The session whose reply is handled. -/
def repliedSession : Option (Fin 9) := Fin.find? fun i => (s.sessionData i).state = .receivedFromArm9

/-- A reply of arm9. -/
def arm9Reply : Except SvcBreak PxiState :=
  match s.repliedSession with
  | none => .error .noReply
  | some i =>
    let replied := { s.setState i .idle with
      replySemaphore := s.replySemaphore - 1
      replyTarget := if (s.sessionData i).handle then some i else none }
    if s.latestMC5Val = 2 then
      if s.pendingArm9Commands ≠ 0 then .error .commandsPending
      else if sizeWords (s.sessionData i).header > 64 then .error .replyTooLarge
      else .ok { replied with sendingDisabled := false }
    else if sizeWords (s.sessionData i).header > 64 then .error .replyTooLarge
    else if s.latestMC5Val = 0 then .ok { replied with pendingArm9Commands := s.pendingArm9Commands - 1 }
    else .ok replied

/-- A command of arm11. -/
def arm11Command (i : Fin 9) (header arg : UInt32) : Except SvcBreak PxiState :=
  let received (s : PxiState) : Except SvcBreak PxiState :=
    if sizeWords header > 64 then .error .commandTooLarge
    else .ok { s with
      sessionData := Function.update s.sessionData i
        { s.sessionData i with state := .receivedFromArm11, header := header }
      replyTarget := none }
  if !isMC5 i header then received { s with latestMC5Val := 0 }
  else if arg &&& 0xFF ≠ 0 then
    if s.sendingDisabled then .error .alreadyDisabled
    else received { s with latestMC5Val := 1, sendingDisabled := true, inWindow := true }
  else if !s.sendingDisabled then .error .alreadyEnabled
  else received { s with latestMC5Val := 2, inWindow := false }

/-- A session is closed by its client. -/
def closeSession (i : Fin 9) : PxiState :=
  { s with
    sessionData := Function.update s.sessionData i { s.sessionData i with handle := false }
    replyTarget := none }

/-- `receiveFromArm9`, for a service of the sender. -/
def receiveFromArm9 (i : Fin 9) (header : UInt32) : Except SvcBreak PxiState :=
  if (s.sessionData i).state ≠ .sentToArm9 then .error .unexpectedReply
  else if sizeWords header > 64 then .error .replyTooLarge
  else .ok { s with
    sessionData := Function.update s.sessionData i
      { s.sessionData i with state := .receivedFromArm9, header := header }
    replySemaphore := s.replySemaphore + 1 }

/-- `main` accepts a session. -/
def acceptSession (i : Fin 9) : Except SvcBreak PxiState :=
  if (s.sessionData i).handle then .error .sessionTaken
  else .ok { s with
    sessionData := Function.update s.sessionData i { s.sessionData i with handle := true }
    sendAllBuffersToArm9Event := true }

end PxiState

/-! ## Runs -/

/-- What happens while the sender waits: arm9 replies, a client connects; or the sender goes on, with the event,
the semaphore, a closed session or a command. -/
inductive PxiInput
  | receive (i : Fin 9) (header : UInt32)
  | accept (i : Fin 9)
  | sendAllEvent
  | replyReady
  | closed (i : Fin 9)
  | command (i : Fin 9) (header arg : UInt32)

/-- The sender waits for the handles of idle sessions only. -/
def PxiState.Enabled (s : PxiState) : PxiInput → Prop
  | .receive _ _ => True
  | .accept _ => True
  | .sendAllEvent => s.sendAllBuffersToArm9Event = true
  | .replyReady => 0 < s.replySemaphore
  | .closed i => (s.sessionData i).handle = true ∧ (s.sessionData i).state = .idle
  | .command i _ _ => (s.sessionData i).handle = true ∧ (s.sessionData i).state = .idle

def pxiInit : PxiState where
  latestMC5Val := 0
  pendingArm9Commands := 0
  sendingDisabled := false
  sessionData _ := ⟨.idle, 0, false⟩
  replySemaphore := 0
  sendAllBuffersToArm9Event := false
  replyTarget := none
  sentEnabled _ := false
  inWindow := false

namespace PxiState

variable (s : PxiState)

/-- The command of a session is with arm9, or its reply has not been handled. -/
def inFlight (i : Fin 9) : Bool :=
  decide ((s.sessionData i).state = .sentToArm9) || decide ((s.sessionData i).state = .receivedFromArm9)

/-- The commands that were sent while sending was enabled and have not been replied to. -/
def countedInFlight : Nat := (Finset.univ.filter fun i => (s.inFlight i && s.sentEnabled i) = true).card

/-- Command 5 of pxi:mc is to be sent. -/
def mc5Waiting : Bool := s.waiting 0 && isMC5 0 (s.sessionData 0).header

end PxiState

/-- Two predicates that agree off `i` count alike, but for `i`. -/
theorem card_filter_off {p q : Fin 9 → Bool} (i : Fin 9) (h : ∀ j, j ≠ i → p j = q j) :
    (Finset.univ.filter fun j => p j = true).card + (q i).toNat =
      (Finset.univ.filter fun j => q j = true).card + (p i).toNat := by
  have hsplit : ∀ r : Fin 9 → Bool, (Finset.univ.filter fun j => r j = true).card =
      (r i).toNat + ∑ j ∈ Finset.univ.erase i, (r j).toNat := by
    intro r
    rw [Finset.card_filter, ← Finset.add_sum_erase _ _ (Finset.mem_univ i)]
    congr 1
    · cases r i <;> rfl
    · apply Finset.sum_congr rfl
      intro j _
      cases r j <;> rfl
  rw [hsplit p, hsplit q, Finset.sum_congr rfl fun j hj => by rw [h j (Finset.ne_of_mem_erase hj)]]
  omega

namespace PxiState

variable {s s' : PxiState}

/-- Only session `i` changes. -/
theorem countedInFlight_off (i : Fin 9) (hdata : ∀ j, j ≠ i → s'.sessionData j = s.sessionData j)
    (hsent : ∀ j, j ≠ i → s'.sentEnabled j = s.sentEnabled j) :
    s'.countedInFlight + (s.inFlight i && s.sentEnabled i).toNat =
      s.countedInFlight + (s'.inFlight i && s'.sentEnabled i).toNat := by
  apply card_filter_off i
  intro j hj
  unfold inFlight
  rw [hdata j hj, hsent j hj]

theorem countedInFlight_le (s : PxiState) : s.countedInFlight ≤ 9 := by
  unfold countedInFlight
  exact (Finset.card_filter_le _ _).trans (by simp)

/-! ### What the sender keeps -/

/-- The counter is right, and what the two ends of the window of command 5 rely on. -/
structure Good (s : PxiState) : Prop where
  count : s.pendingArm9Commands.toNat = s.countedInFlight
  opened : ∀ i, (s.sessionData i).state = .receivedFromArm11 → (s.sessionData i).handle = true
  values : s.latestMC5Val = 0 ∨ s.latestMC5Val = 1 ∨ s.latestMC5Val = 2
  /-- between MC5(1) and MC5(0) -/
  window : s.inWindow = true → s.sendingDisabled = true ∧ s.latestMC5Val ≠ 2
  one : s.latestMC5Val = 1 → s.inWindow = true
  /-- once MC5(1) has been sent nothing is pending -/
  settled : s.inWindow = true → s.mc5Waiting = false → s.countedInFlight = 0
  /-- after MC5(0), until its reply -/
  closing : s.inWindow = false → s.sendingDisabled = true →
    (s.sessionData 0).state ≠ .idle ∧ (s.inFlight 0 = true → s.sentEnabled 0 = false)
  two : s.latestMC5Val = 2 → s.countedInFlight = 0 ∧ (s.sendingDisabled = true ∨ ∀ i, s.waiting i = false)
  mc5 : s.mc5Waiting = true → s.latestMC5Val ≠ 0

/-- Nothing waits once MC5(0) has come. -/
def Quiet (s : PxiState) : Prop := s.latestMC5Val = 2 → ∀ i, s.waiting i = false

theorem sendOne_of_blocked {i : Fin 9} (h : s.waiting i = false ∨ s.blocked = true) : s.sendOne i = s := by
  unfold sendOne
  rw [if_pos]
  rcases h with h | h <;> simp [h]

/-- The fields that sending leaves alone. -/
theorem sendOne_fields (s : PxiState) (i : Fin 9) :
    (s.sendOne i).latestMC5Val = s.latestMC5Val ∧ (s.sendOne i).sendingDisabled = s.sendingDisabled ∧
      (s.sendOne i).inWindow = s.inWindow ∧ (s.sendOne i).replyTarget = s.replyTarget := by
  unfold sendOne
  split
  · exact ⟨rfl, rfl, rfl, rfl⟩
  · split <;> exact ⟨rfl, rfl, rfl, rfl⟩

theorem sendOne_data (s : PxiState) (i j : Fin 9) :
    (s.sendOne i).sessionData j =
      if j = i ∧ s.waiting i = true ∧ s.blocked = false then { s.sessionData j with state := .sentToArm9 }
      else s.sessionData j := by
  unfold sendOne
  by_cases hgo : s.waiting i = true ∧ s.blocked = false
  · have hcond : ¬((!s.waiting i || s.blocked) = true) := by simp [hgo.1, hgo.2]
    rw [if_neg hcond]
    by_cases hj : j = i
    · subst hj
      have hpos : j = j ∧ s.waiting j = true ∧ s.blocked = false := ⟨rfl, hgo⟩
      rw [if_pos hpos]
      split <;> exact Function.update_self ..
    · have hneg : ¬(j = i ∧ s.waiting i = true ∧ s.blocked = false) := fun h => hj h.1
      rw [if_neg hneg]
      split <;> exact Function.update_of_ne hj ..
  · have hcond : (!s.waiting i || s.blocked) = true := by
      rcases hw : s.waiting i with _ | _
      · rfl
      · rcases hb : s.blocked with _ | _
        · exact absurd ⟨hw, hb⟩ hgo
        · rfl
    rw [if_pos hcond, if_neg (fun h => hgo h.2)]

/-- A command that is sent: counted if and only if sending is enabled. -/
theorem sendOne_sends {i : Fin 9} (hw : s.waiting i = true) (hb : s.blocked = false) :
    (s.sendOne i).sentEnabled = Function.update s.sentEnabled i (!s.sendingDisabled) ∧
      (s.sendOne i).pendingArm9Commands = s.pendingArm9Commands + (if s.sendingDisabled then 0 else 1) := by
  have hcond : ¬((!s.waiting i || s.blocked) = true) := by simp [hw, hb]
  unfold sendOne
  rw [if_neg hcond]
  split
  · rename_i hdisabled
    rw [hdisabled]
    exact ⟨rfl, (UInt32.add_zero _).symm⟩
  · rename_i henabled
    rw [Bool.not_eq_true] at henabled
    rw [henabled]
    exact ⟨rfl, rfl⟩

theorem waiting_iff {i : Fin 9} :
    s.waiting i = true ↔ (s.sessionData i).handle = true ∧ (s.sessionData i).state = .receivedFromArm11 := by
  unfold waiting
  rw [Bool.and_eq_true, decide_eq_true_iff]

theorem inFlight_of_waiting {i : Fin 9} (h : s.waiting i = true) : s.inFlight i = false := by
  unfold inFlight
  rw [(waiting_iff.mp h).2]
  rfl

/-- What waits after a command has been sent. -/
theorem waiting_sendOne {i j : Fin 9} (h : (s.sendOne i).waiting j = true) : s.waiting j = true := by
  rw [waiting_iff, sendOne_data] at h
  split at h
  · cases h.2
  · exact waiting_iff.mpr h

theorem mc5Waiting_sendOne {i : Fin 9} (h : (s.sendOne i).mc5Waiting = true) : s.mc5Waiting = true := by
  unfold mc5Waiting at h ⊢
  rw [Bool.and_eq_true] at h ⊢
  refine ⟨waiting_sendOne h.1, ?_⟩
  have hheader : ((s.sendOne i).sessionData 0).header = (s.sessionData 0).header := by
    rw [sendOne_data]
    split <;> rfl
  rw [← hheader]
  exact h.2

/-- A command that is sent changes the count as it changes the counter. -/
theorem countedInFlight_sendOne {i : Fin 9} (hw : s.waiting i = true) (hb : s.blocked = false) :
    (s.sendOne i).countedInFlight = s.countedInFlight + (if s.sendingDisabled then 0 else 1) := by
  have hdata := fun j => s.sendOne_data i j
  obtain ⟨hsent, _⟩ := sendOne_sends hw hb
  have hoff : (s.sendOne i).countedInFlight + _ = s.countedInFlight + _ := countedInFlight_off i
    (fun j hj => by rw [hdata, if_neg (fun h => hj h.1)])
    (fun j hj => by rw [hsent, Function.update_of_ne hj])
  have hin : (s.sendOne i).inFlight i = true := by
    unfold inFlight
    rw [hdata, if_pos ⟨rfl, hw, hb⟩]
    rfl
  rw [inFlight_of_waiting hw, hin, hsent, Function.update_self] at hoff
  cases hd : s.sendingDisabled <;> rw [hd] at hoff <;> simpa using hoff

theorem Good.sendOne (h : s.Good) (i : Fin 9) : (s.sendOne i).Good := by
  by_cases hgo : s.waiting i = true ∧ s.blocked = false
  · obtain ⟨hw, hb⟩ := hgo
    obtain ⟨hlatest, hdisabled, hwindow, _⟩ := s.sendOne_fields i
    obtain ⟨hsent, hpending⟩ := sendOne_sends hw hb
    have hcounted := countedInFlight_sendOne hw hb
    -- with sending disabled nothing is counted, and then nothing was pending
    have hzero : s.sendingDisabled = true → s.countedInFlight = 0 ∧ (s.sendOne i).countedInFlight = 0 := by
      intro hd
      have hnone : s.pendingArm9Commands = 0 := by
        unfold blocked at hb
        rw [hd, Bool.true_and, Bool.or_eq_false_iff] at hb
        simpa using hb.1
      have hcount := h.count
      rw [hnone] at hcount
      rw [hcounted, hd, ← hcount]
      exact ⟨rfl, rfl⟩
    constructor
    · rw [hpending, hcounted]
      have hle := s.countedInFlight_le
      have hcount := h.count
      split
      · rw [UInt32.add_zero, hcount, Nat.add_zero]
      · rw [UInt32.toNat_add, hcount, UInt32.toNat_one]
        omega
    · intro j hj
      rw [sendOne_data] at hj ⊢
      split at hj
      · cases hj
      · rename_i hneg
        rw [if_neg hneg]
        exact h.opened j hj
    · rw [hlatest]
      exact h.values
    · rw [hwindow, hdisabled, hlatest]
      exact h.window
    · rw [hwindow, hlatest]
      exact h.one
    · intro hin _
      rw [hwindow] at hin
      exact (hzero (h.window hin).1).2
    · intro hin hd
      rw [hwindow] at hin
      rw [hdisabled] at hd
      obtain ⟨hstate, hflight⟩ := h.closing hin hd
      by_cases hi : (0 : Fin 9) = i
      · subst hi
        rw [sendOne_data, if_pos ⟨rfl, hw, hb⟩, hsent, Function.update_self, hd]
        exact ⟨SessionState.noConfusion, fun _ => rfl⟩
      · have hdata : (s.sendOne i).sessionData 0 = s.sessionData 0 := by
          rw [sendOne_data, if_neg (fun h => hi h.1)]
        rw [hdata, hsent, Function.update_of_ne hi]
        refine ⟨hstate, fun hflight' => hflight ?_⟩
        unfold inFlight at hflight' ⊢
        rw [← hdata]
        exact hflight'
    · intro htwo
      rw [hlatest] at htwo
      rcases (h.two htwo).2 with hd | hquiet
      · rw [hdisabled]
        exact ⟨(hzero hd).2, Or.inl hd⟩
      · rw [hquiet i] at hw
        cases hw
    · intro hmc5
      rw [hlatest]
      exact h.mc5 (mc5Waiting_sendOne hmc5)
  · have hsame : s.waiting i = false ∨ s.blocked = true := by
      rcases hw : s.waiting i with _ | _
      · exact Or.inl rfl
      · rcases hb : s.blocked with _ | _
        · exact absurd ⟨hw, hb⟩ hgo
        · exact Or.inr rfl
    rw [sendOne_of_blocked hsame]
    exact h

theorem Good.foldl_sendOne : ∀ (l : List (Fin 9)) {s : PxiState}, s.Good → (l.foldl PxiState.sendOne s).Good
  | [], _, h => h
  | i :: l, _, h => (h.sendOne i).foldl_sendOne l

theorem Good.sendAll (h : s.Good) : s.sendAll.Good := by
  unfold PxiState.sendAll
  split
  · exact h.foldl_sendOne _
  · exact h

theorem foldl_sendOne_waiting : ∀ (l : List (Fin 9)) {s : PxiState} {i : Fin 9},
    (l.foldl sendOne s).waiting i = true → s.waiting i = true
  | [], _, _, h => h
  | _ :: l, _, _, h => waiting_sendOne (foldl_sendOne_waiting l h)

theorem foldl_sendOne_fields : ∀ (l : List (Fin 9)) (s : PxiState),
    (l.foldl sendOne s).latestMC5Val = s.latestMC5Val ∧ (l.foldl sendOne s).inWindow = s.inWindow
  | [], _ => ⟨rfl, rfl⟩
  | i :: l, s => by
    obtain ⟨hlatest, hwindow⟩ := foldl_sendOne_fields l (s.sendOne i)
    obtain ⟨hlatest', _, hwindow', _⟩ := s.sendOne_fields i
    exact ⟨hlatest.trans hlatest', hwindow.trans hwindow'⟩

theorem Quiet.sendAll (h : s.Quiet) : s.sendAll.Quiet := by
  unfold PxiState.sendAll
  split
  · intro htwo i
    rw [(foldl_sendOne_fields _ s).1] at htwo
    by_contra hw
    rw [Bool.not_eq_false] at hw
    have hbefore := foldl_sendOne_waiting _ hw
    rw [h htwo i] at hbefore
    cases hbefore
  · exact h

end PxiState

/-- Steps that keep the counter: a reply is taken off if and only if its command was counted, and no other command
comes while command 5 waits. -/
def Kept (s : PxiState) : PxiInput → Prop
  | .replyReady => ∀ i, s.repliedSession = some i → (s.sentEnabled i = true ↔ s.latestMC5Val = 0)
  | .command i header _ => isMC5 i header = false → s.mc5Waiting = false
  | _ => True

/-- MC5(1) and MC5(0) take turns. -/
def Alternates (s : PxiState) : PxiInput → Prop
  | .command i header arg => isMC5 i header = true → (arg &&& 0xFF ≠ 0 ↔ s.inWindow = false)
  | _ => True

namespace PxiState

variable {s s' : PxiState}

theorem waiting_congr {i : Fin 9} (h : s'.sessionData i = s.sessionData i) : s'.waiting i = s.waiting i := by
  unfold waiting
  rw [h]

theorem inFlight_congr {i : Fin 9} (h : s'.sessionData i = s.sessionData i) : s'.inFlight i = s.inFlight i := by
  unfold inFlight
  rw [h]

theorem mc5Waiting_congr (h : s'.sessionData 0 = s.sessionData 0) : s'.mc5Waiting = s.mc5Waiting := by
  unfold mc5Waiting waiting
  rw [h]

theorem repliedSession_state {i : Fin 9} (h : s.repliedSession = some i) : (s.sessionData i).state = .receivedFromArm9 :=
  of_decide_eq_true (Fin.find?_eq_some_iff.mp h).1

/-- Nothing that the sender goes by has changed. -/
theorem Good.congr (h : s.Good) (hquiet : s.Quiet)
    (hfields : s'.latestMC5Val = s.latestMC5Val ∧ s'.pendingArm9Commands = s.pendingArm9Commands ∧
      s'.sendingDisabled = s.sendingDisabled ∧ s'.inWindow = s.inWindow ∧ s'.sentEnabled = s.sentEnabled)
    (hwaiting : ∀ j, s'.waiting j = s.waiting j) (hflight : ∀ j, s'.inFlight j = s.inFlight j)
    (hmc5 : s'.mc5Waiting = s.mc5Waiting)
    (hopened : ∀ j, (s'.sessionData j).state = .receivedFromArm11 → (s'.sessionData j).handle = true)
    (hbusy : (s.sessionData 0).state ≠ .idle → (s'.sessionData 0).state ≠ .idle) : s'.Good ∧ s'.Quiet := by
  obtain ⟨hlatest, hpending, hdisabled, hwindow, hsent⟩ := hfields
  have hcounted : s'.countedInFlight = s.countedInFlight := by
    unfold countedInFlight
    simp only [hflight, hsent]
  refine ⟨⟨?_, hopened, ?_, ?_, ?_, ?_, ?_, ?_, ?_⟩, ?_⟩
  · rw [hcounted, hpending]
    exact h.count
  · rw [hlatest]
    exact h.values
  · rw [hwindow, hdisabled, hlatest]
    exact h.window
  · rw [hlatest, hwindow]
    exact h.one
  · rw [hwindow, hmc5, hcounted]
    exact h.settled
  · intro hin hd
    rw [hwindow] at hin
    rw [hdisabled] at hd
    obtain ⟨hstate, hcounted⟩ := h.closing hin hd
    rw [hflight, hsent]
    exact ⟨hbusy hstate, hcounted⟩
  · intro htwo
    rw [hlatest] at htwo
    obtain ⟨hzero, hcase⟩ := h.two htwo
    rw [hcounted, hdisabled]
    refine ⟨hzero, hcase.imp_right fun hall j => ?_⟩
    rw [hwaiting]
    exact hall j
  · rw [hmc5, hlatest]
    exact h.mc5
  · intro htwo j
    rw [hlatest] at htwo
    rw [hwaiting]
    exact hquiet htwo j

/-- A reply of arm9 arrives. -/
theorem Good.receive (h : s.Good) (hquiet : s.Quiet) {i : Fin 9} (hsent : (s.sessionData i).state = .sentToArm9)
    (header : UInt32) (n : Nat) :
    let s' : PxiState := { s with
      sessionData := Function.update s.sessionData i { s.sessionData i with state := .receivedFromArm9, header := header }
      replySemaphore := n }
    s'.Good ∧ s'.Quiet := by
  intro s'
  have hself : s'.sessionData i = { s.sessionData i with state := .receivedFromArm9, header := header } :=
    Function.update_self ..
  have hother : ∀ j, j ≠ i → s'.sessionData j = s.sessionData j := fun j hj => Function.update_of_ne hj ..
  have hno : s.waiting i = false := by
    unfold waiting
    rw [hsent]
    exact Bool.and_false _
  have hno' : s'.waiting i = false := by
    unfold waiting
    rw [hself]
    exact Bool.and_false _
  refine h.congr hquiet ⟨rfl, rfl, rfl, rfl, rfl⟩ (fun j => ?_) (fun j => ?_) ?_ (fun j hj => ?_) (fun hbusy => ?_)
  · by_cases hj : j = i
    · subst hj
      exact hno'.trans hno.symm
    · exact waiting_congr (hother j hj)
  · by_cases hj : j = i
    · subst hj
      unfold inFlight
      rw [hself, hsent]
      rfl
    · exact inFlight_congr (hother j hj)
  · by_cases hi : 0 = i
    · subst hi
      unfold mc5Waiting
      rw [hno, hno']
      rfl
    · exact mc5Waiting_congr (hother 0 hi)
  · by_cases hji : j = i
    · subst hji
      rw [hself] at hj
      cases hj
    · rw [hother j hji] at hj ⊢
      exact h.opened j hj
  · by_cases hi : 0 = i
    · subst hi
      rw [hself]
      exact SessionState.noConfusion
    · rw [hother 0 hi]
      exact hbusy

/-- A session that does not wait is opened or closed. -/
theorem Good.handle (h : s.Good) (hquiet : s.Quiet) {i : Fin 9} (hstate : (s.sessionData i).state ≠ .receivedFromArm11)
    (handle event : Bool) (target : Option (Fin 9)) :
    let s' : PxiState := { s with
      sessionData := Function.update s.sessionData i { s.sessionData i with handle := handle }
      sendAllBuffersToArm9Event := event
      replyTarget := target }
    s'.Good ∧ s'.Quiet := by
  intro s'
  have hself : s'.sessionData i = { s.sessionData i with handle := handle } := Function.update_self ..
  have hother : ∀ j, j ≠ i → s'.sessionData j = s.sessionData j := fun j hj => Function.update_of_ne hj ..
  have hstates : ∀ j, (s'.sessionData j).state = (s.sessionData j).state := by
    intro j
    by_cases hj : j = i
    · subst hj
      rw [hself]
    · rw [hother j hj]
  have hwaiting : ∀ j, s'.waiting j = s.waiting j := by
    intro j
    by_cases hj : j = i
    · subst hj
      unfold waiting
      rw [hself]
      simp [hstate]
    · exact waiting_congr (hother j hj)
  refine h.congr hquiet ⟨rfl, rfl, rfl, rfl, rfl⟩ hwaiting (fun j => ?_) ?_ (fun j hj => ?_) (fun hbusy => ?_)
  · unfold inFlight
    rw [hstates]
  · by_cases hi : 0 = i
    · subst hi
      unfold mc5Waiting
      rw [hwaiting, hself]
    · exact mc5Waiting_congr (hother 0 hi)
  · by_cases hji : j = i
    · subst hji
      rw [hstates] at hj
      exact absurd hj hstate
    · rw [hother j hji] at hj ⊢
      exact h.opened j hj
  · rw [hstates]
    exact hbusy

/-- A reply has been handled: its session is idle, and the counter and the gate are as the last command has it. -/
theorem Good.replied (h : s.Good) (hquiet : s.Quiet) {i : Fin 9} (hstate : (s.sessionData i).state = .receivedFromArm9)
    (hcountIff : s.sentEnabled i = true ↔ s.latestMC5Val = 0) (n : Nat) (target : Option (Fin 9)) (pending : UInt32)
    (disabled : Bool) (hpending : pending.toNat + (s.sentEnabled i).toNat = s.pendingArm9Commands.toNat)
    (hdisabled : disabled = (decide (s.latestMC5Val ≠ 2) && s.sendingDisabled)) {s' : PxiState}
    (hs' : s' = { s.setState i .idle with
      pendingArm9Commands := pending, sendingDisabled := disabled, replySemaphore := n, replyTarget := target }) :
    s'.Good ∧ s'.Quiet := by
  have hself : s'.sessionData i = { s.sessionData i with state := .idle } := by
    subst hs'
    exact Function.update_self ..
  have hother : ∀ j, j ≠ i → s'.sessionData j = s.sessionData j := by
    subst hs'
    exact fun j hj => Function.update_of_ne hj ..
  have hfields : s'.latestMC5Val = s.latestMC5Val ∧ s'.pendingArm9Commands = pending ∧
      s'.sendingDisabled = disabled ∧ s'.inWindow = s.inWindow ∧ s'.sentEnabled = s.sentEnabled := by
    subst hs'
    exact ⟨rfl, rfl, rfl, rfl, rfl⟩
  obtain ⟨hlatest, hpending', hdisabled', hwindow, hsent⟩ := hfields
  have hflight : s.inFlight i = true := by
    unfold inFlight
    rw [hstate]
    rfl
  have hno : s.waiting i = false := by
    unfold waiting
    rw [hstate]
    exact Bool.and_false _
  have hwaiting : ∀ j, s'.waiting j = s.waiting j := by
    intro j
    by_cases hj : j = i
    · subst hj
      rw [hno]
      unfold waiting
      rw [hself]
      exact Bool.and_false _
    · exact waiting_congr (hother j hj)
  have hmc5 : s'.mc5Waiting = s.mc5Waiting := by
    by_cases hi0 : 0 = i
    · subst hi0
      unfold mc5Waiting
      rw [hwaiting, hno]
      rfl
    · exact mc5Waiting_congr (hother 0 hi0)
  have hflight' : s'.inFlight i = false := by
    unfold inFlight
    rw [hself]
    rfl
  have hcounted := countedInFlight_off i hother fun j _ => by rw [hsent]
  rw [hflight, hflight', Bool.true_and, Bool.false_and, Bool.toNat_false, Nat.add_zero] at hcounted
  have hcount := h.count
  refine ⟨⟨?_, ?_, ?_, ?_, ?_, ?_, ?_, ?_, ?_⟩, ?_⟩
  · rw [hpending']
    omega
  · intro j hj
    by_cases hji : j = i
    · subst hji
      rw [hself] at hj
      cases hj
    · rw [hother j hji] at hj ⊢
      exact h.opened j hj
  · rw [hlatest]
    exact h.values
  · intro hin
    rw [hwindow] at hin
    obtain ⟨hd, hne⟩ := h.window hin
    rw [hdisabled', hlatest, hdisabled, hd, Bool.and_true]
    exact ⟨decide_eq_true hne, hne⟩
  · rw [hlatest, hwindow]
    exact h.one
  · intro hin hmc
    rw [hwindow] at hin
    rw [hmc5] at hmc
    have hzero := h.settled hin hmc
    omega
  · intro hin hd
    rw [hwindow] at hin
    rw [hdisabled', hdisabled, Bool.and_eq_true, decide_eq_true_iff] at hd
    obtain ⟨hbusy, huncounted⟩ := h.closing hin hd.2
    by_cases hi0 : 0 = i
    · -- the reply to MC5(0), which was not counted, finds that MC5(0) is the last command
      subst hi0
      rcases h.values with hv | hv | hv
      · have hcounted0 := huncounted hflight
        rw [hcountIff.mpr hv] at hcounted0
        cases hcounted0
      · rw [h.one hv] at hin
        cases hin
      · exact absurd hv hd.1
    · rw [inFlight_congr (hother 0 hi0), hother 0 hi0, hsent]
      exact ⟨hbusy, huncounted⟩
  · intro htwo
    rw [hlatest] at htwo
    have hzero := (h.two htwo).1
    refine ⟨by omega, Or.inr fun j => ?_⟩
    rw [hwaiting]
    exact hquiet htwo j
  · rw [hmc5, hlatest]
    exact h.mc5
  · intro htwo j
    rw [hlatest] at htwo
    rw [hwaiting]
    exact hquiet htwo j

/-- The sender handles a reply. -/
theorem Good.arm9Reply (h : s.Good) (hquiet : s.Quiet) (hkept : Kept s .replyReady) :
    (∀ s', s.arm9Reply = .ok s' → s'.Good ∧ s'.Quiet) ∧ ∀ e, s.arm9Reply = .error e → e.gating = false := by
  unfold PxiState.arm9Reply
  split
  · refine ⟨nofun, fun e he => ?_⟩
    cases he
    rfl
  rename_i i hi
  have hstate := repliedSession_state hi
  have hcountIff := hkept i hi
  have hsame : s.latestMC5Val ≠ 0 → s.pendingArm9Commands.toNat + (s.sentEnabled i).toNat = s.pendingArm9Commands.toNat := by
    intro hne
    have hfalse : s.sentEnabled i = false := by
      by_contra htrue
      exact hne (hcountIff.mp (Bool.not_eq_false _ ▸ htrue))
    rw [hfalse]
    rfl
  have hbreak : ∀ e, (Except.error SvcBreak.replyTooLarge : Except SvcBreak PxiState) = .error e → e.gating = false := by
    intro e he
    cases he
    rfl
  dsimp only
  split
  · rename_i htwo
    rw [if_neg (by rw [not_not]; exact UInt32.toNat_inj.mp (h.count.trans (h.two htwo).1))]
    split
    · exact ⟨nofun, hbreak⟩
    · refine ⟨fun s' hs' => ?_, nofun⟩
      refine h.replied hquiet hstate hcountIff _ _ _ false (hsame (by rw [htwo]; decide)) ?_ (Except.ok.inj hs').symm
      rw [htwo]
      rfl
  · rename_i htwo
    split
    · exact ⟨nofun, hbreak⟩
    · split
      · rename_i hzero
        refine ⟨fun s' hs' => ?_, nofun⟩
        have hflight : s.inFlight i = true := by
          unfold inFlight
          rw [hstate]
          rfl
        have hpos : 0 < s.pendingArm9Commands.toNat := by
          rw [h.count]
          refine Finset.card_pos.mpr ⟨i, ?_⟩
          rw [Finset.mem_filter, hflight, hcountIff.mpr hzero]
          exact ⟨Finset.mem_univ i, rfl⟩
        refine h.replied hquiet hstate hcountIff _ _ (s.pendingArm9Commands - 1) s.sendingDisabled ?_ ?_
          (Except.ok.inj hs').symm
        · have hle : (1 : UInt32) ≤ s.pendingArm9Commands := UInt32.le_iff_toNat_le.mpr hpos
          rw [hcountIff.mpr hzero, UInt32.toNat_sub_of_le _ _ hle]
          exact Nat.sub_add_cancel hpos
        · rw [decide_eq_true htwo, Bool.true_and]
      · rename_i hzero
        refine ⟨fun s' hs' => ?_, nofun⟩
        refine h.replied hquiet hstate hcountIff _ _ _ s.sendingDisabled (hsame hzero) ?_ (Except.ok.inj hs').symm
        rw [decide_eq_true htwo, Bool.true_and]

/-- A command has been taken from an idle session. -/
theorem Good.received (h : s.Good) {i : Fin 9} (hopen : (s.sessionData i).handle = true)
    (hidle : (s.sessionData i).state = .idle) {header : UInt32} {s' : PxiState}
    (hdata : s'.sessionData = Function.update s.sessionData i
      { s.sessionData i with state := .receivedFromArm11, header := header })
    (hsent : s'.sentEnabled = s.sentEnabled) (hpending : s'.pendingArm9Commands = s.pendingArm9Commands)
    (hlatest : s'.latestMC5Val = 0 ∧ isMC5 i header = false ∧ s'.inWindow = s.inWindow ∧
        s'.sendingDisabled = s.sendingDisabled ∧ s.mc5Waiting = false ∨
      s'.latestMC5Val = 1 ∧ isMC5 i header = true ∧ s'.inWindow = true ∧ s'.sendingDisabled = true ∨
      s'.latestMC5Val = 2 ∧ isMC5 i header = true ∧ s'.inWindow = false ∧ s'.sendingDisabled = true ∧ s.sendingDisabled = true) :
    s'.Good := by
  have hself : s'.sessionData i = { s.sessionData i with state := .receivedFromArm11, header := header } := by
    rw [hdata, Function.update_self]
  have hother : ∀ j, j ≠ i → s'.sessionData j = s.sessionData j := fun j hj => by
    rw [hdata, Function.update_of_ne hj]
  have hflight : ∀ j, s'.inFlight j = s.inFlight j := by
    intro j
    by_cases hj : j = i
    · subst hj
      unfold inFlight
      rw [hself, hidle]
      rfl
    · exact inFlight_congr (hother j hj)
  have hcounted : s'.countedInFlight = s.countedInFlight := by
    unfold countedInFlight
    simp only [hflight, hsent]
  have hzero : ∀ header, isMC5 i header = true → i = 0 := by
    intro header hmc5
    unfold isMC5 at hmc5
    rw [Bool.and_eq_true, decide_eq_true_iff] at hmc5
    exact hmc5.1
  -- session 0 is free again, so that nothing is left of an earlier command 5
  have hfree : i = 0 → s.mc5Waiting = false ∧ (s.inWindow = false → s.sendingDisabled = false) := by
    rintro rfl
    constructor
    · unfold mc5Waiting waiting
      rw [hidle]
      rw [show decide (SessionState.idle = SessionState.receivedFromArm11) = false from rfl, Bool.and_false, Bool.false_and]
    · intro hin
      by_contra hd
      exact (h.closing hin (Bool.not_eq_false _ ▸ hd)).1 hidle
  have hopened : ∀ j, (s'.sessionData j).state = .receivedFromArm11 → (s'.sessionData j).handle = true := by
    intro j hj
    by_cases hji : j = i
    · subst hji
      rw [hself]
      exact hopen
    · rw [hother j hji] at hj ⊢
      exact h.opened j hj
  have hcount : s'.pendingArm9Commands.toNat = s'.countedInFlight := by
    rw [hpending, hcounted]
    exact h.count
  rcases hlatest with ⟨hv, hmc5, hwindow, hdisabled, hnone⟩ | ⟨hv, hmc5, hwindow, hdisabled⟩ | ⟨hv, hmc5, hwindow, hdisabled, hd⟩
  · have hmc5' : s'.mc5Waiting = false := by
      by_cases hi0 : 0 = i
      · subst hi0
        unfold mc5Waiting
        rw [hself, hmc5, Bool.and_false]
      · rw [mc5Waiting_congr (hother 0 hi0), hnone]
    refine ⟨hcount, hopened, Or.inl hv, ?_, ?_, ?_, ?_, ?_, ?_⟩
    · intro hin
      rw [hwindow] at hin
      rw [hdisabled, hv]
      exact ⟨(h.window hin).1, by decide⟩
    · intro hone
      rw [hv] at hone
      exact absurd hone (by decide)
    · intro hin _
      rw [hwindow] at hin
      rw [hcounted]
      exact h.settled hin hnone
    · intro hin hd
      rw [hwindow] at hin
      rw [hdisabled] at hd
      obtain ⟨hbusy, huncounted⟩ := h.closing hin hd
      have hi0 : 0 ≠ i := by
        rintro rfl
        exact hbusy hidle
      rw [hother 0 hi0, hflight, hsent]
      exact ⟨hbusy, huncounted⟩
    · intro htwo
      rw [hv] at htwo
      exact absurd htwo (by decide)
    · intro hmc
      rw [hmc5'] at hmc
      cases hmc
  · obtain rfl := hzero header hmc5
    refine ⟨hcount, hopened, Or.inr (Or.inl hv), ?_, fun _ => hwindow, ?_, ?_, ?_, ?_⟩
    · intro _
      rw [hdisabled, hv]
      exact ⟨rfl, by decide⟩
    · intro _ hmc
      unfold mc5Waiting at hmc
      rw [hself, hmc5, Bool.and_true, waiting, hself, hopen] at hmc
      cases hmc
    · intro hin
      rw [hwindow] at hin
      cases hin
    · intro htwo
      rw [hv] at htwo
      exact absurd htwo (by decide)
    · intro _
      rw [hv]
      decide
  · obtain rfl := hzero header hmc5
    obtain ⟨hnone, hclosed⟩ := hfree rfl
    have hin : s.inWindow = true := by
      by_contra hin
      rw [hclosed (Bool.not_eq_true _ ▸ hin)] at hd
      cases hd
    have hsettled := h.settled hin hnone
    refine ⟨hcount, hopened, Or.inr (Or.inr hv), ?_, ?_, ?_, ?_, ?_, ?_⟩
    · intro hin'
      rw [hwindow] at hin'
      cases hin'
    · intro hone
      rw [hv] at hone
      exact absurd hone (by decide)
    · intro hin'
      rw [hwindow] at hin'
      cases hin'
    · intro _ _
      refine ⟨by rw [hself]; exact SessionState.noConfusion, fun hflight' => ?_⟩
      unfold inFlight at hflight'
      rw [hself] at hflight'
      cases hflight'
    · intro _
      exact ⟨hcounted.trans hsettled, Or.inl hdisabled⟩
    · intro _
      rw [hv]
      decide

theorem Good.arm11Command (h : s.Good) {i : Fin 9} {header arg : UInt32} (hopen : (s.sessionData i).handle = true)
    (hidle : (s.sessionData i).state = .idle) (hkept : Kept s (.command i header arg)) :
    (∀ s', s.arm11Command i header arg = .ok s' → s'.Good ∧ s'.replyTarget = none) ∧
      (Alternates s (.command i header arg) → ∀ e, s.arm11Command i header arg = .error e → e.gating = false) := by
  unfold PxiState.arm11Command
  dsimp only
  split
  · rename_i hmc5
    rw [Bool.not_eq_true'] at hmc5
    split
    · refine ⟨nofun, fun _ e he => ?_⟩
      cases he
      rfl
    · refine ⟨fun s' hs' => ?_, nofun⟩
      obtain rfl := Except.ok.inj hs'
      exact ⟨h.received hopen hidle rfl rfl rfl (Or.inl ⟨rfl, hmc5, rfl, rfl, hkept hmc5⟩), rfl⟩
  · rename_i hmc5
    rw [Bool.not_eq_true', Bool.not_eq_false] at hmc5
    have hi : i = 0 := by
      unfold isMC5 at hmc5
      rw [Bool.and_eq_true, decide_eq_true_iff] at hmc5
      exact hmc5.1
    split
    · rename_i harg
      split
      · rename_i hd
        refine ⟨nofun, fun halternates => ?_⟩
        have hin := (halternates hmc5).mp harg
        subst hi
        exact absurd hidle (h.closing hin hd).1
      · split
        · refine ⟨nofun, fun _ e he => ?_⟩
          cases he
          rfl
        · refine ⟨fun s' hs' => ?_, nofun⟩
          obtain rfl := Except.ok.inj hs'
          exact ⟨h.received hopen hidle rfl rfl rfl (Or.inr (Or.inl ⟨rfl, hmc5, rfl, rfl⟩)), rfl⟩
    · rename_i harg
      split
      · rename_i hd
        rw [Bool.not_eq_true'] at hd
        refine ⟨nofun, fun halternates => ?_⟩
        have hin : s.inWindow = true := by
          by_contra hin
          exact harg ((halternates hmc5).mpr (Bool.not_eq_true _ ▸ hin))
        rw [(h.window hin).1] at hd
        cases hd
      · rename_i hd
        rw [Bool.not_eq_true', Bool.not_eq_false] at hd
        split
        · refine ⟨nofun, fun _ e he => ?_⟩
          cases he
          rfl
        · refine ⟨fun s' hs' => ?_, nofun⟩
          obtain rfl := Except.ok.inj hs'
          exact ⟨h.received hopen hidle rfl rfl rfl (Or.inr (Or.inr ⟨rfl, hmc5, rfl, hd, hd⟩)), rfl⟩

theorem map_eq_ok {α β : Type} {f : α → β} {x : Except SvcBreak α} {b : β} (h : x.map f = .ok b) :
    ∃ a, x = .ok a ∧ f a = b := by
  cases x with
  | error e => cases h
  | ok a => exact ⟨a, rfl, Except.ok.inj h⟩

theorem map_eq_error {α β : Type} {f : α → β} {x : Except SvcBreak α} {e : SvcBreak} (h : x.map f = .error e) :
    x = .error e := by
  cases x with
  | error e' => exact congrArg Except.error (Except.error.inj h)
  | ok a => cases h

theorem good_init : pxiInit.Good ∧ pxiInit.Quiet := by
  refine ⟨⟨rfl, nofun, Or.inl rfl, nofun, nofun, nofun, nofun, nofun, nofun⟩, ?_⟩
  intro htwo
  exact absurd htwo (by decide)

end PxiState

instance (s : PxiState) : (input : PxiInput) → Decidable (s.Enabled input)
  | .receive _ _ => inferInstanceAs (Decidable True)
  | .accept _ => inferInstanceAs (Decidable True)
  | .sendAllEvent => inferInstanceAs (Decidable (s.sendAllBuffersToArm9Event = true))
  | .replyReady => inferInstanceAs (Decidable (0 < s.replySemaphore))
  | .closed i => inferInstanceAs (Decidable ((s.sessionData i).handle = true ∧ (s.sessionData i).state = .idle))
  | .command i _ _ => inferInstanceAs (Decidable ((s.sessionData i).handle = true ∧ (s.sessionData i).state = .idle))

end Omiiba.Pxi
