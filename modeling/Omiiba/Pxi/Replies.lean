/-
Every command that PXI takes is answered by the reply of arm9 to it, on its own session: what a step can do to one
session, and what the threads keep.
-/
import Omiiba.Pxi.Threads

namespace Omiiba.Pxi

/-! ## What a step does to a session -/

/-- A session as its client and arm9 see it. -/
structure Talk where
  state : SessionState
  buffer : Message
  handle : Bool
  withArm9 : Option Message
  accepted : List Message
  answered : List (Message × Message)
  replied : List Message

def PxiRun.talk (s : PxiRun) (i : Fin 9) : Talk where
  state := (s.sessionData i).state
  buffer := (s.sessionData i).buffer
  handle := (s.sessionData i).handle
  withArm9 := s.withArm9 i
  accepted := s.accepted i
  answered := s.answered i
  replied := s.replied i

/-- What can happen to a session. -/
inductive Talk.Step : Talk → Talk → Prop
  | same (t : Talk) : Step t t
  | command (t : Talk) (message : Message) : t.state = .idle → t.handle = true →
      Step t { t with state := .receivedFromArm11, buffer := message, accepted := message :: t.accepted }
  | send (t : Talk) : t.state = .receivedFromArm11 →
      Step t { t with state := .sentToArm9, withArm9 := some t.buffer }
  | receive (t : Talk) (reply : Message) : t.state = .sentToArm9 → sizeWords reply.header ≤ 64 →
      Step t { t with
        state := .receivedFromArm9
        buffer := reply
        withArm9 := none
        answered := t.withArm9.toList.map (·, reply) ++ t.answered }
  | reply (t : Talk) : t.state = .receivedFromArm9 →
      Step t { t with state := .idle, replied := if t.handle then t.buffer :: t.replied else t.replied }
  | close (t : Talk) : t.state = .idle → Step t { t with handle := false }
  | accept (t : Talk) : Step t { t with handle := true }

/-- The states follow each other. -/
def SessionState.next : SessionState → SessionState
  | .idle => .receivedFromArm11
  | .receivedFromArm11 => .sentToArm9
  | .sentToArm9 => .receivedFromArm9
  | .receivedFromArm9 => .idle

theorem Talk.Step.state {t t' : Talk} (h : t.Step t') : t'.state = t.state ∨ t'.state = t.state.next := by
  cases h with
  | same | close _ | accept => exact Or.inl rfl
  | command _ hstate | send hstate | receive _ hstate | reply hstate =>
    rw [hstate]
    exact Or.inr rfl

/-- The commands of a session are answered, but for the last one while it is on its way, and each reply of arm9 has been
given, but for the last one until it is handled. -/
def Talk.Ok (t : Talk) : Prop :=
  match t.state with
  | .idle => t.withArm9 = none ∧ t.accepted = t.answered.map (·.1) ∧ t.replied = t.answered.map (·.2)
  | .receivedFromArm11 => t.handle = true ∧ t.withArm9 = none ∧ t.accepted = t.buffer :: t.answered.map (·.1) ∧
      t.replied = t.answered.map (·.2)
  | .sentToArm9 => t.handle = true ∧ ∃ command, t.withArm9 = some command ∧ t.accepted = command :: t.answered.map (·.1) ∧
      t.replied = t.answered.map (·.2)
  | .receivedFromArm9 => t.handle = true ∧ t.withArm9 = none ∧ sizeWords t.buffer.header ≤ 64 ∧
      ∃ command rest, t.answered = (command, t.buffer) :: rest ∧ t.accepted = t.answered.map (·.1) ∧
        t.replied = rest.map (·.2)

theorem Talk.Ok.step {t t' : Talk} (h : t.Ok) (hstep : t.Step t') : t'.Ok := by
  unfold Talk.Ok at h
  cases hstep with
  | same =>
    unfold Talk.Ok
    exact h
  | command message hstate hhandle =>
    rw [hstate] at h
    obtain ⟨hwith, haccepted, hreplied⟩ := h
    exact ⟨hhandle, hwith, congrArg (message :: ·) haccepted, hreplied⟩
  | send hstate =>
    rw [hstate] at h
    obtain ⟨hhandle, -, haccepted, hreplied⟩ := h
    exact ⟨hhandle, t.buffer, rfl, haccepted, hreplied⟩
  | receive reply hstate hsize =>
    rw [hstate] at h
    obtain ⟨hhandle, command, hwith, haccepted, hreplied⟩ := h
    refine ⟨hhandle, rfl, hsize, command, t.answered, ?_, ?_, hreplied⟩
    · simp [hwith]
    · simp [hwith, haccepted]
  | reply hstate =>
    rw [hstate] at h
    obtain ⟨hhandle, hwith, -, command, rest, hanswered, haccepted, hreplied⟩ := h
    refine ⟨hwith, haccepted, ?_⟩
    simp [hhandle, hreplied, hanswered]
  | close hstate =>
    rw [hstate] at h
    unfold Talk.Ok
    rw [hstate]
    exact h
  | accept =>
    unfold Talk.Ok
    split
    · rename_i hstate
      rw [hstate] at h
      exact h
    · rename_i hstate
      rw [hstate] at h
      exact ⟨rfl, h.2⟩
    · rename_i hstate
      rw [hstate] at h
      exact ⟨rfl, h.2⟩
    · rename_i hstate
      rw [hstate] at h
      exact ⟨rfl, h.2⟩

namespace PxiRun

variable {s s' : PxiRun} {i j : Fin 9}

/-- One session may make a step, and the others are as they were. -/
structure Moves (s s' : PxiRun) (i : Fin 9) : Prop where
  step : (s.talk i).Step (s'.talk i)
  off : ∀ j, j ≠ i → s'.talk j = s.talk j

theorem Moves.any (h : Moves s s' i) (j : Fin 9) : (s.talk j).Step (s'.talk j) := by
  by_cases hj : j = i
  · rw [hj]
    exact h.step
  · rw [h.off j hj]
    exact .same _

theorem Moves.ok (h : Moves s s' i) (hok : ∀ j, (s.talk j).Ok) (j : Fin 9) : (s'.talk j).Ok := (hok j).step (h.any j)

theorem Moves.of_eq (i : Fin 9) (h : ∀ j, s'.talk j = s.talk j) : Moves s s' i := by
  refine ⟨?_, fun j _ => h j⟩
  rw [h i]
  exact .same _

@[simp] theorem talk_turn (s : PxiRun) (j : Fin 9) : s.turn.talk j = s.talk j := by
  unfold turn
  split <;> rfl

theorem talk_setSession (s : PxiRun) (i j : Fin 9) (session : Session) :
    (s.setSession i session).talk j =
      if j = i then { s.talk i with state := session.state, buffer := session.buffer, handle := session.handle }
      else s.talk j := by
  by_cases hj : j = i
  · subst hj
    simp [talk, setSession]
  · simp [talk, setSession, hj]

theorem moves_setSession {session : Session}
    (h : (s.talk i).Step { s.talk i with state := session.state, buffer := session.buffer, handle := session.handle }) :
    Moves s (s.setSession i session) i := by
  refine ⟨?_, fun j hj => ?_⟩
  · rw [talk_setSession, if_pos rfl]
    exact h
  · rw [talk_setSession, if_neg hj]

theorem moves_sendOne (s : PxiRun) (i : Fin 9) : Moves s (s.sendOne i) i := by
  unfold sendOne
  split
  · exact .of_eq i fun _ => rfl
  · rename_i hgo
    have hwaits : s.waits i = true := by
      cases hw : s.waits i with
      | true => rfl
      | false => simp [hw] at hgo
    have hstate : (s.talk i).state = .receivedFromArm11 := by
      unfold waits at hwaits
      rw [Bool.and_eq_true] at hwaits
      exact of_decide_eq_true hwaits.2
    refine ⟨?_, fun j hj => ?_⟩
    · have hsend := Talk.Step.send (s.talk i) hstate
      convert hsend using 1
      simp [talk, setSession]
    · simp [talk, setSession, hj]

theorem moves_closeSession (h : (s.sessionData i).state = .idle) : Moves s (s.closeSession i) i := by
  unfold closeSession
  have hclose : Moves s (s.setSession i { s.sessionData i with handle := false }) i := moves_setSession (.close (s.talk i) h)
  refine ⟨?_, fun j hj => ?_⟩
  · rw [talk_turn]
    exact hclose.step
  · rw [talk_turn]
    exact hclose.off j hj

theorem moves_acceptSession (h : s.acceptSession i = .ok s') : Moves s s' i := by
  unfold acceptSession at h
  split at h
  · cases h
  · obtain rfl := Except.ok.inj h
    have haccept : Moves s (s.setSession i { s.sessionData i with handle := true }) i := moves_setSession (.accept (s.talk i))
    exact ⟨haccept.step, haccept.off⟩

theorem moves_receiveFromArm9 {reply : Message} (h : s.receiveFromArm9 i reply = .ok s') : Moves s s' i := by
  unfold receiveFromArm9 at h
  split at h
  · cases h
  rename_i hstate
  split at h
  · cases h
  rename_i hsize
  obtain rfl := Except.ok.inj h
  refine ⟨?_, fun j hj => ?_⟩
  · have hreceive := Talk.Step.receive (s.talk i) reply (not_not.mp hstate) (UInt32.not_lt.mp hsize)
    convert hreceive using 1
    simp [talk, setSession]
  · simp [talk, setSession, hj]

theorem moves_giveReply (hstate : (s.sessionData i).state = .receivedFromArm9) : Moves s (s.giveReply i) i := by
  have hreply := Talk.Step.reply (s.talk i) hstate
  refine ⟨?_, fun j hj => ?_⟩
  · convert hreply using 1
    cases hhandle : (s.sessionData i).handle <;> simp [talk, giveReply, setSession, releaseUsed, hhandle]
  · unfold giveReply
    cases hhandle : (s.sessionData i).handle <;> simp [talk, setSession, releaseUsed, hhandle, hj]

theorem moves_arm9Reply (hstate : (s.sessionData i).state = .receivedFromArm9) (h : s.arm9Reply i = .ok s') :
    Moves s s' i := by
  unfold arm9Reply at h
  split at h
  · cases h
  split at h
  · cases h
  obtain rfl := Except.ok.inj h
  have hgive : Moves s.passReply (s.passReply.giveReply i) i := moves_giveReply hstate
  refine ⟨?_, fun j hj => ?_⟩
  · rw [talk_turn]
    exact hgive.step
  · rw [talk_turn]
    exact hgive.off j hj

/-- The gate changes nothing else. -/
theorem passCommand_eq {header arg : UInt32} (h : s.passCommand i header arg = .ok s') :
    s' = { s with latestMC5Val := s'.latestMC5Val, sendingDisabled := s'.sendingDisabled, inWindow := s'.inWindow } := by
  unfold passCommand at h
  split at h
  · obtain rfl := Except.ok.inj h
    rfl
  split at h
  · split at h
    · cases h
    · obtain rfl := Except.ok.inj h
      rfl
  · split at h
    · cases h
    · obtain rfl := Except.ok.inj h
      rfl

theorem moves_takeCommand {message : Message} (hstate : (s.sessionData i).state = .idle)
    (hhandle : (s.sessionData i).handle = true) : Moves s (s.takeCommand i i message) i := by
  have hcommand := Talk.Step.command (s.talk i) message hstate hhandle
  refine ⟨?_, fun j hj => ?_⟩
  · convert hcommand using 1
    simp [talk, takeCommand, setSession, releaseProvided, acquireStaticBuffers]
  · simp [talk, takeCommand, setSession, releaseProvided, acquireStaticBuffers, hj]

theorem moves_arm11Command {message : Message} {arg : UInt32} (hhandle : (s.sessionData i).handle = true)
    (h : s.arm11Command i i message arg = .ok s') : Moves s s' i := by
  unfold arm11Command at h
  split at h
  · cases h
  rename_i hstate
  split at h
  · cases h
  rename_i s₁ hpass
  split at h
  · cases h
  obtain rfl := Except.ok.inj h
  have hsame := passCommand_eq hpass
  have htalk : ∀ j, s₁.talk j = s.talk j := by
    intro j
    rw [hsame]
    rfl
  have htake : Moves s₁ (s₁.takeCommand i i message) i := by
    refine moves_takeCommand ?_ ?_
    · rw [hsame]
      exact not_not.mp hstate
    · rw [hsame]
      exact hhandle
  refine ⟨?_, fun j hj => ?_⟩
  · rw [talk_turn, ← htalk]
    exact htake.step
  · rw [talk_turn, ← htalk]
    exact htake.off j hj

/-! ## What the threads keep -/

/-- The sessions with a reply that has not been handled. -/
def repliedCount (s : PxiRun) : Nat :=
  (Finset.univ.filter fun i => decide ((s.sessionData i).state = .receivedFromArm9) = true).card

/-- A token that the receiver has not released yet, and one that the sender has taken and not found the reply for. -/
def tokensInHand (s : PxiRun) : Nat :=
  s.receiver.toList.length + match s.sender with
    | .scanning _ => 1
    | _ => 0

/-- Every session's talk is right; the sessions waited for are idle, and are found by their index; the tokens are as many
as the replies. -/
structure Good (s : PxiRun) : Prop where
  talks : ∀ i, (s.talk i).Ok
  listed : s.sender = .waiting → ∀ (index : Nat) i, s.handles[index]? = some i →
    s.posToServiceId[index]? = some i ∧ (s.sessionData i).state = .idle ∧ (s.sessionData i).handle = true
  target : ∀ i, s.replyTarget = some i → (s.sessionData i).state = .idle
  tokens : s.repliedCount = s.replySemaphore + s.tokensInHand
  found : ∀ sessions, s.sender = .scanning sessions → ∃ i ∈ sessions, (s.sessionData i).state = .receivedFromArm9

theorem repliedCount_off (hoff : ∀ j, j ≠ i → s'.talk j = s.talk j) :
    s'.repliedCount + (decide ((s.sessionData i).state = .receivedFromArm9)).toNat =
      s.repliedCount + (decide ((s'.sessionData i).state = .receivedFromArm9)).toNat := by
  apply card_filter_off i
  intro j hj
  have hstate : (s'.sessionData j).state = (s.sessionData j).state := congrArg Talk.state (hoff j hj)
  rw [hstate]

theorem repliedCount_congr (h : ∀ j, s'.talk j = s.talk j) : s'.repliedCount = s.repliedCount := by
  unfold repliedCount
  congr 1
  apply Finset.filter_congr
  intro j _
  have hstate : (s'.sessionData j).state = (s.sessionData j).state := congrArg Talk.state (h j)
  rw [hstate]

theorem exists_replied (h : 0 < s.repliedCount) : ∃ i, (s.sessionData i).state = .receivedFromArm9 := by
  obtain ⟨i, hi⟩ := Finset.card_pos.mp h
  exact ⟨i, of_decide_eq_true (Finset.mem_filter.mp hi).2⟩

/-- What is waited for when the lists have been made anew. -/
theorem good_wait (htalks : ∀ i, (s.talk i).Ok) (htokens : s.repliedCount = s.replySemaphore + s.receiver.toList.length)
    (htarget : ∀ i, s.replyTarget = some i → (s.sessionData i).state = .idle) : Good s.wait := by
  refine ⟨htalks, fun _ index i hindex => ?_, htarget, htokens, nofun⟩
  have hmem := List.mem_of_getElem? hindex
  have hlt := (List.getElem?_eq_some_iff.mp hindex).1
  simp only [wait, List.mem_filter, Bool.and_eq_true, decide_eq_true_eq] at hmem
  refine ⟨?_, hmem.2.2, hmem.2.1⟩
  simp only [wait] at hlt hindex ⊢
  rw [List.getElem?_append_left hlt]
  exact hindex

theorem good_turn (htalks : ∀ i, (s.talk i).Ok) (htokens : s.repliedCount = s.replySemaphore + s.receiver.toList.length)
    (htarget : ∀ i, s.replyTarget = some i → (s.sessionData i).state = .idle) : Good s.turn := by
  unfold turn
  split
  · exact ⟨htalks, nofun, htarget, htokens, nofun⟩
  · exact good_wait htalks htokens htarget

theorem sent_of_withArm9 (h : (s.talk i).Ok) (hwith : s.withArm9 i ≠ none) : (s.sessionData i).state = .sentToArm9 := by
  unfold Talk.Ok at h
  split at h
  · exact absurd h.1 hwith
  · exact absurd h.2.1 hwith
  · rename_i hstate
    exact hstate
  · exact absurd h.2.1 hwith

theorem handle_of_not_idle (h : (s.talk i).Ok) (hstate : (s.sessionData i).state ≠ .idle) :
    (s.sessionData i).handle = true := by
  unfold Talk.Ok at h
  split at h
  · rename_i hidle
    exact absurd hidle hstate
  · exact h.1
  · exact h.1
  · exact h.1

theorem sendOne_cases (s : PxiRun) (i : Fin 9) :
    (s.waits i = false ∨ s.blocked = true) ∧ s.sendOne i = s ∨ s.waits i = true ∧ s.blocked = false ∧ s.sendOne i =
      { s.setSession i { s.sessionData i with state := .sentToArm9 } with
        pendingArm9Commands := if s.sendingDisabled then s.pendingArm9Commands else s.pendingArm9Commands + 1
        withArm9 := Function.update s.withArm9 i (some (s.sessionData i).buffer) } := by
  unfold sendOne
  split
  · rename_i hstay
    simp only [Bool.or_eq_true, Bool.not_eq_true'] at hstay
    exact Or.inl ⟨hstay, rfl⟩
  · rename_i hgo
    simp only [Bool.or_eq_true, Bool.not_eq_true', not_or, Bool.not_eq_true, Bool.not_eq_false] at hgo
    exact Or.inr ⟨hgo.1, hgo.2, rfl⟩

theorem waits_iff : s.waits i = true ↔ (s.sessionData i).handle = true ∧ (s.sessionData i).state = .receivedFromArm11 := by
  unfold waits
  rw [Bool.and_eq_true, decide_eq_true_iff]

/-- Idle sessions stay idle while another one moves. -/
theorem Moves.idle (h : Moves s s' i) (hbusy : (s.sessionData i).state ≠ .idle) (hidle : (s.sessionData j).state = .idle) :
    (s'.sessionData j).state = .idle := by
  have hj : j ≠ i := by
    rintro rfl
    exact hbusy hidle
  rw [← hidle]
  exact congrArg Talk.state (h.off j hj)

/-- The count after a step of a session that was replied before or is now. -/
theorem repliedCount_of_moves (hmoves : Moves s s' i) (hbefore : (s.sessionData i).state ≠ .receivedFromArm9)
    (hafter : (s'.sessionData i).state ≠ .receivedFromArm9) : s'.repliedCount = s.repliedCount := by
  have hoff := repliedCount_off hmoves.off
  rw [decide_eq_false hbefore, decide_eq_false hafter] at hoff
  exact hoff

theorem Good.sendOne (h : s.Good) {sessions : List (Fin 9)} (hsender : s.sender = .sending (i :: sessions)) :
    Good { s.sendOne i with sender := .sending sessions } := by
  have hmoves := s.moves_sendOne i
  have htokens := h.tokens
  simp only [tokensInHand, hsender] at htokens
  rcases s.sendOne_cases i with ⟨-, hsame⟩ | ⟨hwaits, -, hsent⟩
  · rw [hsame]
    exact ⟨h.talks, nofun, h.target, htokens, nofun⟩
  · have hbusy : (s.sessionData i).state ≠ .idle := by
      rw [(waits_iff.mp hwaits).2]
      exact SessionState.noConfusion
    have htarget : ∀ j, (s.sendOne i).replyTarget = some j → ((s.sendOne i).sessionData j).state = .idle := by
      intro j hj
      rw [hsent] at hj
      exact hmoves.idle hbusy (h.target j hj)
    refine ⟨hmoves.ok h.talks, nofun, htarget, ?_, nofun⟩
    have hcount : (s.sendOne i).repliedCount = s.repliedCount := by
      refine repliedCount_of_moves hmoves ?_ ?_
      · rw [(waits_iff.mp hwaits).2]
        exact SessionState.noConfusion
      · rw [hsent]
        simp [setSession]
    show (s.sendOne i).repliedCount = _
    rw [hcount, htokens, hsent]
    rfl

theorem Good.closeSession (h : s.Good) (hsender : s.sender = .waiting) (hidle : (s.sessionData i).state = .idle) :
    (s.closeSession i).Good := by
  have hclose : Moves s (s.setSession i { s.sessionData i with handle := false }) i := moves_setSession (.close (s.talk i) hidle)
  have htokens := h.tokens
  simp only [tokensInHand, hsender] at htokens
  unfold PxiRun.closeSession
  apply good_turn
  · exact hclose.ok h.talks
  · have hcount : (s.setSession i { s.sessionData i with handle := false }).repliedCount = s.repliedCount := by
      refine repliedCount_of_moves hclose ?_ ?_
      · rw [hidle]
        exact SessionState.noConfusion
      · simp [setSession, hidle]
    exact hcount.trans htokens
  · exact nofun

theorem Good.arm9Reply (h : s.Good) {sessions : List (Fin 9)} (hsender : s.sender = .scanning sessions)
    (hstate : (s.sessionData i).state = .receivedFromArm9) (hok : s.arm9Reply i = .ok s') : s'.Good := by
  have htokens := h.tokens
  simp only [tokensInHand, hsender] at htokens
  unfold PxiRun.arm9Reply at hok
  split at hok
  · cases hok
  split at hok
  · cases hok
  obtain rfl := Except.ok.inj hok
  have hgive : Moves s.passReply (s.passReply.giveReply i) i := moves_giveReply hstate
  have hidle : ((s.passReply.giveReply i).sessionData i).state = .idle := by
    simp [giveReply, setSession]
  apply good_turn
  · exact hgive.ok h.talks
  · have hoff := repliedCount_off hgive.off
    rw [hidle, show (s.passReply.sessionData i).state = .receivedFromArm9 from hstate] at hoff
    have hcount : s.passReply.repliedCount = s.repliedCount := rfl
    have hsemaphore : (s.passReply.giveReply i).replySemaphore = s.replySemaphore := rfl
    have hreceiver : (s.passReply.giveReply i).receiver = s.receiver := rfl
    simp only [hcount, decide_true, Bool.toNat_true] at hoff
    rw [hsemaphore, hreceiver]
    simp only [show decide (SessionState.idle = SessionState.receivedFromArm9) = false from rfl, Bool.toNat_false] at hoff
    omega
  · intro j hj
    have htarget : j = i := by
      simp only [giveReply] at hj
      split at hj
      · exact (Option.some.inj hj).symm
      · cases hj
    rw [htarget]
    exact hidle

theorem Good.arm11Command (h : s.Good) (hsender : s.sender = .waiting) {message : Message} {arg : UInt32}
    (hhandle : (s.sessionData i).handle = true) (hok : s.arm11Command i i message arg = .ok s') : s'.Good := by
  have htokens := h.tokens
  simp only [tokensInHand, hsender] at htokens
  have hmoves := moves_arm11Command hhandle hok
  unfold PxiRun.arm11Command at hok
  split at hok
  · cases hok
  rename_i hidle
  split at hok
  · cases hok
  rename_i s₁ hpass
  split at hok
  · cases hok
  obtain rfl := Except.ok.inj hok
  have hsame := passCommand_eq hpass
  have hok' := hmoves.ok h.talks
  have hcount := repliedCount_of_moves hmoves (by rw [not_not.mp hidle]; exact SessionState.noConfusion)
  simp only [talk_turn] at hok'
  have hturn : (s₁.takeCommand i i message).turn.repliedCount = (s₁.takeCommand i i message).repliedCount :=
    repliedCount_congr (talk_turn _)
  have hstate : ((s₁.takeCommand i i message).sessionData i).state = .receivedFromArm11 := by
    simp [takeCommand, setSession, releaseProvided, acquireStaticBuffers]
  apply good_turn
  · exact hok'
  · rw [← hturn, hcount ?_, htokens]
    · rw [hsame]
      rfl
    · have hturnstate : ((s₁.takeCommand i i message).turn.sessionData i).state = .receivedFromArm11 := by
        rw [← hstate]
        exact congrArg Talk.state (talk_turn _ i)
      rw [hturnstate]
      exact SessionState.noConfusion
  · exact nofun

theorem arm11Command_ne {client : Fin 9} {message : Message} {arg : UInt32} (hidle : (s.sessionData i).state = .idle) :
    s.arm11Command client i message arg ≠ .error .stateCheck := by
  intro herror
  unfold PxiRun.arm11Command at herror
  rw [if_neg (not_not.mpr hidle)] at herror
  split at herror
  · rename_i e hpass
    obtain rfl := Except.error.inj herror
    unfold passCommand at hpass
    split at hpass
    · cases hpass
    · split at hpass <;> split at hpass <;> cases hpass
  · split at herror <;> cases herror

/-- What the receiver leaves of the threads. -/
theorem receiveFromArm9_fields {reply : Message} (h : s.receiveFromArm9 i reply = .ok s') :
    (s'.sessionData i).state = .receivedFromArm9 ∧ s'.replySemaphore = s.replySemaphore ∧ s'.receiver = some i ∧
      s'.sender = s.sender ∧ s'.handles = s.handles ∧ s'.posToServiceId = s.posToServiceId ∧ s'.replyTarget = s.replyTarget := by
  unfold receiveFromArm9 at h
  split at h
  · cases h
  split at h
  · cases h
  obtain rfl := Except.ok.inj h
  refine ⟨?_, rfl, rfl, rfl, rfl, rfl, rfl⟩
  simp [setSession]

theorem Good.receive (h : s.Good) {reply : Message} (hreceiver : s.receiver = none) (hwith : s.withArm9 i ≠ none)
    (hok : s.receiveFromArm9 i reply = .ok s') : s'.Good := by
  have hmoves := moves_receiveFromArm9 hok
  have htokens := h.tokens
  have hsent := sent_of_withArm9 (h.talks i) hwith
  have hbusy : (s.sessionData i).state ≠ .idle := by
    rw [hsent]
    exact SessionState.noConfusion
  obtain ⟨hstate, hsemaphore, hwritten, hsender, hhandles, hpos, htarget⟩ := receiveFromArm9_fields hok
  have hother : ∀ {j}, (s.sessionData j).state ≠ .sentToArm9 → s'.talk j = s.talk j := by
    intro j hj
    refine hmoves.off j ?_
    rintro rfl
    exact hj hsent
  refine ⟨hmoves.ok h.talks, ?_, ?_, ?_, ?_⟩
  · intro hwaiting index j hj
    rw [hsender] at hwaiting
    rw [hhandles] at hj
    obtain ⟨hindex, hidle, hhandle⟩ := h.listed hwaiting index j hj
    have hsame : s'.talk j = s.talk j := by
      refine hother ?_
      rw [hidle]
      exact SessionState.noConfusion
    refine ⟨?_, (congrArg Talk.state hsame).trans hidle, (congrArg Talk.handle hsame).trans hhandle⟩
    rw [hpos]
    exact hindex
  · intro j hj
    rw [htarget] at hj
    exact hmoves.idle hbusy (h.target j hj)
  · have hoff := repliedCount_off hmoves.off
    rw [hstate, hsent] at hoff
    simp only [decide_true, Bool.toNat_true, show decide (SessionState.sentToArm9 = SessionState.receivedFromArm9) = false from rfl,
      Bool.toNat_false] at hoff
    simp only [tokensInHand, hreceiver, Option.toList_none, List.length_nil] at htokens
    simp only [tokensInHand, hwritten, hsender, hsemaphore, Option.toList_some, List.length_singleton]
    omega
  · intro sessions hscan
    rw [hsender] at hscan
    obtain ⟨j, hj, hreplied⟩ := h.found sessions hscan
    have hsame : s'.talk j = s.talk j := by
      refine hother ?_
      rw [hreplied]
      exact SessionState.noConfusion
    exact ⟨j, hj, (congrArg Talk.state hsame).trans hreplied⟩

theorem Good.accept (h : s.Good) (hsender : s.sender = .waiting) (hok : s.acceptSession i = .ok s') : s'.Good := by
  have hmoves := moves_acceptSession hok
  have htokens := h.tokens
  unfold acceptSession at hok
  split at hok
  · cases hok
  obtain rfl := Except.ok.inj hok
  have hstate : ∀ j, ((s.setSession i { s.sessionData i with handle := true }).sessionData j).state = (s.sessionData j).state := by
    intro j
    by_cases hj : j = i
    · subst hj
      simp [setSession]
    · simp [setSession, hj]
  refine ⟨hmoves.ok h.talks, ?_, ?_, ?_, ?_⟩
  · intro _ index j hj
    obtain ⟨hindex, hidle, hhandle⟩ := h.listed hsender index j hj
    refine ⟨hindex, (hstate j).trans hidle, ?_⟩
    by_cases hji : j = i
    · subst hji
      simp [setSession]
    · exact (congrArg Talk.handle (hmoves.off j hji)).trans hhandle
  · exact fun j hj => (hstate j).trans (h.target j hj)
  · have hcount : (s.setSession i { s.sessionData i with handle := true }).repliedCount = s.repliedCount := by
      unfold repliedCount
      simp only [hstate]
    exact hcount.trans htokens
  · intro sessions hscan
    rw [show s.sender = .scanning sessions from hscan] at hsender
    cases hsender

/-- Whatever is possible runs into no check of a state, moves one session at most, and keeps what is good. -/
theorem Good.threadStep (h : s.Good) {input : ThreadInput} (henabled : s.Enabled input) :
    Pxi.threadStep s input ≠ .error .stateCheck ∧
      ∀ s', Pxi.threadStep s input = .ok s' → s'.Good ∧ ∃ i, Moves s s' i := by
  cases input with
  | send =>
    obtain ⟨sessions, hsender⟩ := henabled
    have htokens := h.tokens
    simp only [tokensInHand, hsender] at htokens
    unfold Pxi.threadStep
    rw [hsender]
    cases sessions with
    | nil =>
      refine ⟨nofun, fun s' hs' => ?_⟩
      obtain rfl := Except.ok.inj hs'
      exact ⟨good_wait h.talks htokens h.target, 0, .of_eq 0 fun _ => rfl⟩
    | cons i sessions =>
      refine ⟨nofun, fun s' hs' => ?_⟩
      obtain rfl := Except.ok.inj hs'
      exact ⟨h.sendOne hsender, i, (s.moves_sendOne i).step, (s.moves_sendOne i).off⟩
  | scan =>
    obtain ⟨sessions, hsender⟩ := henabled
    unfold Pxi.threadStep
    rw [hsender]
    obtain ⟨j, hj, hreplied⟩ := h.found sessions hsender
    cases sessions with
    | nil => cases hj
    | cons i sessions =>
      dsimp only
      split
      · rename_i hstate
        refine ⟨fun herror => ?_, fun s' hs' => ⟨h.arm9Reply hsender hstate hs', i, moves_arm9Reply hstate hs'⟩⟩
        unfold PxiRun.arm9Reply at herror
        split at herror
        · cases herror
        · split at herror <;> cases herror
      · rename_i hstate
        refine ⟨nofun, fun s' hs' => ?_⟩
        obtain rfl := Except.ok.inj hs'
        have htokens := h.tokens
        simp only [tokensInHand, hsender] at htokens
        refine ⟨⟨h.talks, nofun, h.target, htokens, ?_⟩, 0, .of_eq 0 fun _ => rfl⟩
        rintro _ ⟨⟩
        rcases List.mem_cons.mp hj with rfl | hrest
        · exact absurd hreplied hstate
        · exact ⟨j, hrest, hreplied⟩
  | event =>
    have htokens := h.tokens
    simp only [tokensInHand, henabled.1] at htokens
    refine ⟨nofun, fun s' hs' => ?_⟩
    obtain rfl := Except.ok.inj hs'
    refine ⟨good_turn h.talks htokens nofun, 0, .of_eq 0 fun j => ?_⟩
    rw [talk_turn]
    rfl
  | token =>
    have htokens := h.tokens
    simp only [tokensInHand, henabled.1] at htokens
    have hpositive := henabled.2
    refine ⟨nofun, fun s' hs' => ?_⟩
    obtain rfl := Except.ok.inj hs'
    refine ⟨⟨h.talks, nofun, h.target, ?_, ?_⟩, 0, .of_eq 0 fun _ => rfl⟩
    · show s.repliedCount = s.replySemaphore - 1 + (s.receiver.toList.length + 1)
      omega
    · rintro _ ⟨⟩
      obtain ⟨i, hi⟩ := exists_replied (s := s) (by omega)
      exact ⟨i, List.mem_finRange i, hi⟩
  | replyFailed =>
    obtain ⟨hsender, htarget⟩ := henabled
    unfold Pxi.threadStep
    cases hi : s.replyTarget with
    | none => exact absurd hi htarget
    | some i =>
      refine ⟨nofun, fun s' hs' => ?_⟩
      obtain rfl := Except.ok.inj hs'
      have hidle := h.target i hi
      exact ⟨h.closeSession hsender hidle, i, moves_closeSession hidle⟩
  | closed index =>
    obtain ⟨hsender, hlt⟩ := henabled
    have hhandle : s.handles[index]? = some s.handles[index] := List.getElem?_eq_getElem hlt
    obtain ⟨hindex, hidle, -⟩ := h.listed hsender index _ hhandle
    unfold Pxi.threadStep
    dsimp only
    rw [hindex]
    refine ⟨nofun, fun s' hs' => ?_⟩
    obtain rfl := Except.ok.inj hs'
    exact ⟨h.closeSession hsender hidle, _, moves_closeSession hidle⟩
  | command index message arg =>
    obtain ⟨hsender, hlt⟩ := henabled
    have hclient : s.handles[index]? = some s.handles[index] := List.getElem?_eq_getElem hlt
    obtain ⟨hindex, hidle, hhandle⟩ := h.listed hsender index _ hclient
    unfold Pxi.threadStep
    dsimp only
    rw [hindex, hclient]
    exact ⟨arm11Command_ne hidle, fun s' hs' => ⟨h.arm11Command hsender hhandle hs', _, moves_arm11Command hhandle hs'⟩⟩
  | accept i =>
    refine ⟨fun herror => ?_, fun s' hs' => ⟨h.accept henabled hs', i, moves_acceptSession hs'⟩⟩
    unfold Pxi.threadStep acceptSession at herror
    dsimp only at herror
    split at herror <;> cases herror
  | receive i reply =>
    obtain ⟨hreceiver, hwith⟩ := henabled
    have hsent := sent_of_withArm9 (h.talks i) hwith
    refine ⟨fun herror => ?_, fun s' hs' => ⟨h.receive hreceiver hwith hs', i, moves_receiveFromArm9 hs'⟩⟩
    unfold Pxi.threadStep receiveFromArm9 at herror
    dsimp only at herror
    rw [if_neg (not_not.mpr hsent)] at herror
    split at herror <;> cases herror
  | release =>
    have htokens := h.tokens
    obtain ⟨i, hi⟩ := Option.ne_none_iff_exists'.mp henabled
    refine ⟨nofun, fun s' hs' => ?_⟩
    obtain rfl := Except.ok.inj hs'
    refine ⟨⟨h.talks, h.listed, h.target, ?_, h.found⟩, 0, .of_eq 0 fun _ => rfl⟩
    simp only [tokensInHand, hi, Option.toList_some, Option.toList_none, List.length_singleton, List.length_nil] at htokens ⊢
    show s.repliedCount = s.replySemaphore + 1 + _
    omega

theorem Good.rest (h : s.Good) (hsemaphore : s.replySemaphore = 0) (hsender : s.sender = .waiting) (hreceiver : s.receiver = none)
    (hwith : s.withArm9 i = none) : (s.sessionData i).state = .idle ∨ (s.sessionData i).state = .receivedFromArm11 := by
  cases hstate : (s.sessionData i).state with
  | idle => exact Or.inl rfl
  | receivedFromArm11 => exact Or.inr rfl
  | sentToArm9 =>
    have hok := h.talks i
    unfold Talk.Ok at hok
    rw [show (s.talk i).state = .sentToArm9 from hstate] at hok
    obtain ⟨-, command, hsome, -⟩ := hok
    rw [show s.withArm9 i = some command from hsome] at hwith
    cases hwith
  | receivedFromArm9 =>
    have htokens := h.tokens
    simp only [tokensInHand, hsender, hreceiver, hsemaphore, Option.toList_none, List.length_nil] at htokens
    unfold repliedCount at htokens
    rw [Finset.card_eq_zero] at htokens
    have hmem : i ∈ (∅ : Finset (Fin 9)) := by
      rw [← htokens]
      simp [hstate]
    exact absurd hmem (Finset.notMem_empty i)

end PxiRun

/-! ## The gate -/

namespace PxiRun

variable {s s' : PxiRun} {i j : Fin 9}

/-- Command 5 of pxi:mc is to be sent. -/
def MC5Waits (s : PxiRun) : Prop :=
  (s.sessionData 0).state = .receivedFromArm11 ∧ isMC5 0 (s.sessionData 0).buffer.header = true

/-- Commands 5 come when nothing is counted as pending, and no other command comes between the one that turns sending
on and its reply. -/
def Flows (s : PxiRun) : ThreadInput → Prop
  | .command index message _ => ∀ i, s.posToServiceId[index]? = some i →
      if isMC5 i message.header then s.pendingArm9Commands = 0 else s.sendingDisabled = true → s.inWindow = true
  | _ => True

/-- What the gate keeps if commands flow: outside of the window of command 5 nothing waits but what the sender is about
to send. -/
structure Gated (s : PxiRun) : Prop where
  window : s.inWindow = true → s.sendingDisabled = true
  closing : s.latestMC5Val = 2 → s.inWindow = false ∧ s.pendingArm9Commands = 0
  closed : s.inWindow = false → s.sendingDisabled = true → s.latestMC5Val = 2
  flowing : s.inWindow = false → ∀ i, (s.sessionData i).state = .receivedFromArm11 →
    ∃ sessions, s.sender = .sending sessions ∧ i ∈ sessions
  mc5 : s.MC5Waits → s.sendingDisabled = true ∧ s.pendingArm9Commands = 0 ∧ s.latestMC5Val ≠ 0 ∧
    ∃ sessions, s.sender = .sending sessions ∧ 0 ∈ sessions
  quiet : s.latestMC5Val = 2 → s.sendingDisabled = false → ∀ i, (s.sessionData i).state ≠ .receivedFromArm11

theorem Gated.not_blocked (h : s.Gated) (hwindow : s.inWindow = false) : s.blocked = false := by
  unfold blocked
  cases hdisabled : s.sendingDisabled with
  | false => rfl
  | true =>
    have hlatest := h.closed hwindow hdisabled
    simp [hlatest, (h.closing hlatest).2]

/-- While nothing is on its way to arm9, no command waits but in the window. -/
theorem Gated.none_waits (h : s.Gated) (hsender : ∀ sessions, s.sender ≠ .sending sessions) :
    (s.inWindow = false → ∀ i, (s.sessionData i).state ≠ .receivedFromArm11) ∧ ¬ s.MC5Waits := by
  constructor
  · intro hwindow i hstate
    obtain ⟨sessions, hsending, -⟩ := h.flowing hwindow i hstate
    exact hsender sessions hsending
  · intro hmc5
    obtain ⟨-, -, -, sessions, hsending, -⟩ := h.mc5 hmc5
    exact hsender sessions hsending

/-- Steps that leave the gate and the waiting commands alone, from where the sender does not send. -/
theorem Gated.of_eq (h : s.Gated) (hsender : ∀ sessions, s.sender ≠ .sending sessions)
    (hgate : s'.latestMC5Val = s.latestMC5Val ∧ s'.pendingArm9Commands = s.pendingArm9Commands ∧
      s'.sendingDisabled = s.sendingDisabled ∧ s'.inWindow = s.inWindow)
    (hwaits : ∀ i, (s'.sessionData i).state = .receivedFromArm11 →
      (s.sessionData i).state = .receivedFromArm11 ∧ (s'.sessionData i).buffer = (s.sessionData i).buffer) : s'.Gated := by
  obtain ⟨hlatest, hpending, hdisabled, hwindow⟩ := hgate
  obtain ⟨hnone, hnomc5⟩ := h.none_waits hsender
  refine ⟨?_, ?_, ?_, ?_, ?_, ?_⟩
  · rw [hwindow, hdisabled]
    exact h.window
  · rw [hlatest, hwindow, hpending]
    exact h.closing
  · rw [hlatest, hwindow, hdisabled]
    exact h.closed
  · rw [hwindow]
    exact fun hout i hstate => absurd (hwaits i hstate).1 (hnone hout i)
  · rintro ⟨hstate, hheader⟩
    obtain ⟨hold, hbuffer⟩ := hwaits 0 hstate
    rw [hbuffer] at hheader
    exact absurd ⟨hold, hheader⟩ hnomc5
  · rw [hlatest, hdisabled]
    exact fun htwo hon i hstate => h.quiet htwo hon i (hwaits i hstate).1

theorem turn_fields (s : PxiRun) : s.turn.latestMC5Val = s.latestMC5Val ∧ s.turn.pendingArm9Commands = s.pendingArm9Commands ∧
    s.turn.sendingDisabled = s.sendingDisabled ∧ s.turn.inWindow = s.inWindow ∧ s.turn.sessionData = s.sessionData := by
  unfold turn
  split <;> exact ⟨rfl, rfl, rfl, rfl, rfl⟩

theorem Gated.sendOne (h : s.Gated) (hgood : s.Good) {sessions : List (Fin 9)} (hsender : s.sender = .sending (i :: sessions)) :
    Gated { s.sendOne i with sender := .sending sessions } := by
  have hrest : ∀ {j : Fin 9}, (∃ sessions, s.sender = .sending sessions ∧ j ∈ sessions) → j ≠ i →
      ∃ sessions', SenderPhase.sending sessions = .sending sessions' ∧ j ∈ sessions' := by
    rintro j ⟨sessions', hsending, hj⟩ hji
    rw [hsender] at hsending
    obtain rfl := SenderPhase.sending.inj hsending
    exact ⟨sessions, rfl, (List.mem_cons.mp hj).resolve_left hji⟩
  have hwaitsOf : (s.sessionData i).state = .receivedFromArm11 → s.waits i = true := by
    intro hstate
    refine waits_iff.mpr ⟨handle_of_not_idle (hgood.talks i) ?_, hstate⟩
    rw [hstate]
    exact SessionState.noConfusion
  rcases s.sendOne_cases i with ⟨hstay, hsame⟩ | ⟨hwaits, -, hsent⟩
  · rw [hsame]
    -- if the session waits all the same, the gate is closed
    have hclosed : (s.sessionData i).state = .receivedFromArm11 → s.blocked = true := by
      intro hstate
      rw [hwaitsOf hstate] at hstay
      exact hstay.resolve_left Bool.noConfusion
    refine ⟨h.window, h.closing, h.closed, fun hwindow j hj => ?_, fun hmc5 => ?_, h.quiet⟩
    · refine hrest (h.flowing hwindow j hj) ?_
      rintro rfl
      rw [h.not_blocked hwindow] at hclosed
      cases hclosed hj
    · obtain ⟨hdisabled, hpending, hlatest, hsending⟩ := h.mc5 hmc5
      refine ⟨hdisabled, hpending, hlatest, hrest hsending ?_⟩
      rintro rfl
      have hblocked := hclosed hmc5.1
      simp [blocked, hpending, hlatest] at hblocked
  · have hstate := (waits_iff.mp hwaits).2
    have hself : ((s.sendOne i).sessionData i).state = .sentToArm9 := by
      rw [hsent]
      simp [setSession]
    have hother : ∀ j, j ≠ i → (s.sendOne i).sessionData j = s.sessionData j := by
      intro j hj
      rw [hsent]
      simp [setSession, hj]
    have hold : ∀ j, ((s.sendOne i).sessionData j).state = .receivedFromArm11 → j ≠ i := by
      rintro j hj rfl
      rw [hself] at hj
      cases hj
    have hfields : (s.sendOne i).latestMC5Val = s.latestMC5Val ∧ (s.sendOne i).sendingDisabled = s.sendingDisabled ∧
        (s.sendOne i).inWindow = s.inWindow ∧
        (s.sendOne i).pendingArm9Commands = if s.sendingDisabled then s.pendingArm9Commands else s.pendingArm9Commands + 1 := by
      rw [hsent]
      exact ⟨rfl, rfl, rfl, rfl⟩
    obtain ⟨hlatest, hdisabled, hwindow, hpending⟩ := hfields
    refine ⟨?_, ?_, ?_, ?_, ?_, ?_⟩
    · show (s.sendOne i).inWindow = true → (s.sendOne i).sendingDisabled = true
      rw [hwindow, hdisabled]
      exact h.window
    · show (s.sendOne i).latestMC5Val = 2 → (s.sendOne i).inWindow = false ∧ (s.sendOne i).pendingArm9Commands = 0
      rw [hlatest, hwindow, hpending]
      intro htwo
      obtain ⟨hout, hzero⟩ := h.closing htwo
      refine ⟨hout, ?_⟩
      cases hd : s.sendingDisabled with
      | true => exact hzero
      | false => exact absurd hstate (h.quiet htwo hd i)
    · show (s.sendOne i).inWindow = false → (s.sendOne i).sendingDisabled = true → (s.sendOne i).latestMC5Val = 2
      rw [hlatest, hwindow, hdisabled]
      exact h.closed
    · intro hout j hj
      have hji := hold j hj
      have hjstate : (s.sessionData j).state = .receivedFromArm11 := by
        rw [← hother j hji]
        exact hj
      exact hrest (h.flowing (hwindow ▸ hout) j hjstate) hji
    · rintro ⟨hzero, hheader⟩
      have h0 := hold 0 hzero
      have hmc5 : s.MC5Waits := by
        unfold MC5Waits
        rw [← hother 0 h0]
        exact ⟨hzero, hheader⟩
      obtain ⟨hd, hp, hl, hsending⟩ := h.mc5 hmc5
      refine ⟨hdisabled.trans hd, ?_, ?_, hrest hsending h0⟩
      · refine hpending.trans ?_
        rw [if_pos hd, hp]
      · show (s.sendOne i).latestMC5Val ≠ 0
        rw [hlatest]
        exact hl
    · show (s.sendOne i).latestMC5Val = 2 → (s.sendOne i).sendingDisabled = false → _
      rw [hlatest, hdisabled]
      exact fun htwo hon => absurd hstate (h.quiet htwo hon i)

theorem turn_gated (h : s.Gated) (hsender : ∀ sessions, s.sender ≠ .sending sessions) : s.turn.Gated := by
  obtain ⟨hlatest, hpending, hdisabled, hwindow, hdata⟩ := s.turn_fields
  refine h.of_eq hsender ⟨hlatest, hpending, hdisabled, hwindow⟩ fun i hstate => ?_
  rw [hdata] at hstate ⊢
  exact ⟨hstate, rfl⟩

theorem Gated.arm9Reply (h : s.Gated) {sessions : List (Fin 9)} (hsender : s.sender = .scanning sessions)
    (hok : s.arm9Reply i = .ok s') : s'.Gated := by
  have hscan : ∀ sessions', s.sender ≠ .sending sessions' := by
    intro sessions' hsending
    rw [hsender] at hsending
    cases hsending
  obtain ⟨hnone, hnomc5⟩ := h.none_waits hscan
  unfold PxiRun.arm9Reply at hok
  split at hok
  · cases hok
  split at hok
  · cases hok
  obtain rfl := Except.ok.inj hok
  have hstates : ∀ j, ((s.passReply.giveReply i).sessionData j).state = .receivedFromArm11 →
      (s.sessionData j).state = .receivedFromArm11 ∧
        ((s.passReply.giveReply i).sessionData j).buffer = (s.sessionData j).buffer := by
    intro j hj
    by_cases hji : j = i
    · subst hji
      simp [giveReply, setSession] at hj
    · have hsame : ((s.passReply.giveReply i).sessionData j) = s.sessionData j := by
        simp [giveReply, setSession, releaseUsed, hji, passReply]
      rw [hsame] at hj ⊢
      exact ⟨hj, rfl⟩
  refine turn_gated ⟨?_, ?_, ?_, ?_, ?_, ?_⟩ hscan
  · show s.inWindow = true → (if s.latestMC5Val = 2 then false else s.sendingDisabled) = true
    intro hin
    have hlatest : s.latestMC5Val ≠ 2 := by
      intro htwo
      rw [(h.closing htwo).1] at hin
      cases hin
    rw [if_neg hlatest]
    exact h.window hin
  · show s.latestMC5Val = 2 → s.inWindow = false ∧
      (if s.latestMC5Val = 0 then s.pendingArm9Commands - 1 else s.pendingArm9Commands) = 0
    intro htwo
    rw [htwo, if_neg (by decide)]
    exact h.closing htwo
  · show s.inWindow = false → (if s.latestMC5Val = 2 then false else s.sendingDisabled) = true → s.latestMC5Val = 2
    intro hout hdisabled
    by_contra hlatest
    rw [if_neg hlatest] at hdisabled
    exact hlatest (h.closed hout hdisabled)
  · exact fun hout j hj => absurd (hstates j hj).1 (hnone hout j)
  · rintro ⟨hstate, hheader⟩
    obtain ⟨hold, hbuffer⟩ := hstates 0 hstate
    rw [hbuffer] at hheader
    exact absurd ⟨hold, hheader⟩ hnomc5
  · exact fun htwo _ j hj => hnone (h.closing htwo).1 j (hstates j hj).1

theorem Gated.arm11Command (h : s.Gated) (hsender : s.sender = .waiting) {message : Message} {arg : UInt32}
    (hflows : if isMC5 i message.header then s.pendingArm9Commands = 0 else s.sendingDisabled = true → s.inWindow = true)
    (hok : s.arm11Command i i message arg = .ok s') : s'.Gated := by
  have hwaiting : ∀ sessions, s.sender ≠ .sending sessions := by
    intro sessions hsending
    rw [hsender] at hsending
    cases hsending
  obtain ⟨hnone, hnomc5⟩ := h.none_waits hwaiting
  unfold PxiRun.arm11Command at hok
  split at hok
  · cases hok
  split at hok
  · cases hok
  rename_i s₁ hpass
  split at hok
  · cases hok
  obtain rfl := Except.ok.inj hok
  have hturn : (s₁.takeCommand i i message).turn =
      { s₁.takeCommand i i message with sender := .sending (List.finRange 9) } := by
    have hnotarget : (s₁.takeCommand i i message).replyTarget = none := rfl
    unfold turn
    rw [if_pos hnotarget]
  have hself : ((s₁.takeCommand i i message).sessionData i).buffer = message := by
    simp [takeCommand, setSession, releaseProvided, acquireStaticBuffers]
  have hother : ∀ j, j ≠ i → (s₁.takeCommand i i message).sessionData j = s.sessionData j := by
    intro j hj
    have hsame := passCommand_eq hpass
    rw [hsame]
    simp [takeCommand, setSession, releaseProvided, acquireStaticBuffers, hj]
  have hall : ∀ j, ∃ sessions, SenderPhase.sending (List.finRange 9) = .sending sessions ∧ j ∈ sessions :=
    fun j => ⟨_, rfl, List.mem_finRange j⟩
  have hfirst : ∀ j, j ≠ i → ¬ (((s₁.takeCommand i i message).sessionData j).state = .receivedFromArm11 ∧ j = 0 ∧
      isMC5 0 ((s₁.takeCommand i i message).sessionData 0).buffer.header = true) := by
    rintro j hj ⟨hstate, rfl, hheader⟩
    rw [hother 0 hj] at hstate hheader
    exact hnomc5 ⟨hstate, hheader⟩
  rw [hturn]
  unfold passCommand at hpass
  split at hpass
  · -- another command
    rename_i hmc5
    rw [Bool.not_eq_true'] at hmc5
    rw [hmc5, if_neg Bool.false_ne_true] at hflows
    obtain rfl := Except.ok.inj hpass
    refine ⟨h.window, ?_, ?_, fun _ j _ => hall j, ?_, ?_⟩
    · intro htwo
      exact absurd (show (0 : UInt32) = 2 from htwo) (by decide)
    · intro hout hdisabled
      have hin := hflows hdisabled
      rw [show s.inWindow = false from hout] at hin
      cases hin
    · rintro ⟨hstate, hheader⟩
      by_cases hi : 0 = i
      · subst hi
        have hbuffer : isMC5 0 message.header = true := by
          rw [← hself]
          exact hheader
        rw [hmc5] at hbuffer
        cases hbuffer
      · exact absurd ⟨hstate, rfl, hheader⟩ (hfirst 0 hi)
    · intro htwo
      exact absurd (show (0 : UInt32) = 2 from htwo) (by decide)
  · rename_i hmc5
    rw [Bool.not_eq_true', Bool.not_eq_false] at hmc5
    rw [if_pos hmc5] at hflows
    split at hpass
    · split at hpass
      · cases hpass
      obtain rfl := Except.ok.inj hpass
      refine ⟨fun _ => rfl, ?_, nofun, fun _ j _ => hall j, fun _ => ⟨rfl, hflows, ?_, hall 0⟩, ?_⟩
      · intro htwo
        exact absurd (show (1 : UInt32) = 2 from htwo) (by decide)
      · show (1 : UInt32) ≠ 0
        decide
      · intro htwo
        exact absurd (show (1 : UInt32) = 2 from htwo) (by decide)
    · split at hpass
      · cases hpass
      rename_i hdisabled
      rw [Bool.not_eq_true', Bool.not_eq_false] at hdisabled
      obtain rfl := Except.ok.inj hpass
      refine ⟨nofun, fun _ => ⟨rfl, hflows⟩, fun _ _ => rfl, fun _ j _ => hall j, fun _ => ⟨hdisabled, hflows, ?_, hall 0⟩, ?_⟩
      · show (2 : UInt32) ≠ 0
        decide
      · intro _ hon
        rw [show s.sendingDisabled = false from hon] at hdisabled
        cases hdisabled

/-- A command flows: the gate is kept. -/
theorem Gated.threadStep (h : s.Gated) (hgood : s.Good) {input : ThreadInput} (henabled : s.Enabled input)
    (hflows : s.Flows input) (hok : Pxi.threadStep s input = .ok s') : s'.Gated := by
  have hwaiting : s.sender = .waiting → ∀ sessions, s.sender ≠ .sending sessions := by
    intro hsender sessions hsending
    rw [hsender] at hsending
    cases hsending
  have hclose : ∀ i, (s.sessionData i).state = .idle → s.sender = .waiting → (s.closeSession i).Gated := by
    intro i hidle hsender
    refine turn_gated (h.of_eq (hwaiting hsender) ⟨rfl, rfl, rfl, rfl⟩ fun j hj => ?_) (hwaiting hsender)
    by_cases hji : j = i
    · subst hji
      simp [setSession, hidle] at hj
    · simp only [setSession, Function.update_of_ne hji] at hj ⊢
      exact ⟨hj, trivial⟩
  cases input with
  | send =>
    obtain ⟨sessions, hsender⟩ := henabled
    unfold Pxi.threadStep at hok
    dsimp only at hok
    rw [hsender] at hok
    cases sessions with
    | nil =>
      obtain rfl := Except.ok.inj hok
      have hempty : ∀ {i : Fin 9}, ¬ ∃ sessions, s.sender = .sending sessions ∧ i ∈ sessions := by
        rintro i ⟨sessions, hsending, hi⟩
        rw [hsender] at hsending
        obtain rfl := SenderPhase.sending.inj hsending
        cases hi
      refine ⟨h.window, h.closing, h.closed, ?_, ?_, h.quiet⟩
      · exact fun hout i hi => absurd (h.flowing hout i hi) hempty
      · exact fun hmc5 => absurd (h.mc5 hmc5).2.2.2 hempty
    | cons i sessions =>
      obtain rfl := Except.ok.inj hok
      exact h.sendOne hgood hsender
  | scan =>
    obtain ⟨sessions, hsender⟩ := henabled
    have hscan : ∀ sessions', s.sender ≠ .sending sessions' := by
      intro sessions' hsending
      rw [hsender] at hsending
      cases hsending
    unfold Pxi.threadStep at hok
    dsimp only at hok
    rw [hsender] at hok
    cases sessions with
    | nil => cases hok
    | cons i sessions =>
      dsimp only at hok
      split at hok
      · exact h.arm9Reply hsender hok
      · obtain rfl := Except.ok.inj hok
        exact h.of_eq hscan ⟨rfl, rfl, rfl, rfl⟩ fun _ hi => ⟨hi, rfl⟩
  | event =>
    obtain rfl := Except.ok.inj hok
    refine turn_gated (h.of_eq (hwaiting henabled.1) ⟨rfl, rfl, rfl, rfl⟩ fun _ hi => ⟨hi, rfl⟩) (hwaiting henabled.1)
  | token =>
    obtain rfl := Except.ok.inj hok
    exact h.of_eq (hwaiting henabled.1) ⟨rfl, rfl, rfl, rfl⟩ fun _ hi => ⟨hi, rfl⟩
  | replyFailed =>
    obtain ⟨hsender, htarget⟩ := henabled
    obtain ⟨i, hi⟩ := Option.ne_none_iff_exists'.mp htarget
    unfold Pxi.threadStep at hok
    dsimp only at hok
    rw [hi] at hok
    obtain rfl := Except.ok.inj hok
    exact hclose i (hgood.target i hi) hsender
  | closed index =>
    obtain ⟨hsender, hlt⟩ := henabled
    obtain ⟨hindex, hidle, -⟩ := hgood.listed hsender index _ (List.getElem?_eq_getElem hlt)
    unfold Pxi.threadStep at hok
    dsimp only at hok
    rw [hindex] at hok
    obtain rfl := Except.ok.inj hok
    exact hclose _ hidle hsender
  | command index message arg =>
    obtain ⟨hsender, hlt⟩ := henabled
    have hclient : s.handles[index]? = some s.handles[index] := List.getElem?_eq_getElem hlt
    obtain ⟨hindex, -, -⟩ := hgood.listed hsender index _ hclient
    unfold Pxi.threadStep at hok
    dsimp only at hok
    rw [hindex, hclient] at hok
    exact h.arm11Command hsender (hflows _ hindex) hok
  | accept i =>
    unfold Pxi.threadStep acceptSession at hok
    dsimp only at hok
    split at hok
    · cases hok
    obtain rfl := Except.ok.inj hok
    refine h.of_eq (hwaiting henabled) ⟨rfl, rfl, rfl, rfl⟩ fun j hj => ?_
    by_cases hji : j = i
    · subst hji
      simp only [setSession, Function.update_self] at hj ⊢
      exact ⟨hj, trivial⟩
    · simp only [setSession, Function.update_of_ne hji] at hj ⊢
      exact ⟨hj, trivial⟩
  | receive i reply =>
    have hmoves := moves_receiveFromArm9 hok
    obtain ⟨hstate, -, -, hsender, -⟩ := receiveFromArm9_fields hok
    have hgate : s'.latestMC5Val = s.latestMC5Val ∧ s'.pendingArm9Commands = s.pendingArm9Commands ∧
        s'.sendingDisabled = s.sendingDisabled ∧ s'.inWindow = s.inWindow := by
      unfold Pxi.threadStep receiveFromArm9 at hok
      dsimp only at hok
      split at hok
      · cases hok
      split at hok
      · cases hok
      obtain rfl := Except.ok.inj hok
      exact ⟨rfl, rfl, rfl, rfl⟩
    have hwaits : ∀ j, (s'.sessionData j).state = .receivedFromArm11 →
        (s.sessionData j).state = .receivedFromArm11 ∧ (s'.sessionData j).buffer = (s.sessionData j).buffer := by
      intro j hj
      have hji : j ≠ i := by
        rintro rfl
        rw [hstate] at hj
        cases hj
      have hsame := hmoves.off j hji
      exact ⟨(congrArg Talk.state hsame).symm.trans hj, congrArg Talk.buffer hsame⟩
    obtain ⟨hlatest, hpending, hdisabled, hwindow⟩ := hgate
    refine ⟨?_, ?_, ?_, ?_, ?_, ?_⟩
    · rw [hwindow, hdisabled]
      exact h.window
    · rw [hlatest, hwindow, hpending]
      exact h.closing
    · rw [hlatest, hwindow, hdisabled]
      exact h.closed
    · rw [hwindow, hsender]
      exact fun hout j hj => h.flowing hout j (hwaits j hj).1
    · rintro ⟨hzero, hheader⟩
      obtain ⟨hold, hbuffer⟩ := hwaits 0 hzero
      rw [hbuffer] at hheader
      rw [hdisabled, hpending, hlatest, hsender]
      exact h.mc5 ⟨hold, hheader⟩
    · rw [hlatest, hdisabled]
      exact fun htwo hon j hj => h.quiet htwo hon j (hwaits j hj).1
  | release =>
    obtain rfl := Except.ok.inj hok
    exact ⟨h.window, h.closing, h.closed, h.flowing, h.mc5, h.quiet⟩

/-! ## Coming to rest -/

/-- The steps to idle. -/
def stepsLeft : SessionState → Nat
  | .idle => 0
  | .receivedFromArm9 => 1
  | .sentToArm9 => 2
  | .receivedFromArm11 => 3

theorem stepsLeft_idle : stepsLeft .idle = 0 := rfl

theorem stepsLeft_receivedFromArm9 : stepsLeft .receivedFromArm9 = 1 := rfl

theorem stepsLeft_sentToArm9 : stepsLeft .sentToArm9 = 2 := rfl

theorem stepsLeft_receivedFromArm11 : stepsLeft .receivedFromArm11 = 3 := rfl

/-- Nothing goes on until a client does something. -/
structure Rest (s : PxiRun) : Prop where
  sender : s.sender = .waiting
  receiver : s.receiver = none
  semaphore : s.replySemaphore = 0
  event : s.sendAllBuffersToArm9Event = false
  arm9 : ∀ i, s.withArm9 i = none

/-- The sender's steps until it waits. -/
def phaseLeft (s : PxiRun) : Nat :=
  match s.sender with
  | .sending sessions => sessions.length + 1
  | .scanning sessions => sessions.length + 1
  | .waiting => 0

/-- What is left to do without clients. -/
def work (s : PxiRun) : Nat :=
  100 * ∑ i, stepsLeft (s.sessionData i).state + 40 * s.receiver.toList.length + 20 * s.replySemaphore +
    20 * s.sendAllBuffersToArm9Event.toNat + s.phaseLeft

theorem sum_stepsLeft (hoff : ∀ j, j ≠ i → s'.talk j = s.talk j) :
    ∑ j, stepsLeft (s'.sessionData j).state + stepsLeft (s.sessionData i).state =
      ∑ j, stepsLeft (s.sessionData j).state + stepsLeft (s'.sessionData i).state := by
  have hrest : ∑ j ∈ Finset.univ.erase i, stepsLeft (s'.sessionData j).state =
      ∑ j ∈ Finset.univ.erase i, stepsLeft (s.sessionData j).state := by
    apply Finset.sum_congr rfl
    intro j hj
    have hstate : (s'.sessionData j).state = (s.sessionData j).state :=
      congrArg Talk.state (hoff j (Finset.ne_of_mem_erase hj))
    rw [hstate]
  rw [← Finset.add_sum_erase _ _ (Finset.mem_univ i), hrest,
    ← Finset.add_sum_erase Finset.univ (fun j => stepsLeft (s.sessionData j).state) (Finset.mem_univ i)]
  omega

theorem phaseLeft_turn_le (s : PxiRun) : s.turn.phaseLeft ≤ 10 := by
  unfold turn
  split
  · simp [phaseLeft]
  · exact Nat.zero_le _

theorem turn_tokens (s : PxiRun) : s.turn.receiver = s.receiver ∧ s.turn.replySemaphore = s.replySemaphore ∧
    s.turn.sendAllBuffersToArm9Event = s.sendAllBuffersToArm9Event := by
  unfold turn
  split <;> exact ⟨rfl, rfl, rfl⟩

theorem work_turn_le (s : PxiRun) :
    s.turn.work ≤ 100 * ∑ i, stepsLeft (s.sessionData i).state + 40 * s.receiver.toList.length + 20 * s.replySemaphore +
      20 * s.sendAllBuffersToArm9Event.toNat + 10 := by
  have hphase := s.phaseLeft_turn_le
  obtain ⟨-, -, -, -, hdata⟩ := s.turn_fields
  obtain ⟨hreceiver, hsemaphore, hevent⟩ := s.turn_tokens
  unfold work
  rw [hdata, hreceiver, hsemaphore, hevent]
  omega

theorem arm9Reply_ok (h : s.Good) (hgated : s.Gated) (hstate : (s.sessionData i).state = .receivedFromArm9) :
    s.arm9Reply i = .ok (s.passReply.giveReply i).turn := by
  have hok := h.talks i
  unfold Talk.Ok at hok
  rw [show (s.talk i).state = .receivedFromArm9 from hstate] at hok
  unfold PxiRun.arm9Reply
  rw [if_neg, if_neg]
  · exact UInt32.not_lt.mpr hok.2.2.1
  · rintro ⟨htwo, hpending⟩
    exact hpending (hgated.closing htwo).2

end PxiRun

/-- The steps of the threads and of arm9. -/
def ThreadInput.internal : ThreadInput → Bool
  | .send | .scan | .event | .token | .receive _ _ | .release => true
  | _ => false

namespace PxiRun

variable {s s' : PxiRun} {i j : Fin 9}

theorem Good.work_lt (h : s.Good) {input : ThreadInput} (hinternal : input.internal = true) (henabled : s.Enabled input)
    (hok : Pxi.threadStep s input = .ok s') : s'.work < s.work := by
  cases input with
  | send =>
    obtain ⟨sessions, hsender⟩ := henabled
    unfold Pxi.threadStep at hok
    dsimp only at hok
    rw [hsender] at hok
    cases sessions with
    | nil =>
      obtain rfl := Except.ok.inj hok
      simp only [work, phaseLeft, hsender, wait]
      omega
    | cons i sessions =>
      obtain rfl := Except.ok.inj hok
      have hsum := sum_stepsLeft (s.moves_sendOne i).off
      rcases s.sendOne_cases i with ⟨-, hsame⟩ | ⟨hwaits, -, hsent⟩
      · rw [hsame]
        simp only [work, phaseLeft, hsender, List.length_cons]
        omega
      · have hafter : ((s.sendOne i).sessionData i).state = .sentToArm9 := by
          rw [hsent]
          simp [setSession]
        have hfields : (s.sendOne i).receiver = s.receiver ∧ (s.sendOne i).replySemaphore = s.replySemaphore ∧
            (s.sendOne i).sendAllBuffersToArm9Event = s.sendAllBuffersToArm9Event := by
          rw [hsent]
          exact ⟨rfl, rfl, rfl⟩
        rw [hafter, (waits_iff.mp hwaits).2, stepsLeft_sentToArm9, stepsLeft_receivedFromArm11] at hsum
        simp only [work, phaseLeft, hsender, hfields.1, hfields.2.1, hfields.2.2, List.length_cons]
        omega
  | scan =>
    obtain ⟨sessions, hsender⟩ := henabled
    unfold Pxi.threadStep at hok
    dsimp only at hok
    rw [hsender] at hok
    cases sessions with
    | nil => cases hok
    | cons i sessions =>
      dsimp only at hok
      split at hok
      · rename_i hstate
        unfold PxiRun.arm9Reply at hok
        split at hok
        · cases hok
        split at hok
        · cases hok
        obtain rfl := Except.ok.inj hok
        have hgive : Moves s.passReply (s.passReply.giveReply i) i := moves_giveReply hstate
        have hsum := sum_stepsLeft hgive.off
        have hidle : ((s.passReply.giveReply i).sessionData i).state = .idle := by
          simp [giveReply, setSession]
        rw [hidle, show (s.passReply.sessionData i).state = .receivedFromArm9 from hstate] at hsum
        have hpass : ∑ j, stepsLeft (s.passReply.sessionData j).state = ∑ j, stepsLeft (s.sessionData j).state := rfl
        rw [hpass, stepsLeft_idle, stepsLeft_receivedFromArm9] at hsum
        have hfields : (s.passReply.giveReply i).receiver = s.receiver ∧
            (s.passReply.giveReply i).replySemaphore = s.replySemaphore ∧
            (s.passReply.giveReply i).sendAllBuffersToArm9Event = s.sendAllBuffersToArm9Event := ⟨rfl, rfl, rfl⟩
        refine lt_of_le_of_lt (work_turn_le _) ?_
        rw [hfields.1, hfields.2.1, hfields.2.2]
        simp only [work, phaseLeft, hsender, List.length_cons]
        omega
      · obtain rfl := Except.ok.inj hok
        simp only [work, phaseLeft, hsender, List.length_cons]
        omega
  | event =>
    obtain ⟨hsender, hevent⟩ := henabled
    obtain rfl := Except.ok.inj hok
    have hle := work_turn_le { s with sendAllBuffersToArm9Event := false, replyTarget := none }
    simp only [Bool.toNat_false] at hle
    refine lt_of_le_of_lt hle ?_
    simp only [work, phaseLeft, hsender, hevent, Bool.toNat_true]
    omega
  | token =>
    obtain ⟨hsender, hpositive⟩ := henabled
    obtain rfl := Except.ok.inj hok
    simp only [work, phaseLeft, hsender, List.length_finRange]
    omega
  | receive i reply =>
    have hmoves := moves_receiveFromArm9 hok
    obtain ⟨hstate, hsemaphore, hwritten, hsender, -⟩ := receiveFromArm9_fields hok
    have hsent := sent_of_withArm9 (h.talks i) henabled.2
    have hsum := sum_stepsLeft hmoves.off
    rw [hstate, hsent, stepsLeft_receivedFromArm9, stepsLeft_sentToArm9] at hsum
    have hevent : s'.sendAllBuffersToArm9Event = s.sendAllBuffersToArm9Event := by
      unfold Pxi.threadStep receiveFromArm9 at hok
      dsimp only at hok
      split at hok
      · cases hok
      split at hok
      · cases hok
      obtain rfl := Except.ok.inj hok
      rfl
    simp only [work, phaseLeft, hsender, hwritten, hsemaphore, hevent, henabled.1, Option.toList_some, Option.toList_none,
      List.length_singleton, List.length_nil]
    omega
  | release =>
    obtain ⟨i, hi⟩ := Option.ne_none_iff_exists'.mp henabled
    obtain rfl := Except.ok.inj hok
    simp only [work, phaseLeft, hi, Option.toList_some, Option.toList_none, List.length_singleton, List.length_nil]
    omega
  | replyFailed | closed | command | accept => cases hinternal

/-- Something goes on until all is at rest. -/
theorem Good.progress (h : s.Good) (hgated : s.Gated) (hrest : ¬ s.Rest) :
    ∃ input s', input.internal = true ∧ s.Enabled input ∧ Pxi.threadStep s input = .ok s' := by
  cases hsender : s.sender with
  | sending sessions =>
    refine ⟨.send, ?_⟩
    unfold Pxi.threadStep
    dsimp only
    rw [hsender]
    cases sessions with
    | nil => exact ⟨_, rfl, ⟨_, hsender⟩, rfl⟩
    | cons i sessions => exact ⟨_, rfl, ⟨_, hsender⟩, rfl⟩
  | scanning sessions =>
    obtain ⟨j, hj, -⟩ := h.found sessions hsender
    refine ⟨.scan, ?_⟩
    unfold Pxi.threadStep
    dsimp only
    rw [hsender]
    cases sessions with
    | nil => cases hj
    | cons i sessions =>
      dsimp only
      split
      · rename_i hstate
        exact ⟨_, rfl, ⟨_, hsender⟩, arm9Reply_ok h hgated hstate⟩
      · exact ⟨_, rfl, ⟨_, hsender⟩, rfl⟩
  | waiting =>
    by_cases hreceiver : s.receiver = none
    swap
    · exact ⟨.release, _, rfl, hreceiver, rfl⟩
    by_cases hsemaphore : s.replySemaphore = 0
    swap
    · exact ⟨.token, _, rfl, ⟨hsender, Nat.pos_of_ne_zero hsemaphore⟩, rfl⟩
    cases hevent : s.sendAllBuffersToArm9Event with
    | true => exact ⟨.event, _, rfl, ⟨hsender, hevent⟩, rfl⟩
    | false =>
      have harm9 : ∃ i, s.withArm9 i ≠ none := by
        by_contra hnone
        push Not at hnone
        exact hrest ⟨hsender, hreceiver, hsemaphore, hevent, hnone⟩
      obtain ⟨i, hi⟩ := harm9
      have hok : ∃ s', s.receiveFromArm9 i .empty = .ok s' := by
        unfold receiveFromArm9
        rw [if_neg (not_not.mpr (sent_of_withArm9 (h.talks i) hi)), if_neg (by decide)]
        exact ⟨_, rfl⟩
      obtain ⟨s', hs'⟩ := hok
      exact ⟨.receive i .empty, s', rfl, ⟨hreceiver, hi⟩, hs'⟩

end PxiRun

/-! ## Replies -/

/-- Each command gets the reply of arm9 to it: what has been accepted and answered and given on a session is in step, its
states follow each other, and what is left comes to rest with every command answered, but for those held back between
the commands 5 of pxi:mc. -/
structure Answered (s : PxiRun) : Prop where
  talks : ∀ i, (s.talk i).Ok
  states : ∀ input s', s.Enabled input → threadStep s input = .ok s' → ∀ i,
    (s'.sessionData i).state = (s.sessionData i).state ∨ (s'.sessionData i).state = (s.sessionData i).state.next
  tokens : s.repliedCount = s.replySemaphore + s.tokensInHand
  checks : ∀ input, s.Enabled input → threadStep s input ≠ .error .stateCheck
  progress : ¬ s.Rest → ∃ input s', input.internal = true ∧ s.Enabled input ∧ threadStep s input = .ok s'
  work : ∀ input s', input.internal = true → s.Enabled input → threadStep s input = .ok s' → s'.work < s.work
  rest : s.Rest → ∀ i, (s.sessionData i).state ≠ .idle → s.inWindow = true ∧ ¬ s.MC5Waits ∧
    (s.sessionData i).state = .receivedFromArm11

theorem good_init : threadInit.Good := by
  refine ⟨fun i => ⟨rfl, rfl, rfl⟩, nofun, nofun, ?_, nofun⟩
  show PxiRun.repliedCount _ = 0
  unfold PxiRun.repliedCount
  rw [Finset.card_eq_zero]
  apply Finset.filter_eq_empty_iff.mpr
  intro i _
  exact Bool.noConfusion

theorem gated_init : threadInit.Gated := by
  refine ⟨nofun, fun htwo => absurd htwo (by decide), nofun, nofun, fun hmc5 => ?_, fun htwo => absurd htwo (by decide)⟩
  cases hmc5.1

/-- In every run in which commands flow, every command is answered. -/
theorem replies_routed (s : PxiRun) (h : (threadSystem.restrict PxiRun.Flows).Reachable s) : Answered s := by
  have hkeep : s.Good ∧ s.Gated := by
    refine System.Reachable.invariant (S := threadSystem.restrict PxiRun.Flows) (J := fun s => s.Good ∧ s.Gated) ?_
      (fun s input s' _ hs hstep => ?_) h
    · rintro s rfl
      exact ⟨good_init, gated_init⟩
    · obtain ⟨hflows, henabled, hok⟩ := hstep
      have hstep' : threadStep s input = .ok s' := System.eq_ok_of_toOption hok
      exact ⟨((hs.1.threadStep henabled).2 s' hstep').1, hs.2.threadStep hs.1 henabled hflows hstep'⟩
  obtain ⟨hgood, hgated⟩ := hkeep
  refine ⟨hgood.talks, fun input s' henabled hok i => ?_, hgood.tokens, fun input henabled => (hgood.threadStep henabled).1,
    hgood.progress hgated, fun input s' hinternal henabled hok => hgood.work_lt hinternal henabled hok, fun hrest i hbusy => ?_⟩
  · obtain ⟨-, j, hmoves⟩ := (hgood.threadStep henabled).2 s' hok
    exact (hmoves.any i).state
  · have hwaiting : ∀ sessions, s.sender ≠ .sending sessions := by
      intro sessions hsending
      rw [hrest.sender] at hsending
      cases hsending
    obtain ⟨hnone, hnomc5⟩ := hgated.none_waits hwaiting
    have hstate := (hgood.rest hrest.semaphore hrest.sender hrest.receiver (hrest.arm9 i)).resolve_left hbusy
    refine ⟨?_, hnomc5, hstate⟩
    by_contra hwindow
    exact hnone (Bool.not_eq_true _ ▸ hwindow) i hstate

/-! ## A command that is answered, and one that is not -/

instance (s : PxiRun) : (input : ThreadInput) → Decidable (s.Enabled input)
  | .send => decidable_of_iff ((match s.sender with | .sending _ => true | _ => false) = true) (by
      unfold PxiRun.Enabled
      cases s.sender <;> simp)
  | .scan => decidable_of_iff ((match s.sender with | .scanning _ => true | _ => false) = true) (by
      unfold PxiRun.Enabled
      cases s.sender <;> simp)
  | .event => (inferInstance : Decidable (s.sender = .waiting ∧ s.sendAllBuffersToArm9Event = true))
  | .token => (inferInstance : Decidable (s.sender = .waiting ∧ 0 < s.replySemaphore))
  | .replyFailed => (inferInstance : Decidable (s.sender = .waiting ∧ s.replyTarget ≠ none))
  | .closed index => (inferInstance : Decidable (s.sender = .waiting ∧ index < s.handles.length))
  | .command index _ _ => (inferInstance : Decidable (s.sender = .waiting ∧ index < s.handles.length))
  | .accept _ => (inferInstance : Decidable (s.sender = .waiting))
  | .receive i _ => (inferInstance : Decidable (s.receiver = none ∧ s.withArm9 i ≠ none))
  | .release => (inferInstance : Decidable (s.receiver ≠ none))

instance (s : PxiRun) : (input : ThreadInput) → Decidable (s.Flows input)
  | .command index message _ => inferInstanceAs (Decidable (∀ i, s.posToServiceId[index]? = some i →
      if isMC5 i message.header then s.pendingArm9Commands = 0 else s.sendingDisabled = true → s.inWindow = true))
  | .send | .scan | .event | .token | .replyFailed | .closed _ | .accept _ | .receive _ _ | .release =>
    inferInstanceAs (Decidable True)

/-- A command of PxiFS0, and what arm9 replies. -/
def fsCommand : Message := ⟨0x10040, [7], rfl⟩

def fsReply : Message := ⟨0x10080, [0, 5], rfl⟩

/-- The command that turns sending off. -/
def mc5Command : Message := ⟨0x50040, [1], rfl⟩

/-- The sender looks at all sessions and waits again. -/
def sendAllInputs : List ThreadInput := List.replicate 10 .send

/-- pxi:mc and PxiFS0 are connected. -/
def connectInputs : List ThreadInput := sendAllInputs ++ [.accept 0, .accept 1, .event] ++ sendAllInputs

/-- arm9 replies to PxiFS0, and the sender finds the reply. -/
def fsReplyInputs : List ThreadInput := [.receive 1 fsReply, .release, .token, .scan, .scan]

/-- A command of PxiFS0 gets its reply. -/
theorem fs_answered : ∃ s, Answered s ∧ s.accepted 1 = [fsCommand] ∧ s.replied 1 = [fsReply] := by
  have hrun : (System.guardedRun (fun s input => s.Flows input ∧ s.Enabled input) (fun s input => (threadStep s input).toOption)
      threadInit (connectInputs ++ [.command 1 fsCommand 7] ++ sendAllInputs ++ fsReplyInputs)).any
        (fun s => s.accepted 1 = [fsCommand] ∧ s.replied 1 = [fsReply]) = true := by decide +kernel
  obtain ⟨s, hs, hreplied⟩ := (Option.any_eq_true _ _).mp hrun
  have hinit : (threadSystem.restrict PxiRun.Flows).Reachable threadInit := .init rfl
  exact ⟨s, replies_routed s (hinit.restrict_guardedRun hs), of_decide_eq_true hreplied⟩

/-- Command 5 comes while a command of PxiFS0 is with arm9: once all is at rest it is still to be sent. -/
theorem mc5_unanswered : ∃ s, threadSystem.Reachable s ∧ s.Rest ∧ s.MC5Waits ∧ s.accepted 0 = [mc5Command] ∧ s.replied 0 = [] := by
  have hrun : (System.guardedRun PxiRun.Enabled (fun s input => (threadStep s input).toOption) threadInit
      (connectInputs ++ [.command 1 fsCommand 7] ++ sendAllInputs ++ [.command 0 mc5Command 1] ++ sendAllInputs ++
        fsReplyInputs)).any
        (fun s => (s.sender = .waiting ∧ s.receiver = none ∧ s.replySemaphore = 0 ∧ s.sendAllBuffersToArm9Event = false ∧
          ∀ i, s.withArm9 i = none) ∧ ((s.sessionData 0).state = .receivedFromArm11 ∧
            isMC5 0 (s.sessionData 0).buffer.header = true) ∧ s.accepted 0 = [mc5Command] ∧ s.replied 0 = []) = true := by
    decide +kernel
  obtain ⟨s, hs, hstuck⟩ := (Option.any_eq_true _ _).mp hrun
  obtain ⟨⟨hsender, hreceiver, hsemaphore, hevent, harm9⟩, hmc5, hlogs⟩ := of_decide_eq_true hstuck
  have hinit : threadSystem.Reachable threadInit := .init rfl
  exact ⟨s, hinit.guardedRun hs, ⟨hsender, hreceiver, hsemaphore, hevent, harm9⟩, hmc5, hlogs⟩

end Omiiba.Pxi
