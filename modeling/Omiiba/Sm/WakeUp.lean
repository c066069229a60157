/-
The wake-up semaphore of sm: it has a token for each session on the wake-up list, in every state
the loop reaches, so the loop never finds that list empty, and sessions are resumed in the order
they were woken.
-/
import Omiiba.Sm.Script

namespace Omiiba.Sm

/-! ## What stops a command -/

section

variable {g : Globals} {sys : Syscalls} {s : State} {a : Nat} {e : Panic}

theorem map_eq_error {α β : Type} {x : Except Panic α} {f : α → β} : x.map f = .error e ↔ x = .error e := by
  cases x <;> simp [Except.map]

theorem addService_error {info : ServiceInfo} {name : Nat → UInt8} (h : addService g s info name = .error e) :
    e = .semaphoreRelease := by
  unfold addService at h
  dsimp only at h
  split at h
  · split at h
    · cases h; rfl
    · cases h
  · cases h

theorem doRegister_error {pid : UInt32} {clientPort : Handle} {name : Nat → UInt8} {nameSize : Int} {isNamedPort : Bool}
    (h : doRegisterServiceOrPort g sys s pid clientPort name nameSize isNamedPort = .error e) : e = .semaphoreRelease := by
  unfold doRegisterServiceOrPort at h
  dsimp only at h
  split_ifs at h
  · split at h
    · next hadd => cases h; exact addService_error hadd
    · cases h
  · split at h
    · next hadd => cases h; exact addService_error hadd
    · cases h

theorem doPublishNotification_error {notificationId flags : UInt32}
    (h : doPublishNotification s a notificationId flags = .error e) : e = .semaphoreRelease := by
  unfold doPublishNotification at h
  dsimp only at h
  split_ifs at h
  split at h
  · cases h; rfl
  · cases h

theorem publishLoop_error {want : ProcessData → Bool} {notificationId flags : UInt32} {nodes : List Nat}
    (h : publishLoop want notificationId flags nodes s = .error e) : e = .semaphoreRelease := by
  induction nodes generalizing s with
  | nil => cases h
  | cons node nodes ih =>
    unfold publishLoop at h
    split at h
    · split at h
      · next hp => cases h; exact doPublishNotification_error hp
      · cases h
      · exact ih (map_eq_error.1 h)
    · exact ih h

/-- A registration of a process stops for want of room, or of a semaphore. -/
theorem doRegisterProcess_error {pid : UInt32} (h : doRegisterProcess sys s pid = .error e) :
    e = .emptyFreeList ∨ ∃ res, e = .result res := by
  unfold doRegisterProcess at h
  split at h
  · cases h; exact .inl rfl
  · dsimp only at h
    split at h
    · cases h; exact .inr ⟨_, rfl⟩
    · cases h

theorem registerProcess_error {pid size : UInt32} (h : registerProcess g sys s pid size = .error e) :
    e = .emptyFreeList ∨ ∃ res, e = .result res := by
  unfold registerProcess at h
  dsimp only at h
  by_cases hf : findProcessData s pid ≠ none
  · rw [if_pos hf] at h; cases h
  rw [if_neg hf] at h
  by_cases hsize : 8 * (if g.isPre93 then 32 else 34) < size - size % 8
  · rw [if_pos hsize] at h; cases h
  · rw [if_neg hsize] at h
    exact doRegisterProcess_error (map_eq_error.1 h)

theorem enableNotification_error {pid : UInt32} (h : enableNotification g sys s pid = .error e) :
    e = .emptyFreeList ∨ ∃ res, e = .result res := by
  unfold enableNotification at h
  dsimp only at h
  split at h
  · cases h
  · split at h
    · exact doRegisterProcess_error (map_eq_error.1 h)
    · cases h

theorem srvHandleCommands_error (h : srvHandleCommands g sys s a = .error e) : e ≠ .emptyWakeUpList := by
  unfold srvHandleCommands at h
  dsimp only at h
  split at h
  · split at h
    · cases h
    · cases h
  · rcases enableNotification_error (map_eq_error.1 h) with rfl | ⟨res, rfl⟩
    · nofun
    · nofun
  · rw [doRegister_error (map_eq_error.1 h)]; nofun
  · cases h
  · cases h
  · split_ifs at h
    · rw [doRegister_error (map_eq_error.1 h)]; nofun
    · cases h
  · cases h
  · cases h
  · cases h
  · cases h
  · cases h
  · rw [publishLoop_error (map_eq_error.1 (map_eq_error.1 h))]; nofun
  · rw [publishLoop_error (map_eq_error.1 (map_eq_error.1 h))]; nofun
  · cases h
  · cases h

theorem handleCommands_error (h : handleCommands g sys s a = .error e) : e ≠ .emptyWakeUpList := by
  unfold handleCommands at h
  split at h
  · unfold srvPmHandleCommands at h
    dsimp only at h
    split at h
    · exact srvHandleCommands_error h
    split at h
    · cases h
    split at h
    · split at h
      · have h := map_eq_error.1 h
        unfold publishToProcess at h
        dsimp only at h
        split at h
        · cases h
        · split at h
          · cases h
          · rw [doPublishNotification_error (map_eq_error.1 h)]; nofun
      · cases h
    · rw [publishLoop_error (map_eq_error.1 (map_eq_error.1 h))]; nofun
    · split at h
      · rcases registerProcess_error (map_eq_error.1 h) with rfl | ⟨res, rfl⟩
        · nofun
        · nofun
      · cases h
    · cases h
    · cases h
  · exact srvHandleCommands_error h

theorem serve_error (h : serve g sys s a = .error e) : e ≠ .emptyWakeUpList := by
  unfold serve at h
  split at h
  · next hh => cases h; exact handleCommands_error hh
  · split_ifs at h
    cases h; nofun

/-- Only the branch that takes a token stops for an empty list. -/
theorem iterate_emptyWakeUpList {i : Input} (h : iterate g s i = .error .emptyWakeUpList) :
    takesToken i = true ∧ s.sessionLists .toWakeUpAfterServiceOrPortRegister = [] := by
  unfold iterate at h
  dsimp only at h
  split at h
  · cases h
  · split at h
    · cases h
    split at h
    · cases h
    split at h
    · unfold sessionClosed at h
      split at h <;> cases h
    · cases h
  · next id message hr =>
    have hnew : ∀ b, newSession i.sys (received g s i) b ≠ .error .emptyWakeUpList := by
      intro b hb
      unfold newSession at hb
      dsimp only at hb
      split at hb
      · cases hb
      · split at hb <;> cases hb
    split at h
    · exact absurd h (hnew _)
    split at h
    · exact absurd h (hnew _)
    split at h
    · next hsel =>
      cases h
      unfold select at hsel
      split at hsel
      · next h0 =>
        subst h0
        have hw := map_eq_error.1 hsel
        unfold resumeWoken at hw
        split at hw
        · next hnil => exact ⟨takesToken_iff.2 ⟨message, hr⟩, List.head?_eq_none_iff.1 hnil⟩
        · cases hw
      · split at hsel
        · cases hsel
        · have hc := map_eq_error.1 hsel
          unfold command at hc
          split at hc <;> cases hc
    · cases h
    · exact absurd rfl (serve_error h)

/-! ## The tokens -/

/-- In every state the loop reaches the semaphore has a token for each session on the wake-up list,
that list is what was woken and not resumed yet, in this order, and the next iteration does not find
it empty. -/
theorem tokens_eq_wakeUps (h : (sm g).Reachable s) :
    s.kernel.count g.resumeGetServiceHandleOrPortRegisteredSemaphore =
        (s.sessionLists .toWakeUpAfterServiceOrPortRegister).length ∧
      s.history.woken = s.history.resumed ++ s.sessionLists .toWakeUpAfterServiceOrPortRegister ∧
      ∀ i, KernelOk g s i → iterate g s i ≠ .error .emptyWakeUpList := by
  have hinv := loopInv h
  refine ⟨hinv.tokens, hinv.woken, fun i hk he => ?_⟩
  obtain ⟨ht, hnil⟩ := iterate_emptyWakeUpList he
  obtain ⟨message, hr⟩ := takesToken_iff.1 ht
  have hpos := hk.token message hr
  rw [hinv.tokens, hnil] at hpos
  exact Nat.lt_irrefl 0 hpos

/-- A session asks for a service before another registers it. -/
def askThenRegister : List Event :=
  [connect 16, connect 17, request 4 [0x00050100, 0x00636261, 0, 3, 1],
    { request 3 [0x00030100, 0x00636261, 0, 3, 4] with port := some (32, 33) }]

theorem tokens_eq_wakeUps_abc : ∃ s, play globals (initSystem globals fun _ => 0) askThenRegister = some s ∧
    s.sessionLists .toWakeUpAfterServiceOrPortRegister = [0] ∧ s.kernel.count 1 = 1 ∧ s.history.woken = [0] ∧
    ∀ i, KernelOk globals s i → iterate globals s i ≠ .error .emptyWakeUpList := by
  have hrun : (play globals (initSystem globals fun _ => 0) askThenRegister).map
      (fun s => (s.sessionLists .toWakeUpAfterServiceOrPortRegister, s.history.resumed)) = some ([0], []) := by
    decide +kernel
  obtain ⟨s, hs, hv⟩ := Option.map_eq_some_iff.1 hrun
  obtain ⟨hlane, hresumed⟩ := Prod.mk.inj hv
  have hreach := play_reachable (P := fun _ _ => True) (fun _ _ _ => trivial) (.init (initSystem_initial _)) hs
  obtain ⟨htokens, hwoken, hnext⟩ := tokens_eq_wakeUps hreach.of_restrict
  refine ⟨s, hs, hlane, ?_, ?_, hnext⟩
  · rw [hlane] at htokens; exact htokens
  · rw [hlane, hresumed] at hwoken; exact hwoken

end

end Omiiba.Sm
