/-
Which commands of a session are commands on processes and their notifications: the loop takes the
steps of `processes`, and every other command leaves processes and their semaphores alone.
-/
import Omiiba.Sm.Loop
import Omiiba.Sm.NotificationQueue

namespace Omiiba.Sm

/-! ## Commands on processes -/

/-- A srv: command, as a command on processes. -/
def srvNotifOp (g : Globals) (sys : Syscalls) (s : State) (a : Nat) : Option NotifOp :=
  let cmdbuf := s.cmdbuf
  let pid := (s.sessionDataPool a).pid
  match (cmdbuf 0 >>> 16).toNat with
  | 2 => some (.enableNotification g sys pid)
  | 9 => some (.subscribe pid (cmdbuf 1))
  | 10 => some (.unsubscribe pid (cmdbuf 1))
  | 11 => some (.receiveNotification pid)
  | 12 => some (.publishToSubscriber (cmdbuf 1) (cmdbuf 2))
  | 13 => some (.publishAndGetSubscriber (cmdbuf 1) 0)
  | _ => none

/-- The command of a session, as a command on processes. -/
def notifOp (g : Globals) (sys : Syscalls) (s : State) (a : Nat) : Option NotifOp :=
  let cmdbuf := s.cmdbuf
  let mask := (cmdbuf 0 &&& 0x04000000) >>> 16
  if (s.sessionDataPool a).isSrvPm = false ∨ (g.isPre7x ∧ mask = 0) then srvNotifOp g sys s a
  else if !g.isPre7x ∧ mask ≠ 0 then none
  else
    match ((cmdbuf 0 >>> 16) &&& ~~~mask).toNat with
    | 1 =>
      if cmdbuf 0 = ipcMakeHeader (mask ||| 1) 1 2 ∧ cmdbuf 2 = ipcDescSharedHandles 1 then
        some (.publishToProcess sys (cmdbuf 3) (cmdbuf 1))
      else none
    | 2 => some (.publishToAll (cmdbuf 1))
    | 3 =>
      if cmdbuf 0 = ipcMakeHeader (mask ||| 3) 2 2 ∧
          cmdbuf 3 &&& 0x3C0F = ipcDescStaticBuffer 0x110 0 &&& 0x3C0F then
        some (.registerProcess g sys (cmdbuf 1) (cmdbuf 3 >>> 14))
      else none
    | 4 => some (.unregisterProcess (cmdbuf 1))
    | _ => none

/-- The outcome of a command that answers with what a step gives. -/
inductive RepliesTo : Except Panic (Result × State) → Except Panic State → Prop
  | ok (res : Result) (ws : List UInt32) (s : State) : RepliesTo (.ok (res, s.reply ws)) (.ok s)
  | error (e : Panic) : RepliesTo (.error e) (.error e)

namespace RepliesTo

theorem map {α : Type} (x : Except Panic α) {f : α → Result × State} {h : α → State}
    (hf : ∀ r, ∃ ws, (f r).2 = (h r).reply ws) : RepliesTo (x.map f) (x.map h) := by
  rcases x with e | r
  · exact .error e
  · obtain ⟨ws, hws⟩ := hf r
    have hpair : f r = ((f r).1, (h r).reply ws) := by rw [← hws]
    show RepliesTo (.ok (f r)) (.ok (h r))
    rw [hpair]
    exact .ok ..

variable {x : Except Panic (Result × State)} {y : Except Panic State}

theorem error_iff (h : RepliesTo x y) {e : Panic} : x = .error e ↔ y = .error e := by
  cases h with
  | ok => exact ⟨nofun, nofun⟩
  | error e' => exact ⟨fun he => congrArg _ (Except.error.inj he), fun he => congrArg _ (Except.error.inj he)⟩

theorem of_ok (h : RepliesTo x y) {res : Result} {s' : State} (hx : x = .ok (res, s')) :
    ∃ s1 ws, y = .ok s1 ∧ s' = s1.reply ws := by
  cases h with
  | ok res' ws s1 => cases hx; exact ⟨s1, ws, rfl, rfl⟩
  | error => cases hx

end RepliesTo

section

variable {g : Globals} {sys : Syscalls} {s s' : State} {a : Nat} {op : NotifOp}

theorem srvHandleCommands_notif (h : srvNotifOp g sys s a = some op) :
    RepliesTo (srvHandleCommands g sys s a) (notifStep s op) := by
  unfold srvNotifOp at h
  unfold srvHandleCommands
  dsimp only at h ⊢
  split at h
  all_goals
    next hcmd =>
      cases h <;>
      · rw [hcmd]
        first
        | exact .ok ..
        | exact .map _ fun _ => ⟨_, rfl⟩

/-- The loop takes a step of `processes` for each command on processes. -/
theorem handleCommands_notif (h : notifOp g sys s a = some op) :
    RepliesTo (handleCommands g sys s a) (notifStep s op) := by
  unfold notifOp at h
  unfold handleCommands
  dsimp only at h
  by_cases hpm : (s.sessionDataPool a).isSrvPm = false
  · rw [if_pos (.inl hpm)] at h
    rw [hpm]
    exact srvHandleCommands_notif h
  rw [if_pos (by simpa using hpm)]
  unfold srvPmHandleCommands
  dsimp only
  by_cases hpre : g.isPre7x = true ∧ (s.cmdbuf 0 &&& 0x04000000) >>> 16 = 0
  · rw [if_pos (.inr hpre)] at h
    rw [if_pos hpre]
    exact srvHandleCommands_notif h
  rw [if_neg (not_or.2 ⟨hpm, hpre⟩)] at h
  rw [if_neg hpre]
  split at h
  · cases h
  next hmask =>
  rw [if_neg hmask]
  generalize (s.cmdbuf 0 >>> 16 &&& ~~~((s.cmdbuf 0 &&& 0x04000000) >>> 16)).toNat = cmd at h ⊢
  split at h
  · split at h
    · next hhead =>
      cases h
      rw [if_pos hhead]
      exact .map _ fun _ => ⟨_, rfl⟩
    · cases h
  · cases h
    exact .map _ fun _ => ⟨_, rfl⟩
  · split at h
    · next hhead =>
      cases h
      rw [if_pos hhead]
      exact .map _ fun _ => ⟨_, rfl⟩
    · cases h
  · cases h
    exact .ok ..
  · cases h

/-! ## The other commands -/

/-- Processes and their semaphores are as they were. -/
structure ProcessesKept (s s' : State) : Prop where
  pool : s'.processDataPool = s.processDataPool
  lists : s'.processLists = s.processLists
  semaphores : ∀ b ∈ s.processLists .inUse, s'.kernel (s.semaphoreOf b) = s.kernel (s.semaphoreOf b)

/-- A command that changes nothing but the command buffer and sessions. -/
theorem ProcessesKept.of_eq (hpool : s'.processDataPool = s.processDataPool) (hlists : s'.processLists = s.processLists)
    (hkernel : s'.kernel = s.kernel) : ProcessesKept s s' := ⟨hpool, hlists, fun _ _ => by rw [hkernel]⟩

theorem postponeOrReply_processes (s : State) (a : Nat) (res : Result) (header desc : UInt32) (h : Handle) :
    ProcessesKept s (postponeOrReply s a res header desc h) := by
  unfold postponeOrReply
  split
  · exact .of_eq rfl rfl rfl
  · exact .of_eq rfl rfl rfl

theorem doRegister_processes (ho : Owned g s) (hk : SyscallsOk s.kernel sys) {pid : UInt32} {clientPort serverPort : Handle}
    {name : Nat → UInt8} {nameSize : Int} {isNamedPort : Bool} {res : Result}
    (h : doRegisterServiceOrPort g sys s pid clientPort name nameSize isNamedPort = .ok (res, serverPort, s')) :
    ProcessesKept s s' := by
  rcases doRegister_ok h with ⟨-, -, rfl⟩ | ⟨-, hr, hadd⟩
  · exact .of_eq rfl rfl rfl
  · obtain ⟨kernel, hrel, rfl⟩ := addService_ok hadd
    cases hn : isNamedPort
    all_goals
      rw [hn] at hr hrel
      refine ⟨rfl, rfl, fun b hb => ?_⟩
      obtain ⟨c, hc⟩ := ho.processes.isOpen b hb
      have hne := ho.base.ne_semaphore hc fun _ => by simp
      show kernel (s.semaphoreOf b) = _
      rw [hrel.frame _ hne.symm]
    · -- the new port is no semaphore
      refine Kernel.opened_ne _ _ ?_
      rintro heq
      have hf := (hk.createPort (hr.port rfl)).2
      rw [heq] at hc
      exact absurd (hc.symm.trans hf) nofun
    · rfl

theorem unregister_processes (ho : Owned g s) (pid : UInt32) (name : Nat → UInt8) (nameSize : Int) (isNamedPort : Bool) :
    ProcessesKept s (unregisterServiceOrPort s pid name nameSize isNamedPort).2 := by
  rcases unregister_cases s pid name nameSize isNamedPort with ⟨-, heq⟩ | ⟨i, info, -, hf, -, heq⟩
  · rw [heq]
    exact .of_eq rfl rfl rfl
  · rw [heq]
    refine ⟨rfl, rfl, fun b hb => ?_⟩
    obtain ⟨c, hc⟩ := ho.processes.isOpen b hb
    refine Kernel.closeHandle_ne _ fun hx => ?_
    by_cases h0 : info.clientPort = 0
    · rw [hx, h0, ho.base.zero] at hc; cases hc
    · exact ho.services.ne_port hc nofun nofun info (List.mem_of_getElem? (findService_getElem hf)) h0 hx.symm

theorem ProcessesKept.reply (h : ProcessesKept s s') (ws : List UInt32) : ProcessesKept s (s'.reply ws) :=
  ⟨h.pool, h.lists, h.semaphores⟩

theorem srvHandleCommands_other (ho : Owned g s) (hk : SyscallsOk s.kernel sys) (hn : srvNotifOp g sys s a = none)
    {res : Result} (h : srvHandleCommands g sys s a = .ok (res, s')) : ProcessesKept s s' := by
  unfold srvHandleCommands at h
  unfold srvNotifOp at hn
  dsimp only at h hn
  split at h
  · split at h
    · cases h; exact .of_eq rfl rfl rfl
    · cases h; exact .of_eq rfl rfl rfl
  · next hcmd => rw [hcmd] at hn; cases hn
  · obtain ⟨r, hr, he⟩ := map_eq_ok.1 h
    cases he
    exact (doRegister_processes ho hk hr).reply _
  · cases h
    exact (unregister_processes ho _ _ _ _).reply _
  · cases h
    obtain ⟨busy, heq, -⟩ := getServiceHandle_cases sys s a s.cmdbuf.name (s32 (s.cmdbuf 3)) (s.cmdbuf 4)
    have hpost := postponeOrReply_processes (getServiceHandle sys s a s.cmdbuf.name (s32 (s.cmdbuf 3)) (s.cmdbuf 4)).2.2 a
      (getServiceHandle sys s a s.cmdbuf.name (s32 (s.cmdbuf 3)) (s.cmdbuf 4)).1 (ipcMakeHeader 5 1 2)
      (ipcDescMoveHandles 1) (getServiceHandle sys s a s.cmdbuf.name (s32 (s.cmdbuf 3)) (s.cmdbuf 4)).2.1
    rw [heq] at hpost
    rw [heq]
    exact ⟨hpost.pool, hpost.lists, hpost.semaphores⟩
  · split at h
    · obtain ⟨r, hr, he⟩ := map_eq_ok.1 h
      cases he
      exact (doRegister_processes ho hk hr).reply _
    · cases h; exact .of_eq rfl rfl rfl
  · cases h
    exact (unregister_processes ho _ _ _ _).reply _
  · cases h
    exact postponeOrReply_processes ..
  · next hcmd => rw [hcmd] at hn; cases hn
  · next hcmd => rw [hcmd] at hn; cases hn
  · next hcmd => rw [hcmd] at hn; cases hn
  · next hcmd => rw [hcmd] at hn; cases hn
  · next hcmd => rw [hcmd] at hn; cases hn
  · cases h; exact .of_eq rfl rfl rfl
  · cases h; exact .of_eq rfl rfl rfl

/-- Every other command leaves processes and their semaphores alone. -/
theorem handleCommands_other (ho : Owned g s) (hk : SyscallsOk s.kernel sys) (hn : notifOp g sys s a = none)
    {res : Result} (h : handleCommands g sys s a = .ok (res, s')) : ProcessesKept s s' := by
  unfold notifOp at hn
  unfold handleCommands at h
  dsimp only at hn
  by_cases hpm : (s.sessionDataPool a).isSrvPm = false
  · rw [if_pos (.inl hpm)] at hn
    rw [hpm] at h
    exact srvHandleCommands_other ho hk hn h
  rw [if_pos (by simpa using hpm)] at h
  unfold srvPmHandleCommands at h
  dsimp only at h
  by_cases hpre : g.isPre7x = true ∧ (s.cmdbuf 0 &&& 0x04000000) >>> 16 = 0
  · rw [if_pos (.inr hpre)] at hn
    rw [if_pos hpre] at h
    exact srvHandleCommands_other ho hk hn h
  rw [if_neg (not_or.2 ⟨hpm, hpre⟩)] at hn
  rw [if_neg hpre] at h
  split at h
  · cases h; exact .of_eq rfl rfl rfl
  next hmask =>
  rw [if_neg hmask] at hn
  split at h
  · next hcmd =>
    rw [hcmd] at hn
    split at h
    · next hhead => rw [if_pos hhead] at hn; cases hn
    · cases h; exact .of_eq rfl rfl rfl
  · next hcmd => rw [hcmd] at hn; cases hn
  · next hcmd =>
    rw [hcmd] at hn
    split at h
    · next hhead => rw [if_pos hhead] at hn; cases hn
    · cases h; exact .of_eq rfl rfl rfl
  · next hcmd => rw [hcmd] at hn; cases hn
  · cases h; exact .of_eq rfl rfl rfl

end

end Omiiba.Sm
