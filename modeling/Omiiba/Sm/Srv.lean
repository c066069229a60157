/-
srv.c and srv_pm.c: the commands of srv: and srv:pm sessions. A command reads and answers in the
command buffer of the thread; a session is named by its element of the pool.
-/
import Omiiba.Sm.Processes

namespace Omiiba.Sm

/-- The first shared handle of a message, which the kernel puts in sm's table. -/
def firstShared (message : Words) : Option Handle :=
  let normalParams := ((message 0 >>> 6) &&& 0x3F).toNat
  if 2 ≤ message 0 &&& 0x3F ∧ message (normalParams + 1) = ipcDescSharedHandles 1 then
    some (message (normalParams + 2))
  else none

/-- Words written to the command buffer, from word 0 on. -/
def State.reply (s : State) : List UInt32 → State :=
  fun ws => { s with cmdbuf := fun i => (ws[i]?).getD (s.cmdbuf i) }

/-- `invalid_command` with its result. -/
def invalidCommand (s : State) (res : Result) : Except Panic (Result × State) :=
  .ok (res, s.reply [ipcMakeHeader 0 1 0, res])

/-- The end of the commands that can be postponed: keep the request, or answer with a handle. -/
def postponeOrReply (s : State) (a : Nat) (res : Result) (header desc : UInt32) (h : Handle) : State :=
  if wouldBlock res then
    s.setSession a { s.sessionDataPool a with replayCmdbuf := Words.copy16 (s.sessionDataPool a).replayCmdbuf s.cmdbuf }
  else s.reply [header, res, desc, h]

def srvHandleCommands (g : Globals) (sys : Syscalls) (s : State) (a : Nat) : Except Panic (Result × State) :=
  let cmdbuf := s.cmdbuf
  let pid := (s.sessionDataPool a).pid
  let name := cmdbuf.name
  let nameSize := s32 (cmdbuf 3)
  match (cmdbuf 0 >>> 16).toNat with
  | 1 => -- RegisterClient
    if cmdbuf 0 = ipcMakeHeader 1 0 2 ∧ cmdbuf 1 = ipcDescCurProcessId then
      .ok (0, (s.setSession a { s.sessionDataPool a with pid := cmdbuf 2 }).reply [ipcMakeHeader 1 1 0, 0])
    else invalidCommand s 0xD9001830
  | 2 => -- EnableNotification
    (enableNotification g sys s pid).map fun (res, notificationSemaphore, s) =>
      (res, s.reply [ipcMakeHeader 2 1 2, res, ipcDescSharedHandles 1, notificationSemaphore])
  | 3 => -- RegisterService
    (registerService g sys s pid name nameSize).map fun (res, serverPort, s) =>
      (res, s.reply [ipcMakeHeader 3 1 2, res, ipcDescMoveHandles 1, serverPort])
  | 4 => -- UnregisterService
    let (res, s) := unregisterService s pid name nameSize
    .ok (res, s.reply [ipcMakeHeader 4 1 0, res])
  | 5 => -- GetServiceHandle
    let (res, session, s) := getServiceHandle sys s a name nameSize (cmdbuf 4)
    .ok (res, postponeOrReply s a res (ipcMakeHeader 5 1 2) (ipcDescMoveHandles 1) session)
  | 6 => -- RegisterPort
    if cmdbuf 0 = ipcMakeHeader 6 3 2 ∧ cmdbuf 4 = ipcDescSharedHandles 1 then
      (registerPort g sys s pid (cmdbuf 5) name nameSize).map fun (res, _, s) =>
        (res, s.reply [ipcMakeHeader 6 1 0, res])
    else invalidCommand s 0xD9001830
  | 7 => -- UnregisterPort
    let (res, s) := unregisterPort s pid name nameSize
    .ok (res, s.reply [ipcMakeHeader 7 1 0, res])
  | 8 => -- GetPort
    let (res, port) := getPort s name nameSize (cmdbuf 4).toUInt8
    .ok (res, postponeOrReply s a res (ipcMakeHeader 8 1 2) (ipcDescSharedHandles 1) port)
  | 9 => -- Subscribe
    let (res, s) := subscribe s pid (cmdbuf 1)
    .ok (res, s.reply [ipcMakeHeader 9 1 0, res])
  | 10 => -- Unsubscribe
    let (res, s) := unsubscribe s pid (cmdbuf 1)
    .ok (res, s.reply [ipcMakeHeader 10 1 0, res])
  | 11 => -- ReceiveNotification
    let (res, notificationId, s) := receiveNotification s pid
    .ok (res, s.reply [ipcMakeHeader 11 2 0, res, notificationId.getD sys.uninitialised])
  | 12 => -- PublishToSubscriber
    (publishToSubscriber s (cmdbuf 1) (cmdbuf 2)).map fun (res, s) => (res, s.reply [ipcMakeHeader 12 1 0, res])
  | 13 => -- PublishAndGetSubscriber
    (publishAndGetSubscriber s (cmdbuf 1) 0).map fun (res, pidCount, pidList, s) =>
      (res, s.reply ([ipcMakeHeader 13 62 0, res, pidCount.getD sys.uninitialised] ++ pidList))
  | 14 => -- IsServiceRegistered
    let (res, isRegistered) := isServiceRegistered s name nameSize
    .ok (res, s.reply [ipcMakeHeader 14 2 0, res,
      if isRegistered.getD (sys.uninitialised.toUInt8 ≠ 0) then 1 else 0])
  | _ => invalidCommand s 0xD9001830

def srvPmHandleCommands (g : Globals) (sys : Syscalls) (s : State) (a : Nat) : Except Panic (Result × State) :=
  let cmdbuf := s.cmdbuf
  let mask := (cmdbuf 0 &&& 0x04000000) >>> 16
  if g.isPre7x ∧ mask = 0 then srvHandleCommands g sys s a
  else if !g.isPre7x ∧ mask ≠ 0 then invalidCommand s 0xD900182F
  else
    match ((cmdbuf 0 >>> 16) &&& ~~~mask).toNat with
    | 1 => -- PublishToProcess
      if cmdbuf 0 = ipcMakeHeader (mask ||| 1) 1 2 ∧ cmdbuf 2 = ipcDescSharedHandles 1 then
        (publishToProcess sys s (cmdbuf 3) (cmdbuf 1)).map fun (res, s) =>
          (res, s.reply [ipcMakeHeader (mask ||| 1) 1 0, res])
      else invalidCommand s 0xD900182F
    | 2 => -- PublishToAll
      (publishToAll s (cmdbuf 1)).map fun (res, s) => (res, s.reply [ipcMakeHeader (mask ||| 2) 1 0, res])
    | 3 => -- RegisterProcess
      if cmdbuf 0 = ipcMakeHeader (mask ||| 3) 2 2 ∧
          cmdbuf 3 &&& 0x3C0F = ipcDescStaticBuffer 0x110 0 &&& 0x3C0F then
        (registerProcess g sys s (cmdbuf 1) (cmdbuf 3 >>> 14)).map fun (res, s) =>
          (res, s.reply [ipcMakeHeader (mask ||| 3) 1 0, res])
      else invalidCommand s 0xD900182F
    | 4 => -- UnregisterProcess
      let (res, s) := unregisterProcess s (cmdbuf 1)
      .ok (res, s.reply [ipcMakeHeader (mask ||| 4) 1 0, res])
    | _ => invalidCommand s 0xD900182F

/-- The choice `main` makes between the two. -/
def handleCommands (g : Globals) (sys : Syscalls) (s : State) (a : Nat) : Except Panic (Result × State) :=
  if (s.sessionDataPool a).isSrvPm then srvPmHandleCommands g sys s a else srvHandleCommands g sys s a

/-! ## The header of srv:pm commands -/

theorem land_two_pow (n i : Nat) : n &&& 2 ^ i = if n.testBit i then 2 ^ i else 0 := by
  refine Nat.eq_of_testBit_eq fun j => ?_
  rw [Nat.testBit_and, Nat.testBit_two_pow]
  by_cases hj : i = j
  · subst hj
    cases n.testBit i <;> simp
  · split <;> simp [hj]

theorem mask_toNat (w : UInt32) : ((w &&& 0x04000000) >>> 16).toNat = if w.toNat.testBit 26 then 0x0400 else 0 := by
  rw [UInt32.toNat_shiftRight, UInt32.toNat_and]
  change (w.toNat &&& 2 ^ 26) >>> 16 = _
  rw [land_two_pow]
  split <;> rfl

/-- The bit that marks a srv:pm command before 7.x. -/
theorem mask_cases (w : UInt32) : (w &&& 0x04000000) >>> 16 = 0 ∨ (w &&& 0x04000000) >>> 16 = 0x0400 := by
  have h := mask_toNat w
  split at h
  · exact .inr (UInt32.toNat_inj.1 h)
  · exact .inl (UInt32.toNat_inj.1 h)

/-- Requests that can be postponed do not have it. -/
theorem mask_zero {w : UInt32} (h : (w >>> 16).toNat = 5 ∨ (w >>> 16).toNat = 8) : (w &&& 0x04000000) >>> 16 = 0 := by
  apply UInt32.toNat_inj.1
  have hlt : w.toNat < 2 ^ 26 := by
    rw [UInt32.toNat_shiftRight] at h
    change w.toNat >>> 16 = 5 ∨ w.toNat >>> 16 = 8 at h
    rw [Nat.shiftRight_eq_div_pow] at h
    omega
  rw [mask_toNat, Nat.testBit_lt_two_pow hlt]; rfl

end Omiiba.Sm
