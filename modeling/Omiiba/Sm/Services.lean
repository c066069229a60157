/-
services.c: the table of registered services and named ports. Names are read through pointers, so
a name is the bytes from an address on; the table holds the 8 bytes `strncpy` leaves.
-/
import Omiiba.Sm.Common

namespace Omiiba.Sm

/-! ## Names -/

/-- `strncmp(name, name2, n) == 0` from byte `i` on. -/
def strncmpFrom (name name2 : Nat → UInt8) : Nat → Nat → Bool
  | 0, _ => true
  | n + 1, i => name i == name2 i && (name i == 0 || strncmpFrom name name2 n (i + 1))

/-- `strncmp(name, name2, n) == 0`. -/
def strncmpEq (name name2 : Nat → UInt8) (n : Nat) : Bool := strncmpFrom name name2 n 0

/-- `strncpy(dst, name, 8)`: up to the terminator, then zeros. -/
def strncpy8 (name : Nat → UInt8) : Nat → UInt8 :=
  fun i => if i < 8 ∧ ∀ j ≤ i, name j ≠ 0 then name i else 0

/-- `strnlen(name, n)`. -/
def strnlen (name : Nat → UInt8) (n : Nat) : Nat := ((List.range n).takeWhile fun i => name i != 0).length

def checkServiceName (name : Nat → UInt8) (nameSize : Int) : Result :=
  if nameSize ≤ 0 ∨ 8 < nameSize then 0xD9006405
  else if strnlen name nameSize.toNat < nameSize.toNat then 0xD9006407
  else 0

/-- `(size_t)nameSize`. -/
def sizeT (nameSize : Int) : Nat := (nameSize % 2 ^ 32).toNat

def areServiceNamesEqual (name name2 : Nat → UInt8) (nameSize : Int) : Bool :=
  strncmpEq name name2 (sizeT nameSize) && (nameSize == 8 || name nameSize.toNat == 0)

/-! ## The table -/

/-- `none` is -1. -/
def findServicePortByName (servicesInfo : List ServiceInfo) (isNamedPort : Bool) (name : Nat → UInt8)
    (nameSize : Int) : Option Nat :=
  servicesInfo.findIdx? fun info => info.isNamedPort == isNamedPort && areServiceNamesEqual info.name name nameSize

/-- `&servicesInfo[serviceId]`, where there is one. -/
def findService (servicesInfo : List ServiceInfo) (isNamedPort : Bool) (name : Nat → UInt8)
    (nameSize : Int) : Option (Nat × ServiceInfo) :=
  (findServicePortByName servicesInfo isNamedPort name nameSize).bind fun serviceId =>
    servicesInfo[serviceId]?.map (serviceId, ·)

/-- The test a registration makes on a waiting session. -/
def isWaitingFor (session : SessionData) (isNamedPort : Bool) (name : Nat → UInt8) : Bool :=
  session.replayCmdbuf 0 &&& 0xF0000 == (if !isNamedPort then 0x50000 else 0x80000) &&
    areServiceNamesEqual session.replayCmdbuf.name name (s32 (session.replayCmdbuf 3))

/-- The loop of a registration over the waiting sessions: what is woken, in order, and the lists. -/
def wakeLoop (p : Nat → Bool) : List Nat → Lanes SessionList Nat → List Nat × Lanes SessionList Nat
  | [], lists => ([], lists)
  | node :: nodes, lists =>
    if p node then
      let r := wakeLoop p nodes (lists.move node .toWakeUpAfterServiceOrPortRegister true)
      (node :: r.1, r.2)
    else wakeLoop p nodes lists

/-- The end of a registration: the entry is stored, waiters are woken, tokens are released. -/
def addService (g : Globals) (s : State) (info : ServiceInfo) (name : Nat → UInt8) : Except Panic State :=
  let s := { s with servicesInfo := s.servicesInfo ++ [info] }
  let r := wakeLoop (fun a => isWaitingFor (s.sessionDataPool a) info.isNamedPort name)
    (s.sessionLists .waitingForServiceOrPortRegister) s.sessionLists
  let s := { s with sessionLists := r.2, history := { s.history with woken := s.history.woken ++ r.1 } }
  if 0 < r.1.length then
    match s.kernel.releaseSemaphore g.resumeGetServiceHandleOrPortRegisteredSemaphore r.1.length with
    | none => .error .semaphoreRelease
    | some kernel => .ok { s with kernel }
  else .ok s

/-- `doRegisterServiceOrPort`; the handle is `*serverPort`. -/
def doRegisterServiceOrPort (g : Globals) (sys : Syscalls) (s : State) (pid : UInt32) (clientPort : Handle)
    (name : Nat → UInt8) (nameSize : Int) (isNamedPort : Bool) : Except Panic (Result × Handle × State) :=
  let res := checkServiceName name nameSize
  if rFailed res then .ok (res, 0, s)
  else if findServicePortByName s.servicesInfo isNamedPort name nameSize ≠ none then .ok (0xD9001BFC, 0, s)
  else if 0xA0 ≤ s.servicesInfo.length then .ok (0xD86067F3, 0, s)
  else if !isNamedPort then
    let (res, portServer, portClient) := sys.createPort
    if rFailed res then .ok (0xD9001BFC, 0, s)
    else
      let s := { s with kernel := s.kernel.opened portClient .clientPort }
      match addService g s ⟨strncpy8 name, portClient, pid, isNamedPort⟩ name with
      | .error e => .error e
      | .ok s => .ok (res, portServer, s)
  else
    match addService g s ⟨strncpy8 name, clientPort, pid, isNamedPort⟩ name with
    | .error e => .error e
    | .ok s => .ok (res, 0, s)

def registerService (g : Globals) (sys : Syscalls) (s : State) (pid : UInt32) (name : Nat → UInt8)
    (nameSize : Int) : Except Panic (Result × Handle × State) :=
  doRegisterServiceOrPort g sys s pid 0 name nameSize false

def registerPort (g : Globals) (sys : Syscalls) (s : State) (pid : UInt32) (clientPort : Handle)
    (name : Nat → UInt8) (nameSize : Int) : Except Panic (Result × Handle × State) :=
  doRegisterServiceOrPort g sys s pid clientPort name nameSize true

/-- Closing the port of entry `i` and removing it, as two functions do. -/
def removeService (s : State) (i : Nat) (info : ServiceInfo) : State :=
  { s with kernel := s.kernel.closeHandle info.clientPort, servicesInfo := swapRemove s.servicesInfo i }

def unregisterServiceOrPort (s : State) (pid : UInt32) (name : Nat → UInt8) (nameSize : Int)
    (isNamedPort : Bool) : Result × State :=
  let res := checkServiceName name nameSize
  if rFailed res then (res, s)
  else
    match findService s.servicesInfo isNamedPort name nameSize with
    | none => (0xD8801BFA, s)
    | some (serviceId, info) =>
      if info.pid ≠ pid then (0xD8E06406, s) else (0, removeService s serviceId info)

def unregisterService (s : State) (pid : UInt32) (name : Nat → UInt8) (nameSize : Int) : Result × State :=
  unregisterServiceOrPort s pid name nameSize false

def unregisterPort (s : State) (pid : UInt32) (name : Nat → UInt8) (nameSize : Int) : Result × State :=
  unregisterServiceOrPort s pid name nameSize true

/-- The answer is `none` where `*isRegistered` is not written. -/
def isServiceRegistered (s : State) (name : Nat → UInt8) (nameSize : Int) : Result × Option Bool :=
  let res := checkServiceName name nameSize
  if rFailed res then (res, none)
  else (0, some (findServicePortByName s.servicesInfo false name nameSize ≠ none))

/-- `GetServiceHandle`; `checkServiceAccess` always grants. -/
def getServiceHandle (sys : Syscalls) (s : State) (a : Nat) (name : Nat → UInt8) (nameSize : Int)
    (flags : UInt32) : Result × Handle × State :=
  let res := checkServiceName name nameSize
  if rFailed res then (res, 0, s)
  else
    match findService s.servicesInfo false name nameSize with
    | none => (0xD0406401, 0, s)
    | some (_, info) =>
      let port := info.clientPort
      let (res, session) := sys.createSessionToPort port
      let session := if rFailed res then 0 else session
      if res = 0xD0401834 ∧ flags &&& 1 = 0 then
        (0xD0406402, session, s.setSession a { s.sessionDataPool a with busyClientPortHandle := port })
      else (res, session, s)

def getPort (s : State) (name : Nat → UInt8) (nameSize : Int) (flags : UInt8) : Result × Handle :=
  let res := checkServiceName name nameSize
  if rFailed res then (res, 0)
  else
    match findService s.servicesInfo true name nameSize with
    | none => (if flags ≠ 0 then 0xD0406401 else 0xD8801BFA, 0)
    | some (_, info) => (0, if flags = 0 then info.clientPort else 0)

/-! ## What the functions do -/

/-- The waiting sessions a registration wakes, in order. -/
def waiters (s : State) (isNamedPort : Bool) (name : Nat → UInt8) : List Nat :=
  (s.sessionLists .waitingForServiceOrPortRegister).filter fun a => isWaitingFor (s.sessionDataPool a) isNamedPort name

theorem wakeLoop_eq (p : Nat → Bool) (nodes : List Nat) (lists : Lanes SessionList Nat) :
    wakeLoop p nodes lists =
      (nodes.filter p, lists.moveAll (nodes.filter p) .toWakeUpAfterServiceOrPortRegister) := by
  induction nodes generalizing lists with
  | nil => rfl
  | cons node nodes ih =>
    unfold wakeLoop
    by_cases hp : p node = true
    · rw [if_pos hp, ih, List.filter_cons_of_pos hp]; rfl
    · rw [if_neg hp, ih, List.filter_cons_of_neg hp]

/-- A registration stores its entry, wakes the waiters and releases a token for each. -/
theorem addService_ok {g : Globals} {s s' : State} {info : ServiceInfo} {name : Nat → UInt8}
    (h : addService g s info name = .ok s') :
    ∃ kernel, s.kernel.Released g.resumeGetServiceHandleOrPortRegisteredSemaphore
        (waiters s info.isNamedPort name).length kernel ∧
      s' = { s with
        kernel
        servicesInfo := s.servicesInfo ++ [info]
        sessionLists := s.sessionLists.moveAll (waiters s info.isNamedPort name) .toWakeUpAfterServiceOrPortRegister
        history := { s.history with woken := s.history.woken ++ waiters s info.isNamedPort name } } := by
  unfold addService at h
  dsimp only at h
  rw [wakeLoop_eq] at h
  change (if 0 < (waiters s info.isNamedPort name).length then _ else _) = _ at h
  split at h
  · split at h
    · cases h
    · next kernel hk =>
      cases h
      exact ⟨kernel, Kernel.releaseSemaphore_some hk, rfl⟩
  · next hn =>
    cases h
    refine ⟨s.kernel, ?_, rfl⟩
    rw [Nat.eq_zero_of_not_pos hn]
    exact Kernel.Released.refl ..

/-- The state a registration adds its entry to: a service's port has just been created. -/
def State.withPort (s : State) (isNamedPort : Bool) (port : Handle) : State :=
  if isNamedPort then s else { s with kernel := s.kernel.opened port .clientPort }

/-- What a registration that succeeds has found. -/
structure Registrable (sys : Syscalls) (s : State) (name : Nat → UInt8) (nameSize : Int) (isNamedPort : Bool) :
    Prop where
  valid : rFailed (checkServiceName name nameSize) = false
  absent : findServicePortByName s.servicesInfo isNamedPort name nameSize = none
  room : s.servicesInfo.length < 0xA0
  port : isNamedPort = false → rFailed sys.createPort.1 = false

/-- The client port a registration stores. -/
def storedPort (sys : Syscalls) (clientPort : Handle) (isNamedPort : Bool) : Handle :=
  if isNamedPort then clientPort else sys.createPort.2.2

/-- A registration fails and changes nothing, or adds its entry. -/
theorem doRegister_ok {g : Globals} {sys : Syscalls} {s s' : State} {pid : UInt32} {clientPort serverPort : Handle}
    {name : Nat → UInt8} {nameSize : Int} {isNamedPort : Bool} {res : Result}
    (h : doRegisterServiceOrPort g sys s pid clientPort name nameSize isNamedPort = .ok (res, serverPort, s')) :
    (rFailed res = true ∧ ¬ Registrable sys s name nameSize isNamedPort ∧ s' = s) ∨
    (rFailed res = false ∧ Registrable sys s name nameSize isNamedPort ∧
      addService g (s.withPort isNamedPort (storedPort sys clientPort isNamedPort))
        ⟨strncpy8 name, storedPort sys clientPort isNamedPort, pid, isNamedPort⟩ name = .ok s') := by
  unfold doRegisterServiceOrPort at h
  dsimp only at h
  split_ifs at h with hv hf hr hn hc
  · cases h; exact .inl ⟨hv, fun r => absurd (r.valid.symm.trans hv) nofun, rfl⟩
  · cases h; exact .inl ⟨rfl, fun r => hf r.absent, rfl⟩
  · cases h; exact .inl ⟨rfl, fun r => absurd r.room (Nat.not_lt.2 hr), rfl⟩
  · cases h
    obtain rfl : isNamedPort = false := by simpa using hn
    exact .inl ⟨rfl, fun r => absurd ((r.port rfl).symm.trans hc) nofun, rfl⟩
  · split at h
    · cases h
    · next s1 hs =>
      cases h
      obtain rfl : isNamedPort = false := by simpa using hn
      exact .inr ⟨by simpa using hc, ⟨by simpa using hv, by simpa using hf, by omega, fun _ => by simpa using hc⟩, hs⟩
  · split at h
    · cases h
    · next s1 hs =>
      cases h
      obtain rfl : isNamedPort = true := by simpa using hn
      exact .inr ⟨by simpa using hv, ⟨by simpa using hv, by simpa using hf, by omega, nofun⟩, hs⟩

theorem findService_getElem {servicesInfo : List ServiceInfo} {isNamedPort : Bool} {name : Nat → UInt8}
    {nameSize : Int} {i : Nat} {info : ServiceInfo}
    (h : findService servicesInfo isNamedPort name nameSize = some (i, info)) : servicesInfo[i]? = some info := by
  unfold findService at h
  obtain ⟨j, -, hj⟩ := Option.bind_eq_some_iff.1 h
  obtain ⟨info', hi, he⟩ := Option.map_eq_some_iff.1 hj
  cases he
  exact hi

/-- Unregistering changes nothing, or removes one entry of the process. -/
theorem unregister_cases (s : State) (pid : UInt32) (name : Nat → UInt8) (nameSize : Int) (isNamedPort : Bool) :
    (rFailed (unregisterServiceOrPort s pid name nameSize isNamedPort).1 = true ∧
      (unregisterServiceOrPort s pid name nameSize isNamedPort).2 = s) ∨
    ∃ i info, rFailed (checkServiceName name nameSize) = false ∧
      findService s.servicesInfo isNamedPort name nameSize = some (i, info) ∧ info.pid = pid ∧
      unregisterServiceOrPort s pid name nameSize isNamedPort = (0, removeService s i info) := by
  unfold unregisterServiceOrPort
  dsimp only
  split_ifs with hv
  · exact .inl ⟨hv, rfl⟩
  · rcases hf : findService s.servicesInfo isNamedPort name nameSize with - | ⟨i, info⟩
    · exact .inl ⟨show rFailed 0xD8801BFA = true by decide, rfl⟩
    · dsimp only
      split_ifs with hp
      · exact .inl ⟨show rFailed 0xD8E06406 = true by decide, rfl⟩
      · exact .inr ⟨i, info, by simpa using hv, rfl, not_not.1 hp, rfl⟩

theorem wouldBlock_checkServiceName (name : Nat → UInt8) (nameSize : Int) :
    wouldBlock (checkServiceName name nameSize) = false := by
  unfold checkServiceName
  split_ifs <;> decide

@[simp] theorem State.setSession_self (s : State) (a : Nat) : s.setSession a (s.sessionDataPool a) = s := by
  unfold State.setSession
  congr 1
  funext b
  split
  · next hb => rw [hb]
  · rfl

/-- A session handle is asked for: the session may note the full port, nothing else changes. The
request is to be postponed when the service is missing or its port full. -/
theorem getServiceHandle_cases (sys : Syscalls) (s : State) (a : Nat) (name : Nat → UInt8) (nameSize : Int)
    (flags : UInt32) : ∃ busy, (getServiceHandle sys s a name nameSize flags).2.2 =
        s.setSession a { s.sessionDataPool a with busyClientPortHandle := busy } ∧
      (wouldBlock (getServiceHandle sys s a name nameSize flags).1 = true →
        (∀ port, rModule (sys.createSessionToPort port).1 ≠ rmSrv) →
        rFailed (checkServiceName name nameSize) = false ∧
        (((getServiceHandle sys s a name nameSize flags).1 = 0xD0406401 ∧
            busy = (s.sessionDataPool a).busyClientPortHandle) ∨
          ((getServiceHandle sys s a name nameSize flags).1 = 0xD0406402 ∧
            (sys.createSessionToPort busy).1 = 0xD0401834))) := by
  have hself := (s.setSession_self a).symm
  unfold getServiceHandle
  dsimp only
  split_ifs with hv
  · refine ⟨_, hself, fun hb => ?_⟩
    rw [wouldBlock_checkServiceName] at hb
    cases hb
  · rcases findService s.servicesInfo false name nameSize with - | ⟨i, info⟩
    · exact ⟨_, hself, fun _ _ => ⟨by simpa using hv, .inl ⟨rfl, rfl⟩⟩⟩
    · dsimp only
      by_cases hb : (sys.createSessionToPort info.clientPort).1 = 0xD0401834 ∧ flags &&& 1 = 0
      · rw [if_pos hb]
        exact ⟨info.clientPort, rfl, fun _ _ => ⟨by simpa using hv, .inr ⟨rfl, hb.1⟩⟩⟩
      · rw [if_neg hb]
        refine ⟨_, hself, fun hb hmod => ?_⟩
        -- an answer of the kernel is none of sm's own results
        rw [wouldBlock, beq_eq_false_iff_ne.2 (hmod _)] at hb
        cases hb

/-- A port is asked for: the request is to be postponed when the port is missing. -/
theorem getPort_wouldBlock {s : State} {name : Nat → UInt8} {nameSize : Int} {flags : UInt8}
    (h : wouldBlock (getPort s name nameSize flags).1 = true) :
    rFailed (checkServiceName name nameSize) = false ∧ (getPort s name nameSize flags).1 = 0xD0406401 := by
  unfold getPort at h ⊢
  dsimp only at h ⊢
  split at h
  · rw [wouldBlock_checkServiceName] at h
    cases h
  · next hv =>
    rw [if_neg hv]
    split at h
    · split_ifs at h with hf
      · exact ⟨by simpa using hv, by rw [if_pos hf]⟩
      · exact absurd h (show ¬ wouldBlock 0xD8801BFA = true by decide)
    · exact absurd h (show ¬ wouldBlock 0 = true by decide)

end Omiiba.Sm
