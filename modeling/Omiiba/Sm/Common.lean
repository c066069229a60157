/-
The state sm works on and the kernel objects behind its handles. Sessions and processes live in
pools whose lists are lanes of pool indices. Three history variables that no code reads
record what each session asked for, which waiters were woken, and which were resumed.
-/
import Omiiba.Lib.Lanes
import Omiiba.Lib.Table
import Mathlib.Tactic

namespace Omiiba.Sm

/-! ## Results and message words -/

abbrev Handle := UInt32
abbrev Result := UInt32

/-- `R_FAILED`: the sign bit. -/
def rFailed (res : Result) : Bool := res &&& 0x80000000 != 0
def rModule (res : Result) : UInt32 := (res >>> 10) &&& 0xFF
def rSummary (res : Result) : UInt32 := (res >>> 21) &&& 0x3F

/-- `RM_SRV`. -/
def rmSrv : UInt32 := 25
/-- `RS_WOULDBLOCK`. -/
def rsWouldBlock : UInt32 := 2

def wouldBlock (res : Result) : Bool := rModule res == rmSrv && rSummary res == rsWouldBlock

def ipcMakeHeader (commandId normalParams translateParams : UInt32) : UInt32 :=
  (commandId <<< 16) ||| ((normalParams &&& 0x3F) <<< 6) ||| (translateParams &&& 0x3F)
def ipcDescSharedHandles (n : UInt32) : UInt32 := (n - 1) <<< 26
def ipcDescMoveHandles (n : UInt32) : UInt32 := ((n - 1) <<< 26) ||| 0x10
def ipcDescCurProcessId : UInt32 := 0x20
def ipcDescStaticBuffer (size id : UInt32) : UInt32 := (size <<< 14) ||| ((id &&& 0xF) <<< 10) ||| 2

/-- The words of a command buffer. -/
abbrev Words := Nat → UInt32

namespace Words

def set (w : Words) (i : Nat) (v : UInt32) : Words := fun j => if j = i then v else w j

@[simp] theorem set_same (w : Words) (i : Nat) (v : UInt32) : w.set i v i = v := if_pos rfl

@[simp] theorem set_ne (w : Words) {i j : Nat} (v : UInt32) (h : j ≠ i) : w.set i v j = w j := if_neg h

/-- `memcpy(dst, src, 16)`. -/
def copy16 (dst src : Words) : Words := fun j => if j < 4 then src j else dst j

/-- The bytes at `w + 1`, where commands carry a service name. -/
def name (w : Words) : Nat → UInt8 := fun i => (w (1 + i / 4) >>> (8 * UInt32.ofNat (i % 4))).toUInt8

end Words

/-- A word read as `s32`. -/
def s32 (w : UInt32) : Int := w.toInt32.toInt

/-! ## Kernel objects -/

/-- What a handle of sm refers to. `received` is a handle another process sent. -/
inductive KObject
  | semaphore (count max : Nat)
  | serverPort
  | clientPort
  | session
  | received
  deriving DecidableEq

/-- The handle table of sm. -/
abbrev Kernel := Handle → Option KObject

namespace Kernel

def opened (k : Kernel) (h : Handle) (o : KObject) : Kernel := fun x => if x = h then some o else k x

/-- `svcCloseHandle`; closing what is not open changes nothing. -/
def closeHandle (k : Kernel) (h : Handle) : Kernel := fun x => if x = h then none else k x

/-- `svcReleaseSemaphore`; `none` is its failure, past the maximum or on no semaphore. -/
def releaseSemaphore (k : Kernel) (h : Handle) (n : Nat) : Option Kernel :=
  match k h with
  | some (.semaphore c m) => if c + n ≤ m then some (k.opened h (.semaphore (c + n) m)) else none
  | _ => none

/-- One wait on a semaphore that succeeds. -/
def acquire (k : Kernel) (h : Handle) : Kernel :=
  match k h with
  | some (.semaphore c m) => k.opened h (.semaphore (c - 1) m)
  | _ => k

/-- The count of a semaphore. -/
def count (k : Kernel) (h : Handle) : Nat :=
  match k h with
  | some (.semaphore c _) => c
  | _ => 0

@[simp] theorem opened_same (k : Kernel) (h : Handle) (o : KObject) : k.opened h o h = some o := if_pos rfl

@[simp] theorem opened_ne (k : Kernel) {h x : Handle} (o : KObject) (hx : x ≠ h) : k.opened h o x = k x := if_neg hx

@[simp] theorem closeHandle_same (k : Kernel) (h : Handle) : k.closeHandle h h = none := if_pos rfl

@[simp] theorem closeHandle_ne (k : Kernel) {h x : Handle} (hx : x ≠ h) : k.closeHandle h x = k x := if_neg hx

/-- `n` tokens are added to the semaphore `r`, and nothing else changes. -/
structure Released (k : Kernel) (r : Handle) (n : Nat) (k' : Kernel) : Prop where
  frame : ∀ h, h ≠ r → k' h = k h
  added : ∀ {c m}, k r = some (.semaphore c m) → k' r = some (.semaphore (c + n) m)

theorem Released.refl (k : Kernel) (r : Handle) : Released k r 0 k := ⟨fun _ _ => rfl, fun h => h⟩

theorem releaseSemaphore_some {k k' : Kernel} {r : Handle} {n : Nat} (h : k.releaseSemaphore r n = some k') :
    Released k r n k' := by
  unfold releaseSemaphore at h
  split at h
  · next c m hk =>
    split at h
    · cases h
      refine ⟨fun x hx => opened_ne k _ hx, fun hc => ?_⟩
      rw [hk] at hc
      cases hc
      exact opened_same ..
    · cases h
  · cases h

theorem acquire_ne (k : Kernel) {h x : Handle} (hx : x ≠ h) : k.acquire h x = k x := by
  unfold acquire
  rcases k h with - | o
  · rfl
  · cases o with
    | semaphore c m => exact opened_ne _ _ hx
    | _ => rfl

theorem acquire_semaphore {k : Kernel} {h : Handle} {c m : Nat} (hk : k h = some (.semaphore c m)) :
    k.acquire h h = some (.semaphore (c - 1) m) := by
  unfold acquire
  rw [hk]
  exact opened_same ..

/-- Acquiring changes the count of a semaphore only. -/
theorem acquire_apply (k : Kernel) (h x : Handle) :
    k.acquire h x = k x ∨ ∃ c m, k x = some (.semaphore c m) ∧ k.acquire h x = some (.semaphore (c - 1) m) := by
  by_cases hx : x = h
  · subst hx
    rcases hk : k x with - | o
    · left; unfold acquire; simp [hk]
    · cases o with
      | semaphore c m => exact .inr ⟨c, m, rfl, acquire_semaphore hk⟩
      | _ => left; unfold acquire; simp [hk]
  · exact .inl (acquire_ne k hx)

/-- Several handles closed. -/
def closeAll (k : Kernel) (hs : List Handle) : Kernel := hs.foldl closeHandle k

theorem closeAll_apply (hs : List Handle) (k : Kernel) (h : Handle) :
    k.closeAll hs h = if h ∈ hs then none else k h := by
  induction hs generalizing k with
  | nil => simp [closeAll]
  | cons x hs ih =>
    have hstep : k.closeAll (x :: hs) = (k.closeHandle x).closeAll hs := rfl
    rw [hstep, ih]
    by_cases hx : h = x
    · subst hx; simp
    · simp [hx]

end Kernel

/-- The answers of the kernel to the system calls of one iteration of the main loop, and what an
uninitialised local holds. -/
structure Syscalls where
  createPort : Result × Handle × Handle
  createSessionToPort : Handle → Result × Handle
  createSemaphore : Result × Handle
  getProcessId : Result × UInt32
  acceptSession : Result × Handle
  uninitialised : UInt32

/-- Why sm stops. -/
inductive Panic
  | result (res : Result)
  | semaphoreRelease
  | emptyFreeList
  | emptyWakeUpList
  | serverHandleClosed
  | sessionNotFound
  deriving DecidableEq

theorem map_eq_ok {α β : Type} {x : Except Panic α} {f : α → β} {b : β} :
    x.map f = .ok b ↔ ∃ a, x = .ok a ∧ f a = b := by
  cases x <;> simp [Except.map]

/-! ## Data -/

structure SessionData where
  pid : UInt32
  replayCmdbuf : Words
  busyClientPortHandle : Handle
  handle : Handle
  isSrvPm : Bool

/-- A session's element of the pool after `memset`. -/
def SessionData.zero : SessionData := ⟨0, fun _ => 0, 0, 0, false⟩

/-- The size of `sessionDataPool`. -/
def poolSize : Nat := 76

/-- The five lists a session can be on. -/
inductive SessionList
  | inUse
  | free
  | waitingForServiceOrPortRegister
  | toWakeUpAfterServiceOrPortRegister
  | waitingPortReady
  deriving DecidableEq

/-- `pid`, the semaphore and the notification queue of a process: a ring of 16 ids and the
subscribed ids. `accepted` and `received` are history. -/
structure ProcessData where
  pid : UInt32
  notificationSemaphore : Handle
  notificationEnabled : Bool
  receivedNotificationIndex : Nat
  pendingNotificationIndex : Nat
  nbPendingNotifications : Nat
  pendingNotifications : Nat → UInt32
  subscribedNotifications : List UInt32
  accepted : List UInt32
  received : List UInt32

/-- A process's element of the pool after `memset`. -/
def ProcessData.zero : ProcessData := ⟨0, 0, false, 0, 0, 0, fun _ => 0, [], [], []⟩

inductive ProcessList
  | inUse
  | free
  deriving DecidableEq

structure ServiceInfo where
  name : Nat → UInt8
  clientPort : Handle
  pid : UInt32
  isNamedPort : Bool

/-- What does not change after `initSystem` and the first lines of `main`. -/
structure Globals where
  resumeGetServiceHandleOrPortRegisteredSemaphore : Handle
  srvPort : Handle
  srvPmPort : Handle
  nbSection0Modules : UInt32
  isPre7x : Bool
  isPre93 : Bool

/-- What the history variables record. -/
structure History where
  /-- The last command received from a session. -/
  sent : Nat → Words
  /-- Every session moved to the wake-up list. -/
  woken : List Nat
  /-- Every session taken from the wake-up list. -/
  resumed : List Nat

/-- The state of sm; `servicesInfo` holds the `nbServices` live entries. -/
structure State where
  kernel : Kernel
  cmdbuf : Words
  replyTarget : Handle
  sessionDataPool : Nat → SessionData
  sessionLists : Lanes SessionList Nat
  servicesInfo : List ServiceInfo
  processDataPool : Nat → ProcessData
  processLists : Lanes ProcessList Nat
  history : History

namespace State

/-- Static memory, with no handle open. -/
def zero : State where
  kernel := fun _ => none
  cmdbuf := fun _ => 0
  replyTarget := 0
  sessionDataPool := fun _ => .zero
  sessionLists := fun _ => []
  servicesInfo := []
  processDataPool := fun _ => .zero
  processLists := fun _ => []
  history := ⟨fun _ _ => 0, [], []⟩

def setSession (s : State) (a : Nat) (d : SessionData) : State :=
  { s with sessionDataPool := fun b => if b = a then d else s.sessionDataPool b }

def setProcess (s : State) (a : Nat) (d : ProcessData) : State :=
  { s with processDataPool := fun b => if b = a then d else s.processDataPool b }

/-- `moveNode` on a session. -/
def moveSession (s : State) (a : Nat) (dst : SessionList) (back : Bool) : State :=
  { s with sessionLists := s.sessionLists.move a dst back }

/-- `moveNode` on a process. -/
def moveProcess (s : State) (a : Nat) (dst : ProcessList) (back : Bool) : State :=
  { s with processLists := s.processLists.move a dst back }

end State

end Omiiba.Sm
