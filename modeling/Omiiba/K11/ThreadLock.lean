/-
How Rosalina stops the threads of other processes, after synchronization.c, svc.c and KernelSetState.c: passes over all
threads when a group is locked or unlocked, and a look at the thread whenever a system call returns.
-/
import Omiiba.Lib.Bits
import Omiiba.Lib.System

namespace Omiiba.K11

/-! ## Threads -/

/-- What is asked of a process: its id and the title id of its code. -/
structure KProcess where
  id : UInt32
  titleId : UInt64
  deriving DecidableEq

/-- The upper half of the title id. -/
def KProcess.highTitleId (process : KProcess) : UInt32 := (process.titleId >>> 32).toUInt32

/-- The lower half of the title id, without the bits of N3DS and SAFE_FIRM titles. -/
def KProcess.lowTitleId (process : KProcess) : UInt32 :=
  (process.titleId &&& (~~~(0xF0000001 : UInt32)).toUInt64).toUInt32

structure KThread where
  ownerProcess : Option KProcess
  schedulingMask : UInt8
  shallTerminate : Bool
  deriving DecidableEq

namespace KThread

variable (t : KThread)

/-- The bit 0x40 of the scheduling mask. -/
def locked : Bool := t.schedulingMask &&& 0x40 ≠ 0

def terminating : Bool := t.schedulingMask &&& 0xF = 2

/-- `rosalinaRescheduleThread`. -/
def reschedule (lock : Bool) : KThread :=
  { t with schedulingMask := if lock then t.schedulingMask ||| 0x40 else t.schedulingMask &&& ~~~0x40 }

end KThread

/-- `rosalinaThreadLockPredicate`, with `nbSection0Modules`. -/
def threadLockPredicate (nbSection0Modules : UInt32) (t : KThread) (mask : UInt32) : Bool :=
  match t.ownerProcess with
  | none => false
  | some process =>
    if process.id < nbSection0Modules then false
    else if mask &&& 1 ≠ 0 then
      if process.highTitleId ≠ 0x00040130 then true else process.lowTitleId = 0x1A02 || process.lowTitleId = 0x2702
    else if mask &&& 2 ≠ 0 then
      if process.highTitleId ≠ 0x00040130 then false else process.lowTitleId = 0x1C02
    else if mask &&& 4 ≠ 0 then
      if process.highTitleId ≠ 0x00040130 then false else process.lowTitleId = 0x1D02 || process.lowTitleId = 0x3302
    else false

/-! ## The state -/

/-- The list of threads, those that are current on a core, the owner of the mutex for synchronization, `rosalinaState`,
and the groups whose passes a call of `KernelSetState` has still to make. -/
structure ThreadLocks where
  nbSection0Modules : UInt32
  threadList : List Nat
  thread : Nat → KThread
  current : Nat → Bool
  syncThread : Option Nat
  rosalinaState : UInt32
  passes : List UInt32

namespace ThreadLocks

variable (s : ThreadLocks)

def pred (id : Nat) (mask : UInt32) : Bool := threadLockPredicate s.nbSection0Modules (s.thread id) mask

def rescheduleThread (id : Nat) (lock : Bool) : ThreadLocks :=
  { s with thread := Function.update s.thread id ((s.thread id).reschedule lock) }

/-- `rosalinaLockThread`. -/
def lockThread (id : Nat) : ThreadLocks := if s.syncThread = some id then s else s.rescheduleThread id true

/-- The first loop of `rosalinaLockThreads`, over the threads that are left; if it has come to current ones. -/
def lockOthers (mask : UInt32) : ThreadLocks → List Nat → Bool × ThreadLocks
  | s, [] => (false, s)
  | s, id :: ids =>
    if !s.pred id mask then lockOthers mask s ids
    else if s.current id then (true, (lockOthers mask s ids).2)
    else lockOthers mask (s.lockThread id) ids

/-- Its second loop. -/
def lockRest (mask : UInt32) : ThreadLocks → List Nat → ThreadLocks
  | s, [] => s
  | s, id :: ids =>
    if !s.pred id mask then lockRest mask s ids
    else lockRest mask (if !(s.thread id).locked then s.lockThread id else s) ids

/-- `rosalinaLockThreads`. -/
def lockThreads (mask : UInt32) : ThreadLocks :=
  let (currentThreadsFound, s) := lockOthers mask s s.threadList
  if currentThreadsFound then lockRest mask s s.threadList else s

/-- `rosalinaUnlockThreads`, over the threads that are left. -/
def unlockAll (mask : UInt32) : ThreadLocks → List Nat → ThreadLocks
  | s, [] => s
  | s, id :: ids =>
    if (s.thread id).terminating then unlockAll mask s ids
    else unlockAll mask (if (s.thread id).locked && s.pred id mask then s.rescheduleThread id false else s) ids

def unlockThreads (mask : UInt32) : ThreadLocks := unlockAll mask s s.threadList

/-- `postprocessSvc`, of a thread that is current. -/
def postprocessSvc (id : Nat) : ThreadLocks :=
  if !(s.thread id).shallTerminate && s.pred id (s.rosalinaState &&& 5) then s.rescheduleThread id true else s

end ThreadLocks

/-! ## Runs -/

/-- A call of `KernelSetState` of type 0x10000 begins, or makes the pass for the next group; a thread is made, is gone, or
returns from a system call; or the kernel does its other work with the threads. -/
inductive ThreadLocksInput
  | kernelSetState (varg1 : UInt32)
  | pass
  | create (id : Nat) (t : KThread)
  | exit (id : Nat)
  | svcReturn (id : Nat)
  | kernel (thread : Nat → KThread) (current : Nat → Bool) (syncThread : Option Nat)

namespace ThreadLocks

variable (s : ThreadLocks)

/-- Calls of `KernelSetState` come one after the other; a new thread is not locked, one that is terminating does not
return; and the kernel leaves the lock bit as it is. -/
def Enabled : ThreadLocksInput → Prop
  | .kernelSetState _ => s.passes = []
  | .pass => s.passes ≠ []
  | .create id t => id ∉ s.threadList ∧ t.locked = false
  | .exit id => id ∈ s.threadList
  | .svcReturn id => id ∈ s.threadList ∧ (s.thread id).terminating = false
  | .kernel thread _ _ => ∀ id, (thread id).ownerProcess = (s.thread id).ownerProcess ∧
      (thread id).locked = (s.thread id).locked ∧ ((s.thread id).terminating = true → (thread id).terminating = true)

def step : ThreadLocksInput → ThreadLocks
  | .kernelSetState varg1 =>
    { s with rosalinaState := s.rosalinaState ^^^ varg1, passes := [4, 2, 1].filter fun v => varg1 &&& v ≠ 0 }
  | .pass =>
    match s.passes with
    | [] => s
    | v :: passes =>
      { (if s.rosalinaState &&& v ≠ 0 then s.lockThreads v else s.unlockThreads v) with passes := passes }
  | .create id t => { s with threadList := s.threadList ++ [id], thread := Function.update s.thread id t }
  | .exit id => { s with threadList := s.threadList.erase id }
  | .svcReturn id => s.postprocessSvc id
  | .kernel thread current syncThread => { s with thread := thread, current := current, syncThread := syncThread }

def Init : Prop := s.threadList = [] ∧ s.rosalinaState = 0 ∧ s.passes = []

end ThreadLocks

def threadLocksSystem : System ThreadLocks ThreadLocksInput :=
  .guarded ThreadLocks.Init ThreadLocks.Enabled fun s input => some (s.step input)

/-! ## Groups -/

/-- The group of a thread: 1, 2 or 4, or 0 for none. -/
def groupOf (nbSection0Modules : UInt32) (t : KThread) : Nat :=
  if threadLockPredicate nbSection0Modules t 1 then 1
  else if threadLockPredicate nbSection0Modules t 2 then 2
  else if threadLockPredicate nbSection0Modules t 4 then 4
  else 0

/-- The test that the predicate makes of a title id for each group. -/
def KProcess.inGroup (process : KProcess) : Nat → Bool
  | 1 => if process.highTitleId ≠ 0x00040130 then true else process.lowTitleId = 0x1A02 || process.lowTitleId = 0x2702
  | 2 => if process.highTitleId ≠ 0x00040130 then false else process.lowTitleId = 0x1C02
  | 4 => if process.highTitleId ≠ 0x00040130 then false else process.lowTitleId = 0x1D02 || process.lowTitleId = 0x3302
  | _ => false

/-- No title id is in two groups. -/
theorem KProcess.inGroup_unique {process : KProcess} {v w : Nat} (hv : process.inGroup v = true)
    (hw : process.inGroup w = true) : v = w := by
  unfold KProcess.inGroup at hv hw
  by_cases hhigh : process.highTitleId ≠ 0x00040130
  · simp only [if_pos hhigh] at hv hw
    split at hv <;> split at hw <;> simp_all
  · simp only [if_neg hhigh] at hv hw
    generalize process.lowTitleId = low at hv hw
    split at hv <;> split at hw <;> simp_all <;> rcases hv with rfl | rfl <;> simp_all

section

variable {nb : UInt32} {t : KThread} {process : KProcess}

theorem threadLockPredicate_none (h : t.ownerProcess = none) (mask : UInt32) : threadLockPredicate nb t mask = false := by
  unfold threadLockPredicate
  rw [h]

theorem threadLockPredicate_module (h : t.ownerProcess = some process) (hmodule : process.id < nb) (mask : UInt32) :
    threadLockPredicate nb t mask = false := by
  unfold threadLockPredicate
  rw [h]
  exact if_pos hmodule

/-- The predicate asks for the lowest group of the mask only. -/
theorem threadLockPredicate_some (h : t.ownerProcess = some process) (hother : ¬ process.id < nb) (mask : UInt32) :
    threadLockPredicate nb t mask =
      if mask &&& 1 ≠ 0 then process.inGroup 1 else if mask &&& 2 ≠ 0 then process.inGroup 2
      else if mask &&& 4 ≠ 0 then process.inGroup 4 else false := by
  unfold threadLockPredicate
  rw [h]
  exact if_neg hother

theorem groupOf_eq_zero (h : ∀ mask, threadLockPredicate nb t mask = false) : groupOf nb t = 0 := by
  simp [groupOf, h]

theorem groupOf_eq_iff (h : t.ownerProcess = some process) (hother : ¬ process.id < nb) {v : Nat} (hv : v ≠ 0) :
    groupOf nb t = v ↔ process.inGroup v = true := by
  have h1 := threadLockPredicate_some h hother 1
  have h2 := threadLockPredicate_some h hother 2
  have h4 := threadLockPredicate_some h hother 4
  rw [if_pos (by decide)] at h1
  rw [if_neg (by decide), if_pos (by decide)] at h2
  rw [if_neg (by decide), if_neg (by decide), if_pos (by decide)] at h4
  unfold groupOf
  rw [h1, h2, h4]
  constructor
  · intro hgroup
    split_ifs at hgroup with hone htwo hfour
    · exact hgroup ▸ hone
    · exact hgroup ▸ htwo
    · exact hgroup ▸ hfour
    · exact absurd hgroup.symm hv
  · intro hin
    split_ifs with hone htwo hfour
    · exact KProcess.inGroup_unique hone hin
    · exact KProcess.inGroup_unique htwo hin
    · exact KProcess.inGroup_unique hfour hin
    · unfold KProcess.inGroup at hin
      split at hin
      · exact absurd hin hone
      · exact absurd hin htwo
      · exact absurd hin hfour
      · cases hin

end

theorem threadLockPredicate_iff (nb : UInt32) (t : KThread) (mask : UInt32) : threadLockPredicate nb t mask = true ↔
    (mask &&& 1 ≠ 0 ∧ groupOf nb t = 1) ∨ (mask &&& 1 = 0 ∧ mask &&& 2 ≠ 0 ∧ groupOf nb t = 2) ∨
      (mask &&& 1 = 0 ∧ mask &&& 2 = 0 ∧ mask &&& 4 ≠ 0 ∧ groupOf nb t = 4) := by
  cases hprocess : t.ownerProcess with
  | none =>
    have hfalse : ∀ mask, threadLockPredicate nb t mask = false := threadLockPredicate_none hprocess
    simp [hfalse, groupOf_eq_zero hfalse]
  | some process =>
    by_cases hmodule : process.id < nb
    · have hfalse := threadLockPredicate_module hprocess hmodule
      simp [hfalse, groupOf_eq_zero hfalse]
    · rw [threadLockPredicate_some hprocess hmodule, groupOf_eq_iff hprocess hmodule (by decide),
        groupOf_eq_iff hprocess hmodule (by decide), groupOf_eq_iff hprocess hmodule (by decide)]
      by_cases h1 : mask &&& 1 = 0
      · by_cases h2 : mask &&& 2 = 0
        · by_cases h4 : mask &&& 4 = 0 <;> simp [h1, h2, h4]
        · simp [h1, h2]
      · simp [h1]

/-! ### Combined masks -/

/-- `1 << b`. -/
def oneBit (b : Nat) : UInt32 := 1 <<< b.toUInt32

/-- The predicate of one bit of the mask or another. -/
def lockedByBits (nb : UInt32) (t : KThread) (mask : UInt32) : Bool :=
  (List.range 32).any fun b => mask &&& oneBit b ≠ 0 && threadLockPredicate nb t (oneBit b)

/-- A mask has no group below that of the thread, if it has that. -/
def MaskFits (group : Nat) (mask : UInt32) : Prop :=
  (group = 2 → mask &&& 2 ≠ 0 → mask &&& 1 = 0) ∧ (group = 4 → mask &&& 4 ≠ 0 → mask &&& 1 = 0 ∧ mask &&& 2 = 0)

theorem threadLockPredicate_bit (nb : UInt32) (t : KThread) {b : Nat} (hb : b < 32) :
    threadLockPredicate nb t (oneBit b) = true ↔
      (b = 0 ∧ groupOf nb t = 1) ∨ (b = 1 ∧ groupOf nb t = 2) ∨ (b = 2 ∧ groupOf nb t = 4) := by
  have h1 : ∀ b < 32, oneBit b &&& 1 = 0 ↔ b ≠ 0 := by decide
  have h2 : ∀ b < 32, oneBit b &&& 2 = 0 ↔ b ≠ 1 := by decide
  have h4 : ∀ b < 32, oneBit b &&& 4 = 0 ↔ b ≠ 2 := by decide
  rw [threadLockPredicate_iff, Ne, Ne, Ne, h1 b hb, h2 b hb, h4 b hb]
  omega

theorem lockedByBits_iff (nb : UInt32) (t : KThread) (mask : UInt32) : lockedByBits nb t mask = true ↔
    (mask &&& 1 ≠ 0 ∧ groupOf nb t = 1) ∨ (mask &&& 2 ≠ 0 ∧ groupOf nb t = 2) ∨
      (mask &&& 4 ≠ 0 ∧ groupOf nb t = 4) := by
  unfold lockedByBits
  rw [List.any_eq_true]
  constructor
  · rintro ⟨b, hb, hlocked⟩
    rw [Bool.and_eq_true, decide_eq_true_eq, threadLockPredicate_bit nb t (List.mem_range.mp hb)] at hlocked
    obtain ⟨hmask, hbit⟩ := hlocked
    rcases hbit with ⟨rfl, hgroup⟩ | ⟨rfl, hgroup⟩ | ⟨rfl, hgroup⟩
    · exact .inl ⟨hmask, hgroup⟩
    · exact .inr (.inl ⟨hmask, hgroup⟩)
    · exact .inr (.inr ⟨hmask, hgroup⟩)
  · have hbit : ∀ b < 3, mask &&& oneBit b ≠ 0 → threadLockPredicate nb t (oneBit b) = true →
        ∃ b ∈ List.range 32, (decide (mask &&& oneBit b ≠ 0) && threadLockPredicate nb t (oneBit b)) = true := by
      intro b hb hmask hpred
      exact ⟨b, List.mem_range.mpr (by omega), by rw [hpred, Bool.and_true]; exact decide_eq_true hmask⟩
    rintro (⟨hmask, hgroup⟩ | ⟨hmask, hgroup⟩ | ⟨hmask, hgroup⟩)
    · exact hbit 0 (by omega) hmask ((threadLockPredicate_bit nb t (by omega)).mpr (.inl ⟨rfl, hgroup⟩))
    · exact hbit 1 (by omega) hmask ((threadLockPredicate_bit nb t (by omega)).mpr (.inr (.inl ⟨rfl, hgroup⟩)))
    · exact hbit 2 (by omega) hmask ((threadLockPredicate_bit nb t (by omega)).mpr (.inr (.inr ⟨rfl, hgroup⟩)))

/-- The predicate of a mask is that of its bits exactly if the mask fits. -/
theorem predicate_eq_bits_iff (nb : UInt32) (t : KThread) (mask : UInt32) :
    threadLockPredicate nb t mask = lockedByBits nb t mask ↔ MaskFits (groupOf nb t) mask := by
  rw [Bool.eq_iff_iff, threadLockPredicate_iff, lockedByBits_iff]
  unfold MaskFits
  grind

/-- One of the three groups, as a mask. -/
def IsGroup (v : UInt32) : Prop := v = 1 ∨ v = 2 ∨ v = 4

/-- A mask of one group asks for that group. -/
theorem threadLockPredicate_group (nb : UInt32) (t : KThread) {v : UInt32} (hv : IsGroup v) :
    threadLockPredicate nb t v = true ↔ groupOf nb t = v.toNat := by
  rcases hv with rfl | rfl | rfl
  · refine (threadLockPredicate_bit nb t (b := 0) (by decide)).trans ?_
    show _ ↔ groupOf nb t = 1
    omega
  · refine (threadLockPredicate_bit nb t (b := 1) (by decide)).trans ?_
    show _ ↔ groupOf nb t = 2
    omega
  · refine (threadLockPredicate_bit nb t (b := 2) (by decide)).trans ?_
    show _ ↔ groupOf nb t = 4
    omega

/-- No thread is in two groups. -/
theorem groups_disjoint (nb : UInt32) (t : KThread) {v w : UInt32} (hv : IsGroup v) (hw : IsGroup w)
    (hpv : threadLockPredicate nb t v = true) (hpw : threadLockPredicate nb t w = true) : v = w := by
  rw [threadLockPredicate_group nb t hv] at hpv
  rw [threadLockPredicate_group nb t hw] at hpw
  exact UInt32.toNat_inj.mp (hpv.symm.trans hpw)

/-! ## Passes -/

namespace KThread

variable (t : KThread)

theorem locked_reschedule (lock : Bool) : (t.reschedule lock).locked = lock := by
  cases lock with
  | true =>
    refine decide_eq_true fun hzero => ?_
    have hbit : ((t.schedulingMask ||| 0x40) &&& 0x40).toBitVec.getLsbD 6 = false := by
      replace hzero : (t.schedulingMask ||| 0x40) &&& 0x40 = 0 := hzero
      rw [hzero]
      rfl
    simp at hbit
  | false =>
    refine decide_eq_false (not_not.mpr ?_)
    show (t.schedulingMask &&& ~~~0x40) &&& 0x40 = 0
    rw [UInt8.and_assoc]
    exact UInt8.and_zero

@[simp] theorem terminating_reschedule (lock : Bool) : (t.reschedule lock).terminating = t.terminating := by
  cases lock with
  | true =>
    show decide ((t.schedulingMask ||| 0x40) &&& 0xF = 2) = _
    rw [Bits.or_and, show (0x40 : UInt8) &&& 0xF = 0 from rfl, UInt8.or_zero]
    rfl
  | false =>
    show decide ((t.schedulingMask &&& ~~~0x40) &&& 0xF = 2) = _
    rw [UInt8.and_assoc]
    rfl

theorem reschedule_reschedule (lock : Bool) : (t.reschedule lock).reschedule lock = t.reschedule lock := by
  unfold reschedule
  cases lock with
  | true => simp only [if_true, UInt8.or_assoc, UInt8.or_self]
  | false =>
    simp only [Bool.false_eq_true, if_false, UInt8.and_assoc, UInt8.and_self]

end KThread

theorem threadLockPredicate_congr {nb : UInt32} {t t' : KThread} (h : t'.ownerProcess = t.ownerProcess) (mask : UInt32) :
    threadLockPredicate nb t' mask = threadLockPredicate nb t mask := by
  unfold threadLockPredicate
  rw [h]

namespace ThreadLocks

/-- What a pass does: threads of the group are locked or unlocked, and all else is as it was. -/
structure Changes (mask : UInt32) (lock : Bool) (s s' : ThreadLocks) : Prop where
  frame : s' = { s with thread := s'.thread }
  each : ∀ id, s'.thread id = s.thread id ∨ s.pred id mask = true ∧ s'.thread id = (s.thread id).reschedule lock

variable {mask : UInt32} {lock : Bool} {s s' s'' : ThreadLocks}

theorem Changes.refl (mask : UInt32) (lock : Bool) (s : ThreadLocks) : Changes mask lock s s := ⟨rfl, fun _ => .inl rfl⟩

theorem Changes.pred_eq (h : Changes mask lock s s') (id : Nat) (mask' : UInt32) : s'.pred id mask' = s.pred id mask' := by
  have hnb : s'.nbSection0Modules = s.nbSection0Modules := by rw [h.frame]
  unfold pred
  rw [hnb]
  apply threadLockPredicate_congr
  rcases h.each id with heq | ⟨-, heq⟩ <;> rw [heq]
  rfl

theorem Changes.trans (h : Changes mask lock s s') (h' : Changes mask lock s' s'') : Changes mask lock s s'' := by
  refine ⟨?_, fun id => ?_⟩
  · rw [h'.frame, h.frame]
  · rcases h.each id with heq | ⟨hpred, heq⟩
    · rcases h'.each id with heq' | ⟨hpred', heq'⟩
      · exact .inl (heq'.trans heq)
      · exact .inr ⟨h.pred_eq id mask ▸ hpred', heq'.trans (by rw [heq])⟩
    · rcases h'.each id with heq' | ⟨-, heq'⟩
      · exact .inr ⟨hpred, heq'.trans heq⟩
      · refine .inr ⟨hpred, ?_⟩
        rw [heq', heq, KThread.reschedule_reschedule]

theorem changes_reschedule {id : Nat} (hpred : s.pred id mask = true) (lock : Bool) :
    Changes mask lock s (s.rescheduleThread id lock) := by
  refine ⟨rfl, fun j => ?_⟩
  rcases eq_or_ne j id with rfl | hne
  · exact .inr ⟨hpred, Function.update_self ..⟩
  · exact .inl (Function.update_of_ne hne ..)

theorem changes_lockThread {id : Nat} (hpred : s.pred id mask = true) : Changes mask true s (s.lockThread id) := by
  unfold lockThread
  split
  · exact .refl _ _ _
  · exact changes_reschedule hpred true

theorem changes_lockOthers (ids : List Nat) (s : ThreadLocks) : Changes mask true s (lockOthers mask s ids).2 := by
  induction ids generalizing s with
  | nil => exact .refl _ _ _
  | cons id ids ih =>
    unfold lockOthers
    split
    · exact ih s
    · rename_i hpred
      split
      · exact ih s
      · exact (changes_lockThread (by simpa using hpred)).trans (ih _)

theorem changes_lockRest (ids : List Nat) (s : ThreadLocks) : Changes mask true s (lockRest mask s ids) := by
  induction ids generalizing s with
  | nil => exact .refl _ _ _
  | cons id ids ih =>
    unfold lockRest
    split
    · exact ih s
    · rename_i hpred
      refine Changes.trans ?_ (ih _)
      split
      · exact changes_lockThread (by simpa using hpred)
      · exact .refl _ _ _

/-- The pass that locks a group. -/
theorem changes_lockThreads (mask : UInt32) (s : ThreadLocks) : Changes mask true s (s.lockThreads mask) := by
  unfold lockThreads
  have hfirst : Changes mask true s (lockOthers mask s s.threadList).2 := changes_lockOthers _ _
  dsimp only
  split
  · exact hfirst.trans (changes_lockRest _ _)
  · exact hfirst

theorem changes_unlockAll (ids : List Nat) (s : ThreadLocks) : Changes mask false s (unlockAll mask s ids) := by
  induction ids generalizing s with
  | nil => exact .refl _ _ _
  | cons id ids ih =>
    unfold unlockAll
    split
    · exact ih s
    · refine Changes.trans ?_ (ih _)
      split
      · rename_i hboth
        rw [Bool.and_eq_true] at hboth
        exact changes_reschedule hboth.2 false
      · exact .refl _ _ _

theorem Changes.terminating_eq (h : Changes mask lock s s') (id : Nat) :
    (s'.thread id).terminating = (s.thread id).terminating := by
  rcases h.each id with heq | ⟨-, heq⟩ <;> rw [heq]
  exact KThread.terminating_reschedule ..

/-- A thread that is not locked stays so. -/
theorem Changes.unlocked (h : Changes mask false s s') {id : Nat} (hid : (s.thread id).locked = false) :
    (s'.thread id).locked = false := by
  rcases h.each id with heq | ⟨-, heq⟩ <;> rw [heq]
  · exact hid
  · exact KThread.locked_reschedule _ false

/-- The pass that unlocks a group reaches each thread that is not terminating. -/
theorem unlockAll_unlocked (ids : List Nat) (s : ThreadLocks) {id : Nat} (hid : id ∈ ids)
    (halive : (s.thread id).terminating = false) (hpred : s.pred id mask = true) :
    ((unlockAll mask s ids).thread id).locked = false := by
  induction ids generalizing s with
  | nil => cases hid
  | cons j ids ih =>
    unfold unlockAll
    rcases List.mem_cons.mp hid with rfl | hrest
    · rw [halive, if_neg Bool.false_ne_true]
      refine (changes_unlockAll ids _).unlocked ?_
      split
      · exact (congrArg KThread.locked (Function.update_self ..)).trans (KThread.locked_reschedule _ false)
      · rename_i hnot
        rw [hpred, Bool.and_true] at hnot
        exact Bool.not_eq_true _ ▸ hnot
    · split
      · exact ih s hrest halive hpred
      · refine ih _ hrest ?_ ?_
        · split
          · rename_i hboth
            rw [Bool.and_eq_true] at hboth
            rw [(changes_reschedule hboth.2 false).terminating_eq]
            exact halive
          · exact halive
        · split
          · rename_i hboth
            rw [Bool.and_eq_true] at hboth
            rw [(changes_reschedule hboth.2 false).pred_eq]
            exact hpred
          · exact hpred

/-! ## Runs -/

variable (s)

/-- A thread that returns from a system call: if its group is locked and the thread is not yet, then it shall not
terminate, and it is not of group 4 with group 1 locked as well; if its group is being unlocked, the pass has been made. -/
def ReturnFits (id : Nat) (v : UInt32) : Prop :=
  (s.rosalinaState &&& v ≠ 0 → (s.thread id).locked = true ∨
    (s.thread id).shallTerminate = false ∧ ¬ (v = 4 ∧ s.rosalinaState &&& 1 ≠ 0)) ∧
  (s.rosalinaState &&& v = 0 → v ∈ s.passes → (s.thread id).locked = false)

/-- The predicate is that of its bits exactly if the mask fits; no thread is in two groups; a call makes passes for the
groups it toggles only, and a pass changes only threads of its group; and a thread of group 1 or 4 that returns from a system call is locked just when its group is, exactly if
that fits. -/
structure LocksThreads (s : ThreadLocks) : Prop where
  bits : ∀ t mask, threadLockPredicate s.nbSection0Modules t mask = lockedByBits s.nbSection0Modules t mask ↔
    MaskFits (groupOf s.nbSection0Modules t) mask
  disjoint : ∀ t v w, IsGroup v → IsGroup w → threadLockPredicate s.nbSection0Modules t v = true →
    threadLockPredicate s.nbSection0Modules t w = true → v = w
  toggle : ∀ varg1, (s.step (.kernelSetState varg1)).thread = s.thread ∧
    ∀ v ∈ (s.step (.kernelSetState varg1)).passes, varg1 &&& v ≠ 0
  pass : ∀ v passes, s.passes = v :: passes → ∀ id, s.pred id v = false → (s.step .pass).thread id = s.thread id
  returns : ∀ id, s.Enabled (.svcReturn id) → ∀ v, v = 1 ∨ v = 4 → s.pred id v = true →
    ((((s.step (.svcReturn id)).thread id).locked = true ↔ s.rosalinaState &&& v ≠ 0) ↔ s.ReturnFits id v)

/-- A thread that is locked is terminating, or its group is locked or about to be unlocked. -/
structure Good (s : ThreadLocks) : Prop where
  groups : ∀ v ∈ s.passes, IsGroup v
  locked : ∀ id ∈ s.threadList, (s.thread id).terminating = false → (s.thread id).locked = true →
    ∃ v, IsGroup v ∧ s.pred id v = true ∧ (s.rosalinaState &&& v ≠ 0 ∨ v ∈ s.passes)

variable {s}

theorem and_five_and {x v : UInt32} (hv : v = 1 ∨ v = 4) : (x &&& 5) &&& v = x &&& v := by
  rw [UInt32.and_assoc]
  rcases hv with rfl | rfl <;> rfl

theorem and_five_and_two (x : UInt32) : (x &&& 5) &&& 2 = 0 := by
  rw [UInt32.and_assoc]
  exact UInt32.and_zero

/-- What the combined mask tells of a thread of group 1 or 4. -/
theorem pred_state_iff {id : Nat} {v : UInt32} (hv : v = 1 ∨ v = 4) (hpred : s.pred id v = true) :
    s.pred id (s.rosalinaState &&& 5) = true ↔ s.rosalinaState &&& v ≠ 0 ∧ ¬ (v = 4 ∧ s.rosalinaState &&& 1 ≠ 0) := by
  have hgroup := (threadLockPredicate_group s.nbSection0Modules (s.thread id) (by unfold IsGroup; tauto)).mp hpred
  unfold pred
  rw [threadLockPredicate_iff, and_five_and (.inl rfl), and_five_and (.inr rfl), and_five_and_two, hgroup]
  rcases hv with rfl | rfl
  · simp
  · simp [and_comm]

/-- A thread that the combined mask locks is of a group that is locked. -/
theorem exists_group_of_pred_state {id : Nat} (h : s.pred id (s.rosalinaState &&& 5) = true) :
    ∃ v, IsGroup v ∧ s.pred id v = true ∧ s.rosalinaState &&& v ≠ 0 := by
  unfold pred at h ⊢
  rw [threadLockPredicate_iff, and_five_and (.inl rfl), and_five_and (.inr rfl), and_five_and_two] at h
  rcases h with ⟨hstate, hgroup⟩ | ⟨-, htwo, -⟩ | ⟨-, -, hstate, hgroup⟩
  · exact ⟨1, .inl rfl, (threadLockPredicate_group _ _ (.inl rfl)).mpr hgroup, hstate⟩
  · exact absurd rfl htwo
  · exact ⟨4, .inr (.inr rfl), (threadLockPredicate_group _ _ (.inr (.inr rfl))).mpr hgroup, hstate⟩

theorem Good.toggle (h : s.Good) {varg1 : UInt32} (henabled : s.Enabled (.kernelSetState varg1)) :
    (s.step (.kernelSetState varg1)).Good := by
  have hnone : s.passes = [] := henabled
  refine ⟨fun v hv => ?_, fun id hid halive hlocked => ?_⟩
  · have hmem := List.mem_of_mem_filter hv
    simp only [List.mem_cons, List.not_mem_nil, or_false] at hmem
    unfold IsGroup
    tauto
  · obtain ⟨v, hv, hpred, hstate⟩ := h.locked id hid halive hlocked
    rw [hnone] at hstate
    replace hstate := hstate.resolve_right List.not_mem_nil
    refine ⟨v, hv, hpred, ?_⟩
    by_cases hbit : varg1 &&& v = 0
    · left
      show (s.rosalinaState ^^^ varg1) &&& v ≠ 0
      rw [Bits.xor_and, hbit, UInt32.xor_zero]
      exact hstate
    · right
      refine List.mem_filter.mpr ⟨?_, decide_eq_true hbit⟩
      rcases hv with rfl | rfl | rfl <;> decide

theorem step_pass {v : UInt32} {passes : List UInt32} (hpasses : s.passes = v :: passes) : s.step .pass =
    { (if s.rosalinaState &&& v ≠ 0 then s.lockThreads v else s.unlockThreads v) with passes := passes } := by
  unfold step
  rw [hpasses]

/-- A pass over the threads keeps what is known, if what is locked after it is of the group that is on, or was locked before
and is not of the group that is off. -/
theorem Good.changed (h : s.Good) {v : UInt32} {passes : List UInt32} (hpasses : s.passes = v :: passes) {lock : Bool}
    {s' : ThreadLocks} (hchanges : Changes v lock s s')
    (hlocked : ∀ id ∈ s.threadList, (s.thread id).terminating = false → (s'.thread id).locked = true →
      (s.rosalinaState &&& v ≠ 0 ∧ s.pred id v = true) ∨
        (s.thread id).locked = true ∧ (s.rosalinaState &&& v ≠ 0 ∨ ¬ s.pred id v = true)) :
    Good { s' with passes := passes } := by
  have hgroups : ∀ w ∈ passes, IsGroup w := fun w hw => h.groups w (hpasses ▸ List.mem_cons_of_mem v hw)
  have hv : IsGroup v := h.groups v (hpasses ▸ List.mem_cons_self)
  have hlist : s'.threadList = s.threadList := by rw [hchanges.frame]
  have hrosalina : s'.rosalinaState = s.rosalinaState := by rw [hchanges.frame]
  refine ⟨hgroups, fun id hid halive hlock => ?_⟩
  replace hid : id ∈ s.threadList := hlist ▸ hid
  replace halive : (s'.thread id).terminating = false := halive
  replace hlock : (s'.thread id).locked = true := hlock
  rw [hchanges.terminating_eq] at halive
  show ∃ w, IsGroup w ∧ s'.pred id w = true ∧ (s'.rosalinaState &&& w ≠ 0 ∨ w ∈ passes)
  simp only [hchanges.pred_eq, hrosalina]
  rcases hlocked id hid halive hlock with ⟨hon, hpred⟩ | ⟨hbefore, hstays⟩
  · exact ⟨v, hv, hpred, .inl hon⟩
  · obtain ⟨w, hw, hpred, hwhy⟩ := h.locked id hid halive hbefore
    refine ⟨w, hw, hpred, ?_⟩
    rw [hpasses, List.mem_cons] at hwhy
    rcases hwhy with hon | rfl | hrest
    · exact .inl hon
    · exact .inl (hstays.resolve_right fun hnot => hnot hpred)
    · exact .inr hrest

theorem Good.pass (h : s.Good) {v : UInt32} {passes : List UInt32} (hpasses : s.passes = v :: passes) :
    (s.step .pass).Good := by
  rw [step_pass hpasses]
  by_cases hstate : s.rosalinaState &&& v ≠ 0
  · -- the group is locked: what is locked now is of this group or was locked before
    rw [if_pos hstate]
    have hchanges := changes_lockThreads v s
    refine h.changed hpasses hchanges fun id _ _ hlocked => ?_
    rcases hchanges.each id with heq | ⟨hpred, -⟩
    · rw [heq] at hlocked
      exact .inr ⟨hlocked, .inl hstate⟩
    · exact .inl ⟨hstate, hpred⟩
  · -- the group is unlocked: none of its threads is locked any more
    rw [if_neg hstate]
    have hchanges : Changes v false s (unlockAll v s s.threadList) := changes_unlockAll _ _
    refine h.changed hpasses hchanges fun id hid halive hlocked => ?_
    replace hlocked : ((unlockAll v s s.threadList).thread id).locked = true := hlocked
    have hnotpred : ¬ s.pred id v = true := by
      intro hpred
      rw [unlockAll_unlocked _ _ hid halive hpred] at hlocked
      cases hlocked
    have heq := (hchanges.each id).resolve_right fun hboth => hnotpred hboth.1
    rw [heq] at hlocked
    exact .inr ⟨hlocked, .inr hnotpred⟩

theorem Good.svcReturn (h : s.Good) (id : Nat) : (s.step (.svcReturn id)).Good := by
  show (s.postprocessSvc id).Good
  unfold postprocessSvc
  split
  · rename_i hlock
    rw [Bool.and_eq_true] at hlock
    obtain ⟨v, hv, hpred, hstate⟩ := exists_group_of_pred_state hlock.2
    have hchanges := changes_reschedule hpred true
    refine ⟨h.groups, fun j hj halive hlocked => ?_⟩
    rw [hchanges.terminating_eq] at halive
    simp only [hchanges.pred_eq]
    rcases eq_or_ne j id with rfl | hne
    · exact ⟨v, hv, hpred, .inl hstate⟩
    · refine h.locked j hj halive ?_
      rw [← hlocked]
      exact congrArg KThread.locked (Function.update_of_ne hne ..).symm
  · exact h

theorem Good.create (h : s.Good) {id : Nat} {t : KThread} (hnew : t.locked = false) : (s.step (.create id t)).Good := by
  refine ⟨h.groups, fun j hj halive hlocked => ?_⟩
  have hne : j ≠ id := by
    rintro rfl
    have hself : ((s.step (.create j t)).thread j).locked = t.locked := congrArg KThread.locked (Function.update_self ..)
    rw [hself, hnew] at hlocked
    cases hlocked
  have hthread : (s.step (.create id t)).thread j = s.thread j := Function.update_of_ne hne ..
  rw [hthread] at halive hlocked
  have hold : j ∈ s.threadList := (List.mem_append.mp hj).resolve_right fun hmem => hne (List.mem_singleton.mp hmem)
  obtain ⟨v, hv, hpred, hwhy⟩ := h.locked j hold halive hlocked
  refine ⟨v, hv, ?_, hwhy⟩
  unfold pred
  rw [hthread]
  exact hpred

theorem Good.kernel (h : s.Good) {thread : Nat → KThread} {current : Nat → Bool} {syncThread : Option Nat}
    (henabled : s.Enabled (.kernel thread current syncThread)) : (s.step (.kernel thread current syncThread)).Good := by
  refine ⟨h.groups, fun id hid halive hlocked => ?_⟩
  obtain ⟨howner, hsame, hterminating⟩ := henabled id
  have hold : (s.thread id).terminating = false := by
    by_contra hnot
    have hstill := hterminating (Bool.not_eq_false _ ▸ hnot)
    replace halive : (thread id).terminating = false := halive
    rw [hstill] at halive
    cases halive
  obtain ⟨v, hv, hpred, hwhy⟩ := h.locked id hid hold (hsame.symm.trans hlocked)
  exact ⟨v, hv, (threadLockPredicate_congr howner v).trans hpred, hwhy⟩

theorem Good.step (h : s.Good) {input : ThreadLocksInput} (henabled : s.Enabled input) : (s.step input).Good := by
  cases input with
  | kernelSetState varg1 => exact h.toggle henabled
  | pass =>
    cases hpasses : s.passes with
    | nil => exact absurd hpasses henabled
    | cons v passes => exact h.pass hpasses
  | create id t => exact h.create henabled.2
  | exit id => exact ⟨h.groups, fun j hj => h.locked j (List.mem_of_mem_erase hj)⟩
  | svcReturn id => exact h.svcReturn id
  | kernel thread current syncThread => exact h.kernel henabled

theorem good_of_init (h : s.Init) : s.Good := by
  obtain ⟨hlist, -, hpasses⟩ := h
  refine ⟨fun v hv => ?_, fun id hid => ?_⟩
  · rw [hpasses] at hv
    cases hv
  · rw [hlist] at hid
    cases hid

/-- A pass leaves the threads of other groups as they are. -/
theorem pass_other {v : UInt32} {passes : List UInt32} (hpasses : s.passes = v :: passes) {id : Nat}
    (hpred : s.pred id v = false) : (s.step .pass).thread id = s.thread id := by
  have hkeep : ∀ {lock : Bool} {s' : ThreadLocks}, Changes v lock s s' → s'.thread id = s.thread id := by
    intro lock s' hchanges
    refine (hchanges.each id).resolve_right fun hboth => ?_
    rw [hpred] at hboth
    exact Bool.false_ne_true hboth.1
  rw [step_pass hpasses]
  dsimp only
  split
  · exact hkeep (changes_lockThreads v s)
  · exact hkeep (changes_unlockAll _ _)

theorem locked_postprocessSvc (id : Nat) : ((s.postprocessSvc id).thread id).locked = true ↔ (s.thread id).locked = true ∨
    (s.thread id).shallTerminate = false ∧ s.pred id (s.rosalinaState &&& 5) = true := by
  unfold postprocessSvc
  split
  · rename_i hlock
    rw [Bool.and_eq_true, Bool.not_eq_true'] at hlock
    have hself : ((s.rescheduleThread id true).thread id).locked = true :=
      (congrArg KThread.locked (Function.update_self ..)).trans (KThread.locked_reschedule _ true)
    exact ⟨fun _ => .inr hlock, fun _ => hself⟩
  · rename_i hlock
    rw [Bool.and_eq_true, Bool.not_eq_true'] at hlock
    exact ⟨.inl, fun h => h.resolve_right hlock⟩

theorem Good.returns (h : s.Good) {id : Nat} (henabled : s.Enabled (.svcReturn id)) {v : UInt32} (hv : v = 1 ∨ v = 4)
    (hpred : s.pred id v = true) :
    (((s.step (.svcReturn id)).thread id).locked = true ↔ s.rosalinaState &&& v ≠ 0) ↔ s.ReturnFits id v := by
  -- a thread that is locked is so because of its own group
  have hwhy : (s.thread id).locked = true → s.rosalinaState &&& v ≠ 0 ∨ v ∈ s.passes := by
    intro hlocked
    obtain ⟨w, hw, hpredw, hwhy⟩ := h.locked id henabled.1 henabled.2 hlocked
    obtain rfl := groups_disjoint _ _ (by unfold IsGroup; tauto) hw hpred hpredw
    exact hwhy
  show (((s.postprocessSvc id).thread id).locked = true ↔ _) ↔ _
  rw [locked_postprocessSvc, pred_state_iff hv hpred]
  unfold ReturnFits
  by_cases hstate : s.rosalinaState &&& v = 0
  · simp only [hstate, ne_eq, not_true_eq_false, false_and, and_false, or_false, iff_false, false_imp_iff, true_and,
      forall_const, Bool.not_eq_true]
    constructor
    · exact fun hnot _ => hnot
    · intro hpass
      by_contra hlocked
      have hmem := (hwhy (by simpa using hlocked)).resolve_left (not_not.mpr hstate)
      exact hlocked (hpass hmem)
  · simp only [hstate, ne_eq, not_false_eq_true, true_and, iff_true, forall_const, false_imp_iff, and_true]

end ThreadLocks

/-- The lock of threads over every run of calls, passes and system calls. -/
theorem threads_locked (s : ThreadLocks) (h : threadLocksSystem.Reachable s) : s.LocksThreads := by
  have hgood : s.Good := by
    refine System.Reachable.invariant (S := threadLocksSystem) (J := ThreadLocks.Good) (fun s hs => ThreadLocks.good_of_init hs)
      (fun s input s' _ hs hstep => ?_) h
    obtain ⟨henabled, hok⟩ := hstep
    obtain rfl := Option.some.inj hok
    exact hs.step henabled
  exact ⟨fun t mask => predicate_eq_bits_iff _ t mask, fun t v w hv hw => groups_disjoint _ t hv hw,
    fun varg1 => ⟨rfl, fun v hv => of_decide_eq_true (List.mem_filter.mp hv).2⟩,
    fun v passes hpasses id hpred => ThreadLocks.pass_other hpasses hpred,
    fun id henabled v hv hpred => hgood.returns henabled hv hpred⟩

/-! ## A thread that is locked, and one that is not -/

/-- Before any thread. -/
def noThreads : ThreadLocks where
  nbSection0Modules := 6
  threadList := []
  thread := fun _ => ⟨none, 0, false⟩
  current := fun _ => false
  syncThread := none
  rosalinaState := 0
  passes := []

/-- A thread of an application. -/
def appThread : KThread := ⟨some ⟨0x20, 0x0004000000030800⟩, 1, false⟩

/-- A thread of hid. -/
def hidThread : KThread := ⟨some ⟨0x11, 0x0004013000001D02⟩, 1, false⟩

/-- Groups 1 and 4 are locked. -/
def bothLocked : ThreadLocks := ((noThreads.step (.kernelSetState 5)).step .pass).step .pass

theorem reachable_step {s : ThreadLocks} (h : threadLocksSystem.Reachable s) {input : ThreadLocksInput}
    (henabled : s.Enabled input) : threadLocksSystem.Reachable (s.step input) := h.step ⟨henabled, rfl⟩

theorem bothLocked_reachable : threadLocksSystem.Reachable bothLocked := by
  have htoggle : noThreads.Enabled (.kernelSetState 5) := rfl
  have hfour : (noThreads.step (.kernelSetState 5)).Enabled .pass := show _ ≠ [] by decide
  have hone : ((noThreads.step (.kernelSetState 5)).step .pass).Enabled .pass := show _ ≠ [] by decide
  have hinit : threadLocksSystem.Reachable noThreads := .init ⟨rfl, rfl, rfl⟩
  exact reachable_step (reachable_step (reachable_step hinit htoggle) hfour) hone

theorem created_reachable {t : KThread} (h : t.locked = false) :
    threadLocksSystem.Reachable (bothLocked.step (.create 0 t)) := by
  have hnew : 0 ∉ bothLocked.threadList := by decide
  exact reachable_step bothLocked_reachable (show bothLocked.Enabled (.create 0 t) from ⟨hnew, h⟩)

/-- A thread of an application is locked when its first system call returns. -/
theorem app_thread_locked : (bothLocked.step (.create 0 appThread)).LocksThreads ∧
    (((bothLocked.step (.create 0 appThread)).step (.svcReturn 0)).thread 0).locked = true :=
  ⟨threads_locked _ (created_reachable (by decide)), by decide +kernel⟩

/-- A thread of hid is not, though its group is locked: the combined mask asks for group 1 only. -/
theorem hid_thread_not_locked : ∃ s, threadLocksSystem.Reachable s ∧ s.Enabled (.svcReturn 0) ∧ s.pred 0 4 = true ∧
    s.rosalinaState &&& 4 ≠ 0 ∧ ((s.step (.svcReturn 0)).thread 0).locked = false ∧
    s.pred 0 5 = false ∧ lockedByBits s.nbSection0Modules (s.thread 0) 5 = true := by
  have hin : 0 ∈ (bothLocked.step (.create 0 hidThread)).threadList := by decide
  exact ⟨_, created_reachable (t := hidThread) (by decide), ⟨hin, by decide +kernel⟩, by decide +kernel, by decide +kernel,
    by decide +kernel, by decide +kernel, by decide +kernel⟩

end Omiiba.K11
