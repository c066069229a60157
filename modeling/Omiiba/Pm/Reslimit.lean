/-
The time that the application gets on core 1 when it is started, after reslimit.c.
-/
import Mathlib.Tactic

namespace Omiiba.Pm

/-! ## The table -/

/-- An entry of `g_startCpuTimeOverrides`. -/
structure CpuTimeOverride where
  titleUid : UInt32
  value : UInt32
  deriving DecidableEq

/-- `g_startCpuTimeOverrides`. -/
def startCpuTimeOverrides : List CpuTimeOverride :=
  [⟨0x205, 10000⟩, ⟨0x215, 10000⟩, ⟨0x225, 10000⟩, ⟨0x304, 10000⟩, ⟨0x32E, 10000⟩, ⟨0x334, 30⟩, ⟨0x335, 30⟩, ⟨0x336, 30⟩,
    ⟨0x348, 10000⟩, ⟨0x349, 10000⟩, ⟨0x368, 10000⟩, ⟨0x370, 10000⟩, ⟨0x389, 10000⟩, ⟨0x490, 10000⟩, ⟨0x491, 10000⟩,
    ⟨0x562, 10000⟩]

inductive SchedMode
  | multi
  | single
  deriving DecidableEq

namespace CpuTimeOverride

/-- Values from 101 to 199 are those of the mode "multi". -/
def schedMode (o : CpuTimeOverride) : SchedMode := if o.value > 100 ∧ o.value < 200 then .multi else .single

def current (o : CpuTimeOverride) : UInt32 := if o.value > 100 ∧ o.value < 200 then o.value - 100 else o.value

end CpuTimeOverride

/-- The unique id in a title id. -/
def titleUid (titleId : UInt64) : UInt32 := (titleId.toUInt32 >>> 8) &&& 0xFFFFF

/-! ## The code -/

/-- What the kernel keeps, the limit of `RESLIMIT_CPUTIME` and the scheduling mode of core 1, and the fields of `g_manager`. -/
structure CpuTime where
  limit : UInt32
  schedMode : SchedMode
  cpuTimeBase : Int8
  maxAppCpuTime : UInt8
  deriving DecidableEq

/-- What `setAppCpuTimeLimit` asks for before it sets the limit; `disableThreadRedir` is what `svcGetSystemInfo` gives, if it
succeeds. -/
structure Redirection where
  isN3ds : Bool
  redirectAppThreads : Bool
  disableThreadRedir : Option Int

/-- Threads of the application are redirected from core 1 to core 2. -/
def Redirection.redirects (env : Redirection) : Bool := env.isN3ds && env.redirectAppThreads && env.disableThreadRedir = some 0

/-- `setAppCpuTimeLimit`; a call of the kernel that failed would be a panic. -/
def setAppCpuTimeLimit (env : Redirection) (limit : UInt32) (s : CpuTime) : CpuTime :=
  if env.redirects then s else { s with limit }

/-- `CPUTIME_MULTI_MASK` and `CPUTIME_SINGLE_MASK`. -/
def SchedMode.mask : SchedMode → UInt8
  | .multi => 0x80
  | .single => 0

/-- What `setAppCpuTimeLimitAndSchedModeFromDescriptor` chooses for a title without a descriptor: `cpuTime` and
`currentValueToSet`. -/
def startCpuTime (titleId : UInt64) : UInt8 × UInt32 :=
  let uid := titleUid titleId
  match startCpuTimeOverrides.head?, startCpuTimeOverrides.getLast? with
  | some first, some last =>
    if uid ≥ first.titleUid ∧ uid ≤ last.titleUid then
      -- The loop over the table counts in a variable of its own: the index that is used behind it is still 0.
      match startCpuTimeOverrides[0]? with
      | some o => (o.schedMode.mask ||| 80, o.current)
      | none => (SchedMode.single.mask ||| 80, 0)
    else (SchedMode.single.mask ||| 80, 0)
  | _, _ => (SchedMode.single.mask ||| 80, 0)

/-- `setAppCpuTimeLimitAndSchedModeFromDescriptor`. -/
def setAppCpuTimeLimitAndSchedModeFromDescriptor (env : Redirection) (titleId : UInt64) (descriptor : UInt16) (s : CpuTime) :
    CpuTime :=
  let s := setAppCpuTimeLimit env 0 s -- remove preemption first
  let (cpuTime, currentValueToSet) := if descriptor.toUInt8 = 0 then startCpuTime titleId else (descriptor.toUInt8, 0)
  let s := { s with
    cpuTimeBase := 0
    schedMode := if cpuTime &&& SchedMode.multi.mask ≠ 0 then .multi else .single
    maxAppCpuTime := cpuTime &&& 0x7F }
  if currentValueToSet ≠ 0 then setAppCpuTimeLimit env currentValueToSet s else s

/-! ## What should be chosen -/

/-- The limit and the mode are those of the entry of the title; a title without an entry has no time. -/
def HasOverride (titleId : UInt64) (s : CpuTime) : Prop :=
  (∀ o ∈ startCpuTimeOverrides, o.titleUid = titleUid titleId → s.limit = o.current ∧ s.schedMode = o.schedMode) ∧
    ((∀ o ∈ startCpuTimeOverrides, o.titleUid ≠ titleUid titleId) → s.limit = 0)

instance (titleId : UInt64) (s : CpuTime) : Decidable (HasOverride titleId s) := inferInstanceAs (Decidable (_ ∧ _))

theorem overrides_bounds : ∀ o ∈ startCpuTimeOverrides, 0x205 ≤ o.titleUid ∧ o.titleUid ≤ 0x562 := by
  decide

/-- Of the titles of the table, those that get what the first one gets. -/
theorem overrides_first : ∀ o ∈ startCpuTimeOverrides, 10000 = o.current ∧ SchedMode.single = o.schedMode ↔ o.value = 10000 := by
  decide

theorem overrides_inj : ∀ o ∈ startCpuTimeOverrides, ∀ o' ∈ startCpuTimeOverrides, o.titleUid = o'.titleUid → o = o' := by
  decide

theorem startCpuTime_eq (titleId : UInt64) : startCpuTime titleId =
    if 0x205 ≤ titleUid titleId ∧ titleUid titleId ≤ 0x562 then (80, 10000) else (80, 0) := rfl

/-- Without redirection: the limit and the mode of a title without a descriptor. -/
theorem setFromDescriptor_eq {env : Redirection} (henv : env.redirects = false) (titleId : UInt64) {descriptor : UInt16}
    (hdescriptor : descriptor.toUInt8 = 0) (s : CpuTime) :
    setAppCpuTimeLimitAndSchedModeFromDescriptor env titleId descriptor s =
      ⟨if 0x205 ≤ titleUid titleId ∧ titleUid titleId ≤ 0x562 then 10000 else 0, .single, 0, 80⟩ := by
  unfold setAppCpuTimeLimitAndSchedModeFromDescriptor setAppCpuTimeLimit
  rw [hdescriptor, henv, if_pos rfl, startCpuTime_eq]
  by_cases hrange : 0x205 ≤ titleUid titleId ∧ titleUid titleId ≤ 0x562
  · rw [if_pos hrange, if_pos hrange]
    rfl
  · rw [if_neg hrange, if_neg hrange]
    rfl

theorem startOverride_iff {env : Redirection} (henv : env.redirects = false) (titleId : UInt64) {descriptor : UInt16}
    (hdescriptor : descriptor.toUInt8 = 0) (s : CpuTime) :
    HasOverride titleId (setAppCpuTimeLimitAndSchedModeFromDescriptor env titleId descriptor s) ↔
      (0x205 ≤ titleUid titleId ∧ titleUid titleId ≤ 0x562 →
        ∃ o ∈ startCpuTimeOverrides, o.titleUid = titleUid titleId ∧ o.value = 10000) := by
  rw [setFromDescriptor_eq henv titleId hdescriptor]
  unfold HasOverride
  by_cases hrange : 0x205 ≤ titleUid titleId ∧ titleUid titleId ≤ 0x562
  · rw [if_pos hrange]
    constructor
    · rintro ⟨hentry, hnone⟩ -
      by_contra hno
      -- an entry with another value, or none
      by_cases hall : ∀ o ∈ startCpuTimeOverrides, o.titleUid ≠ titleUid titleId
      · exact absurd (hnone hall) (by decide)
      · push Not at hall
        obtain ⟨o, ho, huid⟩ := hall
        exact hno ⟨o, ho, huid, (overrides_first o ho).mp (hentry o ho huid)⟩
    · intro hcond
      obtain ⟨o, ho, huid, hvalue⟩ := hcond hrange
      refine ⟨fun o' ho' huid' => ?_, fun hall => absurd huid (hall o ho)⟩
      rw [overrides_inj o' ho' o ho (huid'.trans huid.symm)]
      exact (overrides_first o ho).mpr hvalue
  · rw [if_neg hrange]
    refine ⟨fun _ habs => absurd habs hrange, fun _ => ⟨fun o ho huid => ?_, fun _ => rfl⟩⟩
    have hbounds := overrides_bounds o ho
    rw [huid] at hbounds
    exact absurd hbounds hrange

/-- A console that redirects nothing, and a process that had all of core 1 before. -/
def noRedirection : Redirection := ⟨false, false, none⟩

def exempted : CpuTime := ⟨10000, .multi, 0, 0⟩

/-- The first title of the table. -/
theorem startOverride_sound :
    HasOverride 0x0004000000020500 (setAppCpuTimeLimitAndSchedModeFromDescriptor noRedirection 0x0004000000020500 0 exempted) ↔
      (0x205 ≤ titleUid 0x0004000000020500 ∧ titleUid 0x0004000000020500 ≤ 0x562 →
        ∃ o ∈ startCpuTimeOverrides, o.titleUid = titleUid 0x0004000000020500 ∧ o.value = 10000) :=
  startOverride_iff rfl 0x0004000000020500 rfl exempted

/-- A title between two entries gets what the first one gets, and a title with 30 per cent gets it, too. -/
theorem between_not_zero :
    ¬HasOverride 0x0004000000030000 (setAppCpuTimeLimitAndSchedModeFromDescriptor noRedirection 0x0004000000030000 0 exempted) ∧
      ¬HasOverride 0x0004000000033400
        (setAppCpuTimeLimitAndSchedModeFromDescriptor noRedirection 0x0004000000033400 0 exempted) := by
  decide +kernel

end Omiiba.Pm
