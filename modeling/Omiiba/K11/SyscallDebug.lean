/-
The processes whose system calls are signalled to a debugger, after KernelSetState.c: a table of up to three process ids
with the masks of their system calls, and the flag that the handler of system calls looks at.
-/
import Mathlib.Data.UInt
import Omiiba.Lib.Bits
import Omiiba.Lib.Slots
import Omiiba.Lib.System

namespace Omiiba.K11

/-! ## The table -/

/-- The bits of 256 system calls. -/
abbrev SvcMask := Fin 8 → UInt32

/-- `MAX_DEBUG`. -/
def maxDebug : Nat := 3

/-- `nbEnabled`, `maskedPids`, `masks` and `svcSignalingEnabled`. -/
structure SyscallDebug where
  nbEnabled : Nat
  maskedPids : Nat → UInt32
  masks : Nat → SvcMask
  svcSignalingEnabled : UInt8

/-- `(mask[svcId / 32] >> (31 - (svcId % 32))) & 1`. -/
def SvcMask.has (mask : SvcMask) (svcId : UInt8) : Bool :=
  (mask (Fin.ofNat 8 (svcId.toNat / 32)) >>> (31 - svcId.toNat % 32).toUInt32) &&& 1 ≠ 0

inductive SyscallDebugError
  | outOfResource
  | invalidPointer
  | outOfRange
  deriving DecidableEq

namespace SyscallDebug

variable (d : SyscallDebug)

/-- The first entry of a process, or the number of entries. -/
def find (pid : UInt32) : Nat := ((List.range d.nbEnabled).find? fun id => d.maskedPids id = pid).getD d.nbEnabled

/-- `shouldSignalSyscallDebugEvent`. -/
def shouldSignal (pid : UInt32) (svcId : UInt8) : Bool :=
  let id := d.find pid
  if id = maxDebug then false else (d.masks id).has svcId

/-- `SetSyscallDebugEventMask` with `enable`; none for a mask that cannot be read. -/
def enable (pid : UInt32) (mask : Option SvcMask) : Except SyscallDebugError SyscallDebug :=
  if d.nbEnabled = maxDebug then .error .outOfResource
  else
    match mask with
    | none => .error .invalidPointer
    | some mask => .ok
      { nbEnabled := d.nbEnabled + 1
        maskedPids := Function.update d.maskedPids d.nbEnabled pid
        masks := Function.update d.masks d.nbEnabled mask
        svcSignalingEnabled := d.svcSignalingEnabled ||| 1 }

/-- `SetSyscallDebugEventMask` without `enable`. -/
def disable (pid : UInt32) : Except SyscallDebugError SyscallDebug :=
  let id := d.find pid
  if id = d.nbEnabled then .error .outOfRange
  else .ok
    { nbEnabled := d.nbEnabled - 1
      maskedPids := Slots.erase d.nbEnabled id 0 d.maskedPids
      masks := Slots.erase d.nbEnabled id 0 d.masks
      svcSignalingEnabled := d.svcSignalingEnabled &&& ~~~1 }

end SyscallDebug

/-! ## Runs -/

/-- The table, and for each process the mask of its last successful call, if that was to enable it. -/
structure SyscallDebugRun extends SyscallDebug where
  enabled : UInt32 → Option SvcMask

/-- A call to enable or to disable a process, or bit 1 of the flag, which tells of changes of the memory layout. -/
inductive SyscallDebugInput
  | enable (pid : UInt32) (mask : Option SvcMask)
  | disable (pid : UInt32)
  | layoutBit (on : Bool)

namespace SyscallDebugRun

variable (s : SyscallDebugRun)

/-- A call that fails changes nothing. -/
def step : SyscallDebugInput → SyscallDebugRun
  | .enable pid mask =>
    match s.toSyscallDebug.enable pid mask with
    | .ok d => ⟨d, Function.update s.enabled pid mask⟩
    | .error _ => s
  | .disable pid =>
    match s.toSyscallDebug.disable pid with
    | .ok d => ⟨d, Function.update s.enabled pid none⟩
    | .error _ => s
  | .layoutBit on =>
    { s with svcSignalingEnabled := if on then s.svcSignalingEnabled ||| 2 else s.svcSignalingEnabled &&& ~~~2 }

def init : SyscallDebugRun where
  nbEnabled := 0
  maskedPids := fun _ => 0
  masks := fun _ => 0
  svcSignalingEnabled := 0
  enabled := fun _ => none

/-- System calls are signalled as the last calls tell, each process has one entry, and bit 0 of the flag tells if any
process is enabled. -/
structure Signalled : Prop where
  signal : ∀ pid svcId, s.shouldSignal pid svcId = true ↔ ∃ mask, s.enabled pid = some mask ∧ mask.has svcId = true
  unique : ∀ i < s.nbEnabled, ∀ j < s.nbEnabled, s.maskedPids i = s.maskedPids j → i = j
  flag : s.svcSignalingEnabled &&& 1 ≠ 0 ↔ ∃ pid, s.enabled pid ≠ none

/-- A process that is enabled is not, or the table is full; the process that is disabled is the only one enabled, or it
is not enabled. -/
def Fits : SyscallDebugInput → Prop
  | .enable pid mask => s.enabled pid = none ∨ s.nbEnabled = maxDebug ∨ mask = none
  | .disable pid => s.enabled pid = none ∨ ∀ other, s.enabled other ≠ none → other = pid
  | .layoutBit _ => True

end SyscallDebugRun

def syscallDebugSystem : System SyscallDebugRun SyscallDebugInput :=
  .guarded (· = .init) (fun _ _ => True) fun s input => some (s.step input)

/-! ## The table and the processes -/

namespace SyscallDebug

variable {d : SyscallDebug} {pid : UInt32}

theorem find_lt_iff : d.find pid < d.nbEnabled ↔ ∃ i < d.nbEnabled, d.maskedPids i = pid := by
  unfold find
  cases hfind : (List.range d.nbEnabled).find? fun id => d.maskedPids id = pid with
  | none =>
    rw [List.find?_eq_none] at hfind
    constructor
    · exact fun h => absurd h (Nat.lt_irrefl _)
    · rintro ⟨i, hi, heq⟩
      exact absurd (decide_eq_true heq) (hfind i (List.mem_range.mpr hi))
  | some id =>
    have hmem := List.mem_range.mp (List.mem_of_find?_eq_some hfind)
    exact ⟨fun _ => ⟨id, hmem, by simpa using List.find?_some hfind⟩, fun _ => hmem⟩

theorem maskedPids_find (h : d.find pid < d.nbEnabled) : d.maskedPids (d.find pid) = pid := by
  unfold find at h ⊢
  cases hfind : (List.range d.nbEnabled).find? fun id => d.maskedPids id = pid with
  | none =>
    rw [hfind] at h
    exact absurd h (Nat.lt_irrefl _)
  | some id => exact by simpa using List.find?_some hfind

theorem find_le (d : SyscallDebug) (pid : UInt32) : d.find pid ≤ d.nbEnabled := by
  unfold find
  cases hfind : (List.range d.nbEnabled).find? fun id => d.maskedPids id = pid with
  | none => exact le_rfl
  | some id => exact Nat.le_of_lt (List.mem_range.mp (List.mem_of_find?_eq_some hfind))

end SyscallDebug

theorem SvcMask.has_zero (svcId : UInt8) : SvcMask.has 0 svcId = false := by
  unfold SvcMask.has
  simp

/-! ### The flag -/

theorem set_bit0 (x : UInt8) : (x ||| 1) &&& 1 ≠ 0 := by
  intro h
  have hbit := congrArg (fun y : UInt8 => y.toBitVec.getLsbD 0) h
  simp at hbit

theorem clear_bit0 (x : UInt8) : (x &&& ~~~1) &&& 1 = 0 := by
  rw [UInt8.and_assoc]
  exact UInt8.and_zero

theorem bit0_set_bit1 (x : UInt8) : (x ||| 2) &&& 1 = x &&& 1 := by
  rw [Bits.or_and]
  exact UInt8.or_zero

theorem bit0_clear_bit1 (x : UInt8) : (x &&& ~~~2) &&& 1 = x &&& 1 := by
  rw [UInt8.and_assoc]
  rfl

/-! ### Steps -/

namespace SyscallDebugRun

variable {s : SyscallDebugRun}

theorem step_enable {pid : UInt32} {mask : SvcMask} (hroom : s.nbEnabled ≠ maxDebug) :
    s.step (.enable pid (some mask)) = {
      nbEnabled := s.nbEnabled + 1
      maskedPids := Function.update s.maskedPids s.nbEnabled pid
      masks := Function.update s.masks s.nbEnabled mask
      svcSignalingEnabled := s.svcSignalingEnabled ||| 1
      enabled := Function.update s.enabled pid (some mask) } := by
  simp only [step, SyscallDebug.enable, if_neg hroom]

theorem step_enable_same {pid : UInt32} {mask : Option SvcMask} (h : s.nbEnabled = maxDebug ∨ mask = none) :
    s.step (.enable pid mask) = s := by
  rcases h with hfull | rfl
  · simp only [step, SyscallDebug.enable, if_pos hfull]
  · by_cases hfull : s.nbEnabled = maxDebug
    · simp only [step, SyscallDebug.enable, if_pos hfull]
    · simp only [step, SyscallDebug.enable, if_neg hfull]

theorem step_disable {pid : UInt32} (h : s.find pid < s.nbEnabled) :
    s.step (.disable pid) = {
      nbEnabled := s.nbEnabled - 1
      maskedPids := Slots.erase s.nbEnabled (s.find pid) 0 s.maskedPids
      masks := Slots.erase s.nbEnabled (s.find pid) 0 s.masks
      svcSignalingEnabled := s.svcSignalingEnabled &&& ~~~1
      enabled := Function.update s.enabled pid none } := by
  simp only [step, SyscallDebug.disable, if_neg (Nat.ne_of_lt h)]

theorem step_disable_same {pid : UInt32} (h : s.find pid = s.nbEnabled) : s.step (.disable pid) = s := by
  simp only [step, SyscallDebug.disable, if_pos h]

/-- The entries are those of the enabled processes, each with one; behind them there are no masks. -/
structure Good (s : SyscallDebugRun) : Prop where
  size : s.nbEnabled ≤ maxDebug
  unique : ∀ i < s.nbEnabled, ∀ j < s.nbEnabled, s.maskedPids i = s.maskedPids j → i = j
  zero : ∀ i, s.nbEnabled ≤ i → s.masks i = 0
  linked : ∀ pid mask, s.enabled pid = some mask ↔ ∃ i < s.nbEnabled, s.maskedPids i = pid ∧ s.masks i = mask
  flag : s.svcSignalingEnabled &&& 1 ≠ 0 ↔ s.nbEnabled ≠ 0

theorem Good.enabled_iff (h : s.Good) {pid : UInt32} : s.enabled pid ≠ none ↔ s.find pid < s.nbEnabled := by
  rw [SyscallDebug.find_lt_iff, Option.ne_none_iff_exists']
  constructor
  · rintro ⟨mask, hmask⟩
    obtain ⟨i, hi, hpid, -⟩ := (h.linked pid mask).mp hmask
    exact ⟨i, hi, hpid⟩
  · rintro ⟨i, hi, hpid⟩
    exact ⟨s.masks i, (h.linked pid _).mpr ⟨i, hi, hpid, rfl⟩⟩

theorem Good.enabled_find (h : s.Good) {pid : UInt32} (hlt : s.find pid < s.nbEnabled) :
    s.enabled pid = some (s.masks (s.find pid)) :=
  (h.linked pid _).mpr ⟨_, hlt, SyscallDebug.maskedPids_find hlt, rfl⟩

theorem Good.signalled (h : s.Good) : s.Signalled := by
  refine ⟨fun pid svcId => ?_, h.unique, ?_⟩
  · unfold SyscallDebug.shouldSignal
    dsimp only
    rcases Nat.lt_or_eq_of_le (s.toSyscallDebug.find_le pid) with hlt | hend
    · have hsize := h.size
      rw [if_neg (by omega), h.enabled_find hlt]
      constructor
      · exact fun hhas => ⟨_, rfl, hhas⟩
      · rintro ⟨mask, hmask, hhas⟩
        rw [Option.some.inj hmask]
        exact hhas
    · have hnone : s.enabled pid = none := by
        by_contra hsome
        exact absurd (h.enabled_iff.mp hsome) (by omega)
      rw [hnone, hend, h.zero _ le_rfl, SvcMask.has_zero]
      simp
  · rw [h.flag]
    constructor
    · intro hne
      exact ⟨s.maskedPids 0, h.enabled_iff.mpr (SyscallDebug.find_lt_iff.mpr ⟨0, by omega, rfl⟩)⟩
    · rintro ⟨pid, hpid⟩
      have hlt := h.enabled_iff.mp hpid
      omega

theorem Good.enable (h : s.Good) {pid : UInt32} {mask : SvcMask} (hroom : s.nbEnabled ≠ maxDebug)
    (hnew : s.enabled pid = none) : (s.step (.enable pid (some mask))).Good := by
  have hsize := h.size
  have hother : ∀ i < s.nbEnabled, s.maskedPids i ≠ pid := by
    rintro i hi rfl
    exact h.enabled_iff.mpr (SyscallDebug.find_lt_iff.mpr ⟨i, hi, rfl⟩) hnew
  rw [step_enable hroom]
  refine ⟨?_, fun i hi j hj heq => ?_, fun i hi => ?_, fun p m => ?_, ?_⟩
  · show s.nbEnabled + 1 ≤ maxDebug
    omega
  · replace hi : i < s.nbEnabled + 1 := hi
    replace hj : j < s.nbEnabled + 1 := hj
    dsimp only at heq
    rcases eq_or_ne i s.nbEnabled with rfl | hine
    · rcases eq_or_ne j s.nbEnabled with rfl | hjne
      · rfl
      · rw [Function.update_self, Function.update_of_ne hjne] at heq
        exact absurd heq.symm (hother j (by omega))
    · rcases eq_or_ne j s.nbEnabled with rfl | hjne
      · rw [Function.update_self, Function.update_of_ne hine] at heq
        exact absurd heq (hother i (by omega))
      · rw [Function.update_of_ne hine, Function.update_of_ne hjne] at heq
        exact h.unique i (by omega) j (by omega) heq
  · replace hi : s.nbEnabled + 1 ≤ i := hi
    exact (Function.update_of_ne (by omega) ..).trans (h.zero i (by omega))
  · dsimp only
    constructor
    · intro hsome
      rcases eq_or_ne p pid with rfl | hne
      · rw [Function.update_self] at hsome
        refine ⟨s.nbEnabled, Nat.lt_succ_self _, Function.update_self .., ?_⟩
        rw [Function.update_self]
        exact Option.some.inj hsome
      · rw [Function.update_of_ne hne] at hsome
        obtain ⟨i, hi, hpid, hmask⟩ := (h.linked p m).mp hsome
        refine ⟨i, by omega, ?_, ?_⟩
        · rw [Function.update_of_ne (by omega)]
          exact hpid
        · rw [Function.update_of_ne (by omega)]
          exact hmask
    · rintro ⟨i, hi, hpid, hmask⟩
      rcases eq_or_ne i s.nbEnabled with rfl | hine
      · rw [Function.update_self] at hpid hmask
        rw [← hpid, Function.update_self, hmask]
      · rw [Function.update_of_ne hine] at hpid hmask
        rw [Function.update_of_ne (hpid ▸ hother i (by omega))]
        exact (h.linked p m).mpr ⟨i, by omega, hpid, hmask⟩
  · exact ⟨fun _ => Nat.succ_ne_zero _, fun _ => set_bit0 _⟩

/-- The only process that is enabled is disabled. -/
theorem Good.disable (h : s.Good) {pid : UInt32} (hlt : s.find pid < s.nbEnabled)
    (honly : ∀ other, s.enabled other ≠ none → other = pid) : (s.step (.disable pid)).Good := by
  have hone : s.nbEnabled = 1 := by
    by_contra hmore
    have hpids : ∀ i < s.nbEnabled, s.maskedPids i = pid := fun i hi =>
      honly _ (h.enabled_iff.mpr (SyscallDebug.find_lt_iff.mpr ⟨i, hi, rfl⟩))
    have heq := h.unique 0 (by omega) 1 (by omega) ((hpids 0 (by omega)).trans (hpids 1 (by omega)).symm)
    cases heq
  rw [step_disable hlt]
  refine ⟨?_, fun i hi => ?_, fun i _ => ?_, fun p m => ?_, ?_⟩
  · show s.nbEnabled - 1 ≤ maxDebug
    exact le_trans (Nat.sub_le _ _) h.size
  · replace hi : i < s.nbEnabled - 1 := hi
    omega
  · dsimp only
    rcases Nat.eq_zero_or_pos i with rfl | hpos
    · have hlast := Slots.erase_last (n := s.nbEnabled) (s.find pid) (0 : SvcMask) s.masks
      rw [hone] at hlast ⊢
      exact hlast
    · rw [Slots.erase_beyond _ _ hlt (by omega)]
      exact h.zero i (by omega)
  · dsimp only
    constructor
    · intro hsome
      rcases eq_or_ne p pid with rfl | hne
      · rw [Function.update_self] at hsome
        cases hsome
      · rw [Function.update_of_ne hne] at hsome
        exact absurd (honly p (by rw [hsome]; exact Option.some_ne_none m)) hne
    · rintro ⟨i, hi, -⟩
      omega
  · dsimp only
    rw [clear_bit0, hone]
    exact ⟨fun hne => absurd rfl hne, fun hne => absurd rfl hne⟩

theorem Good.layoutBit (h : s.Good) (on : Bool) : (s.step (.layoutBit on)).Good := by
  refine ⟨h.size, h.unique, h.zero, h.linked, ?_⟩
  show (if on then s.svcSignalingEnabled ||| 2 else s.svcSignalingEnabled &&& ~~~2) &&& 1 ≠ 0 ↔ s.nbEnabled ≠ 0
  split
  · rw [bit0_set_bit1]
    exact h.flag
  · rw [bit0_clear_bit1]
    exact h.flag

theorem Good.step (h : s.Good) {input : SyscallDebugInput} (hfits : s.Fits input) : (s.step input).Good := by
  cases input with
  | enable pid mask =>
    by_cases hsame : s.nbEnabled = maxDebug ∨ mask = none
    · rw [step_enable_same hsame]
      exact h
    · push Not at hsame
      obtain ⟨m, rfl⟩ := Option.ne_none_iff_exists'.mp hsame.2
      refine h.enable hsame.1 (hfits.resolve_right ?_)
      rintro (hfull | hnone)
      · exact hsame.1 hfull
      · cases hnone
  | disable pid =>
    rcases Nat.lt_or_eq_of_le (s.toSyscallDebug.find_le pid) with hlt | hend
    · exact h.disable hlt (hfits.resolve_left (h.enabled_iff.mpr hlt))
    · rw [step_disable_same hend]
      exact h
  | layoutBit on => exact h.layoutBit on

/-- A step that does not fit leaves a process with two entries, or the flag cleared for one that is enabled. -/
theorem Good.fits_of_signalled (h : s.Good) {input : SyscallDebugInput} (hsignalled : (s.step input).Signalled) :
    s.Fits input := by
  cases input with
  | enable pid mask =>
    by_contra hnot
    unfold Fits at hnot
    push Not at hnot
    obtain ⟨hold, hroom, hmask⟩ := hnot
    obtain ⟨m, rfl⟩ := Option.ne_none_iff_exists'.mp hmask
    have hlt := h.enabled_iff.mp hold
    rw [step_enable hroom] at hsignalled
    have heq := hsignalled.unique (s.find pid) (Nat.lt_succ_of_lt hlt) s.nbEnabled (Nat.lt_succ_self _) (by
      dsimp only
      rw [Function.update_self, Function.update_of_ne (Nat.ne_of_lt hlt), SyscallDebug.maskedPids_find hlt])
    omega
  | disable pid =>
    by_contra hnot
    unfold Fits at hnot
    push Not at hnot
    obtain ⟨hold, other, hother, hne⟩ := hnot
    rw [step_disable (h.enabled_iff.mp hold)] at hsignalled
    refine hsignalled.flag.mpr ⟨other, ?_⟩ (clear_bit0 _)
    dsimp only
    rw [Function.update_of_ne hne]
    exact hother
  | layoutBit on => exact trivial

theorem good_init : init.Good := by
  refine ⟨Nat.zero_le _, fun i hi => absurd hi (Nat.not_lt_zero i), fun _ _ => rfl, fun pid mask => ?_, ?_⟩
  · exact ⟨nofun, fun ⟨i, hi, _⟩ => absurd hi (Nat.not_lt_zero i)⟩
  · exact ⟨fun hne => absurd rfl hne, fun hne => absurd rfl hne⟩

end SyscallDebugRun

/-- In every run whose calls fit, system calls are signalled as the calls tell, and a next call keeps that exactly if it
fits. -/
theorem syscalls_signalled (s : SyscallDebugRun) (h : (syscallDebugSystem.restrict SyscallDebugRun.Fits).Reachable s) :
    s.Signalled ∧ ∀ input, (s.step input).Signalled ↔ s.Fits input := by
  have hgood : s.Good := by
    refine System.Reachable.invariant (S := syscallDebugSystem.restrict SyscallDebugRun.Fits) (J := SyscallDebugRun.Good) ?_
      (fun s input s' _ hs hstep => ?_) h
    · rintro s rfl
      exact SyscallDebugRun.good_init
    · obtain ⟨hfits, -, hok⟩ := hstep
      obtain rfl := Option.some.inj hok
      exact hs.step hfits
  exact ⟨hgood.signalled, fun input => ⟨hgood.fits_of_signalled, fun hfits => (hgood.step hfits).signalled⟩⟩

/-! ## Processes that are signalled, and one that is silenced -/

/-- The bit of system call 1. -/
def firstSvcMask : SvcMask := ![0x40000000, 0, 0, 0, 0, 0, 0, 0]

/-- A process is enabled, disabled and enabled again. -/
theorem process_signalled : ∃ s : SyscallDebugRun, s.Signalled ∧ s.shouldSignal 0x20 1 = true := by
  have hinit : (syscallDebugSystem.restrict SyscallDebugRun.Fits).Reachable SyscallDebugRun.init := .init rfl
  have hfits : SyscallDebugRun.init.Fits (.enable 0x20 (some firstSvcMask)) := Or.inl rfl
  have henabled := hinit.step ⟨hfits, trivial, rfl⟩
  have honly : (SyscallDebugRun.init.step (.enable 0x20 (some firstSvcMask))).Fits (.disable 0x20) :=
    Or.inr fun other hother => by_contra fun hne => hother (Function.update_of_ne hne ..)
  have hdisabled := henabled.step ⟨honly, trivial, rfl⟩
  have hagain : ((SyscallDebugRun.init.step (.enable 0x20 (some firstSvcMask))).step (.disable 0x20)).Fits
      (.enable 0x20 (some firstSvcMask)) := Or.inl (by decide +kernel)
  exact ⟨_, (syscalls_signalled _ (hdisabled.step ⟨hagain, trivial, rfl⟩)).1, by decide +kernel⟩

/-- Two processes are enabled and one is disabled: the flag is cleared for the other. -/
theorem other_process_silenced : ∃ s : SyscallDebugRun, syscallDebugSystem.Reachable s ∧
    s.shouldSignal 0x21 1 = true ∧ s.enabled 0x21 = some firstSvcMask ∧ s.svcSignalingEnabled &&& 1 = 0 := by
  have hinit : syscallDebugSystem.Reachable SyscallDebugRun.init := .init rfl
  have hfirst := hinit.step (i := .enable 0x20 (some firstSvcMask)) ⟨trivial, rfl⟩
  have hsecond := hfirst.step (i := .enable 0x21 (some firstSvcMask)) ⟨trivial, rfl⟩
  have hdisabled := hsecond.step (i := .disable 0x20) ⟨trivial, rfl⟩
  exact ⟨_, hdisabled, by decide +kernel, by decide +kernel, by decide +kernel⟩

end Omiiba.K11
