/-
The clock and the time server, after ntp.c: what the answer of the server and the ticks of the system give, and what is
passed to the services of the clock. When that is the time.
-/
import Omiiba.Lib.Scaling

namespace Omiiba.Rosalina.Ntp

open Scaling

abbrev Result := UInt32

/-- `R_FAILED`. -/
def failed (res : Result) : Bool := 0x80000000 ≤ res

def sysclockArm11 : UInt64 := 268111856

def msecDelta1900To2000 : UInt64 := 3155673600000

/-! ## The answer of the server -/

/-- When the server answers: `seconds` since 1900, and a fraction in units of 2^-32. -/
structure ServerTime where
  seconds : Nat
  fraction : UInt32

/-- The field `txTm_s` has 32 bits for them. -/
def ServerTime.txTm_s (t : ServerTime) : UInt32 := UInt32.ofNat t.seconds

/-- What the calls of `ntpGetTimeStamp` give, and what `svcGetSystemTick` gives between them. -/
structure Network where
  miniSocInit : Result
  sock : Int32
  connected : Bool
  sent : Bool
  received : Bool
  tickBefore : UInt64
  tickAfter : UInt64
  tickSampling : UInt64
  answer : ServerTime

def Network.roundTripTicks (net : Network) : UInt64 := net.tickAfter - net.tickBefore

/-- The milliseconds since 1900 out of an answer. -/
def timeStamp (txTm_s txTm_f : UInt32) (roundTripTicks : UInt64) : UInt64 :=
  let dt := 1000 * 1000 * roundTripTicks / (2 * sysclockArm11)
  let txTmUsec := (1000 * 1000 * txTm_f.toUInt64) >>> 32
  let txTmUsec := txTmUsec + 1000 * 1000 * txTm_s.toUInt64
  (txTmUsec + dt + 500) / 1000

/-- `ntpGetTimeStamp`: the result, `msSince1900` and `samplingTick`. -/
def ntpGetTimeStamp (net : Network) : Result × UInt64 × UInt64 :=
  if failed net.miniSocInit then (net.miniSocInit, 0, 0)
  else if net.sock < -10000 then (net.sock.toUInt32, 0, 0)
  else if !net.connected || !net.sent || !net.received then (0xFFFFFFFF, 0, 0)
  else (0, timeStamp net.answer.txTm_s net.answer.fraction net.roundTripTicks, net.tickSampling)

/-! ## The services of the clock -/

/-- What is done with a time; a sleep is in nanoseconds. -/
inductive Event where
  | sleepThread (ns : Int64)
  | setUserTime (msY2k : Int64)
  | setSystemTime (msY2k : Int64)
  | setRtcTime (msY2k : Int64)
  deriving DecidableEq

/-- What the calls of `ntpSetTimeDateImpl` give. Time passes in them: `tick` is from the initialisations to the
writing of the configuration, and `tickConfig` is from there on. -/
structure Services where
  ptmSysmInit : Result
  ptmSetsInit : Result
  cfguInit : Result
  tick : UInt64
  setBlk2 : Result
  setBlk3 : Result
  updateSavegame : Result
  tickConfig : UInt64
  setUserTime : Result
  setSystemTime : Result
  setRtcTime : Result

/-- One call after another, as long as none fails. -/
def andThen (res next : Result) : Result := if failed res then res else next

/-- `ntpSetTimeDateImpl`: the result, and what was done. -/
def ntpSetTimeDateImpl (s : Services) (msSince1900 samplingTick : UInt64) (syncRtc : Bool) : Result × List Event :=
  if failed s.ptmSysmInit then (s.ptmSysmInit, [])
  else if failed s.ptmSetsInit then (s.ptmSetsInit, [])
  else if failed s.cfguInit then (s.cfguInit, [])
  else
    let dt := 1000 * (s.tick - samplingTick) / sysclockArm11
    let msY2k := (msSince1900 + dt - msecDelta1900To2000).toInt64
    if syncRtc then
      let samplingTick2 := s.tick
      let res := andThen (andThen s.setBlk2 s.setBlk3) s.updateSavegame
      let msY2k := (msY2k.toUInt64 + 1000 * (s.tickConfig - samplingTick2) / sysclockArm11).toInt64
      let dt2 := if msY2k % 1000 ≠ 0 then (1000 - msY2k % 1000).toUInt64 else 0
      let waited := if msY2k % 1000 ≠ 0 then [Event.sleepThread dt2.toInt64] else []
      let msY2k := (msY2k.toUInt64 + dt2).toInt64
      (andThen res s.setRtcTime, waited ++ if failed res then [] else [.setRtcTime msY2k])
    else
      (andThen s.setUserTime s.setSystemTime,
        .setUserTime msY2k :: if failed s.setUserTime then [] else [.setSystemTime msY2k])

def ntpSetTimeDate (s : Services) (msSince1900 samplingTick : UInt64) : Result × List Event :=
  ntpSetTimeDateImpl s msSince1900 samplingTick false

/-- `ntpNullifyUserTimeOffset`, for what `osGetTime` and `svcGetSystemTick` give. -/
def ntpNullifyUserTimeOffset (s : Services) (msSince1900 samplingTick : UInt64) : Result × List Event :=
  ntpSetTimeDateImpl s msSince1900 samplingTick true

/-- The time of a server is asked for and set. -/
def updateTimeDate (net : Network) (s : Services) : Result × List Event :=
  let (res, msSince1900, samplingTick) := ntpGetTimeStamp net
  if failed res then (res, []) else ntpSetTimeDate s msSince1900 samplingTick

/-! ## The time -/

/-- The milliseconds since 2000 at which the server answers. -/
def ServerTime.msY2k (t : ServerTime) : ℚ :=
  1000 * (t.seconds + t.fraction.toNat / 2 ^ 32) - msecDelta1900To2000.toNat

/-- What ticks are in milliseconds. -/
def ticksMs (ticks : UInt64) : ℚ := 1000 * ticks.toNat / sysclockArm11.toNat

/-- How long the sleeps of a list are, in milliseconds. -/
def slept : List Event → ℚ
  | [] => 0
  | .sleepThread ns :: events => ns.toInt / 10 ^ 6 + slept events
  | _ :: events => slept events

/-- The time when the answer of the server is used: its time, half the round trip, and what passed since. -/
def ServerTime.now (net : Network) (s : Services) : ℚ :=
  net.answer.msY2k + ticksMs net.roundTripTicks / 2 + ticksMs (s.tick - net.tickSampling)

/-- The value is the time but for the roundings of the divisions: two in microseconds and two in milliseconds, of
which one is to the nearest. -/
def NearNow (t : ℚ) (msY2k : Int64) : Prop := t - 1502 / 1000 < msY2k.toInt ∧ (msY2k.toInt : ℚ) ≤ t + 1 / 2

/-- What is set is the time of the server. -/
def TimeSet (net : Network) (s : Services) : Prop :=
  ∀ msY2k, .setUserTime msY2k ∈ (updateTimeDate net s).2 ∨ .setSystemTime msY2k ∈ (updateTimeDate net s).2 →
    NearNow (ServerTime.now net s) msY2k

/-- A count of milliseconds since 1900 from the years that the clock can be set to, 2000 to 2099. -/
structure ClockTime where
  msSince1900 : UInt64
  year_from : 3155673600000 ≤ msSince1900.toNat
  year_to : msSince1900.toNat < 6311433600000

/-- What the clock is set to is a whole second, which is the time at that moment but for the roundings of the
divisions of the ticks. `t` is the time at `samplingTick`. -/
def RtcSet (s : Services) (t : ClockTime) (samplingTick : UInt64) : Prop :=
  ∀ before, ∀ msY2k : Int64, ∀ after, (ntpNullifyUserTimeOffset s t.msSince1900 samplingTick).2 =
      before ++ .setRtcTime msY2k :: after →
    msY2k.toInt % 1000 = 0 ∧ (msY2k.toInt : ℚ) =
      (t.msSince1900.toNat - msecDelta1900To2000.toNat + ticksMs (s.tick - samplingTick) +
        ticksMs (s.tickConfig - s.tick) + slept before) +
      (rounding 1000 sysclockArm11.toNat (s.tick - samplingTick).toNat +
        rounding 1000 sysclockArm11.toNat (s.tickConfig - s.tick).toNat)

/-! ## What the code computes -/

theorem timeStamp_toNat (txTm_s txTm_f : UInt32) (roundTripTicks : UInt64) :
    (timeStamp txTm_s txTm_f roundTripTicks).toNat = (1000000 * txTm_f.toNat / 2 ^ 32 + 1000000 * txTm_s.toNat +
      scaled (2 ^ 64) 1000000 536223712 roundTripTicks.toNat + 500) / 1000 := by
  have hfraction := txTm_f.toNat_lt
  have hseconds := txTm_s.toNat_lt
  have hmillion : (1000 * 1000 : UInt64) = 1000000 := rfl
  have hclock : 2 * sysclockArm11 = 536223712 := rfl
  have hscaled : scaled (2 ^ 64) 1000000 536223712 roundTripTicks.toNat ≤ 2 ^ 64 / 536223712 :=
    Nat.div_le_div_right (Nat.mod_lt _ (by omega)).le
  simp only [scaled, Nat.reducePow] at hscaled
  simp only [timeStamp, hmillion, hclock, scaled, UInt64.toNat_div, UInt64.toNat_add, UInt64.toNat_mul,
    UInt64.toNat_shiftRight, UInt32.toNat_toUInt64, UInt64.toNat_ofNat, Nat.shiftRight_eq_div_pow, Nat.reducePow,
    Nat.reduceMod]
  have hshifted : 1000000 * txTm_f.toNat % 18446744073709551616 = 1000000 * txTm_f.toNat := Nat.mod_eq_of_lt (by omega)
  have hwhole : 1000000 * txTm_s.toNat % 18446744073709551616 = 1000000 * txTm_s.toNat := Nat.mod_eq_of_lt (by omega)
  rw [hshifted, hwhole]
  generalize 1000000 * roundTripTicks.toNat % 18446744073709551616 / 536223712 = dt at hscaled ⊢
  have hfit : 1000000 * txTm_f.toNat / 4294967296 + 1000000 * txTm_s.toNat + dt + 500 < 18446744073709551616 := by omega
  rw [Nat.mod_eq_of_lt (by omega : _ + 1000000 * txTm_s.toNat < _), Nat.mod_eq_of_lt (by omega : _ + dt < _),
    Nat.mod_eq_of_lt hfit]

theorem dt_toNat (ticks : UInt64) :
    (1000 * ticks / sysclockArm11).toNat = scaled (2 ^ 64) 1000 sysclockArm11.toNat ticks.toNat := by
  simp only [UInt64.toNat_div, UInt64.toNat_mul, scaled]
  rfl

theorem dt_le (ticks : UInt64) : (1000 * ticks / sysclockArm11).toNat ≤ 2 ^ 37 := by
  rw [dt_toNat]
  calc 1000 * ticks.toNat % 2 ^ 64 / sysclockArm11.toNat ≤ 2 ^ 64 / sysclockArm11.toNat :=
        Nat.div_le_div_right (Nat.mod_lt _ (by decide)).le
    _ ≤ 2 ^ 37 := by decide

theorem toInt64_toInt {n : UInt64} {i : Int} (hn : (n.toNat : Int) % 2 ^ 64 = i % 2 ^ 64) (hlow : -2 ^ 63 ≤ i)
    (hhigh : i < 2 ^ 63) : n.toInt64.toInt = i := by
  rw [← Int64.toInt_toBitVec, UInt64.toBitVec_toInt64, BitVec.toInt_eq_toNat_bmod, Int.bmod_def]
  have hnat : (n.toBitVec.toNat : Int) = n.toNat := rfl
  rw [hnat]
  split <;> omega

/-! ## The time of the server -/

/-- No answer comes, or the services cannot be used: nothing is set. -/
def Unset (net : Network) (s : Services) : Prop :=
  failed net.miniSocInit ∨ net.sock < -10000 ∨ ¬net.connected ∨ ¬net.sent ∨ ¬net.received ∨
    failed s.ptmSysmInit ∨ failed s.ptmSetsInit ∨ failed s.cfguInit

/-- The seconds fit in the field of the answer, and the products of the ticks in their words. -/
structure Fits (net : Network) (s : Services) : Prop where
  seconds : net.answer.seconds < 2 ^ 32
  roundTrip : 1000000 * net.roundTripTicks.toNat < 2 ^ 64
  since : 1000 * (s.tick - net.tickSampling).toNat < 2 ^ 64

/-- The value that is passed, as the words have it. -/
def value (net : Network) (s : Services) : UInt64 :=
  timeStamp net.answer.txTm_s net.answer.fraction net.roundTripTicks +
    1000 * (s.tick - net.tickSampling) / sysclockArm11 - msecDelta1900To2000

/-- The milliseconds since 1900 without a wrap. -/
def ideal (net : Network) (s : Services) : Nat :=
  (1000000 * net.answer.fraction.toNat / 2 ^ 32 + 1000000 * net.answer.seconds +
      1000000 * net.roundTripTicks.toNat / 536223712 + 500) / 1000 +
    1000 * (s.tick - net.tickSampling).toNat / sysclockArm11.toNat

theorem failed_sock {sock : Int32} (h : sock < -10000) : failed sock.toUInt32 := by
  rw [Int32.lt_iff_toInt_lt, ← Int32.toInt_toBitVec, BitVec.toInt_eq_toNat_cond] at h
  have hminus : (-10000 : Int32).toInt = -10000 := rfl
  have hnat : sock.toUInt32.toNat = sock.toBitVec.toNat := rfl
  unfold failed
  rw [decide_eq_true_iff, UInt32.le_iff_toNat_le, hnat]
  change 2147483648 ≤ _
  split at h <;> omega

theorem updateTimeDate_unset {net : Network} {s : Services} (h : Unset net s) : (updateTimeDate net s).2 = [] := by
  unfold updateTimeDate ntpGetTimeStamp ntpSetTimeDate ntpSetTimeDateImpl
  by_cases hsoc : failed net.miniSocInit
  · simp [hsoc]
  by_cases hsock : net.sock < -10000
  · simp [hsoc, hsock, failed_sock hsock]
  by_cases hanswer : (!net.connected || !net.sent || !net.received) = true
  · have hfail : failed 0xFFFFFFFF = true := rfl
    simp only [hsoc, hsock, hanswer, hfail, if_true, if_false, Bool.false_eq_true]
  -- An answer is there; then it is the services.
  have hok : failed 0 = false := rfl
  simp only [hsoc, hsock, hanswer, hok, if_false, Bool.false_eq_true]
  simp only [Bool.or_eq_true, Bool.not_eq_true', not_or, Bool.not_eq_false] at hanswer
  rcases h with h | h | h | h | h | h | h | h
  · exact absurd h hsoc
  · exact absurd h hsock
  · exact absurd hanswer.1.1 h
  · exact absurd hanswer.1.2 h
  · exact absurd hanswer.2 h
  · simp only [h, if_true]
  · simp only [h, if_true]
    split <;> rfl
  · simp only [h, if_true]
    split
    · rfl
    · split <;> rfl

theorem updateTimeDate_set {net : Network} {s : Services} (h : ¬Unset net s) :
    (updateTimeDate net s).2 = .setUserTime (value net s).toInt64 ::
      if failed s.setUserTime then [] else [.setSystemTime (value net s).toInt64] := by
  simp only [Unset, not_or, not_not] at h
  obtain ⟨hsoc, hsock, hconnected, hsent, hreceived, hsysm, hsets, hcfgu⟩ := h
  have hok : failed 0 = false := rfl
  simp only [updateTimeDate, ntpGetTimeStamp, hsoc, hsock, hconnected, hsent, hreceived, if_false, Bool.not_true,
    Bool.or_self, Bool.false_eq_true, hok, ntpSetTimeDate, ntpSetTimeDateImpl, hsysm, hsets, hcfgu]
  rfl

theorem ideal_near (net : Network) (s : Services) :
    ServerTime.now net s - 1502 / 1000 < (ideal net s : ℚ) - msecDelta1900To2000.toNat ∧
      (ideal net s : ℚ) - msecDelta1900To2000.toNat ≤ ServerTime.now net s + 1 / 2 := by
  have hfraction := @rounding_range 1000000 (2 ^ 32) net.answer.fraction.toNat (by omega)
  have htrip := @rounding_range 1000000 536223712 net.roundTripTicks.toNat (by omega)
  have hsince := @rounding_range 1000 sysclockArm11.toNat (s.tick - net.tickSampling).toNat (by decide)
  unfold rounding at hfraction htrip hsince
  -- The microseconds are rounded to the nearest millisecond.
  obtain ⟨whole, hwhole⟩ : ∃ whole, whole = 1000000 * net.answer.fraction.toNat / 2 ^ 32 +
    1000000 * net.answer.seconds + 1000000 * net.roundTripTicks.toNat / 536223712 := ⟨_, rfl⟩
  have hnearest : 1000 * ((whole + 500) / 1000) ≤ whole + 500 ∧ whole + 500 < 1000 * ((whole + 500) / 1000) + 1000 := by
    omega
  have hlow : (1000 : ℚ) * ((whole + 500) / 1000 : ℕ) ≤ whole + 500 := by exact_mod_cast hnearest.1
  have hhigh : (whole : ℚ) + 500 < 1000 * ((whole + 500) / 1000 : ℕ) + 1000 := by exact_mod_cast hnearest.2
  have hcast : (whole : ℚ) = (1000000 * net.answer.fraction.toNat / 2 ^ 32 : ℕ) + 1000000 * net.answer.seconds +
    (1000000 * net.roundTripTicks.toNat / 536223712 : ℕ) := by exact_mod_cast congrArg (Nat.cast (R := ℚ)) hwhole
  have hclock : (sysclockArm11.toNat : ℚ) = 268111856 := rfl
  unfold ServerTime.now ServerTime.msY2k ticksMs ideal
  rw [← hwhole]
  push_cast at hfraction htrip hsince hlow hhigh hcast ⊢
  rw [hclock] at hsince ⊢
  constructor <;> linarith

theorem value_toInt (net : Network) (s : Services) : (value net s).toInt64.toInt =
    ((1000000 * net.answer.fraction.toNat / 2 ^ 32 + 1000000 * (net.answer.seconds % 2 ^ 32) +
        scaled (2 ^ 64) 1000000 536223712 net.roundTripTicks.toNat + 500) / 1000 +
      scaled (2 ^ 64) 1000 sysclockArm11.toNat (s.tick - net.tickSampling).toNat : ℕ) -
      (msecDelta1900To2000.toNat : Int) := by
  have hstamp := timeStamp_toNat net.answer.txTm_s net.answer.fraction net.roundTripTicks
  have hseconds : net.answer.txTm_s.toNat = net.answer.seconds % 2 ^ 32 := UInt32.toNat_ofNat'
  have hlt := net.answer.fraction.toNat_lt
  have hdt := dt_le (s.tick - net.tickSampling)
  have htrip : scaled (2 ^ 64) 1000000 536223712 net.roundTripTicks.toNat ≤ 2 ^ 64 / 536223712 :=
    Nat.div_le_div_right (Nat.mod_lt _ (by omega)).le
  rw [hseconds] at hstamp
  rw [← dt_toNat, ← hstamp]
  have hdelta : msecDelta1900To2000.toNat = 3155673600000 := rfl
  apply toInt64_toInt
  · rw [value, UInt64.toNat_sub, UInt64.toNat_add]
    omega
  · omega
  · omega

theorem value_eq {net : Network} {s : Services} (h : Fits net s) :
    (value net s).toInt64.toInt = (ideal net s : Int) - msecDelta1900To2000.toNat := by
  rw [value_toInt, scaled_eq h.roundTrip, scaled_eq h.since, Nat.mod_eq_of_lt h.seconds]
  rfl

/-- Whatever wraps, it takes hours at least. -/
theorem value_short {net : Network} {s : Services} (h : ¬Fits net s) :
    (value net s).toInt64.toInt + 34000000 ≤ (ideal net s : Int) - msecDelta1900To2000.toNat := by
  have hseconds := Nat.mod_le net.answer.seconds (2 ^ 32)
  have htrip := @scaled_le (2 ^ 64) 1000000 536223712 net.roundTripTicks.toNat
  have hsince := @scaled_le (2 ^ 64) 1000 sysclockArm11.toNat (s.tick - net.tickSampling).toNat
  have hclock : 2 ^ 64 / sysclockArm11.toNat = 68802418322 := rfl
  rw [value_toInt]
  unfold ideal
  by_cases hfirst : net.answer.seconds < 2 ^ 32
  · by_cases hsecond : 1000000 * net.roundTripTicks.toNat < 2 ^ 64
    · have hwrap := @scaled_add_le (2 ^ 64) 1000 sysclockArm11.toNat (s.tick - net.tickSampling).toNat
        (by by_contra hthird; exact h ⟨hfirst, hsecond, by omega⟩)
      omega
    · have hwrap := @scaled_add_le (2 ^ 64) 1000000 536223712 net.roundTripTicks.toNat (by omega)
      omega
  · omega

theorem timeSet_iff (net : Network) (s : Services) : TimeSet net s ↔ Unset net s ∨ Fits net s := by
  have hnear := ideal_near net s
  constructor
  · intro hset
    by_contra hnot
    rw [not_or] at hnot
    have hvalue := (hset (value net s).toInt64 (Or.inl (by rw [updateTimeDate_set hnot.1]; exact List.mem_cons_self))).1
    have hshort : (((value net s).toInt64.toInt + 34000000 : Int) : ℚ) ≤
        ((ideal net s : Int) - msecDelta1900To2000.toNat : Int) := by exact_mod_cast value_short hnot.2
    push_cast at hshort
    linarith [hnear.2]
  · intro hfits msY2k hmem
    by_cases hunset : Unset net s
    · simp [updateTimeDate_unset hunset] at hmem
    · have hvalue : msY2k = (value net s).toInt64 := by
        rw [updateTimeDate_set hunset] at hmem
        split at hmem <;> simpa using hmem
      have heq : (((value net s).toInt64.toInt : Int) : ℚ) = ((ideal net s : Int) - msecDelta1900To2000.toNat : Int) :=
        congrArg _ (value_eq (hfits.resolve_left hunset))
      push_cast at heq
      rw [NearNow, hvalue, heq]
      exact hnear

/-! ## The clock itself -/

/-- The services cannot be used, or the configuration is not saved: the clock is not set. -/
def RtcUnset (s : Services) : Prop :=
  failed s.ptmSysmInit ∨ failed s.ptmSetsInit ∨ failed s.cfguInit ∨ failed s.setBlk2 ∨ failed s.setBlk3 ∨
    failed s.updateSavegame

/-- The products of the ticks fit in their words, and what they give is a whole second already. -/
structure WholeSecond (s : Services) (t : ClockTime) (samplingTick : UInt64) : Prop where
  since : 1000 * (s.tick - samplingTick).toNat < 2 ^ 64
  config : 1000 * (s.tickConfig - s.tick).toNat < 2 ^ 64
  whole : (t.msSince1900.toNat + 1000 * (s.tick - samplingTick).toNat / sysclockArm11.toNat +
    1000 * (s.tickConfig - s.tick).toNat / sysclockArm11.toNat) % 1000 = 0

/-- The milliseconds since 2000 before the wait, as the words have them. -/
def measured (s : Services) (t : ClockTime) (samplingTick : UInt64) : Nat :=
  t.msSince1900.toNat - msecDelta1900To2000.toNat +
    scaled (2 ^ 64) 1000 sysclockArm11.toNat (s.tick - samplingTick).toNat +
    scaled (2 ^ 64) 1000 sysclockArm11.toNat (s.tickConfig - s.tick).toNat

theorem measured_lt (s : Services) (t : ClockTime) (samplingTick : UInt64) : measured s t samplingTick < 2 ^ 50 := by
  have hto := t.year_to
  have hsince := dt_le (s.tick - samplingTick)
  have hconfig := dt_le (s.tickConfig - s.tick)
  rw [dt_toNat] at hsince hconfig
  unfold measured
  omega

/-- How many milliseconds are missing to a whole second. -/
def missing (ms : Nat) : Nat := if ms % 1000 = 0 then 0 else 1000 - ms % 1000

/-- The value before the wait. -/
def beforeWait (s : Services) (t : ClockTime) (samplingTick : UInt64) : Int64 :=
  ((t.msSince1900 + 1000 * (s.tick - samplingTick) / sysclockArm11 - msecDelta1900To2000).toInt64.toUInt64 +
    1000 * (s.tickConfig - s.tick) / sysclockArm11).toInt64

theorem beforeWait_toInt (s : Services) (t : ClockTime) (samplingTick : UInt64) :
    (beforeWait s t samplingTick).toInt = measured s t samplingTick := by
  have hfrom := t.year_from
  have hto := t.year_to
  have hsince := dt_le (s.tick - samplingTick)
  have hconfig := dt_le (s.tickConfig - s.tick)
  have hdelta : msecDelta1900To2000.toNat = 3155673600000 := rfl
  unfold beforeWait measured
  rw [UInt64.toUInt64_toInt64, ← dt_toNat, ← dt_toNat]
  apply toInt64_toInt
  · rw [UInt64.toNat_add, UInt64.toNat_sub, UInt64.toNat_add]
    omega
  · omega
  · omega

theorem beforeWait_mod (s : Services) (t : ClockTime) (samplingTick : UInt64) :
    (beforeWait s t samplingTick % 1000).toInt = (measured s t samplingTick % 1000 : ℕ) := by
  rw [Int64.toInt_mod, beforeWait_toInt]
  rfl

theorem beforeWait_mod_eq (s : Services) (t : ClockTime) (samplingTick : UInt64) :
    beforeWait s t samplingTick % 1000 = 0 ↔ measured s t samplingTick % 1000 = 0 := by
  have hzero : (0 : Int64).toInt = 0 := rfl
  rw [← Int64.toInt_inj, beforeWait_mod, hzero]
  omega

/-- The second is waited for in nanoseconds and added in milliseconds. -/
theorem nullify_events {s : Services} {t : ClockTime} {samplingTick : UInt64} (h : ¬RtcUnset s) :
    ∃ waited, ∃ msY2k : Int64,
      (ntpNullifyUserTimeOffset s t.msSince1900 samplingTick).2 = waited ++ [.setRtcTime msY2k] ∧
      slept waited = missing (measured s t samplingTick) / 10 ^ 6 ∧
      (missing (measured s t samplingTick) = 0 → waited = []) ∧
      msY2k.toInt = measured s t samplingTick + missing (measured s t samplingTick) := by
  simp only [RtcUnset, not_or] at h
  obtain ⟨hsysm, hsets, hcfgu, hblk2, hblk3, hsave⟩ := h
  have hok : failed (andThen (andThen s.setBlk2 s.setBlk3) s.updateSavegame) = false := by
    simp [andThen, hblk2, hblk3, hsave]
  have hevents : (ntpNullifyUserTimeOffset s t.msSince1900 samplingTick).2 =
      (if beforeWait s t samplingTick % 1000 ≠ 0 then
        [Event.sleepThread (1000 - beforeWait s t samplingTick % 1000).toUInt64.toInt64] else []) ++
      [.setRtcTime ((beforeWait s t samplingTick).toUInt64 + if beforeWait s t samplingTick % 1000 ≠ 0 then
        (1000 - beforeWait s t samplingTick % 1000).toUInt64 else 0).toInt64] := by
    unfold ntpNullifyUserTimeOffset ntpSetTimeDateImpl
    simp only [hsysm, hsets, hcfgu, if_false, Bool.false_eq_true, if_true, hok]
    rw [beforeWait]
    split <;> rfl
  rw [hevents]
  by_cases hwhole : measured s t samplingTick % 1000 = 0
  · have hnone : missing (measured s t samplingTick) = 0 := if_pos hwhole
    rw [if_neg (not_not.mpr ((beforeWait_mod_eq s t samplingTick).mpr hwhole)),
      if_neg (not_not.mpr ((beforeWait_mod_eq s t samplingTick).mpr hwhole))]
    refine ⟨[], _, rfl, by simp [slept, hnone], fun _ => rfl, ?_⟩
    rw [UInt64.add_zero, Int64.toInt64_toUInt64, beforeWait_toInt, hnone, Nat.cast_zero, add_zero]
  · have hsome : missing (measured s t samplingTick) = 1000 - measured s t samplingTick % 1000 := if_neg hwhole
    have hwait : (1000 - beforeWait s t samplingTick % 1000).toInt = missing (measured s t samplingTick) := by
      have hthousand : (1000 : Int64).toInt = 1000 := rfl
      rw [Int64.toInt_sub, beforeWait_mod, hthousand, hsome, Int.bmod_eq_of_le (by omega) (by omega)]
      omega
    rw [if_pos (fun hzero => hwhole ((beforeWait_mod_eq s t samplingTick).mp hzero)),
      if_pos (fun hzero => hwhole ((beforeWait_mod_eq s t samplingTick).mp hzero))]
    refine ⟨_, _, rfl, ?_, fun hnone => by omega, ?_⟩
    · rw [slept, slept, Int64.toInt64_toUInt64, hwait]
      simp
    · have hbound := measured_lt s t samplingTick
      rw [UInt64.toInt64_add, Int64.toInt64_toUInt64, Int64.toInt64_toUInt64, Int64.toInt_add, beforeWait_toInt, hwait,
        Int.bmod_eq_of_le (by omega) (by omega)]

theorem nullify_unset {s : Services} {t : ClockTime} {samplingTick : UInt64} (h : RtcUnset s) :
    ∀ event ∈ (ntpNullifyUserTimeOffset s t.msSince1900 samplingTick).2, ∀ msY2k, event ≠ .setRtcTime msY2k := by
  intro event hmem msY2k
  unfold ntpNullifyUserTimeOffset ntpSetTimeDateImpl at hmem
  split at hmem
  · simp at hmem
  split at hmem
  · simp at hmem
  split at hmem
  · simp at hmem
  rename_i hsysm hsets hcfgu
  have hfail : failed (andThen (andThen s.setBlk2 s.setBlk3) s.updateSavegame) = true := by
    rcases h with h | h | h | h | h | h
    · exact absurd h hsysm
    · exact absurd h hsets
    · exact absurd h hcfgu
    · simp [andThen, h]
    · by_cases hblk2 : failed s.setBlk2 <;> simp [andThen, h, hblk2]
    · by_cases hblk2 : failed s.setBlk2 <;> by_cases hblk3 : failed s.setBlk3 <;> simp [andThen, h, hblk2, hblk3]
  simp only [hfail, if_true, List.append_nil] at hmem
  split at hmem
  · obtain rfl := List.mem_singleton.mp hmem
    exact Event.noConfusion
  · cases hmem

theorem rtcSet_iff (s : Services) (t : ClockTime) (samplingTick : UInt64) :
    RtcSet s t samplingTick ↔ RtcUnset s ∨ WholeSecond s t samplingTick := by
  have hfrom := t.year_from
  have hdelta : msecDelta1900To2000.toNat = 3155673600000 := rfl
  have hsince := @scaled_le (2 ^ 64) 1000 sysclockArm11.toNat (s.tick - samplingTick).toNat
  have hconfig := @scaled_le (2 ^ 64) 1000 sysclockArm11.toNat (s.tickConfig - s.tick).toNat
  by_cases hunset : RtcUnset s
  · refine iff_of_true ?_ (Or.inl hunset)
    intro before msY2k after hevents
    have hmem : Event.setRtcTime msY2k ∈ (ntpNullifyUserTimeOffset s t.msSince1900 samplingTick).2 := by
      rw [hevents]
      exact List.mem_append_right _ List.mem_cons_self
    exact absurd rfl (nullify_unset hunset _ hmem msY2k)
  obtain ⟨waited, msY2k, hevents, hslept, hnone', hvalue⟩ := @nullify_events s t samplingTick hunset
  have hmissing : missing (measured s t samplingTick) < 1000 := by unfold missing; split <;> omega
  have hvalue' : (msY2k.toInt : ℚ) = measured s t samplingTick + missing (measured s t samplingTick) := by
    rw [hvalue]
    push_cast
    rfl
  constructor
  · intro hset
    have hequal := (hset waited msY2k [] hevents).2
    rw [hvalue', hslept] at hequal
    unfold ticksMs rounding at hequal
    -- What the sleep is short of is what the words are short of, and less than a second.
    have hshort : (10 ^ 6 : ℚ) * (measured s t samplingTick + missing (measured s t samplingTick)) =
        10 ^ 6 * (t.msSince1900.toNat - msecDelta1900To2000.toNat +
          (1000 * (s.tick - samplingTick).toNat / sysclockArm11.toNat : ℕ) +
          (1000 * (s.tickConfig - s.tick).toNat / sysclockArm11.toNat : ℕ)) + missing (measured s t samplingTick) := by
      push_cast at hequal ⊢
      linarith
    have hshortN : 10 ^ 6 * (measured s t samplingTick + missing (measured s t samplingTick)) +
        10 ^ 6 * msecDelta1900To2000.toNat = 10 ^ 6 * (t.msSince1900.toNat +
          1000 * (s.tick - samplingTick).toNat / sysclockArm11.toNat +
          1000 * (s.tickConfig - s.tick).toNat / sysclockArm11.toNat) + missing (measured s t samplingTick) := by
      have hcast : ((10 ^ 6 * (measured s t samplingTick + missing (measured s t samplingTick)) +
        10 ^ 6 * msecDelta1900To2000.toNat : ℕ) : ℚ) = (10 ^ 6 * (t.msSince1900.toNat +
          1000 * (s.tick - samplingTick).toNat / sysclockArm11.toNat +
          1000 * (s.tickConfig - s.tick).toNat / sysclockArm11.toNat) + missing (measured s t samplingTick) : ℕ) := by
        push_cast at hshort ⊢
        linarith
      exact_mod_cast hcast
    have hmeasured : measured s t samplingTick + msecDelta1900To2000.toNat = t.msSince1900.toNat +
        scaled (2 ^ 64) 1000 sysclockArm11.toNat (s.tick - samplingTick).toNat +
        scaled (2 ^ 64) 1000 sysclockArm11.toNat (s.tickConfig - s.tick).toNat := by
      unfold measured
      omega
    have hnone : missing (measured s t samplingTick) = 0 := by omega
    have hwhole : measured s t samplingTick % 1000 = 0 := by
      by_contra hnot
      rw [missing, if_neg hnot] at hnone
      omega
    have hclock : 2 ^ 64 / sysclockArm11.toNat = 68802418322 := rfl
    refine Or.inr ⟨?_, ?_, by omega⟩
    · by_contra hwrap
      have hword := @scaled_add_le (2 ^ 64) 1000 sysclockArm11.toNat (s.tick - samplingTick).toNat (by omega)
      omega
    · by_contra hwrap
      have hword := @scaled_add_le (2 ^ 64) 1000 sysclockArm11.toNat (s.tickConfig - s.tick).toNat (by omega)
      omega
  · rintro (h | h)
    · exact absurd h hunset
    · intro before msY2k' after hevents'
      have hmeasured : measured s t samplingTick + msecDelta1900To2000.toNat = t.msSince1900.toNat +
          1000 * (s.tick - samplingTick).toNat / sysclockArm11.toNat +
          1000 * (s.tickConfig - s.tick).toNat / sysclockArm11.toNat := by
        rw [measured, scaled_eq h.since, scaled_eq h.config]
        omega
      have hwhole := h.whole
      have hnone : missing (measured s t samplingTick) = 0 := if_pos (by omega)
      rw [hevents, hnone' hnone] at hevents'
      obtain ⟨rfl, rfl⟩ : before = [] ∧ msY2k' = msY2k := by
        cases before with
        | nil => exact ⟨rfl, (Event.setRtcTime.inj (List.cons.inj hevents').1).symm⟩
        | cons first before => simp at hevents'
      refine ⟨by omega, ?_⟩
      rw [hvalue', hnone, slept]
      unfold ticksMs rounding
      have hcast : (measured s t samplingTick : ℚ) + msecDelta1900To2000.toNat = t.msSince1900.toNat +
          (1000 * (s.tick - samplingTick).toNat / sysclockArm11.toNat : ℕ) +
          (1000 * (s.tickConfig - s.tick).toNat / sysclockArm11.toNat : ℕ) := by exact_mod_cast hmeasured
      push_cast at hcast ⊢
      linarith

/-! ## The claim on the clock -/

/-- What is set is the time of the server where the seconds fit in 32 bits and the products of the ticks in 64. The
clock itself is set to a second only where it need not be waited for. -/
theorem ntp_iff (net : Network) (s : Services) (t : ClockTime) (samplingTick : UInt64) :
    (TimeSet net s ↔ Unset net s ∨ Fits net s) ∧
      (RtcSet s t samplingTick ↔ RtcUnset s ∨ WholeSecond s t samplingTick) :=
  ⟨timeSet_iff net s, rtcSet_iff s t samplingTick⟩

/-- Services that do what they are asked for at once. -/
def instantServices : Services := ⟨0, 0, 0, 0, 0, 0, 0, 0, 0, 0, 0⟩

/-- Half a second after the year 2000 began: the clock is set to the next second after 500 nanoseconds. -/
theorem rtc_ahead : (ntpNullifyUserTimeOffset instantServices 3155673600500 0).2 =
      [.sleepThread 500, .setRtcTime 1000] ∧
    ¬RtcSet instantServices ⟨3155673600500, by decide, by decide⟩ 0 := by
  refine ⟨by decide, fun hset => ?_⟩
  rcases (rtcSet_iff _ _ _).mp hset with hunset | hwhole
  · revert hunset
    unfold RtcUnset
    decide
  · exact absurd hwhole.whole (by decide)

end Omiiba.Rosalina.Ntp
