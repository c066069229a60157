/-
Dates in the names of files, after utils.c and menus.c: the calendar, the two loops that take years and months from a
count of days, and the text. When the text is the date that the count of milliseconds denotes.
-/
import Omiiba.Lib.Periods

namespace Omiiba.Rosalina

open Periods

/-! ## The calendar -/

def Leap (year : Nat) : Prop := year % 4 = 0 ∧ (year % 100 = 0 → year % 400 = 0)

instance (year : Nat) : Decidable (Leap year) := inferInstanceAs (Decidable (_ ∧ _))

/-- The months count from 1. -/
def monthDays (year month : Nat) : Nat :=
  match month with
  | 2 => if Leap year then 29 else 28
  | 4 | 6 | 9 | 11 => 30
  | _ => 31

def yearDays (year : Nat) : Nat := before (monthDays year) 1 13

theorem yearDays_eq (year : Nat) : yearDays year = if Leap year then 366 else 365 := by
  by_cases h : Leap year <;> simp [yearDays, before, List.range'_succ, monthDays, h]

/-- An instant from 1900 on, in the Gregorian calendar. -/
@[ext]
structure DateTime where
  year : Nat
  month : Nat
  day : Nat
  hour : Nat
  minute : Nat
  second : Nat
  millisecond : Nat
  year_from : 1900 ≤ year
  month_range : 1 ≤ month ∧ month ≤ 12
  day_range : 1 ≤ day ∧ day ≤ monthDays year month
  hour_lt : hour < 24
  minute_lt : minute < 60
  second_lt : second < 60
  millisecond_lt : millisecond < 1000

namespace DateTime

def dayOfYear (d : DateTime) : Nat := before (monthDays d.year) 1 d.month + (d.day - 1)

def days (d : DateTime) : Nat := before yearDays 1900 d.year + d.dayOfYear

def msSince1900 (d : DateTime) : Nat :=
  (((d.days * 24 + d.hour) * 60 + d.minute) * 60 + d.second) * 1000 + d.millisecond

theorem atMonth (d : DateTime) : At (monthDays d.year) 1 d.dayOfYear d.month (d.day - 1) := by
  have hday := d.day_range
  exact ⟨d.month_range.1, rfl, by omega⟩

theorem atYear (d : DateTime) : At yearDays 1900 d.days d.year d.dayOfYear := by
  refine ⟨d.year_from, rfl, ?_⟩
  have hmonth := d.atMonth.inside
  have hmono := @before_mono (monthDays d.year) 1 (d.month + 1) 13 (by have := d.month_range; omega)
  rw [before_succ d.month_range.1] at hmono
  calc d.dayOfYear = before (monthDays d.year) 1 d.month + (d.day - 1) := rfl
    _ < yearDays d.year := by unfold yearDays; omega

/-- An instant is told by its count of milliseconds. -/
theorem eq_of_msSince1900 {d d' : DateTime} (h : d.msSince1900 = d'.msSince1900) : d = d' := by
  have hms := d.millisecond_lt
  have hms' := d'.millisecond_lt
  have hsecond := d.second_lt
  have hsecond' := d'.second_lt
  have hminute := d.minute_lt
  have hminute' := d'.minute_lt
  have hhour := d.hour_lt
  have hhour' := d'.hour_lt
  unfold msSince1900 at h
  -- The clock is told apart first, then the day, from the year on.
  have hdays : d.days = d'.days := by omega
  obtain ⟨hyear, hofYear⟩ := d.atYear.unique (by rw [hdays]; exact d'.atYear)
  obtain ⟨hmonth, hday⟩ := d.atMonth.unique (by rw [hyear, hofYear]; exact d'.atMonth)
  have hfrom := d.day_range.1
  have hfrom' := d'.day_range.1
  apply DateTime.ext <;> omega

/-- What the clock of the console can be set to. -/
def InClock (d : DateTime) : Prop := 2000 ≤ d.year ∧ d.year ≤ 2099

theorem InClock.days_range {d : DateTime} (h : d.InClock) : 36524 ≤ d.days ∧ d.days < 73049 := by
  have hfirst : before yearDays 1900 2000 = 36524 := by decide +kernel
  have hcentury : before yearDays 2000 2100 = 36525 := by decide +kernel
  have hlast : before yearDays 1900 2100 = 73049 := by
    rw [← before_add (by omega : 1900 ≤ 2000) (by omega), hfirst, hcentury]
  have hlow := @before_mono yearDays 1900 _ _ h.1
  have hhigh := @before_mono yearDays 1900 (d.year + 1) 2100 (by have := h.2; omega)
  rw [before_succ d.year_from] at hhigh
  have hinside := d.atYear.inside
  have htotal := d.atYear.total
  omega

end DateTime

/-! ## The text -/

/-- `%0wlu`. -/
def padded (w n : Nat) : List Char := (Nat.toDigits 10 n).leftpad w '0'

/-- `sprintf` of the parts of a date. -/
def printed (filenameFormat : Bool) (year month days hours minutes seconds milliseconds : Nat) : List Char :=
  padded 4 year ++ '-' :: (padded 2 month ++ '-' :: (padded 2 days ++ if filenameFormat then
    '_' :: (padded 2 hours ++ '-' :: (padded 2 minutes ++ '-' :: (padded 2 seconds ++ '.' :: padded 3 milliseconds)))
  else ' ' :: (padded 2 hours ++ ':' :: (padded 2 minutes ++ ':' :: padded 2 seconds))))

def DateTime.text (filenameFormat : Bool) (d : DateTime) : List Char :=
  printed filenameFormat d.year d.month d.day d.hour d.minute d.second d.millisecond

/-! ## The code -/

def daysInMonth : List Nat := [31, 28, 31, 30, 31, 30, 31, 31, 30, 31, 30, 31]

/-- The `for` loop, which leaves `month` and `days`. -/
def monthLoop (leapYear : Bool) (days month : Nat) : List Nat → Nat × Nat
  | [] => (month, days)
  | entry :: rest =>
    let dim := if month = 1 ∧ leapYear then entry + 1 else entry
    if days ≥ dim then monthLoop leapYear (days - dim) (month + 1) rest else (month, days)

def leapYear (year : Nat) : Bool := year % 4 == 0 && (year % 100 != 0 || year % 400 == 0)

def daysInYear (leapYear : Bool) : Nat := if leapYear then 366 else 365

theorem daysInYear_pos (leapYear : Bool) : 0 < daysInYear leapYear := by cases leapYear <;> decide

/-- The `while` loop, which leaves `year`, `month` and `days`. -/
def yearLoop (days year : Nat) : Nat × Nat × Nat :=
  if days ≥ daysInYear (leapYear year) then yearLoop (days - daysInYear (leapYear year)) (year + 1)
  else (year, monthLoop (leapYear year) days 0 daysInMonth)
termination_by days
decreasing_by
  have hpos := daysInYear_pos (leapYear year)
  omega

def dateTimeToString (msSince1900 : UInt64) (filenameFormat : Bool) : List Char :=
  -- `seconds` is a `u32`; whatever is taken from it fits.
  let seconds := msSince1900.toNat / 1000 % 2 ^ 32
  let milliseconds := msSince1900.toNat % 1000
  let minutes := seconds / 60
  let hours := minutes / 60
  let (year, month, days) := yearLoop (hours / 24) 1900
  printed filenameFormat year (month + 1) (days + 1) (hours % 24) (minutes % 60) (seconds % 60) milliseconds

/-- The files that a screenshot writes. -/
inductive ScreenshotFile where
  | top
  | bot
  | topRight
  | menu

/-- The format of the name, before and behind its `%s`. -/
def ScreenshotFile.format : ScreenshotFile → String × String
  | .top => ("/omiiba/screenshots/", "_top.bmp")
  | .bot => ("/omiiba/screenshots/", "_bot.bmp")
  | .topRight => ("/omiiba/screenshots/", "_top_right.bmp")
  | .menu => ("/omiiba/screenshots/rosalina_menu_", ".bmp")

/-- The name of a file, for what `osGetTime` gives. -/
def ScreenshotFile.filename (file : ScreenshotFile) (msSince1900 : UInt64) : List Char :=
  file.format.1.toList ++ dateTimeToString msSince1900 true ++ file.format.2.toList

/-! ## What the loops leave -/

theorem leapYear_eq (year : Nat) : leapYear year = decide (Leap year) := by
  rw [Bool.eq_iff_iff, decide_eq_true_iff]
  simp only [leapYear, Leap, Bool.and_eq_true, Bool.or_eq_true, beq_iff_eq, bne_iff_ne]
  omega

theorem daysInYear_leapYear (year : Nat) : daysInYear (leapYear year) = yearDays year := by
  simp [daysInYear, leapYear_eq, yearDays_eq]

theorem dim_eq (year : Nat) {month : Nat} (h : month < daysInMonth.length) :
    (if month = 1 ∧ leapYear year then daysInMonth[month] + 1 else daysInMonth[month]) = monthDays year (month + 1) := by
  have hmonth : month < 12 := h
  interval_cases month <;> simp [daysInMonth, monthDays, leapYear_eq]

/-- The induction is on the months that are left; a day of one of them is found. -/
theorem monthLoop_at (year : Nat) {dims : List Nat} : ∀ {days month : Nat}, dims = daysInMonth.drop month →
    month ≤ 12 → days < before (monthDays year) (month + 1) 13 → ∃ month' rest,
      monthLoop (leapYear year) days month dims = (month', rest) ∧ month' < 12 ∧
        At (monthDays year) (month + 1) days (month' + 1) rest := by
  induction dims with
  | nil =>
    intro days month hdims hle hdays
    have hlast : 12 ≤ month := List.drop_eq_nil_iff.mp hdims.symm
    obtain rfl : month = 12 := by omega
    simp at hdays
  | cons entry dims ih =>
    intro days month hdims hle hdays
    have hmonth : month < daysInMonth.length := by
      by_contra hover
      rw [List.drop_eq_nil_of_le (by omega)] at hdims
      cases hdims
    rw [List.drop_eq_getElem_cons hmonth] at hdims
    injection hdims with hentry htail
    subst hentry
    unfold monthLoop
    rw [dim_eq year hmonth]
    dsimp only
    split
    · rename_i hover
      rw [before_head (by have hlt : month < 12 := hmonth; omega)] at hdays
      obtain ⟨month', rest, hloop, hlt, hat⟩ := @ih (days - monthDays year (month + 1)) (month + 1) htail hmonth (by omega)
      exact ⟨month', rest, hloop, hlt, hat.next hover⟩
    · rename_i hinside
      exact ⟨month, days, rfl, hmonth, At.here (by omega)⟩

theorem yearLoop_at (days year : Nat) : ∃ year' month rest ofYear, yearLoop days year = (year', month, rest) ∧
    month < 12 ∧ At yearDays year days year' ofYear ∧ At (monthDays year') 1 ofYear (month + 1) rest := by
  fun_induction yearLoop days year with
  | case1 days year hover ih =>
    rw [daysInYear_leapYear] at hover ih
    obtain ⟨year', month, rest, ofYear, hloop, hmonth, hyear, hat⟩ := ih
    exact ⟨year', month, rest, ofYear, by rw [daysInYear_leapYear, hloop], hmonth, hyear.next hover, hat⟩
  | case2 days year hinside =>
    rw [daysInYear_leapYear] at hinside
    obtain ⟨month, rest, hloop, hmonth, hat⟩ :=
      @monthLoop_at year daysInMonth days 0 rfl (by omega) (not_le.mp hinside)
    exact ⟨year, month, rest, days, by rw [hloop], hmonth, At.here (by omega), hat⟩

/-- The milliseconds that the `u32` of seconds leaves. -/
def narrowed (msSince1900 : UInt64) : Nat := msSince1900.toNat / 1000 % 2 ^ 32 * 1000 + msSince1900.toNat % 1000

theorem narrowed_eq_iff (msSince1900 : UInt64) :
    narrowed msSince1900 = msSince1900.toNat ↔ msSince1900.toNat / 1000 < 2 ^ 32 := by
  unfold narrowed
  omega

/-- The text is the one of a date. -/
theorem shown (msSince1900 : UInt64) : ∃ d : DateTime, d.msSince1900 = narrowed msSince1900 ∧
    ∀ filenameFormat, dateTimeToString msSince1900 filenameFormat = d.text filenameFormat := by
  obtain ⟨year, month, rest, ofYear, hloop, hmonth, hyear, hat⟩ :=
    yearLoop_at (msSince1900.toNat / 1000 % 2 ^ 32 / 60 / 60 / 24) 1900
  have hinside := hat.inside
  refine ⟨⟨year, month + 1, rest + 1, msSince1900.toNat / 1000 % 2 ^ 32 / 60 / 60 % 24,
    msSince1900.toNat / 1000 % 2 ^ 32 / 60 % 60, msSince1900.toNat / 1000 % 2 ^ 32 % 60, msSince1900.toNat % 1000,
    hyear.from_start, by omega, by omega, by omega, by omega, by omega, by omega⟩, ?_, ?_⟩
  · have htotal := hyear.total
    rw [hat.total] at htotal
    simp only [DateTime.msSince1900, DateTime.days, DateTime.dayOfYear, narrowed, Nat.add_sub_cancel, ← htotal]
    omega
  · intro filenameFormat
    simp only [dateTimeToString, hloop]
    rfl

/-! ## What a text tells -/

theorem isDigit_of_mem_padded {w n : Nat} {c : Char} (h : c ∈ padded w n) : c.isDigit := by
  rcases List.mem_append.mp h with hzero | hdigit
  · rw [List.eq_of_mem_replicate hzero]
    rfl
  · exact Nat.isDigit_of_mem_toDigits (by decide) (by decide) hdigit

@[simp] theorem ofDigitChars_padded (w n : Nat) : Nat.ofDigitChars 10 (padded w n) 0 = n := by
  simp [padded, List.leftpad, Nat.ofDigitChars_append]

theorem padded_inj {w n n' : Nat} (h : padded w n = padded w n') : n = n' := by
  rw [← ofDigitChars_padded w n, h, ofDigitChars_padded]

theorem padded_ne_nil {w n : Nat} : padded w n ≠ [] := by
  simp [padded, List.leftpad]

/-- A number ends where its digits do. -/
theorem padded_append_inj {w n n' : Nat} {c c' : Char} {rest rest' : List Char} (hc : c.isDigit = false)
    (hc' : c'.isDigit = false) (h : padded w n ++ c :: rest = padded w n' ++ c' :: rest') : n = n' ∧ rest = rest' := by
  have hdigits := congrArg (List.takeWhile Char.isDigit) h
  rw [List.takeWhile_append_of_pos (fun _ => isDigit_of_mem_padded),
    List.takeWhile_append_of_pos (fun _ => isDigit_of_mem_padded)] at hdigits
  simp only [List.takeWhile_cons, hc, hc', Bool.false_eq_true, if_false, List.append_nil] at hdigits
  obtain rfl := padded_inj hdigits
  exact ⟨rfl, (List.cons.inj (List.append_cancel_left h)).2⟩

/-- A text with something else behind it is the text of one second, and where the milliseconds are in it of one
millisecond. -/
theorem text_append_inj {filenameFormat : Bool} {d d' : DateTime} {c c' : Char} {rest rest' : List Char}
    (hc : c.isDigit = false) (hc' : c'.isDigit = false)
    (h : d.text filenameFormat ++ c :: rest = d'.text filenameFormat ++ c' :: rest') :
    d.msSince1900 / 1000 = d'.msSince1900 / 1000 ∧ (filenameFormat → d.msSince1900 = d'.msSince1900) := by
  have hms := d.millisecond_lt
  have hms' := d'.millisecond_lt
  simp only [DateTime.text, printed, List.append_assoc, List.cons_append] at h
  obtain ⟨hyear, h⟩ := padded_append_inj (by decide) (by decide) h
  obtain ⟨hmonth, h⟩ := padded_append_inj (by decide) (by decide) h
  unfold DateTime.msSince1900 DateTime.days DateTime.dayOfYear
  cases filenameFormat with
  | false =>
    simp only [Bool.false_eq_true, if_false, List.cons_append, List.append_assoc] at h
    obtain ⟨hday, h⟩ := padded_append_inj (by decide) (by decide) h
    obtain ⟨hhour, h⟩ := padded_append_inj (by decide) (by decide) h
    obtain ⟨hminute, h⟩ := padded_append_inj (by decide) (by decide) h
    obtain ⟨hsecond, -⟩ := padded_append_inj hc hc' h
    rw [hyear, hmonth, hday, hhour, hminute, hsecond]
    exact ⟨by omega, by simp⟩
  | true =>
    simp only [if_true, List.cons_append, List.append_assoc] at h
    obtain ⟨hday, h⟩ := padded_append_inj (by decide) (by decide) h
    obtain ⟨hhour, h⟩ := padded_append_inj (by decide) (by decide) h
    obtain ⟨hminute, h⟩ := padded_append_inj (by decide) (by decide) h
    obtain ⟨hsecond, h⟩ := padded_append_inj (by decide) (by decide) h
    obtain ⟨hmillisecond, -⟩ := padded_append_inj hc hc' h
    rw [hyear, hmonth, hday, hhour, hminute, hsecond, hmillisecond]
    exact ⟨rfl, fun _ => rfl⟩

/-- A date begins with a digit. -/
theorem text_head (filenameFormat : Bool) (d : DateTime) : ∃ c rest, d.text filenameFormat = c :: rest ∧ c.isDigit := by
  obtain ⟨c, digits, hdigits⟩ := List.exists_cons_of_ne_nil (@padded_ne_nil 4 d.year)
  have hc : c ∈ padded 4 d.year := hdigits ▸ List.mem_cons_self
  rw [DateTime.text, printed, hdigits, List.cons_append]
  exact ⟨c, _, rfl, isDigit_of_mem_padded hc⟩

/-- The formats have something that is no digit behind the date, and the one beginning or the other. -/
theorem format_cases (file : ScreenshotFile) : (∃ c rest, file.format.2.toList = c :: rest ∧ c.isDigit = false) ∧
    (file.format.1.toList = "/omiiba/screenshots/".toList ∨
      file.format.1.toList = "/omiiba/screenshots/".toList ++ 'r' :: "osalina_menu_".toList) := by
  cases file <;> simp [ScreenshotFile.format]

/-- The name of a file tells the date, whichever file it is. -/
theorem narrowed_of_filename {file file' : ScreenshotFile} {ms ms' : UInt64} (h : file.filename ms = file'.filename ms') :
    narrowed ms = narrowed ms' := by
  obtain ⟨d, hd, htext⟩ := shown ms
  obtain ⟨d', hd', htext'⟩ := shown ms'
  rw [← hd, ← hd']
  obtain ⟨⟨c, rest, hbehind, hc⟩, hbefore⟩ := format_cases file
  obtain ⟨⟨c', rest', hbehind', hc'⟩, hbefore'⟩ := format_cases file'
  unfold ScreenshotFile.filename at h
  rw [htext, htext', hbehind, hbehind'] at h
  rcases hbefore with hbefore | hbefore <;> rcases hbefore' with hbefore' | hbefore' <;>
    rw [hbefore, hbefore'] at h <;> simp only [List.append_assoc, List.cons_append, List.append_right_inj] at h
  · exact (text_append_inj hc hc' h).2 rfl
  · -- The menu's name goes on with a letter.
    obtain ⟨head, tail, hhead, hdigit⟩ := text_head true d
    rw [hhead, List.cons_append] at h
    rw [(List.cons.inj h).1] at hdigit
    exact absurd hdigit (by decide)
  · obtain ⟨head, tail, hhead, hdigit⟩ := text_head true d'
    rw [hhead, List.cons_append] at h
    rw [← (List.cons.inj h).1] at hdigit
    exact absurd hdigit (by decide)
  · have htail := List.append_cancel_left (List.cons.inj h).2
    exact (text_append_inj hc hc' htail).2 rfl

/-! ## The claim on dates -/

/-- The text is the one of the date that the count denotes exactly where the seconds fit in 32 bits. -/
theorem text_iff (msSince1900 : UInt64) (filenameFormat : Bool) :
    (∃! d : DateTime, d.msSince1900 = msSince1900.toNat ∧
      dateTimeToString msSince1900 filenameFormat = d.text filenameFormat) ↔ msSince1900.toNat / 1000 < 2 ^ 32 := by
  obtain ⟨shownDate, hshown, htext⟩ := shown msSince1900
  constructor
  · rintro ⟨d, ⟨hd, hdate⟩, -⟩
    have hsame : shownDate.text filenameFormat ++ ['_'] = d.text filenameFormat ++ ['_'] := by rw [← htext, hdate]
    have hseconds := (text_append_inj (by decide) (by decide) hsame).1
    rw [hshown, hd] at hseconds
    unfold narrowed at hseconds
    omega
  · intro hfits
    have hcount : shownDate.msSince1900 = msSince1900.toNat := by
      rw [hshown, (narrowed_eq_iff msSince1900).mpr hfits]
    refine ⟨shownDate, ⟨hcount, htext filenameFormat⟩, ?_⟩
    rintro d ⟨hd, -⟩
    exact DateTime.eq_of_msSince1900 (by rw [hd, hcount])

/-- A name of a file is for one millisecond of what the clock can hold. -/
theorem filename_inj {file file' : ScreenshotFile} {ms ms' : UInt64} {d d' : DateTime} (hclock : d.InClock)
    (hclock' : d'.InClock) (hd : d.msSince1900 = ms.toNat) (hd' : d'.msSince1900 = ms'.toNat)
    (hname : file.filename ms = file'.filename ms') : ms = ms' := by
  have hnarrowed := narrowed_of_filename hname
  have hrange := hclock.days_range
  have hrange' := hclock'.days_range
  -- The dates of the clock are less than `2 ^ 32` seconds apart.
  unfold DateTime.msSince1900 at hd hd'
  unfold narrowed at hnarrowed
  have hhour := d.hour_lt
  have hhour' := d'.hour_lt
  have hminute := d.minute_lt
  have hminute' := d'.minute_lt
  have hsecond := d.second_lt
  have hsecond' := d'.second_lt
  have hmillisecond := d.millisecond_lt
  have hmillisecond' := d'.millisecond_lt
  apply UInt64.toNat_inj.mp
  omega

/-- The text is right until the seconds are more than 32 bits have; the name of a file is its millisecond's alone in
any case. -/
theorem dateTimeToString_iff (msSince1900 : UInt64) (filenameFormat : Bool) :
    ((∃! d : DateTime, d.msSince1900 = msSince1900.toNat ∧
      dateTimeToString msSince1900 filenameFormat = d.text filenameFormat) ↔ msSince1900.toNat / 1000 < 2 ^ 32) ∧
    ∀ (file file' : ScreenshotFile) (ms' : UInt64) (d d' : DateTime), d.InClock → d'.InClock →
      d.msSince1900 = msSince1900.toNat → d'.msSince1900 = ms'.toNat →
      file.filename msSince1900 = file'.filename ms' → msSince1900 = ms' :=
  ⟨text_iff msSince1900 filenameFormat, fun _ _ _ _ _ => filename_inj⟩

/-- At 2036-02-07 06:28:16 the name of the file is the one of 1900-01-01. -/
theorem wrapped_date : ∃ d : DateTime, d.InClock ∧ d.msSince1900 = (4294967296000 : UInt64).toNat ∧
    ¬ ∃ d' : DateTime, d'.msSince1900 = (4294967296000 : UInt64).toNat ∧
      dateTimeToString 4294967296000 true = d'.text true := by
  have hfirst : before yearDays 1900 2000 = 36524 := by decide +kernel
  have hsince : before yearDays 2000 2036 = 13149 := by decide +kernel
  have hyears : before yearDays 1900 2036 = 49673 := by
    rw [← before_add (by omega : 1900 ≤ 2000) (by omega), hfirst, hsince]
  have hmonth : before (monthDays 2036) 1 2 = 31 := by decide +kernel
  refine ⟨⟨2036, 2, 7, 6, 28, 16, 0, by decide, by decide, by decide, by decide, by decide, by decide, by decide⟩,
    by unfold DateTime.InClock; decide, ?_, ?_⟩
  · simp only [DateTime.msSince1900, DateTime.days, DateTime.dayOfYear, hyears, hmonth]
    rfl
  · rintro ⟨d', hd', hdate⟩
    obtain ⟨shownDate, hshown, htext⟩ := shown 4294967296000
    have hsame : shownDate.text true ++ ['_'] = d'.text true ++ ['_'] := by rw [← htext, hdate]
    have hms := (text_append_inj (by decide) (by decide) hsame).2 rfl
    rw [hshown, hd'] at hms
    exact absurd hms (by decide)

end Omiiba.Rosalina
