/-
Which texts config.c reads as fractions. It takes a text apart into a sign, a whole part and decimals; it does so with
texts that denote no number too, and it does not always put the parts of those that do together as they should be.
-/
import Omiiba.Arm9.OptionNumbers

namespace Omiiba.Arm9

/-! ## What a text denotes -/

/-- The first eight of some decimals, in units of `FLOAT_CONV_MULT`. -/
def decimalsValue (ds : List Nat) : Nat := valueOf 10 (ds.take 8) * 10 ^ (8 - ds.length)

def wholeText (s : CStr) : CStr := s.takeWhile (· ≠ '.')

/-- What is behind the point. -/
def decimalsText (s : CStr) : CStr := (s.dropWhile (· ≠ '.')).tail

/-- The number of a text without a sign, truncated after eight decimals: digits with at most one point among them, and at
least one digit. -/
def denotedMagnitude (s : CStr) : Option Nat :=
  match (wholeText s).mapM digitOf, (decimalsText s).mapM digitOf with
  | some ds, some fs => if ds = [] ∧ fs = [] then none else some (valueOf 10 ds * 10 ^ 8 + decimalsValue fs)
  | _, _ => none

/-- The number that a text denotes, in units of `FLOAT_CONV_MULT`. -/
def denotedFraction : CStr → Option Int
  | '+' :: s => (denotedMagnitude s).map fun n : Nat => (n : Int)
  | '-' :: s => (denotedMagnitude s).map fun n : Nat => -(n : Int)
  | s => (denotedMagnitude s).map fun n : Nat => (n : Int)

/-! ## What config.c takes a text to be -/

/-- The parts of a text: the whole part can have a sign of its own, and there can be anything behind eight decimals. -/
structure Parts where
  sign : Int
  second : Option Int
  whole : Nat
  decimals : Nat
  junk : Bool

/-- The second sign and the number of the whole part. -/
def takeWhole : CStr → Option (Option Int × Nat)
  | [] => some (none, 0)
  | '+' :: s => (denotedNat 10 digitOf s).map fun n => (some 1, n)
  | '-' :: s => (denotedNat 10 digitOf s).map fun n => (some (-1), n)
  | s => (denotedNat 10 digitOf s).map fun n => (none, n)

def takeUnsigned (sign : Int) (s : CStr) : Option Parts :=
  if s = [] ∨ s = ['.'] then none
  else
    match takeWhole (wholeText s), ((decimalsText s).take 8).mapM digitOf with
    | some (second, whole), some ds =>
      some ⟨sign, second, whole, decimalsValue ds, (((decimalsText s).drop 8).mapM digitOf).isNone⟩
    | _, _ => none

def takeApart : CStr → Option Parts
  | '+' :: s => takeUnsigned 1 s
  | '-' :: s => takeUnsigned (-1) s
  | s => takeUnsigned 1 s

namespace Parts

/-- The parts of a text that denotes a number. -/
def WellFormed (t : Parts) : Prop := t.second = none ∧ t.junk = false

instance (t : Parts) : Decidable t.WellFormed := inferInstanceAs (Decidable (_ ∧ _))

def magnitude (t : Parts) : Nat := t.whole * 10 ^ 8 + t.decimals

def denoted (t : Parts) : Int := t.sign * t.magnitude

/-- What an `s64` keeps of the whole part, with both signs. -/
def signedWhole (t : Parts) : Int := wrap64 (t.sign * (t.second.getD 1 * t.whole))

/-- What the parts are put together to, unless the whole part is too large: the decimals are added to the whole part with its
signs, and the sum gets the first sign again. -/
def sum (t : Parts) : Int := wrap64 (t.sign * (t.signedWhole * floatConvMult + t.decimals))

end Parts

/-! ## The parser takes a text apart -/

theorem digitOf_lt {c : Char} {n : Nat} (h : digitOf c = some n) : n < 10 := by
  unfold digitOf at h
  split_ifs at h with hc
  obtain rfl := Option.some.inj h
  have hle : c.toNat ≤ '9'.toNat := hc.2
  have hnine : '9'.toNat = 57 := rfl
  have hzero : '0'.toNat = 48 := rfl
  omega

theorem length_of_mapM {s : CStr} : ∀ {ds : List Nat}, s.mapM digitOf = some ds → ds.length = s.length := by
  induction s with
  | nil =>
    intro ds h
    obtain rfl := Option.some.inj h
    rfl
  | cons c s ih =>
    intro ds h
    rw [List.mapM_cons] at h
    cases hn : digitOf c with
    | none => simp [hn] at h
    | some n =>
      cases hds : s.mapM digitOf with
      | none => simp [hn, hds] at h
      | some rest =>
        obtain rfl : n :: rest = ds := by simpa [hn, hds] using h
        exact congrArg (· + 1) (ih hds)

theorem digits_of_mapM {s : CStr} : ∀ {ds : List Nat}, s.mapM digitOf = some ds → ∀ d ∈ ds, d < 10 := by
  induction s with
  | nil =>
    intro ds h
    obtain rfl := Option.some.inj h
    simp
  | cons c s ih =>
    intro ds h
    rw [List.mapM_cons] at h
    cases hn : digitOf c with
    | none => simp [hn] at h
    | some n =>
      cases hds : s.mapM digitOf with
      | none => simp [hn, hds] at h
      | some rest =>
        obtain rfl : n :: rest = ds := by simpa [hn, hds] using h
        intro d hd
        rcases List.mem_cons.mp hd with rfl | hd
        · exact digitOf_lt hn
        · exact ih hds d hd

theorem decimalsValue_lt {ds : List Nat} (h : ∀ d ∈ ds, d < 10) : decimalsValue ds < 10 ^ 8 := by
  have hvalue : valueOf 10 (ds.take 8) < 10 ^ (ds.take 8).length := by
    have hlt := Nat.ofDigits_lt_base_pow_length (b := 10) (l := (ds.take 8).reverse) (by norm_num)
      fun d hd => h d (List.mem_of_mem_take (List.mem_reverse.mp hd))
    rwa [List.length_reverse] at hlt
  unfold decimalsValue
  calc valueOf 10 (ds.take 8) * 10 ^ (8 - ds.length)
      < 10 ^ (ds.take 8).length * 10 ^ (8 - ds.length) := Nat.mul_lt_mul_of_pos_right hvalue (by positivity)
    _ = 10 ^ 8 := by
      rw [← pow_add, List.length_take]
      congr 1
      omega

/-- The loop over the decimals, of which `k` are left, does not look behind them. -/
theorem parseFraction_eq (s : CStr) : ∀ (k : Nat) (x : Int),
    parseFraction (wrap64 x) (10 ^ k / 10) s =
      ((s.take k).mapM digitOf).map fun ds => wrap64 (x + (valueOf 10 ds * 10 ^ (k - ds.length) : Nat)) := by
  induction s with
  | nil => simp [parseFraction, valueOf]
  | cons c s ih =>
    intro k x
    cases k with
    | zero => simp [parseFraction, valueOf]
    | succ k =>
      have hmul : (10 : Int) ^ (k + 1) / 10 = 10 ^ k := by
        rw [pow_succ]
        exact Int.mul_ediv_cancel _ (by norm_num)
      have hpos : (0 : Int) < 10 ^ k := by positivity
      rw [parseFraction, hmul, if_pos hpos, List.take_succ_cons, List.mapM_cons]
      cases digitOf c with
      | none => rfl
      | some n =>
        have hstep : wrap64 (wrap64 x + n * 10 ^ k) = wrap64 (x + n * 10 ^ k) := by
          unfold wrap64
          rw [Int.bmod_add_cancel_right, Int.bmod_bmod]
        simp only [hstep]
        rw [ih]
        cases hds : (s.take k).mapM digitOf with
        | none => rfl
        | some ds =>
          have hlen : ds.length ≤ k := by
            rw [length_of_mapM hds, List.length_take]
            exact Nat.min_le_left _ _
          have hsum : x + n * 10 ^ k + (valueOf 10 ds * 10 ^ (k - ds.length) : Nat) =
              x + (valueOf 10 (n :: ds) * 10 ^ (k + 1 - (n :: ds).length) : Nat) := by
            rw [valueOf_cons, List.length_cons, Nat.add_sub_add_right, Nat.add_mul, Nat.mul_assoc, ← pow_add,
              Nat.add_sub_cancel' hlen]
            push_cast
            ring
          exact congrArg (fun y => some (wrap64 y)) hsum

theorem takeWhole_unsigned {c : Char} {s : CStr} (hplus : c ≠ '+') (hminus : c ≠ '-') :
    takeWhole (c :: s) = (denotedNat 10 digitOf (c :: s)).map fun n => (none, n) := by
  unfold takeWhole
  split
  · rename_i heq
    exact absurd heq (List.cons_ne_nil c s)
  · rename_i heq
    exact absurd (List.cons.inj heq).1 hplus
  · rename_i heq
    exact absurd (List.cons.inj heq).1 hminus
  · rfl

/-- The whole part is what `parseDecInt` reads: a sign in it is one of its own. -/
theorem parseDecInt_whole {w : CStr} (hw : w ≠ []) :
    parseDecInt w int64Min int64Max = (takeWhole w).map fun (second, n) => wrap64 (second.getD 1 * n) := by
  have hin : ∀ x : Int, inBounds int64Min int64Max (wrap64 x) = some (wrap64 x) := by
    intro x
    have hbounds := wrap64_bounds x
    refine inBounds_some_iff.mpr ⟨rfl, ?_⟩
    unfold InRange int64Min int64Max
    omega
  rw [parseDecInt_eq, if_neg hw]
  simp only [hin]
  rcases w with _ | ⟨c, s⟩
  · exact absurd rfl hw
  by_cases hplus : c = '+'
  · subst hplus
    rw [denotedInt, takeWhole]
    cases denotedNat 10 digitOf s <;> simp
  by_cases hminus : c = '-'
  · subst hminus
    rw [denotedInt, takeWhole]
    cases denotedNat 10 digitOf s <;> simp
  · rw [denotedInt_unsigned hplus hminus, takeWhole_unsigned hplus hminus]
    cases denotedNat 10 digitOf (c :: s) <;> simp

/-- The whole part denotes a number if it has no sign of its own. -/
theorem takeWhole_spec (w : CStr) :
    (w.mapM digitOf).map (valueOf 10) = (takeWhole w).bind fun (second, n) => if second = none then some n else none := by
  rcases w with _ | ⟨c, s⟩
  · rfl
  by_cases hplus : c = '+'
  · subst hplus
    rw [takeWhole, List.mapM_cons, show digitOf '+' = none from rfl]
    cases denotedNat 10 digitOf s <;> simp
  by_cases hminus : c = '-'
  · subst hminus
    rw [takeWhole, List.mapM_cons, show digitOf '-' = none from rfl]
    cases denotedNat 10 digitOf s <;> simp
  · rw [takeWhole_unsigned hplus hminus, denotedNat, if_neg (List.cons_ne_nil c s)]
    cases (c :: s).mapM digitOf <;> simp

/-- There is a digit, or something in the place of one. -/
theorem texts_nil_iff (s : CStr) : wholeText s = [] ∧ decimalsText s = [] ↔ s = [] ∨ s = ['.'] := by
  rcases s with _ | ⟨c, s⟩
  · simp [wholeText, decimalsText]
  · by_cases hc : c = '.'
    · subst hc
      simp [wholeText, decimalsText]
    · simp [wholeText, hc]

theorem behind_length_one_iff {s : CStr} (hwhole : wholeText s = []) (hs : s ≠ []) :
    (s.dropWhile (· ≠ '.')).length = 1 ↔ s = ['.'] := by
  rcases s with _ | ⟨c, s⟩
  · exact absurd rfl hs
  · by_cases hc : c = '.'
    · subst hc
      simp
    · simp [wholeText, hc] at hwhole

theorem parseFraction_decimals {x : Int} (hlow : int64Min ≤ x) (hhigh : x ≤ int64Max) (s : CStr) :
    parseFraction x (floatConvMult / 10) s = ((s.take 8).mapM digitOf).map fun ds => wrap64 (x + decimalsValue ds) := by
  have h := parseFraction_eq s 8 x
  unfold int64Min int64Max at *
  rw [wrap64_eq hlow (by omega)] at h
  rw [show floatConvMult / 10 = 10 ^ 8 / 10 from rfl, h]
  cases hds : (s.take 8).mapM digitOf with
  | none => rfl
  | some ds =>
    have hlen : ds.length ≤ 8 := by
      rw [length_of_mapM hds, List.length_take]
      exact Nat.min_le_left _ _
    rw [Option.map_some, Option.map_some, decimalsValue, List.take_of_length_le hlen]

/-- After its first sign, a text is taken apart, and the parts are put together again. -/
theorem parseUnsignedFloat_eq {sign : Int} (hsign : sign = 1 ∨ sign = -1) (s : CStr) (minval maxval : Int) :
    parseUnsignedFloat sign s minval maxval =
      (takeUnsigned sign s).bind fun t =>
        if InRange int64Min int64Max (t.signedWhole * floatConvMult) then inBounds minval maxval t.sum else none := by
  unfold parseUnsignedFloat takeUnsigned
  by_cases hs : s = []
  · simp [hs]
  rw [if_neg hs]
  have hint : (if wholeText s = [] then if (s.dropWhile (· ≠ '.')).length = 1 then none else some 0
      else parseDecInt (wholeText s) int64Min int64Max) =
      if s = [] ∨ s = ['.'] then none else (takeWhole (wholeText s)).map fun (second, n) => wrap64 (second.getD 1 * n) := by
    by_cases hwhole : wholeText s = []
    · rw [if_pos hwhole, hwhole]
      simp only [behind_length_one_iff hwhole hs, hs, false_or]
      rfl
    · have hpoint : s ≠ ['.'] := by
        rintro rfl
        exact hwhole rfl
      rw [if_neg hwhole, parseDecInt_whole hwhole, if_neg (by simp [hs, hpoint])]
  dsimp only
  rw [show s.takeWhile (· ≠ '.') = wholeText s from rfl, hint]
  by_cases hpoint : s = [] ∨ s = ['.']
  · simp only [if_pos hpoint]
    rfl
  simp only [if_neg hpoint]
  cases htake : takeWhole (wholeText s) with
  | none => rfl
  | some r =>
    obtain ⟨second, n⟩ := r
    have habs : (if sign = -1 then wrap64 (-wrap64 (second.getD 1 * n)) else wrap64 (second.getD 1 * n)) =
        wrap64 (sign * (second.getD 1 * n)) := by
      rcases hsign with rfl | rfl
      · rw [if_neg (by norm_num), one_mul]
      · rw [if_pos rfl, ← neg_one_mul, wrap64_mul]
    simp only [Option.map_some, habs]
    by_cases hfits : InRange int64Min int64Max (wrap64 (sign * (second.getD 1 * n)) * floatConvMult)
    · rw [if_neg (by unfold InRange at hfits; omega)]
      rw [show (s.dropWhile (· ≠ '.')).tail = decimalsText s from rfl, parseFraction_decimals hfits.1 hfits.2]
      cases ((decimalsText s).take 8).mapM digitOf with
      | none => rfl
      | some ds =>
        show inBounds minval maxval (wrap64 (sign * wrap64 _)) = if _ then _ else _
        rw [wrap64_mul, if_pos (by exact hfits)]
        rfl
    · rw [if_pos (by unfold InRange at hfits; omega)]
      cases ((decimalsText s).take 8).mapM digitOf with
      | none => rfl
      | some ds =>
        show none = if _ then _ else _
        rw [if_neg (by exact hfits)]

/-- The decimals behind the eighth one change nothing. -/
theorem decimalsValue_append {ds fs : List Nat} (h : ds.length = 8 ∨ fs = []) :
    decimalsValue (ds ++ fs) = decimalsValue ds := by
  rcases h with hlen | rfl
  · unfold decimalsValue
    rw [List.take_append_of_le_length (by omega), List.length_append, hlen]
    simp
  · rw [List.append_nil]

/-- What a text denotes, in terms of what it is taken to be. -/
theorem denotedMagnitude_eq (sign : Int) (s : CStr) :
    denotedMagnitude s =
      (takeUnsigned sign s).bind fun t => if t.second = none ∧ t.junk = false then some t.magnitude else none := by
  have hspec := takeWhole_spec (wholeText s)
  have hparts : (decimalsText s).mapM digitOf =
      (((decimalsText s).take 8).mapM digitOf).bind fun ds =>
        (((decimalsText s).drop 8).mapM digitOf).map fun fs => ds ++ fs := by
    conv_lhs => rw [← List.take_append_drop 8 (decimalsText s), List.mapM_append]
    cases ((decimalsText s).take 8).mapM digitOf <;> cases ((decimalsText s).drop 8).mapM digitOf <;> rfl
  unfold denotedMagnitude takeUnsigned
  rw [hparts]
  by_cases hpoint : s = [] ∨ s = ['.']
  · rw [if_pos hpoint]
    obtain ⟨hwhole, hdecimals⟩ := (texts_nil_iff s).mpr hpoint
    rw [hwhole, hdecimals]
    rfl
  rw [if_neg hpoint]
  cases hwhole : (wholeText s).mapM digitOf with
  | none =>
    rw [hwhole] at hspec
    cases htake : takeWhole (wholeText s) with
    | none => rfl
    | some r =>
      obtain ⟨second, n⟩ := r
      cases second with
      | none => simp [htake] at hspec
      | some second =>
        cases ((decimalsText s).take 8).mapM digitOf <;> simp
  | some ds =>
    rw [hwhole] at hspec
    cases htake : takeWhole (wholeText s) with
    | none => simp [htake] at hspec
    | some r =>
      obtain ⟨second, n⟩ := r
      cases second with
      | some second => simp [htake] at hspec
      | none =>
        obtain rfl : valueOf 10 ds = n := by simpa [htake] using hspec
        cases hfirst : ((decimalsText s).take 8).mapM digitOf with
        | none => rfl
        | some fs =>
          cases hrest : ((decimalsText s).drop 8).mapM digitOf with
          | none => rfl
          | some gs =>
            have hlen : fs.length = 8 ∨ gs = [] := by
              have hfs := length_of_mapM hfirst
              have hgs := length_of_mapM hrest
              rw [List.length_take] at hfs
              rw [List.length_drop] at hgs
              by_cases hlong : 8 ≤ (decimalsText s).length
              · exact Or.inl (by omega)
              · exact Or.inr (List.length_eq_zero_iff.mp (by omega))
            have hsome : ¬(ds = [] ∧ fs ++ gs = []) := by
              rintro ⟨rfl, hnil⟩
              obtain ⟨rfl, rfl⟩ := List.append_eq_nil_iff.mp hnil
              have hds := length_of_mapM hwhole
              have hfs := length_of_mapM hfirst
              rw [List.length_take] at hfs
              refine hpoint ((texts_nil_iff s).mp ⟨List.length_eq_zero_iff.mp hds.symm, List.length_eq_zero_iff.mp ?_⟩)
              rw [List.length_nil] at hfs
              omega
            simp only [Option.bind_some, Option.map_some, if_neg hsome, decimalsValue_append hlen]
            rfl

/-- The signs are signs, and the decimals are less than one. -/
theorem takeUnsigned_bounds {sign : Int} {s : CStr} {t : Parts} (h : takeUnsigned sign s = some t) :
    t.sign = sign ∧ t.decimals < 10 ^ 8 := by
  unfold takeUnsigned at h
  split_ifs at h
  split at h
  · rename_i second whole ds _ hds
    obtain rfl := Option.some.inj h
    exact ⟨rfl, decimalsValue_lt (digits_of_mapM hds)⟩
  · exact absurd h (by simp)

theorem takeApart_bounds {val : CStr} {t : Parts} (h : takeApart val = some t) :
    (t.sign = 1 ∨ t.sign = -1) ∧ t.decimals < 10 ^ 8 := by
  unfold takeApart at h
  split at h
  · exact ⟨Or.inl (takeUnsigned_bounds h).1, (takeUnsigned_bounds h).2⟩
  · exact ⟨Or.inr (takeUnsigned_bounds h).1, (takeUnsigned_bounds h).2⟩
  · exact ⟨Or.inl (takeUnsigned_bounds h).1, (takeUnsigned_bounds h).2⟩

theorem parseDecFloatOption_eq (val : CStr) (minval maxval : Int) :
    parseDecFloatOption val minval maxval =
      (takeApart val).bind fun t =>
        if InRange int64Min int64Max (t.signedWhole * floatConvMult) then inBounds minval maxval t.sum else none := by
  unfold parseDecFloatOption takeApart
  split
  · rfl
  · exact parseUnsignedFloat_eq (Or.inl rfl) _ minval maxval
  · exact parseUnsignedFloat_eq (Or.inr rfl) _ minval maxval
  · rename_i hplus hminus
    split
    · exact absurd rfl (hplus _)
    · exact absurd rfl (hminus _)
    · exact parseUnsignedFloat_eq (Or.inl rfl) _ minval maxval

theorem denotedFraction_eq (val : CStr) :
    denotedFraction val =
      (takeApart val).bind fun t => if t.second = none ∧ t.junk = false then some t.denoted else none := by
  have hsigned : ∀ (sign : Int) (s : CStr), (denotedMagnitude s).map (fun n : Nat => sign * (n : Int)) =
      (takeUnsigned sign s).bind fun t => if t.second = none ∧ t.junk = false then some t.denoted else none := by
    intro sign s
    rw [denotedMagnitude_eq sign s]
    cases htake : takeUnsigned sign s with
    | none => rfl
    | some t =>
      have ht := (takeUnsigned_bounds htake).1
      rw [Option.bind_some, Option.bind_some]
      split
      · rw [Option.map_some, Parts.denoted, ht]
      · rfl
  have hone : (fun n : Nat => (1 : Int) * (n : Int)) = fun n : Nat => (n : Int) := funext fun n => one_mul _
  have hneg : (fun n : Nat => (-1 : Int) * (n : Int)) = fun n : Nat => -(n : Int) := funext fun n => neg_one_mul _
  unfold denotedFraction takeApart
  split
  · rw [← hone]
    exact hsigned 1 _
  · rw [← hneg]
    exact hsigned (-1) _
  · rw [← hone]
    exact hsigned 1 _

/-! ## Where the parser of fractions is right -/

/-- The texts that are read as they should be: they denote a number that an `s64` can hold, and a negative one only if its
whole part is 0. -/
def Parts.Right (t : Parts) : Prop := t.WellFormed ∧ (t.sign = 1 ∨ t.whole = 0) ∧ t.magnitude < 2 ^ 63

theorem right_sum {t : Parts} (hsign : t.sign = 1 ∨ t.sign = -1) (hdecimals : t.decimals < 10 ^ 8) (h : t.Right) :
    InRange int64Min int64Max (t.signedWhole * floatConvMult) ∧ t.sum = t.denoted := by
  obtain ⟨⟨hsecond, -⟩, hwhole, hfits⟩ := h
  unfold Parts.magnitude at hfits
  have hpart : t.signedWhole = t.whole := by
    unfold Parts.signedWhole
    rw [hsecond, Option.getD_none, one_mul]
    rcases hwhole with hone | hzero
    · rw [hone, one_mul, wrap64_eq (by omega) (by omega)]
    · rw [hzero, Nat.cast_zero, mul_zero]
      rfl
  unfold Parts.sum Parts.denoted Parts.magnitude
  rw [hpart]
  unfold InRange int64Min int64Max floatConvMult
  refine ⟨by omega, ?_⟩
  rcases hsign with hone | hneg
  · rw [hone, one_mul, one_mul, wrap64_eq (by omega) (by omega)]
    push_cast
    rfl
  · have hzero : t.whole = 0 := hwhole.resolve_left (by rw [hneg]; norm_num)
    rw [hneg, hzero, wrap64_eq (by omega) (by omega)]
    push_cast
    ring

/-- Any other text that denotes a number of an `s64` is read as another number. -/
theorem sum_ne_denoted {t : Parts} (hsign : t.sign = 1 ∨ t.sign = -1) (hdecimals : t.decimals < 10 ^ 8) (hwf : t.WellFormed)
    (hwrong : ¬t.Right) (hdenoted : InRange int64Min int64Max t.denoted) : t.sum ≠ t.denoted := by
  intro heq
  have hsecond := hwf.1
  unfold Parts.Right Parts.magnitude at hwrong
  unfold InRange int64Min int64Max Parts.denoted Parts.magnitude at hdenoted
  push_cast at hdenoted
  rcases hsign with hone | hneg
  · rw [hone, one_mul] at hdenoted
    exact hwrong ⟨hwf, Or.inl hone, by omega⟩
  · rw [hneg] at hdenoted
    have hpart : t.signedWhole = -t.whole := by
      unfold Parts.signedWhole
      rw [hsecond, hneg, Option.getD_none, one_mul, neg_one_mul, wrap64_eq (by omega) (by omega)]
    unfold Parts.sum Parts.denoted Parts.magnitude floatConvMult at heq
    rw [hpart, hneg, wrap64_eq (by omega) (by omega)] at heq
    push_cast at heq
    exact hwrong ⟨hwf, Or.inr (by omega), by omega⟩

/-- The parser reads the number that a text denotes, truncated after eight decimals, if it lies within the bounds, and else
nothing: but it reads texts that denote no number if they have a second sign before the whole part, or anything behind eight
decimals, and it misreads negative numbers with a whole part and numbers that are too large. That is not seen only where
neither the number nor what is read for it lies within the bounds. -/
theorem fractionOption_iff (val : CStr) (minval maxval : Int64) :
    parseDecFloatOption val minval.toInt maxval.toInt =
        (denotedFraction val).bind (inBounds minval.toInt maxval.toInt) ↔
      ∀ t, takeApart val = some t → t.Right ∨
        ¬(t.WellFormed ∧ InRange minval.toInt maxval.toInt t.denoted) ∧
          ¬(InRange int64Min int64Max (t.signedWhole * floatConvMult) ∧ InRange minval.toInt maxval.toInt t.sum) := by
  rw [parseDecFloatOption_eq, denotedFraction_eq]
  cases htake : takeApart val with
  | none => simp
  | some t =>
    obtain ⟨hsign, hdecimals⟩ := takeApart_bounds htake
    simp only [Option.bind_some, Option.some.injEq, forall_eq']
    change (if _ then _ else none) = (if t.WellFormed then _ else none : Option Int).bind _ ↔ _
    constructor
    · intro heq
      by_cases hright : t.Right
      · exact Or.inl hright
      refine Or.inr ⟨fun ⟨hwf, hin⟩ => ?_, fun ⟨hfits, hin⟩ => ?_⟩
      · -- the number is accepted, and so what is read is this number
        rw [if_pos hwf, Option.bind_some, inBounds_some_iff.mpr ⟨rfl, hin⟩] at heq
        split_ifs at heq
        exact sum_ne_denoted hsign hdecimals hwf hright (int64_within hin) (inBounds_some_iff.mp heq).1
      · -- what is read is accepted, and so it is a number that the text denotes
        rw [if_pos hfits, inBounds_some_iff.mpr ⟨rfl, hin⟩] at heq
        split_ifs at heq with hwf
        · rw [Option.bind_some] at heq
          obtain ⟨hsame, hdenoted⟩ := inBounds_some_iff.mp heq.symm
          exact sum_ne_denoted hsign hdecimals hwf hright (int64_within hdenoted) hsame.symm
        · exact absurd heq (by simp)
    · rintro (hright | ⟨hdenoted, hread⟩)
      · obtain ⟨hfits, hsum⟩ := right_sum hsign hdecimals hright
        rw [if_pos hfits, if_pos hright.1, Option.bind_some, hsum]
      · have hleft : (if InRange int64Min int64Max (t.signedWhole * floatConvMult) then
            inBounds minval.toInt maxval.toInt t.sum else none) = none := by
          split_ifs with hfits
          · exact inBounds_none_iff.mpr fun hin => hread ⟨hfits, hin⟩
          · rfl
        rw [hleft]
        split_ifs with hwf
        · exact (inBounds_none_iff.mpr fun hin => hdenoted ⟨hwf, hin⟩).symm
        · rfl

/-- The brightness -1 is read as 1. -/
theorem negative_read_positive :
    parseDecFloatOption "-1".toList (-100000000 : Int64).toInt (100000000 : Int64).toInt ≠
      (denotedFraction "-1".toList).bind (inBounds (-100000000 : Int64).toInt (100000000 : Int64).toInt) := by
  decide +kernel

end Omiiba.Arm9
