/-
What a config.ini that is accepted means: an option has the value of its last line, but for the options
whose lines are or-ed into the words of the configuration.
-/
import Omiiba.Arm9.ConfigKeys

namespace Omiiba.Arm9

/-! ## Values -/

/-- The keys that have a name. -/
def namedKeys : Nat := 0xFF10CFFF

def Key.Documented : Key → Int → Prop
  | .versionMajor, opt => 0 ≤ opt ∧ opt ≤ 0xFFFF
  | .versionMinor, opt => 0 ≤ opt ∧ opt ≤ 0xFFFF
  | .single _, opt => opt = 0 ∨ opt = 1
  | .multi .splash, opt => 0 ≤ opt ∧ opt ≤ 2
  | .multi .autobootMode, opt => 0 ≤ opt ∧ opt ≤ 2
  | .multi .forceAudioOutput, opt => 0 ≤ opt ∧ opt ≤ 2
  | .multi _, opt => 0 ≤ opt ∧ opt ≤ 3
  | .splashDuration, opt => 0 ≤ opt ∧ opt ≤ 0xFFFFFFFF
  | .hbldrTitleId, opt => 0 ≤ opt ∧ opt < 2 ^ 64
  | .menuCombo, opt => 0 < opt ∧ opt.toNat &&& namedKeys = opt.toNat
  | .pluginLoader, opt => opt = 0 ∨ opt = 1
  | .ntpOffset, opt => -779 ≤ opt ∧ opt ≤ 899
  | .filter _ .cct, opt => 1000 ≤ opt ∧ opt ≤ 25100
  | .filter _ .gamma, opt => 0 ≤ opt ∧ opt ≤ 8 * floatConvMult
  | .filter _ .contrast, opt => 0 ≤ opt ∧ opt ≤ 255 * floatConvMult
  | .filter _ .brightness, opt => -1 * floatConvMult ≤ opt ∧ opt ≤ 1 * floatConvMult
  | .filter _ .invert, opt => opt = 0 ∨ opt = 1
  | .filter _ .colorCurve, opt => 0 ≤ opt ∧ opt ≤ 2
  | .autobootTitleId, opt => 0 ≤ opt ∧ opt < 2 ^ 64
  | .appMemType, opt => 0 ≤ opt ∧ opt ≤ 4
  | .volume, opt => -1 ≤ opt ∧ opt ≤ 100

theorem inBounds_bounds {minval maxval res opt : Int} (h : inBounds minval maxval res = some opt) :
    minval ≤ opt ∧ opt ≤ maxval := by
  unfold inBounds at h
  split_ifs at h with hbounds
  obtain rfl : res = opt := Option.some.inj h
  exact ⟨hbounds.2, hbounds.1⟩

theorem parseDecInt_bounds {value : CStr} {minval maxval opt : Int} (h : parseDecInt value minval maxval = some opt) :
    minval ≤ opt ∧ opt ≤ maxval := by
  unfold parseDecInt at h
  split at h
  rename_i sign digits _
  cases hdigits : parseDigits 0 digits with
  | none => simp [hdigits] at h
  | some res =>
    rw [hdigits] at h
    exact inBounds_bounds h

theorem parseUnsignedFloat_bounds {sign : Int} {value : CStr} {minval maxval opt : Int}
    (h : parseUnsignedFloat sign value minval maxval = some opt) : minval ≤ opt ∧ opt ≤ maxval := by
  unfold parseUnsignedFloat at h
  by_cases hempty : value = []
  · simp [hempty] at h
  · rw [if_neg hempty] at h
    dsimp only at h
    split at h
    · simp at h
    · split_ifs at h
      all_goals
        split at h
        · simp at h
        · exact inBounds_bounds h

theorem parseDecFloatOption_bounds {value : CStr} {minval maxval opt : Int}
    (h : parseDecFloatOption value minval maxval = some opt) : minval ≤ opt ∧ opt ≤ maxval := by
  unfold parseDecFloatOption at h
  split at h
  · simp at h
  · exact parseUnsignedFloat_bounds h
  · exact parseUnsignedFloat_bounds h
  · exact parseUnsignedFloat_bounds h

theorem parseHexInt_lt (value : CStr) : ∀ {res opt : Nat}, res < 2 ^ 64 → parseHexInt res value = some opt →
    opt < 2 ^ 64 := by
  induction value with
  | nil =>
    intro res opt hres h
    obtain rfl : res = opt := Option.some.inj h
    exact hres
  | cons c s ih =>
    intro res opt _ h
    unfold parseHexInt at h
    cases hdigit : hexDigitOf c with
    | none => simp [hdigit] at h
    | some n =>
      rw [hdigit] at h
      exact ih (Nat.mod_lt _ (by norm_num)) h

theorem parseName_lt {names : List String} {value : CStr} {opt : Nat} (h : parseName names value = some opt) :
    opt < names.length := by
  unfold parseName at h
  dsimp only at h
  split_ifs at h with hlt
  obtain rfl := Option.some.inj h
  exact hlt

theorem ofNat_bounds {x n : Nat} (h : x ≤ n) : 0 ≤ Int.ofNat x ∧ Int.ofNat x ≤ n :=
  ⟨Int.natCast_nonneg x, Int.ofNat_le.mpr h⟩

theorem bool_documented {x : Option Bool} {opt : Int} (h : (x.map fun b => (b.toNat : Int)) = some opt) :
    opt = 0 ∨ opt = 1 := by
  obtain ⟨b, -, rfl⟩ := Option.map_eq_some_iff.mp h
  cases b with
  | false => exact Or.inl rfl
  | true => exact Or.inr rfl

/-! ## Key combos -/

/-- The bits of a name, among those of the first `n` keys. -/
theorem keyBits_fold (name : CStr) (n : Nat) (i : Nat) :
    ((List.range n).foldl
      (fun bits i => if eqIgnoreCase (keyNames.getD i []) name then bits ||| 1 <<< i else bits) 0).testBit i =
      (decide (i < n) && eqIgnoreCase (keyNames.getD i []) name) := by
  induction n with
  | zero => simp
  | succ n ih =>
    rw [List.range_succ, List.foldl_append, List.foldl_cons, List.foldl_nil]
    by_cases hname : eqIgnoreCase (keyNames.getD n []) name = true
    · rw [if_pos hname, Nat.testBit_or, ih, Nat.one_shiftLeft, Nat.testBit_two_pow]
      by_cases hi : n = i
      · subst hi
        simp only [hname]
        simp
      · simp only [hi, decide_false, Bool.or_false]
        congr 1
        exact decide_eq_decide.mpr (by omega)
    · rw [if_neg hname, ih]
      by_cases hi : i = n
      · subst hi
        simp only [Bool.not_eq_true] at hname
        simp only [hname]
        simp
      · congr 1
        exact decide_eq_decide.mpr (by omega)

theorem testBit_keyBits (name : CStr) (i : Nat) :
    (keyBits name).testBit i = (decide (i < 32) && eqIgnoreCase (keyNames.getD i []) name) := keyBits_fold name 32 i

theorem unnamed_key (i : Fin 32) (h : namedKeys.testBit i.val = false) : keyNames.getD i.val [] = ['?'] := by
  revert i
  decide

theorem toLower_query {c : Char} (h : c.toLower = '?') : c = '?' := by
  unfold Char.toLower at h
  split at h
  · rename_i hupper
    have hval := congrArg Char.toNat h
    simp only [Char.toNat, UInt32.toNat_add] at hval
    have hlow := UInt32.le_iff_toNat_le.mp hupper.1
    have hhigh := UInt32.le_iff_toNat_le.mp hupper.2
    simp at hval hlow hhigh
    omega
  · exact h

/-- In any case of letters, only `"?"` is `"?"`. -/
theorem eqIgnoreCase_query {name : CStr} (h : eqIgnoreCase ['?'] name = true) : name = ['?'] := by
  have hmap : ['?'].map Char.toLower = name.map Char.toLower := of_decide_eq_true h
  rcases name with _ | ⟨c, _ | ⟨d, s⟩⟩
  · simp at hmap
  · simp only [List.map_cons, List.map_nil, List.cons.injEq, and_true] at hmap
    rw [toLower_query (c := c) hmap.symm]
  · simp at hmap

/-- A name that is found has only bits of keys with a name. -/
theorem parseKeyName_named {name : CStr} {bits : Nat} (h : parseKeyName name = some bits) :
    0 < bits ∧ bits &&& namedKeys = bits := by
  unfold parseKeyName at h
  dsimp only at h
  generalize name.take 16 = name at h
  split_ifs at h with hquery hzero
  obtain rfl := Option.some.inj h
  refine ⟨Nat.pos_of_ne_zero hzero, Nat.eq_of_testBit_eq fun i => ?_⟩
  rw [Nat.testBit_and, testBit_keyBits]
  by_cases hi : i < 32
  · cases hnamed : namedKeys.testBit i with
    | true => simp
    | false =>
      rw [unnamed_key ⟨i, hi⟩ hnamed]
      have hne : eqIgnoreCase ['?'] name = false := Bool.eq_false_iff.mpr fun heq => hquery (eqIgnoreCase_query heq)
      simp [hne]
  · simp [hi]

theorem or_named {a b : Nat} (ha : a &&& namedKeys = a) (hb : b &&& namedKeys = b) :
    (a ||| b) &&& namedKeys = a ||| b := by
  rw [Nat.and_or_distrib_right, ha, hb]

theorem parseKeys_named (value : CStr) : ∀ {combo opt : Nat} {name : CStr}, combo &&& namedKeys = combo →
    parseKeys combo name value = some opt → 0 < opt ∧ opt &&& namedKeys = opt := by
  induction value with
  | nil =>
    intro combo opt name hcombo h
    obtain ⟨bits, hbits, rfl⟩ := Option.map_eq_some_iff.mp h
    obtain ⟨hpos, hnamed⟩ := parseKeyName_named hbits
    exact ⟨Nat.lt_of_lt_of_le hpos Nat.right_le_or, or_named hcombo hnamed⟩
  | cons c s ih =>
    intro combo opt name hcombo h
    unfold parseKeys at h
    by_cases hplus : c = '+'
    · rw [if_pos hplus] at h
      cases hname : parseKeyName name with
      | none => simp [hname] at h
      | some bits =>
        simp only [hname] at h
        by_cases hs : s = []
        · simp [hs] at h
        · rw [if_neg hs] at h
          exact ih (or_named hcombo (parseKeyName_named hname).2) h
    · rw [if_neg hplus] at h
      exact ih hcombo h

/-! ## Documented values -/

/-- What a line is decoded to, is a documented value of its option. -/
theorem Key.decode_documented {k : Key} {value : CStr} {opt : Int} (h : k.decode value = some opt) :
    k.Documented opt := by
  cases k with
  | versionMajor => exact parseDecInt_bounds h
  | versionMinor => exact parseDecInt_bounds h
  | single i => exact bool_documented h
  | multi m =>
    cases m with
    | defaultEmu =>
      obtain ⟨x, hx, rfl⟩ := Option.map_eq_some_iff.mp h
      have := parseDecInt_bounds hx
      constructor <;> omega
    | brightness =>
      obtain ⟨x, hx, rfl⟩ := Option.map_eq_some_iff.mp h
      have := parseDecInt_bounds hx
      constructor <;> omega
    | splash =>
      obtain ⟨x, hx, rfl⟩ := Option.map_eq_some_iff.mp h
      exact ofNat_bounds (Nat.le_of_lt_succ (parseName_lt hx))
    | pin =>
      obtain ⟨x, hx, rfl⟩ := Option.map_eq_some_iff.mp h
      obtain ⟨digits, -, hpin⟩ := Option.bind_eq_some_iff.mp hx
      have hle : x ≤ 3 := by
        unfold encodePin at hpin
        split_ifs at hpin <;> simp only [Option.some.injEq] at hpin <;> omega
      exact ofNat_bounds hle
    | newCpu =>
      obtain ⟨x, hx, rfl⟩ := Option.map_eq_some_iff.mp h
      exact ofNat_bounds (Nat.le_of_lt_succ (parseName_lt hx))
    | autobootMode =>
      obtain ⟨x, hx, rfl⟩ := Option.map_eq_some_iff.mp h
      exact ofNat_bounds (Nat.le_of_lt_succ (parseName_lt hx))
    | forceAudioOutput =>
      obtain ⟨x, hx, rfl⟩ := Option.map_eq_some_iff.mp h
      exact ofNat_bounds (Nat.le_of_lt_succ (parseName_lt hx))
  | splashDuration => exact parseDecInt_bounds h
  | hbldrTitleId =>
    obtain ⟨x, hx, rfl⟩ := Option.map_eq_some_iff.mp h
    exact ⟨Int.natCast_nonneg x, Int.ofNat_lt.mpr (parseHexInt_lt value (by norm_num) hx)⟩
  | menuCombo =>
    obtain ⟨x, hx, rfl⟩ := Option.map_eq_some_iff.mp h
    obtain ⟨hpos, hnamed⟩ := parseKeys_named value (Nat.zero_and _) hx
    exact ⟨Int.natCast_pos.mpr hpos, hnamed⟩
  | pluginLoader => exact bool_documented h
  | ntpOffset => exact parseDecInt_bounds h
  | filter top f =>
    cases f with
    | cct => exact parseDecInt_bounds h
    | gamma => exact parseDecFloatOption_bounds h
    | contrast => exact parseDecFloatOption_bounds h
    | brightness => exact parseDecFloatOption_bounds h
    | invert => exact bool_documented h
    | colorCurve => exact parseDecInt_bounds h
  | autobootTitleId =>
    obtain ⟨x, hx, rfl⟩ := Option.map_eq_some_iff.mp h
    exact ⟨Int.natCast_nonneg x, Int.ofNat_lt.mpr (parseHexInt_lt value (by norm_num) hx)⟩
  | appMemType => exact parseDecInt_bounds h
  | volume => exact parseDecInt_bounds h

/-! ## Reading what is put -/

/-- The options whose lines are or-ed into a word of the configuration. -/
def Key.OrEd : Key → Prop
  | .single _ => True
  | .multi _ => True
  | _ => False

/-- The value of an option after a line with the value `opt`, where it has been `old`. -/
def Key.update : Key → Int → Int → Int
  | .single _, old, opt => (old.toNat ||| opt.toNat : Nat)
  | .multi _, old, opt => (old.toNat ||| opt.toNat : Nat)
  | _, _, opt => opt

theorem option_orConfig (cfg : CfgData) (i j : Nat) (opt : Bool) :
    (cfg.orConfig i opt).option j = (cfg.option j || (decide (i = j) && opt)) := by
  unfold CfgData.option CfgData.orConfig
  cases opt with
  | false => simp
  | true => simp [Nat.testBit_or, Nat.one_shiftLeft, Nat.testBit_two_pow]

theorem multiOption_orMulti (cfg : CfgData) (m : MultiOption) {opt : Nat} (h : opt < 4) :
    (cfg.orMulti m opt).multiOption m = cfg.multiOption m ||| opt := by
  unfold CfgData.multiOption CfgData.orMulti
  rw [Nat.shiftRight_or_distrib, Nat.and_or_distrib_right, Nat.shiftLeft_shiftRight]
  congr 1
  exact (Nat.and_two_pow_sub_one_eq_mod opt 2).trans (Nat.mod_eq_of_lt h)

theorem index_inj {m m' : MultiOption} (h : m.index = m'.index) : m = m' := by
  cases m <;> cases m' <;> first | rfl | cases h

theorem multiOption_orMulti_of_ne (cfg : CfgData) {m m' : MultiOption} (hne : m ≠ m') {opt : Nat} (h : opt < 4) :
    (cfg.orMulti m opt).multiOption m' = cfg.multiOption m' := by
  have hindex : m.index ≠ m'.index := fun heq => hne (index_inj heq)
  unfold CfgData.multiOption CfgData.orMulti
  rw [Nat.shiftRight_or_distrib, Nat.and_or_distrib_right]
  have hzero : opt <<< (2 * m.index) >>> (2 * m'.index) &&& 3 = 0 := by
    refine Nat.eq_of_testBit_eq fun i => ?_
    rw [Nat.zero_testBit, Nat.testBit_and, Nat.testBit_shiftRight, Nat.testBit_shiftLeft,
      Nat.testBit_two_pow_sub_one (n := 2) (i := i)]
    by_cases hi : i < 2
    · by_cases hlow : m.index < m'.index
      · have hpow : 2 ^ 2 ≤ 2 ^ (2 * m'.index + i - 2 * m.index) := Nat.pow_le_pow_right (by norm_num) (by omega)
        rw [Nat.testBit_lt_two_pow (Nat.lt_of_lt_of_le h hpow)]
        simp
      · have hfalse : ¬2 * m.index ≤ 2 * m'.index + i := by omega
        simp [hfalse]
    · simp [hi]
  rw [hzero, Nat.or_zero]

theorem ScreenFilter.get_put (filter : ScreenFilter) (top : Bool) {f : FilterField} {opt : Int}
    (h : (Key.filter top f).Documented opt) : (filter.put opt f).get f = opt := by
  cases f with
  | cct => exact Int.toNat_of_nonneg (Int.le_trans (by norm_num) h.1)
  | gamma => rfl
  | contrast => rfl
  | brightness => rfl
  | invert => rcases h with rfl | rfl <;> rfl
  | colorCurve => exact Int.toNat_of_nonneg h.1

theorem ScreenFilter.get_put_of_ne (filter : ScreenFilter) {f f' : FilterField} (hne : f ≠ f') (opt : Int) :
    (filter.put opt f).get f' = filter.get f' := by
  cases f <;> cases f' <;> first | rfl | exact absurd rfl hne

/-- What a line does to its own option. -/
theorem Key.get_put (cfg : CfgData) {k : Key} {opt : Int} (h : k.Documented opt) :
    k.get (k.put cfg opt) = k.update (k.get cfg) opt := by
  cases k with
  | versionMajor => exact Int.toNat_of_nonneg h.1
  | versionMinor => exact Int.toNat_of_nonneg h.1
  | single i =>
    show (((cfg.orConfig i.val (opt = 1)).option i.val).toNat : Int) =
      (((cfg.option i.val).toNat : Int).toNat ||| opt.toNat : Nat)
    rw [option_orConfig]
    rcases h with rfl | rfl <;> cases cfg.option i.val <;> simp
  | multi m =>
    have hlt : opt.toNat < 4 := by
      cases m <;> obtain ⟨hlow, hhigh⟩ := h <;> omega
    exact congrArg Int.ofNat (multiOption_orMulti cfg m hlt)
  | splashDuration => exact Int.toNat_of_nonneg h.1
  | hbldrTitleId => exact Int.toNat_of_nonneg h.1
  | menuCombo => exact Int.toNat_of_nonneg (Int.le_of_lt h.1)
  | pluginLoader =>
    show (((cfg.setPlugin (opt = 1)).pluginLoaderFlags % 2 : Nat) : Int) = opt
    rcases h with rfl | rfl
    · simp [CfgData.setPlugin]
      omega
    · have hodd : (cfg.pluginLoaderFlags ||| 1) % 2 = 1 := Nat.mod_two_eq_one_iff_testBit_zero.mpr (by simp)
      simp only [CfgData.setPlugin, decide_true, if_true, hodd]
      rfl
  | ntpOffset => rfl
  | filter top f =>
    cases top with
    | true => exact ScreenFilter.get_put cfg.topScreenFilter true h
    | false => exact ScreenFilter.get_put cfg.bottomScreenFilter false h
  | autobootTitleId => exact Int.toNat_of_nonneg h.1
  | appMemType => exact Int.toNat_of_nonneg h.1
  | volume => rfl

/-- A line does nothing to the other options. -/
theorem Key.get_put_of_ne (cfg : CfgData) {k k' : Key} (hne : k ≠ k') {opt : Int} (h : k.Documented opt) :
    k'.get (k.put cfg opt) = k'.get cfg := by
  cases k with
  | single i =>
    cases k' with
    | single j =>
      have hij : i.val ≠ j.val := fun heq => hne (congrArg Key.single (Fin.ext heq))
      show (((cfg.orConfig i.val (opt = 1)).option j.val).toNat : Int) = ((cfg.option j.val).toNat : Int)
      rw [option_orConfig]
      simp [hij]
    | _ => rfl
  | multi m =>
    have hlt : opt.toNat < 4 := by
      cases m <;> obtain ⟨hlow, hhigh⟩ := h <;> omega
    cases k' with
    | multi m' => exact congrArg Int.ofNat (multiOption_orMulti_of_ne cfg (fun heq => hne (congrArg Key.multi heq)) hlt)
    | _ => rfl
  | filter top f =>
    cases k' with
    | filter top' f' =>
      cases top <;> cases top' <;> first
        | rfl
        | exact ScreenFilter.get_put_of_ne _ (fun heq => hne (by rw [heq])) opt
    | _ => cases top <;> rfl
  | _ =>
    cases k' with
    | filter top' f' => rfl
    | _ => first | rfl | exact absurd rfl hne

/-! ## Lines -/

/-- The options of each section, in the order of the file. -/
def Key.sections : List (List Key) :=
  [[.versionMajor, .versionMinor],
    [.single 0, .single 1, .single 2, .single 3, .single 4, .single 5, .multi .defaultEmu, .multi .brightness,
      .multi .splash, .splashDuration, .multi .pin, .multi .newCpu, .multi .autobootMode],
    [.hbldrTitleId, .menuCombo, .pluginLoader, .ntpOffset],
    [.filter true .cct, .filter false .cct, .filter true .colorCurve, .filter false .colorCurve, .filter true .gamma,
      .filter false .gamma, .filter true .contrast, .filter false .contrast, .filter true .brightness,
      .filter false .brightness, .filter true .invert, .filter false .invert],
    [.autobootTitleId, .appMemType],
    [.multi .forceAudioOutput, .volume, .single 6, .single 7, .single 8, .single 9]]

theorem Key.mem_sections (k : Key) : k ∈ Key.sections.flatten := by
  cases k with
  | single i => fin_cases i <;> decide
  | multi m => cases m <;> decide
  | filter top f => cases top <;> cases f <;> decide
  | _ => decide

theorem Key.places_nodup : (Key.sections.flatten.map fun k => (k.sectionName, k.name)).Nodup := by
  decide +kernel

/-- Every option has a place of its own in the file. -/
theorem Key.place_inj {k k' : Key} (hsection : k.sectionName = k'.sectionName) (hname : k.name = k'.name) : k = k' :=
  List.inj_on_of_nodup_map Key.places_nodup k.mem_sections k'.mem_sections (Prod.ext hsection hname)

/-- The value of an option in a line, if it is a line of the option. -/
def Key.valueIn (k : Key) (call : Call) : Option Int :=
  if call.section_ = k.sectionName ∧ call.name = k.name then k.decode call.value else none

/-- The values that the lines of an option have. -/
def Key.values (k : Key) (calls : List Call) : List Int := calls.filterMap k.valueIn

theorem Key.values_documented {k : Key} {calls : List Call} {opt : Int} (h : opt ∈ k.values calls) :
    k.Documented opt := by
  obtain ⟨call, -, hvalue⟩ := List.mem_filterMap.mp h
  unfold Key.valueIn at hvalue
  split_ifs at hvalue
  exact Key.decode_documented hvalue

/-- A line that is handled updates its option, and no other. -/
theorem get_of_handleOption {cfg cfg' : CfgData} {call : Call}
    (h : handleOption cfg call.section_ call.name call.value = some cfg') (k : Key) :
    k.get cfg' = (k.valueIn call).toList.foldl k.update (k.get cfg) := by
  obtain ⟨k', opt, hsection, hname, hdecode, rfl⟩ := handleOption_iff.mp h
  have hdocumented := Key.decode_documented hdecode
  unfold Key.valueIn
  by_cases heq : k' = k
  · subst heq
    rw [if_pos ⟨hsection.symm, hname.symm⟩, hdecode]
    exact Key.get_put cfg hdocumented
  · have hplace : ¬(call.section_ = k.sectionName ∧ call.name = k.name) := fun ⟨hsection', hname'⟩ =>
      heq (Key.place_inj (hsection.trans hsection') (hname.trans hname'))
    rw [if_neg hplace]
    exact Key.get_put_of_ne cfg heq hdocumented

/-- Lines that are all accepted: an option is updated with the values of its lines, one after the other. -/
theorem get_of_runCalls (calls : List Call) : ∀ {user user' : IniParse} {ok : Bool},
    runCalls configIniHandler calls user = (ok, user') → user'.hasIniParseError = false →
    ∀ k : Key, k.get user'.cfg = (k.values calls).foldl k.update (k.get user.cfg) := by
  induction calls with
  | nil =>
    intro user user' ok h _ k
    obtain ⟨-, rfl⟩ := Prod.mk.inj h
    rfl
  | cons call calls ih =>
    intro user user' ok h haccept k
    unfold runCalls at h
    cases hoption : handleOption user.cfg call.section_ call.name call.value with
    | none =>
      simp only [configIniHandler, hoption] at h
      obtain ⟨-, rfl⟩ := Prod.mk.inj h
      simp at haccept
    | some cfg =>
      simp only [configIniHandler, hoption, if_true] at h
      rw [ih h haccept k, get_of_handleOption hoption k, ← List.foldl_append]
      congr 1
      unfold Key.values
      rw [List.filterMap_cons]
      cases k.valueIn call <;> rfl

/-- What is read of a text that is accepted. -/
theorem get_of_readOmiibaIniConfig {cfg cfg' : CfgData} {text : CStr} (h : readOmiibaIniConfig cfg text = (true, cfg'))
    (k : Key) : k.get cfg' = (k.values (iniCalls text)).foldl k.update (k.get cfg) := by
  unfold readOmiibaIniConfig at h
  rcases hparse : iniParseString configIniHandler text ⟨cfg, false, 0⟩ with ⟨line, user⟩
  rw [hparse] at h
  obtain ⟨haccept, rfl⟩ := Prod.mk.inj h
  rcases hrun : runCalls configIniHandler (iniCalls text) ⟨cfg, false, 0⟩ with ⟨ok, user'⟩
  have hsnd := iniParseString_snd configIniHandler text ⟨cfg, false, 0⟩
  rw [hparse, hrun] at hsnd
  obtain rfl : user = user' := hsnd
  exact get_of_runCalls (iniCalls text) hrun (by simpa using haccept) k

/-! ## The last line -/

/-- All bits of the one value are in the other. -/
def Within (opt opt' : Int) : Prop := opt.toNat ||| opt'.toNat = opt'.toNat

theorem Within.refl (opt : Int) : Within opt opt := Nat.or_self _

theorem Within.trans {a b c : Int} (hab : Within a b) (hbc : Within b c) : Within a c := by
  unfold Within at *
  rw [← hbc, ← Nat.or_assoc, hab]

theorem Within.antisymm {a b : Int} (ha : 0 ≤ a) (hb : 0 ≤ b) (hab : Within a b) (hba : Within b a) : a = b := by
  unfold Within at *
  rw [Nat.or_comm] at hba
  have heq : a.toNat = b.toNat := hba.symm.trans hab
  omega

theorem Key.update_orEd {k : Key} (h : k.OrEd) (old opt : Int) : k.update old opt = (old.toNat ||| opt.toNat : Nat) := by
  cases k <;> first | rfl | exact absurd h id

theorem Key.update_plain {k : Key} (h : ¬k.OrEd) (old opt : Int) : k.update old opt = opt := by
  cases k <;> first | rfl | exact absurd trivial h

theorem Key.update_nonneg {k : Key} (h : k.OrEd) (old opt : Int) : 0 ≤ k.update old opt := by
  rw [Key.update_orEd h]
  exact Int.natCast_nonneg _

theorem Key.within_update {k : Key} (h : k.OrEd) (old opt : Int) :
    Within old (k.update old opt) ∧ Within opt (k.update old opt) := by
  rw [Key.update_orEd h]
  unfold Within
  rw [Int.toNat_natCast]
  constructor
  · rw [← Nat.or_assoc, Nat.or_self]
  · rw [Nat.or_comm old.toNat, ← Nat.or_assoc, Nat.or_self]

theorem Key.update_within {k : Key} (h : k.OrEd) {old opt opt' : Int} (hold : Within old opt') (hopt : Within opt opt') :
    Within (k.update old opt) opt' := by
  rw [Key.update_orEd h]
  unfold Within at *
  rw [Int.toNat_natCast, Nat.or_assoc, hopt, hold]

/-- Every value that is or-ed is within the result. -/
theorem Key.within_foldl {k : Key} (h : k.OrEd) (opts : List Int) : ∀ old : Int,
    Within old (opts.foldl k.update old) ∧ ∀ opt ∈ opts, Within opt (opts.foldl k.update old) := by
  induction opts with
  | nil => exact fun old => ⟨Within.refl old, by simp⟩
  | cons opt opts ih =>
    intro old
    obtain ⟨hstart, hopts⟩ := ih (k.update old opt)
    obtain ⟨hold, hopt⟩ := Key.within_update h old opt
    refine ⟨hold.trans hstart, fun opt' hmem => ?_⟩
    rcases List.mem_cons.mp hmem with rfl | hmem
    · exact hopt.trans hstart
    · exact hopts opt' hmem

theorem Key.foldl_within {k : Key} (h : k.OrEd) {opt' : Int} (opts : List Int) : ∀ {old : Int}, Within old opt' →
    (∀ opt ∈ opts, Within opt opt') → Within (opts.foldl k.update old) opt' := by
  induction opts with
  | nil => exact fun hold _ => hold
  | cons opt opts ih =>
    intro old hold hopts
    have hopt := hopts opt List.mem_cons_self
    exact ih (Key.update_within h hold hopt) fun o ho => hopts o (List.mem_cons_of_mem _ ho)

/-- Values that are or-ed give the last one exactly if there is nothing in the others that is not in it. -/
theorem Key.foldl_orEd {k : Key} (h : k.OrEd) {opts : List Int} {old last : Int} (hlast : opts.getLast? = some last)
    (hnonneg : 0 ≤ last) :
    opts.foldl k.update old = last ↔ Within old last ∧ ∀ opt ∈ opts, Within opt last := by
  constructor
  · rintro hfold
    rw [← hfold]
    exact Key.within_foldl h opts old
  · rintro ⟨hold, hopts⟩
    obtain ⟨init, rfl⟩ := List.getLast?_eq_some_iff.mp hlast
    refine Within.antisymm ?_ hnonneg (Key.foldl_within h _ hold hopts) ?_
    · rw [List.foldl_append]
      exact Key.update_nonneg h _ _
    · exact (Key.within_foldl h _ old).2 last (by simp)

theorem Key.foldl_plain {k : Key} (h : ¬k.OrEd) {opts : List Int} {old last : Int} (hlast : opts.getLast? = some last) :
    opts.foldl k.update old = last := by
  obtain ⟨init, rfl⟩ := List.getLast?_eq_some_iff.mp hlast
  rw [List.foldl_append]
  exact Key.update_plain h _ _

theorem Key.documented_orEd {k : Key} (h : k.OrEd) {opt : Int} (hopt : k.Documented opt) : 0 ≤ opt := by
  cases k with
  | single i => rcases hopt with rfl | rfl <;> norm_num
  | multi m => cases m <;> exact hopt.1
  | _ => exact absurd h id

/-- Every option of the configuration has the value of its last line, and a value that it can have. -/
def LastWins (calls : List Call) (cfg' : CfgData) : Prop :=
  ∀ k : Key, (∀ last, (k.values calls).getLast? = some last → k.get cfg' = last) ∧ k.Documented (k.get cfg')

/-- An option with lines: if they are or-ed, nothing is in the option before or in an earlier line that is
not in the last one. An option without lines has a value that it can have. -/
def Clean (calls : List Call) (cfg : CfgData) : Prop :=
  ∀ k : Key, match (k.values calls).getLast? with
    | some last => k.OrEd → Within (k.get cfg) last ∧ ∀ opt ∈ k.values calls, Within opt last
    | none => k.Documented (k.get cfg)

/-- A file that is accepted: its last lines win, exactly if it is clean. -/
theorem readOmiibaIniConfig_lastWins_iff {cfg cfg' : CfgData} {text : CStr}
    (h : readOmiibaIniConfig cfg text = (true, cfg')) : LastWins (iniCalls text) cfg' ↔ Clean (iniCalls text) cfg := by
  refine forall_congr' fun k => ?_
  have hget := get_of_readOmiibaIniConfig h k
  cases hlast : (k.values (iniCalls text)).getLast? with
  | none =>
    rw [List.getLast?_eq_none_iff.mp hlast] at hget
    have hsame : k.get cfg' = k.get cfg := hget
    simp [hsame]
  | some last =>
    have hdocumented : k.Documented last := Key.values_documented (List.mem_of_getLast? hlast)
    have hstrict : ((∀ last', some last = some last' → k.get cfg' = last') ∧ k.Documented (k.get cfg')) ↔
        k.get cfg' = last := by
      constructor
      · rintro ⟨heq, -⟩
        exact heq last rfl
      · rintro heq
        refine ⟨fun last' hlast' => ?_, heq ▸ hdocumented⟩
        rw [heq, Option.some.inj hlast']
    rw [hstrict, hget]
    by_cases horEd : k.OrEd
    · rw [Key.foldl_orEd horEd hlast (Key.documented_orEd horEd hdocumented)]
      simp [horEd]
    · simp [horEd, Key.foldl_plain horEd hlast]

/-- `configData` before the first file is read. -/
def CfgData.zero : CfgData :=
  let filter : ScreenFilter := ⟨0, false, 0, 0, 0, 0⟩
  ⟨0, 0, 0, 0, 0, 0, 0, 0, 0, 0, 0, filter, filter, 0, 0⟩

theorem readOmiibaIniConfig_lastWins_emunand :
    let text := "[boot]\nautoboot_emunand = 0\nautoboot_emunand = 1\n".toList
    let cfg' := (readOmiibaIniConfig CfgData.zero text).2
    readOmiibaIniConfig CfgData.zero text = (true, cfg') ∧
      (LastWins (iniCalls text) cfg' ↔ Clean (iniCalls text) CfgData.zero) := by
  have haccept : (readOmiibaIniConfig CfgData.zero "[boot]\nautoboot_emunand = 0\nautoboot_emunand = 1\n".toList).1 = true := by
    decide +kernel
  have h := Prod.ext haccept (rfl : _ = (readOmiibaIniConfig CfgData.zero _).2)
  exact ⟨h, readOmiibaIniConfig_lastWins_iff h⟩

/-- The second emuNAND, then the third, is the fourth. -/
theorem lines_not_lastWins :
    let text := "[boot]\ndefault_emunand_number = 2\ndefault_emunand_number = 3\n".toList
    ∃ cfg', readOmiibaIniConfig CfgData.zero text = (true, cfg') ∧
      ((Key.multi .defaultEmu).values (iniCalls text)).getLast? = some 2 ∧ (Key.multi .defaultEmu).get cfg' = 3 ∧
      ¬LastWins (iniCalls text) cfg' := by
  intro text
  have hrun : (readOmiibaIniConfig CfgData.zero text).1 = true ∧
      (Key.multi .defaultEmu).get (readOmiibaIniConfig CfgData.zero text).2 = 3 := by decide +kernel
  obtain ⟨haccept, hget⟩ := hrun
  have hlast : ((Key.multi .defaultEmu).values (iniCalls text)).getLast? = some 2 := by decide +kernel
  refine ⟨(readOmiibaIniConfig CfgData.zero text).2, Prod.ext haccept rfl, hlast, hget, fun hwins => ?_⟩
  have htwo : (3 : Int) = 2 := hget.symm.trans ((hwins (Key.multi .defaultEmu)).1 2 hlast)
  cases htwo

end Omiiba.Arm9
