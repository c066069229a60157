/-
The options of config.ini one by one: where each is in the file, what its value can be, and where it is
in the configuration. The handler does what they say.
-/
import Omiiba.Arm9.ConfigIni

namespace Omiiba.Arm9

/-! ## Options -/

inductive FilterField
  | cct
  | gamma
  | contrast
  | brightness
  | invert
  | colorCurve
  deriving DecidableEq

/-- An option of config.ini. -/
inductive Key
  | versionMajor
  | versionMinor
  | single (i : Fin 10)
  | multi (m : MultiOption)
  | splashDuration
  | hbldrTitleId
  | menuCombo
  | pluginLoader
  | ntpOffset
  | filter (top : Bool) (f : FilterField)
  | autobootTitleId
  | appMemType
  | volume
  deriving DecidableEq

namespace Key

def sectionName : Key → CStr
  | versionMajor => "meta".toList
  | versionMinor => "meta".toList
  | single i => if i.val < patchUnitInfo then "boot".toList else "misc".toList
  | multi .forceAudioOutput => "misc".toList
  | multi _ => "boot".toList
  | splashDuration => "boot".toList
  | hbldrTitleId => "rosalina".toList
  | menuCombo => "rosalina".toList
  | pluginLoader => "rosalina".toList
  | ntpOffset => "rosalina".toList
  | filter _ _ => "screen_filters".toList
  | autobootTitleId => "autoboot".toList
  | appMemType => "autoboot".toList
  | volume => "misc".toList

def filterName : FilterField → CStr
  | .cct => "cct".toList
  | .gamma => "gamma".toList
  | .contrast => "contrast".toList
  | .brightness => "brightness".toList
  | .invert => "invert".toList
  | .colorCurve => "color_curve_adj".toList

def name : Key → CStr
  | versionMajor => "config_version_major".toList
  | versionMinor => "config_version_minor".toList
  | single i => (singleOptionIniNamesBoot ++ singleOptionIniNamesMisc).getD i.val []
  | multi .defaultEmu => "default_emunand_number".toList
  | multi .brightness => "brightness_level".toList
  | multi .splash => "splash_position".toList
  | multi .pin => "pin_lock_num_digits".toList
  | multi .newCpu => "app_launch_new_3ds_cpu".toList
  | multi .autobootMode => "autoboot_mode".toList
  | multi .forceAudioOutput => "force_audio_output".toList
  | splashDuration => "splash_duration_ms".toList
  | hbldrTitleId => "hbldr_3dsx_titleid".toList
  | menuCombo => "rosalina_menu_combo".toList
  | pluginLoader => "plugin_loader_enabled".toList
  | ntpOffset => "ntp_tz_offset_min".toList
  | filter true f => "screen_filters_top_".toList ++ filterName f
  | filter false f => "screen_filters_bot_".toList ++ filterName f
  | autobootTitleId => "autoboot_dsi_titleid".toList
  | appMemType => "autoboot_3ds_app_mem_type".toList
  | volume => "volume_slider_override".toList

/-- The value of an option in a file, as the configuration has it. -/
def decode (value : CStr) : Key → Option Int
  | versionMajor => parseDecInt value 0 0xFFFF
  | versionMinor => parseDecInt value 0 0xFFFF
  | single _ => (parseBoolOption value).map fun opt => (opt.toNat : Int)
  | multi .defaultEmu => (parseDecInt value 1 4).map fun opt => opt - 1
  | multi .brightness => (parseDecInt value 1 4).map fun opt => 4 - opt
  | multi .splash => (parseName splashNames value).map Int.ofNat
  | multi .pin => ((parseDecInt value 0 8).bind encodePin).map Int.ofNat
  | multi .newCpu => (parseName newCpuNames value).map Int.ofNat
  | multi .autobootMode => (parseName autobootModeNames value).map Int.ofNat
  | multi .forceAudioOutput => (parseName forceAudioOutputNames value).map Int.ofNat
  | splashDuration => parseDecInt value 0 0xFFFFFFFF
  | hbldrTitleId => (parseHexInt 0 value).map Int.ofNat
  | menuCombo => (parseKeyComboOption value).map Int.ofNat
  | pluginLoader => (parseBoolOption value).map fun opt => (opt.toNat : Int)
  | ntpOffset => parseDecInt value (-779) 899
  | filter _ .cct => parseDecInt value 1000 25100
  | filter _ .gamma => parseDecFloatOption value 0 (8 * floatConvMult)
  | filter _ .contrast => parseDecFloatOption value 0 (255 * floatConvMult)
  | filter _ .brightness => parseDecFloatOption value (-1 * floatConvMult) (1 * floatConvMult)
  | filter _ .invert => (parseBoolOption value).map fun opt => (opt.toNat : Int)
  | filter _ .colorCurve => parseDecInt value 0 2
  | autobootTitleId => (parseHexInt 0 value).map Int.ofNat
  | appMemType => parseDecInt value 0 4
  | volume => parseDecInt value (-1) 100

end Key

/-! ## Their places in the configuration -/

def ScreenFilter.get (filter : ScreenFilter) : FilterField → Int
  | .cct => filter.cct
  | .gamma => filter.gammaEnc
  | .contrast => filter.contrastEnc
  | .brightness => filter.brightnessEnc
  | .invert => filter.invert.toNat
  | .colorCurve => filter.colorCurveCorrection

def ScreenFilter.put (filter : ScreenFilter) (opt : Int) : FilterField → ScreenFilter
  | .cct => { filter with cct := opt.toNat }
  | .gamma => { filter with gammaEnc := opt }
  | .contrast => { filter with contrastEnc := opt }
  | .brightness => { filter with brightnessEnc := opt }
  | .invert => { filter with invert := opt = 1 }
  | .colorCurve => { filter with colorCurveCorrection := opt.toNat }

namespace Key

/-- The option in a configuration. -/
def get (cfg : CfgData) : Key → Int
  | versionMajor => cfg.formatVersionMajor
  | versionMinor => cfg.formatVersionMinor
  | single i => (cfg.option i.val).toNat
  | multi m => cfg.multiOption m
  | splashDuration => cfg.splashDurationMsec
  | hbldrTitleId => cfg.hbldr3dsxTitleId
  | menuCombo => cfg.rosalinaMenuCombo
  | pluginLoader => (cfg.pluginLoaderFlags % 2 : Nat)
  | ntpOffset => cfg.ntpTzOffetMinutes
  | filter top f => (if top then cfg.topScreenFilter else cfg.bottomScreenFilter).get f
  | autobootTitleId => cfg.autobootTwlTitleId
  | appMemType => cfg.autobootCtrAppmemtype
  | volume => cfg.volumeSliderOverride

/-- What the handler does with the value of an option. -/
def put (cfg : CfgData) (opt : Int) : Key → CfgData
  | versionMajor => { cfg with formatVersionMajor := opt.toNat }
  | versionMinor => { cfg with formatVersionMinor := opt.toNat }
  | single i => cfg.orConfig i.val (opt = 1)
  | multi m => cfg.orMulti m opt.toNat
  | splashDuration => { cfg with splashDurationMsec := opt.toNat }
  | hbldrTitleId => { cfg with hbldr3dsxTitleId := opt.toNat }
  | menuCombo => { cfg with rosalinaMenuCombo := opt.toNat }
  | pluginLoader => cfg.setPlugin (opt = 1)
  | ntpOffset => { cfg with ntpTzOffetMinutes := opt }
  | filter true f => { cfg with topScreenFilter := cfg.topScreenFilter.put opt f }
  | filter false f => { cfg with bottomScreenFilter := cfg.bottomScreenFilter.put opt f }
  | autobootTitleId => { cfg with autobootTwlTitleId := opt.toNat }
  | appMemType => { cfg with autobootCtrAppmemtype := opt.toNat }
  | volume => { cfg with volumeSliderOverride := opt }

end Key

/-! ## The handler -/

theorem toNat_eq_one (b : Bool) : decide ((b.toNat : Int) = 1) = b := by
  cases b <;> rfl

/-- A value that is stored as it is parsed, or that is a number for the option. -/
theorem map_map_eq {α β : Type} {x : Option α} {f : α → Int} {g : Int → β} {h : α → β}
    (hgf : ∀ a, g (f a) = h a) : x.map h = (x.map f).map g := by
  rw [Option.map_map]
  exact congrArg (fun r => x.map r) (funext fun a => (hgf a).symm)

theorem filterHandler_key (filter : ScreenFilter) (top : Bool) (f : FilterField) (value : CStr) :
    filterHandler filter (Key.filterName f) value = ((Key.filter top f).decode value).map fun opt => filter.put opt f := by
  cases f with
  | cct => rfl
  | gamma => rfl
  | contrast => rfl
  | brightness => rfl
  | invert => exact map_map_eq fun b => congrArg (fun invert => { filter with invert }) (toNat_eq_one b)
  | colorCurve => rfl

/-- At its place in the file, an option is decoded and put into the configuration. -/
theorem handleOption_key (cfg : CfgData) (k : Key) (value : CStr) :
    handleOption cfg k.sectionName k.name value = (k.decode value).map fun opt => k.put cfg opt := by
  cases k with
  | versionMajor => rfl
  | versionMinor => rfl
  | single i =>
    have hhandle : handleOption cfg (Key.single i).sectionName (Key.single i).name value =
        (parseBoolOption value).map fun opt => cfg.orConfig i.val opt := by
      fin_cases i <;> rfl
    rw [hhandle]
    exact map_map_eq fun b => congrArg (cfg.orConfig i.val) (toNat_eq_one b)
  | multi m =>
    cases m with
    | defaultEmu => exact map_map_eq fun _ => rfl
    | brightness => exact map_map_eq fun _ => rfl
    | splash => exact map_map_eq fun _ => rfl
    | pin => exact map_map_eq fun _ => rfl
    | newCpu => exact map_map_eq fun _ => rfl
    | autobootMode => exact map_map_eq fun _ => rfl
    | forceAudioOutput => exact map_map_eq fun _ => rfl
  | splashDuration => rfl
  | hbldrTitleId => exact map_map_eq fun _ => rfl
  | menuCombo => exact map_map_eq fun _ => rfl
  | pluginLoader => exact map_map_eq fun b => congrArg cfg.setPlugin (toNat_eq_one b)
  | ntpOffset => rfl
  | filter top f =>
    cases top with
    | true =>
      have hhandle : handleOption cfg "screen_filters".toList ("screen_filters_top_".toList ++ Key.filterName f) value =
          (filterHandler cfg.topScreenFilter (Key.filterName f) value).map fun filter =>
            { cfg with topScreenFilter := filter } := rfl
      show handleOption cfg "screen_filters".toList ("screen_filters_top_".toList ++ Key.filterName f) value = _
      rw [hhandle, filterHandler_key _ true, Option.map_map]
      rfl
    | false =>
      have hhandle : handleOption cfg "screen_filters".toList ("screen_filters_bot_".toList ++ Key.filterName f) value =
          (filterHandler cfg.bottomScreenFilter (Key.filterName f) value).map fun filter =>
            { cfg with bottomScreenFilter := filter } := rfl
      show handleOption cfg "screen_filters".toList ("screen_filters_bot_".toList ++ Key.filterName f) value = _
      rw [hhandle, filterHandler_key _ false, Option.map_map]
      rfl
  | autobootTitleId => exact map_map_eq fun _ => rfl
  | appMemType => rfl
  | volume => rfl

theorem single_of_boot {name : CStr} (h : name ∈ singleOptionIniNamesBoot) :
    ∃ i : Fin 10, (Key.single i).sectionName = "boot".toList ∧ (Key.single i).name = name := by
  obtain ⟨i, hi, rfl⟩ := List.getElem_of_mem h
  have hlt : i < 6 := hi
  refine ⟨⟨i, by omega⟩, if_pos hlt, ?_⟩
  show (singleOptionIniNamesBoot ++ singleOptionIniNamesMisc).getD i [] = _
  rw [List.getD_eq_getElem?_getD, List.getElem?_append_left hi, List.getElem?_eq_getElem hi]
  rfl

theorem single_of_misc {name : CStr} (h : name ∈ singleOptionIniNamesMisc) :
    ∃ i : Fin 10, (Key.single i).sectionName = "misc".toList ∧ (Key.single i).name = name := by
  obtain ⟨i, hi, rfl⟩ := List.getElem_of_mem h
  have hlt : i < 4 := hi
  have hlen : singleOptionIniNamesBoot.length = 6 := rfl
  refine ⟨⟨6 + i, by omega⟩, if_neg (show ¬6 + i < 6 by omega), ?_⟩
  show (singleOptionIniNamesBoot ++ singleOptionIniNamesMisc).getD (6 + i) [] = _
  rw [List.getD_eq_getElem?_getD, List.getElem?_append_right (by rw [hlen]; omega), hlen]
  simp only [Nat.add_sub_cancel_left]
  rw [List.getElem?_eq_getElem hi]
  rfl

theorem filterField_of_handler {filter filter' : ScreenFilter} {name value : CStr}
    (h : filterHandler filter name value = some filter') : ∃ f, Key.filterName f = name := by
  unfold filterHandler at h
  split_ifs at h with h₁ h₂ h₃ h₄ h₅ h₆
  · exact ⟨.cct, h₁.symm⟩
  · exact ⟨.gamma, h₂.symm⟩
  · exact ⟨.contrast, h₃.symm⟩
  · exact ⟨.brightness, h₄.symm⟩
  · exact ⟨.invert, h₅.symm⟩
  · exact ⟨.colorCurve, h₆.symm⟩

/-- Only at the places of options something is handled. -/
theorem key_of_handleOption {cfg cfg' : CfgData} {section_ name value : CStr}
    (h : handleOption cfg section_ name value = some cfg') : ∃ k : Key, k.sectionName = section_ ∧ k.name = name := by
  unfold handleOption at h
  split_ifs at h with hmeta hboot hrosalina hfilters hautoboot hmisc
  · subst hmeta
    unfold metaHandler at h
    split_ifs at h with h₁ h₂
    · exact ⟨.versionMajor, rfl, h₁.symm⟩
    · exact ⟨.versionMinor, rfl, h₂.symm⟩
  · subst hboot
    unfold bootHandler at h
    split_ifs at h with h₁ h₂ h₃ h₄ h₅ h₆ h₇ h₈
    · obtain ⟨i, hsection, hname⟩ := single_of_boot h₁
      exact ⟨.single i, hsection, hname⟩
    · exact ⟨.multi .defaultEmu, rfl, h₂.symm⟩
    · exact ⟨.multi .brightness, rfl, h₃.symm⟩
    · exact ⟨.multi .splash, rfl, h₄.symm⟩
    · exact ⟨.splashDuration, rfl, h₅.symm⟩
    · exact ⟨.multi .pin, rfl, h₆.symm⟩
    · exact ⟨.multi .newCpu, rfl, h₇.symm⟩
    · exact ⟨.multi .autobootMode, rfl, h₈.symm⟩
  · subst hrosalina
    unfold rosalinaHandler at h
    split_ifs at h with h₁ h₂ h₃ h₄
    · exact ⟨.hbldrTitleId, rfl, h₁.symm⟩
    · exact ⟨.menuCombo, rfl, h₂.symm⟩
    · exact ⟨.pluginLoader, rfl, h₃.symm⟩
    · exact ⟨.ntpOffset, rfl, h₄.symm⟩
  · subst hfilters
    unfold screenFiltersHandler at h
    split_ifs at h with h₁ h₂
    · obtain ⟨filter, hfilter, -⟩ := Option.map_eq_some_iff.mp h
      obtain ⟨f, hf⟩ := filterField_of_handler hfilter
      refine ⟨.filter true f, rfl, ?_⟩
      show "screen_filters_top_".toList ++ Key.filterName f = name
      rw [hf, ← h₁, List.take_append_drop]
    · obtain ⟨filter, hfilter, -⟩ := Option.map_eq_some_iff.mp h
      obtain ⟨f, hf⟩ := filterField_of_handler hfilter
      refine ⟨.filter false f, rfl, ?_⟩
      show "screen_filters_bot_".toList ++ Key.filterName f = name
      rw [hf, ← h₂, List.take_append_drop]
  · subst hautoboot
    unfold autobootHandler at h
    split_ifs at h with h₁ h₂
    · exact ⟨.autobootTitleId, rfl, h₁.symm⟩
    · exact ⟨.appMemType, rfl, h₂.symm⟩
  · subst hmisc
    unfold miscHandler at h
    split_ifs at h with h₁ h₂ h₃
    · obtain ⟨i, hsection, hname⟩ := single_of_misc h₁
      exact ⟨.single i, hsection, hname⟩
    · exact ⟨.multi .forceAudioOutput, rfl, h₂.symm⟩
    · exact ⟨.volume, rfl, h₃.symm⟩

/-- The handler succeeds exactly with an option whose value can be decoded. -/
theorem handleOption_iff {cfg cfg' : CfgData} {section_ name value : CStr} :
    handleOption cfg section_ name value = some cfg' ↔
      ∃ (k : Key) (opt : Int), k.sectionName = section_ ∧ k.name = name ∧ k.decode value = some opt ∧ k.put cfg opt = cfg' := by
  constructor
  · intro h
    obtain ⟨k, rfl, rfl⟩ := key_of_handleOption h
    rw [handleOption_key] at h
    obtain ⟨opt, hdecode, hput⟩ := Option.map_eq_some_iff.mp h
    exact ⟨k, opt, rfl, rfl, hdecode, hput⟩
  · rintro ⟨k, opt, rfl, rfl, hdecode, rfl⟩
    rw [handleOption_key, hdecode]
    rfl

end Omiiba.Arm9
