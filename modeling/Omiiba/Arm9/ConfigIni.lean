/-
config.ini in config.c: the handler that reads an option into the configuration, and the text that a
configuration is saved as. Numbers are natural or integers: what is stored has been checked before to
be in the bounds of its field.
-/
import Omiiba.Arm9.Options

namespace Omiiba.Arm9

/-! ## The configuration -/

/-- `ScreenFiltersCfgData`. -/
structure ScreenFilter where
  cct : Nat
  invert : Bool
  colorCurveCorrection : Nat
  gammaEnc : Int
  contrastEnc : Int
  brightnessEnc : Int
  deriving DecidableEq

/-- `CfgData`. -/
structure CfgData where
  formatVersionMajor : Nat
  formatVersionMinor : Nat
  config : Nat
  multiConfig : Nat
  bootConfig : Nat
  splashDurationMsec : Nat
  volumeSliderOverride : Int
  hbldr3dsxTitleId : Nat
  rosalinaMenuCombo : Nat
  pluginLoaderFlags : Nat
  ntpTzOffetMinutes : Int
  topScreenFilter : ScreenFilter
  bottomScreenFilter : ScreenFilter
  autobootTwlTitleId : Nat
  autobootCtrAppmemtype : Nat
  deriving DecidableEq

/-- `multiOptions`. -/
inductive MultiOption
  | defaultEmu
  | brightness
  | splash
  | pin
  | newCpu
  | autobootMode
  | forceAudioOutput
  deriving DecidableEq

def MultiOption.index : MultiOption → Nat
  | defaultEmu => 0
  | brightness => 1
  | splash => 2
  | pin => 3
  | newCpu => 4
  | autobootMode => 5
  | forceAudioOutput => 6

/-- `CONFIG`, of the number of a `singleOptions`. -/
def CfgData.option (cfg : CfgData) (i : Nat) : Bool := cfg.config.testBit i

/-- `MULTICONFIG`. -/
def CfgData.multiOption (cfg : CfgData) (m : MultiOption) : Nat := (cfg.multiConfig >>> (2 * m.index)) &&& 3

/-- `CONFIG_VERSIONMAJOR` and `CONFIG_VERSIONMINOR`. -/
def configVersion : Nat × Nat := (3, 13)

/-- `singleOptionIniNamesBoot`. -/
def singleOptionIniNamesBoot : List CStr :=
  ["autoboot_emunand", "enable_external_firm_and_modules", "enable_game_patching", "app_syscore_threads_on_core_2",
    "show_system_settings_string", "show_gba_boot_screen"].map String.toList

/-- `singleOptionIniNamesMisc`. -/
def singleOptionIniNamesMisc : List CStr :=
  ["use_dev_unitinfo", "enable_dsi_external_filter", "disable_arm11_exception_handlers",
    "enable_safe_firm_rosalina"].map String.toList

/-- `PATCHUNITINFO`, the first option of the section misc. -/
def patchUnitInfo : Nat := 6

/-! ## The handler -/

/-- The value of an enumerated option: the place of its name among the names. -/
def parseName (names : List String) (value : CStr) : Option Nat :=
  let place := names.findIdx fun name => eqIgnoreCase name.toList value
  if place < names.length then some place else none

def splashNames : List String := ["off", "before payloads", "after payloads"]

def newCpuNames : List String := ["off", "clock", "l2", "clock+l2"]

def autobootModeNames : List String := ["off", "3ds", "dsi"]

def forceAudioOutputNames : List String := ["off", "headphones", "speakers"]

/-- The digits of a PIN, and how they are encoded. -/
def encodePin (opt : Int) : Option Nat :=
  if opt = 0 then some 0 else if opt = 4 then some 1 else if opt = 6 then some 2 else if opt = 8 then some 3 else none

namespace CfgData

def orConfig (cfg : CfgData) (i : Nat) (opt : Bool) : CfgData := { cfg with config := cfg.config ||| opt.toNat <<< i }

def orMulti (cfg : CfgData) (m : MultiOption) (opt : Nat) : CfgData :=
  { cfg with multiConfig := cfg.multiConfig ||| opt <<< (2 * m.index) }

def setPlugin (cfg : CfgData) (opt : Bool) : CfgData :=
  { cfg with
    pluginLoaderFlags := if opt then cfg.pluginLoaderFlags ||| 1 else cfg.pluginLoaderFlags - cfg.pluginLoaderFlags % 2 }

end CfgData

/-- The options of a screen filter, after `screen_filters_top_` or `screen_filters_bot_`. -/
def filterHandler (filter : ScreenFilter) (name value : CStr) : Option ScreenFilter :=
  if name = "cct".toList then (parseDecInt value 1000 25100).map fun opt => { filter with cct := opt.toNat }
  else if name = "gamma".toList then
    (parseDecFloatOption value 0 (8 * floatConvMult)).map fun opt => { filter with gammaEnc := opt }
  else if name = "contrast".toList then
    (parseDecFloatOption value 0 (255 * floatConvMult)).map fun opt => { filter with contrastEnc := opt }
  else if name = "brightness".toList then
    (parseDecFloatOption value (-1 * floatConvMult) (1 * floatConvMult)).map fun opt => { filter with brightnessEnc := opt }
  else if name = "invert".toList then (parseBoolOption value).map fun opt => { filter with invert := opt }
  else if name = "color_curve_adj".toList then
    (parseDecInt value 0 2).map fun opt => { filter with colorCurveCorrection := opt.toNat }
  else none

def metaHandler (cfg : CfgData) (name value : CStr) : Option CfgData :=
  if name = "config_version_major".toList then
    (parseDecInt value 0 0xFFFF).map fun opt => { cfg with formatVersionMajor := opt.toNat }
  else if name = "config_version_minor".toList then
    (parseDecInt value 0 0xFFFF).map fun opt => { cfg with formatVersionMinor := opt.toNat }
  else none

def bootHandler (cfg : CfgData) (name value : CStr) : Option CfgData :=
  if name ∈ singleOptionIniNamesBoot then
    (parseBoolOption value).map fun opt => cfg.orConfig (singleOptionIniNamesBoot.idxOf name) opt
  else if name = "default_emunand_number".toList then
    (parseDecInt value 1 4).map fun opt => cfg.orMulti .defaultEmu (opt - 1).toNat
  else if name = "brightness_level".toList then
    (parseDecInt value 1 4).map fun opt => cfg.orMulti .brightness (4 - opt).toNat
  else if name = "splash_position".toList then (parseName splashNames value).map fun opt => cfg.orMulti .splash opt
  else if name = "splash_duration_ms".toList then
    (parseDecInt value 0 0xFFFFFFFF).map fun opt => { cfg with splashDurationMsec := opt.toNat }
  else if name = "pin_lock_num_digits".toList then
    ((parseDecInt value 0 8).bind encodePin).map fun opt => cfg.orMulti .pin opt
  else if name = "app_launch_new_3ds_cpu".toList then (parseName newCpuNames value).map fun opt => cfg.orMulti .newCpu opt
  else if name = "autoboot_mode".toList then (parseName autobootModeNames value).map fun opt => cfg.orMulti .autobootMode opt
  else none

def rosalinaHandler (cfg : CfgData) (name value : CStr) : Option CfgData :=
  if name = "hbldr_3dsx_titleid".toList then (parseHexInt 0 value).map fun opt => { cfg with hbldr3dsxTitleId := opt }
  else if name = "rosalina_menu_combo".toList then
    (parseKeyComboOption value).map fun opt => { cfg with rosalinaMenuCombo := opt }
  else if name = "plugin_loader_enabled".toList then (parseBoolOption value).map fun opt => cfg.setPlugin opt
  else if name = "ntp_tz_offset_min".toList then
    (parseDecInt value (-779) 899).map fun opt => { cfg with ntpTzOffetMinutes := opt }
  else none

def screenFiltersHandler (cfg : CfgData) (name value : CStr) : Option CfgData :=
  if name.take 19 = "screen_filters_top_".toList then
    (filterHandler cfg.topScreenFilter (name.drop 19) value).map fun filter => { cfg with topScreenFilter := filter }
  else if name.take 19 = "screen_filters_bot_".toList then
    (filterHandler cfg.bottomScreenFilter (name.drop 19) value).map fun filter => { cfg with bottomScreenFilter := filter }
  else none

def autobootHandler (cfg : CfgData) (name value : CStr) : Option CfgData :=
  if name = "autoboot_dsi_titleid".toList then (parseHexInt 0 value).map fun opt => { cfg with autobootTwlTitleId := opt }
  else if name = "autoboot_3ds_app_mem_type".toList then
    (parseDecInt value 0 4).map fun opt => { cfg with autobootCtrAppmemtype := opt.toNat }
  else none

def miscHandler (cfg : CfgData) (name value : CStr) : Option CfgData :=
  if name ∈ singleOptionIniNamesMisc then
    (parseBoolOption value).map fun opt => cfg.orConfig (singleOptionIniNamesMisc.idxOf name + patchUnitInfo) opt
  else if name = "force_audio_output".toList then
    (parseName forceAudioOutputNames value).map fun opt => cfg.orMulti .forceAudioOutput opt
  else if name = "volume_slider_override".toList then
    (parseDecInt value (-1) 100).map fun opt => { cfg with volumeSliderOverride := opt }
  else none

/-- The configuration with an option read; none where `CHECK_PARSE_OPTION` fails. -/
def handleOption (cfg : CfgData) (section_ name value : CStr) : Option CfgData :=
  if section_ = "meta".toList then metaHandler cfg name value
  else if section_ = "boot".toList then bootHandler cfg name value
  else if section_ = "rosalina".toList then rosalinaHandler cfg name value
  else if section_ = "screen_filters".toList then screenFiltersHandler cfg name value
  else if section_ = "autoboot".toList then autobootHandler cfg name value
  else if section_ = "misc".toList then miscHandler cfg name value
  else none

/-- The configuration, and `hasIniParseError` with `iniParseErrorLine`. -/
structure IniParse where
  cfg : CfgData
  hasIniParseError : Bool
  iniParseErrorLine : Nat

/-- `configIniHandler`. -/
def configIniHandler : IniHandler IniParse := fun user section_ name value lineno =>
  match handleOption user.cfg section_ name value with
  | some cfg => (true, { user with cfg })
  | none => (false, { user with hasIniParseError := true, iniParseErrorLine := lineno })

/-- `readOmiibaIniConfig`, of a file that can be read: whether it is accepted, and the configuration then. -/
def readOmiibaIniConfig (cfg : CfgData) (text : CStr) : Bool × CfgData :=
  let (_, user) := iniParseString configIniHandler text ⟨cfg, false, 0⟩
  (!user.hasIniParseError, user.cfg)

end Omiiba.Arm9
