/-
How config.c reads the configuration: the part for the boot from the MCU, everything else from config.ini, or the defaults
if one of them is not accepted.
-/
import Omiiba.Arm9.ConfigParse

namespace Omiiba.Arm9

/-! ## The MCU -/

/-- `CfgDataMcu`, as the registers of the MCU keep it. -/
structure CfgDataMcu where
  omiibaVersion : UInt16
  bootCfg : UInt8
  reserved : UInt8 × UInt8
  checksum : UInt8
  deriving DecidableEq

namespace CfgDataMcu

/-- The checksum that belongs to the other bytes. -/
def sum (data : CfgDataMcu) : UInt8 :=
  ~~~(data.omiibaVersion.toUInt8 + (data.omiibaVersion >>> 8).toUInt8 + data.bootCfg + data.reserved.1 + data.reserved.2)

def zero : CfgDataMcu := ⟨0, 0, (0, 0), 0⟩

end CfgDataMcu

/-- `MAKE_OMIIBA_VERSION_MCU`. -/
def makeOmiibaVersionMcu (major minor build : UInt16) : UInt16 :=
  (major &&& 0xFF) <<< 8 ||| (minor &&& 0x1F) <<< 5 ||| (build &&& 7)

section

variable (curVer : UInt16)

/-- `writeConfigMcu`: what it writes is `configDataMcu` too. -/
def writeConfigMcu (configData : CfgData) (configDataMcu : CfgDataMcu) : CfgDataMcu :=
  let data := { configDataMcu with omiibaVersion := curVer, bootCfg := UInt8.ofNat configData.bootConfig }
  { data with checksum := data.sum }

/-- `readConfigMcu`: whether the data is valid, and `configDataMcu` and `configData` then. -/
def readConfigMcu (configData : CfgData) (data : CfgDataMcu) : Bool × CfgDataMcu × CfgData :=
  if data.sum ≠ data.checksum ∨ data.omiibaVersion < makeOmiibaVersionMcu 10 3 0 then
    let configData := { configData with bootConfig := 0 }
    (false, writeConfigMcu curVer configData CfgDataMcu.zero, configData)
  else if data.omiibaVersion < curVer then (true, writeConfigMcu curVer configData data, configData)
  else (true, data, configData)

/-! ## The file -/

/-- `sizeof(tmpIniBuffer) - 1`. -/
def maxIniSize : Nat := 0x23FF

/-- `fileRead` and `readOmiibaIniConfig`, of what config.ini holds, if it can be read; a file that is too large is not. -/
def readIniFile (configData : CfgData) (file : Option CStr) : Bool × CfgData :=
  match file with
  | none => (false, configData)
  | some text =>
    if text.length = 0 ∨ maxIniSize < text.length then (false, configData) else readOmiibaIniConfig configData text

/-- What is set on failure; the defaults of all other options are 0. -/
def CfgData.defaults : CfgData :=
  let filter : ScreenFilter := ⟨6500, false, 0, 1 * floatConvMult, 1 * floatConvMult, 0⟩
  { CfgData.zero with
    formatVersionMajor := configVersion.1
    formatVersionMinor := configVersion.2
    config := 1 <<< 4 -- PATCHVERSTRING
    splashDurationMsec := 3000
    volumeSliderOverride := -1
    hbldr3dsxTitleId := 0x000400000D921E00
    rosalinaMenuCombo := 1 <<< 9 ||| 1 <<< 7 ||| 1 <<< 2 -- L+Start+Select
    topScreenFilter := filter
    bottomScreenFilter := filter
    autobootTwlTitleId := 0x0003000448424C41 }

/-- `readConfig`: what it returns, and `configData` and `configDataMcu` then. -/
def readConfig (configData : CfgData) (data : CfgDataMcu) (file : Option CStr) : Bool × CfgData × CfgDataMcu :=
  let (retMcu, configDataMcu, configData) := readConfigMcu curVer configData data
  let (ret, configData) := readIniFile configData file
  let (ret, configData) :=
    if !retMcu || !ret || configData.formatVersionMajor ≠ configVersion.1 || configData.formatVersionMinor ≠ configVersion.2
    then (false, CfgData.defaults)
    else (true, configData)
  (ret, { configData with bootConfig := configDataMcu.bootCfg.toNat }, configDataMcu)

end

/-! ## Lines -/

/-- What the lines are. -/
def lineKinds : List CStr → IniState → List LineKind
  | [], _ => []
  | line :: lines, s => (classify s line).1 :: lineKinds lines (classify s line).2

/-- The calls for all lines that have a name and a value, up to the end. -/
def allCalls : List CStr → IniState → List Call
  | [], _ => []
  | line :: lines, s =>
    match classify s line with
    | (.call name value, s) => ⟨s.section_, name, value, s.lineno⟩ :: allCalls lines s
    | (_, s) => allCalls lines s

def iniLines (text : CStr) : List CStr := readLines 199 [] (text.takeWhile (· ≠ '\x00'))

/-- No line of a text is malformed. -/
def NoMalformedLine (text : CStr) : Prop := .error ∉ lineKinds (iniLines text) ⟨[], [], 0⟩

instance (text : CStr) : Decidable (NoMalformedLine text) := inferInstanceAs (Decidable (¬_))

/-- The lines that have a name and a value, one after the other, are accepted. -/
def acceptAll (cfg : CfgData) (calls : List Call) : Option CfgData :=
  calls.foldlM (fun cfg call => handleOption cfg call.section_ call.name call.value) cfg

theorem callsOf_eq (lines : List CStr) : ∀ s : IniState, .error ∉ lineKinds lines s → callsOf lines s = allCalls lines s := by
  induction lines with
  | nil => exact fun _ _ => rfl
  | cons line lines ih =>
    intro s h
    unfold lineKinds at h
    unfold callsOf allCalls
    rw [List.mem_cons, not_or] at h
    rcases hkind : classify s line with ⟨kind, s'⟩
    rw [hkind] at h
    cases kind with
    | nothing => exact ih s' h.2
    | header => exact ih s' h.2
    | error => exact absurd rfl h.1
    | call name value => exact congrArg _ (ih s' h.2)

/-- Once an option has not been accepted, no other one is handled. -/
theorem acceptAll_of_runCalls (calls : List Call) : ∀ user : IniParse, user.hasIniParseError = false →
    (runCalls configIniHandler calls user).2.hasIniParseError = false →
      acceptAll user.cfg calls = some (runCalls configIniHandler calls user).2.cfg := by
  induction calls with
  | nil => exact fun _ _ _ => rfl
  | cons call calls ih =>
    intro user huser h
    unfold runCalls at h ⊢
    unfold acceptAll
    rw [List.foldlM_cons]
    unfold configIniHandler at h ⊢
    cases hopt : handleOption user.cfg call.section_ call.name call.value with
    | none => simp [hopt] at h
    | some cfg =>
      simp only [hopt, ↓reduceIte] at h ⊢
      exact ih { user with cfg } huser h

theorem readOmiibaIniConfig_accepts {cfg cfg' : CfgData} {text : CStr} (hclear : NoMalformedLine text)
    (h : readOmiibaIniConfig cfg text = (true, cfg')) :
    acceptAll cfg (allCalls (iniLines text) ⟨[], [], 0⟩) = some cfg' := by
  unfold readOmiibaIniConfig at h
  have hsnd := iniParseString_snd configIniHandler text ⟨cfg, false, 0⟩
  rcases hparse : iniParseString configIniHandler text ⟨cfg, false, 0⟩ with ⟨line, user⟩
  rw [hparse] at h hsnd
  obtain ⟨hok, rfl⟩ := Prod.mk.inj h
  have herror : user.hasIniParseError = false := by simpa using hok
  rw [← callsOf_eq _ _ hclear]
  change user = (runCalls configIniHandler (callsOf (iniLines text) ⟨[], [], 0⟩) ⟨cfg, false, 0⟩).2 at hsnd
  rw [hsnd] at herror ⊢
  exact acceptAll_of_runCalls _ ⟨cfg, false, 0⟩ rfl herror

/-! ## All or nothing -/

theorem readConfigMcu_valid (curVer : UInt16) (configData : CfgData) (data : CfgDataMcu)
    (h : (readConfigMcu curVer configData data).1 = true) : (readConfigMcu curVer configData data).2.2 = configData := by
  unfold readConfigMcu at *
  split_ifs at * <;> simp_all

theorem readIniFile_accepts (cfg : CfgData) {text : CStr} (hclear : NoMalformedLine text)
    (h : (readIniFile cfg (some text)).1 = true) :
    acceptAll cfg (allCalls (iniLines text) ⟨[], [], 0⟩) = some (readIniFile cfg (some text)).2 := by
  unfold readIniFile at *
  dsimp only at *
  split_ifs at *
  exact readOmiibaIniConfig_accepts hclear (Prod.ext h rfl)

/-- A config.ini with no malformed line is the configuration, if all its lines are accepted and it has the version that is
supported; or reading fails, and everything has its default. The part for the boot is what the MCU keeps. -/
theorem readConfig_atomic (curVer : UInt16) (configData : CfgData) (data : CfgDataMcu) (text : CStr)
    (hclear : NoMalformedLine text) :
    let (ret, cfg, configDataMcu) := readConfig curVer configData data (some text)
    (ret = true ∧ ∃ parsed, acceptAll configData (allCalls (iniLines text) ⟨[], [], 0⟩) = some parsed ∧
        (parsed.formatVersionMajor, parsed.formatVersionMinor) = configVersion ∧
          cfg = { parsed with bootConfig := configDataMcu.bootCfg.toNat }) ∨
      (ret = false ∧ cfg = { CfgData.defaults with bootConfig := configDataMcu.bootCfg.toNat }) := by
  have hmcu := readConfigMcu_valid curVer configData data
  unfold readConfig
  rcases hrun : readConfigMcu curVer configData data with ⟨retMcu, configDataMcu, cfgMcu⟩
  rw [hrun] at hmcu
  have hini := readIniFile_accepts cfgMcu hclear
  rcases hread : readIniFile cfgMcu (some text) with ⟨ret, parsed⟩
  rw [hread] at hini
  dsimp only at *
  rw [hread]
  dsimp only
  split_ifs with hfail
  · exact Or.inr ⟨rfl, rfl⟩
  · simp only [Bool.or_eq_true, Bool.not_eq_true', decide_eq_true_eq, not_or, Bool.not_eq_false, ne_eq, not_not] at hfail
    obtain ⟨⟨⟨hmcuOk, hiniOk⟩, hmajor⟩, hminor⟩ := hfail
    obtain rfl := hmcu hmcuOk
    exact Or.inl ⟨rfl, parsed, hini hiniOk, Prod.ext hmajor hminor, rfl⟩

/-- A file of the version that is supported, and one of its options. -/
def emunandText : CStr :=
  "[meta]\nconfig_version_major = 3\nconfig_version_minor = 13\n[boot]\nautoboot_emunand = 1\n".toList

theorem readConfig_atomic_emunand :
    NoMalformedLine emunandText ∧
      let (ret, cfg, configDataMcu) :=
        readConfig (makeOmiibaVersionMcu 1 4 8) CfgData.zero ⟨0xD60, 1, (0, 0), 0x91⟩ (some emunandText)
      (ret = true ∧ ∃ parsed, acceptAll CfgData.zero (allCalls (iniLines emunandText) ⟨[], [], 0⟩) = some parsed ∧
          (parsed.formatVersionMajor, parsed.formatVersionMinor) = configVersion ∧
            cfg = { parsed with bootConfig := configDataMcu.bootCfg.toNat }) ∨
        (ret = false ∧ cfg = { CfgData.defaults with bootConfig := configDataMcu.bootCfg.toNat }) := by
  have hclear : NoMalformedLine emunandText := by decide +kernel
  exact ⟨hclear, readConfig_atomic (makeOmiibaVersionMcu 1 4 8) CfgData.zero ⟨0xD60, 1, (0, 0), 0x91⟩ emunandText hclear⟩

/-- A file with a malformed line, and an option that does not exist behind it. -/
def malformedText : CStr :=
  "[meta]\nconfig_version_major = 3\nconfig_version_minor = 13\nmalformed\n[boot]\nunknown = 1\n".toList

/-- A file is rejected, and the part for the boot is not its default; and one is not rejected though the line that follows
the malformed one is not accepted. -/
theorem boot_part_survives :
    (let (ret, cfg, _) :=
      readConfig (makeOmiibaVersionMcu 1 4 8) CfgData.zero ⟨0xD60, 1, (0, 0), 0x91⟩ (some "[boot]\nunknown = 1\n".toList)
    ret = false ∧ cfg ≠ CfgData.defaults ∧ cfg.bootConfig = 1) ∧
    (readConfig (makeOmiibaVersionMcu 1 4 8) CfgData.zero ⟨0xD60, 1, (0, 0), 0x91⟩ (some malformedText)).1 = true ∧
      acceptAll CfgData.zero (allCalls (iniLines malformedText) ⟨[], [], 0⟩) = none := by
  decide +kernel

end Omiiba.Arm9
