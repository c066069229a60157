/-
The override paths of the loader: the digit loop of strings.c, the path templates of patcher.c and
bps_patcher.cpp with the offset each of them hands to the loop, and the path Rosalina formats for
its cheat files. Every template is compared with the documented path of the title it is for.
-/
import Mathlib.Data.Nat.Digits.Lemmas
import Mathlib.Tactic

namespace Omiiba.Loader

/-! ## strings.c -/

/-- `static const char hexDigits[]`. -/
def hexDigits : List Char := "0123456789ABCDEF".toList

def hexDigit (n : Nat) : Char := hexDigits.getD n '0'

/-- The loop of `progIdToStr`; `none` is a write outside `buf`, or a loop that does not end
within the fuel. -/
def progIdToStrLoop : Nat → List Char → Int → UInt64 → Option (List Char)
  | 0, _, _, _ => none
  | fuel + 1, buf, strEnd, progId =>
    if progId > 0 then
      if 0 ≤ strEnd ∧ strEnd.toNat < buf.length then
        progIdToStrLoop fuel (buf.set strEnd.toNat (hexDigit (progId &&& 0xF).toNat)) (strEnd - 1) (progId >>> 4)
      else none
    else some buf

/-- The loop shifts 4 of the 64 bits out at a time, so it ends within 17 tests of its condition. -/
def progIdToStr (path : List Char) (strEnd : Int) (progId : UInt64) : Option (List Char) :=
  progIdToStrLoop 17 path strEnd progId

/-! ## The path templates -/

def titlesPrefix : List Char := "/omiiba/titles/".toList
def sysmodulesPrefix : List Char := "/omiiba/sysmodules/".toList
def zeroDigits : List Char := "0000000000000000".toList

def titleTemplate (file : List Char) : List Char := titlesPrefix ++ zeroDigits ++ '/' :: file
def sysmoduleTemplate (ext : List Char) : List Char := sysmodulesPrefix ++ zeroDigits ++ ext

def isSysmodule (progId : UInt64) : Bool := progId >>> 32 == 0x00040130

/-- `progId &= ~0xF0000000ull`. -/
def clearN3dsBit (progId : UInt64) : UInt64 := progId &&& ~~~0xF0000000

/-- The path of `applyCodeIpsPatch` and of `ApplyCodeBpsPatch`, which differ in the names only. -/
def codePatchPath (file ext : List Char) (progId : UInt64) : Option (List Char) :=
  if isSysmodule progId then progIdToStr (sysmoduleTemplate ext) 32 (clearN3dsBit progId)
  else progIdToStr (titleTemplate file) 28 progId

/-- The path of the four functions that look in a title's folder whatever the id is. -/
def titleFilePath (file : List Char) (progId : UInt64) : Option (List Char) :=
  progIdToStr (titleTemplate file) 28 progId

def applyCodeIpsPatchPath := codePatchPath "code.ips".toList ".ips".toList
def applyCodeBpsPatchPath := codePatchPath "code.bps".toList ".bps".toList
def loadTitleCodeSectionPath := titleFilePath "code.bin".toList
def loadTitleExheaderInfoPath := titleFilePath "exheader.bin".toList
def loadTitleLocaleConfigPath := titleFilePath "locale.txt".toList
def patchLayeredFsPath := titleFilePath "romfs".toList

/-- The offset is `sizeof("/omiiba/sysmodules/0000000000000000") - 2`, the NUL counted. -/
def openSysmoduleCxiPath (progId : UInt64) : Option (List Char) :=
  progIdToStr (sysmoduleTemplate ".cxi".toList) ((sysmodulesPrefix ++ zeroDigits).length + 1 - 2) (clearN3dsBit progId)

/-- The places of the loader that look for an override. -/
inductive Consumer
  | applyCodeIpsPatch
  | applyCodeBpsPatch
  | openSysmoduleCxi
  | loadTitleCodeSection
  | loadTitleExheaderInfo
  | loadTitleLocaleConfig
  | patchLayeredFs
  deriving DecidableEq, Repr

namespace Consumer

def openedPath : Consumer → UInt64 → Option (List Char)
  | applyCodeIpsPatch => applyCodeIpsPatchPath
  | applyCodeBpsPatch => applyCodeBpsPatchPath
  | openSysmoduleCxi => openSysmoduleCxiPath
  | loadTitleCodeSection => loadTitleCodeSectionPath
  | loadTitleExheaderInfo => loadTitleExheaderInfoPath
  | loadTitleLocaleConfig => loadTitleLocaleConfigPath
  | patchLayeredFs => patchLayeredFsPath

/-- Whether the consumer looks in the sysmodules folder. -/
def inSysmodules : Consumer → UInt64 → Bool
  | applyCodeIpsPatch, progId => isSysmodule progId
  | applyCodeBpsPatch, progId => isSysmodule progId
  | openSysmoduleCxi, _ => true
  | _, _ => false

/-- The documented name of the override in a title's folder. -/
def file : Consumer → List Char
  | applyCodeIpsPatch => "code.ips".toList
  | applyCodeBpsPatch => "code.bps".toList
  | openSysmoduleCxi => []
  | loadTitleCodeSection => "code.bin".toList
  | loadTitleExheaderInfo => "exheader.bin".toList
  | loadTitleLocaleConfig => "locale.txt".toList
  | patchLayeredFs => "romfs".toList

/-- The documented extension of the override in the sysmodules folder. -/
def ext : Consumer → List Char
  | applyCodeIpsPatch => ".ips".toList
  | applyCodeBpsPatch => ".bps".toList
  | openSysmoduleCxi => ".cxi".toList
  | _ => []

def template (c : Consumer) (progId : UInt64) : List Char :=
  if c.inSysmodules progId then sysmoduleTemplate c.ext else titleTemplate c.file

/-- The program id a consumer's file is for: system modules share theirs across the N3DS bits. -/
def title (c : Consumer) (progId : UInt64) : UInt64 :=
  if c.inSysmodules progId then clearN3dsBit progId else progId

end Consumer

/-! ## The documented paths -/

/-- The `k` lowest hex digits of `n`, most significant first. -/
def hexFixed (k n : Nat) : List Char := (List.range k).map fun i => hexDigit (n / 16 ^ (k - 1 - i) % 16)

/-- The 16 upper-case hex digits of an id, as `%016llX` prints them. -/
def hex16 (progId : UInt64) : List Char := hexFixed 16 progId.toNat

def titleFolder (progId : UInt64) : List Char := titlesPrefix ++ hex16 progId

def Consumer.documentedPath (c : Consumer) (progId : UInt64) : List Char :=
  if c.inSysmodules progId then sysmodulesPrefix ++ hex16 (clearN3dsBit progId) ++ c.ext
  else titleFolder progId ++ '/' :: c.file

/-- The cheat file of Rosalina, `sprintf(path, "/omiiba/titles/%016llX/cheats.txt", titleId)`. -/
def cheatsPath (titleId : UInt64) : List Char := titlesPrefix ++ hex16 titleId ++ "/cheats.txt".toList

/-- A lookup for one id goes where it should: at the documented path, with the template changed
at its 16 digits only, at a path no other title of this consumer has, and, for a title's own
folder, in the folder of Rosalina's cheat file. -/
structure LookupExact (c : Consumer) (progId : UInt64) : Prop where
  opened : c.openedPath progId = some (c.documentedPath progId)
  template : ∃ pre digits post, c.openedPath progId = some (pre ++ digits ++ post) ∧ digits.length = 16 ∧
    c.template progId = pre ++ zeroDigits ++ post
  unshared : ∀ progId', c.openedPath progId' = c.openedPath progId → c.title progId' = c.title progId
  folder : c.inSysmodules progId = false →
    (c.openedPath progId).map (·.take 31) = some ((cheatsPath progId).take 31)

/-! ## The digits of an id -/

/-- The digits the loop writes, most significant first; none for 0. -/
def hexOf (n : Nat) : List Char := ((Nat.digits 16 n).map hexDigit).reverse

/-- A character that can lead the digits of an id. -/
def IsLead (ch : Char) : Prop := ch ∈ "123456789ABCDEF".toList

instance (ch : Char) : Decidable (IsLead ch) := inferInstanceAs (Decidable (_ ∈ _))

theorem hexDigit_inj : ∀ {a b : Nat}, a < 16 → b < 16 → hexDigit a = hexDigit b → a = b := by
  have h : ∀ a b : Fin 16, hexDigit a = hexDigit b → a = b := by decide
  intro a b ha hb he
  exact congrArg Fin.val (h ⟨a, ha⟩ ⟨b, hb⟩ he)

theorem isLead_hexDigit {a : Nat} (ha : a < 16) (h0 : a ≠ 0) : IsLead (hexDigit a) := by
  have h : ∀ a : Fin 16, a ≠ 0 → IsLead (hexDigit a) := by decide
  exact h ⟨a, ha⟩ (by simpa [Fin.ext_iff] using h0)

theorem hexOf_zero : hexOf 0 = [] := rfl

theorem hexOf_pos {n : Nat} (h : 0 < n) : hexOf n = hexOf (n / 16) ++ [hexDigit (n % 16)] := by
  unfold hexOf
  rw [Nat.digits_def' (by norm_num) h, List.map_cons, List.reverse_cons]

theorem hexOf_length_le (progId : UInt64) : (hexOf progId.toNat).length ≤ 16 := by
  simp only [hexOf, List.length_reverse, List.length_map]
  exact (Nat.digits_length_le_iff (by norm_num) _).2 (by simpa using progId.toNat_lt)

theorem hexOf_inj {m : Nat} : ∀ {n : Nat}, hexOf m = hexOf n → m = n := by
  induction m using Nat.strong_induction_on with
  | _ m ih =>
    intro n h
    rcases Nat.eq_zero_or_pos m with rfl | hm <;> rcases Nat.eq_zero_or_pos n with rfl | hn
    · rfl
    · rw [hexOf_zero, hexOf_pos hn] at h; simp at h
    · rw [hexOf_zero, hexOf_pos hm] at h; simp at h
    · rw [hexOf_pos hm, hexOf_pos hn] at h
      obtain ⟨h1, h2⟩ := List.append_inj' h rfl
      have hd := ih (m / 16) (by omega) h1
      have hr := hexDigit_inj (by omega) (by omega) (List.singleton_inj.1 h2)
      omega

/-- The digits of a positive number start with a leading digit. -/
theorem hexOf_head {n : Nat} (h : 0 < n) : ∃ ch rest, hexOf n = ch :: rest ∧ IsLead ch := by
  have hne : Nat.digits 16 n ≠ [] := Nat.digits_ne_nil_iff_ne_zero.2 (by omega)
  obtain ⟨init, last, hl⟩ : ∃ init last, Nat.digits 16 n = init ++ [last] :=
    ⟨_, _, (List.dropLast_append_getLast hne).symm⟩
  refine ⟨hexDigit last, (init.map hexDigit).reverse, by simp [hexOf, hl], ?_⟩
  have hlast : (Nat.digits 16 n).getLast hne = last := by simp [hl]
  refine isLead_hexDigit ?_ ?_
  · exact Nat.digits_lt_base (by norm_num) (by rw [hl]; simp)
  · rw [← hlast]; exact Nat.getLast_digit_ne_zero 16 (by omega)

theorem hexFixed_succ (k n : Nat) : hexFixed (k + 1) n = hexFixed k (n / 16) ++ [hexDigit (n % 16)] := by
  unfold hexFixed
  rw [List.range_succ, List.map_append, List.map_singleton]
  congr 1
  · refine List.map_congr_left fun i hi => ?_
    have hi := List.mem_range.1 hi
    rw [Nat.div_div_eq_div_mul, ← Nat.pow_succ', show k + 1 - 1 - i = k - 1 - i + 1 by omega]
  · simp

/-- The fixed-width digits are the digits the loop writes, padded with zeros. -/
theorem hexFixed_eq : ∀ (k n : Nat), (hexOf n).length ≤ k →
    hexFixed k n = List.replicate (k - (hexOf n).length) '0' ++ hexOf n
  | 0, n, h => by
    have : hexOf n = [] := List.length_eq_zero_iff.1 (by omega)
    simp [hexFixed, this]
  | k + 1, n, h => by
    rw [hexFixed_succ]
    rcases Nat.eq_zero_or_pos n with rfl | hn
    · rw [Nat.zero_div, hexFixed_eq k 0 (by simp [hexOf_zero])]
      simp [hexOf_zero, List.replicate_succ', show hexDigit 0 = '0' from rfl]
    · rw [hexOf_pos hn] at h ⊢
      rw [List.length_append, List.length_singleton] at h ⊢
      rw [hexFixed_eq k (n / 16) (by omega), Nat.add_sub_add_right, List.append_assoc]

theorem hex16_eq (progId : UInt64) :
    hex16 progId = List.replicate (16 - (hexOf progId.toNat).length) '0' ++ hexOf progId.toNat :=
  hexFixed_eq 16 _ (hexOf_length_le progId)

/-! ## The digit loop -/

/-- `buf` with `ds` written over the characters that end before position `p`. -/
def overlay (buf : List Char) (p : Nat) (ds : List Char) : List Char :=
  buf.take (p - ds.length) ++ ds ++ buf.drop p

theorem toNat_shiftRight_four (x : UInt64) : (x >>> 4).toNat = x.toNat / 16 := by
  simp [UInt64.toNat_shiftRight, Nat.shiftRight_eq_div_pow]

theorem toNat_and_mask (x : UInt64) : (x &&& 0xF).toNat = x.toNat % 16 := by
  rw [UInt64.toNat_and]
  exact Nat.and_two_pow_sub_one_eq_mod x.toNat 4

/-- One write moves the last digit into the text behind the loop. -/
theorem overlay_snoc {buf ds : List Char} {p : Nat} (ch : Char) (hp : p < buf.length) :
    overlay (buf.set p ch) p ds = overlay buf (p + 1) (ds ++ [ch]) := by
  have htake : (buf.set p ch).take (p - ds.length) = buf.take (p - ds.length) := by
    rw [List.take_set, List.set_eq_of_length_le (by simp)]
  have hdrop : (buf.set p ch).drop p = ch :: buf.drop (p + 1) := by
    rw [List.drop_eq_getElem_cons (by simpa using hp)]
    simp [List.drop_set]
  unfold overlay
  rw [htake, hdrop, List.length_append, List.length_singleton, Nat.add_sub_add_right]
  simp

theorem progIdToStrLoop_eq : ∀ (fuel : Nat) (buf : List Char) (p : Nat) (progId : UInt64),
    (hexOf progId.toNat).length < fuel → (hexOf progId.toNat).length ≤ p → p ≤ buf.length →
    progIdToStrLoop fuel buf ((p : Int) - 1) progId = some (overlay buf p (hexOf progId.toNat))
  | 0, _, _, _, h, _, _ => by omega
  | fuel + 1, buf, p, progId, h, hp, hb => by
    unfold progIdToStrLoop
    by_cases h0 : progId > 0
    · have hn : 0 < progId.toNat := by simpa [UInt64.lt_iff_toNat_lt] using h0
      rw [hexOf_pos hn] at h hp ⊢
      rw [List.length_append, List.length_singleton] at h hp
      obtain ⟨q, rfl⟩ : ∃ q, p = q + 1 := ⟨p - 1, by omega⟩
      have he : ((q + 1 : Nat) : Int) - 1 = (q : Int) := by omega
      rw [if_pos h0, he, if_pos ⟨by omega, by simpa using hb⟩, Int.toNat_natCast, toNat_and_mask]
      rw [progIdToStrLoop_eq fuel _ q _ (by rw [toNat_shiftRight_four]; omega)
        (by rw [toNat_shiftRight_four]; omega) (by rw [List.length_set]; omega)]
      rw [toNat_shiftRight_four, overlay_snoc _ (by omega)]
    · have hn : progId.toNat = 0 := by
        have : ¬ 0 < progId.toNat := by simpa [UInt64.lt_iff_toNat_lt] using h0
        omega
      rw [if_neg h0, hn, hexOf_zero]
      simp [overlay]

/-- `progIdToStr` never leaves its buffer and always ends: it writes the digits of the id, and
nothing else, backward from `strEnd`. -/
theorem progIdToStr_eq (buf : List Char) (p : Nat) (progId : UInt64) (hp : 16 ≤ p) (hb : p ≤ buf.length) :
    progIdToStr buf ((p : Int) - 1) progId = some (overlay buf p (hexOf progId.toNat)) :=
  progIdToStrLoop_eq 17 buf p progId (by have := hexOf_length_le progId; omega)
    (le_trans (hexOf_length_le progId) hp) hb

/-! ## Overlays -/

/-- Over zero digits an overlay that ends with them writes the id padded to 16 digits. -/
theorem overlay_zeroDigits (pre post : List Char) (progId : UInt64) :
    overlay (pre ++ zeroDigits ++ post) (pre.length + 16) (hexOf progId.toNat) = pre ++ hex16 progId ++ post := by
  have hd := hexOf_length_le progId
  have hz : zeroDigits = List.replicate 16 '0' := by decide
  rw [hex16_eq, hz]
  unfold overlay
  have htake : (pre ++ List.replicate 16 '0' ++ post).take (pre.length + 16 - (hexOf progId.toNat).length) =
      pre ++ List.replicate (16 - (hexOf progId.toNat).length) '0' := by
    rw [List.append_assoc, List.take_append, List.take_of_length_le (by omega),
      show pre.length + 16 - (hexOf progId.toNat).length - pre.length = 16 - (hexOf progId.toNat).length by omega,
      List.take_append_of_le_length (by simp), List.take_replicate]
    congr 2; omega
  have hdrop : (pre ++ List.replicate 16 '0' ++ post).drop (pre.length + 16) = post := by
    rw [List.drop_left' (by simp)]
  rw [htake, hdrop]
  simp

theorem overlay_lead {buf : List Char} {p n : Nat} (hn : 0 < n) (hp : p ≤ buf.length) :
    ∃ ch, (overlay buf p (hexOf n))[p - (hexOf n).length]? = some ch ∧ IsLead ch := by
  obtain ⟨ch, rest, hx, hl⟩ := hexOf_head hn
  refine ⟨ch, ?_, hl⟩
  unfold overlay
  rw [List.append_assoc, List.getElem?_append_right (by rw [List.length_take]; omega), List.length_take,
    show p - (hexOf n).length - min (p - (hexOf n).length) buf.length = 0 by omega, hx]
  simp

theorem overlay_before {buf ds : List Char} {q j : Nat} (hj : j < q - ds.length) (hjb : j < buf.length) :
    (overlay buf q ds)[j]? = buf[j]? := by
  unfold overlay
  rw [List.append_assoc, List.getElem?_append_left (by rw [List.length_take]; omega),
    List.getElem?_take_of_lt hj]

/-- An overlay that starts earlier than another one shows its leading digit where the other
still shows the text below. -/
theorem overlay_ne {buf : List Char} {p q m n : Nat} (hb : ∀ ch ∈ buf.drop (p - 16), ¬ IsLead ch)
    (hm : 0 < m) (hlen : (hexOf m).length ≤ 16) (hp16 : 16 ≤ p) (hp : p ≤ buf.length)
    (hlt : p - (hexOf m).length < q - (hexOf n).length) :
    overlay buf p (hexOf m) ≠ overlay buf q (hexOf n) := by
  intro h
  obtain ⟨ch, hch, hl⟩ := overlay_lead hm hp
  obtain ⟨c, rest, hx, -⟩ := hexOf_head hm
  have hpos : 0 < (hexOf m).length := by rw [hx]; simp
  rw [h, overlay_before hlt (by omega)] at hch
  refine hb ch ?_ hl
  rw [List.mem_iff_getElem?]
  exact ⟨p - (hexOf m).length - (p - 16), by rw [List.getElem?_drop, ← hch]; congr 1; omega⟩

/-- Two overlays that end at the same place over text without leading digits are equal only
for equal numbers. -/
theorem overlay_inj {buf : List Char} {p m n : Nat} (hb : ∀ ch ∈ buf.drop (p - 16), ¬ IsLead ch)
    (hp : 16 ≤ p) (hpb : p ≤ buf.length) (hm : (hexOf m).length ≤ 16) (hn : (hexOf n).length ≤ 16)
    (h : overlay buf p (hexOf m) = overlay buf p (hexOf n)) : m = n := by
  have hpos : ∀ {k}, 0 < (hexOf k).length → 0 < k := by
    intro k hk; rcases Nat.eq_zero_or_pos k with rfl | h
    · simp [hexOf_zero] at hk
    · exact h
  rcases lt_trichotomy (hexOf m).length (hexOf n).length with hl | hl | hl
  · exact absurd h.symm (overlay_ne hb (hpos (by omega)) hn hp hpb (by omega))
  · unfold overlay at h
    rw [hl, List.append_assoc, List.append_assoc] at h
    exact hexOf_inj (List.append_inj (List.append_cancel_left h) hl).1
  · exact absurd h (overlay_ne hb (hpos (by omega)) hm hp hpb (by omega))

/-! ## Where the lookups go -/

theorem titleTemplate_length (file : List Char) : 31 ≤ (titleTemplate file).length := by
  have : (titlesPrefix ++ zeroDigits).length = 31 := by decide
  unfold titleTemplate
  rw [List.length_append, this]; omega

theorem sysmoduleTemplate_length (ext : List Char) : 35 ≤ (sysmoduleTemplate ext).length := by
  have : (sysmodulesPrefix ++ zeroDigits).length = 35 := by decide
  unfold sysmoduleTemplate
  rw [List.length_append, this]; omega

/-- Every path a consumer opens is its template with the digits written up to one position:
29 in the titles folder, 33 for a sysmodule's patches and 35 for its CXI. -/
def Consumer.digitsEnd (c : Consumer) (progId : UInt64) : Nat :=
  if c = .openSysmoduleCxi then 35 else if c.inSysmodules progId then 33 else 29

theorem titleTemplate_path (file : List Char) (progId : UInt64) :
    progIdToStr (titleTemplate file) 28 progId = some (overlay (titleTemplate file) 29 (hexOf progId.toNat)) := by
  have hlen := titleTemplate_length file
  generalize titleTemplate file = buf at hlen ⊢
  exact progIdToStr_eq buf 29 progId (by omega) (by omega)

theorem sysmoduleTemplate_path (ext : List Char) (progId : UInt64) {p : Nat} (h1 : 16 ≤ p) (h2 : p ≤ 35) :
    progIdToStr (sysmoduleTemplate ext) ((p : Nat) - 1) progId =
      some (overlay (sysmoduleTemplate ext) p (hexOf progId.toNat)) :=
  progIdToStr_eq _ p progId h1 (le_trans h2 (sysmoduleTemplate_length ext))

theorem openedPath_title {c : Consumer} {progId : UInt64} (h : c.inSysmodules progId = false) :
    c.openedPath progId = some (overlay (titleTemplate c.file) 29 (hexOf progId.toNat)) := by
  cases c with
  | applyCodeIpsPatch => rw [← titleTemplate_path]; exact if_neg (by rw [show isSysmodule progId = false from h]; simp)
  | applyCodeBpsPatch => rw [← titleTemplate_path]; exact if_neg (by rw [show isSysmodule progId = false from h]; simp)
  | openSysmoduleCxi => cases h
  | loadTitleCodeSection => exact titleTemplate_path _ _
  | loadTitleExheaderInfo => exact titleTemplate_path _ _
  | loadTitleLocaleConfig => exact titleTemplate_path _ _
  | patchLayeredFs => exact titleTemplate_path _ _

theorem openedPath_sysmodule {c : Consumer} {progId : UInt64} (h : c.inSysmodules progId = true) :
    c.openedPath progId = some (overlay (sysmoduleTemplate c.ext) (if c = .openSysmoduleCxi then 35 else 33)
      (hexOf (clearN3dsBit progId).toNat)) := by
  cases c with
  | applyCodeIpsPatch => exact (if_pos h).trans (sysmoduleTemplate_path _ _ (p := 33) (by omega) (by omega))
  | applyCodeBpsPatch => exact (if_pos h).trans (sysmoduleTemplate_path _ _ (p := 33) (by omega) (by omega))
  | openSysmoduleCxi => exact sysmoduleTemplate_path _ _ (p := 35) (by omega) (by omega)
  | _ => cases h

theorem documentedPath_title {c : Consumer} {progId : UInt64} (h : c.inSysmodules progId = false) :
    c.documentedPath progId = overlay (titleTemplate c.file) 31 (hexOf progId.toNat) := by
  have hlen : titlesPrefix.length + 16 = 31 := by decide
  unfold Consumer.documentedPath titleFolder titleTemplate
  rw [h, if_neg (by simp), ← hlen, overlay_zeroDigits]

theorem documentedPath_sysmodule {c : Consumer} {progId : UInt64} (h : c.inSysmodules progId = true) :
    c.documentedPath progId = overlay (sysmoduleTemplate c.ext) 35 (hexOf (clearN3dsBit progId).toNat) := by
  have hlen : sysmodulesPrefix.length + 16 = 35 := by decide
  unfold Consumer.documentedPath sysmoduleTemplate
  rw [if_pos h, ← hlen, overlay_zeroDigits]

theorem titleTemplate_noLead (c : Consumer) : ∀ ch ∈ (titleTemplate c.file).drop 13, ¬ IsLead ch := by
  have hall : (((titleTemplate c.file).drop 13).all fun ch => ¬ IsLead ch) = true := by cases c <;> decide
  exact fun ch hch => of_decide_eq_true (List.all_eq_true.mp hall ch hch)

theorem sysmoduleTemplate_noLead (c : Consumer) : ∀ ch ∈ (sysmoduleTemplate c.ext).drop 17, ¬ IsLead ch := by
  have hall : (((sysmoduleTemplate c.ext).drop 17).all fun ch => ¬ IsLead ch) = true := by cases c <;> decide
  exact fun ch hch => of_decide_eq_true (List.all_eq_true.mp hall ch hch)

theorem clearN3dsBit_pos {progId : UInt64} (h : isSysmodule progId = true) : 0 < (clearN3dsBit progId).toNat := by
  rw [Nat.pos_iff_ne_zero]
  intro h0
  have hz : clearN3dsBit progId = 0 := UInt64.toNat_inj.1 h0
  have hs : clearN3dsBit progId >>> 32 = (progId >>> 32) &&& (~~~(0xF0000000 : UInt64)) >>> 32 :=
    UInt64.shiftRight_and
  rw [hz, beq_iff_eq.1 h] at hs
  revert hs; decide

/-- Off the documented position no digit string but the empty one gives the documented path. -/
theorem openedPath_ne {c : Consumer} {progId : UInt64} (hc : c ≠ .openSysmoduleCxi) (h0 : progId ≠ 0) :
    c.openedPath progId ≠ some (c.documentedPath progId) := by
  intro h
  have hlen := hexOf_length_le
  rcases hs : c.inSysmodules progId with _ | _
  · have hpos : 0 < progId.toNat := by
      rw [Nat.pos_iff_ne_zero]; intro h; exact h0 (UInt64.toNat_inj.1 h)
    have hT := titleTemplate_length c.file
    rw [openedPath_title hs, documentedPath_title hs, Option.some.injEq] at h
    exact overlay_ne (titleTemplate_noLead c) hpos (hlen _) (by omega) (by omega)
      (by have := hlen progId; omega) h
  · have hsys : isSysmodule progId = true := by cases c <;> first | exact hs | exact absurd rfl hc | cases hs
    have hT := sysmoduleTemplate_length c.ext
    rw [openedPath_sysmodule hs, documentedPath_sysmodule hs, if_neg hc, Option.some.injEq] at h
    exact overlay_ne (sysmoduleTemplate_noLead c) (clearN3dsBit_pos hsys) (hlen _) (by omega) (by omega)
      (by have := hlen (clearN3dsBit progId); omega) h

theorem sysmoduleTemplate_eight (ext : List Char) : (sysmoduleTemplate ext)[8]? = some 's' := by
  unfold sysmoduleTemplate
  rw [List.getElem?_append_left (by decide)]
  decide

theorem titleTemplate_eight (file : List Char) : (titleTemplate file)[8]? = some 't' := by
  unfold titleTemplate
  rw [List.getElem?_append_left (by decide)]
  decide

/-- Two ids a consumer looks up at one path are one title to it. -/
theorem openedPath_inj {c : Consumer} {id₁ id₂ : UInt64} (h : c.openedPath id₁ = c.openedPath id₂) :
    c.title id₁ = c.title id₂ := by
  have hlen := hexOf_length_le
  have hT := titleTemplate_length c.file
  have hS := sysmoduleTemplate_length c.ext
  -- the two folders differ in the character after "/omiiba/"
  have hfolder : ∀ {i j}, c.inSysmodules i = true → c.inSysmodules j = false → c.openedPath i ≠ c.openedPath j := by
    intro i j hi hj he
    rw [openedPath_sysmodule hi, openedPath_title hj, Option.some.injEq] at he
    have h8 := congrArg (·[8]?) he
    rw [overlay_before (by have := hlen (clearN3dsBit i); split <;> omega) (by omega),
      overlay_before (by have := hlen j; omega) (by omega)] at h8
    rw [sysmoduleTemplate_eight, titleTemplate_eight] at h8
    cases h8
  unfold Consumer.title
  rcases h1 : c.inSysmodules id₁ with _ | _ <;> rcases h2 : c.inSysmodules id₂ with _ | _
  · rw [openedPath_title h1, openedPath_title h2, Option.some.injEq] at h
    exact UInt64.toNat_inj.1 (overlay_inj (titleTemplate_noLead c) (by omega) (by omega) (hlen _) (hlen _) h)
  · exact absurd h.symm (hfolder h2 h1)
  · exact absurd h (hfolder h1 h2)
  · rw [openedPath_sysmodule h1, openedPath_sysmodule h2, Option.some.injEq] at h
    refine UInt64.toNat_inj.1 (overlay_inj (p := if c = .openSysmoduleCxi then 35 else 33) ?_ (by split <;> omega)
      (by split <;> omega) (hlen _) (hlen _) h)
    intro ch hch
    refine sysmoduleTemplate_noLead c ch ?_
    split_ifs at hch with hc
    · exact List.mem_of_mem_drop (i := 2) (by rw [List.drop_drop]; exact hch)
    · exact hch

/-- The template keeps its bytes around the 16 digits when the path is the documented one. -/
theorem documentedPath_template (c : Consumer) (progId : UInt64) :
    ∃ pre digits post, c.documentedPath progId = pre ++ digits ++ post ∧ digits.length = 16 ∧
      c.template progId = pre ++ zeroDigits ++ post := by
  have hlen : ∀ id, (hex16 id).length = 16 := fun id => by simp [hex16, hexFixed]
  unfold Consumer.documentedPath Consumer.template titleFolder sysmoduleTemplate titleTemplate
  split
  · exact ⟨_, _, _, rfl, hlen _, rfl⟩
  · exact ⟨_, _, _, rfl, hlen _, rfl⟩

theorem lookupExact_of_opened {c : Consumer} {progId : UInt64}
    (h : c.openedPath progId = some (c.documentedPath progId)) : LookupExact c progId := by
  obtain ⟨pre, digits, post, hd, hl, ht⟩ := documentedPath_template c progId
  refine ⟨h, ⟨pre, digits, post, by rw [h, hd], hl, ht⟩, fun _ => openedPath_inj, fun hs => ?_⟩
  have hf : (titleFolder progId).length = 31 := by
    have : titlesPrefix.length = 15 := by decide
    simp [titleFolder, hex16, hexFixed, this]
  rw [h, Option.map_some]
  unfold Consumer.documentedPath cheatsPath
  rw [hs, if_neg (by simp), List.take_left' hf, ← titleFolder, List.take_left' hf]

/-- The override lookups are right for no id but 0, except that of a system module's CXI, which is
right for every id: every other offset handed to `progIdToStr` is two characters short of the last
digit of its template. -/
theorem lookupExact_iff (c : Consumer) (progId : UInt64) :
    LookupExact c progId ↔ c = .openSysmoduleCxi ∨ progId = 0 := by
  constructor
  · intro h
    by_contra hne
    push Not at hne
    exact openedPath_ne hne.1 hne.2 h.opened
  · intro h
    apply lookupExact_of_opened
    by_cases hc : c = .openSysmoduleCxi
    · subst hc
      rw [openedPath_sysmodule rfl, documentedPath_sysmodule rfl, if_pos rfl]
    · have h0 := h.resolve_left hc
      subst h0
      have hs : c.inSysmodules 0 = false := by cases c <;> first | rfl | exact absurd rfl hc
      rw [openedPath_title hs, documentedPath_title hs]
      simp [hexOf_zero, overlay]

/-- The code.bin of 0004000000055D00 is looked for in the folder of no title at all. -/
theorem lookup_codeBin_misplaced :
    loadTitleCodeSectionPath 0x0004000000055D00 = some "/omiiba/titles/04000000055D0000/code.bin".toList ∧
      ¬ LookupExact .loadTitleCodeSection 0x0004000000055D00 := by
  refine ⟨by decide, fun h => ?_⟩
  have := h.opened
  revert this; decide

end Omiiba.Loader
