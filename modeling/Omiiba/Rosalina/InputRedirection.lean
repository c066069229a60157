/-
The patches of the input redirection in hid and ir, after input_redirection.c: both modules are patched, or both restored, by
one call. When ir cannot be restored after hid was, or hid not after ir could not be patched, one of them is left behind.
-/
import Omiiba.Lib.Patches
import Omiiba.Loader.PatchMemory
import Omiiba.Lib.System
import Omiiba.Lib.Toggle

namespace Omiiba.Rosalina.InputRedirection

open Memory

/-! ## Code -/

/-- Where the code of a module is mapped. -/
def base : Nat := 0x00100000

/-- The bytes of words. -/
def words (ws : List UInt32) : List UInt8 := ws.flatMap fun w => leBytes 4 w.toNat

/-- The word at an address. -/
def word (m : Memory UInt8) (a : Nat) : UInt32 := UInt32.ofNat (m.load a 4)

/-- `memsearch`, by what it finds: the first place of the pattern. -/
def memsearch (m : Memory UInt8) (start size : Nat) (pattern : List UInt8) : Option Nat :=
  ((List.range (size + 1 - pattern.length)).find? fun j =>
    (List.range pattern.length).all fun k => pattern[k]? = some (m (start + j + k))).map (start + ·)

/-- The addresses that are patched in, and what the kernel and the modules are like. -/
structure Console where
  kernelMinor : Nat
  hidSize : Nat
  irSize : Nat
  hidDataPhys : UInt32
  hidCodePhys : UInt32
  irCodePhys : UInt32
  syncHookPhys : UInt32
  /-- No instruction is a physical address. -/
  syncHookPhys_ne : syncHookPhys ≠ 0xE3A00000

variable (c : Console)

/-! ## hid -/

def hidOrigRegisterAndValue : List UInt32 := [0x1EC46000, 0x4001]

def hidOrigCode : List UInt32 := [0xE92D4070, 0xE1A05001, 0xEE1D4F70, 0xE3A01801, 0xE5A41080]

def hidHook : List UInt32 := [0xE59F3004, 0xE59FC004, 0xE12FFF1C, c.hidDataPhys, c.hidCodePhys]

/-- `hidRegPatchOffsets` and `hidPatchJumpLoc`. -/
structure HidPlaces where
  reg0 : Nat
  reg1 : Nat
  jump : Nat

/-- A search that has to find something. -/
def orError (e : Int) : Option Nat → Except Int Nat
  | none => .error e
  | some off => .ok off

/-- The search for the second register, from behind the first one; it may read the bytes behind the module, too. -/
def hidSearchNext (m : Memory UInt8) (off : Nat) : Option Nat :=
  memsearch m (off + 8) (c.hidSize + base - off) (words hidOrigRegisterAndValue)

/-- The search of `InputRedirection_DoUndoHidPatches`. -/
def hidPrepare (m : Memory UInt8) : Except Int HidPlaces := do
  let off ← orError (-1) (memsearch m base c.hidSize (words hidOrigRegisterAndValue))
  let off2 ← orError (-2) (hidSearchNext c m off)
  let off3 ← orError (-3) (memsearch m base c.hidSize (words hidOrigCode))
  return ⟨off, off2, off3⟩

def hidPatches (p : HidPlaces) : List (Patch UInt8) :=
  [⟨p.reg1, words [c.hidDataPhys]⟩, ⟨p.reg0, words [c.hidDataPhys]⟩, ⟨p.jump, words (hidHook c)⟩]

def hidOriginals (p : HidPlaces) : List (Patch UInt8) :=
  [⟨p.reg0, words hidOrigRegisterAndValue⟩, ⟨p.reg1, words hidOrigRegisterAndValue⟩, ⟨p.jump, words hidOrigCode⟩]

/-- `InputRedirection_DoUndoHidPatches`, with the module mapped. -/
def hidToggle : Toggle (Memory UInt8) HidPlaces where
  prepare := hidPrepare c
  change p m := Patch.putAll (hidPatches c p) m
  undo p m := Patch.putAll (hidOriginals p) m

/-! ## ir -/

/-- The pattern of `irOrigReadingCode`, without the branch behind it. -/
def irOrigReadingCode : List UInt32 := [0xE5940000, 0xE1A01005, 0xE3A03005, 0xE3A02011]

def irHook : List UInt32 := [0xE5940000, 0xE1A01005, 0xE59FC000, 0xE12FFF3C, c.irCodePhys]

def irOrigWaitSyncCode : List UInt32 := [0xEF000024, 0xE1B01FA0, 0xE1A0A000]

def irOrigWaitSyncCodeOld : List UInt32 := [0xE0AC6000, 0xE5D70000]

def irOrigCppFlagCode : List UInt32 := [0xE3550000, 0xE3A0B080]

/-- `hookLoc`, `syncLoc` and `cppFlagLoc`, and what was there. -/
structure IrPlaces where
  hookLoc : Nat
  syncLoc : Nat
  cppFlagLoc : Nat
  branch : UInt32
  origIrSync : UInt32
  origCppFlag : UInt32

/-- The search of `InputRedirection_DoUndoIrPatches`. -/
def irPrepare (m : Memory UInt8) : Except Int IrPlaces := do
  let off ← orError (-1) (memsearch m base c.irSize (words irOrigReadingCode))
  let off2 ← orError (-2) ((memsearch m base c.irSize (words irOrigWaitSyncCode)).or
    (memsearch m base c.irSize (words irOrigWaitSyncCodeOld)))
  let off3 ← orError (-3) (memsearch m base c.irSize (words irOrigCppFlagCode))
  return ⟨off, off2, off3, word m (off + 16), word m off2, word m off3⟩

/-- `InputRedirection_DoUndoIrPatches`, with the module mapped, when it is patched. -/
def irChange (p : IrPlaces) (m : Memory UInt8) : Memory UInt8 :=
  let m := m.store p.hookLoc (words (irHook c))
  let m :=
    if word m p.syncLoc = 0xEF000024 then m.store (p.syncLoc - 4) (words [0xE51FF004, c.syncHookPhys])
    else m.store p.syncLoc (words [0xE3A00000])
  m.store p.cppFlagLoc (words [0xE3150000])

/-- And when the patches are undone. -/
def irUndo (p : IrPlaces) (m : Memory UInt8) : Memory UInt8 :=
  let m := m.store p.hookLoc (words (irOrigReadingCode ++ [p.branch]))
  let m :=
    if word m p.syncLoc = 0xE3A00000 then m.store p.syncLoc (words [p.origIrSync])
    -- `ldr r0, [r0]` and `svc 0x24`, whatever was there
    else m.store (p.syncLoc - 4) (words [0xE5900000, 0xEF000024])
  m.store p.cppFlagLoc (words [p.origCppFlag])

def irToggle : Toggle (Memory UInt8) IrPlaces where
  prepare := irPrepare c
  change := irChange c
  undo := irUndo

/-! ## Both -/

/-- The modules and the variables of `InputRedirection_DoOrUndoPatches`. -/
structure State where
  hid : Toggle.Target (Memory UInt8) HidPlaces
  ir : Toggle.Target (Memory UInt8) IrPlaces
  hidPatched : Bool
  irPatched : Bool

/-- What the kernel answers in a call: to opening the processes, and to mapping hid, ir, and hid once more. -/
structure Answers where
  openHid : Int
  openIr : Int
  mapHid : Int
  mapIr : Int
  mapHidAgain : Int

/-- `InputRedirection_DoOrUndoPatches`. -/
def doOrUndoPatches (i : Answers) (s : State) : State × Int :=
  if i.openHid < 0 then (s, i.openHid)
  else if i.openIr < 0 then (s, i.openIr)
  else
    let (hid, res) := (hidToggle c).switch i.mapHid (!s.hidPatched) s.hid
    let s := { s with hid, hidPatched := if 0 ≤ res then !s.hidPatched else s.hidPatched }
    if 0 ≤ res ∧ c.kernelMinor ≥ 44 then
      let (ir, res) := (irToggle c).switch i.mapIr (!s.irPatched) s.ir
      let s := { s with ir }
      if 0 ≤ res then ({ s with irPatched := !s.irPatched }, res)
      else if !s.irPatched then
        ({ s with hid := ((hidToggle c).switch i.mapHidAgain false s.hid).1, hidPatched := false }, res)
      else (s, res)
    else (s, res)

/-! ## Words in place -/

section Words

variable {m : Memory UInt8} {a : Nat} {w : UInt32} {ws : List UInt32}

@[simp] theorem length_words : (words ws).length = 4 * ws.length := by
  induction ws with
  | nil => rfl
  | cons w ws ih =>
    have hcons : words (w :: ws) = leBytes 4 w.toNat ++ words ws := rfl
    rw [hcons, List.length_append, ih, leBytes_length, List.length_cons]
    omega

theorem words_append (ws ws' : List UInt32) : words (ws ++ ws') = words ws ++ words ws' := List.flatMap_append

theorem inPlace_word : Patch.InPlace ⟨a, leBytes 4 w.toNat⟩ m ↔ word m a = w := by
  have hw := w.toNat_lt
  constructor
  · intro h
    unfold word
    rw [load_of_bytes h, Nat.mod_eq_of_lt (by simpa using hw)]
    simp
  · rintro rfl
    have hload : m.load a 4 < 256 ^ 4 := m.load_lt 4 a
    have hbytes : leBytes 4 (word m a).toNat = (List.range 4).map fun i => m (a + i) := by
      unfold word
      rw [UInt32.toNat_ofNat', Nat.mod_eq_of_lt (by simpa using hload), leBytes_load]
    intro i hi
    dsimp only at hi ⊢
    simp [hbytes]

theorem inPlace_words_cons :
    Patch.InPlace ⟨a, words (w :: ws)⟩ m ↔ word m a = w ∧ Patch.InPlace ⟨a + 4, words ws⟩ m := by
  have hcons : words (w :: ws) = leBytes 4 w.toNat ++ words ws := rfl
  rw [hcons, Patch.inPlace_append, inPlace_word, leBytes_length]

theorem inPlace_words_nil : Patch.InPlace ⟨a, words []⟩ m := fun i hi => absurd hi (Nat.not_lt_zero i)

/-- A block that is apart from a word leaves it. -/
theorem word_store {b : Nat} {bs : List UInt8} (h : a + 4 ≤ b ∨ b + bs.length ≤ a) : word (m.store b bs) a = word m a := by
  unfold word
  rw [load_store_outside m h]

end Words

/-! ## Searching -/

section Searching

variable {m : Memory UInt8} {start size : Nat} {pattern : List UInt8}

theorem memsearch_inPlace {a : Nat} (h : memsearch m start size pattern = some a) :
    start ≤ a ∧ Patch.InPlace ⟨a, pattern⟩ m := by
  obtain ⟨j, hj, rfl⟩ := Option.map_eq_some_iff.mp h
  have hfound := List.find?_some hj
  refine ⟨Nat.le_add_right .., fun i hi => ?_⟩
  have hbyte := List.all_eq_true.mp hfound i (List.mem_range.mpr hi)
  rw [decide_eq_true_eq, List.getElem?_eq_getElem hi] at hbyte
  exact (Option.some.inj hbyte).symm

/-- The place is the first one. -/
theorem memsearch_isFirst (m : Memory UInt8) (start : Nat) (hle : pattern.length ≤ size) :
    IsFirst (fun k => m (start + k)) (fun k => pattern.getD k 0) pattern.length size
      ((memsearch m start size pattern).map (· - start)) := by
  have hoccurs (j : Nat) : ((List.range pattern.length).all fun k => decide (pattern[k]? = some (m (start + j + k)))) = true ↔
      Occurs (fun k => m (start + k)) (fun k => pattern.getD k 0) pattern.length j := by
    rw [List.all_eq_true]
    refine forall_congr' fun k => ?_
    rw [List.mem_range]
    refine imp_congr_right fun hk => ?_
    rw [decide_eq_true_eq, List.getElem?_eq_getElem hk, Option.some_inj, Nat.add_assoc]
    simp [hk, eq_comm]
  unfold memsearch
  cases hfind : (List.range (size + 1 - pattern.length)).find? fun j =>
      (List.range pattern.length).all fun k => pattern[k]? = some (m (start + j + k)) with
  | none =>
    intro j hj hpattern
    have hno := List.find?_range_eq_none.mp hfind j (by omega)
    rw [(hoccurs j).mpr hpattern] at hno
    cases hno
  | some j =>
    obtain ⟨hj, hmem, hbefore⟩ := List.find?_range_eq_some.mp hfind
    have hlt := List.mem_range.mp hmem
    rw [Option.map_some, Option.map_some, Nat.add_sub_cancel_left]
    refine ⟨⟨by omega, (hoccurs j).mp hj⟩, fun q hq => Nat.not_lt.mp fun hqj => ?_⟩
    have hno := hbefore q hqj
    rw [(hoccurs q).mpr hq.2] at hno
    cases hno

/-- It is what the search of memory.c gives, which goes on by more than one byte at a time. -/
theorem memsearch_eq {mem pat : Loader.Patcher.Bytes} {startPos n patSize : UInt32} (hpos : 0 < patSize.toNat)
    (hle : patSize.toNat ≤ n.toNat) {turns : Nat} {found : Option UInt32} {reads : List Loader.Patcher.Access}
    (h : Loader.Patcher.memsearch mem startPos pat n patSize turns = some (found, reads)) :
    found = (memsearch (fun a => mem (UInt32.ofNat a)) startPos.toNat n.toNat
      ((List.range patSize.toNat).map fun k => pat (UInt32.ofNat k))).map UInt32.ofNat := by
  have hspec := Loader.Patcher.memsearch_spec mem startPos pat hpos hle turns
  rw [h] at hspec
  obtain ⟨⟨p, hfirst, rfl⟩, -⟩ := hspec
  have hmem : Loader.Patcher.bytesAt mem startPos = fun k => mem (UInt32.ofNat (startPos.toNat + k)) := by
    funext k
    simp [Loader.Patcher.bytesAt, UInt32.ofNat_add]
  let pattern := (List.range patSize.toNat).map fun k => pat (UInt32.ofNat k)
  have hlength : pattern.length = patSize.toNat := by simp [pattern]
  have hmine := memsearch_isFirst (fun a => mem (UInt32.ofNat a)) startPos.toNat (hlength.le.trans hle)
  rw [hlength] at hmine
  rw [hmem] at hfirst
  have hsame := hfirst.unique (hmine.congr fun k hk => by simp [Loader.Patcher.bytesAt, pattern, hk])
  subst hsame
  cases hfound : memsearch (fun a => mem (UInt32.ofNat a)) startPos.toNat n.toNat pattern with
  | none => rfl
  | some a =>
    have hle' := (memsearch_inPlace hfound).1
    refine congrArg some (UInt32.toNat_inj.mp ?_)
    simp only [UInt32.toNat_add, UInt32.toNat_ofNat']
    omega

end Searching

/-! ## The patches of hid -/

/-- The patches are in place, and nothing else has changed. -/
structure PatchedBy (ps : List (Patch UInt8)) (original m : Memory UInt8) : Prop where
  inPlace : ∀ p ∈ ps, p.InPlace m
  elsewhere : ∀ x, (∀ p ∈ ps, ¬p.Covers x) → m x = original x

theorem patchedBy_putAll {ps : List (Patch UInt8)} (h : ps.Pairwise Patch.Apart) (m : Memory UInt8) :
    PatchedBy ps m (Patch.putAll ps m) :=
  ⟨fun _ hp => Patch.inPlace_putAll h hp m, fun _ hx => Patch.putAll_of_not_covers hx m⟩

section OrError

variable {α : Type} {e : Int} {off : Nat} {f : Nat → Except Int α}

@[simp] theorem orError_none_bind : (orError e none >>= f) = .error e := rfl

@[simp] theorem orError_some_bind : (orError e (some off) >>= f) = f off := rfl

end OrError

section Hid

variable {c} {m : Memory UInt8} {p : HidPlaces}

/-- What the search can give. -/
theorem hidPrepare_cases (c : Console) (m : Memory UInt8) : (∃ e, hidPrepare c m = .error e ∧ e < 0) ∨
    ∃ p, hidPrepare c m = .ok p ∧ (∀ u ∈ hidOriginals p, u.InPlace m) ∧ p.reg0 + 8 ≤ p.reg1 := by
  unfold hidPrepare
  rcases hoff : memsearch m base c.hidSize (words hidOrigRegisterAndValue) with _ | off
  · exact .inl ⟨-1, orError_none_bind, by decide⟩
  rw [orError_some_bind]
  rcases hoff2 : hidSearchNext c m off with _ | off2
  · exact .inl ⟨-2, orError_none_bind, by decide⟩
  rw [orError_some_bind]
  rcases hoff3 : memsearch m base c.hidSize (words hidOrigCode) with _ | off3
  · exact .inl ⟨-3, orError_none_bind, by decide⟩
  rw [orError_some_bind]
  refine .inr ⟨⟨off, off2, off3⟩, rfl, ?_, (memsearch_inPlace hoff2).1⟩
  simp only [hidOriginals, List.forall_mem_cons]
  exact ⟨(memsearch_inPlace hoff).2, (memsearch_inPlace hoff2).2, (memsearch_inPlace hoff3).2, by simp⟩

theorem hidPrepare_ok (h : hidPrepare c m = .ok p) : (∀ u ∈ hidOriginals p, u.InPlace m) ∧ p.reg0 + 8 ≤ p.reg1 := by
  rcases hidPrepare_cases c m with ⟨e, herror, -⟩ | ⟨q, hok, hplace⟩
  · rw [herror] at h
    cases h
  · rw [hok] at h
    obtain rfl := Except.ok.inj h
    exact hplace

/-- The patterns cannot overlap. -/
theorem hidPatches_apart (h : hidPrepare c m = .ok p) : (hidPatches c p).Pairwise Patch.Apart := by
  obtain ⟨hplace, hregs⟩ := hidPrepare_ok h
  simp only [hidOriginals, List.forall_mem_cons] at hplace
  obtain ⟨hreg0, hreg1, hjump, -⟩ := hplace
  have hclash : Patch.Clash (words hidOrigRegisterAndValue) (words hidOrigCode) = true := by decide +kernel
  have h0 := Patch.apart_of_clash hreg0 hjump (by simp [hidOrigRegisterAndValue, hidOrigCode]) hclash
  have h1 := Patch.apart_of_clash hreg1 hjump (by simp [hidOrigRegisterAndValue, hidOrigCode]) hclash
  simp only [hidPatches, List.pairwise_cons, List.mem_cons, List.not_mem_nil, or_false, forall_eq_or_imp, forall_eq,
    List.Pairwise.nil, and_true, false_imp_iff, implies_true]
  unfold Patch.Apart at h0 h1 ⊢
  simp only [length_words, hidOrigRegisterAndValue, hidOrigCode, hidHook, List.length_cons, List.length_nil] at h0 h1 ⊢
  omega

theorem hid_lawfulAt (c : Console) (m : Memory UInt8) : (hidToggle c).LawfulAt m where
  undo_change {p} h := by
    obtain ⟨hplace, -⟩ := hidPrepare_ok h
    refine Patch.putAll_eq_of_inPlace hplace fun x hx => Patch.putAll_of_not_covers (fun q hq => ?_) m
    simp only [hidOriginals, List.forall_mem_cons, Patch.Covers, length_words, hidOrigRegisterAndValue, hidOrigCode,
      List.length_cons, List.length_nil] at hx
    simp only [hidPatches, List.mem_cons, List.not_mem_nil, or_false] at hq
    unfold Patch.Covers
    rcases hq with rfl | rfl | rfl <;> simp only [length_words, hidHook, List.length_cons, List.length_nil] <;> omega
  change_ne {p} h hsame := by
    obtain ⟨hplace, -⟩ := hidPrepare_ok h
    have hjump : Patch.InPlace ⟨p.jump, words hidOrigCode⟩ m := hplace _ (by simp [hidOriginals])
    have hhook : Patch.InPlace ⟨p.jump, words (hidHook c)⟩ m := by
      have hput := Patch.inPlace_putAll (hidPatches_apart h) (p := ⟨p.jump, words (hidHook c)⟩) (by simp [hidPatches]) m
      have hchange : Patch.putAll (hidPatches c p) m = m := hsame
      rwa [hchange] at hput
    have hbyte := hhook.getElem?_eq hjump (i := 0) (by simp [hidHook]) (by simp [hidOrigCode])
    exact absurd hbyte (by simp [words, hidHook, hidOrigCode, leBytes])
  error_neg h := by
    rcases hidPrepare_cases c m with ⟨e', herror, hneg⟩ | ⟨q, hok, -⟩
    · obtain rfl := Except.error.inj (herror.symm.trans h)
      exact hneg
    · cases hok.symm.trans h

end Hid

/-! ## The patches of ir -/

/-- What is patched at `syncLoc`: a system call with the instruction before it, or one instruction of an older ir. -/
def irSyncPatch (p : IrPlaces) : Patch UInt8 :=
  if p.origIrSync = 0xEF000024 then ⟨p.syncLoc - 4, words [0xE51FF004, c.syncHookPhys]⟩ else ⟨p.syncLoc, words [0xE3A00000]⟩

def irPatches (p : IrPlaces) : List (Patch UInt8) :=
  [⟨p.hookLoc, words (irHook c)⟩, irSyncPatch c p, ⟨p.cppFlagLoc, words [0xE3150000]⟩]

def irOriginals (p : IrPlaces) : List (Patch UInt8) :=
  [⟨p.hookLoc, words (irOrigReadingCode ++ [p.branch])⟩,
    if p.origIrSync = 0xEF000024 then ⟨p.syncLoc - 4, words [0xE5900000, 0xEF000024]⟩ else ⟨p.syncLoc, words [p.origIrSync]⟩,
    ⟨p.cppFlagLoc, words [p.origCppFlag]⟩]

/-- The patches of an ir do not overlap, and the instruction before its system call is `ldr r0, [r0]`. -/
def IrFits (m : Memory UInt8) : Prop := ∀ p, irPrepare c m = .ok p →
  (irPatches c p).Pairwise Patch.Apart ∧ (p.origIrSync = 0xEF000024 → word m (p.syncLoc - 4) = 0xE5900000)

section Ir

variable {c} {m : Memory UInt8} {p : IrPlaces}

theorem irPrepare_cases (c : Console) (m : Memory UInt8) : (∃ e, irPrepare c m = .error e ∧ e < 0) ∨
    ∃ p, irPrepare c m = .ok p ∧ Patch.InPlace ⟨p.hookLoc, words (irOrigReadingCode ++ [p.branch])⟩ m ∧
      word m p.syncLoc = p.origIrSync ∧ word m p.cppFlagLoc = p.origCppFlag ∧ base ≤ p.syncLoc := by
  unfold irPrepare
  rcases hoff : memsearch m base c.irSize (words irOrigReadingCode) with _ | off
  · exact .inl ⟨-1, orError_none_bind, by decide⟩
  rw [orError_some_bind]
  rcases hoff2 : (memsearch m base c.irSize (words irOrigWaitSyncCode)).or
      (memsearch m base c.irSize (words irOrigWaitSyncCodeOld)) with _ | off2
  · exact .inl ⟨-2, orError_none_bind, by decide⟩
  rw [orError_some_bind]
  rcases hoff3 : memsearch m base c.irSize (words irOrigCppFlagCode) with _ | off3
  · exact .inl ⟨-3, orError_none_bind, by decide⟩
  rw [orError_some_bind]
  refine .inr ⟨⟨off, off2, off3, word m (off + 16), word m off2, word m off3⟩, rfl, ?_, rfl, rfl, ?_⟩
  · dsimp only
    rw [words_append, Patch.inPlace_append, length_words]
    exact ⟨(memsearch_inPlace hoff).2, inPlace_words_cons.mpr ⟨rfl, inPlace_words_nil⟩⟩
  · rcases Option.or_eq_some_iff.mp hoff2 with hfound | ⟨-, hfound⟩
    · exact (memsearch_inPlace hfound).1
    · exact (memsearch_inPlace hfound).1

theorem irPrepare_ok (h : irPrepare c m = .ok p) : Patch.InPlace ⟨p.hookLoc, words (irOrigReadingCode ++ [p.branch])⟩ m ∧
    word m p.syncLoc = p.origIrSync ∧ word m p.cppFlagLoc = p.origCppFlag ∧ base ≤ p.syncLoc := by
  rcases irPrepare_cases c m with ⟨e, herror, -⟩ | ⟨q, hok, hplace⟩
  · cases herror.symm.trans h
  · obtain rfl := Except.ok.inj (hok.symm.trans h)
    exact hplace

/-- A hook that is apart from the patch at `syncLoc` leaves the word there. -/
theorem word_hook {bs : List UInt8} (h : irPrepare c m = .ok p) (hapart : (irPatches c p).Pairwise Patch.Apart)
    (hlength : bs.length = 20) (m' : Memory UInt8) : word (m'.store p.hookLoc bs) p.syncLoc = word m' p.syncLoc := by
  obtain ⟨-, -, -, hbase⟩ := irPrepare_ok h
  have hbase' : 4 ≤ p.syncLoc := le_trans (by decide) hbase
  have hsync := (List.pairwise_cons.mp hapart).1 (irSyncPatch c p) (by simp)
  apply word_store
  rw [hlength]
  unfold irSyncPatch Patch.Apart at hsync
  split at hsync <;> simp only [length_words, irHook, List.length_cons, List.length_nil] at hsync <;> omega

theorem irChange_eq (h : irPrepare c m = .ok p) (hapart : (irPatches c p).Pairwise Patch.Apart) :
    irChange c p m = Patch.putAll (irPatches c p) m := by
  obtain ⟨-, hsync, -⟩ := irPrepare_ok h
  unfold irChange irPatches irSyncPatch
  dsimp only
  rw [word_hook h hapart (by simp [irHook]), hsync]
  split <;> rfl

/-- The word at `syncLoc` tells how it was patched. -/
theorem word_patched (h : irPrepare c m = .ok p) (hapart : (irPatches c p).Pairwise Patch.Apart) :
    word (Patch.putAll (irPatches c p) m) p.syncLoc = if p.origIrSync = 0xEF000024 then c.syncHookPhys else 0xE3A00000 := by
  obtain ⟨-, -, -, hbase⟩ := irPrepare_ok h
  have hbase' : 4 ≤ p.syncLoc := le_trans (by decide) hbase
  have hplace := Patch.inPlace_putAll hapart (p := irSyncPatch c p) (by simp [irPatches]) m
  unfold irSyncPatch at hplace
  by_cases hsync : p.origIrSync = 0xEF000024
  · rw [if_pos hsync] at hplace ⊢
    have hsecond := (inPlace_words_cons.mp hplace).2
    rw [Nat.sub_add_cancel hbase'] at hsecond
    exact (inPlace_words_cons.mp hsecond).1
  · rw [if_neg hsync] at hplace ⊢
    exact (inPlace_words_cons.mp hplace).1

theorem irUndo_eq (h : irPrepare c m = .ok p) (hapart : (irPatches c p).Pairwise Patch.Apart) :
    irUndo p (Patch.putAll (irPatches c p) m) = Patch.putAll (irOriginals p) (Patch.putAll (irPatches c p) m) := by
  have hne := c.syncHookPhys_ne
  unfold irUndo irOriginals
  dsimp only
  rw [word_hook h hapart (by simp [irOrigReadingCode]), word_patched h hapart]
  by_cases hsync : p.origIrSync = 0xEF000024
  · rw [if_pos hsync, if_pos hsync, if_neg hne]
    rfl
  · rw [if_neg hsync, if_neg hsync, if_pos rfl]
    rfl

/-- What is written when the patches are undone is what was there. -/
theorem irOriginals_inPlace (hfits : IrFits c m) (h : irPrepare c m = .ok p) : ∀ u ∈ irOriginals p, u.InPlace m := by
  obtain ⟨hhook, hsync, hflag, hbase⟩ := irPrepare_ok h
  have hbase' : 4 ≤ p.syncLoc := le_trans (by decide) hbase
  obtain ⟨-, hbefore⟩ := hfits p h
  simp only [irOriginals, List.forall_mem_cons]
  refine ⟨hhook, ?_, inPlace_words_cons.mpr ⟨hflag, inPlace_words_nil⟩, by simp⟩
  by_cases hnew : p.origIrSync = 0xEF000024
  · rw [if_pos hnew]
    refine inPlace_words_cons.mpr ⟨hbefore hnew, ?_⟩
    rw [Nat.sub_add_cancel hbase']
    exact inPlace_words_cons.mpr ⟨hsync.trans hnew, inPlace_words_nil⟩
  · rw [if_neg hnew]
    exact inPlace_words_cons.mpr ⟨hsync, inPlace_words_nil⟩

/-- They are written over all that was patched. -/
theorem irPatches_covered {x : Nat} (hx : ∀ u ∈ irOriginals p, ¬u.Covers x) : ∀ q ∈ irPatches c p, ¬q.Covers x := by
  simp only [irOriginals, irPatches, irSyncPatch, List.forall_mem_cons] at hx ⊢
  obtain ⟨hhook, hsync, hflag, -⟩ := hx
  refine ⟨?_, ?_, ?_, by simp⟩
  · simpa [Patch.Covers, irOrigReadingCode, irHook] using hhook
  · split at hsync <;> simp_all [Patch.Covers]
  · simpa [Patch.Covers] using hflag

theorem ir_lawfulAt (hfits : IrFits c m) : (irToggle c).LawfulAt m where
  undo_change {p} h := by
    have hapart := (hfits p h).1
    show irUndo p (irChange c p m) = m
    rw [irChange_eq h hapart, irUndo_eq h hapart]
    exact Patch.putAll_eq_of_inPlace (irOriginals_inPlace hfits h) fun x hx =>
      Patch.putAll_of_not_covers (irPatches_covered hx) m
  change_ne {p} h hsame := by
    have hapart := (hfits p h).1
    obtain ⟨hhook, -⟩ := irPrepare_ok h
    have hchanged : Patch.InPlace ⟨p.hookLoc, words (irHook c)⟩ m := by
      have hput := Patch.inPlace_putAll hapart (p := ⟨p.hookLoc, words (irHook c)⟩) (by simp [irPatches]) m
      have hchange : irChange c p m = m := hsame
      rwa [← irChange_eq h hapart, hchange] at hput
    -- the third word is another one
    have hbyte := hchanged.getElem?_eq hhook (i := 8) (by simp [irHook]) (by simp [irOrigReadingCode])
    exact absurd hbyte (by simp [words, irHook, irOrigReadingCode, leBytes])
  error_neg h := by
    rcases irPrepare_cases c m with ⟨e', herror, hneg⟩ | ⟨q, hok, -⟩
    · obtain rfl := Except.error.inj (herror.symm.trans h)
      exact hneg
    · cases hok.symm.trans h

end Ir

/-! ## Runs -/

/-- The modules before the first call. -/
structure Modules where
  hid : Memory UInt8
  ir : Memory UInt8

variable (o : Modules)

/-- All sequences of calls, with any answers of the kernel. -/
def calls : System State Answers where
  init s := s = ⟨⟨o.hid, none⟩, ⟨o.ir, none⟩, false, false⟩
  step s i s' := (doOrUndoPatches c i s).1 = s'

/-- Both modules are patched, or both hold their original code, and the variables tell which. -/
def Consistent (s : State) : Prop :=
  (s.hidPatched = false ∧ s.irPatched = false ∧ s.hid.content = o.hid ∧ s.ir.content = o.ir) ∨
    (s.hidPatched = true ∧ s.irPatched = true ∧
      (∃ p, hidPrepare c o.hid = .ok p ∧ PatchedBy (hidPatches c p) o.hid s.hid.content) ∧
      ∃ p, irPrepare c o.ir = .ok p ∧ PatchedBy (irPatches c p) o.ir s.ir.content)

/-- The modules and the variables are the same. -/
def SamePair (s s' : State) : Prop :=
  s'.hid.content = s.hid.content ∧ s'.ir.content = s.ir.content ∧ s'.hidPatched = s.hidPatched ∧ s'.irPatched = s.irPatched

/-- What a call should do: it leaves a consistent pair, and the same one if it fails. -/
structure CallRight (s : State) (i : Answers) : Prop where
  consistent : Consistent c o (doOrUndoPatches c i s).1
  failed : (doOrUndoPatches c i s).2 < 0 → SamePair s (doOrUndoPatches c i s).1

/-- ir does not fail after hid was switched, unless hid was to be patched and can be mapped once more to be restored. -/
def Recovers (s : State) (i : Answers) : Prop :=
  0 ≤ i.openHid → 0 ≤ i.openIr → ¬(hidToggle c).Fails o.hid i.mapHid s.hidPatched →
    (irToggle c).Fails o.ir i.mapIr s.irPatched → s.irPatched = false ∧ 0 ≤ i.mapHidAgain

/-- hid and ir are what the variables say, and these are the same. -/
structure Inv (s : State) : Prop where
  same : s.hidPatched = s.irPatched
  hid : (hidToggle c).Is o.hid s.hidPatched s.hid
  ir : (irToggle c).Is o.ir s.irPatched s.ir

section Runs

variable {c o} {s : State} {i : Answers}

theorem hid_patchedBy {x : Toggle.Target (Memory UInt8) HidPlaces} (h : (hidToggle c).Is o.hid true x) :
    ∃ p, hidPrepare c o.hid = .ok p ∧ PatchedBy (hidPatches c p) o.hid x.content := by
  obtain ⟨p, hp, hcontent⟩ := h.on rfl
  have hprepare := h.known p (by simp [hp])
  refine ⟨p, hprepare, ?_⟩
  rw [hcontent]
  exact patchedBy_putAll (hidPatches_apart hprepare) o.hid

theorem ir_patchedBy (hfits : IrFits c o.ir) {x : Toggle.Target (Memory UInt8) IrPlaces} (h : (irToggle c).Is o.ir true x) :
    ∃ p, irPrepare c o.ir = .ok p ∧ PatchedBy (irPatches c p) o.ir x.content := by
  obtain ⟨p, hp, hcontent⟩ := h.on rfl
  have hprepare := h.known p (by simp [hp])
  have hapart := (hfits p hprepare).1
  refine ⟨p, hprepare, ?_⟩
  have hchange : x.content = irChange c p o.ir := hcontent
  rw [hchange, irChange_eq hprepare hapart]
  exact patchedBy_putAll hapart o.ir

theorem Inv.consistent (hfits : IrFits c o.ir) (h : Inv c o s) : Consistent c o s := by
  obtain ⟨hsame, hhid, hir⟩ := h
  cases hpatched : s.hidPatched with
  | false =>
    rw [hpatched] at hsame hhid
    rw [← hsame] at hir
    exact .inl ⟨hpatched, hsame.symm, hhid.off rfl, hir.off rfl⟩
  | true =>
    rw [hpatched] at hsame hhid
    rw [← hsame] at hir
    exact .inr ⟨hpatched, hsame.symm, hid_patchedBy hhid, ir_patchedBy hfits hir⟩

/-- What a call does, once the processes are open and hid has been switched. -/
theorem call_cases (hminor : 44 ≤ c.kernelMinor) (hfits : IrFits c o.ir) (h : Inv c o s) (i : Answers) :
    ((doOrUndoPatches c i s).1 = s ∧ (doOrUndoPatches c i s).2 < 0 ∧
      (i.openHid < 0 ∨ i.openIr < 0 ∨ (hidToggle c).Fails o.hid i.mapHid s.hidPatched)) ∨
    (¬(hidToggle c).Fails o.hid i.mapHid s.hidPatched ∧ 0 ≤ i.openHid ∧ 0 ≤ i.openIr ∧
      ∃ hid : Toggle.Target (Memory UInt8) HidPlaces, (hidToggle c).Is o.hid (!s.hidPatched) hid ∧
      ((¬(irToggle c).Fails o.ir i.mapIr s.irPatched ∧ ∃ ir, (irToggle c).Is o.ir (!s.irPatched) ir ∧
        (doOrUndoPatches c i s).1 = ⟨hid, ir, !s.hidPatched, !s.irPatched⟩ ∧ 0 ≤ (doOrUndoPatches c i s).2) ∨
      ((irToggle c).Fails o.ir i.mapIr s.irPatched ∧ (doOrUndoPatches c i s).2 < 0 ∧
        (doOrUndoPatches c i s).1 =
          if s.irPatched then ⟨hid, s.ir, !s.hidPatched, s.irPatched⟩
          else ⟨((hidToggle c).switch i.mapHidAgain false hid).1, s.ir, false, s.irPatched⟩))) := by
  unfold doOrUndoPatches
  by_cases hopenHid : i.openHid < 0
  · rw [if_pos hopenHid]
    exact .inl ⟨rfl, hopenHid, .inl hopenHid⟩
  by_cases hopenIr : i.openIr < 0
  · rw [if_neg hopenHid, if_pos hopenIr]
    exact .inl ⟨rfl, hopenIr, .inr (.inl hopenIr)⟩
  rw [if_neg hopenHid, if_neg hopenIr]
  have hhid := Toggle.switch_spec (hid_lawfulAt c o.hid) h.hid i.mapHid
  rcases hswitch : (hidToggle c).switch i.mapHid (!s.hidPatched) s.hid with ⟨hid, res⟩
  rw [hswitch] at hhid
  dsimp only at hhid ⊢
  rcases hhid with ⟨hfails, hsame, hres⟩ | ⟨hok, hid', hres⟩
  · -- hid was not switched, and ir is not looked at
    rw [if_neg (by omega : ¬0 ≤ res), if_neg (by omega)]
    subst hsame
    exact .inl ⟨rfl, hres, .inr (.inr hfails)⟩
  rw [if_pos hres, if_pos ⟨hres, hminor⟩]
  refine .inr ⟨hok, Int.not_lt.mp hopenHid, Int.not_lt.mp hopenIr, hid, hid', ?_⟩
  have hir := Toggle.switch_spec (ir_lawfulAt hfits) h.ir i.mapIr
  rcases hswitch' : (irToggle c).switch i.mapIr (!s.irPatched) s.ir with ⟨ir, res'⟩
  rw [hswitch'] at hir
  dsimp only at hir ⊢
  rcases hir with ⟨hfails, hsame, hres'⟩ | ⟨hok', hir', hres'⟩
  · -- hid is switched back only if both were to be patched
    subst hsame
    rw [if_neg (by omega : ¬0 ≤ res')]
    refine .inr ⟨hfails, ?_⟩
    cases s.irPatched <;> exact ⟨hres', rfl⟩
  · rw [if_pos hres']
    exact .inl ⟨hok', ir, hir', rfl, hres'⟩

/-- hid is switched back if it can be mapped, and else stays as it was patched. -/
theorem switch_back {hid : Toggle.Target (Memory UInt8) HidPlaces} (h : (hidToggle c).Is o.hid true hid) (res : Int) :
    (0 ≤ res ∧ (hidToggle c).Is o.hid false ((hidToggle c).switch res false hid).1) ∨
      (res < 0 ∧ ((hidToggle c).switch res false hid).1 = hid) := by
  rcases Toggle.switch_spec (hid_lawfulAt c o.hid) h res with ⟨hfails, hsame, -⟩ | ⟨hok, hback, -⟩
  · rcases hfails with hres | ⟨hon, -⟩
    · exact .inr ⟨hres, hsame⟩
    · cases hon
  · exact .inl ⟨Int.not_lt.mp fun hres => hok (.inl hres), hback⟩

/-- A call that recovers keeps the invariant, and changes nothing if it fails. -/
theorem Inv.call (hminor : 44 ≤ c.kernelMinor) (hfits : IrFits c o.ir) (h : Inv c o s) (hrecovers : Recovers c o s i) :
    Inv c o (doOrUndoPatches c i s).1 ∧ ((doOrUndoPatches c i s).2 < 0 → SamePair s (doOrUndoPatches c i s).1) := by
  rcases call_cases hminor hfits h i with ⟨hsame, -, -⟩ | ⟨hok, hopenHid, hopenIr, hid, hhid, hcases⟩
  · rw [hsame]
    exact ⟨h, fun _ => ⟨rfl, rfl, rfl, rfl⟩⟩
  rcases hcases with ⟨-, ir, hir, hnext, hres⟩ | ⟨hfails, -, hnext⟩
  · rw [hnext]
    refine ⟨⟨congrArg (!·) h.same, hhid, hir⟩, fun hneg => ?_⟩
    omega
  · -- ir has failed: hid was patched before it, and is restored
    obtain ⟨hirOff, hagain⟩ := hrecovers hopenHid hopenIr hok hfails
    have hhidOff : s.hidPatched = false := h.same.trans hirOff
    rw [hhidOff] at hhid
    rw [hnext, hirOff]
    rcases switch_back hhid i.mapHidAgain with ⟨-, hback⟩ | ⟨hneg, -⟩
    · have hstate := h.hid
      have hirState := h.ir
      rw [hhidOff] at hstate
      rw [hirOff] at hirState
      refine ⟨⟨rfl, hback, hirState⟩, fun _ => ⟨?_, rfl, hhidOff.symm, hirOff.symm⟩⟩
      exact (hback.off rfl).trans (hstate.off rfl).symm
    · omega

/-- A call that does not recover leaves one module behind. -/
theorem Inv.not_callRight (hminor : 44 ≤ c.kernelMinor) (hfits : IrFits c o.ir) (h : Inv c o s) (hno : ¬Recovers c o s i) :
    ¬CallRight c o s i := by
  rintro ⟨hconsistent, -⟩
  unfold Recovers at hno
  push Not at hno
  obtain ⟨hopenHid, hopenIr, hok, hfails, hbad⟩ := hno
  rcases call_cases hminor hfits h i with ⟨-, -, hclosed⟩ | ⟨-, -, -, hid, hhid, hcases⟩
  · -- the processes are open and hid does not fail
    rcases hclosed with hclosed | hclosed | hclosed
    · omega
    · omega
    · exact hok hclosed
  rcases hcases with ⟨hok', -⟩ | ⟨-, -, hnext⟩
  · exact hok' hfails
  rw [hnext] at hconsistent
  cases hir : s.irPatched with
  | true =>
    -- hid was restored, ir was not
    rw [h.same, hir] at hconsistent
    rcases hconsistent with ⟨-, hoff, -⟩ | ⟨hon, -⟩
    · cases hoff
    · cases hon
  | false =>
    have hneg := hbad hir
    rw [hir] at hconsistent
    rw [h.same, hir] at hhid
    rcases switch_back hhid i.mapHidAgain with ⟨hpos, -⟩ | ⟨-, hstays⟩
    · omega
    · -- hid is still patched, and the variable says it is not
      rcases hconsistent with ⟨-, -, hcontent, -⟩ | ⟨hon, -⟩
      · rw [if_neg (by simp), hstays] at hcontent
        exact hhid.content_ne (hid_lawfulAt c o.hid) hcontent
      · cases hon

/-- In every run whose calls recover, the pair is consistent, and the next call does what it should exactly if it recovers. -/
theorem calls_right (hminor : 44 ≤ c.kernelMinor) (hfits : IrFits c o.ir)
    (h : ((calls c o).restrict (Recovers c o)).Reachable s) (i : Answers) :
    Consistent c o s ∧ (CallRight c o s i ↔ Recovers c o s i) := by
  have hinv : Inv c o s := by
    refine h.invariant (J := Inv c o) (fun s hs => ?_) fun s i s' _ hinv hstep => ?_
    · obtain rfl : s = _ := hs
      exact ⟨rfl, Toggle.is_start o.hid, Toggle.is_start o.ir⟩
    · obtain ⟨hrecovers, rfl⟩ := hstep
      exact (hinv.call hminor hfits hrecovers).1
  refine ⟨hinv.consistent hfits, fun hright => ?_, fun hrecovers => ?_⟩
  · by_contra hno
    exact hinv.not_callRight hminor hfits hno hright
  · obtain ⟨hnext, hsame⟩ := hinv.call hminor hfits hrecovers
    exact ⟨hnext.consistent hfits, hsame⟩

end Runs

/-! ## Two modules -/

/-- A kernel to which the patch of ir applies. -/
def console : Console where
  kernelMinor := 58
  hidSize := 36
  irSize := 44
  hidDataPhys := 0xA0001000
  hidCodePhys := 0xA0001100
  irCodePhys := 0xA0001200
  syncHookPhys := 0xA0001300
  syncHookPhys_ne := by decide

def codeAt (ws : List UInt32) : Memory UInt8 := fun x => if base ≤ x then ((words ws)[x - base]?).getD 0 else 0

/-- The code that is looked for, one piece behind the other. -/
def modules : Modules where
  hid := codeAt (hidOrigRegisterAndValue ++ hidOrigRegisterAndValue ++ hidOrigCode)
  ir := codeAt (irOrigReadingCode ++ [0xEB000010] ++ [0xE5900000] ++ irOrigWaitSyncCode ++ irOrigCppFlagCode)

def start : State := ⟨⟨modules.hid, none⟩, ⟨modules.ir, none⟩, false, false⟩

/-- All is answered. -/
def granted : Answers := ⟨0, 0, 0, 0, 0⟩

def enabled : State := (doOrUndoPatches console granted start).1

/-- Where ir is patched, and what is there. -/
def irPlaces : IrPlaces := ⟨base, base + 24, base + 36, 0xEB000010, 0xEF000024, 0xE3550000⟩

theorem modules_prepare : irPrepare console modules.ir = .ok irPlaces := by
  have hoff : memsearch modules.ir base console.irSize (words irOrigReadingCode) = some base := by decide +kernel
  have hoff2 : (memsearch modules.ir base console.irSize (words irOrigWaitSyncCode)).or
      (memsearch modules.ir base console.irSize (words irOrigWaitSyncCodeOld)) = some (base + 24) := by decide +kernel
  have hoff3 : memsearch modules.ir base console.irSize (words irOrigCppFlagCode) = some (base + 36) := by decide +kernel
  have hwords : word modules.ir (base + 16) = 0xEB000010 ∧ word modules.ir (base + 24) = 0xEF000024 ∧
      word modules.ir (base + 36) = 0xE3550000 := by decide +kernel
  unfold irPrepare
  rw [hoff, orError_some_bind, hoff2, orError_some_bind, hoff3, orError_some_bind, hwords.1, hwords.2.1, hwords.2.2]
  rfl

theorem modules_prepare_hid : hidPrepare console modules.hid = .ok ⟨base, base + 8, base + 16⟩ := by
  have hoff : memsearch modules.hid base console.hidSize (words hidOrigRegisterAndValue) = some base := by decide +kernel
  have hoff2 : hidSearchNext console modules.hid base = some (base + 8) := by decide +kernel
  have hoff3 : memsearch modules.hid base console.hidSize (words hidOrigCode) = some (base + 16) := by decide +kernel
  unfold hidPrepare
  rw [hoff, orError_some_bind, hoff2, orError_some_bind, hoff3, orError_some_bind]
  rfl

theorem modules_fit : IrFits console modules.ir := by
  intro p hp
  obtain rfl := Except.ok.inj (modules_prepare.symm.trans hp)
  exact ⟨by decide +kernel, fun _ => by decide +kernel⟩

theorem start_inv : Inv console modules start := ⟨rfl, Toggle.is_start modules.hid, Toggle.is_start modules.ir⟩

theorem start_recovers : Recovers console modules start granted := by
  rintro - - - (hres | ⟨-, hno⟩)
  · cases hres
  · exact absurd modules_prepare (hno irPlaces)

theorem enabled_reachable : ((calls console modules).restrict (Recovers console modules)).Reachable enabled :=
  .step (.init rfl) ⟨start_recovers, rfl⟩

theorem enabled_calls_right : Consistent console modules enabled ∧
    (CallRight console modules enabled granted ↔ Recovers console modules enabled granted) :=
  calls_right (by decide) modules_fit enabled_reachable granted

theorem enabled_patched : enabled.hidPatched = true ∧ enabled.irPatched = true := by
  decide +kernel

/-- When both are patched and ir cannot be mapped, hid is restored and ir stays patched. When both are to be patched and
hid cannot be mapped a second time, it stays patched, too. -/
theorem module_left_behind :
    ((calls console modules).Reachable enabled ∧ ¬CallRight console modules enabled ⟨0, 0, 0, -1, 0⟩) ∧
      (calls console modules).Reachable start ∧ ¬CallRight console modules start ⟨0, 0, 0, -1, -1⟩ := by
  have hinv : Inv console modules enabled := (start_inv.call (by decide) modules_fit start_recovers).1
  refine ⟨⟨enabled_reachable.of_restrict, hinv.not_callRight (by decide) modules_fit fun hrecovers => ?_⟩, .init rfl,
    start_inv.not_callRight (by decide) modules_fit fun hrecovers => ?_⟩
  · have hok : ¬(hidToggle console).Fails modules.hid 0 enabled.hidPatched := by
      rw [enabled_patched.1]
      rintro (hres | ⟨hon, -⟩)
      · cases hres
      · cases hon
    have hoff := (hrecovers (by decide) (by decide) hok (.inl (by decide))).1
    rw [enabled_patched.2] at hoff
    cases hoff
  · have hok : ¬(hidToggle console).Fails modules.hid 0 false := by
      rintro (hres | ⟨-, hno⟩)
      · cases hres
      · exact hno _ modules_prepare_hid
    have hagain := (hrecovers (by decide) (by decide) hok (.inl (by decide))).2
    exact absurd hagain (by decide)

end Omiiba.Rosalina.InputRedirection
