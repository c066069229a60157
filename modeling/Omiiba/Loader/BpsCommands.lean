/-
The commands of hostile patches. An access is checked by its end, computed in 32 bits: it fits and is
performed, it ends beyond the buffer and is refused, or its end wraps around into the buffer and it
is performed outside.
-/
import Omiiba.Loader.BpsPatcher

namespace Omiiba.Loader.Bps

/-! ## Accesses -/

/-- `length` bytes from `offset` on in a buffer of `size` bytes. -/
structure Access where
  offset : UInt32
  length : UInt32
  size : Nat

namespace Access

def Fits (a : Access) : Prop := a.offset.toNat + a.length.toNat ≤ a.size

/-- The end wraps around to a place in the buffer. -/
def Wraps (a : Access) : Prop :=
  2 ^ 32 ≤ a.offset.toNat + a.length.toNat ∧ a.offset.toNat + a.length.toNat ≤ 2 ^ 32 + a.size

/-- The end is, also in 32 bits, beyond the buffer. -/
def Exceeds (a : Access) : Prop := ¬ a.Fits ∧ ¬ a.Wraps

instance (a : Access) : Decidable a.Fits := inferInstanceAs (Decidable (_ ≤ _))

instance (a : Access) : Decidable a.Wraps := inferInstanceAs (Decidable (_ ∧ _))

instance (a : Access) : Decidable a.Exceeds := inferInstanceAs (Decidable (_ ∧ _))

theorem cases (a : Access) : a.Fits ∨ a.Wraps ∨ a.Exceeds := by
  by_cases hf : a.Fits
  · exact Or.inl hf
  · by_cases hw : a.Wraps
    · exact Or.inr (Or.inl hw)
    · exact Or.inr (Or.inr ⟨hf, hw⟩)

theorem Wraps.not_fits {a : Access} (h : a.Wraps) (hsize : a.size < 2 ^ 32) : ¬ a.Fits := by
  have := h.1
  unfold Fits
  omega

end Access

namespace Stream

/-- The access a read makes. -/
def access (s : Stream) (length : UInt32) : Access := ⟨s.offset, length, s.bytes.length⟩

variable {name : BufferName} {s : Stream} {length : UInt32}

theorem read_fits (name : BufferName) (h : (s.access length).Fits) :
    s.read name length = .done ((s.bytes.drop s.offset.toNat).take length.toNat, s.seek (s.offset + length)) :=
  read_done h

theorem read_wraps (h : (s.access length).Wraps) : s.read name length = .outside name :=
  read_outside h.1 h.2

theorem read_exceeds (h : (s.access length).Exceeds) : s.read name length = .refused :=
  read_refused (not_le.mp h.1) fun hw => not_le.mp fun hle => h.2 ⟨hw, hle⟩

/-- The position is in the buffer, or at its end. -/
def Inside (s : Stream) : Prop := s.offset.toNat ≤ s.bytes.length

theorem Inside.not_wraps (h : s.Inside) (hlen : length.toNat ≤ 0x40000000) : ¬ (s.access length).Wraps := by
  have := s.fits
  unfold Inside at h
  unfold access Access.Wraps
  dsimp only
  omega

theorem Inside.offset_add (h : s.Inside) (hlen : length.toNat ≤ 0x40000000) :
    (s.offset + length).toNat = s.offset.toNat + length.toNat := by
  have := s.fits
  unfold Inside at h
  rw [UInt32.toNat_add, Nat.mod_eq_of_lt (by omega)]

/-! ## Numbers -/

/-- The bytes ahead end within a number. -/
def Truncated (s : Stream) : Prop := ∀ x ∈ s.bytes.drop s.offset.toNat, x &&& 0x80 = 0

instance (s : Stream) : Decidable s.Truncated := inferInstanceAs (Decidable (∀ x ∈ _, _))

/-- One byte of a number. -/
theorem readU8_cases (h : s.Inside) :
    (s.readU8 = .refused ∧ s.offset.toNat = s.bytes.length) ∨
      ∃ x, s.readU8 = .done (x, s.seek (s.offset + 1)) ∧ s.bytes.drop s.offset.toNat =
          x :: s.bytes.drop (s.offset + 1).toNat ∧ (s.offset + 1).toNat = s.offset.toNat + 1 ∧
        (s.seek (s.offset + 1)).Inside := by
  have hone : (1 : UInt32).toNat = 1 := rfl
  have hadd : (s.offset + 1).toNat = s.offset.toNat + (1 : UInt32).toNat := h.offset_add (by decide)
  unfold readU8
  rcases (s.access 1).cases with hfits | hwraps | hexceeds
  · right
    have hlt : s.offset.toNat < s.bytes.length := hfits
    have hdrop := List.drop_eq_getElem_cons hlt
    refine ⟨s.bytes[s.offset.toNat], ?_, ?_, hadd, ?_⟩
    · rw [read_fits .patch hfits, hdrop]
      rfl
    · rw [hdrop, hadd, hone]
    · show (s.offset + 1).toNat ≤ s.bytes.length
      omega
  · exact absurd hwraps (h.not_wraps (by decide))
  · left
    refine ⟨by rw [read_exceeds hexceeds]; rfl, ?_⟩
    have hnot : ¬ s.offset.toNat + 1 ≤ s.bytes.length := hexceeds.1
    unfold Inside at h
    omega

theorem readNumberLoop_total : ∀ {fuel : Nat} {s : Stream} (data shift : Number), s.Inside →
    s.bytes.length < s.offset.toNat + fuel → ∃ n s', s.readNumberLoop fuel data shift = .done (n, s') ∧
      s'.bytes = s.bytes ∧ s'.Inside ∧ (s.Truncated → s'.offset.toNat = s'.bytes.length)
  | 0, s, data, shift, h, hfuel => by
    unfold Inside at h
    omega
  | fuel + 1, s, data, shift, h, hfuel => by
    unfold readNumberLoop
    rcases readU8_cases h with ⟨hread, hend⟩ | ⟨x, hread, hdrop, hadd, hnext⟩
    · rw [hread]
      exact ⟨data, s, rfl, rfl, h, fun _ => hend⟩
    · rw [hread]
      dsimp only
      by_cases hlast : x &&& 0x80 ≠ 0
      · rw [if_pos hlast]
        refine ⟨_, _, rfl, rfl, hnext, fun ht => absurd (ht x ?_) hlast⟩
        rw [hdrop]
        exact List.mem_cons_self
      · rw [if_neg hlast]
        obtain ⟨n, s', hloop, hbytes, hin, hend⟩ := readNumberLoop_total
          (data + (x &&& 0x7f).toUInt32 * shift + shift <<< 7) (shift <<< 7) hnext
          (show s.bytes.length < (s.offset + 1).toNat + fuel by omega)
        refine ⟨n, s', hloop, hbytes, hin, fun ht => hend fun y hy => ht y ?_⟩
        rw [hdrop]
        exact List.mem_cons_of_mem x hy

/-- `ReadNumber` always gives a number. -/
theorem readNumber_total (h : s.Inside) :
    ∃ n s', s.readNumber = .done (n, s') ∧ s'.bytes = s.bytes ∧ s'.Inside ∧
      (s.Truncated → s'.offset.toNat = s'.bytes.length) :=
  readNumberLoop_total 0 1 h (by omega)

/-! ## Copies -/

/-- What `CopyFrom` does, by the two accesses it makes. -/
theorem copyFrom_cases (name : BufferName) (other : Stream) (h : s.Inside) (hlen : length.toNat ≤ 0x40000000) :
    ((s.access length).Fits ∧ (other.access length).Fits ∧ ∃ t, s.copyFrom name other length =
        .done (t, other.seek (other.offset + length)) ∧ t.bytes.length = s.bytes.length ∧ t.Inside ∧
        t.offset.toNat = s.offset.toNat + length.toNat) ∨
      (((s.access length).Exceeds ∨ (other.access length).Exceeds) ∧ s.copyFrom name other length = .refused) ∨
      ((s.access length).Fits ∧ (other.access length).Wraps ∧ s.copyFrom name other length = .outside name) := by
  have hadd := h.offset_add hlen
  have hsize := s.size_toNat
  unfold copyFrom
  rcases (s.access length).cases with hfits | hwraps | hexceeds
  · have hle : s.offset.toNat + length.toNat ≤ s.bytes.length := hfits
    rw [if_neg (by rw [gt_iff_lt, UInt32.lt_iff_toNat_lt]; omega)]
    rcases (other.access length).cases with hother | hother | hother
    · left
      have hbytes : other.offset.toNat + length.toNat ≤ other.bytes.length := hother
      rw [read_fits name hother]
      dsimp only [Outcome.bind]
      rw [dif_pos (by rw [List.length_take, List.length_drop]; omega)]
      refine ⟨hfits, hother, _, rfl, ?_, ?_, hadd⟩
      · exact overwrite_length (by rw [List.length_take, List.length_drop]; omega)
      · show (s.offset + length).toNat ≤ (overwrite _ _ _).length
        rw [overwrite_length (by rw [List.length_take, List.length_drop]; omega)]
        omega
    · right; right
      rw [read_wraps hother]
      exact ⟨hfits, hother, rfl⟩
    · right; left
      rw [read_exceeds hother]
      exact ⟨Or.inr hother, rfl⟩
  · exact absurd hwraps (h.not_wraps hlen)
  · right; left
    have hlt : ¬ s.offset.toNat + length.toNat ≤ s.bytes.length := hexceeds.1
    rw [if_pos (by rw [gt_iff_lt, UInt32.lt_iff_toNat_lt]; omega)]
    exact ⟨Or.inl hexceeds, rfl⟩

end Stream

theorem copyLoop_fits : ∀ {n : Nat} {dst rel : UInt32} {bytes : List UInt8},
    dst.toNat + n ≤ bytes.length → rel.toNat + n ≤ bytes.length → bytes.length < 2 ^ 32 →
    ∃ r, copyLoop n dst rel bytes = .done r
  | 0, dst, rel, bytes, hdst, hrel, hlen => ⟨_, rfl⟩
  | n + 1, dst, rel, bytes, hdst, hrel, hlen => by
    have hadd : ∀ x : UInt32, x.toNat + (n + 1) ≤ bytes.length → (x + 1).toNat = x.toNat + 1 := by
      intro x hx
      rw [UInt32.toNat_add, Nat.mod_eq_of_lt (by simp; omega)]
      rfl
    unfold copyLoop
    rw [List.getElem?_eq_getElem (by omega : rel.toNat < bytes.length)]
    dsimp only
    rw [if_pos (by omega)]
    apply copyLoop_fits
    · rw [List.length_set, hadd dst hdst]
      omega
    · rw [List.length_set, hadd rel hrel]
      omega
    · rw [List.length_set]
      exact hlen

/-! ## Commands -/

namespace PatchApplier

/-- The accesses of the command ahead. -/
def accesses (p : PatchApplier) : List Access :=
  match p.patch.readNumber with
  | .done (data, patch) =>
    let length := (data >>> 2) + 1
    p.target.access length ::
      match (data &&& 3).toNat with
      | 0 => [(p.source.seek p.target.offset).access length]
      | 1 => [patch.access length]
      | 2 =>
        match patch.readNumber with
        | .done (move, _) => [(p.source.seek (moveRelative p.sourceRelativeOffset move)).access length]
        | _ => []
      | _ =>
        match patch.readNumber with
        | .done (move, _) => [(p.target.seek (moveRelative p.targetRelativeOffset move)).access length]
        | _ => []
  | _ => []

/-- A number of the command ahead runs to the end of the patch. -/
def Truncated (p : PatchApplier) : Prop :=
  p.patch.Truncated ∨
    ∃ data patch, p.patch.readNumber = .done (data, patch) ∧ 2 ≤ (data &&& 3).toNat ∧ patch.Truncated

structure Inside (p : PatchApplier) : Prop where
  patch : p.patch.Inside
  target : p.target.Inside

/-- What a command with such accesses does: it performs them all, refuses one, or makes one outside. -/
inductive Handled (accesses : List Access) (target : Stream) : Outcome PatchApplier → Prop
  | performed (p' : PatchApplier) (fits : ∀ a ∈ accesses, a.Fits) (inside : p'.Inside)
      (length_eq : p'.target.bytes.length = target.bytes.length)
      (moves : target.offset.toNat < p'.target.offset.toNat) : Handled accesses target (.done p')
  | refused (a : Access) (ha : a ∈ accesses) (exceeds : a.Exceeds) : Handled accesses target .refused
  | outside (b : BufferName) (a : Access) (within : ∀ a ∈ accesses, ¬ a.Exceeds) (ha : a ∈ accesses)
      (wraps : a.Wraps) : Handled accesses target (.outside b)

variable {p : PatchApplier}

theorem length_bounds (data : Number) : 0 < ((data >>> 2) + 1).toNat ∧ ((data >>> 2) + 1).toNat ≤ 0x40000000 := by
  have hdata := data.toNat_lt
  have hshift : (data >>> 2).toNat = data.toNat / 4 := by
    rw [UInt32.toNat_shiftRight]
    exact Nat.shiftRight_eq_div_pow data.toNat 2
  have hadd : ((data >>> 2) + 1).toNat = data.toNat / 4 + 1 := by
    rw [UInt32.toNat_add, hshift, Nat.mod_eq_of_lt (by simp; omega)]
    rfl
  omega

/-- An access that fits, or that wraps around, does not exceed. -/
theorem not_exceeds {a b : Access} (ha : a.Fits) (hb : b.Fits ∨ b.Wraps) : ∀ c ∈ [a, b], ¬ c.Exceeds := by
  intro c hc hex
  simp only [List.mem_cons, List.not_mem_nil, or_false] at hc
  rcases hc with rfl | rfl
  · exact hex.1 ha
  · rcases hb with hb | hb
    · exact hex.1 hb
    · exact hex.2 hb

/-- A command that copies to the target from another stream, and puts both back with `f`. -/
theorem handled_copyFrom (name : BufferName) (other : Stream) (f : Stream × Stream → PatchApplier) {length : UInt32}
    (h : p.Inside) (hpos : 0 < length.toNat) (hlen : length.toNat ≤ 0x40000000)
    (htarget : ∀ t o, (f (t, o)).target = t)
    (hpatch : ∀ t, (other.access length).Fits → (f (t, other.seek (other.offset + length))).patch.Inside) :
    Handled [p.target.access length, other.access length] p.target
      ((p.target.copyFrom name other length).bind fun r => .done (f r)) := by
  rcases Stream.copyFrom_cases name other h.target hlen with
    ⟨hfits, hother, t, hcopy, hbytes, hinside, hoffset⟩ | ⟨hexceeds, hcopy⟩ | ⟨hfits, hother, hcopy⟩
  · rw [hcopy]
    refine .performed _ ?_ ⟨hpatch t hother, by rw [htarget]; exact hinside⟩ ?_ ?_
    · intro a ha
      simp only [List.mem_cons, List.not_mem_nil, or_false] at ha
      rcases ha with rfl | rfl
      · exact hfits
      · exact hother
    · rw [htarget]
      exact hbytes
    · rw [htarget, hoffset]
      omega
  · rw [hcopy]
    rcases hexceeds with hexceeds | hexceeds
    · exact .refused _ List.mem_cons_self hexceeds
    · exact .refused _ (List.mem_cons_of_mem _ List.mem_cons_self) hexceeds
  · rw [hcopy]
    exact .outside _ _ (not_exceeds hfits (Or.inr hother)) (List.mem_cons_of_mem _ List.mem_cons_self) hother

theorem handled_targetCopy {length move : UInt32} {patch : Stream} (h : p.Inside) (hpos : 0 < length.toNat)
    (hlen : length.toNat ≤ 0x40000000) (hread : p.patch.readNumber = .done (move, patch)) (hpatch : patch.Inside) :
    Handled [p.target.access length, (p.target.seek (moveRelative p.targetRelativeOffset move)).access length] p.target
      (p.targetCopy length) := by
  have hsize := p.target.size_toNat
  have hfit := p.target.fits
  have hadd := h.target.offset_add hlen
  unfold targetCopy
  rw [hread]
  dsimp only [Outcome.bind]
  rcases (p.target.access length).cases with hfits | hwraps | hexceeds
  · have hle : p.target.offset.toNat + length.toNat ≤ p.target.bytes.length := hfits
    rw [if_neg (by rw [gt_iff_lt, UInt32.lt_iff_toNat_lt]; omega)]
    have hrel := (moveRelative p.targetRelativeOffset move).toNat_lt
    rcases ((p.target.seek (moveRelative p.targetRelativeOffset move)).access length).cases with hother | hother | hother
    · have hrle : (moveRelative p.targetRelativeOffset move).toNat + length.toNat ≤ p.target.bytes.length := hother
      obtain ⟨r, hloop⟩ := copyLoop_fits hle hrle (by omega)
      rw [if_neg (by rw [gt_iff_lt, UInt32.lt_iff_toNat_lt, UInt32.toNat_add, Nat.mod_eq_of_lt (by omega)]; omega)]
      split
      case h_1 r' hr =>
        have hlength := copyLoop_length hr
        refine .performed _ ?_ ⟨hpatch, ?_⟩ hlength ?_
        · intro a ha
          simp only [List.mem_cons, List.not_mem_nil, or_false] at ha
          rcases ha with rfl | rfl
          · exact hfits
          · exact hother
        · show (p.target.offset + length).toNat ≤ r'.1.length
          omega
        · show p.target.offset.toNat < (p.target.offset + length).toNat
          omega
      all_goals
        next hr =>
          rw [hloop] at hr
          cases hr
    · have hlow : 2 ^ 32 ≤ (moveRelative p.targetRelativeOffset move).toNat + length.toNat := hother.1
      have hhigh : (moveRelative p.targetRelativeOffset move).toNat + length.toNat ≤ 2 ^ 32 + p.target.bytes.length := hother.2
      have hloop : copyLoop length.toNat p.target.offset (moveRelative p.targetRelativeOffset move) p.target.bytes = .outside .target := by
        obtain ⟨k, hk⟩ := Nat.exists_eq_succ_of_ne_zero (by omega : length.toNat ≠ 0)
        rw [hk]
        unfold copyLoop
        rw [List.getElem?_eq_none (by omega)]
      rw [if_neg (by rw [gt_iff_lt, UInt32.lt_iff_toNat_lt, UInt32.toNat_add]; omega)]
      split
      case h_2 b hr =>
        exact .outside _ _ (not_exceeds hfits (Or.inr hother)) (List.mem_cons_of_mem _ List.mem_cons_self) hother
      all_goals
        next hr =>
          rw [hloop] at hr
          cases hr
    · have hnot : ¬ (moveRelative p.targetRelativeOffset move).toNat + length.toNat ≤ p.target.bytes.length := hother.1
      have hnowrap : ¬ (2 ^ 32 ≤ (moveRelative p.targetRelativeOffset move).toNat + length.toNat ∧
        (moveRelative p.targetRelativeOffset move).toNat + length.toNat ≤ 2 ^ 32 + p.target.bytes.length) := hother.2
      rw [if_pos (by rw [gt_iff_lt, UInt32.lt_iff_toNat_lt, UInt32.toNat_add]; omega)]
      exact .refused _ (List.mem_cons_of_mem _ List.mem_cons_self) hother
  · exact absurd hwraps (h.target.not_wraps hlen)
  · have hlt : ¬ p.target.offset.toNat + length.toNat ≤ p.target.bytes.length := hexceeds.1
    rw [if_pos (by rw [gt_iff_lt, UInt32.lt_iff_toNat_lt]; omega)]
    exact .refused _ List.mem_cons_self hexceeds

/-- What a command does is decided by its accesses. -/
theorem handleCommand_handled (h : p.Inside) : Handled p.accesses p.target p.handleCommand := by
  obtain ⟨data, patch, hread, hbytes, hpatch, -⟩ := Stream.readNumber_total h.patch
  obtain ⟨hpos, hlen⟩ := length_bounds data
  unfold handleCommand accesses
  rw [hread]
  dsimp only [Outcome.bind]
  generalize (data >>> 2) + 1 = length at hpos hlen
  have hcmd : (data &&& 3).toNat < 4 := by
    rw [UInt32.toNat_and]
    exact lt_of_le_of_lt Nat.and_le_right (by decide)
  unfold switchCommand
  rcases hkind : (data &&& 3).toNat with _ | _ | _ | _ | k
  · exact handled_copyFrom (p := { p with patch }) .source (p.source.seek p.target.offset)
      (fun r => { p with patch, target := r.1, source := r.2 }) ⟨hpatch, h.target⟩ hpos hlen (fun _ _ => rfl)
      fun _ _ => hpatch
  · refine handled_copyFrom (p := { p with patch }) .patch patch (fun r => { p with target := r.1, patch := r.2 })
      ⟨hpatch, h.target⟩ hpos hlen (fun _ _ => rfl) fun _ hfits => ?_
    have hle : patch.offset.toNat + length.toNat ≤ patch.bytes.length := hfits
    show (patch.offset + length).toNat ≤ patch.bytes.length
    rw [hpatch.offset_add hlen]
    exact hle
  · obtain ⟨move, patch', hmove, -, hpatch', -⟩ := Stream.readNumber_total hpatch
    unfold sourceCopy
    rw [hmove]
    exact handled_copyFrom (p := { p with patch }) .source (p.source.seek (moveRelative p.sourceRelativeOffset move))
      (fun r => { p with
        patch := patch', target := r.1, source := r.2
        sourceRelativeOffset := moveRelative p.sourceRelativeOffset move + length })
      ⟨hpatch, h.target⟩ hpos hlen (fun _ _ => rfl) fun _ _ => hpatch'
  · obtain ⟨move, patch', hmove, -, hpatch', -⟩ := Stream.readNumber_total hpatch
    rw [hmove]
    exact handled_targetCopy (p := { p with patch }) ⟨hpatch, h.target⟩ hpos hlen hmove hpatch'
  · omega

/-- A number of the command is cut off, or an access of it does not fit. -/
def Malformed (p : PatchApplier) : Prop := p.Truncated ∨ ∃ a ∈ p.accesses, ¬ a.Fits

/-- Where a number of the command is cut off or an access of it wraps around, another one exceeds. -/
def Caught (p : PatchApplier) : Prop :=
  (p.Truncated ∨ ∃ a ∈ p.accesses, a.Wraps) → ∃ a ∈ p.accesses, a.Exceeds

/-- The buffers of all accesses end below the addresses of the kernel. -/
theorem accesses_size (h : p.Inside) : ∀ a ∈ p.accesses, a.size < 2 ^ 32 := by
  have hfits : ∀ (s : Stream) (length : UInt32), (s.access length).size < 2 ^ 32 :=
    fun s _ => lt_of_le_of_lt s.fits (by decide)
  obtain ⟨data, patch, hread, hbytes, hpatch, -⟩ := Stream.readNumber_total h.patch
  obtain ⟨move, patch', hmove, -⟩ := Stream.readNumber_total hpatch
  intro a ha
  unfold accesses at ha
  rw [hread] at ha
  dsimp only at ha
  rw [hmove] at ha
  dsimp only at ha
  split at ha
  all_goals
    simp only [List.mem_cons, List.not_mem_nil, or_false] at ha
    rcases ha with rfl | rfl
    · exact hfits _ _
    · exact hfits _ _

/-- A malformed command is refused exactly if it is caught. -/
theorem refused_iff_caught (h : p.Inside) : (p.Malformed → p.handleCommand = .refused) ↔ p.Caught := by
  have hhandled := handleCommand_handled h
  constructor
  · intro hrefused hbad
    have hmalformed : p.Malformed := by
      rcases hbad with htruncated | ⟨a, ha, hwraps⟩
      · exact Or.inl htruncated
      · exact Or.inr ⟨a, ha, hwraps.not_fits (accesses_size h a ha)⟩
    rw [hrefused hmalformed] at hhandled
    cases hhandled with
    | refused a ha hexceeds => exact ⟨a, ha, hexceeds⟩
  · intro hcaught hmalformed
    have hexceeds : ∃ a ∈ p.accesses, a.Exceeds := by
      rcases hmalformed with htruncated | ⟨a, ha, hnot⟩
      · exact hcaught (Or.inl htruncated)
      · rcases a.cases with hfits | hwraps | hexceeds
        · exact absurd hfits hnot
        · exact hcaught (Or.inr ⟨a, ha, hwraps⟩)
        · exact ⟨a, ha, hexceeds⟩
    obtain ⟨a, ha, hexceeds⟩ := hexceeds
    rcases hres : p.handleCommand with p' | _ | b | _ | _
    · rw [hres] at hhandled
      cases hhandled with
      | performed _ hfits => exact absurd (hfits a ha) hexceeds.1
    · rfl
    · rw [hres] at hhandled
      cases hhandled with
      | outside _ _ hwithin => exact absurd hexceeds (hwithin a ha)
    all_goals
      rw [hres] at hhandled
      cases hhandled

/-! ## Runs -/

/-- `q` is a state of the loop over the commands that begins in `p`. -/
inductive Reaches (commandEndOffset : UInt32) : PatchApplier → PatchApplier → Prop
  | refl (p : PatchApplier) : Reaches commandEndOffset p p
  | command {p q r : PatchApplier} (ahead : p.patch.offset < commandEndOffset) (done : p.handleCommand = .done q)
      (rest : Reaches commandEndOffset q r) : Reaches commandEndOffset p r

variable {commandEndOffset : UInt32} {q : PatchApplier}

/-- How far the target is from its end: every command comes closer. -/
def left (p : PatchApplier) : Nat := p.target.bytes.length - p.target.offset.toNat

theorem handleCommand_step (h : p.Inside) (hdone : p.handleCommand = .done q) : q.Inside ∧ q.left < p.left := by
  have hhandled := handleCommand_handled h
  rw [hdone] at hhandled
  cases hhandled with
  | performed _ hfits hinside hlength hmoves =>
    have hle : q.target.offset.toNat ≤ q.target.bytes.length := hinside.target
    refine ⟨hinside, ?_⟩
    unfold left
    omega

/-- The loop passes through every state it reaches. -/
theorem commandLoop_reaches (h : p.Inside) (hreach : Reaches commandEndOffset p q) :
    ∀ {fuel : Nat}, p.left < fuel → q.Inside ∧
      ∃ fuel', q.left < fuel' ∧ commandLoop commandEndOffset fuel p = commandLoop commandEndOffset fuel' q := by
  induction hreach with
  | refl p => exact fun hfuel => ⟨h, _, hfuel, rfl⟩
  | @command p q r hahead hdone hrest ih =>
    intro fuel hfuel
    obtain ⟨hinside, hless⟩ := handleCommand_step h hdone
    obtain ⟨k, rfl⟩ := Nat.exists_eq_succ_of_ne_zero (by omega : fuel ≠ 0)
    obtain ⟨hr, fuel', hfuel', hloop⟩ := ih hinside (show q.left < k by omega)
    refine ⟨hr, fuel', hfuel', ?_⟩
    rw [← hloop]
    conv_lhs => unfold commandLoop
    rw [if_pos hahead, hdone]

/-- The loop ends, and unless a command makes an access outside, in the regular way. -/
theorem commandLoop_ends : ∀ {fuel : Nat} {p : PatchApplier}, p.Inside → p.left < fuel →
    (∀ q b, Reaches commandEndOffset p q → q.patch.offset < commandEndOffset → q.handleCommand ≠ .outside b) →
    commandLoop commandEndOffset fuel p = .refused ∨
      ∃ q, commandLoop commandEndOffset fuel p = .done q ∧ Reaches commandEndOffset p q
  | 0, p, h, hfuel, hsafe => by omega
  | fuel + 1, p, h, hfuel, hsafe => by
    unfold commandLoop
    by_cases hahead : p.patch.offset < commandEndOffset
    · rw [if_pos hahead]
      have hhandled := handleCommand_handled h
      rcases hres : p.handleCommand with q | _ | b | _ | _
      · obtain ⟨hinside, hless⟩ := handleCommand_step h hres
        rcases commandLoop_ends hinside (show q.left < fuel by omega)
          (fun r b hr => hsafe r b (.command hahead hres hr)) with hend | ⟨r, hend, hr⟩
        · exact Or.inl hend
        · exact Or.inr ⟨r, hend, .command hahead hres hr⟩
      · exact Or.inl rfl
      · exact absurd hres (hsafe p b (.refl p) hahead)
      · rw [hres] at hhandled
        cases hhandled
      · rw [hres] at hhandled
        cases hhandled
    · rw [if_neg hahead]
      exact Or.inr ⟨p, rfl, .refl p⟩

/-- A caught command makes no access outside. -/
theorem Caught.not_outside (h : p.Inside) (hcaught : p.Caught) (b : BufferName) : p.handleCommand ≠ .outside b := by
  intro hres
  have hhandled := handleCommand_handled h
  rw [hres] at hhandled
  cases hhandled with
  | outside _ a hwithin ha hwraps =>
    obtain ⟨c, hc, hexceeds⟩ := hcaught (Or.inr ⟨a, ha, hwraps⟩)
    exact hwithin c hc hexceeds

end PatchApplier

end Omiiba.Loader.Bps
