/-
Hostile patches as a whole: on which of them the patcher returns and refuses what is malformed.
-/
import Omiiba.Loader.BpsCommands

namespace Omiiba.Loader.Bps

/-! ## Header and footer -/

namespace Stream

/-- One of the next `k` numbers runs to the end. -/
def NumbersTruncated : Nat → Stream → Prop
  | 0, _ => False
  | k + 1, s => s.Truncated ∨ ∃ n s', s.readNumber = .done (n, s') ∧ s'.NumbersTruncated k

theorem truncated_of_end {s : Stream} (h : s.offset.toNat = s.bytes.length) : s.Truncated := by
  intro x hx
  rw [List.drop_eq_nil_of_le (by omega)] at hx
  cases hx

/-- Behind a number that is cut off nothing is left, so that the next ones are cut off, too. -/
theorem readNumber_step {s : Stream} (h : s.Inside) :
    ∃ n s', s.readNumber = .done (n, s') ∧ s'.bytes = s.bytes ∧ s'.Inside ∧
      (s.offset.toNat = s.bytes.length → s'.offset.toNat = s'.bytes.length) ∧
      ∀ k, s.NumbersTruncated (k + 1) → s'.offset.toNat = s'.bytes.length ∨ s'.NumbersTruncated k := by
  obtain ⟨n, s', hread, hbytes, hinside, hend⟩ := readNumber_total h
  refine ⟨n, s', hread, hbytes, hinside, fun he => hend (truncated_of_end he), ?_⟩
  rintro k (ht | ⟨n', s₁, hread', hk⟩)
  · exact Or.inl (hend ht)
  · rw [hread] at hread'
    cases hread'
    exact Or.inr hk

end Stream

/-- A number of the header runs to the end of the patch. -/
def HeaderTruncated (patch : Stream) : Prop :=
  ∃ magic s, patch.read .patch 4 = .done (magic, s) ∧ s.NumbersTruncated 3

/-- The sizes do not fit, or there is metadata. -/
def Header.Refused (source target : Stream) (header : Header) : Prop :=
  header.sourceSize > source.size ∨ header.targetSize > target.size ∨ header.metadataSize ≠ 0

section

variable {source target patch : Stream}

theorem readHeader_short (hoffset : patch.offset = 0) (hshort : patch.bytes.length < 4) : readHeader patch = .noValue := by
  have hexceeds : (patch.access 4).Exceeds := by
    refine ⟨fun hfits => ?_, fun hwraps => ?_⟩
    · have hle : patch.offset.toNat + 4 ≤ patch.bytes.length := hfits
      omega
    · have hle : 2 ^ 32 ≤ patch.offset.toNat + 4 := hwraps.1
      rw [hoffset] at hle
      simp at hle
  unfold readHeader
  rw [Stream.read_exceeds hexceeds]
  rfl

theorem readHeader_long (hoffset : patch.offset = 0) (hlong : 4 ≤ patch.bytes.length) :
    readHeader patch = .refused ∨
      ∃ header, readHeader patch = .done header ∧ header.patch.bytes = patch.bytes ∧ header.patch.Inside ∧
        (HeaderTruncated patch → header.patch.offset.toNat = header.patch.bytes.length) := by
  have hzero : patch.offset.toNat = 0 := by
    rw [hoffset]
    rfl
  have hfits : (patch.access 4).Fits := by
    show patch.offset.toNat + 4 ≤ patch.bytes.length
    omega
  have hread := Stream.read_fits .patch hfits
  have hinside : patch.Inside := by
    show patch.offset.toNat ≤ patch.bytes.length
    omega
  have h₀ : (patch.seek (patch.offset + 4)).Inside := by
    show (patch.offset + 4).toNat ≤ patch.bytes.length
    rw [hinside.offset_add (by decide), hzero]
    exact hlong
  obtain ⟨m, s₁, hm, hb₁, h₁, ht₁, hk₁⟩ := Stream.readNumber_step h₀
  obtain ⟨n, s₂, hn, hb₂, h₂, ht₂, hk₂⟩ := Stream.readNumber_step h₁
  obtain ⟨k, s₃, hk, hb₃, h₃, ht₃, hk₃⟩ := Stream.readNumber_step h₂
  unfold readHeader
  rw [hread]
  dsimp only [Outcome.value, Outcome.bind]
  split
  · exact Or.inl rfl
  · right
    rw [hm]
    dsimp only
    rw [hn]
    dsimp only
    rw [hk]
    refine ⟨_, rfl, hb₃.trans (hb₂.trans hb₁), h₃, ?_⟩
    rintro ⟨magic, s, hmagic, hnumbers⟩
    rw [hread] at hmagic
    cases hmagic
    rcases hk₁ 2 hnumbers with ht | hnumbers
    · exact ht₃ (ht₂ ht)
    · rcases hk₂ 1 hnumbers with ht | hnumbers
      · exact ht₃ ht
      · rcases hk₃ 0 hnumbers with ht | hnone
        · exact ht
        · exact hnone.elim

theorem readU32_fits {s : Stream} (h : (s.access 4).Fits) : ∃ n, s.readU32 = .done (n, s.seek (s.offset + 4)) := by
  unfold Stream.readU32
  rw [Stream.read_fits .patch h]
  exact ⟨_, rfl⟩

theorem readFooter_long {s : Stream} (hlong : 12 ≤ s.bytes.length) : ∃ c, readFooter s = .done c := by
  have hsize := s.size_toNat
  have hfit := s.fits
  have hend : (s.size - footerSize).toNat = s.bytes.length - 12 := by
    rw [UInt32.toNat_sub_of_le _ _ (by rw [UInt32.le_iff_toNat_le, hsize]; exact hlong), hsize]
    rfl
  have hnext : (s.size - footerSize + 4).toNat = s.bytes.length - 8 := by
    rw [UInt32.toNat_add, hend, Nat.mod_eq_of_lt (by simp; omega)]
    simp
    omega
  obtain ⟨m, hm⟩ := readU32_fits (s := s.seek (s.size - footerSize)) (by
    show (s.size - footerSize).toNat + 4 ≤ s.bytes.length
    omega)
  obtain ⟨n, hn⟩ := readU32_fits (s := s.seek (s.size - footerSize + 4)) (by
    show (s.size - footerSize + 4).toNat + 4 ≤ s.bytes.length
    omega)
  refine ⟨(m, n), ?_⟩
  unfold readFooter
  rw [hm]
  dsimp only [Outcome.value, Outcome.bind]
  show ((s.seek (s.size - footerSize + 4)).readU32.value.bind fun r => _) = _
  rw [hn]
  rfl

/-- Where the patch is shorter than the footer, reading it goes wrong. -/
theorem readFooter_short {s : Stream} (hshort : s.bytes.length < 12) :
    readFooter s = .noValue ∨ readFooter s = .outside .patch := by
  have hsize := s.size_toNat
  have hend : (s.size - footerSize).toNat = 2 ^ 32 + s.bytes.length - 12 := by
    rw [UInt32.toNat_sub, hsize]
    simp [footerSize]
    omega
  unfold readFooter Stream.readU32
  rcases ((s.seek (s.size - footerSize)).access 4).cases with hfits | hwraps | hexceeds
  · have hle : (s.size - footerSize).toNat + 4 ≤ s.bytes.length := hfits
    omega
  · right
    rw [Stream.read_wraps hwraps]
    rfl
  · left
    rw [Stream.read_exceeds hexceeds]
    rfl

/-! ## The whole patch -/

/-- The state at a command that `Apply` comes to. -/
def AtCommand (source target patch : Stream) (p : PatchApplier) : Prop :=
  ∃ header sourceCrc32 targetCrc32, readHeader patch = .done header ∧ ¬ header.Refused source target ∧
    readFooter header.patch = .done (sourceCrc32, targetCrc32) ∧
    crc32 (source.bytes.take header.sourceSize.toNat) = sourceCrc32 ∧
    PatchApplier.Reaches (patch.size - footerSize) ⟨0, 0, source, target.cleared, header.patch⟩ p ∧
    p.patch.offset < patch.size - footerSize

/-- `Apply` returns, without an access outside of a buffer; a patch cut off in its header does not
succeed, and a malformed command is refused. -/
structure Robust (source target patch : Stream) : Prop where
  ends : apply source target patch = .refused ∨ ∃ r, apply source target patch = .done r
  header : HeaderTruncated patch → ∀ result, apply source target patch ≠ .done (true, result)
  commands : ∀ p, AtCommand source target patch p → p.Malformed → p.handleCommand = .refused

/-- The footer is there, a header that is cut off does not fit the images, and no command goes wrong
unnoticed. -/
structure Benign (source target patch : Stream) : Prop where
  long : 12 ≤ patch.bytes.length ∨
    4 ≤ patch.bytes.length ∧ ∀ header, readHeader patch = .done header → header.Refused source target
  header : HeaderTruncated patch → ∀ header sourceCrc32 targetCrc32, readHeader patch = .done header →
    ¬ header.Refused source target → readFooter header.patch = .done (sourceCrc32, targetCrc32) →
    crc32 (source.bytes.take header.sourceSize.toNat) = sourceCrc32 →
    crc32 (List.replicate header.targetSize.toNat 0) ≠ targetCrc32
  commands : ∀ p, AtCommand source target patch p → p.Caught

theorem start_inside (htarget : target.offset = 0) {ahead : Stream} (hahead : ahead.Inside) :
    PatchApplier.Inside ⟨0, 0, source, target.cleared, ahead⟩ := by
  refine ⟨hahead, ?_⟩
  show target.offset.toNat ≤ _
  rw [htarget]
  exact Nat.zero_le _

theorem start_left {ahead : Stream} :
    PatchApplier.left ⟨0, 0, source, target.cleared, ahead⟩ < target.bytes.length + 1 := by
  unfold PatchApplier.left
  show target.cleared.bytes.length - _ < _
  rw [show target.cleared.bytes.length = target.bytes.length from List.length_replicate]
  omega

/-- What `Apply` does with a header that it accepts and the checksum of the source. -/
theorem apply_accepted {header : Header} {sourceCrc32 targetCrc32 : UInt32} (hheader : readHeader patch = .done header)
    (haccepted : ¬ header.Refused source target) (hfooter : readFooter header.patch = .done (sourceCrc32, targetCrc32)) :
    apply source target patch =
      if crc32 (source.bytes.take header.sourceSize.toNat) ≠ sourceCrc32 then .refused
      else
        (PatchApplier.commandLoop (patch.size - footerSize) (target.bytes.length + 1)
            ⟨0, 0, source, target.cleared, header.patch⟩).bind fun p =>
          .done (crc32 (p.target.bytes.take header.targetSize.toNat) == targetCrc32, p.target) := by
  unfold apply
  rw [hheader]
  dsimp only [Outcome.bind]
  unfold Header.Refused at haccepted
  rw [if_neg haccepted, hfooter]

theorem apply_refused {header : Header} (hheader : readHeader patch = .done header)
    (hrefused : header.Refused source target) : apply source target patch = .refused := by
  unfold apply
  rw [hheader]
  dsimp only [Outcome.bind]
  unfold Header.Refused at hrefused
  rw [if_pos hrefused]

/-- A patch cut off in its header has no commands. -/
theorem commandLoop_truncated {header : Header} (hbytes : header.patch.bytes = patch.bytes)
    (hlong : 12 ≤ patch.bytes.length) (hend : header.patch.offset.toNat = header.patch.bytes.length) (fuel : Nat) :
    PatchApplier.commandLoop (patch.size - footerSize) (fuel + 1) ⟨0, 0, source, target.cleared, header.patch⟩ =
      .done ⟨0, 0, source, target.cleared, header.patch⟩ := by
  have hsize := patch.size_toNat
  have hsub : (patch.size - footerSize).toNat = patch.bytes.length - 12 := by
    rw [UInt32.toNat_sub_of_le _ _ (by rw [UInt32.le_iff_toNat_le, hsize]; exact hlong), hsize]
    rfl
  unfold PatchApplier.commandLoop
  rw [if_neg]
  rw [UInt32.lt_iff_toNat_lt, hsub, hend, hbytes]
  omega

theorem cleared_take {header : Header} (haccepted : ¬ header.Refused source target) :
    target.cleared.bytes.take header.targetSize.toNat = List.replicate header.targetSize.toNat 0 := by
  have hle : header.targetSize.toNat ≤ target.bytes.length := by
    by_contra hlt
    apply haccepted
    refine Or.inr (Or.inl ?_)
    rw [gt_iff_lt, UInt32.lt_iff_toNat_lt, target.size_toNat]
    omega
  show (List.replicate target.bytes.length (0 : UInt8)).take _ = _
  rw [List.take_replicate, Nat.min_eq_left hle]

/-- `Apply` goes wrong on nothing but benign patches. -/
theorem Robust.benign (hoffset : patch.offset = 0) (htarget : target.offset = 0) (h : Robust source target patch) :
    Benign source target patch := by
  have hlong : 4 ≤ patch.bytes.length := by
    by_contra hshort
    have happly : apply source target patch = .noValue := by
      unfold apply
      rw [readHeader_short hoffset (by omega)]
      rfl
    rcases h.ends with hr | ⟨r, hr⟩
    · rw [happly] at hr
      cases hr
    · rw [happly] at hr
      cases hr
  rcases readHeader_long hoffset hlong with hnone | ⟨header, hheader, hbytes, hinside, hend⟩
  · refine ⟨Or.inr ⟨hlong, fun header hheader => ?_⟩, fun _ header _ _ hheader => ?_, fun p hp => ?_⟩
    · rw [hnone] at hheader
      cases hheader
    · rw [hnone] at hheader
      cases hheader
    · obtain ⟨header, _, _, hheader, -⟩ := hp
      rw [hnone] at hheader
      cases hheader
  · by_cases hrefused : header.Refused source target
    · refine ⟨Or.inr ⟨hlong, fun header' hheader' => ?_⟩, fun _ header' _ _ hheader' haccepted => ?_, fun p hp => ?_⟩
      · rw [hheader] at hheader'
        cases hheader'
        exact hrefused
      · rw [hheader] at hheader'
        cases hheader'
        exact absurd hrefused haccepted
      · obtain ⟨header', _, _, hheader', haccepted, -⟩ := hp
        rw [hheader] at hheader'
        cases hheader'
        exact absurd hrefused haccepted
    · have hfull : 12 ≤ patch.bytes.length := by
        by_contra hshort
        have hfault : apply source target patch = .noValue ∨ apply source target patch = .outside .patch := by
          unfold apply
          rw [hheader]
          dsimp only [Outcome.bind]
          unfold Header.Refused at hrefused
          rw [if_neg hrefused]
          rcases readFooter_short (s := header.patch) (by rw [hbytes]; omega) with hf | hf
          · left
            rw [hf]
          · right
            rw [hf]
        rcases h.ends with hr | ⟨r, hr⟩
        · rcases hfault with hf | hf
          · rw [hf] at hr
            cases hr
          · rw [hf] at hr
            cases hr
        · rcases hfault with hf | hf
          · rw [hf] at hr
            cases hr
          · rw [hf] at hr
            cases hr
      refine ⟨Or.inl hfull, fun htruncated header' sourceCrc32 targetCrc32 hheader' _ hfooter hsource hcrc => ?_,
        fun p hp => ?_⟩
      · rw [hheader] at hheader'
        cases hheader'
        refine h.header htruncated target.cleared ?_
        rw [apply_accepted hheader hrefused hfooter, if_neg (not_not.mpr hsource),
          commandLoop_truncated hbytes hfull (hend htruncated)]
        show Outcome.done (crc32 (target.cleared.bytes.take _) == targetCrc32, target.cleared) = _
        rw [cleared_take hrefused, hcrc, beq_self_eq_true]
      · have hpin : p.Inside := by
          obtain ⟨header', _, _, hheader', -, -, -, hreach, -⟩ := hp
          rw [hheader] at hheader'
          cases hheader'
          exact (PatchApplier.commandLoop_reaches (start_inside htarget hinside) hreach start_left).1
        exact (PatchApplier.refused_iff_caught hpin).mp (h.commands p hp)

/-- On benign patches nothing goes wrong. -/
theorem Benign.robust (hoffset : patch.offset = 0) (htarget : target.offset = 0) (h : Benign source target patch) :
    Robust source target patch := by
  have hlong : 4 ≤ patch.bytes.length := by
    rcases h.long with hl | ⟨hl, -⟩
    · omega
    · exact hl
  rcases readHeader_long hoffset hlong with hnone | ⟨header, hheader, hbytes, hinside, hend⟩
  · have happly : apply source target patch = .refused := by
      unfold apply
      rw [hnone]
      rfl
    refine ⟨Or.inl happly, fun _ result hr => ?_, fun p hp => ?_⟩
    · rw [happly] at hr
      cases hr
    · obtain ⟨header, _, _, hheader, -⟩ := hp
      rw [hnone] at hheader
      cases hheader
  · by_cases hrefused : header.Refused source target
    · have happly := apply_refused hheader hrefused
      refine ⟨Or.inl happly, fun _ result hr => ?_, fun p hp => ?_⟩
      · rw [happly] at hr
        cases hr
      · obtain ⟨header', _, _, hheader', haccepted, -⟩ := hp
        rw [hheader] at hheader'
        cases hheader'
        exact absurd hrefused haccepted
    · have hfull : 12 ≤ patch.bytes.length := by
        rcases h.long with hl | ⟨-, hr⟩
        · exact hl
        · exact absurd (hr header hheader) hrefused
      obtain ⟨⟨sourceCrc32, targetCrc32⟩, hfooter⟩ := readFooter_long (s := header.patch) (by rw [hbytes]; exact hfull)
      have happly := apply_accepted hheader hrefused hfooter
      have hcommands : ∀ p, AtCommand source target patch p → p.Inside := by
        intro p hp
        obtain ⟨header', _, _, hheader', -, -, -, hreach, -⟩ := hp
        rw [hheader] at hheader'
        cases hheader'
        exact (PatchApplier.commandLoop_reaches (start_inside htarget hinside) hreach start_left).1
      refine ⟨?_, fun htruncated result hr => ?_, fun p hp =>
        (PatchApplier.refused_iff_caught (hcommands p hp)).mpr (h.commands p hp)⟩
      · rw [happly]
        split
        · exact Or.inl rfl
        · next hsource =>
          rcases PatchApplier.commandLoop_ends (start_inside htarget hinside) start_left
            (fun q b hq hlt => (h.commands q
              ⟨header, sourceCrc32, targetCrc32, hheader, hrefused, hfooter, not_not.mp hsource, hq, hlt⟩).not_outside
              (PatchApplier.commandLoop_reaches (start_inside htarget hinside) hq start_left).1 b)
            with hloop | ⟨q, hloop, -⟩
          · left
            rw [hloop]
            rfl
          · right
            rw [hloop]
            exact ⟨_, rfl⟩
      · rw [happly] at hr
        split at hr
        · cases hr
        · next hsource =>
          rw [commandLoop_truncated hbytes hfull (hend htruncated)] at hr
          have hcrc : (crc32 (target.cleared.bytes.take header.targetSize.toNat) == targetCrc32) = true := by
            injection hr with hr
            exact congrArg Prod.fst hr
          rw [cleared_take hrefused, beq_iff_eq] at hcrc
          exact h.header htruncated header sourceCrc32 targetCrc32 hheader hrefused hfooter (not_not.mp hsource) hcrc

/-- The patcher is robust on the benign patches, and on no others. -/
theorem robust_iff (hoffset : patch.offset = 0) (htarget : target.offset = 0) :
    Robust source target patch ↔ Benign source target patch :=
  ⟨fun h => h.benign hoffset htarget, fun h => h.robust hoffset htarget⟩

/-- A patch of four other bytes. -/
theorem robust_noMagic : Robust ⟨[1, 2], 0, by decide⟩ ⟨[1, 2], 0, by decide⟩ ⟨[0, 0, 0, 0], 0, by decide⟩ := by
  have hnone : readHeader ⟨[0, 0, 0, 0], 0, by decide⟩ = .refused := rfl
  refine (robust_iff rfl rfl).mpr ⟨Or.inr ⟨by decide, ?_⟩, ?_, ?_⟩
  · intro header hheader
    rw [hnone] at hheader
    cases hheader
  · intro _ header _ _ hheader
    rw [hnone] at hheader
    cases hheader
  · rintro p ⟨header, _, _, hheader, -⟩
    rw [hnone] at hheader
    cases hheader

/-- A copy of two bytes from one before the source: its end wraps around. -/
theorem beforeSource_notRobust : ¬ Robust ⟨[1, 2], 0, by decide⟩ ⟨[1, 2], 0, by decide⟩
    ⟨bpsMagic ++ [0x80, 0x80, 0x80, 0x86, 0x83, 0, 0, 0, 0, 0, 0, 0, 0, 0, 0, 0, 0], 0, by decide⟩ := by
  intro h
  have happly : apply ⟨[1, 2], 0, by decide⟩ ⟨[1, 2], 0, by decide⟩
      ⟨bpsMagic ++ [0x80, 0x80, 0x80, 0x86, 0x83, 0, 0, 0, 0, 0, 0, 0, 0, 0, 0, 0, 0], 0, by decide⟩ =
        .outside .source := rfl
  rcases h.ends with hr | ⟨r, hr⟩
  · rw [happly] at hr
    cases hr
  · rw [happly] at hr
    cases hr

end

end Omiiba.Loader.Bps
