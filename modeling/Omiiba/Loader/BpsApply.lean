/-
The patcher on a well-formed patch: each command does what the action it stands for does, and the
whole patch makes the target of the format.
-/
import Omiiba.Lib.Words
import Omiiba.Loader.BpsFormat

namespace Omiiba.Loader.Bps

/-! ## The target -/

/-- The stream of a target of `size` bytes after `output` was written to it. -/
structure Stream.Written (t : Stream) (size : Nat) (output : List UInt8) : Prop where
  le : output.length ≤ size
  bytes_eq : t.bytes = output ++ List.replicate (size - output.length) 0
  offset_eq : t.offset.toNat = output.length

namespace Stream.Written

variable {t : Stream} {size : Nat} {output : List UInt8}

theorem length_eq (h : t.Written size output) : t.bytes.length = size := by
  have := h.le
  rw [h.bytes_eq, List.length_append, List.length_replicate]
  omega

theorem offset_add (h : t.Written size output) {length : UInt32} (hle : output.length + length.toNat ≤ size) :
    (t.offset + length).toNat = output.length + length.toNat := by
  have := t.fits
  have := h.length_eq
  rw [UInt32.toNat_add, h.offset_eq, Nat.mod_eq_of_lt (by omega)]

theorem not_full (h : t.Written size output) {length : UInt32} (hle : output.length + length.toNat ≤ size) :
    ¬ t.offset + length > t.size := by
  rw [gt_iff_lt, UInt32.lt_iff_toNat_lt, h.offset_add hle, t.size_toNat, h.length_eq]
  omega

end Stream.Written

theorem overwrite_zeros {output bs : List UInt8} {n : Nat} :
    Stream.overwrite (output ++ List.replicate n 0) output.length bs =
      (output ++ bs) ++ List.replicate (n - bs.length) 0 := by
  unfold Stream.overwrite
  rw [List.take_left, ← List.drop_drop, List.drop_left, List.drop_replicate, List.append_assoc]

theorem copyFrom_written {t other other' : Stream} {name : BufferName} {size : Nat} {output bs : List UInt8}
    {length : UInt32} (h : t.Written size output) (hread : other.read name length = .done (bs, other'))
    (hlen : length.toNat = bs.length) (hle : output.length + bs.length ≤ size) :
    ∃ t', t.copyFrom name other length = .done (t', other') ∧ t'.Written size (output ++ bs) := by
  have hfit : t.offset.toNat + bs.length ≤ t.bytes.length := by
    rw [h.offset_eq, h.length_eq]
    exact hle
  unfold Stream.copyFrom
  rw [if_neg (h.not_full (by omega)), hread]
  dsimp only [Outcome.bind]
  rw [dif_pos hfit]
  refine ⟨_, rfl, ?_, ?_, ?_⟩
  · rw [List.length_append]
    exact hle
  · show Stream.overwrite t.bytes t.offset.toNat bs = _
    rw [h.offset_eq, h.bytes_eq, overwrite_zeros, List.length_append, Nat.sub_add_eq]
  · show (t.offset + length).toNat = _
    rw [h.offset_add (by omega), List.length_append, hlen]

/-- The copy in the target, byte by byte: the position to read is always before the one to write. -/
theorem copyLoop_written : ∀ {n m : Nat} {dst rel : UInt32} {output output' : List UInt8},
    copyOutput n rel.toNat output = some output' → dst.toNat = output.length → output'.length + m < 2 ^ 32 →
    ∃ rel', copyLoop n dst rel (output ++ List.replicate (n + m) 0) = .done (output' ++ List.replicate m 0, rel') ∧
      rel'.toNat = rel.toNat + n
  | 0, m, dst, rel, output, output', h, hdst, hfit => by
    cases h
    refine ⟨rel, ?_, rfl⟩
    rw [Nat.zero_add]
    rfl
  | n + 1, m, dst, rel, output, output', h, hdst, hfit => by
    obtain ⟨hlen, -⟩ := copyOutput_length h
    unfold copyOutput at h
    split at h
    · cases h
    · next x hx =>
      obtain ⟨hrel, -⟩ := List.getElem?_eq_some_iff.mp hx
      have hrel' : (rel + 1).toNat = rel.toNat + 1 := by
        rw [UInt32.toNat_add, Nat.mod_eq_of_lt (by simp; omega)]
        rfl
      have hdst' : (dst + 1).toNat = (output ++ [x]).length := by
        rw [UInt32.toNat_add, Nat.mod_eq_of_lt (by simp; omega), hdst, List.length_append]
        rfl
      rw [← hrel'] at h
      obtain ⟨rel', hloop, hend⟩ := copyLoop_written h hdst' hfit
      refine ⟨rel', ?_, by omega⟩
      have hset : (output ++ List.replicate (n + 1 + m) 0).set dst.toNat x =
          output ++ [x] ++ List.replicate (n + m) 0 := by
        rw [hdst, List.set_append_right _ _ (Nat.le_refl _), Nat.sub_self, Nat.add_right_comm, List.replicate_succ,
          List.set_cons_zero, List.append_assoc]
        rfl
      unfold copyLoop
      rw [List.getElem?_append_left hrel, hx]
      dsimp only
      rw [if_pos (by rw [hdst, List.length_append, List.length_replicate]; omega), hset, hloop]

/-- The relative offset moves as the format says. -/
theorem moveRelative_eq {rel : UInt32} {negative : Bool} {distance offset : Nat}
    (h : moveBy rel.toNat negative distance = some offset) (hd : distance < 2 ^ 31) (hoffset : offset < 2 ^ 32) :
    (moveRelative rel (UInt32.ofNat (distance * 2 + negative.toNat))).toNat = offset := by
  have hneg := negative.toNat_le
  have hdata : (UInt32.ofNat (distance * 2 + negative.toNat)).toNat = distance * 2 + negative.toNat := by
    rw [UInt32.toNat_ofNat', Nat.mod_eq_of_lt (by omega)]
  have hshift : (UInt32.ofNat (distance * 2 + negative.toNat) >>> 1).toNat = distance := by
    rw [UInt32.toNat_shiftRight, hdata]
    show (distance * 2 + negative.toNat) >>> 1 = distance
    rw [Nat.shiftRight_eq_div_pow]
    omega
  have hbit : (UInt32.ofNat (distance * 2 + negative.toNat) &&& 1).toNat = negative.toNat := by
    rw [UInt32.toNat_and, hdata]
    show (distance * 2 + negative.toNat) &&& 1 = _
    rw [Nat.and_one_is_mod]
    omega
  have hrel := rel.toNat_lt
  unfold moveBy at h
  unfold moveRelative
  cases negative with
  | true =>
    rw [if_pos rfl] at h
    split at h
    · cases h
      rw [if_pos (by rw [ne_eq, ← UInt32.toNat_inj, hbit]; decide), UInt32.toNat_sub, hshift]
      omega
    · cases h
  | false =>
    rw [if_neg Bool.false_ne_true] at h
    cases h
    rw [if_neg (by rw [ne_eq, ← UInt32.toNat_inj, hbit]; decide), UInt32.toNat_add, hshift,
      Nat.mod_eq_of_lt (by omega)]

/-! ## Commands -/

/-- The patcher after the actions that led to `g`, with `ahead` of the patch to come. -/
structure Builds (image file : List UInt8) (size : Nat) (p : PatchApplier) (g : Progress) (ahead : List UInt8) : Prop where
  patch : p.patch.At file ahead
  source : image <+: p.source.bytes
  target : p.target.Written size g.output
  sourceRelative : p.sourceRelativeOffset.toNat = g.sourceRelativeOffset
  targetRelative : p.targetRelativeOffset.toNat = g.targetRelativeOffset
  sourceRelative_le : g.sourceRelativeOffset ≤ image.length
  targetRelative_le : g.targetRelativeOffset ≤ size

theorem moveBy_distance {rel distance offset : Nat} {negative : Bool} (h : moveBy rel negative distance = some offset) :
    distance ≤ max rel offset := by
  unfold moveBy at h
  cases negative with
  | true =>
    simp only [if_true] at h
    split at h
    · omega
    · cases h
  | false =>
    cases h
    exact le_max_of_le_right (Nat.le_add_left _ _)

theorem toNat_ofNat_le {n : Nat} (h : n ≤ 0x40000000) : (UInt32.ofNat n).toNat = n := by
  rw [UInt32.toNat_ofNat', Nat.mod_eq_of_lt (by omega)]

namespace Builds

variable {image file ahead : List UInt8} {size : Nat} {p : PatchApplier} {g g' : Progress}

theorem image_length (h : Builds image file size p g ahead) : image.length ≤ 0x40000000 - 0x08000000 :=
  h.source.length_le.trans p.source.fits

theorem size_le (h : Builds image file size p g ahead) : size ≤ 0x40000000 - 0x08000000 :=
  h.target.length_eq ▸ p.target.fits

/-- The source as the patcher reads it at an offset. -/
theorem read_source (h : Builds image file size p g ahead) (offset length : UInt32)
    (hle : offset.toNat + length.toNat ≤ image.length) :
    ∃ s', (p.source.seek offset).read .source length =
        .done ((image.drop offset.toNat).take length.toNat, s') ∧ image <+: s'.bytes := by
  refine ⟨(p.source.seek offset).seek (offset + length), ?_, h.source⟩
  obtain ⟨pad, hpad⟩ := h.source
  rw [Stream.read_done (by show offset.toNat + length.toNat ≤ p.source.bytes.length; rw [← hpad, List.length_append]; omega)]
  show Outcome.done ((p.source.bytes.drop offset.toNat).take length.toNat, _) = _
  rw [← hpad, List.drop_append_of_le_length (by omega), List.take_append_of_le_length (by rw [List.length_drop]; omega)]
  rfl

/-- A command behind its number: `n` bytes, of the kind `cmd`. -/
theorem handleCommand_eq {n cmd : Nat} (h : Builds image file size p g (encodeNumber ((n - 1) * 4 + cmd) ++ ahead))
    (hcmd : cmd < 4) (hpos : 0 < n) (hn : n ≤ 0x40000000) :
    ∃ patch, Builds image file size { p with patch } g ahead ∧
      p.handleCommand = PatchApplier.switchCommand { p with patch } (UInt32.ofNat cmd) (UInt32.ofNat n) := by
  obtain ⟨patch, hread, hat⟩ := Stream.readNumber_encode h.patch (by omega)
  have hdata : (UInt32.ofNat ((n - 1) * 4 + cmd)).toNat = (n - 1) * 4 + cmd := by
    rw [UInt32.toNat_ofNat', Nat.mod_eq_of_lt (by omega)]
  have hkind : UInt32.ofNat ((n - 1) * 4 + cmd) &&& 3 = UInt32.ofNat cmd := by
    apply UInt32.toNat_inj.mp
    rw [UInt32.toNat_and, hdata, UInt32.toNat_ofNat']
    show ((n - 1) * 4 + cmd) &&& (2 ^ 2 - 1) = _
    rw [Nat.and_two_pow_sub_one_eq_mod]
    omega
  have hlength : (UInt32.ofNat ((n - 1) * 4 + cmd) >>> 2) + 1 = UInt32.ofNat n := by
    apply UInt32.toNat_inj.mp
    rw [UInt32.toNat_add, UInt32.toNat_shiftRight, hdata, UInt32.toNat_ofNat']
    show (((n - 1) * 4 + cmd) >>> 2 + 1) % 2 ^ 32 = _
    rw [Nat.shiftRight_eq_div_pow]
    omega
  refine ⟨patch, { h with patch := hat }, ?_⟩
  unfold PatchApplier.handleCommand
  rw [hread]
  dsimp only [Outcome.bind]
  rw [hkind, hlength]

theorem sourceRead_run {n : Nat} (h : Builds image file size p g ahead) (hn : n ≤ 0x40000000)
    (hrun : (Action.sourceRead n).run image g = some g') (hle : g'.output.length ≤ size) :
    ∃ p', p.sourceRead (UInt32.ofNat n) = .done p' ∧ Builds image file size p' g' ahead := by
  obtain ⟨⟨hpos, hsource⟩, rfl⟩ : (0 < n ∧ g.output.length + n ≤ image.length) ∧ _ = g' := by
    simpa [Action.run] using hrun
  obtain ⟨source', hread, hprefix⟩ := h.read_source p.target.offset (UInt32.ofNat n)
    (by rw [h.target.offset_eq, toNat_ofNat_le hn]; exact hsource)
  rw [h.target.offset_eq, toNat_ofNat_le hn] at hread
  rw [List.length_append] at hle
  obtain ⟨target', hcopy, hwritten⟩ := copyFrom_written h.target hread
    (by rw [toNat_ofNat_le hn, List.length_take, List.length_drop]; omega) hle
  refine ⟨{ p with target := target', source := source' }, ?_, ?_⟩
  · unfold PatchApplier.sourceRead
    rw [hcopy]
    rfl
  · exact { h with source := hprefix, target := hwritten }

theorem targetRead_run {bytes : List UInt8} (h : Builds image file size p g (bytes ++ ahead))
    (hn : bytes.length ≤ 0x40000000) (hrun : (Action.targetRead bytes).run image g = some g')
    (hle : g'.output.length ≤ size) :
    ∃ p', p.targetRead (UInt32.ofNat bytes.length) = .done p' ∧ Builds image file size p' g' ahead := by
  obtain ⟨hpos, rfl⟩ : bytes ≠ [] ∧ _ = g' := by
    simpa [Action.run, List.length_pos_iff] using hrun
  obtain ⟨patch', hread, hat⟩ := Stream.read_at .patch _ h.patch (toNat_ofNat_le hn)
  rw [List.length_append] at hle
  obtain ⟨target', hcopy, hwritten⟩ := copyFrom_written h.target hread (toNat_ofNat_le hn) hle
  refine ⟨{ p with target := target', patch := patch' }, ?_, ?_⟩
  · unfold PatchApplier.targetRead
    rw [hcopy]
    rfl
  · exact { h with patch := hat, target := hwritten }

theorem sourceCopy_run {n distance : Nat} {negative : Bool}
    (h : Builds image file size p g (encodeNumber (distance * 2 + negative.toNat) ++ ahead)) (hn : n ≤ 0x40000000)
    (hrun : (Action.sourceCopy n negative distance).run image g = some g') (hle : g'.output.length ≤ size) :
    ∃ p', p.sourceCopy (UInt32.ofNat n) = .done p' ∧ Builds image file size p' g' ahead := by
  obtain ⟨offset, hmove, hrun⟩ := Option.bind_eq_some_iff.mp hrun
  obtain ⟨⟨hpos, hsource⟩, rfl⟩ : (0 < n ∧ offset + n ≤ image.length) ∧ _ = g' := by
    simpa using hrun
  have himage := h.image_length
  have hdist := moveBy_distance hmove
  have hrel := h.sourceRelative_le
  have hneg := negative.toNat_le
  obtain ⟨patch', hnumber, hat⟩ := Stream.readNumber_encode h.patch (by omega)
  have hoffset : (moveRelative p.sourceRelativeOffset (UInt32.ofNat (distance * 2 + negative.toNat))).toNat = offset :=
    moveRelative_eq (by rw [h.sourceRelative]; exact hmove) (by omega) (by omega)
  obtain ⟨source', hread, hprefix⟩ := h.read_source
    (moveRelative p.sourceRelativeOffset (UInt32.ofNat (distance * 2 + negative.toNat))) (UInt32.ofNat n)
    (by rw [hoffset, toNat_ofNat_le hn]; exact hsource)
  rw [hoffset, toNat_ofNat_le hn] at hread
  rw [List.length_append] at hle
  obtain ⟨target', hcopy, hwritten⟩ := copyFrom_written h.target hread
    (by rw [toNat_ofNat_le hn, List.length_take, List.length_drop]; omega) hle
  refine ⟨{ p with
    patch := patch'
    target := target'
    source := source'
    sourceRelativeOffset :=
      moveRelative p.sourceRelativeOffset (UInt32.ofNat (distance * 2 + negative.toNat)) + UInt32.ofNat n }, ?_, ?_⟩
  · unfold PatchApplier.sourceCopy
    rw [hnumber]
    dsimp only [Outcome.bind]
    rw [hcopy]
  · refine { h with patch := hat, source := hprefix, target := hwritten, sourceRelative := ?_, sourceRelative_le := hsource }
    dsimp only
    rw [UInt32.toNat_add, hoffset, toNat_ofNat_le hn, Nat.mod_eq_of_lt (by omega)]

theorem targetCopy_run {n distance : Nat} {negative : Bool}
    (h : Builds image file size p g (encodeNumber (distance * 2 + negative.toNat) ++ ahead)) (hn : n ≤ 0x40000000)
    (hrun : (Action.targetCopy n negative distance).run image g = some g') (hle : g'.output.length ≤ size) :
    ∃ p', p.targetCopy (UInt32.ofNat n) = .done p' ∧ Builds image file size p' g' ahead := by
  obtain ⟨offset, hmove, hrun⟩ := Option.bind_eq_some_iff.mp hrun
  split at hrun
  case isFalse => cases hrun
  case isTrue hpos =>
    obtain ⟨output, hout, rfl⟩ := Option.map_eq_some_iff.mp hrun
    obtain ⟨hlen, hlt⟩ := copyOutput_length hout
    have hsize := h.size_le
    have hdist := moveBy_distance hmove
    have hrel := h.targetRelative_le
    have hneg := negative.toNat_le
    have hend := hlt hpos
    dsimp only at hle
    obtain ⟨patch', hnumber, hat⟩ := Stream.readNumber_encode h.patch (by omega)
    have hoffset : (moveRelative p.targetRelativeOffset (UInt32.ofNat (distance * 2 + negative.toNat))).toNat = offset :=
      moveRelative_eq (by rw [h.targetRelative]; exact hmove) (by omega) (by omega)
    have hsplit : size - g.output.length = n + (size - output.length) := by omega
    rw [← hoffset] at hout
    obtain ⟨rel', hloop, hrel'⟩ := copyLoop_written (m := size - output.length) hout h.target.offset_eq (by omega)
    rw [← hsplit, ← h.target.bytes_eq] at hloop
    unfold PatchApplier.targetCopy
    rw [hnumber]
    dsimp only [Outcome.bind]
    rw [if_neg (h.target.not_full (by rw [toNat_ofNat_le hn]; omega)), if_neg (by
      rw [gt_iff_lt, UInt32.lt_iff_toNat_lt, p.target.size_toNat, h.target.length_eq, UInt32.toNat_add, hoffset,
        toNat_ofNat_le hn, Nat.mod_eq_of_lt (by omega)]
      omega)]
    split
    case h_1 r hr =>
      rw [toNat_ofNat_le hn, hloop] at hr
      cases hr
      refine ⟨_, rfl, { h with
        patch := hat, target := ⟨hle, rfl, ?_⟩, targetRelative := ?_, targetRelative_le := ?_ }⟩
      · show (p.target.offset + UInt32.ofNat n).toNat = output.length
        rw [h.target.offset_add (by rw [toNat_ofNat_le hn]; omega), toNat_ofNat_le hn]
        omega
      · show rel'.toNat = offset + n
        rw [hrel', hoffset]
      · show offset + n ≤ size
        omega
    all_goals
      next hr =>
        rw [toNat_ofNat_le hn, hloop] at hr
        cases hr

/-- A command does what its action does. -/
theorem handleCommand_run {a : Action} (h : Builds image file size p g (a.encode ++ ahead))
    (hrun : a.run image g = some g') (hle : g'.output.length ≤ size) :
    ∃ p', p.handleCommand = .done p' ∧ Builds image file size p' g' ahead := by
  have himage := h.image_length
  have hsize := h.size_le
  have hlen := Action.run_length hrun
  cases a with
  | sourceRead n =>
    obtain ⟨⟨hpos, hsource⟩, -⟩ : (0 < n ∧ g.output.length + n ≤ image.length) ∧ _ = g' := by
      simpa [Action.run] using hrun
    obtain ⟨patch, hnext, hcmd⟩ := h.handleCommand_eq (show 0 < 4 by omega) hpos (by omega)
    rw [hcmd]
    exact sourceRead_run hnext (by omega) hrun hle
  | targetRead bytes =>
    obtain ⟨hpos, rfl⟩ : bytes ≠ [] ∧ _ = g' := by
      simpa [Action.run, List.length_pos_iff] using hrun
    rw [List.length_append] at hle
    unfold Action.encode at h
    rw [List.append_assoc] at h
    obtain ⟨patch, hnext, hcmd⟩ := h.handleCommand_eq (by omega) (List.length_pos_iff.mpr hpos) (by omega)
    rw [hcmd]
    exact targetRead_run hnext (by omega) hrun (by rw [List.length_append]; exact hle)
  | sourceCopy n negative distance =>
    obtain ⟨offset, -, hrun'⟩ := Option.bind_eq_some_iff.mp hrun
    obtain ⟨⟨hpos, hsource⟩, -⟩ : (0 < n ∧ offset + n ≤ image.length) ∧ _ = g' := by
      simpa using hrun'
    unfold Action.encode at h
    rw [List.append_assoc] at h
    obtain ⟨patch, hnext, hcmd⟩ := h.handleCommand_eq (by omega) hpos (by omega)
    rw [hcmd]
    exact sourceCopy_run hnext (by omega) hrun hle
  | targetCopy n negative distance =>
    have hn : 0 < n ∧ n ≤ size := by
      obtain ⟨offset, -, hrun'⟩ := Option.bind_eq_some_iff.mp hrun
      split at hrun'
      · next hpos =>
        obtain ⟨output, hout, rfl⟩ := Option.map_eq_some_iff.mp hrun'
        have := (copyOutput_length hout).1
        dsimp only at hle
        omega
      · cases hrun'
    unfold Action.encode at h
    rw [List.append_assoc] at h
    obtain ⟨patch, hnext, hcmd⟩ := h.handleCommand_eq (by omega) hn.1 (by omega)
    rw [hcmd]
    exact targetCopy_run hnext (by omega) hrun hle

/-- The loop over the commands does what all the actions do, and stops before the footer. -/
theorem commandLoop_run {footer : List UInt8} (hfooter : footer.length = footerSize.toNat) :
    ∀ {actions : List Action} {p : PatchApplier} {g g' : Progress} {fuel : Nat},
      Builds image file size p g (actions.flatMap Action.encode ++ footer) →
      actions.foldlM (Action.run image) g = some g' → g'.output.length ≤ size → actions.length < fuel →
      ∃ p', PatchApplier.commandLoop (UInt32.ofNat file.length - footerSize) fuel p = .done p' ∧
        Builds image file size p' g' footer
  | actions, p, g, g', 0, h, hrun, hle, hfuel => by omega
  | [], p, g, g', fuel + 1, h, hrun, hle, hfuel => by
    cases hrun
    refine ⟨p, ?_, h⟩
    have hlen := h.patch.length
    have hfits := p.patch.fits
    rw [h.patch.bytes_eq] at hfits
    rw [List.flatMap_nil, List.nil_append, hfooter] at hlen
    unfold PatchApplier.commandLoop
    rw [if_neg]
    rw [UInt32.lt_iff_toNat_lt, UInt32.toNat_sub_of_le _ _ (by
      rw [UInt32.le_iff_toNat_le, toNat_ofNat_le (by omega)]; omega), toNat_ofNat_le (by omega)]
    omega
  | a :: actions, p, g, g', fuel + 1, h, hrun, hle, hfuel => by
    rw [List.foldlM_cons] at hrun
    obtain ⟨g₁, ha, hrest⟩ := Option.bind_eq_some_iff.mp hrun
    rw [List.flatMap_cons, List.append_assoc] at h
    have hmono := run_actions_length hrest
    obtain ⟨p₁, hcmd, hnext⟩ := h.handleCommand_run ha (by omega)
    obtain ⟨p', hloop, hend⟩ := commandLoop_run hfooter hnext hrest hle
      (show actions.length < fuel by rw [List.length_cons] at hfuel; omega)
    refine ⟨p', ?_, hend⟩
    have hlen := h.patch.length
    have hfits := p.patch.fits
    have hpos := List.length_pos_iff.mpr a.encode_ne_nil
    rw [h.patch.bytes_eq] at hfits
    rw [List.length_append, List.length_append, hfooter] at hlen
    unfold PatchApplier.commandLoop
    rw [if_pos, hcmd]
    · exact hloop
    · rw [UInt32.lt_iff_toNat_lt, UInt32.toNat_sub_of_le _ _ (by
        rw [UInt32.le_iff_toNat_le, toNat_ofNat_le (by omega)]; omega), toNat_ofNat_le (by omega)]
      omega

end Builds

/-! ## The whole patch -/

theorem le32_value (n : UInt32) :
    n.toUInt8.toUInt32 ||| ((n >>> 8).toUInt8.toUInt32 <<< 8) ||| ((n >>> 16).toUInt8.toUInt32 <<< 16) |||
      ((n >>> 24).toUInt8.toUInt32 <<< 24) = n := by
  have hbyte : ∀ k : Nat, k < 32 → ((n >>> UInt32.ofNat k).toUInt8.toUInt32).toNat = n.toNat / 2 ^ k % 256 := by
    intro k hk
    rw [UInt8.toNat_toUInt32, UInt32.toNat_toUInt8, UInt32.toNat_shiftRight, UInt32.toNat_ofNat',
      Nat.mod_eq_of_lt (by omega : k < 2 ^ 32), Nat.mod_eq_of_lt hk, Nat.shiftRight_eq_div_pow]
  have h0 : n.toUInt8.toUInt32.toNat = n.toNat % 256 := by
    rw [UInt8.toNat_toUInt32, UInt32.toNat_toUInt8]
  have h1 := hbyte 8 (by decide)
  have h2 := hbyte 16 (by decide)
  have h3 := hbyte 24 (by decide)
  have hn := n.toNat_lt
  have e1 := toNat_shiftLeft_or (n >>> UInt32.ofNat 8).toUInt8.toUInt32 n.toUInt8.toUInt32 (k := 8)
    (by omega) (by decide) (by omega)
  have e2 := toNat_shiftLeft_or (n >>> UInt32.ofNat 16).toUInt8.toUInt32 _ (k := 16)
    (by rw [e1]; omega) (by decide) (by omega)
  have e3 := toNat_shiftLeft_or (n >>> UInt32.ofNat 24).toUInt8.toUInt32 _ (k := 24)
    (by rw [e2, e1]; omega) (by decide) (by omega)
  rw [UInt32.or_comm n.toUInt8.toUInt32, UInt32.or_comm _ ((n >>> 16).toUInt8.toUInt32 <<< 16),
    UInt32.or_comm _ ((n >>> 24).toUInt8.toUInt32 <<< 24)]
  apply UInt32.toNat_inj.mp
  refine e3.trans ?_
  rw [e2, e1, h0, h1, h2, h3]
  omega

theorem readU32_le32 {s : Stream} {n : UInt32} {bytes rest : List UInt8} (h : s.At bytes (le32 n ++ rest)) :
    ∃ s', s.readU32 = .done (n, s') ∧ s'.At bytes rest := by
  obtain ⟨s', hread, hat⟩ := Stream.readU32_at h
  refine ⟨s', ?_, hat⟩
  rw [hread, le32_value]

theorem le32_length (n : UInt32) : (le32 n).length = 4 := rfl

/-- The footer is where `Apply` looks for it. -/
theorem readFooter_at {s : Stream} {file ahead : List UInt8} {sourceCrc32 targetCrc32 : UInt32} {checksum : List UInt8}
    (h : s.At file (ahead ++ (le32 sourceCrc32 ++ (le32 targetCrc32 ++ checksum)))) (hchecksum : checksum.length = 4) :
    readFooter s = .done (sourceCrc32, targetCrc32) := by
  have hlen := h.length
  have hfits := s.fits
  have hsize : s.size.toNat = file.length := by rw [s.size_toNat, h.bytes_eq]
  rw [h.bytes_eq] at hfits
  simp only [List.length_append, le32_length, hchecksum] at hlen
  have hend : (s.size - footerSize).toNat = s.offset.toNat + ahead.length := by
    rw [UInt32.toNat_sub_of_le _ _ (by rw [UInt32.le_iff_toNat_le, hsize]; simp [footerSize]; omega), hsize]
    simp only [footerSize, UInt32.reduceToNat]
    omega
  have hrest : s.bytes.drop s.offset.toNat = _ := h.rest_eq
  have hat : (s.seek (s.size - footerSize)).At file (le32 sourceCrc32 ++ (le32 targetCrc32 ++ checksum)) := by
    refine ⟨h.bytes_eq, ?_, ?_⟩
    · show (s.size - footerSize).toNat ≤ s.bytes.length
      rw [hend, h.bytes_eq]
      omega
    · show s.bytes.drop (s.size - footerSize).toNat = _
      rw [hend, ← List.drop_drop, hrest, List.drop_left]
  obtain ⟨s₁, hsource, hat₁⟩ := readU32_le32 hat
  obtain ⟨s₂, htarget, -⟩ := readU32_le32 hat₁
  unfold readFooter
  rw [hsource]
  dsimp only [Outcome.value, Outcome.bind]
  rw [htarget]

theorem readHeader_at {s : Stream} {file ahead : List UInt8} {m n k : Nat}
    (h : s.At file (bpsMagic ++ (encodeNumber m ++ (encodeNumber n ++ (encodeNumber k ++ ahead)))))
    (hm : m < 2 ^ 32) (hn : n < 2 ^ 32) (hk : k < 2 ^ 32) :
    ∃ patch, readHeader s = .done ⟨UInt32.ofNat m, UInt32.ofNat n, UInt32.ofNat k, patch⟩ ∧ patch.At file ahead := by
  obtain ⟨s₁, hmagic, h₁⟩ := Stream.read_at .patch 4 h rfl
  obtain ⟨s₂, hsource, h₂⟩ := Stream.readNumber_encode h₁ hm
  obtain ⟨s₃, htarget, h₃⟩ := Stream.readNumber_encode h₂ hn
  obtain ⟨s₄, hmetadata, h₄⟩ := Stream.readNumber_encode h₃ hk
  refine ⟨s₄, ?_, h₄⟩
  unfold readHeader
  rw [hmagic]
  dsimp only [Outcome.value, Outcome.bind]
  rw [if_neg (not_not.mpr rfl), hsource]
  dsimp only
  rw [htarget]
  dsimp only
  rw [hmetadata]

/-- A patch at its start. -/
theorem at_start {patch : Stream} {bytes : List UInt8} (hpatch : patch.bytes = bytes) (hoffset : patch.offset = 0) :
    patch.At patch.bytes bytes := by
  refine ⟨rfl, ?_, ?_⟩
  · rw [hoffset]
    exact Nat.zero_le _
  · unfold Stream.rest
    rw [hoffset, hpatch]
    rfl

/-- `Apply` on the file of a patch returns true and leaves the output in the target. -/
def Patch.Makes (image output : List UInt8) (p : Patch) : Prop :=
  ∀ source target patch : Stream, image <+: source.bytes → output.length ≤ target.bytes.length →
    patch.bytes = p.encode image output → target.offset = 0 → patch.offset = 0 →
    ∃ result, apply source target patch = .done (true, result) ∧
      result.bytes = output ++ List.replicate (target.bytes.length - output.length) 0

/-- Without metadata the patcher makes the target of the format; its numbers are the format's. -/
theorem apply_encode {image output : List UInt8} {p : Patch} (hmetadata : p.metadata = [])
    (hout : p.target image = some output) :
    p.Makes image output ∧
      ∀ (n : Nat) (s : Stream) (bytes rest : List UInt8), n < 2 ^ 32 → s.At bytes (encodeNumber n ++ rest) →
        ∃ s', s.readNumber = .done (UInt32.ofNat n, s') ∧ s'.At bytes rest := by
  refine ⟨?_, fun n s bytes rest hn h => Stream.readNumber_encode h hn⟩
  intro source target patch hsource hle hpatch htarget hoffset
  obtain ⟨g, hrun, rfl⟩ := Option.map_eq_some_iff.mp hout
  have hpre := hsource.length_le
  have hsfits := source.fits
  have htfits := target.fits
  have hat := at_start hpatch hoffset
  unfold Patch.encode at hat
  generalize hsum : le32 (crc32 (p.body image g.output)) = checksum at hat
  have hchecksum : checksum.length = 4 := by rw [← hsum, le32_length]
  unfold Patch.body at hat
  rw [hmetadata, List.nil_append] at hat
  simp only [List.append_assoc, List.length_nil] at hat
  obtain ⟨ahead, hheader, hahead⟩ := readHeader_at hat (by omega) (by omega) (by omega)
  have hbuilds : Builds image patch.bytes target.bytes.length ⟨0, 0, source, target.cleared, ahead⟩ ⟨[], 0, 0⟩
      (p.actions.flatMap Action.encode ++ (le32 (crc32 image) ++ (le32 (crc32 g.output) ++ checksum))) := by
    refine ⟨hahead, hsource, ⟨Nat.zero_le _, ?_, ?_⟩, rfl, rfl, Nat.zero_le _, Nat.zero_le _⟩
    · rfl
    · show target.offset.toNat = 0
      rw [htarget]
      rfl
  have hcount := run_actions_length hrun
  obtain ⟨p', hloop, hend⟩ := hbuilds.commandLoop_run (by simp [le32_length, hchecksum, footerSize]) hrun hle
    (show p.actions.length < target.bytes.length + 1 by simp only [List.length_nil] at hcount; omega)
  refine ⟨p'.target, ?_, hend.target.bytes_eq⟩
  have hsize : patch.size = UInt32.ofNat patch.bytes.length := rfl
  have himage : source.bytes.take image.length = image := List.prefix_iff_eq_take.mp hsource |>.symm
  unfold apply
  rw [hheader]
  dsimp only [Outcome.bind]
  rw [if_neg, readFooter_at hahead hchecksum]
  · dsimp only
    rw [toNat_ofNat_le (by omega), himage, if_neg (not_not.mpr rfl), hsize, hloop]
    dsimp only
    rw [toNat_ofNat_le (by omega), hend.target.bytes_eq, List.take_left, beq_self_eq_true]
  · rw [gt_iff_lt, gt_iff_lt, UInt32.lt_iff_toNat_lt, UInt32.lt_iff_toNat_lt, source.size_toNat, target.size_toNat,
      toNat_ofNat_le (by omega), toNat_ofNat_le (by omega)]
    rintro (h | h | h)
    · omega
    · omega
    · exact h rfl

/-- A byte, a run of it, and the source copied forwards and backwards. -/
theorem apply_encode_run : (⟨[], [.sourceRead 1, .targetCopy 4 false 0, .sourceCopy 1 false 2, .sourceCopy 1 true 2,
    .targetRead [9]]⟩ : Patch).Makes [1, 2, 3] [1, 1, 1, 1, 1, 3, 2, 9] :=
  (apply_encode rfl (by decide)).1

theorem apply_metadata {image output : List UInt8} {p : Patch} {source target patch : Stream} (hne : p.metadata ≠ [])
    (himage : image.length < 2 ^ 32) (hout : output.length < 2 ^ 32) (hpatch : patch.bytes = p.encode image output)
    (hoffset : patch.offset = 0) : apply source target patch = .refused := by
  have hat := at_start hpatch hoffset
  have hfits := patch.fits
  have hlen : p.metadata.length ≤ patch.bytes.length := by
    rw [hpatch]
    simp only [Patch.encode, Patch.body, List.length_append]
    omega
  unfold Patch.encode Patch.body at hat
  simp only [List.append_assoc] at hat
  obtain ⟨ahead, hheader, -⟩ := readHeader_at hat himage hout (by omega)
  have hpos := List.length_pos_iff.mpr hne
  unfold apply
  rw [hheader]
  dsimp only [Outcome.bind]
  rw [if_pos]
  refine Or.inr (Or.inr fun h => ?_)
  have := congrArg UInt32.toNat h
  rw [toNat_ofNat_le (by omega)] at this
  simp at this
  exact hne this

/-- A patch with a byte of metadata is refused. -/
theorem makes_metadata :
    ¬ ∀ (image output : List UInt8) (p : Patch), p.target image = some output → p.Makes image output := by
  intro h
  have hfits : ((⟨[0x6d], [.targetRead [7]]⟩ : Patch).encode [] [7]).length ≤ 0x40000000 - 0x08000000 := by
    simp [Patch.encode, Patch.body, Action.encode, bpsMagic, le32, encodeNumber]
  obtain ⟨result, hresult, -⟩ := h [] [7] ⟨[0x6d], [.targetRead [7]]⟩ (by decide) ⟨[], 0, by decide⟩ ⟨[0], 0, by decide⟩
    ⟨_, 0, hfits⟩ (List.nil_prefix) (by decide) rfl rfl rfl
  rw [apply_metadata (by decide) (by decide) (by decide) rfl rfl] at hresult
  cases hresult

end Omiiba.Loader.Bps
