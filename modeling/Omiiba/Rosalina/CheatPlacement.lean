/-
What the loader of cheat files leaves in `cheatBuffer`: the cheats of the file, one behind the other, if
at most 255 of them fit and every line that is read has its terminator.
-/
import Omiiba.Rosalina.CheatLoader

namespace Omiiba.Rosalina

open Memory

/-! ## A cheat in the buffer -/

/-- The cheat `c` is at `p`. -/
structure HoldsAt (buffer : Memory UInt8) (p : Nat) (c : Cheat) : Prop where
  name : nameAt buffer p = c.name
  codes : codesAt buffer p = c.codes

theorem HoldsAt.count {buffer : Memory UInt8} {p : Nat} {c : Cheat} (h : HoldsAt buffer p c) :
    codesCount buffer p = c.codes.length := by
  have hlen := congrArg List.length h.codes
  simpa [codesAt] using hlen

theorem HoldsAt.end_eq {buffer : Memory UInt8} {p : Nat} {c : Cheat} (h : HoldsAt buffer p c) :
    cheatEnd buffer p = p + c.size := by
  unfold cheatEnd Cheat.size
  rw [h.count]
  omega

/-- What is at `p` does not change with what is elsewhere, nor with the flags. -/
theorem HoldsAt.congr {buffer buffer' : Memory UInt8} {p : Nat} {c : Cheat}
    (h : HoldsAt buffer p c) (hsame : ∀ x, p < x → x < p + c.size → buffer' x = buffer x) : HoldsAt buffer' p c := by
  have hsize : c.size = 56 + 8 * c.codes.length := rfl
  have hcount : codesCount buffer' p = codesCount buffer p := load_congr fun x hx hlt => hsame x (by omega) (by omega)
  constructor
  · rw [← h.name]
    unfold nameAt
    congr 1
    refine List.map_congr_left fun i hi => hsame _ (by omega) ?_
    have := List.mem_range.mp hi
    omega
  · rw [← h.codes]
    unfold codesAt
    rw [hcount]
    refine List.map_congr_left fun k hk => congrArg UInt64.ofNat (load_congr fun x hx hlt => ?_)
    have hk' := List.mem_range.mp hk
    rw [h.count] at hk'
    unfold descriptionSize at hx hlt
    exact hsame x (by omega) (by omega)

theorem takeWhile_name {text : List UInt8} (h : ∀ c ∈ text, c ≠ 0) (hlen : text.length ≤ 38) :
    (text ++ List.replicate (39 - text.length) 0).takeWhile (· ≠ 0) = text := by
  rw [List.takeWhile_append_of_pos (by simpa using h)]
  have hpos : 39 - text.length = (38 - text.length) + 1 := by omega
  rw [hpos, List.replicate_succ]
  simp

/-- The bytes of a name, once set. -/
theorem setName_bytes (buffer : Memory UInt8) (p : Nat) (line : List UInt8) :
    (List.range 39).map (fun i => setName buffer p line (p + 1 + i)) =
      line.take 38 ++ List.replicate (39 - (line.take 38).length) 0 := by
  have hlen : (line.take 38 ++ List.replicate (38 - line.length) (0 : UInt8)).length = 38 := by
    simp
    omega
  refine List.ext_getElem (by simp) fun i hi hi' => ?_
  simp only [List.length_map, List.length_range] at hi
  rw [List.getElem_map, List.getElem_range]
  unfold setName
  by_cases hlast : i = 38
  · subst hlast
    rw [store_inside _ le_rfl (by simp), List.getElem_append_right (by simp)]
    simp
  · rw [store_outside _ (Or.inl (by omega)), store_inside _ (by omega) (by omega)]
    simp only [show p + 1 + i - (p + 1) = i by omega]
    by_cases hi'' : i < (line.take 38).length
    · rw [List.getElem_append_left hi'', List.getElem_append_left hi'']
    · rw [List.getElem_append_right (by omega), List.getElem_append_right (by omega)]
      simp

theorem setName_outside {buffer : Memory UInt8} {p x : Nat} {line : List UInt8} (h : x < p + 1 ∨ p + 40 ≤ x) :
    setName buffer p line x = buffer x := by
  have hlen : (line.take 38 ++ List.replicate (38 - line.length) (0 : UInt8)).length = 38 := by
    simp
    omega
  unfold setName
  rw [store_outside _ (by simp; omega), store_outside _ (by rw [hlen]; omega)]

theorem setName_count (buffer : Memory UInt8) (p : Nat) (line : List UInt8) :
    codesCount (setName buffer p line) p = codesCount buffer p :=
  load_congr fun _ hx _ => setName_outside (Or.inr hx)

/-- A new name for the cheat at `p`, with its codes. -/
theorem setName_holdsAt {buffer : Memory UInt8} {p : Nat} {codes : List UInt64} {line : List UInt8}
    (hcodes : codesAt buffer p = codes) (hline : ∀ c ∈ line, c ≠ 0) :
    HoldsAt (setName buffer p line) p ⟨line.take 38, codes⟩ := by
  constructor
  · unfold nameAt
    rw [setName_bytes]
    exact takeWhile_name (fun c hc => hline c (List.mem_of_mem_take hc)) (by simp)
  · show codesAt _ p = codes
    rw [← hcodes]
    unfold codesAt
    rw [setName_count]
    refine List.map_congr_left fun k _ => congrArg UInt64.ofNat (load_congr fun x hx _ => setName_outside (Or.inr ?_))
    unfold descriptionSize at hx
    omega

theorem addCode_count {buffer : Memory UInt8} {p : Nat} {code : UInt64} (h : codesCount buffer p + 1 < 2 ^ 32) :
    codesCount (addCode buffer p code) p = codesCount buffer p + 1 := by
  unfold addCode
  show load _ _ _ = _
  rw [load_store]
  exact Nat.mod_eq_of_lt h

theorem addCode_outside {buffer : Memory UInt8} {p x : Nat} {code : UInt64}
    (h : x < p + 40 ∨ p + 44 ≤ x ∧ x < p + 56 + 8 * codesCount buffer p ∨ p + 64 + 8 * codesCount buffer p ≤ x) :
    addCode buffer p code x = buffer x := by
  unfold addCode descriptionSize
  rw [store_outside _ (by rw [leBytes_length]; omega), store_outside _ (by rw [leBytes_length]; omega)]

/-- One more code for the cheat at `p`. -/
theorem addCode_holdsAt {buffer : Memory UInt8} {p : Nat} {c : Cheat} {code : UInt64} (h : HoldsAt buffer p c)
    (hlt : c.codes.length + 1 < 2 ^ 32) : HoldsAt (addCode buffer p code) p { c with codes := c.codes ++ [code] } := by
  have hcount := h.count
  constructor
  · show nameAt _ p = c.name
    rw [← h.name]
    unfold nameAt
    congr 1
    refine List.map_congr_left fun i hi => addCode_outside (Or.inl ?_)
    have := List.mem_range.mp hi
    omega
  · show codesAt _ p = c.codes ++ [code]
    rw [← h.codes]
    unfold codesAt
    rw [addCode_count (by omega), List.range_succ, List.map_append]
    refine congrArg₂ (· ++ ·) ?_ ?_
    · refine List.map_congr_left fun k hk => congrArg UInt64.ofNat (load_congr fun x hx hx' => addCode_outside ?_)
      have hk' := List.mem_range.mp hk
      unfold descriptionSize at hx hx'
      omega
    · -- the code itself, behind the codes that were there
      have hword : (addCode buffer p code).load (p + descriptionSize + 8 * codesCount buffer p) 8 = code.toNat := by
        unfold addCode
        dsimp only
        rw [load_store_outside _ (by rw [leBytes_length]; unfold descriptionSize; omega), load_store]
        exact Nat.mod_eq_of_lt code.toNat_lt
      rw [List.map_singleton, hword, UInt64.ofNat_toNat]

theorem allocCheat_outside (s : Cheats) {x : Nat} (h : x < (allocCheat s).1 ∨ (allocCheat s).1 + descriptionSize ≤ x) :
    (allocCheat s).2.cheatBuffer x = s.cheatBuffer x := by
  unfold descriptionSize at h
  unfold allocCheat at h ⊢
  dsimp only at h ⊢
  generalize (if s.cheatCount = 0 then 0 else cheatEnd s.cheatBuffer (s.cheats (s.cheatCount.toNat - 1))) = p at h ⊢
  rw [store_outside _ (by simp; omega), store_outside _ (by rw [leBytes_length]; omega),
    store_outside _ (by rw [leBytes_length]; omega), store_outside _ (by rw [leBytes_length]; omega),
    store_outside _ (by simp; omega)]

theorem allocCheat_count (s : Cheats) : codesCount (allocCheat s).2.cheatBuffer (allocCheat s).1 = 0 := by
  unfold allocCheat codesCount
  dsimp only
  generalize (if s.cheatCount = 0 then 0 else cheatEnd s.cheatBuffer (s.cheats (s.cheatCount.toNat - 1))) = p
  rw [load_store_outside _ (Or.inr (by simp)), load_store_outside _ (Or.inl (by omega)),
    load_store_outside _ (Or.inl (by omega)), load_store]
  rfl

/-! ## What the lines add -/

/-- The bytes that cheats take. -/
def total (cs : List Cheat) : Nat := (cs.map Cheat.size).sum

@[simp] theorem total_nil : total [] = 0 := rfl

@[simp] theorem total_cons (c : Cheat) (cs : List Cheat) : total (c :: cs) = c.size + total cs := by
  simp [total]

theorem total_append (as bs : List Cheat) : total (as ++ bs) = total as + total bs := by
  simp [total]

/-- Only the newest cheat can be without codes. -/
def Started (cs : List Cheat) : Prop := ∀ c ∈ cs.tail, c.codes ≠ []

/-- Lines only add to the newest cheat, and behind it. -/
def Grown (cs cs' : List Cheat) : Prop :=
  match cs with
  | [] => True
  | c :: rest => ∃ newer c', cs' = newer ++ c' :: rest ∧ c.size ≤ c'.size

theorem Grown.refl (cs : List Cheat) : Grown cs cs := by
  rcases cs with _ | ⟨c, cs⟩
  · trivial
  · exact ⟨[], c, rfl, le_rfl⟩

theorem Grown.trans {cs₁ cs₂ cs₃ : List Cheat} (h : Grown cs₁ cs₂) (h' : Grown cs₂ cs₃) : Grown cs₁ cs₃ := by
  rcases cs₁ with _ | ⟨c, rest⟩
  · trivial
  · obtain ⟨newer, c', rfl, hsize⟩ := h
    rcases newer with _ | ⟨d, newer⟩
    · obtain ⟨newer', c'', rfl, hsize'⟩ := h'
      exact ⟨newer', c'', rfl, hsize.trans hsize'⟩
    · obtain ⟨newer', d', rfl, -⟩ := h'
      exact ⟨newer' ++ d' :: newer, c', by simp, hsize⟩

theorem addLine_grown (cs : List Cheat) (line : Line) : Grown cs (addLine cs line) := by
  rcases cs with _ | ⟨c, cs⟩
  · trivial
  · cases line with
    | nothing => exact Grown.refl _
    | code word =>
      refine ⟨[], _, rfl, ?_⟩
      simp [Cheat.size]
    | name text =>
      rw [addLine]
      split
      · exact ⟨[], _, rfl, le_rfl⟩
      · exact ⟨[_], c, rfl, le_rfl⟩

theorem foldl_grown (lines : List Line) : ∀ cs, Grown cs (lines.foldl addLine cs) := by
  induction lines with
  | nil => exact Grown.refl
  | cons line lines ih => exact fun cs => (addLine_grown cs line).trans (ih _)

theorem Grown.total_le {cs cs' : List Cheat} (h : Grown cs cs') : total cs ≤ total cs' := by
  rcases cs with _ | ⟨c, rest⟩
  · exact Nat.zero_le _
  · obtain ⟨newer, c', rfl, hsize⟩ := h
    rw [total_append, total_cons, total_cons]
    omega

theorem addLine_started {cs : List Cheat} (h : Started cs) (line : Line) : Started (addLine cs line) := by
  rcases cs with _ | ⟨c, cs⟩
  · cases line <;> simp [addLine, Started]
  · cases line with
    | nothing => exact h
    | code word => exact h
    | name text =>
      rw [addLine]
      split
      · exact h
      · next hcodes =>
        intro d hd
        rcases List.mem_cons.mp hd with rfl | hd
        · exact hcodes
        · exact h d hd

/-! ## What fits -/

theorem fitting_append {used : Nat} {as bs : List Cheat} (h : used + total as < cheatBufferSize) :
    fitting used (as ++ bs) = as ++ fitting (used + total as) bs := by
  induction as generalizing used with
  | nil => simp
  | cons a as ih =>
    rw [total_cons] at h
    rw [List.cons_append, fitting, if_pos (by omega), ih (by omega), total_cons, Nat.add_assoc]
    rfl

/-- What came before the cheat that does not fit, is what fits in the end. -/
theorem fitting_of_grown {c : Cheat} {rest cs : List Cheat} (h : Grown (c :: rest) cs) (hrest : total rest < cheatBufferSize)
    (hfull : cheatBufferSize ≤ total (c :: rest)) : fitting 0 cs.reverse = rest.reverse := by
  obtain ⟨newer, c', rfl, hsize⟩ := h
  rw [total_cons] at hfull
  have htotal : total rest.reverse = total rest := by simp [total]
  rw [List.reverse_append, List.reverse_cons, List.append_assoc,
    fitting_append (by rw [htotal]; omega), List.singleton_append, fitting, if_neg (by rw [htotal]; omega), List.append_nil]

theorem fitting_all {cs : List Cheat} (h : total cs < cheatBufferSize) : fitting 0 cs.reverse = cs.reverse := by
  have htotal : total cs.reverse = total cs := by simp [total]
  have happend : fitting 0 (cs.reverse ++ []) = cs.reverse ++ fitting (0 + total cs.reverse) [] :=
    fitting_append (by rw [htotal]; omega)
  simpa [fitting] using happend

/-! ## The state of the loader -/

/-- The cheats, the newest one first, are where their sizes put them. -/
def Placed (s : Cheats) : List Cheat → Prop
  | [] => True
  | c :: cs => s.cheats cs.length = total cs ∧ HoldsAt s.cheatBuffer (total cs) c ∧ Placed s cs

/-- What is changed above the cheats does not change them. -/
theorem Placed.congr {s s' : Cheats} : ∀ {cs : List Cheat}, Placed s cs →
    (∀ i < cs.length, s'.cheats i = s.cheats i) → (∀ x < total cs, s'.cheatBuffer x = s.cheatBuffer x) → Placed s' cs
  | [], _, _, _ => trivial
  | c :: cs, ⟨hplace, hholds, hrest⟩, hcheats, hbuffer => by
    rw [total_cons] at hbuffer
    refine ⟨?_, hholds.congr fun x _ hlt => hbuffer x (by omega), ?_⟩
    · rw [hcheats _ (by simp), hplace]
    · exact hrest.congr (fun i hi => hcheats i (by simp; omega)) fun x hx => hbuffer x (by omega)

/-- The loader has the cheats `cs`; up to 256 of them it has where they belong. -/
structure Tracks (s : Loading) (cs : List Cheat) : Prop where
  size : s.cheatSize = total cs
  fits : total cs < cheatBufferSize
  started : Started cs
  count : s.globals.cheatCount.toNat = cs.length % 256
  cheat : match cs with
    | [] => s.cheat = none
    | c :: rest => ∃ p, s.cheat = some p ∧ codesCount s.globals.cheatBuffer p = c.codes.length ∧
        (cs.length ≤ 256 → p = total rest)
  placed : cs.length ≤ 256 → Placed s.globals cs

/-- The loop is over, with the cheats `cs`. -/
structure Ended (s : Cheats) (cs : List Cheat) : Prop where
  started : Started cs
  fits : total cs < cheatBufferSize
  count : s.cheatCount.toNat = cs.length % 256
  placed : cs.length ≤ 255 → Placed s cs

/-- What a line does to the loader: it goes on with it, or ends before the newest cheat. -/
def LineDone (r : Loading × Bool) (cs : List Cheat) : Prop :=
  if total cs < cheatBufferSize then r.2 = false ∧ Tracks r.1 cs else r.2 = true ∧ Ended r.1.globals cs.tail

section

variable {s : Loading} {cs : List Cheat} {text line : List UInt8}

theorem loadLine_nothing (h : Line.of text = .nothing) : loadLine s text = (s, false) := by
  unfold Line.of at h
  unfold loadLine
  dsimp only
  rw [stripWhitespace_snd]
  split_ifs at h with hnothing
  rcases hnothing with hnil | hcomment
  · rw [hnil]
    rfl
  · rw [if_pos hcomment]
    split <;> rfl

theorem loadLine_code {word : UInt64} (h : Line.of text = .code word) :
    loadLine s text = loadCode s (trim text) ∧ getCode (trim text) = word := by
  unfold Line.of at h
  unfold loadLine
  dsimp only
  rw [stripWhitespace_snd]
  split_ifs at h with hnothing hcode
  rw [not_or] at hnothing
  have hlen : ¬ min (trim text).length 1023 = 0 := by
    have hpos := List.length_pos_iff.mpr hnothing.1
    omega
  rw [if_neg hlen, if_neg hnothing.2, if_pos ((isCodeLine_iff _).mpr hcode), getCode_eq hcode]
  exact ⟨rfl, Line.code.inj h⟩

theorem loadLine_name {name : List UInt8} (h : Line.of text = .name name) :
    loadLine s text = loadName s (text.rdropWhile isBlank) ∧ (text.rdropWhile isBlank).take 38 = name := by
  unfold Line.of at h
  unfold loadLine
  dsimp only
  rw [stripWhitespace_snd]
  split_ifs at h with hnothing hcode
  rw [not_or] at hnothing
  have hlen : ¬ min (trim text).length 1023 = 0 := by
    have hpos := List.length_pos_iff.mpr hnothing.1
    omega
  rw [if_neg hlen, if_neg hnothing.2, if_neg fun he => hcode ((isCodeLine_iff _).mp he), stripWhitespace_fst hnothing.1]
  exact ⟨rfl, Line.name.inj h⟩

theorem setKeyCode_outside {buffer : Memory UInt8} {p x : Nat} (h : x ≠ p) : setKeyCode buffer p x = buffer x :=
  store_outside _ (by simp; omega)

theorem LineDone.more {r : Loading × Bool} (h : r.2 = false) (ht : Tracks r.1 cs) : LineDone r cs := by
  unfold LineDone
  rw [if_pos ht.fits]
  exact ⟨h, ht⟩

theorem LineDone.stop {r : Loading × Bool} (hfull : cheatBufferSize ≤ total cs) (h : r.2 = true)
    (he : Ended r.1.globals cs.tail) : LineDone r cs := by
  unfold LineDone
  rw [if_neg (by omega)]
  exact ⟨h, he⟩

theorem loadCode_done (h : Tracks s cs) (text : List UInt8) :
    LineDone (loadCode s text) (addLine cs (.code (getCode text))) := by
  have hfits := h.fits
  have hsize := h.size
  unfold loadCode
  rcases cs with _ | ⟨c, rest⟩
  · -- codes before the first name
    rw [if_neg (by rw [hsize]; decide), show s.cheat = none from h.cheat]
    exact .more rfl h
  · obtain ⟨p, hp, hcount, hplace⟩ := h.cheat
    have htotal : total (addLine (c :: rest) (.code (getCode text))) = total (c :: rest) + 8 := by
      simp [addLine, Cheat.size]
      omega
    have hstarted := addLine_started h.started (.code (getCode text))
    have hlen : c.codes.length < 2 ^ 15 := by
      have hc : c.size = 56 + 8 * c.codes.length := rfl
      rw [total_cons] at hfits
      unfold cheatBufferSize at hfits
      omega
    split
    · next hfull =>
      -- the newest cheat does not fit, and is taken back
      refine .stop (by omega) rfl ⟨fun d hd => h.started d (List.mem_of_mem_tail hd), ?_, ?_, ?_⟩
      · show total rest < _
        rw [total_cons] at hfits
        omega
      · show (s.globals.cheatCount - 1).toNat = rest.length % 256
        have hc := h.count
        rw [List.length_cons] at hc
        have hone : (1 : UInt8).toNat = 1 := rfl
        rw [UInt8.toNat_sub, hc, hone]
        omega
      · intro hle
        have hrest : rest.length ≤ 255 := hle
        exact (h.placed (by rw [List.length_cons]; omega)).2.2.congr (fun _ _ => rfl) fun _ _ => rfl
    · next hroom =>
      rw [hp]
      dsimp only
      -- the flags are not part of what is tracked
      generalize hbuffer : (if (getCode text >>> 32) &&& 0xFFFFFFFF = 0xDD000000
        then setKeyCode (addCode s.globals.cheatBuffer p (getCode text)) p
        else addCode s.globals.cheatBuffer p (getCode text)) = buffer
      have hsame : ∀ x, x ≠ p → buffer x = addCode s.globals.cheatBuffer p (getCode text) x := by
        intro x hx
        rw [← hbuffer]
        split
        · exact setKeyCode_outside hx
        · rfl
      refine .more rfl ⟨?_, ?_, hstarted, h.count, ?_, ?_⟩
      · show s.cheatSize + 8 = _
        rw [htotal, hsize]
      · omega
      · refine ⟨p, rfl, ?_, hplace⟩
        show codesCount buffer p = (c.codes ++ [getCode text]).length
        rw [show codesCount buffer p = codesCount (addCode s.globals.cheatBuffer p (getCode text)) p from
          load_congr fun x hx _ => hsame x (by omega), addCode_count (by omega), hcount]
        simp
      · intro hle
        obtain ⟨hcheats, hholds, hrest⟩ := h.placed hle
        obtain rfl := hplace hle
        refine ⟨hcheats, ?_, hrest.congr (fun _ _ => rfl) fun x hx => ?_⟩
        · exact (addCode_holdsAt hholds (by omega)).congr fun x hx _ => hsame x (by omega)
        · show buffer x = _
          rw [hsame x (by omega)]
          exact addCode_outside (Or.inl (by omega))

theorem inUse_iff {c : Cheat} {rest : List Cheat} (h : Tracks s (c :: rest)) : s.inUse = true ↔ c.codes ≠ [] := by
  obtain ⟨p, hp, hcount, -⟩ := h.cheat
  unfold Loading.inUse
  rw [hp, decide_eq_true_iff, hcount, gt_iff_lt, List.length_pos_iff]

/-- A cheat placed behind the others. -/
theorem alloc_tracks (h : Tracks s cs) (hnew : Started (⟨line.take 38, []⟩ :: cs)) (hline : ∀ c ∈ line, c ≠ 0)
    (hroom : s.cheatSize + descriptionSize < cheatBufferSize) :
    Tracks (Loading.rename ⟨(allocCheat s.globals).2, some (allocCheat s.globals).1, s.cheatSize + descriptionSize⟩
      (allocCheat s.globals).1 line) (⟨line.take 38, []⟩ :: cs) := by
  have hsize := h.size
  have htotal : total (⟨line.take 38, []⟩ :: cs) = descriptionSize + total cs := by
    simp [Cheat.size]
  -- below 256 cheats, the new one begins where the others end
  have hplace : cs.length ≤ 255 → (allocCheat s.globals).1 = total cs ∧ s.globals.cheatCount.toNat = cs.length := by
    intro hle
    have hcount : s.globals.cheatCount.toNat = cs.length := by
      rw [h.count]
      omega
    refine ⟨?_, hcount⟩
    show (if s.globals.cheatCount = 0 then 0 else _) = _
    rcases cs with _ | ⟨c, rest⟩
    · rw [if_pos (UInt8.toNat_inj.mp hcount)]
      rfl
    · obtain ⟨hcheats, hholds, -⟩ := h.placed (by omega)
      have hne : s.globals.cheatCount ≠ 0 := by
        intro hz
        rw [hz] at hcount
        exact absurd hcount (by simp)
      rw [if_neg hne, hcount, List.length_cons, Nat.add_sub_cancel, hcheats, hholds.end_eq, total_cons]
      omega
  refine ⟨?_, by omega, hnew, ?_, ?_, ?_⟩
  · show s.cheatSize + descriptionSize = _
    omega
  · show (s.globals.cheatCount + 1).toNat = (cs.length + 1) % 256
    rw [UInt8.toNat_add, h.count]
    show (cs.length % 256 + 1) % 256 = _
    omega
  · refine ⟨_, rfl, ?_, fun hle => (hplace (by simp at hle; omega)).1⟩
    show codesCount (setName _ _ _) _ = 0
    rw [setName_count, allocCheat_count]
  · intro hle
    rw [List.length_cons] at hle
    obtain ⟨hp, hcount⟩ := hplace (by omega)
    have hat : (allocCheat s.globals).2.cheats = s.globals.cheats.store cs.length [total cs] := by
      rw [← hcount, ← hp]
      rfl
    refine ⟨?_, ?_, (h.placed (by omega)).congr (fun i hi => ?_) fun x hx => ?_⟩
    · show (allocCheat s.globals).2.cheats cs.length = total cs
      rw [hat, store_inside _ le_rfl (by simp)]
      simp
    · show HoldsAt (setName (allocCheat s.globals).2.cheatBuffer (allocCheat s.globals).1 line) (total cs) _
      rw [hp]
      refine setName_holdsAt ?_ hline
      unfold codesAt
      rw [← hp, allocCheat_count]
      rfl
    · show (allocCheat s.globals).2.cheats i = _
      rw [hat, store_outside _ (Or.inl hi)]
    · show setName (allocCheat s.globals).2.cheatBuffer (allocCheat s.globals).1 line x = _
      rw [setName_outside (Or.inl (by omega)), allocCheat_outside _ (Or.inl (by omega))]

/-- A cheat without codes gets another name. -/
theorem rename_tracks {c : Cheat} {rest : List Cheat} {p : Nat} (h : Tracks s (c :: rest)) (hp : s.cheat = some p)
    (hline : ∀ c ∈ line, c ≠ 0) :
    Tracks (s.rename p line) ({ c with name := line.take 38 } :: rest) := by
  obtain ⟨p', hp', hcount, hplace⟩ := h.cheat
  obtain rfl : p' = p := Option.some.inj (hp'.symm.trans hp)
  refine ⟨h.size, h.fits, h.started, h.count, ⟨p', hp', ?_, hplace⟩, ?_⟩
  · show codesCount (setName _ _ _) _ = c.codes.length
    rw [setName_count, hcount]
  · intro hle
    obtain ⟨hcheats, hholds, hrest⟩ := h.placed hle
    obtain rfl := hplace hle
    refine ⟨hcheats, setName_holdsAt hholds.codes hline, hrest.congr (fun _ _ => rfl) fun x hx => ?_⟩
    exact setName_outside (Or.inl (by omega))

theorem loadName_done (h : Tracks s cs) (hline : ∀ c ∈ line, c ≠ 0) :
    LineDone (loadName s line) (addLine cs (.name (line.take 38))) := by
  have hstarted := addLine_started h.started (.name (line.take 38))
  have hsize := h.size
  have hfits := h.fits
  -- a new cheat, if it fits
  have hnew : s.inUse = true → addLine cs (.name (line.take 38)) = ⟨line.take 38, []⟩ :: cs →
      LineDone (loadName s line) (addLine cs (.name (line.take 38))) := by
    intro huse hadd
    rw [hadd] at hstarted ⊢
    have htotal : total (⟨line.take 38, []⟩ :: cs) = descriptionSize + total cs := by
      simp [Cheat.size]
    unfold loadName
    rw [if_pos huse]
    split
    · next hfull =>
      exact .stop (by omega) rfl ⟨h.started, hfits, h.count, fun hle => h.placed (by simp at hle; omega)⟩
    · next hroom => exact .more rfl (alloc_tracks h hstarted hline (by omega))
  rcases cs with _ | ⟨c, rest⟩
  · refine hnew ?_ rfl
    unfold Loading.inUse
    rw [show s.cheat = none from h.cheat]
  · have hiff := inUse_iff h
    by_cases hcodes : c.codes = []
    · have huse : ¬ s.inUse = true := fun hu => hiff.mp hu hcodes
      obtain ⟨p, hp, -⟩ := h.cheat
      unfold loadName
      rw [if_neg huse, hp, addLine, if_pos hcodes]
      exact .more rfl (rename_tracks h hp hline)
    · refine hnew (hiff.mpr hcodes) ?_
      rw [addLine, if_neg hcodes]

/-- Every line of a file is tracked. -/
theorem loadLine_done (h : Tracks s cs) (htext : ∀ c ∈ text, c ≠ 0) :
    LineDone (loadLine s text) (addLine cs (Line.of text)) := by
  cases hkind : Line.of text with
  | nothing =>
    rw [loadLine_nothing hkind]
    have hsame : addLine cs .nothing = cs := by cases cs <;> rfl
    rw [hsame]
    exact .more rfl h
  | code word =>
    obtain ⟨hload, rfl⟩ := loadLine_code hkind
    rw [hload]
    exact loadCode_done h _
  | name name =>
    obtain ⟨hload, rfl⟩ := loadLine_name hkind
    rw [hload]
    exact loadName_done h fun c hc => htext c ((List.rdropWhile_prefix _ _).subset hc)

end

/-! ## The end of the loop -/

theorem total_take_succ (cs : List Cheat) {i : Nat} (h : i < cs.length) :
    total (cs.take (i + 1)) = total (cs.take i) + cs[i].size := by
  rw [List.take_succ_eq_append_getElem h, total_append, total_cons, total_nil, Nat.add_zero]

theorem total_take_le {cs : List Cheat} {i j : Nat} (h : i ≤ j) : total (cs.take i) ≤ total (cs.take j) := by
  have hsplit : cs.take j = cs.take i ++ (cs.take j).drop i := by
    conv_lhs => rw [← List.take_append_drop i (cs.take j), List.take_take, min_eq_left h]
  rw [hsplit, total_append]
  omega

/-- Each cheat begins where those before it end. -/
theorem Placed.at {s : Cheats} : ∀ {cs : List Cheat}, Placed s cs → ∀ {i : Nat} {d : Cheat}, cs.reverse[i]? = some d →
    s.cheats i = total (cs.reverse.take i) ∧ HoldsAt s.cheatBuffer (s.cheats i) d
  | [], _, i, d, h => by simp at h
  | c :: cs, ⟨hplace, hholds, hrest⟩, i, d, h => by
    rw [List.reverse_cons] at h ⊢
    have htotal : total cs.reverse = total cs := by simp [total]
    by_cases hi : i < cs.reverse.length
    · rw [List.getElem?_append_left hi] at h
      rw [List.take_append_of_le_length hi.le]
      exact hrest.at h
    · rw [List.getElem?_append_right (by omega), List.getElem?_singleton] at h
      split at h
      · next hlast =>
        obtain rfl : i = cs.length := by
          rw [List.length_reverse] at hi hlast
          omega
        obtain rfl := Option.some.inj h
        rw [List.take_left' (by simp), htotal, hplace]
        exact ⟨rfl, hholds⟩
      · cases h

theorem Placed.holds {s : Cheats} {cs : List Cheat} (h : Placed s cs) (hcount : s.cheatCount.toNat = cs.length)
    (hfits : total cs < cheatBufferSize) : HoldsCheats s cs.reverse := by
  have hlen : cs.reverse.length = s.cheatCount.toNat := by rw [List.length_reverse, hcount]
  have htotal : total cs.reverse = total cs := by simp [total]
  have hat : ∀ i (hi : i < cs.reverse.length),
      s.cheats i = total (cs.reverse.take i) ∧ HoldsAt s.cheatBuffer (s.cheats i) cs.reverse[i] :=
    fun i hi => h.at (List.getElem?_eq_getElem hi)
  have hend : ∀ i (hi : i < cs.reverse.length), cheatEnd s.cheatBuffer (s.cheats i) = total (cs.reverse.take (i + 1)) := by
    intro i hi
    obtain ⟨hplace, hholds⟩ := hat i hi
    rw [hholds.end_eq, hplace, total_take_succ _ hi]
  constructor
  · intro i hi
    have hle : total (cs.reverse.take (i + 1)) ≤ total (cs.reverse.take cs.reverse.length) := total_take_le (by omega)
    rw [List.take_length] at hle
    rw [hend i (by omega)]
    omega
  · intro i j hij hj
    rw [hend i (by omega), (hat j (by omega)).1]
    exact Or.inl (total_take_le (by omega))
  · refine List.ext_getElem (by simp [Cheats.list, hcount]) fun i hi hi' => ?_
    obtain ⟨-, hholds⟩ := hat i hi'
    simp only [Cheats.list, List.getElem_map, List.getElem_range, hholds.name, hholds.codes]

theorem HoldsCheats.length {s : Cheats} {cs : List Cheat} (h : HoldsCheats s cs) : s.cheatCount.toNat = cs.length := by
  rw [← h.list]
  simp [Cheats.list]

theorem filter_codes {cs : List Cheat} (h : ∀ c ∈ cs, c.codes ≠ []) :
    cs.reverse.filter (fun c => c.codes ≠ []) = cs.reverse := by
  rw [List.filter_eq_self]
  intro c hc
  simpa using h c (List.mem_reverse.mp hc)

theorem removeEmpty_zero {s : Cheats} (h : s.cheatCount.toNat = 0) : removeEmpty s = s := by
  unfold removeEmpty
  rw [if_neg]
  rintro ⟨hpos, -⟩
  have hpos' : 0 < s.cheatCount.toNat := UInt8.lt_iff_toNat_lt.mp hpos
  omega

/-- 256 cheats are none for the counter, and it never counts more. -/
theorem Ended.not_holds {s : Cheats} {cs : List Cheat} (h : Ended s cs) (hmany : 255 < cs.length) :
    ¬ HoldsCheats (removeEmpty s) (cs.reverse.filter fun c => c.codes ≠ []) := by
  intro hholds
  have hcount := h.count
  have hlen := hholds.length
  rcases cs with _ | ⟨c, rest⟩
  · simp at hmany
  · have hstarted : ∀ d ∈ rest, d.codes ≠ [] := h.started
    rw [List.reverse_cons, List.filter_append, filter_codes hstarted, List.length_append, List.length_reverse] at hlen
    rw [List.length_cons] at hcount hmany
    have hlt := (removeEmpty s).cheatCount.toNat_lt
    have h256 : rest.length = 255 := by omega
    have hzero : s.cheatCount.toNat = 0 := by omega
    rw [removeEmpty_zero hzero] at hlen
    omega

theorem Ended.holds {s : Cheats} {cs : List Cheat} (h : Ended s cs) (hle : cs.length ≤ 255) :
    HoldsCheats (removeEmpty s) (cs.reverse.filter fun c => c.codes ≠ []) := by
  have hcount := h.count
  have hfits := h.fits
  have hplaced := h.placed hle
  rw [Nat.mod_eq_of_lt (by omega)] at hcount
  rcases cs with _ | ⟨c, rest⟩
  · rw [removeEmpty_zero hcount]
    exact hplaced.holds hcount hfits
  · have hstarted : ∀ d ∈ rest, d.codes ≠ [] := h.started
    obtain ⟨hcheats, hholds, hrest⟩ := hplaced
    rw [List.length_cons] at hcount
    have hcodes : codesCount s.cheatBuffer (s.cheats (s.cheatCount.toNat - 1)) = c.codes.length := by
      rw [hcount, Nat.add_sub_cancel, hcheats, hholds.count]
    unfold removeEmpty
    rw [hcodes]
    by_cases hempty : c.codes = []
    · -- a last name without codes
      have hpos : s.cheatCount > 0 := by
        rw [gt_iff_lt, UInt8.lt_iff_toNat_lt, hcount]
        simp
      have hone : (s.cheatCount - 1).toNat = rest.length := by
        rw [UInt8.toNat_sub_of_le _ _ (UInt8.le_iff_toNat_le.mpr (by rw [hcount]; simp)), hcount]
        simp
      have hlast : [c].filter (fun c => c.codes ≠ []) = [] := by simp [hempty]
      rw [if_pos ⟨hpos, by rw [hempty]; rfl⟩, List.reverse_cons, List.filter_append, filter_codes hstarted, hlast,
        List.append_nil]
      rw [total_cons] at hfits
      exact Placed.holds (hrest.congr (fun _ _ => rfl) fun _ _ => rfl) hone (by omega)
    · have hall : ∀ d ∈ c :: rest, d.codes ≠ [] := List.forall_mem_cons.mpr ⟨hempty, hstarted⟩
      rw [if_neg fun hz => hempty (List.eq_nil_of_length_eq_zero hz.2), filter_codes hall]
      exact Placed.holds ⟨hcheats, hholds, hrest⟩ hcount hfits

/-! ## Files -/

/-- Each line of 1024 or more characters comes after cheats that fill the buffer. -/
def LinesEnd (cs : List Cheat) (lines : List (List UInt8)) : Prop :=
  ∀ before line behind, lines = before ++ line :: behind → 1024 ≤ line.length →
    cheatBufferSize ≤ total ((before.map fun line => Line.of (dropReturn line)).foldl addLine cs)

theorem fileLines_nonzero (bs : List UInt8) : ∀ line ∈ fileLines bs, ∀ c ∈ line, c ≠ 0 := by
  induction bs with
  | nil => simp [fileLines]
  | cons b bs ih =>
    unfold fileLines
    split_ifs with hnul hfeed
    · simp
    · simpa using ih
    · split
      · simpa using hnul
      · next first lines hlines =>
        rw [hlines] at ih
        intro line hline c hc
        rcases List.mem_cons.mp hline with rfl | hline
        · rcases List.mem_cons.mp hc with rfl | hc
          · exact hnul
          · exact ih first List.mem_cons_self c hc
        · exact ih line (List.mem_cons_of_mem _ hline) c hc

theorem dropReturn_subset (line : List UInt8) : ∀ c ∈ dropReturn line, c ∈ line := by
  unfold dropReturn
  split
  · exact fun c hc => List.mem_of_mem_dropLast hc
  · exact fun c hc => hc

theorem linesEnd_cons {cs : List Cheat} {line : List UInt8} {lines : List (List UInt8)} (hshort : line.length < 1024) :
    LinesEnd cs (line :: lines) ↔ LinesEnd (addLine cs (Line.of (dropReturn line))) lines := by
  constructor
  · intro h before long behind hsplit hlong
    exact h (line :: before) long behind (by rw [hsplit]; rfl) hlong
  · intro h before long behind hsplit hlong
    rcases before with _ | ⟨first, before⟩
    · rw [List.nil_append, List.cons.injEq] at hsplit
      obtain ⟨rfl, -⟩ := hsplit
      omega
    · rw [List.cons_append, List.cons.injEq] at hsplit
      obtain ⟨rfl, hsplit⟩ := hsplit
      exact h before long behind hsplit hlong

/-- After cheats that fill the buffer every line may come. -/
theorem linesEnd_of_full {cs : List Cheat} (h : cheatBufferSize ≤ total cs) (lines : List (List UInt8)) :
    LinesEnd cs lines :=
  fun _ _ _ _ _ => h.trans (foldl_grown _ cs).total_le

/-- The cheats in the end, the newest one first: those that `cs` and the lines make, as far as they fit. -/
def EndsWith (ks cs : List Cheat) (lines : List (List UInt8)) : Prop :=
  ks.reverse = fitting 0 (((lineTexts lines).map Line.of).foldl addLine cs).reverse

/-- How the loop ends that has the cheats `cs`, and the lines before it. -/
inductive LoopEnds : Loaded → List Cheat → List (List UInt8) → Prop
  | done {s : Cheats} {ks cs : List Cheat} {lines : List (List UInt8)} (lines_end : LinesEnd cs lines)
      (ended : Ended s ks) (ends_with : EndsWith ks cs lines) : LoopEnds (.done (removeEmpty s)) cs lines
  | overrun {cs : List Cheat} {lines : List (List UInt8)} (lines_end : ¬ LinesEnd cs lines) : LoopEnds .overrun cs lines

theorem LineDone.ended {r : Loading × Bool} {cs : List Cheat} (h : LineDone r cs) (hstop : r.2 = true) (lines : List Line) :
    cheatBufferSize ≤ total cs ∧ Ended r.1.globals cs.tail ∧ cs.tail.reverse = fitting 0 (lines.foldl addLine cs).reverse := by
  unfold LineDone at h
  split at h
  · rw [h.1] at hstop
    cases hstop
  · next hfull =>
    obtain ⟨-, hended⟩ := h
    refine ⟨by omega, hended, ?_⟩
    rcases cs with _ | ⟨c, rest⟩
    · exact absurd (by decide) hfull
    · have hgrown : Grown (c :: rest) (lines.foldl addLine (c :: rest)) := foldl_grown lines _
      exact (fitting_of_grown hgrown hended.fits (by omega)).symm

theorem LineDone.tracks {r : Loading × Bool} {cs : List Cheat} (h : LineDone r cs) (hmore : r.2 = false) :
    Tracks r.1 cs := by
  unfold LineDone at h
  split at h
  · exact h.2
  · rw [h.1] at hmore
    cases hmore

theorem Tracks.ended {s : Loading} {cs : List Cheat} (h : Tracks s cs) : Ended s.globals cs :=
  ⟨h.started, h.fits, h.count, fun hle => h.placed (by omega)⟩

/-- A turn of the loop, on a line that is read. -/
theorem loadLoop_succ {fuel : Nat} {file : BufferedFile} {s : Loading} {text : List UInt8}
    (hline : (readLine file 1024).line = some text) (hres : 0 ≤ (readLine file 1024).res ∨ (readLine file 1024).res = -1) :
    loadLoop (fuel + 1) file s =
      if (loadLine s text).2 = false ∧ 0 ≤ (readLine file 1024).res ∧ (loadLine s text).1.cheatSize < cheatBufferSize then
        loadLoop fuel (readLine file 1024).file (loadLine s text).1
      else some (.done (removeEmpty (loadLine s text).1.globals)) := by
  rw [loadLoop]
  dsimp only
  rw [hline]
  dsimp only
  rw [if_pos hres]
  simp

/-- The loop ends on every file, by induction on its lines. -/
theorem loadLoop_ends : ∀ {lines : List (List UInt8)} {file : BufferedFile} {s : Loading} {cs : List Cheat},
    file.Valid → fileLines file.bytes = lines → Tracks s cs → ∃ fuel r, loadLoop fuel file s = some r ∧ LoopEnds r cs lines
  | [], file, s, cs, hf, h, ht => absurd h (fileLines_ne_nil _)
  | line :: lines, file, s, cs, hf, h, ht => by
    have hread := readLine_spec hf h 1024
    have hnonzero := fileLines_nonzero file.bytes line (by rw [h]; exact List.mem_cons_self)
    by_cases hshort : line.length < 1024
    · rcases lines with _ | ⟨next, lines⟩
      · -- the last line of the file
        obtain ⟨hres, hline⟩ := hread.final hshort rfl
        have hdone := loadLine_done ht hnonzero
        have hends : LinesEnd cs [line] := (linesEnd_cons hshort).mpr fun before _ _ hsplit => by simp at hsplit
        refine ⟨1, .done (removeEmpty (loadLine s line).1.globals), ?_, ?_⟩
        · rw [loadLoop_succ hline (Or.inr hres), if_neg (by omega)]
        · cases hstop : (loadLine s line).2 with
          | true =>
            obtain ⟨-, hended, hwith⟩ := hdone.ended hstop []
            exact .done hends hended hwith
          | false =>
            have ht' := hdone.tracks hstop
            exact .done hends ht'.ended (fitting_all ht'.fits).symm
      · obtain ⟨hres, hline, hf', hlines⟩ := hread.more hshort (by simp)
        have hdone := loadLine_done ht fun c hc => hnonzero c (dropReturn_subset line c hc)
        cases hstop : (loadLine s (dropReturn line)).2 with
        | true =>
          -- the line does not fit
          obtain ⟨hfull, hended, hwith⟩ := hdone.ended hstop ((lineTexts (next :: lines)).map Line.of)
          refine ⟨1, .done (removeEmpty (loadLine s (dropReturn line)).1.globals), ?_, ?_⟩
          · rw [loadLoop_succ hline (Or.inl hres), if_neg (by simp [hstop])]
          · exact .done ((linesEnd_cons hshort).mpr (linesEnd_of_full hfull _)) hended hwith
        | false =>
          have ht' := hdone.tracks hstop
          obtain ⟨fuel, r, hr, hends⟩ := loadLoop_ends hf' hlines ht'
          refine ⟨fuel + 1, r, ?_, ?_⟩
          · rw [loadLoop_succ hline (Or.inl hres), if_pos ⟨hstop, hres, by rw [ht'.size]; exact ht'.fits⟩, hr]
          · cases hends with
            | done hlines' hended hwith => exact .done ((linesEnd_cons hshort).mpr hlines') hended hwith
            | overrun hlines' => exact .overrun fun hl => hlines' ((linesEnd_cons hshort).mp hl)
    · -- the line has no terminator
      refine ⟨1, .overrun, ?_, .overrun fun hends => ?_⟩
      · unfold loadLoop
        dsimp only
        rw [hread.full hshort]
      · have hfull := hends [] line lines rfl (by omega)
        have hfits := ht.fits
        simp only [List.map_nil, List.foldl_nil] at hfull
        omega

theorem loadLoop_mono : ∀ {fuel k : Nat} {file : BufferedFile} {s : Loading} {r : Loaded},
    loadLoop fuel file s = some r → loadLoop (fuel + k) file s = some r
  | 0, k, file, s, r, h => by cases h
  | fuel + 1, k, file, s, r, h => by
    rw [Nat.add_right_comm]
    unfold loadLoop at h ⊢
    dsimp only at h ⊢
    split at h
    · exact h
    · next text _ =>
      generalize (if (readLine file 1024).res ≥ 0 ∨ (readLine file 1024).res = -1 then loadLine s text else (s, false)) = t at h ⊢
      split at h
      · next hgo =>
        rw [if_pos hgo]
        exact loadLoop_mono h
      · next hgo =>
        rw [if_neg hgo]
        exact h

theorem loadLoop_unique {fuel fuel' : Nat} {file : BufferedFile} {s : Loading} {r r' : Loaded}
    (h : loadLoop fuel file s = some r) (h' : loadLoop fuel' file s = some r') : r = r' := by
  have hmono : loadLoop (fuel + fuel') file s = some r := loadLoop_mono h
  rw [Nat.add_comm, loadLoop_mono h'] at hmono
  exact (Option.some.inj hmono).symm

theorem loadCheats_ends (s : Cheats) (content : List UInt8) :
    ∃ fuel r, loadCheatsIntoMemory fuel s content = some r ∧ LoopEnds r [] (fileLines content) := by
  have hstart : Tracks ⟨{ s with cheatCount := 0 }, none, 0⟩ [] :=
    ⟨rfl, by decide, by simp [Started], rfl, rfl, fun _ => trivial⟩
  have hends := loadLoop_ends (BufferedFile.openFile_valid content) rfl hstart
  rwa [BufferedFile.openFile_bytes] at hends

/-- What the loop ends with is what is to be read from the file, if the cheats can be counted. -/
theorem LoopEnds.holds_iff {r : Loaded} {content : List UInt8} (h : LoopEnds r [] (fileLines content)) :
    (∃ s, r = .done s ∧ HoldsCheats s (referenceCheats content)) ↔
      (fitting 0 (parseCheats content)).length ≤ 255 ∧ LinesEnd [] (fileLines content) := by
  have hreference : ∀ ks, EndsWith ks [] (fileLines content) → ks.reverse = fitting 0 (parseCheats content) := fun _ h => h
  cases h with
  | done hlines hended hwith =>
    unfold referenceCheats
    rw [← hreference _ hwith, List.length_reverse]
    constructor
    · rintro ⟨s', hr, hholds⟩
      obtain rfl := Loaded.done.inj hr
      refine ⟨?_, hlines⟩
      by_contra hmany
      exact hended.not_holds (by omega) hholds
    · rintro ⟨hfew, -⟩
      exact ⟨_, rfl, hended.holds hfew⟩
  | overrun hlines =>
    constructor
    · rintro ⟨s', hr, -⟩
      cases hr
    · rintro ⟨-, hl⟩
      exact absurd hl hlines

/-- `Cheat_LoadCheatsIntoMemory` leaves the cheats of the file, each in its own place in `cheatBuffer`, exactly
if at most 255 of them fit, with a last one without codes, and each line that it comes to has less than
1024 characters. -/
theorem loadCheats_holds_iff (s : Cheats) (content : List UInt8) :
    (∃ fuel s', loadCheatsIntoMemory fuel s content = some (.done s') ∧ HoldsCheats s' (referenceCheats content)) ↔
      (fitting 0 (parseCheats content)).length ≤ 255 ∧ LinesEnd [] (fileLines content) := by
  obtain ⟨fuel, r, hr, hends⟩ := loadCheats_ends s content
  rw [← hends.holds_iff]
  constructor
  · rintro ⟨fuel', s', hr', hholds⟩
    exact ⟨s', loadLoop_unique hr hr', hholds⟩
  · rintro ⟨s', rfl, hholds⟩
    exact ⟨fuel, s', hr, hholds⟩

/-! ## 256 cheats -/

def smallCode : List UInt8 :=
  ['D', '0', '0', '0', '0', '0', '0', '0', ' ', '0', '0', '0', '0', '0', '0', '0', '2'].map Char.toUInt8

/-- Lines of a cheat named `a` with one code. -/
def smallCheat : List UInt8 := 'a'.toUInt8 :: '\n'.toUInt8 :: (smallCode ++ ['\n'.toUInt8])

def smallCheats (n : Nat) : List UInt8 := (List.replicate n smallCheat).flatten

theorem smallCheat_lines (bs : List UInt8) : fileLines (smallCheat ++ bs) = ['a'.toUInt8] :: smallCode :: fileLines bs := by
  rfl

theorem smallCheat_texts (bs : List UInt8) :
    (lineTexts (fileLines (smallCheat ++ bs))).map Line.of =
      .name ['a'.toUInt8] :: .code 0xD000000000000002 :: (lineTexts (fileLines bs)).map Line.of := by
  rw [smallCheat_lines]
  rcases hlines : fileLines bs with _ | ⟨line, lines⟩
  · exact absurd hlines (fileLines_ne_nil bs)
  · have hname : Line.of (dropReturn ['a'.toUInt8]) = .name ['a'.toUInt8] := by rfl
    have htrim : trim (dropReturn smallCode) = smallCode := by decide +kernel
    have hvalue : UInt64.ofNat (hexValue (smallCode.take 8 ++ smallCode.drop 9)) = 0xD000000000000002 := by decide +kernel
    have hcode : Line.of (dropReturn smallCode) = .code 0xD000000000000002 := by
      unfold Line.of
      rw [htrim, if_neg (by decide +kernel), if_pos (by decide +kernel), hvalue]
    rw [lineTexts, lineTexts, List.map_cons, List.map_cons, hname, hcode]

theorem smallCheats_parse (n : Nat) : ∀ k, ((lineTexts (fileLines (smallCheats n))).map Line.of).foldl addLine
      (List.replicate k ⟨['a'.toUInt8], [0xD000000000000002]⟩) =
    List.replicate (k + n) ⟨['a'.toUInt8], [0xD000000000000002]⟩ := by
  induction n with
  | zero =>
    intro k
    cases k <;> rfl
  | succ n ih =>
    intro k
    have hsucc : smallCheats (n + 1) = smallCheat ++ smallCheats n := by
      unfold smallCheats
      rw [List.replicate_succ, List.flatten_cons]
    have hadd : addLine (addLine (List.replicate k ⟨['a'.toUInt8], [0xD000000000000002]⟩) (.name ['a'.toUInt8]))
        (.code 0xD000000000000002) = List.replicate (k + 1) ⟨['a'.toUInt8], [0xD000000000000002]⟩ := by
      cases k <;> rfl
    rw [hsucc, smallCheat_texts, List.foldl_cons, List.foldl_cons, hadd, ih (k + 1)]
    congr 1
    omega

/-- 256 cheats fit in the buffer, but not in the counter. -/
theorem smallCheats_not_held : ¬ ∃ fuel s', loadCheatsIntoMemory fuel ⟨fun _ => 0, fun _ => 0, 0⟩ (smallCheats 256) =
    some (.done s') ∧ HoldsCheats s' (referenceCheats (smallCheats 256)) := by
  rintro ⟨fuel', s', hr', hholds⟩
  obtain ⟨fuel, r, hr, hends⟩ := loadCheats_ends ⟨fun _ => 0, fun _ => 0, 0⟩ (smallCheats 256)
  obtain ⟨hfew, -⟩ := hends.holds_iff.mp ⟨s', loadLoop_unique hr hr', hholds⟩
  have hparse : parseCheats (smallCheats 256) = (List.replicate 256 ⟨['a'.toUInt8], [0xD000000000000002]⟩).reverse := by
    have hlines := smallCheats_parse 256 0
    rw [Nat.zero_add] at hlines
    unfold parseCheats
    rw [← hlines]
    rfl
  have htotal : total (List.replicate 256 ⟨['a'.toUInt8], [0xD000000000000002]⟩) < cheatBufferSize := by
    unfold total
    rw [List.map_replicate, List.sum_replicate]
    decide
  rw [hparse, fitting_all htotal, List.length_reverse, List.length_replicate] at hfew
  omega

end Omiiba.Rosalina
