/-
Thread ids in packets, after thread.c: how they are read, where the reader looks, and what of a text that was made for a thread
comes back.
-/
import Omiiba.Rosalina.GdbPacket
import Omiiba.Rosalina.GdbThread

namespace Omiiba.Rosalina

/-! ## The code -/

/-- `(u32)-1`: all processes. -/
def allPids : UInt32 := 0xFFFFFFFF

/-- The part of `GDB_ParseThreadId` for the thread, from a place of the string on: the process, the thread, and the place behind
the id. -/
def parseTid (pid : UInt32) (s : List UInt8) (lastSep : UInt8) (pos : Nat) : Option (UInt32 × UInt32 × Nat) :=
  if ascii "-1" <+: s.drop pos then some (pid, 0, pos + 2)
  else
    match parseHexIntegerList 1 lastSep (s.drop pos) with
    | some ([n], k) =>
      let tid := UInt32.ofNat n
      if pid = allPids ∧ tid ≠ 0 then none else some (pid, tid, pos + k)
    | _ => none

/-- The part for the process: which one, and where the part for the thread begins. Behind a process without a `.` that is behind
the terminator. -/
def parsePid (form : ThreadIdForm) (s : List UInt8) : Option (UInt32 × Nat) :=
  if form.multiprocessExtEnabled then
    if ascii "-1." <+: s.drop 1 then some (allPids, 4)
    else
      match parseHexIntegerList 1 0x2E (s.drop 1) with
      | some ([n], k) => some (UInt32.ofNat n - 1, 1 + k + 1)
      | _ => none
  else some (form.pid, 0)

/-- An id without a `p`, where ids name processes. -/
def parseBare (s : List UInt8) : Option (UInt32 × UInt32 × Nat) :=
  if s.takeWhile (· ≠ 0) = ascii "-1" then some (allPids, 0, 2)
  else
    match parseHexIntegerList 1 0 s with
    | some ([n], k) => some (UInt32.ofNat n - 1, 0, k)
    | _ => none

/-- An id in which there is no `p`, although there could be one. -/
def isBare (form : ThreadIdForm) (s : List UInt8) : Bool := form.multiprocessExtEnabled && s.headD 0 ≠ 0x70

/-- `GDB_ParseThreadId`, where `s` is the memory from the string on: the process, the thread, and the place behind the id. -/
def parseThreadId (form : ThreadIdForm) (s : List UInt8) (lastSep : UInt8) : Option (UInt32 × UInt32 × Nat) :=
  if isBare form s then parseBare s else (parsePid form s).bind fun (pid, pos) => parseTid pid s lastSep pos

/-- The places from which `GDB_ParseThreadId` looks at characters, with `strcmp`, `strncmp` and `GDB_ParseHexIntegerList`; from
each of them it looks no further than to the first NUL. -/
def scanStarts (form : ThreadIdForm) (s : List UInt8) : List Nat :=
  if isBare form s then [0]
  else (if form.multiprocessExtEnabled then [0, 1] else []) ++ ((parsePid form s).map Prod.snd).toList

/-! ## What is expected -/

/-- The text that is made for a thread is read as that thread. -/
def RoundTrips (form : ThreadIdForm) (tid : UInt32) (lastSep : UInt8) (behind : List UInt8) : Prop :=
  parseThreadId form (encodeThreadId form tid ++ 0 :: behind) lastSep = some (form.pid, tid, (encodeThreadId form tid).length)

/-- Of a text with its terminator nothing behind the terminator is looked at, and the place behind an id that is accepted is a
separator or the terminator. -/
structure ReadsThreadId (form : ThreadIdForm) (text : List UInt8) (lastSep : UInt8) (behind : List UInt8) : Prop where
  inside : ∀ p ∈ scanStarts form (text ++ 0 :: behind), p ≤ text.length
  ends : ∀ pid tid pos, parseThreadId form (text ++ 0 :: behind) lastSep = some (pid, tid, pos) →
    pos ≤ text.length ∧ (text.getD pos 0 = lastSep ∨ text.getD pos 0 = 0)

/-- A `.` is behind the process, and a separator or the terminator behind a thread `-1`. -/
def ThreadIdWhole (form : ThreadIdForm) (text : List UInt8) (lastSep : UInt8) : Prop :=
  isBare form text = false → ∀ pid pos, parsePid form text = some (pid, pos) → pos ≤ text.length ∧
    (ascii "-1" <+: text.drop pos → text.getD (pos + 2) 0 = lastSep ∨ text.getD (pos + 2) 0 = 0)

/-! ## Texts with a terminator -/

/-- Only in front of the terminator can there be something without NUL. -/
theorem prefix_nul {lit text : List UInt8} (h : 0 ∉ lit) (behind : List UInt8) : lit <+: text ++ 0 :: behind ↔ lit <+: text := by
  constructor
  · intro hfront
    rcases Nat.lt_or_ge text.length lit.length with hlt | hge
    · -- then the terminator would be in it
      refine absurd ?_ h
      have hterminated : text ++ [0] <+: lit :=
        List.prefix_of_prefix_length_le ⟨behind, by simp⟩ hfront (by simpa using hlt)
      exact hterminated.subset (by simp)
    · exact List.prefix_of_prefix_length_le hfront (List.prefix_append _ _) hge
  · exact fun hfront => hfront.trans (List.prefix_append _ _)

theorem isBare_nul (form : ThreadIdForm) (text behind : List UInt8) : isBare form (text ++ 0 :: behind) = isBare form text := by
  unfold isBare
  cases text <;> rfl

theorem drop_one_nul {text : List UInt8} (h : text ≠ []) (behind : List UInt8) :
    (text ++ 0 :: behind).drop 1 = text.drop 1 ++ 0 :: behind := by
  cases text with
  | nil => exact absurd rfl h
  | cons c text => rfl

theorem parsePid_nul {form : ThreadIdForm} {text : List UInt8} (hbare : isBare form text = false) (behind : List UInt8) :
    parsePid form (text ++ 0 :: behind) = parsePid form text := by
  unfold parsePid
  by_cases hmulti : form.multiprocessExtEnabled = true
  · have hne : text ≠ [] := by
      rintro rfl
      simp [isBare, hmulti] at hbare
    rw [if_pos hmulti, if_pos hmulti, drop_one_nul hne, parseHexIntegerList_nul]
    simp only [prefix_nul (show 0 ∉ ascii "-1." by decide)]
  · rw [if_neg hmulti, if_neg hmulti]

theorem drop_nul {text : List UInt8} {pos : Nat} (h : pos ≤ text.length) (behind : List UInt8) :
    (text ++ 0 :: behind).drop pos = text.drop pos ++ 0 :: behind := by
  rw [List.drop_append_of_le_length h]

theorem parseTid_nul (pid : UInt32) {text : List UInt8} (lastSep : UInt8) {pos : Nat} (h : pos ≤ text.length) (behind : List UInt8) :
    parseTid pid (text ++ 0 :: behind) lastSep pos = parseTid pid text lastSep pos := by
  unfold parseTid
  rw [drop_nul h, parseHexIntegerList_nul]
  simp only [prefix_nul (show 0 ∉ ascii "-1" by decide)]

/-- The string ends at its first NUL, at the latest at the terminator. -/
theorem takeWhile_nul (text behind : List UInt8) : (text ++ 0 :: behind).takeWhile (· ≠ 0) = text.takeWhile (· ≠ 0) := by
  induction text with
  | nil => rfl
  | cons c text ih =>
    rw [List.cons_append, List.takeWhile_cons, List.takeWhile_cons, ih]

theorem getD_takeWhile (text : List UInt8) : text.getD (text.takeWhile (· ≠ 0)).length 0 = 0 := by
  induction text with
  | nil => rfl
  | cons c text ih =>
    rw [List.takeWhile_cons]
    split
    · rw [List.length_cons, List.getD_cons_succ, ih]
    · rename_i hc
      simpa using hc

/-- An id that is accepted without a process ends at the terminator. -/
theorem parseBare_ends {text behind : List UInt8} {pid tid : UInt32} {pos : Nat}
    (h : parseBare (text ++ 0 :: behind) = some (pid, tid, pos)) : pos ≤ text.length ∧ text.getD pos 0 = 0 := by
  unfold parseBare at h
  split at h
  · rename_i hminus
    cases h
    rw [takeWhile_nul] at hminus
    have hle := (List.takeWhile_prefix (fun c : UInt8 => c ≠ 0) (l := text)).length_le
    have hend := getD_takeWhile text
    rw [hminus] at hle hend
    exact ⟨hle, hend⟩
  · rw [parseHexIntegerList_nul] at h
    split at h
    · rename_i n k hnumber
      cases h
      obtain ⟨-, -, hle, hnext⟩ := parseHexIntegerList_some hnumber
      exact ⟨hle, by tauto⟩
    · cases h

/-- Where the id of a thread ends. -/
theorem parseTid_ends {pid pid' tid : UInt32} {text : List UInt8} {lastSep : UInt8} {pos pos' : Nat} (hpos : pos ≤ text.length)
    (h : parseTid pid text lastSep pos = some (pid', tid, pos')) : pos' ≤ text.length ∧
      (text.getD pos' 0 = lastSep ∨ text.getD pos' 0 = 0 ∨ (ascii "-1" <+: text.drop pos ∧ pos' = pos + 2)) := by
  unfold parseTid at h
  split at h
  · rename_i hminus
    cases h
    have hlength := hminus.length_le
    rw [List.length_drop] at hlength
    exact ⟨by have : (ascii "-1").length = 2 := rfl; omega, .inr (.inr ⟨hminus, rfl⟩)⟩
  · split at h
    · rename_i n k hnumber
      dsimp only at h
      split at h
      · cases h
      · cases h
        obtain ⟨-, -, hle, hnext⟩ := parseHexIntegerList_some hnumber
        have hget : (text.drop pos).getD k 0 = text.getD (pos + k) 0 := by
          simp [List.getD_eq_getElem?_getD]
        rw [List.length_drop] at hle
        rw [hget] at hnext
        exact ⟨by omega, hnext.imp_right .inl⟩
    · cases h

theorem readsThreadId_iff (form : ThreadIdForm) (text : List UInt8) (lastSep : UInt8) (behind : List UInt8) :
    ReadsThreadId form text lastSep behind ↔ ThreadIdWhole form text lastSep := by
  unfold ThreadIdWhole
  cases hbare : isBare form text with
  | true =>
    refine iff_of_true ⟨?_, fun pid tid pos h => ?_⟩ (fun h => by cases h)
    · simp [scanStarts, isBare_nul, hbare]
    · unfold parseThreadId at h
      rw [isBare_nul, hbare, if_pos rfl] at h
      exact (parseBare_ends h).imp_right .inr
  | false =>
    have hpid := parsePid_nul hbare behind
    have hid : parseThreadId form (text ++ 0 :: behind) lastSep =
        (parsePid form text).bind fun (pid, pos) => parseTid pid (text ++ 0 :: behind) lastSep pos := by
      unfold parseThreadId
      rw [isBare_nul, hbare, if_neg Bool.false_ne_true, hpid]
    constructor
    · rintro ⟨hinside, hends⟩ - pid pos hpos
      have hle : pos ≤ text.length := hinside pos (by simp [scanStarts, isBare_nul, hbare, hpid, hpos])
      refine ⟨hle, fun hminus => ?_⟩
      -- a thread that is -1 is accepted, whatever is behind it
      refine (hends pid 0 (pos + 2) ?_).2
      rw [hid, hpos, Option.bind_some]
      dsimp only
      rw [parseTid_nul pid lastSep hle, parseTid, if_pos hminus]
    · intro hwhole
      refine ⟨fun p hp => ?_, fun pid tid pos h => ?_⟩
      · unfold scanStarts at hp
        rw [isBare_nul, hbare, if_neg Bool.false_ne_true, hpid] at hp
        rcases List.mem_append.mp hp with hp | hp
        · split at hp
          · rename_i hmulti
            have hne : 0 < text.length := by
              refine List.length_pos_iff.mpr ?_
              rintro rfl
              simp [isBare, hmulti] at hbare
            rcases List.mem_pair.mp hp with rfl | rfl <;> omega
          · cases hp
        · rw [Option.mem_toList, Option.map_eq_some_iff] at hp
          obtain ⟨⟨pid, pos⟩, hpos, rfl⟩ := hp
          exact (hwhole rfl pid pos hpos).1
      · rw [hid, Option.bind_eq_some_iff] at h
        obtain ⟨⟨pid', pos'⟩, hpos', h⟩ := h
        obtain ⟨hle, hminus⟩ := hwhole rfl pid' pos' hpos'
        dsimp only at h
        rw [parseTid_nul pid' lastSep hle] at h
        obtain ⟨hin, hend⟩ := parseTid_ends hle h
        refine ⟨hin, ?_⟩
        rcases hend with hend | hend | ⟨hfront, rfl⟩
        · exact .inl hend
        · exact .inr hend
        · exact hminus hfront

/-! ## Round trips -/

theorem hexText_ne_nil (n : Nat) : hexText n ≠ [] := by
  unfold hexText
  simp

theorem ends_nul (behind : List UInt8) : Ends (0 :: behind) := by
  rintro c ⟨⟩
  decide

theorem ends_dot (behind : List UInt8) : Ends (0x2E :: behind) := by
  rintro c ⟨⟩
  decide

/-- Hexadecimal digits do not begin with a minus. -/
theorem not_minus_hexText (n : Nat) (lit rest : List UInt8) : ¬0x2D :: lit <+: hexText n ++ rest := by
  obtain ⟨c, ds, hds⟩ := List.exists_cons_of_ne_nil (hexText_ne_nil n)
  rw [hds, List.cons_append, List.cons_prefix_cons]
  rintro ⟨rfl, -⟩
  have hdigit := Hex.isDigit_of_value (value_hexText n) 0x2D (by rw [hds]; exact List.mem_cons_self)
  cases hdigit

theorem parseTid_hexText (pid tid : UInt32) (before : List UInt8) (lastSep : UInt8) (behind : List UInt8) :
    parseTid pid (before ++ (hexText tid.toNat ++ 0 :: behind)) lastSep before.length =
      if pid = allPids ∧ tid ≠ 0 then none else some (pid, tid, before.length + (hexText tid.toNat).length) := by
  unfold parseTid
  rw [List.drop_left, if_neg (show ¬ascii "-1" <+: _ from not_minus_hexText _ _ _),
    parseHexIntegerList_one (hexText_ne_nil _) (value_hexText _) tid.toNat_lt (ends_nul behind), if_pos (.inr rfl)]
  simp only [UInt32.ofNat_toNat]

theorem roundTrips_iff {tid : UInt32} (htid : tid ≠ 0) (form : ThreadIdForm) (lastSep : UInt8) (behind : List UInt8) :
    RoundTrips form tid lastSep behind ↔ form.pid ≠ allPids := by
  unfold RoundTrips encodeThreadId parseThreadId
  by_cases hmulti : form.multiprocessExtEnabled = true
  · rw [if_pos hmulti]
    have hbefore : ascii "p" ++ hexText (form.pid + 1).toNat ++ ascii "." ++ hexText tid.toNat ++ 0 :: behind =
        (0x70 :: (hexText (form.pid + 1).toNat ++ [0x2E])) ++ (hexText tid.toNat ++ 0 :: behind) := by
      simp [ascii]
    have hdrop : ((0x70 :: (hexText (form.pid + 1).toNat ++ [0x2E])) ++ (hexText tid.toNat ++ 0 :: behind)).drop 1 =
        hexText (form.pid + 1).toNat ++ 0x2E :: (hexText tid.toNat ++ 0 :: behind) := by
      simp
    have hpid : parsePid form ((0x70 :: (hexText (form.pid + 1).toNat ++ [0x2E])) ++ (hexText tid.toNat ++ 0 :: behind)) =
        some (form.pid, (0x70 :: (hexText (form.pid + 1).toNat ++ [0x2E])).length) := by
      unfold parsePid
      rw [if_pos hmulti, hdrop, if_neg (show ¬ascii "-1." <+: _ from not_minus_hexText _ _ _),
        parseHexIntegerList_one (hexText_ne_nil _) (value_hexText _) (UInt32.toNat_lt _) (ends_dot _), if_pos (.inl rfl)]
      simp only [UInt32.ofNat_toNat, UInt32.add_sub_cancel, List.length_cons, List.length_append, List.length_nil]
      rw [Nat.add_comm 1]
    rw [hbefore, if_neg (by simp [isBare]), hpid, Option.bind_some]
    dsimp only
    rw [parseTid_hexText]
    by_cases hall : form.pid = allPids
    · rw [if_pos ⟨hall, htid⟩]
      simp [hall]
    · rw [if_neg (fun h => hall h.1)]
      refine iff_of_true (congrArg (fun n => some (form.pid, tid, n)) ?_) hall
      simp only [ascii, List.length_append, List.length_cons, List.length_nil, List.length_map, String.length_toList]
      show (hexText (form.pid + 1).toNat).length + 1 + 1 + _ = 1 + _ + 1 + _
      omega
  · have hpid : ∀ s, parsePid form s = some (form.pid, 0) := fun s => if_neg hmulti
    have htext := parseTid_hexText form.pid tid [] lastSep behind
    rw [List.nil_append, List.length_nil, Nat.zero_add] at htext
    rw [if_neg hmulti, if_neg (by simp [isBare, hmulti]), hpid, Option.bind_some]
    dsimp only
    rw [htext]
    by_cases hall : form.pid = allPids
    · rw [if_pos ⟨hall, htid⟩]
      simp [hall]
    · rw [if_neg (fun h => hall h.1)]
      simp [hall]

/-- Of a thread the text is read again, unless its process is the one with the id that stands for all; and a string is read as it
should be exactly if a process in it has a `.` behind it, and a thread `-1` a separator or the terminator. -/
theorem threadIds_iff (form : ThreadIdForm) (tid : UInt32) (text : List UInt8) (lastSep : UInt8) (behind : List UInt8) :
    (tid ≠ 0 → (RoundTrips form tid lastSep behind ↔ form.pid ≠ allPids)) ∧
      (ReadsThreadId form text lastSep behind ↔ ThreadIdWhole form text lastSep) :=
  ⟨fun htid => roundTrips_iff htid form lastSep behind, readsThreadId_iff form text lastSep behind⟩

/-- After `p1` without a `.` the reader goes on behind the terminator, and `-1x` is accepted with the `x` as what is behind it. -/
theorem truncated_read_behind :
    ¬ReadsThreadId ⟨true, 0⟩ (ascii "p1") 0x3B [] ∧ ¬ReadsThreadId ⟨false, 0⟩ (ascii "-1x") 0x3B [] := by
  rw [readsThreadId_iff, readsThreadId_iff]
  constructor
  · intro h
    have hpos := (h (by decide +kernel) 0 3 (by decide +kernel)).1
    exact absurd hpos (by decide)
  · intro h
    have hend := (h (by decide +kernel) 0 0 (by decide +kernel)).2 (by decide +kernel)
    exact absurd hend (by decide +kernel)

end Omiiba.Rosalina
