/-
The way of a cheat through its code. As long as the lines of loops and byte blocks fit in the bytes
that hold them, every turn comes closer to the end: a loop is entered further down, a turn of it is
used up, or the line moves on.
-/
import Omiiba.Rosalina.CheatLines

namespace Omiiba.Rosalina

/-! ## Codes -/

/-- The line of a loop fits in an `s8`, and the lines of a byte block fit in a `u8`. -/
def FitsLine (code : UInt64) (index : Nat) : Prop :=
  (BeginsLoop code → index < 2 ^ 7) ∧ (typeOf code = 0xE → index + (code.toUInt32.toNat + 7) / 8 < 2 ^ 8)

instance (code : UInt64) (index : Nat) : Decidable (FitsLine code index) := inferInstanceAs (Decidable (_ ∧ _))

/-! ## Moves -/

/-- How a line can take the interpreter on, before its index is incremented. -/
inductive Move (code : UInt64) (s s' : CheatState) : Prop
  /-- Onwards; the loop is as it was, or over. -/
  | onward (index : s.index.toNat ≤ s'.index.toNat ∧ s'.index.toNat < 2 ^ 30)
      (loop : (s'.loopLine = s.loopLine ∧ s'.loopCount = s.loopCount) ∨ s'.loopCount = 0)
  /-- Into a loop. -/
  | enter (begins : BeginsLoop code) (index : s'.index = s.index) (line : s'.loopLine = s.index.toUInt8.toInt8)
  /-- Back to the line of the loop, for one turn less. -/
  | turn (terminator : IsTerminator code) (line : s.loopLine ≠ -1) (index : s'.index = lineIndex s.loopLine)
      (same : s'.loopLine = s.loopLine) (count : s'.loopCount = s.loopCount - 1) (more : s'.loopCount ≠ 0)
      (some : s.loopCount ≠ 0)

section

variable {ω : Type} {m : Machine ω} {codes : List UInt64} {code : UInt64} {vm vm' : Vm ω}

/-- The position is kept. -/
def Positioned (vm vm' : Vm ω) : Prop := vm'.state.position = vm.state.position

instance : Std.Refl (Positioned (ω := ω)) := ⟨fun _ => rfl⟩

instance : IsTrans (Vm ω) Positioned := ⟨fun _ _ _ h h' => h'.trans h⟩

theorem steady_positioned (vm vm' : Vm ω) (h : Steady vm vm') : Positioned vm vm' := congrArg Prod.fst h

theorem Positioned.move (hindex : vm.state.index.toNat < 2 ^ 30) (h : Positioned vm vm') :
    Move code vm.state vm'.state := by
  have hi : vm'.state.index = vm.state.index := congrArg Prod.fst h
  have hl : vm'.state.loopLine = vm.state.loopLine := congrArg (fun p => p.2.1) h
  have hc : vm'.state.loopCount = vm.state.loopCount := congrArg (fun p => p.2.2.1) h
  refine .onward ?_ (Or.inl ⟨hl, hc⟩)
  rw [hi]
  exact ⟨le_refl _, hindex⟩

/-! ## Loops -/

/-- A line below 128 is not changed by the `s8` that holds it. -/
theorem lineIndex_of_lt {index : UInt32} (h : index.toNat < 2 ^ 7) :
    lineIndex index.toUInt8.toInt8 = index ∧ index.toUInt8.toInt8 ≠ -1 := by
  have hall : ∀ n : Fin (2 ^ 7), lineIndex (UInt32.ofNat n).toUInt8.toInt8 = UInt32.ofNat n ∧
      (UInt32.ofNat n).toUInt8.toInt8 ≠ -1 := by
    decide +kernel
  have hn := hall ⟨index.toNat, h⟩
  rwa [UInt32.ofNat_toNat] at hn

theorem typeC_move (hindex : vm.state.index.toNat < 2 ^ 30) (hc : typeOf code = 0xC) {arg1 : UInt32}
    (h : Runs (typeC (subcodeOf code) arg1) vm () vm') : Move code vm.state vm'.state := by
  unfold typeC at h
  dsimp only at h
  split at h
  · next hsub =>
    obtain rfl := runs_modify_iff.mp h
    exact .enter ⟨hc, by omega⟩ rfl rfl
  · next hsub =>
    obtain rfl := runs_modify_iff.mp h
    exact .enter ⟨hc, by omega⟩ rfl rfl
  · next hsub =>
    obtain rfl := runs_modify_iff.mp h
    exact .enter ⟨hc, by omega⟩ rfl rfl
  · obtain ⟨-, rfl⟩ := runs_pure_iff.mp h
    exact Positioned.move hindex rfl

/-- A turn used up: back, or out of the loop. -/
theorem turn_move {s t : CheatState} (hindex : s.index.toNat < 2 ^ 30) (ht : IsTerminator code)
    (hline : s.loopLine ≠ -1) (hcount : s.loopCount ≠ 0)
    (hs : t.index = s.index ∧ t.loopLine = s.loopLine ∧ t.loopCount = s.loopCount) :
    Move code s t.turn := by
  obtain ⟨hi, hl, hc⟩ := hs
  unfold CheatState.turn
  dsimp only
  by_cases hlast : t.loopCount - 1 = 0
  · rw [if_pos hlast]
    refine .onward ?_ (Or.inr hlast)
    show s.index.toNat ≤ t.index.toNat ∧ t.index.toNat < 2 ^ 30
    rw [hi]
    exact ⟨le_refl _, hindex⟩
  · rw [if_neg hlast, if_pos (by rw [hl]; exact hline)]
    refine .turn ht hline ?_ hl ?_ hlast hcount
    · show lineIndex t.loopLine = _
      rw [hl]
    · show t.loopCount - 1 = _
      rw [hc]

theorem skipLoop_onward : ∀ {n : Nat} {vm vm' : Vm ω}, vm.state.index.toNat ≤ codes.length →
    codes.length < 2 ^ 29 → Runs (skipLoop m codes n) vm () vm' →
    vm.state.index.toNat ≤ vm'.state.index.toNat ∧ vm'.state.index.toNat ≤ codes.length ∧
      vm'.state.loopCount = vm.state.loopCount
  | 0, vm, vm', hindex, hlen, h => by
    obtain ⟨-, rfl⟩ := runs_pure_iff.mp h
    exact ⟨le_refl _, hindex, rfl⟩
  | n + 1, vm, vm', hindex, hlen, h => by
    unfold skipLoop at h
    obtain ⟨_, _, hget, h⟩ := h.of_bind
    obtain ⟨rfl, rfl⟩ := runs_get_iff.mp hget
    dsimp only at h
    split at h
    · next hlt =>
      obtain ⟨word, vm₁, hcode, h⟩ := h.of_bind
      have hpos := steady_positioned _ _ (hcode.ensures (codeAt_steady _))
      obtain ⟨_, vm₂, hmodify, h⟩ := h.of_bind
      obtain rfl := runs_modify_iff.mp hmodify
      have hnext : (vm.state.index + 1).toNat = vm.state.index.toNat + 1 := by
        rw [UInt32.toNat_add, Nat.mod_eq_of_lt (by simp; omega)]
        rfl
      have hcount : vm₁.state.loopCount = vm.state.loopCount := congrArg (fun p => p.2.2.1) hpos
      split at h
      · obtain ⟨-, rfl⟩ := runs_pure_iff.mp h
        show _ ≤ (vm.state.index + 1).toNat ∧ (vm.state.index + 1).toNat ≤ _ ∧ vm₁.state.loopCount = _
        rw [hnext]
        exact ⟨by omega, by omega, hcount⟩
      · obtain ⟨hle, hlen', hsame⟩ := skipLoop_onward (by
          show (vm.state.index + 1).toNat ≤ codes.length
          omega) hlen h
        have hle' : (vm.state.index + 1).toNat ≤ vm'.state.index.toNat := hle
        exact ⟨by omega, hlen', hsame.trans hcount⟩
    · obtain ⟨-, rfl⟩ := runs_pure_iff.mp h
      exact ⟨le_refl _, hindex, rfl⟩

theorem typeD0_move (hindex : vm.state.index.toNat < codes.length) (hlen : codes.length < 2 ^ 29)
    (ht : IsTerminator code) {skip : Bool} {arg1 : UInt32} (h : Runs (typeD0 m codes skip arg1) vm () vm') :
    Move code vm.state vm'.state := by
  have hsmall : vm.state.index.toNat < 2 ^ 30 := by omega
  unfold typeD0 at h
  split at h
  · obtain rfl := runs_modify_iff.mp h
    have hkeep : ∀ s : CheatState, s.position = vm.state.position → Move code vm.state s :=
      fun s hs => Positioned.move hsmall (show Positioned vm { vm with state := s } from hs)
    dsimp only
    split_ifs with hline hif hcount hif
    · exact hkeep _ rfl
    · exact turn_move hsmall ht hline (fun hz => by rw [hz] at hcount; exact absurd hcount (by decide)) ⟨rfl, rfl, rfl⟩
    · exact hkeep _ rfl
    · exact hkeep _ rfl
    · exact hkeep _ rfl
  · split at h
    · obtain ⟨_, vm₁, hmodify, h⟩ := h.of_bind
      obtain rfl := runs_modify_iff.mp hmodify
      have hnext : (vm.state.index + 1).toNat = vm.state.index.toNat + 1 := by
        rw [UInt32.toNat_add, Nat.mod_eq_of_lt (by simp; omega)]
        rfl
      obtain ⟨hle, hlen', hsame⟩ := skipLoop_onward (by
        show (vm.state.index + 1).toNat ≤ codes.length
        omega) hlen h
      have hle' : (vm.state.index + 1).toNat ≤ vm'.state.index.toNat := hle
      exact .onward ⟨by omega, by omega⟩ (Or.inr hsame)
    · obtain ⟨-, rfl⟩ := runs_pure_iff.mp h
      exact Positioned.move hsmall rfl

theorem typeD1_move (hindex : vm.state.index.toNat < 2 ^ 30) (ht : IsTerminator code)
    (hline : vm.state.loopCount ≠ 0 → vm.state.loopLine ≠ -1) (h : Runs (typeD1 (ω := ω)) vm () vm') :
    Move code vm.state vm'.state := by
  obtain rfl := runs_modify_iff.mp h
  dsimp only
  split_ifs with hcount
  · have hne : vm.state.loopCount ≠ 0 := fun hz => by
      rw [hz] at hcount
      exact absurd hcount (by decide)
    exact turn_move hindex ht (hline hne) hne ⟨rfl, rfl, rfl⟩
  · exact Positioned.move hindex (show Positioned vm vm from rfl)

theorem CheatState.clear_position (s : CheatState) : s.clear.position = s.position := by
  show ((s.setData 0).setOffset 0).position = _
  exact congrArg Prod.fst (by simp : ((s.setData 0).setOffset 0).control = s.control)

theorem typeD2_move (hindex : vm.state.index.toNat < codes.length) (hlen : codes.length < 2 ^ 29)
    (ht : IsTerminator code) (hline : vm.state.loopCount ≠ 0 → vm.state.loopLine ≠ -1) {skip : Bool} {arg1 : UInt32}
    (h : Runs (typeD2 codes skip arg1) vm () vm') : Move code vm.state vm'.state := by
  have hsmall : vm.state.index.toNat < 2 ^ 30 := by omega
  unfold typeD2 at h
  split at h
  · obtain rfl := runs_modify_iff.mp h
    dsimp only
    split_ifs with hcount hlast
    · -- the last turn: also offset and data are cleared
      have hpos := vm.state.turn.clear_position
      have hturn : vm.state.turn = { vm.state with loopCount := vm.state.loopCount - 1, loopLine := -1 } := if_pos hlast
      have hi : vm.state.turn.clear.index = vm.state.index := (congrArg Prod.fst hpos).trans (by rw [hturn]; rfl)
      have hc : vm.state.turn.clear.loopCount = 0 :=
        (congrArg (fun p => p.2.2.1) hpos).trans (by rw [hturn]; exact hlast)
      refine .onward ?_ (Or.inr hc)
      rw [hi]
      exact ⟨le_refl _, hsmall⟩
    · have hne : vm.state.loopCount ≠ 0 := fun hz => by
        rw [hz] at hcount
        exact absurd hcount (by decide)
      exact turn_move hsmall ht (hline hne) hne ⟨rfl, rfl, rfl⟩
    · exact Positioned.move hsmall (show Positioned vm { vm with state := vm.state.clear } from vm.state.clear_position)
  · split at h
    · obtain rfl := runs_modify_iff.mp h
      have hend : (UInt32.ofNat codes.length).toNat = codes.length := by
        rw [UInt32.toNat_ofNat', Nat.mod_eq_of_lt (by omega)]
      refine .onward ?_ (Or.inl ⟨rfl, rfl⟩)
      show _ ≤ (UInt32.ofNat codes.length).toNat ∧ (UInt32.ofNat codes.length).toNat < _
      rw [hend]
      exact ⟨hindex.le, by omega⟩
    · obtain ⟨-, rfl⟩ := runs_pure_iff.mp h
      exact Positioned.move hsmall rfl

theorem typeD_move (hindex : vm.state.index.toNat < codes.length) (hlen : codes.length < 2 ^ 29)
    (ht : IsTerminator code) (hline : vm.state.loopCount ≠ 0 → vm.state.loopLine ≠ -1) {skip : Bool}
    {codeArg arg1 : UInt32} (h : Runs (typeD m codes skip (subcodeOf code) codeArg arg1) vm () vm') :
    Move code vm.state vm'.state := by
  have hcases : (subcodeOf code).toNat = 0 ∨ (subcodeOf code).toNat = 1 ∨ (subcodeOf code).toNat = 2 := by
    have hle := ht.2
    omega
  unfold typeD at h
  rcases hcases with hsub | hsub | hsub
  · rw [hsub] at h
    exact typeD0_move hindex hlen ht h
  · rw [hsub] at h
    exact typeD1_move (by omega) ht hline h
  · rw [hsub] at h
    exact typeD2_move hindex hlen ht hline h

/-! ## Blocks -/

/-- The next byte of a block. -/
def CheatState.nextTypeE (s : CheatState) : CheatState :=
  if s.typeEIdx = 7 then { s with typeEIdx := 0, typeELine := s.typeELine + 1 } else { s with typeEIdx := s.typeEIdx + 1 }

theorem getNextTypeE_state {byte : UInt8} (h : Runs (getNextTypeE m codes) vm byte vm') :
    vm'.state = vm.state.nextTypeE := by
  obtain ⟨_, vm₁, hmodify, h⟩ := h.of_bind
  obtain rfl := runs_modify_iff.mp hmodify
  obtain ⟨_, _, hget, h⟩ := h.of_bind
  obtain ⟨rfl, rfl⟩ := runs_get_iff.mp hget
  obtain ⟨word, vm₂, hcode, h⟩ := h.of_bind
  obtain ⟨-, rfl⟩ := runs_pure_iff.mp h
  obtain ⟨_, vm₃, hrecord, hcode⟩ := hcode.of_bind
  obtain rfl := runs_modify_iff.mp hrecord
  obtain ⟨-, rfl⟩ := runs_pure_iff.mp hcode
  rfl

theorem CheatState.nextTypeE_line (s : CheatState) (hidx : s.typeEIdx.toNat ≤ 7) (n : Nat) :
    s.nextTypeE.typeEIdx.toNat ≤ 7 ∧
      s.nextTypeE.typeELine + UInt8.ofNat ((s.nextTypeE.typeEIdx.toNat + n) / 8) =
        s.typeELine + UInt8.ofNat ((s.typeEIdx.toNat + (n + 1)) / 8) := by
  unfold nextTypeE
  by_cases hlast : s.typeEIdx = 7
  · -- a new line
    rw [if_pos hlast]
    refine ⟨Nat.zero_le 7, ?_⟩
    have hdiv : (s.typeEIdx.toNat + (n + 1)) / 8 = 1 + (UInt8.toNat 0 + n) / 8 := by
      rw [hlast]
      simp
      omega
    rw [hdiv, UInt8.ofNat_add, ← UInt8.add_assoc]
    rfl
  · rw [if_neg hlast]
    have hlt : s.typeEIdx.toNat < 7 := by
      refine lt_of_le_of_ne hidx fun he => hlast ?_
      exact UInt8.toNat_inj.mp he
    have hadd : (s.typeEIdx + 1).toNat = s.typeEIdx.toNat + 1 := by
      rw [UInt8.toNat_add, Nat.mod_eq_of_lt (by simp; omega)]
      rfl
    dsimp only
    rw [hadd, Nat.add_assoc, Nat.add_comm 1 n]
    exact ⟨hlt, rfl⟩

theorem CheatState.nextTypeE_loop (s : CheatState) :
    s.nextTypeE.loopLine = s.loopLine ∧ s.nextTypeE.loopCount = s.loopCount := by
  unfold nextTypeE
  split <;> exact ⟨rfl, rfl⟩

/-- The line of a byte block after `n` more bytes. -/
theorem typeELoop_line : ∀ {n : Nat} {i : UInt32} {skip : Bool} {beginOffset : UInt32} {vm vm' : Vm ω},
    vm.state.typeEIdx.toNat ≤ 7 → Runs (typeELoop m codes skip beginOffset n i) vm () vm' →
    vm'.state.typeELine = vm.state.typeELine + UInt8.ofNat ((vm.state.typeEIdx.toNat + n) / 8) ∧
      vm'.state.loopLine = vm.state.loopLine ∧ vm'.state.loopCount = vm.state.loopCount
  | 0, i, skip, beginOffset, vm, vm', hidx, h => by
    obtain ⟨-, rfl⟩ := runs_pure_iff.mp h
    rw [Nat.add_zero, Nat.div_eq_of_lt (by omega)]
    simp
  | n + 1, i, skip, beginOffset, vm, vm', hidx, h => by
    unfold typeELoop at h
    obtain ⟨byte, vm₁, hnext, h⟩ := h.of_bind
    obtain ⟨_, vm₂, hwrite, h⟩ := h.of_bind
    have hpos : vm₂.state.position = vm₁.state.position :=
      (hwrite.ensures (unlessSkipped_ensures skip fun _ => write8_quiet _ _)).plain.position
    rw [getNextTypeE_state hnext] at hpos
    have hl : vm₂.state.typeELine = vm.state.nextTypeE.typeELine := congrArg (fun p => p.2.2.2.1) hpos
    have hi : vm₂.state.typeEIdx = vm.state.nextTypeE.typeEIdx := congrArg (fun p => p.2.2.2.2) hpos
    have hloop : vm₂.state.loopLine = vm.state.nextTypeE.loopLine := congrArg (fun p => p.2.1) hpos
    have hcount : vm₂.state.loopCount = vm.state.nextTypeE.loopCount := congrArg (fun p => p.2.2.1) hpos
    obtain ⟨hidx', hline'⟩ := vm.state.nextTypeE_line hidx n
    obtain ⟨hline, hsame⟩ := typeELoop_line (by rw [hi]; exact hidx') h
    rw [hline, hl, hi, hline', hsame.1, hsame.2, hloop, hcount]
    exact ⟨rfl, vm.state.nextTypeE_loop⟩

/-- Behind a byte block the line is the last one of its bytes, as a `u8`. -/
theorem typeE_line {skip : Bool} {arg0 arg1 : UInt32} (h : Runs (typeE m codes skip arg0 arg1) vm () vm') :
    vm'.state.index = (vm.state.index.toUInt8 + UInt8.ofNat ((7 + arg1.toNat) / 8)).toUInt32 ∧
      vm'.state.loopLine = vm.state.loopLine ∧ vm'.state.loopCount = vm.state.loopCount := by
  unfold typeE at h
  obtain ⟨_, vm₁, hmodify, h⟩ := h.of_bind
  obtain rfl := runs_modify_iff.mp hmodify
  obtain ⟨_, vm₂, hloop, h⟩ := h.of_bind
  obtain rfl := runs_modify_iff.mp h
  obtain ⟨hline, hsame, hcount⟩ := typeELoop_line (show (7 : UInt8).toNat ≤ 7 by decide) hloop
  exact ⟨congrArg UInt8.toUInt32 hline, hsame, hcount⟩

theorem typeE_move (hindex : vm.state.index.toNat < 2 ^ 30) {skip : Bool} {arg0 arg1 : UInt32}
    (hfits : vm.state.index.toNat + (arg1.toNat + 7) / 8 < 2 ^ 8) (h : Runs (typeE m codes skip arg0 arg1) vm () vm') :
    Move code vm.state vm'.state := by
  obtain ⟨hline, hsame, hcount⟩ := typeE_line h
  have hbyte : vm.state.index.toUInt8.toNat = vm.state.index.toNat := by
    rw [UInt32.toNat_toUInt8, Nat.mod_eq_of_lt (by omega)]
  have hend : vm'.state.index.toNat = vm.state.index.toNat + (arg1.toNat + 7) / 8 := by
    rw [hline, UInt8.toNat_toUInt32, UInt8.toNat_add, UInt8.toNat_ofNat', hbyte]
    omega
  refine .onward ?_ (Or.inl ⟨hsame, hcount⟩)
  omega

/-- A condition is evaluated: the line moves on behind a pattern that is searched, and else not at all. -/
theorem evaluate_onward (hc : IsConditional code) (hindex : vm.state.index.toNat < codes.length)
    (hlen : codes.length < 2 ^ 29) {skip holds : Bool}
    (h : Runs (evaluate m codes skip (code >>> 32).toUInt32 code.toUInt32) vm holds vm') :
    vm.state.index.toNat ≤ vm'.state.index.toNat ∧ vm'.state.index.toNat < 2 ^ 30 := by
  by_cases hsearch : IsSearch code
  · rw [evaluate_search hsearch] at h
    generalize (code >>> 32).toUInt32 = arg0 at h
    obtain ⟨-, hcontrol⟩ := patternFound_control h
    have hi : vm'.state.index = if skip then vm.state.index
        else vm.state.index + (arg0 &&& 0xFFFF) / 8 + (if (arg0 &&& 0xFFFF) &&& 7 ≠ 0 then 1 else 0) :=
      congrArg (fun p => p.1.1) hcontrol
    rw [hi]
    split
    · omega
    · have hsize : (arg0 &&& 0xFFFF).toNat ≤ 0xFFFF := by
        rw [UInt32.toNat_and]
        exact Nat.and_le_right
      have hone : (if (arg0 &&& 0xFFFF) &&& 7 ≠ 0 then (1 : UInt32) else 0).toNat ≤ 1 := by
        split <;> decide
      have hdiv : ((arg0 &&& 0xFFFF) / 8).toNat = (arg0 &&& 0xFFFF).toNat / 8 := UInt32.toNat_div _ _
      rw [UInt32.toNat_add, UInt32.toNat_add, hdiv]
      omega
  · have hi : vm'.state.index = vm.state.index :=
      congrArg (fun p => p.1.1) (h.ensures (evaluate_quiet hc hsearch)).control
    rw [hi]
    omega

theorem conditional_move (hc : IsConditional code) (hindex : vm.state.index.toNat < codes.length)
    (hlen : codes.length < 2 ^ 29) {skip : Bool}
    (h : Runs (execute m codes skip (code >>> 32).toUInt32 code.toUInt32) vm () vm') : Move code vm.state vm'.state := by
  rw [execute_conditional skip hc] at h
  obtain ⟨holds, vm₁, heval, h⟩ := h.of_bind
  obtain rfl := runs_modify_iff.mp h
  have hcontrol := evaluate_control hc heval
  have honward := evaluate_onward hc hindex hlen heval
  exact .onward honward
    (Or.inl ⟨congrArg (fun p => p.1.2.1) hcontrol, congrArg (fun p => p.1.2.2.1) hcontrol⟩)

/-! ## Steps -/

/-- A line moves the interpreter in one of the three ways. -/
theorem execute_move {skip : Bool}
    (h : Runs (execute m codes skip (code >>> 32).toUInt32 code.toUInt32) vm () vm')
    (hindex : vm.state.index.toNat < codes.length) (hlen : codes.length < 2 ^ 29)
    (hfits : FitsLine code vm.state.index.toNat) (hline : vm.state.loopCount ≠ 0 → vm.state.loopLine ≠ -1) :
    Move code vm.state vm'.state := by
  have hsmall : vm.state.index.toNat < 2 ^ 30 := by omega
  rcases line_cases code with hc | hc | hc | hc | hc
  · have hkeep : Steady vm vm' := h.ensures (execute_steady hc)
    exact Positioned.move hsmall (steady_positioned _ _ hkeep)
  · exact conditional_move hc hindex hlen h
  · rw [execute_typeC hc.1] at h
    exact typeC_move hsmall hc.1 h
  · rw [execute_typeD hc.1] at h
    exact typeD_move hindex hlen hc hline h
  · rw [execute_typeE hc] at h
    exact typeE_move hsmall (hfits.2 hc) h

/-- The code of the line the interpreter is at. -/
def codeOf (codes : List UInt64) (s : CheatState) : UInt64 := (codes[s.index.toNat]?).getD 0

theorem step_move (hindex : vm.state.index.toNat < codes.length) (hlen : codes.length < 2 ^ 29)
    (hfits : FitsLine (codeOf codes vm.state) vm.state.index.toNat)
    (hline : vm.state.loopCount ≠ 0 → vm.state.loopLine ≠ -1) (h : Runs (step m codes) vm () vm') :
    ∃ s, Move (codeOf codes vm.state) vm.state s ∧ vm'.state = { s with index := s.index + 1 } := by
  unfold step at h
  obtain ⟨_, _, hget, h⟩ := h.of_bind
  obtain ⟨rfl, rfl⟩ := runs_get_iff.mp hget
  obtain ⟨code, vm₁, hcode, h⟩ := h.of_bind
  obtain ⟨_, vm₂, hrecord, hcode⟩ := hcode.of_bind
  obtain rfl := runs_modify_iff.mp hrecord
  obtain ⟨hword, rfl⟩ := runs_pure_iff.mp hcode
  have hcodeOf : code = codeOf codes vm.state := by
    unfold codeOf
    rw [← hword, List.getElem?_eq_getElem hindex]
    rfl
  dsimp only at h
  split at h
  · exact absurd h not_runs_throw
  · obtain ⟨_, vm₃, hexecute, h⟩ := h.of_bind
    obtain rfl := runs_modify_iff.mp h
    rw [hcodeOf] at hexecute
    have hmove := execute_move hexecute hindex hlen hfits hline
    exact ⟨vm₃.state, hmove, rfl⟩

/-- While turns of a loop are left, its line is before the interpreter, and begins it. -/
def InLoop (codes : List UInt64) (s : CheatState) : Prop :=
  s.loopCount ≠ 0 → s.loopLine ≠ -1 ∧ (lineIndex s.loopLine).toNat < s.index.toNat ∧
    ∃ code, codes[(lineIndex s.loopLine).toNat]? = some code ∧ BeginsLoop code

/-- The line of the loop or, outside of loops, of the interpreter; the turns left; the line. Each is
counted to the end. -/
def remaining (codes : List UInt64) (s : CheatState) : ℕ ×ₗ ℕ ×ₗ ℕ :=
  toLex (if s.loopCount = 0 then codes.length - s.index.toNat else codes.length - ((lineIndex s.loopLine).toNat + 1),
    toLex (s.loopCount.toNat, codes.length - s.index.toNat))

/-- A terminator takes a turn of its loop, and goes back to the line behind the one that begins it. -/
structure TurnBack (codes : List UInt64) (s s' : CheatState) : Prop where
  terminator : IsTerminator (codeOf codes s)
  begins : ∃ code, codes[(lineIndex s.loopLine).toNat]? = some code ∧ BeginsLoop code
  index : s'.index.toNat = (lineIndex s.loopLine).toNat + 1
  count : s'.loopCount.toNat + 1 = s.loopCount.toNat

theorem Move.closer {s s' : CheatState} (hindex : s.index.toNat < codes.length) (hlen : codes.length < 2 ^ 29)
    (hfits : FitsLine (codeOf codes s) s.index.toNat) (hloop : InLoop codes s) (h : Move (codeOf codes s) s s') :
    InLoop codes { s' with index := s'.index + 1 } ∧
      remaining codes { s' with index := s'.index + 1 } < remaining codes s ∧
      (s.index.toNat < (s'.index + 1).toNat ∨ TurnBack codes s { s' with index := s'.index + 1 }) := by
  have hinc : s'.index.toNat < 2 ^ 30 → (s'.index + 1).toNat = s'.index.toNat + 1 := by
    intro hlt
    rw [UInt32.toNat_add, Nat.mod_eq_of_lt (by simp; omega)]
    rfl
  unfold remaining
  rw [Prod.Lex.toLex_lt_toLex, Prod.Lex.toLex_lt_toLex]
  dsimp only
  cases h with
  | onward hi hsame =>
    rw [hinc hi.2]
    rcases hsame with ⟨hl, hc⟩ | hc
    · refine ⟨?_, ?_, Or.inl (by omega)⟩
      · intro hne
        obtain ⟨hline, hlt, hbegins⟩ := hloop (by rwa [← hc])
        dsimp only
        rw [hl, hinc hi.2]
        exact ⟨hline, by omega, hbegins⟩
      · rw [hl, hc]
        split_ifs
        · left
          omega
        · right
          exact ⟨rfl, Or.inr ⟨rfl, by omega⟩⟩
    · refine ⟨fun hne => absurd hc hne, Or.inl ?_, Or.inl (by omega)⟩
      rw [if_pos hc]
      split_ifs with hz
      · omega
      · obtain ⟨-, hlt, -⟩ := hloop hz
        omega
  | enter hbegins hi hl =>
    obtain ⟨hline, hne⟩ := lineIndex_of_lt (hfits.1 hbegins)
    have hinc' := hinc (by rw [hi]; omega)
    rw [hi] at hinc'
    rw [hi, hinc']
    refine ⟨?_, Or.inl ?_, Or.inl (by omega)⟩
    · intro _
      dsimp only
      rw [hl, hline, hinc']
      refine ⟨hne, by omega, _, List.getElem?_eq_getElem hindex, ?_⟩
      unfold codeOf at hbegins
      rwa [List.getElem?_eq_getElem hindex] at hbegins
    · rw [hl, hline]
      split_ifs with hz' hz
      · omega
      · obtain ⟨-, hlt, -⟩ := hloop (by assumption)
        omega
      · omega
      · obtain ⟨-, hlt, -⟩ := hloop (by assumption)
        omega
  | turn ht hline hi hl hc hmore hsome =>
    obtain ⟨-, hlt, hbegins⟩ := hloop hsome
    have hinc' := hinc (by rw [hi]; omega)
    have hpos : s.loopCount.toNat ≠ 0 := fun hz => hsome (UInt32.toNat_inj.mp hz)
    have hcount : s'.loopCount.toNat + 1 = s.loopCount.toNat := by
      rw [hc, UInt32.toNat_sub_of_le _ _ (by rw [UInt32.le_iff_toNat_le]; simp; omega)]
      simp
      omega
    refine ⟨?_, Or.inr ?_, Or.inr ⟨ht, hbegins, ?_, hcount⟩⟩
    · intro _
      dsimp only
      rw [hl, hinc', hi]
      exact ⟨hline, by omega, hbegins⟩
    · rw [if_neg hmore, if_neg hsome, hl]
      exact ⟨rfl, Or.inl (by omega)⟩
    · show (s'.index + 1).toNat = _
      rw [hinc', hi]

/-! ## Runs -/

/-- The loop of `Cheat_ApplyCheat` comes from one state to another. -/
inductive Reaches (m : Machine ω) (codes : List UInt64) : Vm ω → Vm ω → Prop
  | refl (vm : Vm ω) : Reaches m codes vm vm
  | step {vm vm₁ vm₂ : Vm ω} (index : vm.state.index.toNat < codes.length) (run : Runs (step m codes) vm () vm₁)
      (rest : Reaches m codes vm₁ vm₂) : Reaches m codes vm vm₂

/-- Every line that the interpreter comes to from a state fits in the bytes for it. -/
def LinesFit (m : Machine ω) (codes : List UInt64) (vm : Vm ω) : Prop :=
  ∀ vm', Reaches m codes vm vm' → vm'.state.index.toNat < codes.length →
    FitsLine (codeOf codes vm'.state) vm'.state.index.toNat

theorem step_closer (hindex : vm.state.index.toNat < codes.length) (hlen : codes.length < 2 ^ 29)
    (hfits : LinesFit m codes vm) (hloop : InLoop codes vm.state) (h : Runs (step m codes) vm () vm') :
    InLoop codes vm'.state ∧ remaining codes vm'.state < remaining codes vm.state ∧
      (vm.state.index.toNat < vm'.state.index.toNat ∨ TurnBack codes vm.state vm'.state) := by
  have hfit := hfits vm (.refl vm) hindex
  obtain ⟨s, hmove, hs⟩ := step_move hindex hlen hfit (fun hne => (hloop hne).1) h
  rw [hs]
  exact hmove.closer hindex hlen hfit hloop

theorem LinesFit.step (hfits : LinesFit m codes vm) (hindex : vm.state.index.toNat < codes.length)
    (h : Runs (step m codes) vm () vm') : LinesFit m codes vm' :=
  fun vm₂ hreach => hfits vm₂ (.step hindex h hreach)

theorem LinesFit.reaches (hreach : Reaches m codes vm vm') (hlen : codes.length < 2 ^ 29) :
    LinesFit m codes vm → InLoop codes vm.state → LinesFit m codes vm' ∧ InLoop codes vm'.state := by
  induction hreach with
  | refl vm => exact fun hfits hloop => ⟨hfits, hloop⟩
  | step hindex hrun hrest ih =>
    intro hfits hloop
    exact ih (hfits.step hindex hrun) (step_closer hindex hlen hfits hloop hrun).1

/-- The loop ends, by induction on what remains. -/
theorem applyLoop_returns (hlen : codes.length < 2 ^ 29) (r : ℕ ×ₗ ℕ ×ₗ ℕ) : ∀ vm : Vm ω,
    remaining codes vm.state = r → LinesFit m codes vm → InLoop codes vm.state →
    ∃ fuel result, applyLoop m codes fuel vm = some result := by
  induction r using WellFoundedLT.induction with
  | ind r ih =>
    rintro vm rfl hfits hloop
    by_cases hindex : vm.state.index.toNat < codes.length
    · rcases hrun : (step m codes).run.run vm with ⟨u | u, vm'⟩
      · refine ⟨1, (0, vm'), ?_⟩
        unfold applyLoop
        rw [if_pos hindex, hrun]
      · have hstep : Runs (step m codes) vm () vm' := hrun
        obtain ⟨hloop', hless, -⟩ := step_closer hindex hlen hfits hloop hstep
        obtain ⟨fuel, result, hresult⟩ := ih _ hless vm' rfl (hfits.step hindex hstep) hloop'
        refine ⟨fuel + 1, result, ?_⟩
        unfold applyLoop
        rw [if_pos hindex, hrun]
        exact hresult
    · refine ⟨1, (1, vm), ?_⟩
      unfold applyLoop
      rw [if_neg hindex]

/-- While lines fit, `Cheat_ApplyCheat` returns: in every step less remains, and the line goes back
only where a terminator takes a turn of its loop. -/
theorem applyCheat_returns (m : Machine ω) (codes : List UInt64) (vm : Vm ω) (hlen : codes.length < 2 ^ 29)
    (hfits : LinesFit m codes { vm with state := vm.state.start }) :
    (∃ fuel result, applyCheat m codes fuel vm = some result) ∧
      ∀ vm₁ vm₂, Reaches m codes { vm with state := vm.state.start } vm₁ → vm₁.state.index.toNat < codes.length →
        Runs (step m codes) vm₁ () vm₂ → remaining codes vm₂.state < remaining codes vm₁.state ∧
          (vm₁.state.index.toNat < vm₂.state.index.toNat ∨ TurnBack codes vm₁.state vm₂.state) := by
  have hstart : InLoop codes (Vm.state { vm with state := vm.state.start }) := fun hne => absurd rfl hne
  constructor
  · exact applyLoop_returns hlen _ _ rfl hfits hstart
  · intro vm₁ vm₂ hreach hindex hrun
    obtain ⟨hfits₁, hloop₁⟩ := LinesFit.reaches hreach hlen hfits hstart
    exact (step_closer hindex hlen hfits₁ hloop₁ hrun).2

end

/-- A loop of two turns at the start of a cheat. -/
theorem applyCheat_returns_twice :
    ∃ fuel result, applyCheat emptyMachine [0xC000000000000002, 0xD100000000000000] fuel firstVm = some result := by
  refine (applyCheat_returns emptyMachine _ firstVm (by decide) ?_).1
  intro vm _ hindex
  have hcases : vm.state.index.toNat = 0 ∨ vm.state.index.toNat = 1 := by
    simp at hindex
    omega
  unfold codeOf
  rcases hcases with h | h
  · rw [h]
    decide
  · rw [h]
    decide

/-! ## Longer cheats -/

/-- 256 lines that do nothing, and a loop of two turns. -/
def longCheat : List UInt64 := List.replicate 256 0xD000000000000002 ++ [0xC000000000000002, 0xD100000000000000]

theorem longCheat_length : longCheat.length = 258 := by
  unfold longCheat
  rw [List.length_append, List.length_replicate]
  rfl

theorem longCheat_idle {i : Nat} (h : i < 256) : longCheat[i]? = some 0xD000000000000002 := by
  unfold longCheat
  rw [List.getElem?_append_left (by rw [List.length_replicate]; exact h), List.getElem?_replicate, if_pos h]

theorem longCheat_loop : longCheat[256]? = some 0xC000000000000002 ∧ longCheat[257]? = some 0xD100000000000000 := by
  unfold longCheat
  constructor
  · rw [List.getElem?_append_right (by rw [List.length_replicate]), List.length_replicate]
    rfl
  · rw [List.getElem?_append_right (by rw [List.length_replicate]; decide), List.length_replicate]
    rfl

theorem step_runs {ω : Type} {m : Machine ω} {codes : List UInt64} {vm vm' : Vm ω} {code : UInt64}
    (hcode : codes[vm.state.index.toNat]? = some code) (hne : ¬ ((code >>> 32).toUInt32 = 0 ∧ code.toUInt32 = 0))
    (h : Runs (execute m codes (vm.state.ifStack &&& 1 ≠ 0) (code >>> 32).toUInt32 code.toUInt32)
      { vm with uses := .code vm.state.index.toNat :: vm.uses } () vm') :
    Runs (step m codes) vm () { vm' with state := { vm'.state with index := vm'.state.index + 1 } } := by
  have hfetch : Runs (codeAt m codes vm.state.index.toNat) vm code
      { vm with uses := .code vm.state.index.toNat :: vm.uses } := by
    refine Runs.bind (a := ()) (runs_modify_iff.mpr rfl) ?_
    rw [hcode]
    exact runs_pure_iff.mpr ⟨rfl, rfl⟩
  unfold step
  refine Runs.bind (runs_get_iff.mpr ⟨rfl, rfl⟩) (Runs.bind hfetch ?_)
  dsimp only
  rw [if_neg hne]
  exact Runs.bind h (runs_modify_iff.mpr rfl)

/-- The loop of the long cheat begins in line 256, of which its `s8` keeps 0. -/
theorem longCheat_step {vm : Vm Unit}
    (h : vm.state.index.toNat ≤ 256 ∨ vm.state.index = 257 ∧ vm.state.loopLine = 0 ∧ vm.state.loopCount = 2) :
    vm.state.index.toNat < longCheat.length ∧ ∃ vm', Runs (step emptyMachine longCheat) vm () vm' ∧
      (vm'.state.index.toNat ≤ 256 ∨ vm'.state.index = 257 ∧ vm'.state.loopLine = 0 ∧ vm'.state.loopCount = 2) := by
  have hlen := longCheat_length
  rcases h with hle | ⟨hi, hl, hc⟩
  · rcases hle.lt_or_eq with hlt | heq
    · have hidle : ∀ (skip : Bool) (vm : Vm Unit), Runs (execute emptyMachine longCheat skip
          ((0xD000000000000002 : UInt64) >>> 32).toUInt32 (0xD000000000000002 : UInt64).toUInt32) vm () vm := by
        intro skip vm
        cases skip <;> rfl
      refine ⟨by omega, _, step_runs (longCheat_idle hlt) (by decide) (hidle _ _), Or.inl ?_⟩
      show (vm.state.index + 1).toNat ≤ 256
      rw [UInt32.toNat_add]
      simp
      omega
    · have hi : vm.state.index = 256 := UInt32.toNat_inj.mp heq
      have henter : ∀ (skip : Bool) (vm : Vm Unit), Runs (execute emptyMachine longCheat skip
          ((0xC000000000000002 : UInt64) >>> 32).toUInt32 (0xC000000000000002 : UInt64).toUInt32) vm ()
          { vm with state := { vm.state with
              loopLine := vm.state.index.toUInt8.toInt8, loopCount := 2
              storedStack := vm.state.ifStack, storedIfCount := vm.state.ifCount } } :=
        fun _ _ => rfl
      refine ⟨by omega, _, step_runs (by rw [heq]; exact longCheat_loop.1) (by decide) (henter _ _),
        Or.inr ⟨?_, ?_, rfl⟩⟩
      · show vm.state.index + 1 = 257
        rw [hi]
        rfl
      · show vm.state.index.toUInt8.toInt8 = 0
        rw [hi]
        rfl
  · have hback : ∀ (skip : Bool) (vm : Vm Unit), ∃ vm', Runs (execute emptyMachine longCheat skip
        ((0xD100000000000000 : UInt64) >>> 32).toUInt32 (0xD100000000000000 : UInt64).toUInt32) vm () vm' ∧
        vm'.state = if vm.state.loopCount > 0 then
            CheatState.turn { vm.state with ifStack := vm.state.storedStack, ifCount := vm.state.storedIfCount }
          else vm.state :=
      fun _ _ => ⟨_, rfl, rfl⟩
    obtain ⟨vm', hrun, hstate⟩ := hback (vm.state.ifStack &&& 1 ≠ 0)
      { vm with uses := .code vm.state.index.toNat :: vm.uses }
    refine ⟨by rw [hi, hlen]; decide, _,
      step_runs (by rw [hi]; exact longCheat_loop.2) (by decide) hrun, Or.inl ?_⟩
    show (vm'.state.index + 1).toNat ≤ 256
    rw [hstate]
    dsimp only
    rw [hc, if_pos (by decide)]
    unfold CheatState.turn
    dsimp only
    rw [hl, if_neg (by decide), if_pos (by decide)]
    show (lineIndex 0 + 1).toNat ≤ 256
    decide

theorem longCheat_endless : ∀ {fuel : Nat} {vm : Vm Unit},
    (vm.state.index.toNat ≤ 256 ∨ vm.state.index = 257 ∧ vm.state.loopLine = 0 ∧ vm.state.loopCount = 2) →
    applyLoop emptyMachine longCheat fuel vm = none
  | 0, vm, h => rfl
  | fuel + 1, vm, h => by
    obtain ⟨hindex, vm', hrun, h'⟩ := longCheat_step h
    unfold applyLoop
    rw [if_pos hindex, show (step emptyMachine longCheat).run.run vm = (.ok (), vm') from hrun]
    exact longCheat_endless h'

/-- `Cheat_ApplyCheat` does not return from the long cheat. -/
theorem longCheat_never : ¬ ∃ fuel result, applyCheat emptyMachine longCheat fuel firstVm = some result := by
  rintro ⟨fuel, result, h⟩
  unfold applyCheat at h
  rw [longCheat_endless (Or.inl (Nat.zero_le _))] at h
  cases h

end Omiiba.Rosalina
