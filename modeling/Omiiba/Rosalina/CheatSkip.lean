/-
The lines of a cheat that the interpreter takes for instructions. Behind a line come the lines of its
data: whether a block is executed or skipped, the next instruction is to be the line behind them.
-/
import Omiiba.Rosalina.CheatMemory

namespace Omiiba.Rosalina

section

variable {ω : Type} {m : Machine ω} {codes : List UInt64} {code : UInt64} {vm vm' : Vm ω}

/-! ## The next line -/

/-- The code in a line. -/
def lineCode (codes : List UInt64) (i : Nat) : UInt64 := (codes[i]?).getD 0

/-- The lines of data behind a code: the bytes of a block, or of a pattern. -/
def inlineLines (code : UInt64) : Nat :=
  if typeOf code = 0xE then (code.toUInt32.toNat + 7) / 8
  else if IsSearch code then (searchSize code + 7) / 8
  else 0

/-- The lines of a cheat that are instructions: the first one, and each that is behind an instruction
and its data. -/
inductive Starts (codes : List UInt64) : Nat → Prop
  | first : Starts codes 0
  | next {i : Nat} (start : Starts codes i) (line : i < codes.length) : Starts codes (i + 1 + inlineLines (lineCode codes i))

/-- The end of a turn leads back to the line of the loop. -/
def TurnsBack (s : CheatState) : Prop := s.loopLine ≠ -1 ∧ 1 < s.loopCount

/-- The line ends a turn of the loop that is not the last one. -/
def LeadsBack (codes : List UInt64) (vm : Vm ω) : Prop :=
  typeOf (codeOf codes vm.state) = 0xD ∧ TurnsBack vm.state ∧
    (((subcodeOf (codeOf codes vm.state)).toNat = 0 ∧ (codeOf codes vm.state).toUInt32 = 0 ∧
        ¬(vm.state.ifCount > 0 ∧ vm.state.ifCount > vm.state.storedIfCount)) ∨
      (subcodeOf (codeOf codes vm.state)).toNat = 1 ∨
      ((subcodeOf (codeOf codes vm.state)).toNat = 2 ∧ (codeOf codes vm.state).toUInt32 = 0))

/-- The line breaks off the loop, or returns. -/
def Leaves (codes : List UInt64) (vm : Vm ω) : Prop :=
  typeOf (codeOf codes vm.state) = 0xD ∧
    ((subcodeOf (codeOf codes vm.state)).toNat = 0 ∨ (subcodeOf (codeOf codes vm.state)).toNat = 2) ∧
    (codeOf codes vm.state).toUInt32 = 1 ∧ skips vm = false

def Jumps (codes : List UInt64) (vm : Vm ω) : Prop := LeadsBack codes vm ∨ Leaves codes vm

/-- The line behind the one of an instruction and its data as the code has it, if no pattern is searched. -/
def nextLine (codes : List UInt64) (i : Nat) : UInt32 :=
  (if typeOf (lineCode codes i) = 0xE then
    ((UInt32.ofNat i).toUInt8 + UInt8.ofNat ((7 + (lineCode codes i).toUInt32.toNat) / 8)).toUInt32
  else UInt32.ofNat i) + 1

theorem turn_index {s : CheatState} (h : ¬TurnsBack s) (hcount : s.loopCount > 0) : s.turn.index = s.index := by
  unfold CheatState.turn
  dsimp only
  split_ifs with hlast hline
  · rfl
  · refine absurd ⟨hline, ?_⟩ h
    rw [gt_iff_lt, UInt32.lt_iff_toNat_lt] at hcount
    rw [UInt32.lt_iff_toNat_lt]
    have hne : s.loopCount.toNat ≠ 1 := by
      intro heq
      have hone : s.loopCount = 1 := UInt32.toNat_inj.mp heq
      rw [hone] at hlast
      exact hlast rfl
    have hpos : 0 < s.loopCount.toNat := hcount
    show 1 < s.loopCount.toNat
    omega
  · rfl

theorem typeD0_index (vm : Vm ω) {skip : Bool} {arg1 : UInt32} (hskip : arg1 = 1 → skip = true)
    (hturn : arg1 = 0 → ¬(TurnsBack vm.state ∧ ¬(vm.state.ifCount > 0 ∧ vm.state.ifCount > vm.state.storedIfCount)))
    (h : Runs (typeD0 m codes skip arg1) vm () vm') : vm'.state.index = vm.state.index := by
  unfold typeD0 at h
  split at h
  · next hzero =>
    obtain rfl := runs_modify_iff.mp h
    dsimp only
    split_ifs with hline hif hcount hif
    · rfl
    · exact turn_index (fun hback => hturn hzero ⟨hback, hif⟩) hcount
    · rfl
    · rfl
    · rfl
  · split at h
    · next hbreak => exact absurd (hskip hbreak.2) hbreak.1
    · obtain ⟨-, rfl⟩ := runs_pure_iff.mp h
      rfl

theorem typeD1_index (vm : Vm ω) (hturn : ¬TurnsBack vm.state) (h : Runs (typeD1 (ω := ω)) vm () vm') :
    vm'.state.index = vm.state.index := by
  obtain rfl := runs_modify_iff.mp h
  dsimp only
  split_ifs with hcount
  · exact turn_index (s := { vm.state with ifStack := vm.state.storedStack, ifCount := vm.state.storedIfCount }) hturn hcount
  · rfl

theorem typeD2_index (vm : Vm ω) {skip : Bool} {arg1 : UInt32} (hskip : arg1 = 1 → skip = true)
    (hturn : arg1 = 0 → ¬TurnsBack vm.state) (h : Runs (typeD2 codes skip arg1) vm () vm') :
    vm'.state.index = vm.state.index := by
  have hclear : ∀ s : CheatState, s.clear.index = s.index := fun s => congrArg Prod.fst s.clear_position
  unfold typeD2 at h
  split at h
  · next hzero =>
    obtain rfl := runs_modify_iff.mp h
    dsimp only
    split_ifs with hcount hlast
    · exact (hclear _).trans (turn_index (hturn hzero) hcount)
    · exact turn_index (hturn hzero) hcount
    · exact hclear _
  · split at h
    · next hbreak => exact absurd (hskip hbreak.2) hbreak.1
    · obtain ⟨-, rfl⟩ := runs_pure_iff.mp h
      rfl

theorem typeC_index (vm : Vm ω) {subcode arg1 : UInt32} (h : Runs (typeC subcode arg1) vm () vm') :
    vm'.state.index = vm.state.index := by
  unfold typeC at h
  dsimp only at h
  split at h
  · obtain rfl := runs_modify_iff.mp h
    rfl
  · obtain rfl := runs_modify_iff.mp h
    rfl
  · obtain rfl := runs_modify_iff.mp h
    rfl
  · obtain ⟨-, rfl⟩ := runs_pure_iff.mp h
    rfl

/-- The patterns that are searched from the lines of a cheat are empty. -/
def SearchesEmpty (codes : List UInt64) : Prop :=
  ∀ i < codes.length, Starts codes i → IsSearch (lineCode codes i) →
    searchSize (lineCode codes i) ≤ (lineCode codes i).toUInt32.toNat → searchSize (lineCode codes i) + i < codes.length →
    searchSize (lineCode codes i) = 0

/-- The last line of each byte block fits in a `u8`. -/
def BlocksFit (codes : List UInt64) : Prop :=
  ∀ i < codes.length, Starts codes i → typeOf (lineCode codes i) = 0xE →
    i + ((lineCode codes i).toUInt32.toNat + 7) / 8 < 2 ^ 8

/-- The index behind an instruction is a function of the code words, whether it is executed or skipped. -/
def SkipConsistent (codes : List UInt64) : Prop :=
  ∃ next : Nat → UInt32, ∀ (ω : Type) (m : Machine ω) (vm vm' : Vm ω), vm.state.index.toNat < codes.length →
    Starts codes vm.state.index.toNat → ¬Jumps codes vm → Runs (step m codes) vm () vm' →
    vm'.state.index = next vm.state.index.toNat

/-- Behind each instruction and its data the interpreter is at an instruction, whether it is executed or skipped. -/
def DataSkipped (codes : List UInt64) : Prop :=
  ∀ (ω : Type) (m : Machine ω) (vm vm' : Vm ω), vm.state.index.toNat < codes.length →
    Starts codes vm.state.index.toNat → ¬Jumps codes vm → Runs (step m codes) vm () vm' →
    vm'.state.index.toNat = vm.state.index.toNat + 1 + inlineLines (codeOf codes vm.state)

/-! ## The index behind a line -/

theorem typeD_index (ht : IsTerminator (codeOf codes vm.state)) (hjump : ¬Jumps codes vm) {codeArg : UInt32}
    (h : Runs (typeD m codes (skips vm) (subcodeOf (codeOf codes vm.state)) codeArg (codeOf codes vm.state).toUInt32)
      (fetched vm) () vm') : vm'.state.index = vm.state.index := by
  obtain ⟨hcode, hsub⟩ := ht
  have hbreak : ((subcodeOf (codeOf codes vm.state)).toNat = 0 ∨ (subcodeOf (codeOf codes vm.state)).toNat = 2) →
      (codeOf codes vm.state).toUInt32 = 1 → skips vm = true := by
    intro hsub harg
    by_contra hskip
    exact hjump (Or.inr ⟨hcode, hsub, harg, Bool.not_eq_true _ ▸ hskip⟩)
  have hcases : (subcodeOf (codeOf codes vm.state)).toNat = 0 ∨ (subcodeOf (codeOf codes vm.state)).toNat = 1 ∨
      (subcodeOf (codeOf codes vm.state)).toNat = 2 := by
    omega
  unfold typeD at h
  rcases hcases with hsub | hsub | hsub
  · rw [hsub] at h
    exact typeD0_index (fetched vm) (hbreak (Or.inl hsub))
      (fun hzero hback => hjump (Or.inl ⟨hcode, hback.1, Or.inl ⟨hsub, hzero, hback.2⟩⟩)) h
  · rw [hsub] at h
    exact typeD1_index (fetched vm) (fun hback => hjump (Or.inl ⟨hcode, hback, Or.inr (Or.inl hsub)⟩)) h
  · rw [hsub] at h
    exact typeD2_index (fetched vm) (hbreak (Or.inr hsub))
      (fun hzero hback => hjump (Or.inl ⟨hcode, hback, Or.inr (Or.inr ⟨hsub, hzero⟩)⟩)) h

theorem patternLines_toNat {i size : UInt32} (hi : i.toNat < 2 ^ 29) (hsize : size.toNat ≤ 0xFFFF) :
    (i + size / 8 + (if size &&& 7 ≠ 0 then 1 else 0)).toNat = i.toNat + (size.toNat + 7) / 8 := by
  have hand : (size &&& 7).toNat = size.toNat % 8 := by
    rw [UInt32.toNat_and]
    exact Nat.and_two_pow_sub_one_eq_mod size.toNat 3
  have hone : (if size &&& 7 ≠ 0 then (1 : UInt32) else 0).toNat = if size.toNat % 8 = 0 then 0 else 1 := by
    by_cases hz : size &&& 7 = 0
    · rw [if_neg (not_not.mpr hz), if_pos (by rw [← hand, hz]; rfl)]
      rfl
    · have hne : size.toNat % 8 ≠ 0 := fun h => hz (UInt32.toNat_inj.mp (hand.trans h))
      rw [if_pos hz, if_neg hne]
      rfl
  have hdiv : (size / 8).toNat = size.toNat / 8 := UInt32.toNat_div _ _
  rw [UInt32.toNat_add, UInt32.toNat_add, hdiv, hone]
  split <;> omega

theorem succ_toNat {i : UInt32} (hi : i.toNat < 2 ^ 30) : (i + 1).toNat = i.toNat + 1 := by
  rw [UInt32.toNat_add, Nat.mod_eq_of_lt (by simp; omega)]
  rfl

/-- Behind a search that runs: the line behind its pattern if it is executed, and the next one if it is skipped. -/
theorem search_index (hindex : vm.state.index.toNat < codes.length) (hlen : codes.length < 2 ^ 29)
    (hs : IsSearch (codeOf codes vm.state)) (h : Runs (step m codes) vm () vm') :
    (searchSize (codeOf codes vm.state) ≤ (codeOf codes vm.state).toUInt32.toNat ∧
        searchSize (codeOf codes vm.state) + vm.state.index.toNat < codes.length) ∧
      vm'.state.index.toNat = vm.state.index.toNat + 1 +
        (if skips vm then 0 else (searchSize (codeOf codes vm.state) + 7) / 8) := by
  have hc : IsConditional (codeOf codes vm.state) := Or.inr (Or.inr hs)
  obtain ⟨vm₁, hexecute, rfl⟩ := line_of_runs hindex h
  rw [execute_conditional _ hc, evaluate_search hs] at hexecute
  obtain ⟨holds, vm₂, heval, hpush⟩ := hexecute.of_bind
  obtain rfl := runs_modify_iff.mp hpush
  obtain ⟨hfit, hcontrol⟩ := patternFound_control heval
  have hfit' := (fits_iff vm hlen hindex _ _).mp hfit
  have hsize := searchSize_le (codeOf codes vm.state)
  refine ⟨hfit', ?_⟩
  have hi : vm₂.state.index = if skips vm then vm.state.index else vm.state.index +
      ((codeOf codes vm.state >>> 32).toUInt32 &&& 0xFFFF) / 8 +
        (if ((codeOf codes vm.state >>> 32).toUInt32 &&& 0xFFFF) &&& 7 ≠ 0 then 1 else 0) :=
    congrArg (fun p => p.1.1) hcontrol
  show (vm₂.state.index + 1).toNat = _
  rw [hi]
  cases skips vm with
  | true =>
    rw [if_pos rfl, if_pos rfl]
    exact succ_toNat (by omega)
  | false =>
    rw [if_neg Bool.false_ne_true, if_neg Bool.false_ne_true]
    have hlines := patternLines_toNat (i := vm.state.index) (by omega) hsize
    rw [succ_toNat (by rw [hlines]; omega), hlines]
    unfold searchSize
    omega

theorem lineCode_index (vm : Vm ω) : lineCode codes vm.state.index.toNat = codeOf codes vm.state := rfl

/-- Where no pattern is searched and no jump is made, the index behind a line is a function of the code words. -/
theorem step_nextLine (hindex : vm.state.index.toNat < codes.length) (hlen : codes.length < 2 ^ 29)
    (hs : IsSearch (codeOf codes vm.state) → searchSize (codeOf codes vm.state) ≤ (codeOf codes vm.state).toUInt32.toNat →
      searchSize (codeOf codes vm.state) + vm.state.index.toNat < codes.length → searchSize (codeOf codes vm.state) = 0)
    (hjump : ¬Jumps codes vm) (h : Runs (step m codes) vm () vm') :
    vm'.state.index = nextLine codes vm.state.index.toNat := by
  by_cases hsearch : IsSearch (codeOf codes vm.state)
  · obtain ⟨hfit, hi⟩ := search_index hindex hlen hsearch h
    have hne : typeOf (codeOf codes vm.state) ≠ 0xE := fun hE => by
      rw [hsearch.1] at hE
      cases hE
    rw [hs hsearch hfit.1 hfit.2] at hi
    refine UInt32.toNat_inj.mp ?_
    unfold nextLine
    rw [lineCode_index, if_neg hne, UInt32.ofNat_toNat, succ_toNat (by omega), hi]
    split <;> rfl
  obtain ⟨vm₁, hexecute, rfl⟩ := line_of_runs hindex h
  show vm₁.state.index + 1 = _
  unfold nextLine
  rw [lineCode_index, UInt32.ofNat_toNat]
  have hsame : vm₁.state.index = vm.state.index → typeOf (codeOf codes vm.state) ≠ 0xE →
      vm₁.state.index + 1 = (if typeOf (codeOf codes vm.state) = 0xE then (vm.state.index.toUInt8 +
        UInt8.ofNat ((7 + (codeOf codes vm.state).toUInt32.toNat) / 8)).toUInt32 else vm.state.index) + 1 := by
    intro hi hne
    rw [if_neg hne, hi]
  rcases line_cases (codeOf codes vm.state) with hc | hc | hc | hc | hc
  · have hkeep : Steady (fetched vm) vm₁ := hexecute.ensures (execute_steady hc)
    exact hsame (congrArg (fun p => p.1.1) hkeep) hc.2.2.2
  · rw [execute_conditional _ hc] at hexecute
    obtain ⟨holds, vm₂, heval, hpush⟩ := hexecute.of_bind
    obtain rfl := runs_modify_iff.mp hpush
    refine hsame ?_ ?_
    · exact congrArg (fun p => p.1.1) (heval.ensures (evaluate_quiet hc hsearch)).control
    · intro hE
      rcases hc with ⟨-, hle⟩ | ⟨htype, -⟩ | ⟨htype, -⟩
      · omega
      · omega
      · omega
  · rw [execute_typeC hc.1] at hexecute
    exact hsame (typeC_index (fetched vm) hexecute) (by rw [hc.1]; decide)
  · rw [execute_typeD hc.1] at hexecute
    exact hsame (typeD_index hc hjump hexecute) (by rw [hc.1]; decide)
  · rw [execute_typeE hc] at hexecute
    rw [if_pos hc, (typeE_line hexecute).1]
    rfl

/-! ## Lines that run -/

theorem typeELoop_skipped (m : Machine ω) (codes : List UInt64) (beginOffset : UInt32) : ∀ (n : Nat) (i : UInt32) (vm : Vm ω),
    ∃ vm', Runs (typeELoop m codes true beginOffset n i) vm () vm'
  | 0, i, vm => ⟨vm, runs_pure_iff.mpr ⟨rfl, rfl⟩⟩
  | n + 1, i, vm => by
    obtain ⟨byte, hnext⟩ := getNextTypeE_runs m codes vm
    obtain ⟨vm', hrest⟩ := typeELoop_skipped m codes beginOffset n (i + 1) _
    exact ⟨vm', hnext.bind (Runs.bind (a := ()) (runs_pure_iff.mpr ⟨rfl, rfl⟩) hrest)⟩

/-- No write can fail in a byte block that is skipped. -/
theorem block_skipped (m : Machine ω) (vm : Vm ω) (hindex : vm.state.index.toNat < codes.length)
    (hE : typeOf (codeOf codes vm.state) = 0xE) (hskip : skips vm = true) : ∃ vm', Runs (step m codes) vm () vm' := by
  obtain ⟨vm₁, hloop⟩ := typeELoop_skipped m codes ((codeOf codes vm.state >>> 32).toUInt32 &&& 0x0FFFFFFF)
    (codeOf codes vm.state).toUInt32.toNat 0 (blockStart vm)
  let behind : Vm ω := { vm₁ with state := { vm₁.state with index := vm₁.state.typeELine.toUInt32 } }
  have hexecute : Runs (execute m codes (skips vm) (codeOf codes vm.state >>> 32).toUInt32 (codeOf codes vm.state).toUInt32)
      (fetched vm) () behind := by
    rw [execute_typeE hE, hskip]
    exact (blockStart_runs vm).bind (hloop.bind (runs_modify_iff.mpr rfl))
  exact ⟨_, line_runs hindex (by omega) hexecute⟩

/-- A search that its check accepts runs where it is skipped, and where its window can be read. -/
theorem search_runs (vm : Vm ω) {mem : ω → UInt32 → UInt8} {region : UInt32 → Prop} (hm : Readable m mem region)
    (hindex : vm.state.index.toNat < codes.length) (hlen : codes.length < 2 ^ 29) (hs : IsSearch (codeOf codes vm.state))
    (hle : searchSize (codeOf codes vm.state) ≤ (codeOf codes vm.state).toUInt32.toNat)
    (hfit : searchSize (codeOf codes vm.state) + vm.state.index.toNat < codes.length)
    (hregion : ∀ i < (codeOf codes vm.state).toUInt32.toNat, region (vm.state.offset + UInt32.ofNat i)) :
    ∃ vm', Runs (step m codes) vm () vm' := by
  have hexecute : ∃ vm₁, Runs (execute m codes (skips vm) (codeOf codes vm.state >>> 32).toUInt32
      (codeOf codes vm.state).toUInt32) (fetched vm) () vm₁ := by
    rw [execute_search hs]
    cases hskip : skips vm with
    | true =>
      refine ⟨after (pushIf true true) (fetched vm), Runs.bind (runs_get_iff.mpr ⟨rfl, rfl⟩) ?_⟩
      dsimp only
      rw [if_pos ((fits_iff (fetched vm) hlen hindex _ _).mpr ⟨hle, hfit⟩), if_pos rfl]
      exact runs_after rfl
    | false =>
      obtain ⟨b, vm₁, hrun, -⟩ := typeFE_runs hm hlen (fetched vm) hindex hle hfit hregion
      exact ⟨vm₁, hrun⟩
  obtain ⟨vm₁, hrun⟩ := hexecute
  exact ⟨_, line_runs hindex (by rw [hs.1]; decide) hrun⟩

end

/-- The interpreter at a line, in a block that is executed or skipped, with the first offset at 1. -/
def vmAt (i : Nat) (skip : Bool) : Vm (UInt32 → UInt8) :=
  { flatVm with state := { flatVm.state with
      index := UInt32.ofNat i, offset1 := 1, ifStack := if skip then 1 else 0 } }

theorem vmAt_index {i : Nat} (hi : i < 2 ^ 29) (skip : Bool) : (vmAt i skip).state.index.toNat = i := by
  show (UInt32.ofNat i).toNat = i
  rw [UInt32.toNat_ofNat', Nat.mod_eq_of_lt (by omega)]

theorem vmAt_skips (i : Nat) (skip : Bool) : skips (vmAt i skip) = skip := by
  unfold skips
  cases skip with
  | true => exact (by decide : decide ((1 : UInt32) &&& 1 ≠ 0) = true)
  | false => exact (by decide : decide ((0 : UInt32) &&& 1 ≠ 0) = false)

/-! ## Inline data -/

section

variable {codes : List UInt64}

theorem jumps_typeD {i : Nat} (hi : i < 2 ^ 29) {skip : Bool} (h : typeOf (lineCode codes i) ≠ 0xD) :
    ¬Jumps codes (vmAt i skip) := by
  have htype : ¬typeOf (codeOf codes (vmAt i skip).state) = 0xD := by
    unfold codeOf
    rw [vmAt_index hi]
    exact h
  rintro (hback | hleave)
  · exact htype hback.1
  · exact htype hleave.1

/-- A search with a pattern, which its check accepts, leads to two lines. -/
theorem search_splits {i : Nat} (hlen : codes.length < 2 ^ 29) (hi : i < codes.length)
    (hs : IsSearch (lineCode codes i)) (hle : searchSize (lineCode codes i) ≤ (lineCode codes i).toUInt32.toNat)
    (hfit : searchSize (lineCode codes i) + i < codes.length) (skip : Bool) :
    ∃ vm', Runs (step flatMachine codes) (vmAt i skip) () vm' ∧
      vm'.state.index.toNat = i + 1 + (if skip then 0 else (searchSize (lineCode codes i) + 7) / 8) := by
  have hindex := vmAt_index (show i < 2 ^ 29 by omega) skip
  have hcode : codeOf codes (vmAt i skip).state = lineCode codes i := congrArg (lineCode codes) hindex
  have hlt : (vmAt i skip).state.index.toNat < codes.length := by rwa [hindex]
  obtain ⟨vm', hrun⟩ := search_runs (vmAt i skip) flatMachine_writable.toReadable hlt hlen (by rwa [hcode])
    (by rwa [hcode]) (by rwa [hcode, hindex]) (fun j hj => by
      -- the window begins at the address 1
      have hlt := (codeOf codes (vmAt i skip).state).toUInt32.toNat_lt
      have hone : (vmAt i skip).state.offset.toNat = 1 := rfl
      intro hzero
      have hsum := congrArg UInt32.toNat hzero
      rw [UInt32.toNat_add, UInt32.toNat_ofNat', hone] at hsum
      have hzero' : UInt32.toNat 0 = 0 := rfl
      omega)
  obtain ⟨-, hnext⟩ := search_index hlt hlen (by rwa [hcode]) hrun
  refine ⟨vm', hrun, ?_⟩
  rw [hnext, hindex, hcode, vmAt_skips]

theorem skipConsistent_iff (hlen : codes.length < 2 ^ 29) : SkipConsistent codes ↔ SearchesEmpty codes := by
  constructor
  · rintro ⟨next, hnext⟩ i hi hstart hs hle hfit
    have hne : typeOf (lineCode codes i) ≠ 0xD := by
      rw [hs.1]
      decide
    have hboth : ∀ skip : Bool, ∃ n : UInt32, n = next i ∧
        n.toNat = i + 1 + (if skip then 0 else (searchSize (lineCode codes i) + 7) / 8) := by
      intro skip
      have hindex := vmAt_index (show i < 2 ^ 29 by omega) skip
      obtain ⟨vm', hrun, hto⟩ := search_splits hlen hi hs hle hfit skip
      have heq := hnext _ flatMachine (vmAt i skip) vm' (by rwa [hindex]) (by rwa [hindex])
        (jumps_typeD (by omega) hne) hrun
      rw [hindex] at heq
      exact ⟨_, heq, hto⟩
    obtain ⟨_, rfl, hskipped⟩ := hboth true
    obtain ⟨_, rfl, hexecuted⟩ := hboth false
    rw [if_pos rfl] at hskipped
    rw [if_neg Bool.false_ne_true] at hexecuted
    omega
  · intro hempty
    refine ⟨nextLine codes, fun ω m vm vm' hindex hstart hjump hrun => ?_⟩
    exact step_nextLine hindex hlen (fun hs => hempty _ hindex hstart hs) hjump hrun

theorem inlineLines_search {code : UInt64} (h : IsSearch code) : inlineLines code = (searchSize code + 7) / 8 := by
  unfold inlineLines
  rw [if_neg (by rw [h.1]; decide), if_pos h]

theorem block_line {i n : Nat} (h : i + (n + 7) / 8 < 2 ^ 8) :
    ((UInt32.ofNat i).toUInt8 + UInt8.ofNat ((7 + n) / 8)).toUInt32.toNat = i + (n + 7) / 8 := by
  rw [UInt8.toNat_toUInt32, UInt8.toNat_add, UInt8.toNat_ofNat', UInt32.toNat_toUInt8, UInt32.toNat_ofNat']
  omega

theorem nextLine_toNat {i : Nat} (hi : i < 2 ^ 29) (hs : IsSearch (lineCode codes i) → searchSize (lineCode codes i) = 0)
    (hE : typeOf (lineCode codes i) = 0xE → i + ((lineCode codes i).toUInt32.toNat + 7) / 8 < 2 ^ 8) :
    (nextLine codes i).toNat = i + 1 + inlineLines (lineCode codes i) := by
  unfold nextLine inlineLines
  by_cases hblock : typeOf (lineCode codes i) = 0xE
  · have hline := block_line (hE hblock)
    have hfit := hE hblock
    rw [if_pos hblock, if_pos hblock, succ_toNat (by omega), hline]
    omega
  · have hto : (UInt32.ofNat i).toNat = i := by
      rw [UInt32.toNat_ofNat', Nat.mod_eq_of_lt (by omega)]
    rw [if_neg hblock, if_neg hblock, succ_toNat (by omega), hto]
    by_cases hsearch : IsSearch (lineCode codes i)
    · rw [if_pos hsearch, hs hsearch]
    · rw [if_neg hsearch]

/-- A byte block whose lines pass line 255 does not lead behind its data. -/
theorem block_lost {i : Nat} (hlen : codes.length < 2 ^ 29) (hi : i < codes.length)
    (hE : typeOf (lineCode codes i) = 0xE) (hdata : ∀ vm', Runs (step flatMachine codes) (vmAt i true) () vm' →
      vm'.state.index.toNat = i + 1 + inlineLines (lineCode codes i)) :
    i + ((lineCode codes i).toUInt32.toNat + 7) / 8 < 2 ^ 8 := by
  have hindex := vmAt_index (show i < 2 ^ 29 by omega) true
  have hcode : codeOf codes (vmAt i true).state = lineCode codes i := congrArg (lineCode codes) hindex
  have hlt : (vmAt i true).state.index.toNat < codes.length := by rwa [hindex]
  obtain ⟨vm', hrun⟩ := block_skipped flatMachine (vmAt i true) hlt (by rwa [hcode]) (vmAt_skips i true)
  obtain ⟨vm₁, hexecute, rfl⟩ := line_of_runs hlt hrun
  rw [execute_typeE (by rw [hcode]; exact hE)] at hexecute
  have hline : vm₁.state.index = _ := (typeE_line hexecute).1
  have hnext := hdata _ hrun
  have hbyte := UInt8.toNat_lt ((fetched (vmAt i true)).state.index.toUInt8 +
    UInt8.ofNat ((7 + (codeOf codes (vmAt i true).state).toUInt32.toNat) / 8))
  rw [← UInt8.toNat_toUInt32, ← hline] at hbyte
  have hsucc : (vm₁.state.index + 1).toNat = vm₁.state.index.toNat + 1 := succ_toNat (by omega)
  have hnext' : (vm₁.state.index + 1).toNat = i + 1 + inlineLines (lineCode codes i) := hnext
  unfold inlineLines at hnext'
  rw [if_pos hE] at hnext'
  omega

theorem dataSkipped_iff (hlen : codes.length < 2 ^ 29) : DataSkipped codes ↔ SearchesEmpty codes ∧ BlocksFit codes := by
  constructor
  · intro hdata
    have hvm : ∀ i < codes.length, Starts codes i → typeOf (lineCode codes i) ≠ 0xD → ∀ skip vm',
        Runs (step flatMachine codes) (vmAt i skip) () vm' →
        vm'.state.index.toNat = i + 1 + inlineLines (lineCode codes i) := by
      intro i hi hstart hne skip vm' hrun
      have hindex := vmAt_index (show i < 2 ^ 29 by omega) skip
      have hnext := hdata _ flatMachine (vmAt i skip) vm' (by rwa [hindex]) (by rwa [hindex])
        (jumps_typeD (by omega) hne) hrun
      rw [hindex] at hnext
      exact hnext.trans (congrArg (fun n => i + 1 + inlineLines (lineCode codes n)) hindex)
    constructor
    · intro i hi hstart hs hle hfit
      obtain ⟨vm', hrun, hnext⟩ := search_splits hlen hi hs hle hfit true
      have hdata' := hvm i hi hstart (by rw [hs.1]; decide) true vm' hrun
      rw [if_pos rfl] at hnext
      rw [hnext, inlineLines_search hs] at hdata'
      omega
    · intro i hi hstart hE
      exact block_lost hlen hi hE (hvm i hi hstart (by rw [hE]; decide) true)
  · rintro ⟨hempty, hfit⟩ ω m vm vm' hindex hstart hjump hrun
    by_cases hs : IsSearch (codeOf codes vm.state)
    · -- the search runs, so that its check accepts it
      obtain ⟨⟨hle, hin⟩, hnext⟩ := search_index hindex hlen hs hrun
      have hzero := hempty _ hindex hstart hs hle hin
      rw [hnext, inlineLines_search hs]
      rw [lineCode_index] at hzero
      rw [hzero]
      split <;> rfl
    · have hnext := step_nextLine hindex hlen (fun h => absurd h hs) hjump hrun
      rw [hnext]
      exact nextLine_toNat (by omega) (fun h => absurd h hs) (hfit _ hindex hstart)

/-- An instruction leads to the same line whether it is executed or skipped exactly if no pattern is
searched; and this is the line behind its data exactly if also no byte block passes line 255. -/
theorem inlineData_iff (codes : List UInt64) (hlen : codes.length < 2 ^ 29) :
    (SkipConsistent codes ↔ SearchesEmpty codes) ∧ (DataSkipped codes ↔ SearchesEmpty codes ∧ BlocksFit codes) :=
  ⟨skipConsistent_iff hlen, dataSkipped_iff hlen⟩

theorem Starts.cases {n : Nat} (h : Starts codes n) :
    n = 0 ∨ ∃ i < codes.length, Starts codes i ∧ n = i + 1 + inlineLines (lineCode codes i) := by
  rcases h with _ | ⟨hstart, hi⟩
  · exact Or.inl rfl
  · exact Or.inr ⟨_, hi, hstart, rfl⟩

end

/-- A block of eight bytes. -/
theorem block_consistent : (SkipConsistent [0xE000000000000008, 0x0102030405060708] ↔
      SearchesEmpty [0xE000000000000008, 0x0102030405060708]) ∧
    (DataSkipped [0xE000000000000008, 0x0102030405060708] ↔
      SearchesEmpty [0xE000000000000008, 0x0102030405060708] ∧ BlocksFit [0xE000000000000008, 0x0102030405060708]) :=
  inlineData_iff _ (by decide)

/-- A button that is not held, and a search for eight bytes: the bytes are those of the code that ends
all conditionals. -/
def skippedSearch : List UInt64 :=
  [0xDD00000000000001, 0xFE00000800000010, 0xD200000000000000] ++ List.replicate 8 0xD000000000000002

/-- The search is skipped, and its pattern is executed: the conditional is over. -/
theorem pattern_executed : ¬SkipConsistent skippedSearch ∧ ¬DataSkipped skippedSearch ∧
    ∃ vm vm', Reaches emptyMachine skippedSearch { firstVm with state := firstVm.state.start } vm ∧
      vm.state.index = 2 ∧ skips vm = true ∧ ¬Starts skippedSearch 2 ∧ Runs (step emptyMachine skippedSearch) vm () vm' ∧
      skips vm' = false := by
  have hlen : skippedSearch.length < 2 ^ 29 := by decide
  have hsearched : ¬SearchesEmpty skippedSearch := by
    intro h
    have hstart : Starts skippedSearch 1 := Starts.next .first (by decide)
    exact absurd (h 1 (by decide) hstart (by decide) (by decide) (by decide)) (by decide)
  have hdata : ¬Starts skippedSearch 2 := by
    intro h
    rcases h.cases with h | ⟨i, hi, -, h⟩
    · cases h
    · have hle : i ≤ 1 := by omega
      interval_cases i
      · exact absurd h (by decide)
      · exact absurd h (by decide)
  refine ⟨fun h => hsearched ((skipConsistent_iff hlen).mp h), fun h => hsearched ((dataSkipped_iff hlen).mp h).1, ?_⟩
  refine ⟨_, _, .step (by decide) (runs_after rfl) (.step (by decide) (runs_after rfl) (.refl _)), ?_, ?_, hdata,
    runs_after rfl, ?_⟩
  · rfl
  · rfl
  · rfl

end Omiiba.Rosalina
