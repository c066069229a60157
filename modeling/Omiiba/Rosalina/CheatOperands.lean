/-
The operands of a cheat: the code words it fetches, what it divides by, how far it shifts. A run uses
none of them out of their range exactly if the line at hand fits in every state it comes to.
-/
import Omiiba.Rosalina.CheatControl

namespace Omiiba.Rosalina

/-! ## Uses -/

/-- A code word of the cheat, a divisor that is not zero, a shift of less than 32. -/
def Use.Safe (codesCount : Nat) : Use → Prop
  | .code index => index < codesCount
  | .divide divisor => divisor ≠ 0
  | .shift count => count < 32

section

variable {ω : Type} {m : Machine ω} {codes : List UInt64} {vm vm' : Vm ω} {n : Nat}

def AllSafe (n : Nat) (vm : Vm ω) : Prop := ∀ u ∈ vm.uses, u.Safe n

/-- Where all was safe, all is. -/
def KeepsSafe (n : Nat) (vm vm' : Vm ω) : Prop := AllSafe n vm → AllSafe n vm'

/-- No use is forgotten. -/
def Grows (vm vm' : Vm ω) : Prop := ∀ u ∈ vm.uses, u ∈ vm'.uses

instance : Std.Refl (KeepsSafe (ω := ω) n) := ⟨fun _ h => h⟩

instance : IsTrans (Vm ω) (KeepsSafe n) := ⟨fun _ _ _ h h' hs => h' (h hs)⟩

instance : Std.Refl (Grows (ω := ω)) := ⟨fun _ _ h => h⟩

instance : IsTrans (Vm ω) Grows := ⟨fun _ _ _ h h' u hu => h' u (h u hu)⟩

theorem plain_keepsSafe (vm vm' : Vm ω) (h : Plain vm vm') : KeepsSafe n vm vm' := by
  intro hs u hu
  rw [h.uses] at hu
  exact hs u hu

theorem plain_grows (vm vm' : Vm ω) (h : Plain vm vm') : Grows vm vm' := by
  intro u hu
  rw [h.uses]
  exact hu

theorem quiet_keepsSafe (vm vm' : Vm ω) (h : Quiet vm vm') : KeepsSafe n vm vm' := plain_keepsSafe vm vm' h.plain

theorem quiet_grows (vm vm' : Vm ω) (h : Quiet vm vm') : Grows vm vm' := plain_grows vm vm' h.plain

theorem modifyState_keepsSafe {f : CheatState → CheatState} : Ensures (KeepsSafe (ω := ω) n) (modifyState f) :=
  ensures_modify fun _ h => h

theorem modifyState_grows {f : CheatState → CheatState} : Ensures (Grows (ω := ω)) (modifyState f) :=
  ensures_modify fun _ _ h => h

theorem record_keepsSafe {u : Use} (hu : u.Safe n) : Ensures (KeepsSafe (ω := ω) n) (record u) := by
  refine ensures_modify fun vm hs v hv => ?_
  rcases List.mem_cons.mp hv with rfl | hv
  · exact hu
  · exact hs v hv

theorem record_grows (u : Use) : Ensures (Grows (ω := ω)) (record u) :=
  ensures_modify fun _ _ h => List.mem_cons_of_mem _ h

theorem codeAt_keepsSafe {index : Nat} (h : index < n) : Ensures (KeepsSafe n) (codeAt m codes index) :=
  ensures_bind (record_keepsSafe h) fun _ => ensures_pure _

theorem codeAt_grows (index : Nat) : Ensures Grows (codeAt m codes index) :=
  ensures_bind (record_grows _) fun _ => ensures_pure _

theorem divide_keepsSafe {a b : UInt32} (h : b ≠ 0) : Ensures (KeepsSafe n) (divide m a b) :=
  ensures_bind (record_keepsSafe h) fun _ => ensures_pure _

theorem remainder_keepsSafe {a b : UInt32} (h : b ≠ 0) : Ensures (KeepsSafe n) (remainder m a b) :=
  ensures_bind (record_keepsSafe h) fun _ => ensures_pure _

theorem shiftLeft_keepsSafe {a b : UInt32} (h : b < 32) : Ensures (KeepsSafe n) (shiftLeft m a b) :=
  ensures_bind (record_keepsSafe h) fun _ => ensures_pure _

theorem shiftRight_keepsSafe {a b : UInt32} (h : b < 32) : Ensures (KeepsSafe n) (shiftRight m a b) :=
  ensures_bind (record_keepsSafe h) fun _ => ensures_pure _

/-- What is used in a first part, is used in the whole. -/
theorem mem_after_bind {α β : Type} {x : VmM ω α} {f : α → VmM ω β} {u : Use} (hf : ∀ a, Ensures Grows (f a))
    (h : u ∈ (after x vm).uses) : u ∈ (after (x >>= f) vm).uses := by
  rw [after_bind]
  split
  · exact hf _ _ u h
  · exact h

/-! ## The line at hand -/

/-- The interpreter with the line fetched. -/
def fetched (vm : Vm ω) : Vm ω := { vm with uses := .code vm.state.index.toNat :: vm.uses }

/-- The interpreter at the start of a block of bytes. -/
def blockStart (vm : Vm ω) : Vm ω :=
  { fetched vm with state := { vm.state with typeELine := vm.state.index.toUInt8, typeEIdx := 7 } }

def skips (vm : Vm ω) : Bool := vm.state.ifStack &&& 1 ≠ 0

/-- The operands of the line are in their range: each byte of a block that is come to is in a line of
the cheat, a divisor that is come to is not zero, a shift is less than 32. -/
structure OperandsFit (m : Machine ω) (codes : List UInt64) (vm : Vm ω) : Prop where
  block : typeOf (codeOf codes vm.state) = 0xE → ∀ i < (codeOf codes vm.state).toUInt32.toNat, ∀ vm',
    Runs (typeELoop m codes (skips vm) ((codeOf codes vm.state >>> 32).toUInt32 &&& 0x0FFFFFFF) i 0) (blockStart vm) () vm' →
    (vm.state.index.toUInt8 + UInt8.ofNat (1 + i / 8)).toNat < codes.length
  word : typeOf (codeOf codes vm.state) = 0xF → (subcodeOf (codeOf codes vm.state)).toNat = 0x3 → skips vm = false →
    ∀ v vm', Runs (read32 m ((codeOf codes vm.state >>> 32).toUInt32 &&& 0x00FFFFFF)) (fetched vm) v vm' →
    vm.state.floatMode = true ∨ (codeOf codes vm.state).toUInt32 ≠ 0
  data : typeOf (codeOf codes vm.state) = 0xF → (subcodeOf (codeOf codes vm.state)).toNat = 0x5 → skips vm = false →
    vm.state.data1Mode = true ∨ (codeOf codes vm.state).toUInt32 ≠ 0
  shift : typeOf (codeOf codes vm.state) = 0xF →
    (subcodeOf (codeOf codes vm.state)).toNat = 0xA ∨ (subcodeOf (codeOf codes vm.state)).toNat = 0xB →
    skips vm = false → (codeOf codes vm.state).toUInt32 < 32
  range : typeOf (codeOf codes vm.state) = 0xF → (subcodeOf (codeOf codes vm.state)).toNat = 0xF → skips vm = false →
    (codeOf codes vm.state).toUInt32 - ((codeOf codes vm.state >>> 32).toUInt32 &&& 0xFFFFFF) ≠ 0

/-! ## Blocks -/

theorem getNextTypeE_runs (m : Machine ω) (codes : List UInt64) (vm : Vm ω) : ∃ byte, Runs (getNextTypeE m codes) vm byte
    { vm with state := vm.state.nextTypeE, uses := .code vm.state.nextTypeE.typeELine.toNat :: vm.uses } := by
  exact ⟨_, rfl⟩

theorem getNextTypeE_grows : Ensures Grows (getNextTypeE m codes) :=
  ensures_bind modifyState_grows fun _ =>
    ensures_bind ensures_get fun _ => ensures_bind (codeAt_grows _) fun _ => ensures_pure _

theorem typeELoop_grows {skip : Bool} {beginOffset : UInt32} : ∀ n i, Ensures Grows (typeELoop m codes skip beginOffset n i)
  | 0, _ => ensures_pure ()
  | n + 1, _ =>
    ensures_bind getNextTypeE_grows fun _ =>
      ensures_bind (unlessSkipped_ensures skip fun _ => (write8_quiet _ _).mono quiet_grows) fun _ =>
        typeELoop_grows n _

/-- The bytes of a block are safe if all lines that are come to are lines of the cheat. -/
theorem typeELoop_safe {skip : Bool} {beginOffset : UInt32} : ∀ {n : Nat} {i : UInt32} {vm : Vm ω},
    vm.state.typeEIdx.toNat ≤ 7 →
    (∀ k < n, ∀ vm', Runs (typeELoop m codes skip beginOffset k i) vm () vm' →
      (vm.state.typeELine + UInt8.ofNat ((vm.state.typeEIdx.toNat + (k + 1)) / 8)).toNat < codes.length) →
    KeepsSafe codes.length vm (after (typeELoop m codes skip beginOffset n i) vm)
  | 0, i, vm, hidx, hlines => fun hs => hs
  | n + 1, i, vm, hidx, hlines => by
    intro hs
    obtain ⟨byte, hnext⟩ := getNextTypeE_runs m codes vm
    have hzero := vm.state.nextTypeE_line hidx 0
    have hfirst := hlines 0 (Nat.succ_pos n) vm (runs_pure_iff.mpr ⟨rfl, rfl⟩)
    rw [← hzero.2, Nat.add_zero, Nat.div_eq_of_lt (by omega)] at hfirst
    have hs₁ : AllSafe codes.length
        { vm with state := vm.state.nextTypeE, uses := .code vm.state.nextTypeE.typeELine.toNat :: vm.uses } := by
      intro u hu
      rcases List.mem_cons.mp hu with rfl | hu
      · simpa [Use.Safe] using hfirst
      · exact hs u hu
    have hwrite := unlessSkipped_ensures skip fun _ => write8_quiet (m := m) (beginOffset + i) byte
    unfold typeELoop
    rw [after_bind_of_runs hnext]
    refine after_bind_cases (quiet_keepsSafe _ _ (hwrite _) hs₁) fun _ vm₂ hrun => ?_
    -- the byte is written, or skipped
    have hplain := (hrun.ensures hwrite).plain
    have hl : vm₂.state.typeELine = vm.state.nextTypeE.typeELine := congrArg (fun p => p.2.2.2.1) hplain.position
    have hi : vm₂.state.typeEIdx = vm.state.nextTypeE.typeEIdx := congrArg (fun p => p.2.2.2.2) hplain.position
    refine typeELoop_safe (by rw [hi]; exact hzero.1) ?_ (plain_keepsSafe _ _ hplain hs₁)
    intro k hk vm' hk'
    rw [hl, hi, (vm.state.nextTypeE_line hidx (k + 1)).2]
    exact hlines (k + 1) (by omega) vm' (Runs.bind hnext (Runs.bind hrun hk'))

/-- A byte of a block that is come to is fetched. -/
theorem typeELoop_fetches {skip : Bool} {beginOffset : UInt32} : ∀ {k n : Nat} {i : UInt32} {vm vm' : Vm ω},
    vm.state.typeEIdx.toNat ≤ 7 → k < n → Runs (typeELoop m codes skip beginOffset k i) vm () vm' →
    .code (vm.state.typeELine + UInt8.ofNat ((vm.state.typeEIdx.toNat + (k + 1)) / 8)).toNat ∈
      (after (typeELoop m codes skip beginOffset n i) vm).uses
  | k, 0, i, vm, vm', hidx, hk, h => absurd hk (Nat.not_lt_zero k)
  | 0, n + 1, i, vm, vm', hidx, hk, h => by
    obtain ⟨byte, hnext⟩ := getNextTypeE_runs m codes vm
    have hzero := vm.state.nextTypeE_line hidx 0
    have hline : vm.state.nextTypeE.typeELine =
        vm.state.typeELine + UInt8.ofNat ((vm.state.typeEIdx.toNat + (0 + 1)) / 8) := by
      rw [← hzero.2, Nat.add_zero, Nat.div_eq_of_lt (by omega)]
      simp
    unfold typeELoop
    rw [after_bind_of_runs hnext, ← hline]
    refine ensures_bind (unlessSkipped_ensures skip fun _ => (write8_quiet _ _).mono quiet_grows)
      (fun _ => typeELoop_grows n (i + 1)) _ _ List.mem_cons_self
  | k + 1, n + 1, i, vm, vm', hidx, hk, h => by
    unfold typeELoop at h
    obtain ⟨byte, vm₁, hnext, h⟩ := h.of_bind
    obtain ⟨_, vm₂, hrun, h⟩ := h.of_bind
    have hplain := (hrun.ensures (unlessSkipped_ensures skip fun _ => write8_quiet _ _)).plain
    have hpos := hplain.position
    rw [getNextTypeE_state hnext] at hpos
    have hl : vm₂.state.typeELine = vm.state.nextTypeE.typeELine := congrArg (fun p => p.2.2.2.1) hpos
    have hi : vm₂.state.typeEIdx = vm.state.nextTypeE.typeEIdx := congrArg (fun p => p.2.2.2.2) hpos
    have hfetch := typeELoop_fetches (by rw [hi]; exact (vm.state.nextTypeE_line hidx 0).1)
      (show k < n by omega) h
    rw [hl, hi, (vm.state.nextTypeE_line hidx (k + 1)).2] at hfetch
    unfold typeELoop
    rw [after_bind_of_runs hnext, after_bind_of_runs hrun]
    exact hfetch

/-! ## Searches -/

theorem skipLoop_keepsSafe : ∀ n, Ensures (KeepsSafe codes.length) (skipLoop m codes n)
  | 0 => ensures_pure ()
  | n + 1 => by
    unfold skipLoop
    refine ensures_bind ensures_get fun vm => ?_
    dsimp only
    split
    · next hlt =>
      refine ensures_bind (codeAt_keepsSafe hlt) fun code => ?_
      refine ensures_bind modifyState_keepsSafe fun _ => ?_
      split
      · exact ensures_pure ()
      · exact skipLoop_keepsSafe n
    · exact ensures_pure ()

theorem differs_keepsSafe {base : Nat} {i : UInt32} : ∀ {k j : Nat}, (0 < k → base + (j + k - 1) / 8 < codes.length) →
    Ensures (KeepsSafe codes.length) (differs m codes base i k j)
  | 0, j, h => ensures_pure _
  | k + 1, j, h => by
    have hend := h (Nat.succ_pos k)
    unfold differs
    refine ensures_bind ((read8_quiet _).mono quiet_keepsSafe) fun cur => ?_
    refine ensures_bind (codeAt_keepsSafe (by omega)) fun code => ?_
    split
    · exact ensures_pure _
    · exact differs_keepsSafe fun _ => by omega

theorem searchLoop_keepsSafe {base size : Nat} (h : 0 < size → base + (size - 1) / 8 < codes.length) :
    ∀ n i newSkip, Ensures (KeepsSafe codes.length) (searchLoop m codes base size n i newSkip)
  | 0, i, newSkip => ensures_pure _
  | n + 1, i, newSkip => by
    unfold searchLoop
    refine ensures_bind (differs_keepsSafe fun hpos => by simpa using h hpos) fun newSkip => ?_
    split
    · exact searchLoop_keepsSafe h n (i + 1) newSkip
    · exact ensures_pure _

/-- The pattern of a search is in lines of the cheat: its guard counts bytes where it needs lines. -/
theorem typeFE_keepsSafe (hlen : codes.length < 2 ^ 29) (skip : Bool) (arg0 arg1 : UInt32) :
    ∀ vm : Vm ω, vm.state.index.toNat < codes.length →
      KeepsSafe codes.length vm (after (typeFE m codes skip arg0 arg1) vm) := by
  intro vm hindex hs
  unfold typeFE
  rw [after_bind_of_runs (runs_get_iff.mpr ⟨rfl, rfl⟩)]
  dsimp only
  split
  · next hfit =>
    have hsize : (arg0 &&& 0xFFFF).toNat ≤ 0xFFFF := by
      rw [UInt32.toNat_and]
      exact Nat.and_le_right
    have hsum : (arg0 &&& 0xFFFF).toNat + vm.state.index.toNat < codes.length := by
      have hlt := UInt32.lt_iff_toNat_lt.mp hfit.2
      rw [UInt32.toNat_add, UInt32.toNat_ofNat', Nat.mod_eq_of_lt (by omega), Nat.mod_eq_of_lt (by omega)] at hlt
      exact hlt
    split
    · exact plain_keepsSafe _ _ (pushIf_plain _ _ vm) hs
    · refine ensures_bind modifyState_keepsSafe (fun _ => ?_) vm hs
      refine ensures_bind (searchLoop_keepsSafe ?_ _ _ _) fun _ => (pushIf_plain _ _).mono plain_keepsSafe
      intro hpos
      omega
  · exact hs

/-! ## Arithmetic -/

theorem divide_uses (a b : UInt32) : .divide b ∈ (after (divide m a b) vm).uses := List.mem_cons_self

theorem remainder_uses (a b : UInt32) : .divide b ∈ (after (remainder m a b) vm).uses := List.mem_cons_self

theorem shiftLeft_uses (a b : UInt32) : .shift b ∈ (after (shiftLeft m a b) vm).uses := List.mem_cons_self

theorem shiftRight_uses (a b : UInt32) : .shift b ∈ (after (shiftRight m a b) vm).uses := List.mem_cons_self

/-- What a change of the active data uses, is kept. -/
theorem updateData_uses {op : CheatState → UInt32 → VmM ω UInt32} {u : Use}
    (h : u ∈ (after (op vm.state vm.state.data) vm).uses) : u ∈ (after (updateData op) vm).uses := by
  unfold updateData
  rw [after_bind_of_runs (runs_get_iff.mpr ⟨rfl, rfl⟩)]
  exact mem_after_bind (fun _ => modifyState_grows) h

/-- In floating-point mode every divisor is safe. -/
theorem quotient_keepsSafe {mode : Bool} {a b q : UInt32} (h : mode = true ∨ b ≠ 0) :
    Ensures (KeepsSafe n) (if mode then pure q else divide m a b) := by
  rcases h with hfloat | hne
  · rw [if_pos hfloat]
    exact ensures_pure _
  · split
    · exact ensures_pure _
    · exact divide_keepsSafe hne

/-- The divisor of F3 is used if the word can be read. -/
theorem typeF3_keepsSafe {arg0 arg1 : UInt32}
    (hfit : ∀ v vm', Runs (read32 m (arg0 &&& 0x00FFFFFF)) vm v vm' → vm.state.floatMode = true ∨ arg1 ≠ 0) :
    KeepsSafe n vm (after (typeF3 m arg0 arg1) vm) := by
  intro hs
  have hquiet := read32_quiet (m := m) (arg0 &&& 0x00FFFFFF)
  unfold typeF3 updateWord
  rw [after_bind_of_runs (runs_get_iff.mpr ⟨rfl, rfl⟩)]
  refine after_bind_cases (quiet_keepsSafe _ _ (hquiet vm) hs) fun v vm₁ hrun => ?_
  have hs₁ := quiet_keepsSafe (n := n) _ _ (hrun.ensures hquiet) hs
  exact ensures_bind (quotient_keepsSafe (hfit v vm₁ hrun)) (fun _ => (write32_quiet _ _).mono quiet_keepsSafe) vm₁ hs₁

theorem typeF3_uses {arg0 arg1 v : UInt32} (hrun : Runs (read32 m (arg0 &&& 0x00FFFFFF)) vm v vm')
    (hint : vm.state.floatMode = false) : .divide arg1 ∈ (after (typeF3 m arg0 arg1) vm).uses := by
  unfold typeF3 updateWord
  rw [after_bind_of_runs (runs_get_iff.mpr ⟨rfl, rfl⟩), after_bind_of_runs hrun]
  refine mem_after_bind (fun _ => (write32_quiet _ _).mono quiet_grows) ?_
  dsimp only
  rw [hint]
  exact divide_uses _ _

theorem typeF5_keepsSafe {arg1 : UInt32} (hfit : vm.state.data1Mode = true ∨ arg1 ≠ 0) :
    KeepsSafe n vm (after (typeF5 m arg1) vm) := by
  unfold typeF5 updateData
  rw [after_bind_of_runs (runs_get_iff.mpr ⟨rfl, rfl⟩)]
  exact ensures_bind (quotient_keepsSafe hfit) (fun _ => modifyState_keepsSafe) vm

theorem typeF5_uses {arg1 : UInt32} (hint : vm.state.data1Mode = false) :
    .divide arg1 ∈ (after (typeF5 m arg1) vm).uses := by
  refine updateData_uses ?_
  rw [hint]
  exact divide_uses _ _

theorem typeFF_keepsSafe {arg0 arg1 : UInt32} (hfit : arg1 - (arg0 &&& 0xFFFFFF) ≠ 0) :
    Ensures (KeepsSafe n) (typeFF m arg0 arg1) :=
  ensures_bind (getRandomNumber_quiet.mono quiet_keepsSafe) fun _ =>
    ensures_bind (remainder_keepsSafe hfit) fun _ => modifyState_keepsSafe

theorem typeFF_uses (arg0 arg1 : UInt32) :
    .divide (arg1 - (arg0 &&& 0xFFFFFF)) ∈ (after (typeFF m arg0 arg1) vm).uses := by
  have hrandom : Runs getRandomNumber vm (nextRandom vm.cheatRngState >>> 32).toUInt32
      (vm.setRandom (nextRandom vm.cheatRngState)) := rfl
  unfold typeFF
  dsimp only
  rw [after_bind_of_runs hrandom]
  exact mem_after_bind (fun _ => modifyState_grows) (remainder_uses _ _)

/-! ## The line is safe -/

theorem OperandsFit.typeF_keepsSafe (hfit : OperandsFit m codes vm) (hF : typeOf (codeOf codes vm.state) = 0xF)
    (hindex : vm.state.index.toNat < codes.length) (hlen : codes.length < 2 ^ 29) :
    KeepsSafe codes.length (fetched vm)
      (after (typeF m codes (skips vm) (subcodeOf (codeOf codes vm.state)) (codeOf codes vm.state >>> 32).toUInt32
        (codeOf codes vm.state).toUInt32) (fetched vm)) := by
  have hskip : ∀ {act : VmM ω Unit}, (skips vm = false → KeepsSafe codes.length (fetched vm) (after act (fetched vm))) →
      KeepsSafe codes.length (fetched vm) (after (unlessSkipped (skips vm) act) (fetched vm)) := by
    intro act h
    unfold unlessSkipped
    split
    · exact fun hs => hs
    · next hrun => exact h (Bool.not_eq_true _ ▸ hrun)
  have hdata : ∀ {op : CheatState → UInt32 → VmM ω UInt32}, (∀ s v, Ensures (KeepsSafe codes.length) (op s v)) →
      Ensures (KeepsSafe codes.length) (updateData op) := fun hop => updateData_ensures quiet_keepsSafe hop
  unfold typeF
  split
  · exact fun hs => hs
  · split
    · exact hskip fun _ => modifyState_keepsSafe _
    · exact hskip fun _ => updateWord_ensures quiet_keepsSafe _ (fun _ _ => ensures_pure _) _
    · exact hskip fun _ => updateWord_ensures quiet_keepsSafe _ (fun _ _ => ensures_pure _) _
    · next hsub => exact hskip fun hrun => typeF3_keepsSafe (hfit.word hF hsub hrun)
    · exact hskip fun _ => hdata (fun _ _ => ensures_pure _) _
    · next hsub => exact hskip fun hrun => typeF5_keepsSafe (hfit.data hF hsub hrun)
    · exact hskip fun _ => hdata (fun _ _ => ensures_pure _) _
    · exact hskip fun _ => hdata (fun _ _ => ensures_pure _) _
    · exact hskip fun _ => hdata (fun _ _ => ensures_pure _) _
    · exact hskip fun _ => hdata (fun _ _ => ensures_pure _) _
    · next hsub => exact hskip fun hrun => hdata (fun _ _ => shiftLeft_keepsSafe (hfit.shift hF (Or.inl hsub) hrun)) _
    · next hsub => exact hskip fun hrun => hdata (fun _ _ => shiftRight_keepsSafe (hfit.shift hF (Or.inr hsub) hrun)) _
    · exact hskip fun _ => (typeFC_quiet _).mono quiet_keepsSafe _
    · exact typeFE_keepsSafe hlen _ _ _ _ hindex
    · next hsub => exact hskip fun hrun => typeFF_keepsSafe (hfit.range hF hsub hrun) _
    · exact fun hs => hs

theorem typeD_keepsSafe {skip : Bool} {subcode codeArg arg1 : UInt32} :
    Ensures (KeepsSafe codes.length) (typeD m codes skip subcode codeArg arg1) := by
  have hplain : ∀ {act : VmM ω Unit}, Ensures Plain act → Ensures (KeepsSafe codes.length) act :=
    fun h => h.mono plain_keepsSafe
  have hskip : ∀ {act : VmM ω Unit}, Ensures Quiet act → Ensures (KeepsSafe codes.length) (unlessSkipped skip act) :=
    fun h => hplain (ensures_plain (unlessSkipped_ensures skip fun _ => h))
  unfold typeD
  split
  · unfold typeD0
    split
    · exact modifyState_keepsSafe
    · split
      · exact ensures_bind modifyState_keepsSafe fun _ => skipLoop_keepsSafe _
      · exact ensures_pure ()
  · exact modifyState_keepsSafe
  · unfold typeD2
    split
    · exact modifyState_keepsSafe
    · split
      · exact modifyState_keepsSafe
      · exact ensures_pure ()
  · exact hskip (typeD3_quiet _ _)
  · exact hskip (typeD4_quiet _ _)
  · exact hskip (typeD5_quiet _ _)
  · exact hskip (storeAndIncrement_quiet _ _ fun _ => write32_quiet _ _)
  · exact hskip (storeAndIncrement_quiet _ _ fun _ => write16_quiet _ _)
  · exact hskip (storeAndIncrement_quiet _ _ fun _ => write8_quiet _ _)
  · exact hskip (loadTo_quiet _ (read32_quiet _))
  · exact hskip (loadTo_quiet _ (ensures_bind (read16_quiet _) fun _ => ensures_pure _))
  · exact hskip (loadTo_quiet _ (ensures_bind (read8_quiet _) fun _ => ensures_pure _))
  · exact hskip (modifyState_quiet fun s => s.setOffset_control _)
  · exact hplain (typeDD_plain _ _)
  · exact hplain (typeDE_plain _ _ _)
  · exact hplain (ensures_plain (typeDF_quiet _ _))
  · exact ensures_throw ()

theorem blockStart_runs (vm : Vm ω) :
    Runs (modifyState fun s => { s with typeELine := s.index.toUInt8, typeEIdx := 7 }) (fetched vm) () (blockStart vm) :=
  runs_modify_iff.mpr rfl

theorem OperandsFit.typeE_keepsSafe (hfit : OperandsFit m codes vm) (hE : typeOf (codeOf codes vm.state) = 0xE) :
    KeepsSafe codes.length (fetched vm)
      (after (typeE m codes (skips vm) (codeOf codes vm.state >>> 32).toUInt32 (codeOf codes vm.state).toUInt32)
        (fetched vm)) := by
  intro hs
  unfold typeE
  rw [after_bind_of_runs (blockStart_runs vm)]
  have hloop : AllSafe codes.length
      (after (typeELoop m codes (skips vm) ((codeOf codes vm.state >>> 32).toUInt32 &&& 0x0FFFFFFF)
        (codeOf codes vm.state).toUInt32.toNat 0) (blockStart vm)) := by
    refine typeELoop_safe (show (7 : UInt8).toNat ≤ 7 by decide) (fun k hk vm' hrun => ?_) hs
    show (vm.state.index.toUInt8 + UInt8.ofNat ((7 + (k + 1)) / 8)).toNat < codes.length
    rw [show (7 + (k + 1)) / 8 = 1 + k / 8 by omega]
    exact hfit.block hE k hk vm' hrun
  refine after_bind_cases hloop fun _ _ hrun => ?_
  rw [hrun.after_eq] at hloop
  exact modifyState_keepsSafe _ hloop

theorem OperandsFit.execute_keepsSafe (hfit : OperandsFit m codes vm) (hindex : vm.state.index.toNat < codes.length)
    (hlen : codes.length < 2 ^ 29) :
    KeepsSafe codes.length (fetched vm)
      (after (execute m codes (skips vm) (codeOf codes vm.state >>> 32).toUInt32 (codeOf codes vm.state).toUInt32)
        (fetched vm)) := by
  have hplain : ∀ {act : VmM ω Unit}, Ensures Plain act → KeepsSafe codes.length (fetched vm) (after act (fetched vm)) :=
    fun h => h.mono plain_keepsSafe _
  have hskip : ∀ {act : VmM ω Unit}, Ensures Quiet act →
      KeepsSafe codes.length (fetched vm) (after (unlessSkipped (skips vm) act) (fetched vm)) :=
    fun h => hplain (ensures_plain (unlessSkipped_ensures _ fun _ => h))
  unfold execute
  dsimp only
  split
  · exact hskip (write32_quiet _ _)
  · exact hskip (write16_quiet _ _)
  · exact hskip (write8_quiet _ _)
  · exact hplain (conditional32_plain _ _ _ _)
  · exact hplain (conditional32_plain _ _ _ _)
  · exact hplain (conditional32_plain _ _ _ _)
  · exact hplain (conditional32_plain _ _ _ _)
  · exact hplain (conditional16_plain _ _ _ _)
  · exact hplain (conditional16_plain _ _ _ _)
  · exact hplain (conditional16_plain _ _ _ _)
  · exact hplain (conditional16_plain _ _ _ _)
  · exact hskip (typeB_quiet _)
  · unfold typeC
    dsimp only
    split
    · exact modifyState_keepsSafe _
    · exact modifyState_keepsSafe _
    · exact modifyState_keepsSafe _
    · exact fun hs => hs
  · exact typeD_keepsSafe _
  · next hE => exact hfit.typeE_keepsSafe hE
  · next hF => exact hfit.typeF_keepsSafe hF hindex hlen
  · exact fun hs => hs

/-! ## A line that does not fit -/

section

variable {skip : Bool} {arg0 arg1 : UInt32} {subcode : UInt32}

theorem typeF_divide (hne : arg0 ≠ 0xF0F00000) (h : subcode.toNat = 0x3) :
    typeF m codes false subcode arg0 arg1 = typeF3 m arg0 arg1 := by
  unfold typeF
  rw [if_neg hne, h]
  rfl

theorem typeF_divideData (hne : arg0 ≠ 0xF0F00000) (h : subcode.toNat = 0x5) :
    typeF m codes false subcode arg0 arg1 = typeF5 m arg1 := by
  unfold typeF
  rw [if_neg hne, h]
  rfl

theorem typeF_shiftLeft (hne : arg0 ≠ 0xF0F00000) (h : subcode.toNat = 0xA) :
    typeF m codes false subcode arg0 arg1 = typeFA m arg1 := by
  unfold typeF
  rw [if_neg hne, h]
  rfl

theorem typeF_shiftRight (hne : arg0 ≠ 0xF0F00000) (h : subcode.toNat = 0xB) :
    typeF m codes false subcode arg0 arg1 = typeFB m arg1 := by
  unfold typeF
  rw [if_neg hne, h]
  rfl

theorem typeF_random (hne : arg0 ≠ 0xF0F00000) (h : subcode.toNat = 0xF) :
    typeF m codes false subcode arg0 arg1 = typeFF m arg0 arg1 := by
  unfold typeF
  rw [if_neg hne, h]
  rfl

end

/-- A line whose uses are safe fits: each operand that does not fit is used. -/
theorem operandsFit_of_safe
    (hs : AllSafe codes.length (after (execute m codes (skips vm) (codeOf codes vm.state >>> 32).toUInt32
      (codeOf codes vm.state).toUInt32) (fetched vm))) : OperandsFit m codes vm := by
  have hF : typeOf (codeOf codes vm.state) = 0xF → (subcodeOf (codeOf codes vm.state)).toNat ≠ 0 →
      (codeOf codes vm.state >>> 32).toUInt32 ≠ 0xF0F00000 ∧
        AllSafe codes.length (after (typeF m codes (skips vm) (subcodeOf (codeOf codes vm.state))
          (codeOf codes vm.state >>> 32).toUInt32 (codeOf codes vm.state).toUInt32) (fetched vm)) := by
    intro htype hsub
    rw [execute_typeF htype] at hs
    exact ⟨typeF_of_subcode hsub, hs⟩
  constructor
  · intro hE k hk vm' hrun
    rw [execute_typeE hE] at hs
    unfold typeE at hs
    rw [after_bind_of_runs (blockStart_runs vm)] at hs
    have hfetch := typeELoop_fetches (show (7 : UInt8).toNat ≤ 7 by decide) hk hrun
    have hsafe : (vm.state.index.toUInt8 + UInt8.ofNat ((7 + (k + 1)) / 8)).toNat < codes.length :=
      hs _ (mem_after_bind (fun _ => modifyState_grows) hfetch)
    rwa [show (7 + (k + 1)) / 8 = 1 + k / 8 by omega] at hsafe
  · intro htype hsub hrun v vm' hread
    obtain ⟨hne, hs⟩ := hF htype (by omega)
    rw [hrun, typeF_divide hne hsub] at hs
    cases hmode : vm.state.floatMode with
    | true => exact Or.inl rfl
    | false => exact Or.inr (hs _ (typeF3_uses hread hmode))
  · intro htype hsub hrun
    obtain ⟨hne, hs⟩ := hF htype (by omega)
    rw [hrun, typeF_divideData hne hsub] at hs
    cases hmode : vm.state.data1Mode with
    | true => exact Or.inl rfl
    | false => exact Or.inr (hs _ (typeF5_uses hmode))
  · intro htype hsub hrun
    obtain ⟨hne, hs⟩ := hF htype (by omega)
    rcases hsub with hsub | hsub
    · rw [hrun, typeF_shiftLeft hne hsub] at hs
      exact hs _ (updateData_uses (shiftLeft_uses _ _))
    · rw [hrun, typeF_shiftRight hne hsub] at hs
      exact hs _ (updateData_uses (shiftRight_uses _ _))
  · intro htype hsub hrun
    obtain ⟨hne, hs⟩ := hF htype (by omega)
    rw [hrun, typeF_random hne hsub] at hs
    exact hs _ (typeFF_uses _ _)

/-! ## Runs -/

/-- In no state that a run comes to, and in no step from it, an operand is out of its range. -/
def RunSafe (m : Machine ω) (codes : List UInt64) (vm : Vm ω) : Prop :=
  ∀ vm', Reaches m codes vm vm' → AllSafe codes.length vm' ∧
    (vm'.state.index.toNat < codes.length → AllSafe codes.length (after (step m codes) vm'))

/-- Every line that a run comes to fits. -/
def RunFits (m : Machine ω) (codes : List UInt64) (vm : Vm ω) : Prop :=
  ∀ vm', Reaches m codes vm vm' → vm'.state.index.toNat < codes.length → OperandsFit m codes vm'

theorem fetched_safe (hindex : vm.state.index.toNat < codes.length) (hs : AllSafe codes.length vm) :
    AllSafe codes.length (fetched vm) := by
  intro u hu
  rcases List.mem_cons.mp hu with rfl | hu
  · exact hindex
  · exact hs u hu

theorem codeAt_runs (hindex : vm.state.index.toNat < codes.length) :
    Runs (codeAt m codes vm.state.index.toNat) vm (codeOf codes vm.state) (fetched vm) := by
  refine Runs.bind (a := ()) (runs_modify_iff.mpr rfl) (runs_pure_iff.mpr ⟨?_, rfl⟩)
  unfold codeOf
  rw [List.getElem?_eq_getElem hindex]
  rfl

/-- A line that runs: its instruction, and the next line. -/
theorem line_runs (hindex : vm.state.index.toNat < codes.length) (hne : typeOf (codeOf codes vm.state) ≠ 0)
    (h : Runs (execute m codes (skips vm) (codeOf codes vm.state >>> 32).toUInt32 (codeOf codes vm.state).toUInt32)
      (fetched vm) () vm') :
    Runs (step m codes) vm () { vm' with state := { vm'.state with index := vm'.state.index + 1 } } := by
  refine Runs.bind (runs_get_iff.mpr ⟨rfl, rfl⟩) ((codeAt_runs hindex).bind ?_)
  have hnonzero : ¬((codeOf codes vm.state >>> 32).toUInt32 = 0 ∧ (codeOf codes vm.state).toUInt32 = 0) := by
    intro hzero
    refine hne ?_
    unfold typeOf
    rw [hzero.1]
    rfl
  dsimp only
  rw [if_neg hnonzero]
  exact h.bind (runs_modify_iff.mpr rfl)

theorem line_of_runs (hindex : vm.state.index.toNat < codes.length) (h : Runs (step m codes) vm () vm') :
    ∃ vm₁, Runs (execute m codes (skips vm) (codeOf codes vm.state >>> 32).toUInt32 (codeOf codes vm.state).toUInt32)
        (fetched vm) () vm₁ ∧
      vm' = { vm₁ with state := { vm₁.state with index := vm₁.state.index + 1 } } := by
  obtain ⟨_, _, hget, h⟩ := h.of_bind
  obtain ⟨rfl, rfl⟩ := runs_get_iff.mp hget
  obtain ⟨code, vm₁, hcode, h⟩ := h.of_bind
  obtain ⟨rfl, rfl⟩ := hcode.unique (codeAt_runs hindex)
  dsimp only at h
  split at h
  · exact absurd h not_runs_throw
  · obtain ⟨_, vm₂, hexecute, h⟩ := h.of_bind
    exact ⟨vm₂, hexecute, (runs_modify_iff.mp h).symm⟩

theorem step_safe_iff (hindex : vm.state.index.toNat < codes.length) (hlen : codes.length < 2 ^ 29)
    (hs : AllSafe codes.length vm) : AllSafe codes.length (after (step m codes) vm) ↔ OperandsFit m codes vm := by
  unfold step
  rw [after_bind_of_runs (runs_get_iff.mpr ⟨rfl, rfl⟩), after_bind_of_runs (codeAt_runs hindex)]
  rw [show decide (vm.state.ifStack &&& 1 ≠ 0) = skips vm from rfl]
  dsimp only
  split
  · next hzero =>
    -- the code that is zero is an error, and has no operands
    have htype : typeOf (codeOf codes vm.state) = 0 := by
      unfold typeOf
      rw [hzero.1]
      decide
    refine ⟨fun _ => ?_, fun _ => fetched_safe hindex hs⟩
    constructor <;> intro h <;> omega
  · constructor
    · intro hsafe
      refine operandsFit_of_safe fun u hu => hsafe u ?_
      exact mem_after_bind (fun _ => modifyState_grows) hu
    · intro hfit
      have hexecute := hfit.execute_keepsSafe hindex hlen (fetched_safe hindex hs)
      refine after_bind_cases hexecute fun _ _ hrun => ?_
      rw [hrun.after_eq] at hexecute
      exact modifyState_keepsSafe _ hexecute

theorem runSafe_of_fits (hlen : codes.length < 2 ^ 29) (hreach : Reaches m codes vm vm') :
    AllSafe codes.length vm → RunFits m codes vm → AllSafe codes.length vm' := by
  induction hreach with
  | refl vm => exact fun hs _ => hs
  | step hindex hrun hrest ih =>
    intro hs hfits
    have hstep := (step_safe_iff hindex hlen hs).mpr (hfits _ (.refl _) hindex)
    rw [hrun.after_eq] at hstep
    exact ih hstep fun vm₂ hreach => hfits vm₂ (.step hindex hrun hreach)

/-- `Cheat_ApplyCheat` uses its operands in their range exactly if every line that it comes to fits. -/
theorem applyCheat_safe_iff (m : Machine ω) (codes : List UInt64) (vm : Vm ω) (hlen : codes.length < 2 ^ 29) :
    RunSafe m codes { vm with state := vm.state.start, uses := [] } ↔
      RunFits m codes { vm with state := vm.state.start, uses := [] } := by
  constructor
  · intro hsafe vm' hreach hindex
    obtain ⟨hs, hstep⟩ := hsafe vm' hreach
    exact (step_safe_iff hindex hlen hs).mp (hstep hindex)
  · intro hfits vm' hreach
    have hnone : AllSafe codes.length { vm with state := vm.state.start, uses := [] } := by
      intro u hu
      cases hu
    have hs := runSafe_of_fits hlen hreach hnone hfits
    exact ⟨hs, fun hindex => (step_safe_iff hindex hlen hs).mpr (hfits vm' hreach hindex)⟩

end

/-- A cheat that halves its data. -/
theorem applyCheat_safe_halve :
    RunSafe emptyMachine [0xF500000000000002] { firstVm with state := firstVm.state.start, uses := [] } := by
  refine (applyCheat_safe_iff emptyMachine [0xF500000000000002] firstVm (by decide)).mpr ?_
  intro vm _ hindex
  have hzero : vm.state.index.toNat = 0 := by
    simp at hindex
    omega
  have hcode : codeOf [0xF500000000000002] vm.state = 0xF500000000000002 := by
    unfold codeOf
    rw [hzero]
    rfl
  constructor
  · intro htype
    rw [hcode] at htype
    exact absurd htype (by decide)
  · intro _ hsub
    rw [hcode] at hsub
    exact absurd hsub (by decide)
  · intro _ _ _
    rw [hcode]
    exact Or.inr (by decide)
  · intro _ hsub
    rw [hcode] at hsub
    exact absurd hsub (by decide)
  · intro _ hsub
    rw [hcode] at hsub
    exact absurd hsub (by decide)

/-- A division by zero, a shift by 32, and a byte block behind the last line. -/
theorem operands_not_safe :
    ¬ RunSafe emptyMachine [0xF500000000000000] { firstVm with state := firstVm.state.start, uses := [] } ∧
      ¬ RunSafe emptyMachine [0xFA00000000000020] { firstVm with state := firstVm.state.start, uses := [] } ∧
      ¬ RunSafe emptyMachine [0xE000000000000001] { firstVm with state := firstVm.state.start, uses := [] } := by
  refine ⟨fun hsafe => ?_, fun hsafe => ?_, fun hsafe => ?_⟩
  · have hstep := (hsafe _ (.refl _)).2 (by decide)
    have hdivisor : (0 : UInt32) ≠ 0 := hstep (.divide 0) (by decide)
    exact hdivisor rfl
  · have hstep := (hsafe _ (.refl _)).2 (by decide)
    have hcount : (32 : UInt32) < 32 := hstep (.shift 32) (by decide)
    exact absurd hcount (by decide)
  · have hstep := (hsafe _ (.refl _)).2 (by decide)
    have hline : 1 < 1 := hstep (.code 1) (by decide)
    omega

end Omiiba.Rosalina
