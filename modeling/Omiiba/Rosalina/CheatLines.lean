/-
The kinds of lines of a cheat. An ordinary line changes registers and memory alone; a line that opens a
conditional evaluates its condition, and pushes what comes of it; the others move the interpreter.
-/
import Omiiba.Rosalina.CheatFrame

namespace Omiiba.Rosalina

/-! ## Kinds of lines -/

/-- The type of a code. -/
def typeOf (code : UInt64) : Nat := (((code >>> 32).toUInt32 >>> 28) &&& 0x0F).toNat

def subcodeOf (code : UInt64) : UInt32 := ((code >>> 32).toUInt32 >>> 24) &&& 0x0F

/-- A line that begins a loop. -/
def BeginsLoop (code : UInt64) : Prop := typeOf code = 0xC ∧ (subcodeOf code).toNat ≤ 2

/-- D0, D1 and D2. -/
def IsTerminator (code : UInt64) : Prop := typeOf code = 0xD ∧ (subcodeOf code).toNat ≤ 2

instance (code : UInt64) : Decidable (BeginsLoop code) := inferInstanceAs (Decidable (_ ∧ _))

instance (code : UInt64) : Decidable (IsTerminator code) := inferInstanceAs (Decidable (_ ∧ _))

/-- A line that opens a conditional: the types 3 to A, DD, DE and FE. -/
def IsConditional (code : UInt64) : Prop :=
  (3 ≤ typeOf code ∧ typeOf code ≤ 0xA) ∨
    (typeOf code = 0xD ∧ ((subcodeOf code).toNat = 0xD ∨ (subcodeOf code).toNat = 0xE)) ∨
    (typeOf code = 0xF ∧ (subcodeOf code).toNat = 0xE)

instance (code : UInt64) : Decidable (IsConditional code) := inferInstanceAs (Decidable (_ ∨ _ ∨ _))

/-- A search for a pattern. -/
def IsSearch (code : UInt64) : Prop := typeOf code = 0xF ∧ (subcodeOf code).toNat = 0xE

instance (code : UInt64) : Decidable (IsSearch code) := inferInstanceAs (Decidable (_ ∧ _))

/-- A line that neither opens a conditional, nor begins or ends a loop, nor has a byte block behind it. -/
def IsOrdinary (code : UInt64) : Prop :=
  ¬IsConditional code ∧ ¬BeginsLoop code ∧ ¬IsTerminator code ∧ typeOf code ≠ 0xE

theorem line_cases (code : UInt64) :
    IsOrdinary code ∨ IsConditional code ∨ BeginsLoop code ∨ IsTerminator code ∨ typeOf code = 0xE := by
  unfold IsOrdinary
  tauto

section

variable {ω : Type} {m : Machine ω} {codes : List UInt64} {code : UInt64} {vm vm' : Vm ω}
  {skip : Bool} {arg0 arg1 : UInt32} {subcode : UInt32}

theorem execute_typeC (h : ((arg0 >>> 28) &&& 0x0F).toNat = 0xC) :
    execute m codes skip arg0 arg1 = typeC ((arg0 >>> 24) &&& 0x0F) arg1 := by
  unfold execute
  dsimp only
  rw [h]
  rfl

theorem execute_typeD (h : ((arg0 >>> 28) &&& 0x0F).toNat = 0xD) :
    execute m codes skip arg0 arg1 = typeD m codes skip ((arg0 >>> 24) &&& 0x0F) (arg0 &&& 0x0F) arg1 := by
  unfold execute
  dsimp only
  rw [h]
  rfl

theorem execute_typeE (h : ((arg0 >>> 28) &&& 0x0F).toNat = 0xE) :
    execute m codes skip arg0 arg1 = typeE m codes skip arg0 arg1 := by
  unfold execute
  dsimp only
  rw [h]
  rfl

theorem execute_typeF (h : ((arg0 >>> 28) &&& 0x0F).toNat = 0xF) :
    execute m codes skip arg0 arg1 = typeF m codes skip ((arg0 >>> 24) &&& 0x0F) arg0 arg1 := by
  unfold execute
  dsimp only
  rw [h]
  rfl

/-- The code that is an error has a subcode of its own. -/
theorem typeF_of_subcode (h : ((arg0 >>> 24) &&& 0x0F).toNat ≠ 0) : arg0 ≠ 0xF0F00000 := by
  rintro rfl
  exact h (by decide)

theorem execute_search (h : IsSearch code) : execute m codes skip (code >>> 32).toUInt32 code.toUInt32 =
    typeFE m codes skip (code >>> 32).toUInt32 code.toUInt32 := by
  obtain ⟨htype, hsub⟩ := h
  rw [execute_typeF htype]
  unfold subcodeOf at hsub
  unfold typeF
  rw [if_neg (typeF_of_subcode (by rw [hsub]; decide)), hsub]
  rfl

/-! ## Ordinary lines -/

/-- All but the registers is kept. -/
def Steady (vm vm' : Vm ω) : Prop := vm'.state.control = vm.state.control

instance : Std.Refl (Steady (ω := ω)) := ⟨fun _ => rfl⟩

instance : IsTrans (Vm ω) Steady := ⟨fun _ _ _ h h' => h'.trans h⟩

theorem quiet_steady (vm vm' : Vm ω) (h : Quiet vm vm') : Steady vm vm' := h.control

theorem record_steady (u : Use) : Ensures (Steady (ω := ω)) (record u) := ensures_modify fun _ => rfl

theorem codeAt_steady (index : Nat) : Ensures Steady (codeAt m codes index) :=
  ensures_bind (record_steady _) fun _ => ensures_pure _

theorem divide_steady (a b : UInt32) : Ensures Steady (divide m a b) :=
  ensures_bind (record_steady _) fun _ => ensures_pure _

theorem remainder_steady (a b : UInt32) : Ensures Steady (remainder m a b) :=
  ensures_bind (record_steady _) fun _ => ensures_pure _

theorem shiftLeft_steady (a b : UInt32) : Ensures Steady (shiftLeft m a b) :=
  ensures_bind (record_steady _) fun _ => ensures_pure _

theorem shiftRight_steady (a b : UInt32) : Ensures Steady (shiftRight m a b) :=
  ensures_bind (record_steady _) fun _ => ensures_pure _

theorem unlessSkipped_steady {act : VmM ω Unit} (h : Ensures Quiet act) :
    Ensures Steady (unlessSkipped skip act) :=
  unlessSkipped_ensures skip fun _ => h.mono quiet_steady

theorem typeD_steady {codeArg : UInt32} (hcode : typeOf code = 0xD) (h : IsOrdinary code) :
    Ensures Steady (typeD m codes skip (subcodeOf code) codeArg arg1) := by
  obtain ⟨hopens, -, hends, -⟩ := h
  have hends : ∀ n ≤ 2, (subcodeOf code).toNat ≠ n := fun n hn heq => hends ⟨hcode, by omega⟩
  have hopens : (subcodeOf code).toNat ≠ 0xD ∧ (subcodeOf code).toNat ≠ 0xE :=
    ⟨fun heq => hopens (Or.inr (Or.inl ⟨hcode, Or.inl heq⟩)), fun heq => hopens (Or.inr (Or.inl ⟨hcode, Or.inr heq⟩))⟩
  unfold typeD
  split
  · next hsub => exact absurd hsub (hends 0 (by decide))
  · next hsub => exact absurd hsub (hends 1 (by decide))
  · next hsub => exact absurd hsub (hends 2 (by decide))
  · exact unlessSkipped_steady (typeD3_quiet _ _)
  · exact unlessSkipped_steady (typeD4_quiet _ _)
  · exact unlessSkipped_steady (typeD5_quiet _ _)
  · exact unlessSkipped_steady (storeAndIncrement_quiet _ _ fun _ => write32_quiet _ _)
  · exact unlessSkipped_steady (storeAndIncrement_quiet _ _ fun _ => write16_quiet _ _)
  · exact unlessSkipped_steady (storeAndIncrement_quiet _ _ fun _ => write8_quiet _ _)
  · exact unlessSkipped_steady (loadTo_quiet _ (read32_quiet _))
  · exact unlessSkipped_steady (loadTo_quiet _ (ensures_bind (read16_quiet _) fun _ => ensures_pure _))
  · exact unlessSkipped_steady (loadTo_quiet _ (ensures_bind (read8_quiet _) fun _ => ensures_pure _))
  · exact unlessSkipped_steady (modifyState_quiet fun s => s.setOffset_control _)
  · next hsub => exact absurd hsub hopens.1
  · next hsub => exact absurd hsub hopens.2
  · exact (typeDF_quiet _ _).mono quiet_steady
  · exact ensures_throw ()

theorem typeF_steady (hcode : typeOf code = 0xF) (h : IsOrdinary code) :
    Ensures Steady (typeF m codes skip (subcodeOf code) arg0 arg1) := by
  have hopens : (subcodeOf code).toNat ≠ 0xE := fun heq => h.1 (Or.inr (Or.inr ⟨hcode, heq⟩))
  have hpure : ∀ {op : CheatState → UInt32 → VmM ω UInt32}, (∀ s v, Ensures Steady (op s v)) →
      Ensures Steady (unlessSkipped skip (updateData op)) :=
    fun hop => unlessSkipped_ensures skip fun _ => updateData_ensures quiet_steady hop
  have hword : ∀ {op : CheatState → UInt32 → VmM ω UInt32}, (∀ s v, Ensures Steady (op s v)) →
      Ensures Steady (unlessSkipped skip (updateWord m arg0 op)) :=
    fun hop => unlessSkipped_ensures skip fun _ => updateWord_ensures quiet_steady arg0 hop
  unfold typeF
  split
  · exact ensures_throw ()
  · split
    · exact unlessSkipped_steady (modifyState_quiet fun _ => rfl)
    · exact hword fun _ _ => ensures_pure _
    · exact hword fun _ _ => ensures_pure _
    · refine hword fun s v => ?_
      split
      · exact ensures_pure _
      · exact divide_steady _ _
    · exact hpure fun _ _ => ensures_pure _
    · refine hpure fun s v => ?_
      split
      · exact ensures_pure _
      · exact divide_steady _ _
    · exact hpure fun _ _ => ensures_pure _
    · exact hpure fun _ _ => ensures_pure _
    · exact hpure fun _ _ => ensures_pure _
    · exact hpure fun _ _ => ensures_pure _
    · exact hpure fun _ _ => shiftLeft_steady _ _
    · exact hpure fun _ _ => shiftRight_steady _ _
    · exact unlessSkipped_steady (typeFC_quiet _)
    · next hsub => exact absurd hsub hopens
    · refine unlessSkipped_ensures skip fun _ => ensures_bind (getRandomNumber_quiet.mono quiet_steady) fun _ => ?_
      exact ensures_bind (remainder_steady _ _) fun _ => (modifyState_quiet fun s => s.setData_control _).mono quiet_steady
    · exact ensures_throw ()

theorem typeC_steady (hcode : typeOf code = 0xC) (h : IsOrdinary code) :
    Ensures Steady (typeC (ω := ω) (subcodeOf code) arg1) := by
  have hbegins : ∀ n ≤ 2, (subcodeOf code).toNat ≠ n := fun n hn heq => h.2.1 ⟨hcode, by omega⟩
  unfold typeC
  dsimp only
  split
  · next hsub => exact absurd hsub (hbegins 0 (by decide))
  · next hsub => exact absurd hsub (hbegins 1 (by decide))
  · next hsub => exact absurd hsub (hbegins 2 (by decide))
  · exact ensures_pure ()

/-- An ordinary line changes registers and memory alone. -/
theorem execute_steady (h : IsOrdinary code) :
    Ensures Steady (execute m codes skip (code >>> 32).toUInt32 code.toUInt32) := by
  have hcond : ∀ n, 3 ≤ n → n ≤ 0xA → typeOf code ≠ n := fun n h3 hA heq => h.1 (Or.inl (by omega))
  unfold execute
  dsimp only
  split
  · exact unlessSkipped_steady (write32_quiet _ _)
  · exact unlessSkipped_steady (write16_quiet _ _)
  · exact unlessSkipped_steady (write8_quiet _ _)
  · next hc => exact absurd hc (hcond 3 (by decide) (by decide))
  · next hc => exact absurd hc (hcond 4 (by decide) (by decide))
  · next hc => exact absurd hc (hcond 5 (by decide) (by decide))
  · next hc => exact absurd hc (hcond 6 (by decide) (by decide))
  · next hc => exact absurd hc (hcond 7 (by decide) (by decide))
  · next hc => exact absurd hc (hcond 8 (by decide) (by decide))
  · next hc => exact absurd hc (hcond 9 (by decide) (by decide))
  · next hc => exact absurd hc (hcond 0xA (by decide) (by decide))
  · exact unlessSkipped_steady (typeB_quiet _)
  · next hc => exact typeC_steady hc h
  · next hc => exact typeD_steady hc h
  · next hc => exact absurd hc h.2.2.2
  · next hc => exact typeF_steady hc h
  · exact ensures_throw ()

/-! ## Conditionals -/

/-- The condition of the types 3 to A. -/
def comparison (read : VmM ω UInt32) (mask arg : UInt32) (cmp : UInt32 → UInt32 → Bool) : VmM ω Bool := do
  let vm ← get
  let data := vm.state.data &&& mask
  let storage := vm.cheat.storage &&& mask
  match vm.state.conditionalMode.toNat with
  | 0 => do
    let value ← read
    pure (cmp (value &&& mask) arg)
  | 1 => do
    let value ← read
    pure (cmp (value &&& mask) data)
  | 2 => pure (cmp data arg)
  | 3 => pure (cmp storage arg)
  | 4 => pure (cmp data storage)
  | _ => throw ()

/-- The condition of DD: the buttons are held. -/
def padHeld (m : Machine ω) (arg1 : UInt32) : VmM ω Bool := do
  let pad ← if arg1 = 0 then pure 0 else ask m.pad
  pure (arg1 = 0 ∨ pad &&& arg1 = arg1)

/-- The condition of DE: the touch is between the bounds. -/
def touchWithin (m : Machine ω) (codeArg arg1 : UInt32) : VmM ω Bool := do
  let highBound := arg1 >>> 16
  let lowBound := arg1 &&& 0xFFFF
  let (px, py) ← ask m.touch
  match codeArg.toNat with
  | 0 => pure (lowBound ≤ px.toUInt32 ∧ highBound ≥ px.toUInt32)
  | 1 => pure (lowBound ≤ py.toUInt32 ∧ highBound ≥ py.toUInt32)
  | _ => throw ()

/-- The condition of FE: the pattern is found. A search that is skipped finds nothing. -/
def patternFound (m : Machine ω) (codes : List UInt64) (skip : Bool) (arg0 arg1 : UInt32) : VmM ω Bool := do
  let vm ← get
  let index := vm.state.index
  let searchSize := arg0 &&& 0xFFFF
  if searchSize ≤ arg1 ∧ searchSize + index < UInt32.ofNat codes.length then
    if skip then pure false
    else do
      modifyState fun s => { s with index := index + searchSize / 8 + (if searchSize &&& 7 ≠ 0 then 1 else 0) }
      let newSkip ← searchLoop m codes (index.toNat + 1) searchSize.toNat (arg1 - searchSize).toNat 0 true
      pure !newSkip
  else throw ()

/-- Does the condition of a line hold? -/
def evaluate (m : Machine ω) (codes : List UInt64) (skip : Bool) (arg0 arg1 : UInt32) : VmM ω Bool :=
  let compare32 (cmp : UInt32 → UInt32 → Bool) := comparison (read32 m (arg0 &&& 0x0FFFFFFF)) 0xFFFFFFFF arg1 cmp
  let compare16 (cmp : UInt32 → UInt32 → Bool) :=
    comparison (do let value ← read16 m (arg0 &&& 0x0FFFFFFF); pure value.toUInt32) (~~~ (arg1 >>> 16)) (arg1 &&& 0xFFFF) cmp
  match ((arg0 >>> 28) &&& 0x0F).toNat with
  | 0x3 => compare32 fun a b => a < b
  | 0x4 => compare32 fun a b => a > b
  | 0x5 => compare32 fun a b => a = b
  | 0x6 => compare32 fun a b => a ≠ b
  | 0x7 => compare16 fun a b => a < b
  | 0x8 => compare16 fun a b => a > b
  | 0x9 => compare16 fun a b => a = b
  | 0xA => compare16 fun a b => a ≠ b
  | 0xD =>
    match ((arg0 >>> 24) &&& 0x0F).toNat with
    | 0xD => padHeld m arg1
    | _ => touchWithin m (arg0 &&& 0x0F) arg1
  | _ => patternFound m codes skip arg0 arg1

theorem conditional_eq {read : VmM ω UInt32} {mask arg : UInt32} {cmp : UInt32 → UInt32 → Bool} :
    conditional skip read mask arg cmp = (do let holds ← comparison read mask arg cmp; pushIf skip !holds) := by
  unfold conditional comparison
  rw [bind_assoc]
  refine bind_congr fun vm => ?_
  dsimp only
  rcases vm.state.conditionalMode.toNat with _ | _ | _ | _ | _ | mode
  · show (read >>= _) = ((read >>= _) >>= _)
    rw [bind_assoc]
    rfl
  · show (read >>= _) = ((read >>= _) >>= _)
    rw [bind_assoc]
    rfl
  · rfl
  · rfl
  · rfl
  · rfl

theorem typeDD_eq (skip : Bool) (arg1 : UInt32) :
    typeDD m skip arg1 = (do let holds ← padHeld m arg1; pushIf skip !holds) := by
  unfold typeDD padHeld
  split
  · rfl
  · show (ask m.pad >>= _) = ((ask m.pad >>= _) >>= _)
    rw [bind_assoc]
    rfl

theorem typeDE_eq (skip : Bool) (codeArg arg1 : UInt32) :
    typeDE m skip codeArg arg1 = (do let holds ← touchWithin m codeArg arg1; pushIf skip !holds) := by
  unfold typeDE touchWithin
  rw [bind_assoc]
  refine bind_congr fun touch => ?_
  dsimp only
  rcases codeArg.toNat with _ | _ | arg
  · rfl
  · rfl
  · rfl

theorem typeFE_eq (skip : Bool) (arg0 arg1 : UInt32) :
    typeFE m codes skip arg0 arg1 = (do let holds ← patternFound m codes skip arg0 arg1; pushIf skip !holds) := by
  unfold typeFE patternFound
  rw [bind_assoc]
  refine bind_congr fun vm => ?_
  dsimp only
  split
  · split
    · rfl
    · rw [bind_assoc]
      refine bind_congr fun _ => ?_
      rw [bind_assoc]
      refine bind_congr fun newSkip => ?_
      rw [pure_bind, Bool.not_not]
  · rfl

/-- A line that opens a conditional evaluates its condition, and pushes what comes of it. -/
theorem execute_conditional (skip : Bool) (h : IsConditional code) :
    execute m codes skip (code >>> 32).toUInt32 code.toUInt32 =
      (do let holds ← evaluate m codes skip (code >>> 32).toUInt32 code.toUInt32; pushIf skip !holds) := by
  unfold execute evaluate conditional32 conditional16
  dsimp only
  rcases h with ⟨h3, hA⟩ | ⟨htype, hsub⟩ | ⟨htype, hsub⟩
  · have hcases : typeOf code = 3 ∨ typeOf code = 4 ∨ typeOf code = 5 ∨ typeOf code = 6 ∨ typeOf code = 7 ∨
        typeOf code = 8 ∨ typeOf code = 9 ∨ typeOf code = 0xA := by
      omega
    unfold typeOf at hcases
    rcases hcases with h | h | h | h | h | h | h | h <;>
      rw [h] <;>
      exact conditional_eq
  · unfold typeOf at htype
    unfold subcodeOf at hsub
    rw [htype]
    unfold typeD
    rcases hsub with hsub | hsub
    · rw [hsub]
      exact typeDD_eq _ _
    · rw [hsub]
      exact typeDE_eq _ _ _
  · unfold typeOf at htype
    unfold subcodeOf at hsub
    rw [htype]
    unfold typeF
    rw [if_neg (typeF_of_subcode (by rw [hsub]; decide)), hsub]
    exact typeFE_eq _ _ _

/-! ## Conditions -/

theorem comparison_quiet {read : VmM ω UInt32} {mask arg : UInt32} {cmp : UInt32 → UInt32 → Bool}
    (hread : Ensures Quiet read) : Ensures Quiet (comparison read mask arg cmp) := by
  unfold comparison
  refine ensures_bind ensures_get fun vm => ?_
  dsimp only
  split
  · exact ensures_bind hread fun _ => ensures_pure _
  · exact ensures_bind hread fun _ => ensures_pure _
  · exact ensures_pure _
  · exact ensures_pure _
  · exact ensures_pure _
  · exact ensures_throw ()

theorem padHeld_quiet (arg1 : UInt32) : Ensures Quiet (padHeld m arg1) := by
  unfold padHeld
  split
  · exact ensures_bind (ensures_pure _) fun _ => ensures_pure _
  · exact ensures_bind (ask_quiet _) fun _ => ensures_pure _

theorem touchWithin_quiet (codeArg arg1 : UInt32) : Ensures Quiet (touchWithin m codeArg arg1) := by
  unfold touchWithin
  refine ensures_bind (ask_quiet _) fun touch => ?_
  dsimp only
  split
  · exact ensures_pure _
  · exact ensures_pure _
  · exact ensures_throw ()

theorem evaluate_quiet (h : IsConditional code) (hsearch : ¬IsSearch code) :
    Ensures Quiet (evaluate m codes skip (code >>> 32).toUInt32 code.toUInt32) := by
  have hread32 : ∀ a, Ensures Quiet (read32 m a) := fun a => read32_quiet a
  have hread16 : ∀ a, Ensures Quiet (do let value ← read16 m a; pure value.toUInt32) := fun a =>
    ensures_bind (read16_quiet a) fun _ => ensures_pure _
  unfold evaluate
  dsimp only
  split
  · exact comparison_quiet (hread32 _)
  · exact comparison_quiet (hread32 _)
  · exact comparison_quiet (hread32 _)
  · exact comparison_quiet (hread32 _)
  · exact comparison_quiet (hread16 _)
  · exact comparison_quiet (hread16 _)
  · exact comparison_quiet (hread16 _)
  · exact comparison_quiet (hread16 _)
  · split
    · exact padHeld_quiet _
    · exact touchWithin_quiet _ _
  · next h3 h4 h5 h6 h7 h8 h9 hA hD =>
    exfalso
    rcases h with ⟨hle, hle'⟩ | ⟨htype, -⟩ | hfe
    · have hne : typeOf code ≠ 3 ∧ typeOf code ≠ 4 ∧ typeOf code ≠ 5 ∧ typeOf code ≠ 6 ∧ typeOf code ≠ 7 ∧
          typeOf code ≠ 8 ∧ typeOf code ≠ 9 ∧ typeOf code ≠ 0xA :=
        ⟨h3, h4, h5, h6, h7, h8, h9, hA⟩
      omega
    · exact hD htype
    · exact hsearch hfe

theorem differs_steady {base : Nat} {i : UInt32} : ∀ n j, Ensures Steady (differs m codes base i n j)
  | 0, j => ensures_pure _
  | n + 1, j => by
    unfold differs
    refine ensures_bind ((read8_quiet _).mono quiet_steady) fun cur => ?_
    refine ensures_bind (codeAt_steady _) fun word => ?_
    split
    · exact ensures_pure _
    · exact differs_steady n (j + 1)

theorem searchLoop_steady {base size : Nat} : ∀ n i newSkip, Ensures Steady (searchLoop m codes base size n i newSkip)
  | 0, i, newSkip => ensures_pure _
  | n + 1, i, newSkip => by
    unfold searchLoop
    refine ensures_bind (differs_steady _ _) fun newSkip => ?_
    split
    · exact searchLoop_steady n (i + 1) newSkip
    · exact ensures_pure _

/-- A search that is executed leads behind the lines of its pattern, one that is skipped does not. -/
theorem patternFound_control {holds : Bool} (h : Runs (patternFound m codes skip arg0 arg1) vm holds vm') :
    (arg0 &&& 0xFFFF ≤ arg1 ∧ (arg0 &&& 0xFFFF) + vm.state.index < UInt32.ofNat codes.length) ∧
      vm'.state.control = CheatState.control { vm.state with index := if skip then vm.state.index
        else vm.state.index + (arg0 &&& 0xFFFF) / 8 + (if (arg0 &&& 0xFFFF) &&& 7 ≠ 0 then 1 else 0) } := by
  unfold patternFound at h
  obtain ⟨_, _, hget, h⟩ := h.of_bind
  obtain ⟨rfl, rfl⟩ := runs_get_iff.mp hget
  dsimp only at h
  split at h
  · next hfit =>
    refine ⟨hfit, ?_⟩
    split at h
    · next hskip =>
      obtain ⟨-, rfl⟩ := runs_pure_iff.mp h
      rw [if_pos hskip]
    · next hskip =>
      rw [if_neg hskip]
      obtain ⟨_, vm₁, hmodify, h⟩ := h.of_bind
      obtain rfl := runs_modify_iff.mp hmodify
      obtain ⟨newSkip, vm₂, hsearch, h⟩ := h.of_bind
      obtain ⟨-, rfl⟩ := runs_pure_iff.mp h
      exact hsearch.ensures (searchLoop_steady _ _ _)
  · exact absurd h not_runs_throw

theorem evaluate_search (h : IsSearch code) : evaluate m codes skip (code >>> 32).toUInt32 code.toUInt32 =
    patternFound m codes skip (code >>> 32).toUInt32 code.toUInt32 := by
  obtain ⟨htype, -⟩ := h
  unfold typeOf at htype
  unfold evaluate
  dsimp only
  rw [htype]
  rfl

/-- Nothing but the index may change where a condition is evaluated. -/
theorem evaluate_control {holds : Bool} (h : IsConditional code)
    (hrun : Runs (evaluate m codes skip (code >>> 32).toUInt32 code.toUInt32) vm holds vm') :
    vm'.state.control = CheatState.control { vm.state with index := vm'.state.index } := by
  by_cases hsearch : IsSearch code
  · rw [evaluate_search hsearch] at hrun
    obtain ⟨-, hcontrol⟩ := patternFound_control hrun
    have hindex := congrArg (fun p => p.1.1) hcontrol
    rw [hcontrol, show vm'.state.index = _ from hindex]
    rfl
  · have hquiet := (hrun.ensures (evaluate_quiet h hsearch)).control
    rw [hquiet, show vm'.state.index = vm.state.index from congrArg (fun p => p.1.1) hquiet]

end

end Omiiba.Rosalina
