/-
What the instructions of a cheat leave alone: most of them keep the position in the code and use no
code word, divisor or shift count.
-/
import Omiiba.Lib.Effects
import Omiiba.Rosalina.CheatVm

namespace Omiiba.Rosalina

/-! ## The frame -/

/-- Where the interpreter is: the line, the loop, and the place in the bytes of an E type. -/
def CheatState.position (s : CheatState) : UInt32 × Int8 × UInt32 × UInt8 × UInt8 :=
  (s.index, s.loopLine, s.loopCount, s.typeELine, s.typeEIdx)

/-- The conditionals that are open, and those that were at the start of the loop. -/
def CheatState.conditionals (s : CheatState) : UInt32 × UInt8 × UInt32 × UInt8 :=
  (s.ifStack, s.ifCount, s.storedStack, s.storedIfCount)

/-- All but the registers. -/
def CheatState.control (s : CheatState) : (UInt32 × Int8 × UInt32 × UInt8 × UInt8) × UInt32 × UInt8 × UInt32 × UInt8 :=
  (s.position, s.conditionals)

section

variable {ω : Type} {m : Machine ω}

/-- The position is kept, and nothing is used. -/
structure Plain (vm vm' : Vm ω) : Prop where
  position : vm'.state.position = vm.state.position
  uses : vm'.uses = vm.uses

instance : Std.Refl (Plain (ω := ω)) := ⟨fun _ => ⟨rfl, rfl⟩⟩

instance : IsTrans (Vm ω) Plain :=
  ⟨fun _ _ _ h h' => ⟨h'.position.trans h.position, h'.uses.trans h.uses⟩⟩

/-- The registers may change, and nothing is used. -/
structure Quiet (vm vm' : Vm ω) : Prop where
  control : vm'.state.control = vm.state.control
  uses : vm'.uses = vm.uses

instance : Std.Refl (Quiet (ω := ω)) := ⟨fun _ => ⟨rfl, rfl⟩⟩

instance : IsTrans (Vm ω) Quiet :=
  ⟨fun _ _ _ h h' => ⟨h'.control.trans h.control, h'.uses.trans h.uses⟩⟩

theorem Quiet.plain {vm vm' : Vm ω} (h : Quiet vm vm') : Plain vm vm' := ⟨congrArg Prod.fst h.control, h.uses⟩

@[simp] theorem CheatState.setOffset_control (s : CheatState) (v : UInt32) : (s.setOffset v).control = s.control := by
  unfold setOffset
  split <;> rfl

@[simp] theorem CheatState.setData_control (s : CheatState) (v : UInt32) : (s.setData v).control = s.control := by
  unfold setData
  split <;> rfl

@[simp] theorem CheatState.setDataAt_control (s : CheatState) (a v : UInt32) : (s.setDataAt a v).control = s.control := by
  unfold setDataAt
  split
  · exact s.setData_control v
  · rfl
  · rfl

@[simp] theorem CheatState.setDataMode_control (s : CheatState) (mode : Bool) : (s.setDataMode mode).control = s.control := by
  unfold setDataMode
  split <;> rfl

theorem modifyState_quiet {f : CheatState → CheatState} (h : ∀ s, (f s).control = s.control) :
    Ensures (Quiet (ω := ω)) (modifyState f) :=
  ensures_modify fun vm => ⟨h vm.state, rfl⟩

theorem modifyState_plain {f : CheatState → CheatState} (h : ∀ s, (f s).position = s.position) :
    Ensures (Plain (ω := ω)) (modifyState f) :=
  ensures_modify fun vm => ⟨h vm.state, rfl⟩

theorem ensures_plain {α : Type} {x : VmM ω α} (h : Ensures Quiet x) : Ensures Plain x := h.mono fun _ _ h => h.plain

theorem ask_quiet {α : Type} (f : ω → α × ω) : Ensures Quiet (ask f) :=
  ensures_modifyGet fun _ => ⟨rfl, rfl⟩

theorem unlessSkipped_ensures {R : Vm ω → Vm ω → Prop} [Std.Refl R] {act : VmM ω Unit} (skip : Bool)
    (h : skip = false → Ensures R act) : Ensures R (unlessSkipped skip act) := by
  unfold unlessSkipped
  cases skip with
  | true => exact ensures_pure ()
  | false => exact h rfl

/-! ## Memory -/

theorem isValidAddress_quiet (address size : UInt32) : Ensures Quiet (isValidAddress m address size) :=
  ensures_bind (ask_quiet _) fun _ => ensures_pure _

theorem writeMemory_quiet (size : Nat) (offset value : UInt32) : Ensures Quiet (writeMemory m size offset value) := by
  unfold writeMemory
  refine ensures_bind ensures_get fun vm => ?_
  dsimp only
  split
  · exact ensures_modify fun _ => ⟨rfl, rfl⟩
  · refine ensures_bind (isValidAddress_quiet _ _) fun valid => ?_
    split
    · refine ensures_bind (ask_quiet _) fun done => ?_
      split
      · exact ensures_pure ()
      · exact ensures_throw ()
    · exact ensures_throw ()

theorem readMemory_quiet (size : Nat) (offset : UInt32) : Ensures Quiet (readMemory m size offset) := by
  unfold readMemory
  refine ensures_bind ensures_get fun vm => ?_
  dsimp only
  split
  · exact ensures_pure _
  · refine ensures_bind (isValidAddress_quiet _ _) fun valid => ?_
    split
    · refine ensures_bind (ask_quiet _) fun value => ?_
      split
      · exact ensures_pure _
      · exact ensures_throw ()
    · exact ensures_throw ()

theorem write8_quiet (offset : UInt32) (value : UInt8) : Ensures Quiet (write8 m offset value) :=
  writeMemory_quiet _ _ _

theorem write16_quiet (offset : UInt32) (value : UInt16) : Ensures Quiet (write16 m offset value) :=
  writeMemory_quiet _ _ _

theorem write32_quiet (offset value : UInt32) : Ensures Quiet (write32 m offset value) := writeMemory_quiet _ _ _

theorem read8_quiet (offset : UInt32) : Ensures Quiet (read8 m offset) :=
  ensures_bind (readMemory_quiet _ _) fun _ => ensures_pure _

theorem read16_quiet (offset : UInt32) : Ensures Quiet (read16 m offset) :=
  ensures_bind (readMemory_quiet _ _) fun _ => ensures_pure _

theorem read32_quiet (offset : UInt32) : Ensures Quiet (read32 m offset) := readMemory_quiet _ _

theorem setRandom_quiet (vm : Vm ω) (r : UInt64) : Quiet vm (vm.setRandom r) := ⟨rfl, rfl⟩

theorem getRandomNumber_quiet : Ensures (Quiet (ω := ω)) getRandomNumber :=
  ensures_modifyGet fun vm => setRandom_quiet vm _

/-! ## Conditionals and registers -/

theorem pushIf_plain (skip newSkip : Bool) : Ensures (Plain (ω := ω)) (pushIf skip newSkip) :=
  modifyState_plain fun _ => rfl

theorem conditional_plain {skip : Bool} {read : VmM ω UInt32} {mask arg : UInt32} {cmp : UInt32 → UInt32 → Bool}
    (hread : Ensures Plain read) : Ensures Plain (conditional skip read mask arg cmp) := by
  unfold conditional
  refine ensures_bind ensures_get fun vm => ?_
  dsimp only
  split
  · exact ensures_bind hread fun _ => pushIf_plain _ _
  · exact ensures_bind hread fun _ => pushIf_plain _ _
  · exact pushIf_plain _ _
  · exact pushIf_plain _ _
  · exact pushIf_plain _ _
  · exact ensures_throw ()

theorem conditional32_plain (skip : Bool) (arg0 arg1 : UInt32) (cmp : UInt32 → UInt32 → Bool) :
    Ensures Plain (conditional32 m skip arg0 arg1 cmp) :=
  conditional_plain (ensures_plain (read32_quiet _))

theorem conditional16_plain (skip : Bool) (arg0 arg1 : UInt32) (cmp : UInt32 → UInt32 → Bool) :
    Ensures Plain (conditional16 m skip arg0 arg1 cmp) :=
  conditional_plain (ensures_plain (ensures_bind (read16_quiet _) fun _ => ensures_pure _))

theorem typeD3_quiet (codeArg arg1 : UInt32) : Ensures (Quiet (ω := ω)) (typeD3 codeArg arg1) := by
  unfold typeD3
  split
  · exact modifyState_quiet fun _ => rfl
  · exact modifyState_quiet fun _ => rfl
  · exact ensures_pure ()

theorem typeD4_quiet (codeArg arg1 : UInt32) : Ensures (Quiet (ω := ω)) (typeD4 codeArg arg1) := by
  unfold typeD4
  split
  · exact modifyState_quiet fun s => s.setData_control _
  · exact modifyState_quiet fun _ => rfl
  · exact modifyState_quiet fun _ => rfl
  · exact ensures_pure ()

theorem typeD5_quiet (codeArg arg1 : UInt32) : Ensures (Quiet (ω := ω)) (typeD5 codeArg arg1) := by
  unfold typeD5
  split
  · exact modifyState_quiet fun s => s.setDataAt_control _ _
  · exact ensures_pure ()

theorem storeAndIncrement_quiet {write : UInt32 → VmM ω Unit} (step codeArg : UInt32)
    (hwrite : ∀ v, Ensures Quiet (write v)) : Ensures Quiet (storeAndIncrement write step codeArg) := by
  unfold storeAndIncrement
  split
  · exact ensures_bind ensures_get fun _ => ensures_bind (hwrite _) fun _ =>
      modifyState_quiet fun s => s.setOffset_control _
  · exact ensures_pure ()

theorem loadTo_quiet {read : VmM ω UInt32} (codeArg : UInt32) (hread : Ensures Quiet read) :
    Ensures Quiet (loadTo read codeArg) := by
  unfold loadTo
  split
  · exact ensures_bind hread fun _ => modifyState_quiet fun s => s.setDataAt_control _ _
  · exact ensures_pure ()

theorem typeDD_plain (skip : Bool) (arg1 : UInt32) : Ensures Plain (typeDD m skip arg1) := by
  unfold typeDD
  dsimp only
  split
  · exact ensures_bind (ensures_pure _) fun _ => pushIf_plain _ _
  · exact ensures_bind (ensures_plain (ask_quiet _)) fun _ => pushIf_plain _ _

theorem typeDE_plain (skip : Bool) (codeArg arg1 : UInt32) : Ensures Plain (typeDE m skip codeArg arg1) := by
  unfold typeDE
  refine ensures_bind (ensures_plain (ask_quiet _)) fun touch => ?_
  dsimp only
  split
  · exact pushIf_plain _ _
  · exact pushIf_plain _ _
  · exact ensures_throw ()

theorem typeDF_quiet (codeArg arg1 : UInt32) : Ensures Quiet (typeDF m codeArg arg1) := by
  unfold typeDF
  split
  · refine modifyState_quiet fun s => ?_
    split_ifs <;> rfl
  · refine modifyState_quiet fun s => ?_
    split_ifs <;> rfl
  · refine ensures_modify fun vm => ?_
    split_ifs <;> exact ⟨rfl, rfl⟩
  · unfold typeDFE
    split
    · exact modifyState_quiet fun s => s.setDataMode_control _
    · exact modifyState_quiet fun s => s.setDataMode_control _
    · exact modifyState_quiet fun s => by simp
    · exact modifyState_quiet fun s => by simp
    · exact ensures_throw ()
  · split
    · exact modifyState_quiet fun _ => rfl
    · exact ensures_throw ()
  · exact ensures_throw ()

theorem typeFCLoop_quiet : ∀ n, Ensures Quiet (typeFCLoop m n)
  | 0 => ensures_pure ()
  | n + 1 =>
    ensures_bind (modifyState_quiet fun _ => rfl) fun _ =>
      ensures_bind (read8_quiet _) fun _ =>
        ensures_bind (modifyState_quiet fun _ => rfl) fun _ =>
          ensures_bind (write8_quiet _ _) fun _ => typeFCLoop_quiet n

theorem typeFC_quiet (arg1 : UInt32) : Ensures Quiet (typeFC m arg1) :=
  ensures_bind ensures_get fun _ =>
    ensures_bind (typeFCLoop_quiet _) fun _ => modifyState_quiet fun _ => rfl

theorem typeB_quiet (arg0 : UInt32) : Ensures Quiet (typeB m arg0) :=
  ensures_bind (read32_quiet _) fun _ => modifyState_quiet fun s => s.setOffset_control _

/-! ## Arithmetic -/

section

variable {R : Vm ω → Vm ω → Prop} [Std.Refl R] [IsTrans (Vm ω) R]

theorem updateWord_ensures (hquiet : ∀ vm vm', Quiet vm vm' → R vm vm') (arg0 : UInt32)
    {op : CheatState → UInt32 → VmM ω UInt32} (hop : ∀ s v, Ensures R (op s v)) : Ensures R (updateWord m arg0 op) :=
  ensures_bind ensures_get fun _ =>
    ensures_bind ((read32_quiet _).mono hquiet) fun _ =>
      ensures_bind (hop _ _) fun _ => (write32_quiet _ _).mono hquiet

theorem updateData_ensures (hquiet : ∀ vm vm', Quiet vm vm' → R vm vm') {op : CheatState → UInt32 → VmM ω UInt32}
    (hop : ∀ s v, Ensures R (op s v)) : Ensures R (updateData op) :=
  ensures_bind ensures_get fun _ =>
    ensures_bind (hop _ _) fun _ => (modifyState_quiet fun s => s.setData_control _).mono hquiet

end

end

end Omiiba.Rosalina
