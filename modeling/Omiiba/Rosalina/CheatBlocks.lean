/-
The conditionals and the repeat blocks of a cheat. The blocks that are open are a list of what their
conditions were; the interpreter keeps them in the bits of a word, and a copy for the turns of a loop.
-/
import Omiiba.Rosalina.CheatSkip

namespace Omiiba.Rosalina

/-! ## Blocks -/

/-- What a line does to the blocks. -/
inductive BlockEvent
  /-- A conditional is opened. -/
  | opens (holds : Bool)
  /-- A repeat block begins. -/
  | begins (turns : Nat)
  /-- The last block is closed: a conditional, or a turn of the repeat block. -/
  | closes
  /-- A turn of the repeat block ends, with the conditionals in it. -/
  | ends
  /-- The same, and with the last turn all conditionals end. -/
  | clears
  /-- The repeat block is broken off. -/
  | breaks
  | none

/-- The conditionals that are open, the last one first, each with what its condition was; and those that
were open where the repeat block began, with the turns that are left of it. -/
structure Blocks where
  opened : List Bool
  loop : Option (List Bool × Nat)

namespace Blocks

/-- A turn of the repeat block is over. -/
def nextTurn (saved : List Bool) (turns : Nat) : Option (List Bool × Nat) :=
  if turns = 1 then .none else some (saved, turns - 1)

def next (b : Blocks) : BlockEvent → Blocks
  | .opens holds => { b with opened := holds :: b.opened }
  | .begins turns => { b with loop := if turns = 0 then .none else some (b.opened, turns) }
  | .closes =>
    match b.loop with
    | .none => { b with opened := b.opened.tail }
    | some (saved, turns) =>
      if saved.length < b.opened.length then { b with opened := b.opened.tail }
      else { b with loop := nextTurn saved turns }
  | .ends =>
    match b.loop with
    | .none => b
    | some (saved, turns) => ⟨saved, nextTurn saved turns⟩
  | .clears =>
    match b.loop with
    | .none => ⟨[], .none⟩
    | some (saved, turns) => if turns = 1 then ⟨[], .none⟩ else ⟨saved, nextTurn saved turns⟩
  | .breaks => { b with loop := .none }
  | .none => b

end Blocks

/-! ## The word of the conditionals -/

/-- The word with a conditional pushed on it, which fails itself or is in a block that is skipped. -/
def pushWord (stack : UInt32) (skip newSkip : Bool) : UInt32 :=
  (stack <<< 1) ||| (if newSkip || skip then 1 else 0)

def skipsWord (stack : UInt32) : Bool := stack &&& 1 ≠ 0

/-- The word of the conditionals that are open. -/
def stackWord : List Bool → UInt32
  | [] => 0
  | holds :: opened => pushWord (stackWord opened) (skipsWord (stackWord opened)) !holds

theorem pushWord_toNat {stack : UInt32} {n : Nat} (h : stack.toNat < 2 ^ n) (hn : n < 32) (skip newSkip : Bool) :
    (pushWord stack skip newSkip).toNat = 2 * stack.toNat + (if newSkip || skip then 1 else 0) := by
  have hpow : 2 ^ n ≤ 2 ^ 31 := Nat.pow_le_pow_right (by decide) (by omega)
  unfold pushWord
  rw [UInt32.toNat_or, UInt32.toNat_shiftLeft, show (1 : UInt32).toNat % 32 = 1 from rfl, Nat.shiftLeft_eq,
    Nat.mod_eq_of_lt (by omega), Nat.mul_comm]
  split
  · exact Nat.two_pow_add_eq_or_of_lt (i := 1) (by decide : (1 : Nat) < 2 ^ 1) stack.toNat |>.symm
  · exact Nat.or_zero _

theorem skipsWord_iff (stack : UInt32) : skipsWord stack = true ↔ stack.toNat % 2 = 1 := by
  have hand : (stack &&& 1).toNat = stack.toNat % 2 := by
    rw [UInt32.toNat_and]
    exact Nat.and_one_is_mod _
  unfold skipsWord
  rw [decide_eq_true_iff, ← hand]
  constructor
  · intro hne
    have hpos : (stack &&& 1).toNat ≠ 0 := fun hz => hne (UInt32.toNat_inj.mp hz)
    omega
  · intro hone hz
    rw [hz] at hone
    cases hone

theorem stackWord_lt : ∀ {opened : List Bool}, opened.length ≤ 32 → (stackWord opened).toNat < 2 ^ opened.length
  | [], _ => by decide
  | holds :: opened, h => by
    have hle : opened.length ≤ 32 := by
      simp at h
      omega
    have hlt := stackWord_lt hle
    rw [stackWord, pushWord_toNat hlt (by simpa using h), List.length_cons, Nat.pow_succ]
    split <;> omega

/-- The last conditional that is open gives the low bit, and the others the bits above. -/
theorem stackWord_cons {holds : Bool} {opened : List Bool} (h : opened.length < 32) :
    stackWord (holds :: opened) >>> 1 = stackWord opened := by
  have hlt := stackWord_lt h.le
  refine UInt32.toNat_inj.mp ?_
  rw [UInt32.toNat_shiftRight, stackWord, pushWord_toNat hlt h, show (1 : UInt32).toNat % 32 = 1 from rfl,
    Nat.shiftRight_eq_div_pow]
  split <;> omega

/-- A block is skipped if a conditional that is open has failed. -/
theorem skipsWord_stackWord : ∀ {opened : List Bool}, opened.length ≤ 32 →
    (skipsWord (stackWord opened) = true ↔ false ∈ opened)
  | [], _ => by decide
  | holds :: opened, h => by
    have hle : opened.length ≤ 32 := by
      simp at h
      omega
    have hrest := skipsWord_stackWord hle
    rw [skipsWord_iff, stackWord, pushWord_toNat (stackWord_lt hle) (by simpa using h)]
    cases holds with
    | true =>
      rw [List.mem_cons, ← hrest]
      cases skipsWord (stackWord opened) <;> simp
    | false => simp

/-! ## What the interpreter keeps -/

/-- The interpreter keeps the blocks: what is open in its word, and the copy for the turns that are left. -/
structure Agrees (s : CheatState) (b : Blocks) : Prop where
  stack : s.ifStack = stackWord b.opened
  count : s.ifCount.toNat = b.opened.length
  idle : b.loop = none → s.loopCount = 0
  inner : ∀ saved turns, b.loop = some (saved, turns) → 0 < turns ∧ s.loopCount.toNat = turns ∧
    s.storedStack = stackWord saved ∧ s.storedIfCount.toNat = saved.length ∧ saved <:+ b.opened

section

variable {s s' : CheatState} {b : Blocks} {saved : List Bool} {turns : Nat}

theorem Agrees.congr (h : Agrees s b) (hcond : s'.conditionals = s.conditionals) (hcount : s'.loopCount = s.loopCount) :
    Agrees s' b where
  stack := (congrArg Prod.fst hcond).trans h.stack
  count := (congrArg (fun p => UInt8.toNat p.2.1) hcond).trans h.count
  idle := fun hloop => hcount.trans (h.idle hloop)
  inner := by
    intro saved turns hloop
    obtain ⟨hpos, hturns, hstack, hlen, hsuffix⟩ := h.inner saved turns hloop
    exact ⟨hpos, (congrArg UInt32.toNat hcount).trans hturns, (congrArg (fun p => p.2.2.1) hcond).trans hstack,
      (congrArg (fun p => UInt8.toNat p.2.2.2) hcond).trans hlen, hsuffix⟩

theorem Agrees.push (h : Agrees s b) (hdepth : b.opened.length < 32) (holds : Bool) :
    Agrees { s with ifStack := pushWord s.ifStack (skipsWord s.ifStack) !holds, ifCount := s.ifCount + 1 }
      (b.next (.opens holds)) where
  stack := by
    dsimp only
    rw [h.stack]
    rfl
  count := by
    show (s.ifCount + 1).toNat = b.opened.length + 1
    have hcount := h.count
    rw [UInt8.toNat_add, hcount]
    exact Nat.mod_eq_of_lt (by simp; omega)
  idle := h.idle
  inner := by
    intro saved turns hloop
    obtain ⟨hpos, hturns, hstack, hlen, hsuffix⟩ := h.inner saved turns hloop
    exact ⟨hpos, hturns, hstack, hlen, hsuffix.trans (List.suffix_cons _ _)⟩

theorem Agrees.begin (h : Agrees s b) (line : Int8) (turns : UInt32) :
    Agrees { s with loopLine := line, loopCount := turns, storedStack := s.ifStack, storedIfCount := s.ifCount }
      (b.next (.begins turns.toNat)) where
  stack := h.stack
  count := h.count
  idle := by
    show (if turns.toNat = 0 then none else some (b.opened, turns.toNat)) = none → turns = 0
    split
    · next hz => exact fun _ => UInt32.toNat_inj.mp hz
    · exact fun hne => absurd hne (by simp)
  inner := by
    show ∀ saved n, (if turns.toNat = 0 then none else some (b.opened, turns.toNat)) = some (saved, n) → _
    intro saved n hloop
    split at hloop
    · cases hloop
    · next hne =>
      obtain ⟨rfl, rfl⟩ := Prod.mk.inj (Option.some.inj hloop)
      exact ⟨Nat.pos_of_ne_zero hne, rfl, h.stack, h.count, List.suffix_refl _⟩

/-- The last conditional is closed, if the repeat block began before it. -/
theorem Agrees.pop (h : Agrees s b) (hdepth : b.opened.length ≤ 32) (hopen : b.opened ≠ [])
    (hloop : ∀ saved turns, b.loop = some (saved, turns) → saved.length < b.opened.length) :
    Agrees s.popIf { b with opened := b.opened.tail } := by
  rcases hopened : b.opened with _ | ⟨holds, rest⟩
  · exact absurd hopened hopen
  · rw [hopened] at hdepth
    simp only [List.length_cons] at hdepth
    have hstack := h.stack
    have hcount := h.count
    rw [hopened] at hstack hcount
    constructor
    · show s.ifStack >>> 1 = stackWord rest
      rw [hstack, stackWord_cons (by omega)]
    · show (s.ifCount - 1).toNat = rest.length
      simp only [List.length_cons] at hcount
      rw [UInt8.toNat_sub_of_le _ _ (by rw [UInt8.le_iff_toNat_le]; simp; omega), hcount]
      rfl
    · exact h.idle
    · intro saved turns hsome
      obtain ⟨hpos, hturns, hstored, hlen, hsuffix⟩ := h.inner saved turns hsome
      have hshort := hloop saved turns hsome
      rw [hopened] at hsuffix hshort
      refine ⟨hpos, hturns, hstored, hlen, ?_⟩
      rcases List.suffix_cons_iff.mp hsuffix with heq | hrest
      · rw [heq] at hshort
        exact absurd hshort (lt_irrefl _)
      · exact hrest

/-- A turn is used up, with what is open as at the line of the loop. -/
theorem Agrees.turn (h : Agrees s ⟨saved, some (saved, turns)⟩) :
    Agrees s.turn ⟨saved, Blocks.nextTurn saved turns⟩ := by
  obtain ⟨hpos, hturns, hstored, hlen, -⟩ := h.inner saved turns rfl
  have hsub : (s.loopCount - 1).toNat = turns - 1 := by
    rw [UInt32.toNat_sub_of_le _ _ (by rw [UInt32.le_iff_toNat_le]; simp; omega), hturns]
    rfl
  have hlast : s.loopCount - 1 = 0 ↔ turns = 1 := by
    rw [← UInt32.toNat_inj, hsub]
    simp
    omega
  have hfields : s.turn.conditionals = s.conditionals ∧ s.turn.loopCount = s.loopCount - 1 := by
    unfold CheatState.turn
    dsimp only
    split_ifs <;> exact ⟨rfl, rfl⟩
  obtain ⟨hcond, hcount⟩ := hfields
  constructor
  · exact (congrArg Prod.fst hcond).trans h.stack
  · exact (congrArg (fun p => UInt8.toNat p.2.1) hcond).trans h.count
  · show Blocks.nextTurn saved turns = none → _
    unfold Blocks.nextTurn
    rw [hcount]
    split
    · next hone => exact fun _ => hlast.mpr hone
    · exact fun hne => absurd hne (by simp)
  · show ∀ saved' turns', Blocks.nextTurn saved turns = some (saved', turns') → _
    unfold Blocks.nextTurn
    intro saved' turns' hnext
    split at hnext
    · cases hnext
    · next hne =>
      obtain ⟨rfl, rfl⟩ := Prod.mk.inj (Option.some.inj hnext)
      refine ⟨by omega, ?_, (congrArg (fun p => p.2.2.1) hcond).trans hstored,
        (congrArg (fun p => UInt8.toNat p.2.2.2) hcond).trans hlen, List.suffix_refl _⟩
      rw [hcount, hsub]

theorem Agrees.restore (h : Agrees s b) (hloop : b.loop = some (saved, turns)) :
    Agrees { s with ifStack := s.storedStack, ifCount := s.storedIfCount } ⟨saved, some (saved, turns)⟩ := by
  obtain ⟨hpos, hturns, hstored, hlen, -⟩ := h.inner saved turns hloop
  refine ⟨hstored, hlen, fun hnone => absurd hnone (by simp), ?_⟩
  rintro saved' turns' heq
  obtain ⟨rfl, rfl⟩ := Prod.mk.inj (Option.some.inj heq)
  exact ⟨hpos, hturns, hstored, hlen, List.suffix_refl _⟩

/-- As many are open as at the line of the loop: they are the same. -/
theorem Agrees.opened_eq (h : Agrees s b) (hloop : b.loop = some (saved, turns)) (hle : s.ifCount.toNat ≤ s.storedIfCount.toNat) :
    b = ⟨saved, some (saved, turns)⟩ := by
  obtain ⟨opened, loop⟩ := b
  obtain rfl : loop = some (saved, turns) := hloop
  obtain ⟨-, -, -, hlen, hsuffix⟩ := h.inner saved turns rfl
  have hcount : s.ifCount.toNat = opened.length := h.count
  have hlong : opened.length ≤ saved.length := by omega
  obtain rfl : saved = opened := hsuffix.eq_of_length_le hlong
  rfl

theorem Agrees.clear (hcount : s.loopCount = 0) : Agrees s.clear ⟨[], none⟩ where
  stack := rfl
  count := rfl
  idle := fun _ => (congrArg (fun p => p.2.2.1) s.clear_position).trans hcount
  inner := by
    rintro saved turns ⟨⟩

end

/-! ## Lines -/

/-- How often the lines behind a C are to be repeated. -/
def loopTurns (code : UInt64) (s : CheatState) : UInt32 :=
  match (subcodeOf code).toNat with
  | 0 => code.toUInt32
  | 1 => s.data1
  | _ => s.data2

section

variable {ω : Type} {m : Machine ω} {codes : List UInt64} {vm vm' : Vm ω} {b : Blocks}

/-- What the condition of the line at hand is. -/
def conditionHolds (m : Machine ω) (codes : List UInt64) (vm : Vm ω) : Bool :=
  match ((evaluate m codes (skips vm) (codeOf codes vm.state >>> 32).toUInt32
    (codeOf codes vm.state).toUInt32).run.run (fetched vm)).1 with
  | .ok holds => holds
  | .error _ => false

/-- What the line at hand does to the blocks. -/
def blockEvent (m : Machine ω) (codes : List UInt64) (vm : Vm ω) : BlockEvent :=
  let code := codeOf codes vm.state
  if IsConditional code then .opens (conditionHolds m codes vm)
  else if BeginsLoop code then .begins (loopTurns code vm.state).toNat
  else if typeOf code = 0xD then
    match (subcodeOf code).toNat with
    | 0 => if code.toUInt32 = 0 then .closes else if code.toUInt32 = 1 ∧ skips vm = false then .breaks else .none
    | 1 => .ends
    | 2 => if code.toUInt32 = 0 then .clears else .none
    | _ => .none
  else .none

/-- What D0 and D2 rely on. D0: the line of a repeat block is not -1 where it ends a turn, and is -1 where
there is no repeat block and a conditional is to be closed. D2: where turns are left, no conditional is
open that was not at the line of the loop. -/
structure EndsFit (codes : List UInt64) (vm : Vm ω) : Prop where
  close : typeOf (codeOf codes vm.state) = 0xD → (subcodeOf (codeOf codes vm.state)).toNat = 0 →
    (codeOf codes vm.state).toUInt32 = 0 →
    (vm.state.loopCount ≠ 0 → vm.state.loopLine ≠ -1 ∨ vm.state.storedIfCount < vm.state.ifCount) ∧
      (vm.state.loopCount = 0 → vm.state.loopLine = -1 ∨ vm.state.ifCount = 0 ∨ vm.state.storedIfCount < vm.state.ifCount)
  clear : typeOf (codeOf codes vm.state) = 0xD → (subcodeOf (codeOf codes vm.state)).toNat = 2 →
    (codeOf codes vm.state).toUInt32 = 0 → 1 < vm.state.loopCount →
    vm.state.ifStack = vm.state.storedStack ∧ vm.state.ifCount = vm.state.storedIfCount

theorem skips_eq (vm : Vm ω) : skips vm = skipsWord vm.state.ifStack := rfl

theorem conditional_agrees (hc : IsConditional (codeOf codes vm.state)) (h : Agrees vm.state b)
    (hdepth : b.opened.length < 32)
    (hrun : Runs (execute m codes (skips vm) (codeOf codes vm.state >>> 32).toUInt32 (codeOf codes vm.state).toUInt32)
      (fetched vm) () vm') : Agrees vm'.state (b.next (.opens (conditionHolds m codes vm))) := by
  rw [execute_conditional _ hc] at hrun
  obtain ⟨holds, vm₁, heval, hpush⟩ := hrun.of_bind
  have hholds : conditionHolds m codes vm = holds := by
    unfold conditionHolds
    rw [show (evaluate m codes (skips vm) (codeOf codes vm.state >>> 32).toUInt32
      (codeOf codes vm.state).toUInt32).run.run (fetched vm) = (.ok holds, vm₁) from heval]
  have hcontrol := evaluate_control hc heval
  have hcond : vm₁.state.conditionals = vm.state.conditionals := congrArg Prod.snd hcontrol
  have hagrees : Agrees vm₁.state b := h.congr hcond (congrArg (fun p => p.1.2.2.1) hcontrol)
  have hskip : skips vm = skipsWord vm₁.state.ifStack := by
    rw [skips_eq, show vm₁.state.ifStack = vm.state.ifStack from congrArg Prod.fst hcond]
  obtain rfl := runs_modify_iff.mp hpush
  rw [hholds, hskip]
  exact hagrees.push hdepth holds

theorem typeC_agrees (hc : BeginsLoop (codeOf codes vm.state)) (h : Agrees vm.state b)
    (hrun : Runs (typeC (subcodeOf (codeOf codes vm.state)) (codeOf codes vm.state).toUInt32) (fetched vm) () vm') :
    Agrees vm'.state (b.next (.begins (loopTurns (codeOf codes vm.state) vm.state).toNat)) := by
  have hcases : (subcodeOf (codeOf codes vm.state)).toNat = 0 ∨ (subcodeOf (codeOf codes vm.state)).toNat = 1 ∨
      (subcodeOf (codeOf codes vm.state)).toNat = 2 := by
    have hle := hc.2
    omega
  unfold typeC at hrun
  unfold loopTurns
  dsimp only at hrun
  rcases hcases with hsub | hsub | hsub
  · rw [hsub] at hrun ⊢
    obtain rfl := runs_modify_iff.mp hrun
    exact h.begin _ _
  · rw [hsub] at hrun ⊢
    obtain rfl := runs_modify_iff.mp hrun
    exact h.begin _ _
  · rw [hsub] at hrun ⊢
    obtain rfl := runs_modify_iff.mp hrun
    exact h.begin _ _

end

/-! ## Terminators -/

/-- D0. -/
def CheatState.closeBlock (s : CheatState) : CheatState :=
  if s.loopLine ≠ -1 then
    if s.ifCount > 0 ∧ s.ifCount > s.storedIfCount then s.popIf
    else if s.loopCount > 0 then s.turn
    else s
  else if s.ifCount > 0 then s.popIf
  else s

section

variable {s : CheatState} {opened saved : List Bool} {turns : Nat} {loop : Option (List Bool × Nat)}

theorem Agrees.ifCount_pos (h : Agrees s ⟨opened, loop⟩) : s.ifCount > 0 ↔ opened ≠ [] := by
  rw [gt_iff_lt, UInt8.lt_iff_toNat_lt, h.count, ← List.length_pos_iff]
  rfl

/-- Where there is no repeat block, D0 closes the last conditional. -/
theorem Agrees.closeConditional (h : Agrees s ⟨opened, none⟩) (hdepth : opened.length ≤ 32)
    (hline : s.loopLine = -1 ∨ s.ifCount = 0 ∨ s.storedIfCount < s.ifCount) :
    Agrees s.closeBlock ⟨opened.tail, none⟩ := by
  have hcalm : s.loopCount = 0 := h.idle rfl
  have hpop : opened ≠ [] → Agrees s.popIf ⟨opened.tail, none⟩ := fun hempty =>
    h.pop hdepth hempty fun saved turns hsome => absurd hsome (by simp)
  have hkeep : opened = [] → Agrees s ⟨opened.tail, none⟩ := by
    rintro rfl
    exact h
  unfold CheatState.closeBlock
  split_ifs with hminus hif hcount hif
  · exact hpop (h.ifCount_pos.mp hif.1)
  · rw [hcalm] at hcount
    exact absurd hcount (by decide)
  · refine hkeep (by_contra fun hempty => ?_)
    have hpos := h.ifCount_pos.mpr hempty
    rcases hline with hl | hz | hlt
    · exact hminus hl
    · rw [hz] at hpos
      exact absurd hpos (by decide)
    · exact hif ⟨hpos, hlt⟩
  · exact hpop (h.ifCount_pos.mp hif)
  · exact hkeep (by_contra fun hempty => hif (h.ifCount_pos.mpr hempty))

/-- In a repeat block, D0 closes a conditional of the block, or ends a turn. -/
theorem Agrees.closeInner (h : Agrees s ⟨opened, some (saved, turns)⟩) (hdepth : opened.length ≤ 32)
    (hline : s.loopLine ≠ -1 ∨ s.storedIfCount < s.ifCount) :
    Agrees s.closeBlock (Blocks.next ⟨opened, some (saved, turns)⟩ .closes) := by
  obtain ⟨hturns, heq, hstored, hlen, hsuffix⟩ := h.inner saved turns rfl
  have hcount : s.ifCount.toNat = opened.length := h.count
  have hinner : s.storedIfCount < s.ifCount ↔ saved.length < opened.length := by
    rw [UInt8.lt_iff_toNat_lt, hlen, hcount]
  have hsome : s.loopCount > 0 := by
    rw [gt_iff_lt, UInt32.lt_iff_toNat_lt, heq]
    exact hturns
  show Agrees _ (if saved.length < opened.length then ⟨opened.tail, some (saved, turns)⟩
    else ⟨opened, Blocks.nextTurn saved turns⟩)
  by_cases hlt : saved.length < opened.length
  · have hempty : opened ≠ [] := List.length_pos_iff.mp (by omega)
    have hpos := h.ifCount_pos.mpr hempty
    have hpop : Agrees s.popIf ⟨opened.tail, some (saved, turns)⟩ :=
      h.pop hdepth hempty fun saved' turns' hsome' => by
        obtain ⟨rfl, -⟩ := Prod.mk.inj (Option.some.inj hsome')
        exact hlt
    unfold CheatState.closeBlock
    rw [if_pos hlt, if_pos (And.intro hpos (hinner.mpr hlt)), if_pos hpos, ite_self]
    exact hpop
  · have hminus : s.loopLine ≠ -1 := hline.resolve_right fun hc => hlt (hinner.mp hc)
    obtain ⟨rfl, -⟩ := Blocks.mk.inj (h.opened_eq rfl (by omega))
    unfold CheatState.closeBlock
    rw [if_neg hlt, if_pos hminus, if_neg fun hc => hlt (hinner.mp hc.2), if_pos hsome]
    exact h.turn

/-- D1. -/
theorem Agrees.endTurn (h : Agrees s ⟨opened, loop⟩) :
    Agrees (if s.loopCount > 0 then { s with ifStack := s.storedStack, ifCount := s.storedIfCount }.turn else s)
      (Blocks.next ⟨opened, loop⟩ .ends) := by
  rcases loop with _ | ⟨saved, turns⟩
  · rw [h.idle rfl, if_neg (by decide)]
    exact h
  · obtain ⟨hturns, heq, -⟩ := h.inner saved turns rfl
    rw [if_pos (by rw [gt_iff_lt, UInt32.lt_iff_toNat_lt, heq]; exact hturns)]
    exact (h.restore rfl).turn

/-- D2. -/
theorem Agrees.clearTurn (h : Agrees s ⟨opened, loop⟩)
    (hsame : 1 < s.loopCount → s.ifStack = s.storedStack ∧ s.ifCount = s.storedIfCount) :
    Agrees (if s.loopCount > 0 then if s.loopCount - 1 = 0 then s.turn.clear else s.turn else s.clear)
      (Blocks.next ⟨opened, loop⟩ .clears) := by
  rcases loop with _ | ⟨saved, turns⟩
  · rw [h.idle rfl, if_neg (by decide)]
    exact Agrees.clear (h.idle rfl)
  · obtain ⟨hturns, heq, -⟩ := h.inner saved turns rfl
    have hsub : (s.loopCount - 1).toNat = turns - 1 := by
      rw [UInt32.toNat_sub_of_le _ _ (by rw [UInt32.le_iff_toNat_le]; simp; omega), heq]
      rfl
    rw [if_pos (by rw [gt_iff_lt, UInt32.lt_iff_toNat_lt, heq]; exact hturns)]
    show Agrees _ (if turns = 1 then ⟨[], none⟩ else ⟨saved, Blocks.nextTurn saved turns⟩)
    by_cases hlast : turns = 1
    · have hzero : s.loopCount - 1 = 0 := UInt32.toNat_inj.mp (by rw [hsub, hlast]; rfl)
      rw [if_pos hzero, if_pos hlast]
      refine Agrees.clear ?_
      unfold CheatState.turn
      rw [if_pos hzero]
      exact hzero
    · have hne : s.loopCount - 1 ≠ 0 := fun hz => by
        rw [hz] at hsub
        simp at hsub
        omega
      have hmore : 1 < s.loopCount := by
        rw [UInt32.lt_iff_toNat_lt, heq]
        show 1 < turns
        omega
      obtain ⟨rfl, -⟩ := Blocks.mk.inj (h.opened_eq rfl (by rw [(hsame hmore).2]))
      rw [if_neg hne, if_neg hlast]
      exact h.turn

end

/-! ## Steps -/

section

variable {ω : Type} {m : Machine ω} {codes : List UInt64} {vm vm' : Vm ω} {b : Blocks}

/-- The conditionals and the turns that are left are kept. -/
structure SameBlocks (vm vm' : Vm ω) : Prop where
  conditionals : vm'.state.conditionals = vm.state.conditionals
  count : vm'.state.loopCount = vm.state.loopCount

instance : Std.Refl (SameBlocks (ω := ω)) := ⟨fun _ => ⟨rfl, rfl⟩⟩

instance : IsTrans (Vm ω) SameBlocks :=
  ⟨fun _ _ _ h h' => ⟨h'.conditionals.trans h.conditionals, h'.count.trans h.count⟩⟩

theorem steady_sameBlocks (vm vm' : Vm ω) (h : Steady vm vm') : SameBlocks vm vm' :=
  ⟨congrArg Prod.snd h, congrArg (fun p => p.1.2.2.1) h⟩

theorem Agrees.same (h : Agrees vm.state b) (hsame : SameBlocks vm vm') : Agrees vm'.state b :=
  h.congr hsame.conditionals hsame.count

theorem modifyState_sameBlocks {f : CheatState → CheatState}
    (h : ∀ s, (f s).conditionals = s.conditionals ∧ (f s).loopCount = s.loopCount) :
    Ensures (SameBlocks (ω := ω)) (modifyState f) :=
  ensures_modify fun vm => ⟨(h vm.state).1, (h vm.state).2⟩

theorem typeELoop_sameBlocks {skip : Bool} {beginOffset : UInt32} : ∀ n i,
    Ensures SameBlocks (typeELoop m codes skip beginOffset n i)
  | 0, i => ensures_pure _
  | n + 1, i => by
    unfold typeELoop
    refine ensures_bind ?_ fun byte => ensures_bind ?_ fun _ => typeELoop_sameBlocks n (i + 1)
    · refine ensures_bind (modifyState_sameBlocks fun s => ?_) fun _ => ensures_bind ensures_get fun _ =>
        ensures_bind ((codeAt_steady _).mono steady_sameBlocks) fun _ => ensures_pure _
      split <;> exact ⟨rfl, rfl⟩
    · exact (unlessSkipped_steady (write8_quiet _ _)).mono steady_sameBlocks

theorem typeE_sameBlocks {skip : Bool} {arg0 arg1 : UInt32} : Ensures SameBlocks (typeE m codes skip arg0 arg1) :=
  ensures_bind (modifyState_sameBlocks fun _ => ⟨rfl, rfl⟩) fun _ =>
    ensures_bind (typeELoop_sameBlocks _ _) fun _ => modifyState_sameBlocks fun _ => ⟨rfl, rfl⟩

theorem skipLoop_sameBlocks : ∀ n, Ensures SameBlocks (skipLoop m codes n)
  | 0 => ensures_pure _
  | n + 1 => by
    unfold skipLoop
    refine ensures_bind ensures_get fun vm => ?_
    dsimp only
    split
    · refine ensures_bind ((codeAt_steady _).mono steady_sameBlocks) fun word =>
        ensures_bind (modifyState_sameBlocks fun _ => ⟨rfl, rfl⟩) fun _ => ?_
      split
      · exact ensures_pure _
      · exact skipLoop_sameBlocks n
    · exact ensures_pure _

theorem blockEvent_conditional (hc : IsConditional (codeOf codes vm.state)) :
    blockEvent m codes vm = .opens (conditionHolds m codes vm) := if_pos hc

theorem blockEvent_begins (hc : BeginsLoop (codeOf codes vm.state)) :
    blockEvent m codes vm = .begins (loopTurns (codeOf codes vm.state) vm.state).toNat := by
  have hnot : ¬IsConditional (codeOf codes vm.state) := by
    have htype := hc.1
    rintro (⟨-, hle⟩ | ⟨hD, -⟩ | ⟨hF, -⟩)
    · omega
    · omega
    · omega
  unfold blockEvent
  dsimp only
  rw [if_neg hnot, if_pos hc]

theorem blockEvent_terminator (hc : IsTerminator (codeOf codes vm.state)) :
    blockEvent m codes vm = match (subcodeOf (codeOf codes vm.state)).toNat with
      | 0 => if (codeOf codes vm.state).toUInt32 = 0 then .closes
        else if (codeOf codes vm.state).toUInt32 = 1 ∧ skips vm = false then .breaks else .none
      | 1 => .ends
      | 2 => if (codeOf codes vm.state).toUInt32 = 0 then .clears else .none
      | _ => .none := by
  obtain ⟨htype, hsub⟩ := hc
  have hnot : ¬IsConditional (codeOf codes vm.state) := by
    rintro (⟨-, hle⟩ | ⟨-, hD⟩ | ⟨hF, -⟩)
    · omega
    · omega
    · omega
  have hloop : ¬BeginsLoop (codeOf codes vm.state) := fun h => by
    have hC := h.1
    omega
  unfold blockEvent
  dsimp only
  rw [if_neg hnot, if_neg hloop, if_pos htype]

theorem blockEvent_ordinary (hc : IsOrdinary (codeOf codes vm.state) ∨ typeOf (codeOf codes vm.state) = 0xE) :
    blockEvent m codes vm = .none := by
  have hnot : ¬IsConditional (codeOf codes vm.state) ∧ ¬BeginsLoop (codeOf codes vm.state) ∧
      ¬IsTerminator (codeOf codes vm.state) := by
    rcases hc with hc | hE
    · exact ⟨hc.1, hc.2.1, hc.2.2.1⟩
    · refine ⟨?_, fun h => ?_, fun h => ?_⟩
      · rintro (⟨-, hle⟩ | ⟨hD, -⟩ | ⟨hF, -⟩)
        · omega
        · omega
        · omega
      · have hC := h.1
        omega
      · have hD := h.1
        omega
  unfold blockEvent
  dsimp only
  rw [if_neg hnot.1, if_neg hnot.2.1]
  split
  · next htype =>
    split
    · next hsub => exact absurd ⟨htype, by omega⟩ hnot.2.2
    · next hsub => exact absurd ⟨htype, by omega⟩ hnot.2.2
    · next hsub => exact absurd ⟨htype, by omega⟩ hnot.2.2
    · rfl
  · rfl

theorem Agrees.broken (h : Agrees vm.state b) (line : Int8) (index : UInt32) :
    Agrees { vm.state with loopCount := 0, loopLine := line, index := index } (b.next .breaks) where
  stack := h.stack
  count := h.count
  idle := fun _ => rfl
  inner := by
    rintro saved turns ⟨⟩

theorem terminator_agrees (hc : IsTerminator (codeOf codes vm.state)) (h : Agrees vm.state b)
    (hdepth : b.opened.length ≤ 32) (hfit : EndsFit codes vm) {codeArg : UInt32}
    (hrun : Runs (typeD m codes (skips vm) (subcodeOf (codeOf codes vm.state)) codeArg (codeOf codes vm.state).toUInt32)
      (fetched vm) () vm') : Agrees vm'.state (b.next (blockEvent m codes vm)) := by
  obtain ⟨opened, loop⟩ := b
  have hcases : (subcodeOf (codeOf codes vm.state)).toNat = 0 ∨ (subcodeOf (codeOf codes vm.state)).toNat = 1 ∨
      (subcodeOf (codeOf codes vm.state)).toNat = 2 := by
    have hle := hc.2
    omega
  rw [blockEvent_terminator hc]
  unfold typeD at hrun
  rcases hcases with hsub | hsub | hsub
  · rw [hsub] at hrun ⊢
    show Agrees vm'.state (Blocks.next _ (if (codeOf codes vm.state).toUInt32 = 0 then .closes
      else if (codeOf codes vm.state).toUInt32 = 1 ∧ skips vm = false then .breaks else .none))
    replace hrun : Runs (typeD0 m codes (skips vm) (codeOf codes vm.state).toUInt32) (fetched vm) () vm' := hrun
    unfold typeD0 at hrun
    split at hrun
    · next hzero =>
      obtain ⟨hline, hidle⟩ := hfit.close hc.1 hsub hzero
      obtain rfl := runs_modify_iff.mp hrun
      rw [if_pos hzero]
      rcases loop with _ | ⟨saved, turns⟩
      · exact h.closeConditional hdepth (hidle (h.idle rfl))
      · obtain ⟨hturns, heq, -⟩ := h.inner saved turns rfl
        exact h.closeInner hdepth (hline fun hz => by
          rw [hz] at heq
          exact absurd heq (by simp; omega))
    · next hne =>
      rw [if_neg hne]
      split at hrun
      · next hbreak =>
        -- the loop is broken off, and left behind
        rw [if_pos ⟨hbreak.2, Bool.not_eq_true _ ▸ hbreak.1⟩]
        obtain ⟨_, vm₁, hmodify, hskip⟩ := hrun.of_bind
        obtain rfl := runs_modify_iff.mp hmodify
        exact Agrees.same (h.broken _ _) (hskip.ensures (skipLoop_sameBlocks _))
      · next hbreak =>
        obtain ⟨-, rfl⟩ := runs_pure_iff.mp hrun
        rw [if_neg fun hb => hbreak ⟨by rw [hb.2]; exact Bool.false_ne_true, hb.1⟩]
        exact h
  · rw [hsub] at hrun ⊢
    obtain rfl := runs_modify_iff.mp hrun
    exact h.endTurn
  · rw [hsub] at hrun ⊢
    show Agrees vm'.state (Blocks.next _ (if (codeOf codes vm.state).toUInt32 = 0 then .clears else .none))
    replace hrun : Runs (typeD2 codes (skips vm) (codeOf codes vm.state).toUInt32) (fetched vm) () vm' := hrun
    unfold typeD2 at hrun
    split at hrun
    · next hzero =>
      obtain rfl := runs_modify_iff.mp hrun
      rw [if_pos hzero]
      exact h.clearTurn (hfit.clear hc.1 hsub hzero)
    · next hne =>
      rw [if_neg hne]
      split at hrun
      · obtain rfl := runs_modify_iff.mp hrun
        exact h.congr rfl rfl
      · obtain ⟨-, rfl⟩ := runs_pure_iff.mp hrun
        exact h

/-- A line keeps the agreement, if what it relies on is so. -/
theorem step_agrees (hindex : vm.state.index.toNat < codes.length) (h : Agrees vm.state b)
    (hdepth : b.opened.length ≤ 32) (hdepth' : (b.next (blockEvent m codes vm)).opened.length ≤ 32)
    (hfit : EndsFit codes vm) (hrun : Runs (step m codes) vm () vm') :
    Agrees vm'.state (b.next (blockEvent m codes vm)) := by
  obtain ⟨vm₁, hexecute, rfl⟩ := line_of_runs hindex hrun
  suffices hline : Agrees vm₁.state (b.next (blockEvent m codes vm)) from hline.congr rfl rfl
  rcases line_cases (codeOf codes vm.state) with hc | hc | hc | hc | hc
  · rw [blockEvent_ordinary (Or.inl hc)]
    have hkeep : Steady (fetched vm) vm₁ := hexecute.ensures (execute_steady hc)
    exact h.same (steady_sameBlocks _ _ hkeep)
  · rw [blockEvent_conditional hc] at hdepth' ⊢
    exact conditional_agrees hc h hdepth' hexecute
  · rw [blockEvent_begins hc]
    rw [execute_typeC hc.1] at hexecute
    exact typeC_agrees hc h hexecute
  · rw [execute_typeD hc.1] at hexecute
    exact terminator_agrees hc h hdepth hfit hexecute
  · rw [blockEvent_ordinary (Or.inr hc)]
    rw [execute_typeE hc] at hexecute
    have hfetched : Agrees (fetched vm).state b := h
    exact hfetched.same (hexecute.ensures typeE_sameBlocks)

/-! ## Runs -/

/-- What is kept beside a run: the blocks, and the word and the number of the conditionals that the line
of the loop had. -/
structure Watch where
  blocks : Blocks
  lineHad : UInt32 × UInt8

def Watch.next (m : Machine ω) (codes : List UInt64) (vm : Vm ω) (w : Watch) : Watch where
  blocks := w.blocks.next (blockEvent m codes vm)
  lineHad := if BeginsLoop (codeOf codes vm.state) then (vm.state.ifStack, vm.state.ifCount) else w.lineHad

/-- A run of the loop of `Cheat_ApplyCheat`, with what is kept beside it. -/
inductive Watched (m : Machine ω) (codes : List UInt64) : Vm ω → Watch → Vm ω → Watch → Prop
  | refl (vm : Vm ω) (w : Watch) : Watched m codes vm w vm w
  | step {vm vm₁ vm₂ : Vm ω} {w w₂ : Watch} (index : vm.state.index.toNat < codes.length)
      (run : Runs (step m codes) vm () vm₁) (rest : Watched m codes vm₁ (w.next m codes vm) vm₂ w₂) :
      Watched m codes vm w vm₂ w₂

theorem watched_snoc {w w' : Watch} {vm₂ : Vm ω} (h : Watched m codes vm w vm' w')
    (hindex : vm'.state.index.toNat < codes.length) (hrun : Runs (step m codes) vm' () vm₂) :
    Watched m codes vm w vm₂ (w'.next m codes vm') := by
  induction h with
  | refl vm w => exact .step hindex hrun (.refl _ _)
  | step hindex' hrun' hrest ih => exact .step hindex' hrun' (ih hindex hrun)

/-- A cheat before its first line. -/
def Vm.begin (vm : Vm ω) : Vm ω := { vm with state := vm.state.start }

def Watch.first : Watch := ⟨⟨[], none⟩, (0, 0)⟩

/-- At every line the block is skipped if and only if a conditional that is open has failed, and each turn
of a repeat block begins with the conditionals that its line had. -/
def BlocksKept (m : Machine ω) (codes : List UInt64) (vm : Vm ω) : Prop :=
  ∀ vm₁ w, Watched m codes vm.begin Watch.first vm₁ w → (skips vm₁ = true ↔ false ∈ w.blocks.opened) ∧
    ∀ vm₂, vm₁.state.index.toNat < codes.length → Runs (step m codes) vm₁ () vm₂ → LeadsBack codes vm₁ →
      (vm₂.state.ifStack, vm₂.state.ifCount) = w.lineHad

/-- The line of the loop had what is kept for the turns. -/
def LineKept (w : Watch) : Prop :=
  ∀ saved turns, w.blocks.loop = some (saved, turns) → w.lineHad = (stackWord saved, UInt8.ofNat saved.length)

theorem Agrees.word (h : Agrees vm.state b) : (vm.state.ifStack, vm.state.ifCount) = (stackWord b.opened, UInt8.ofNat b.opened.length) := by
  rw [h.stack, ← h.count, UInt8.ofNat_toNat]

/-- Only a line that begins a repeat block changes what is kept for its turns. -/
theorem Blocks.next_loop {e : BlockEvent} {saved : List Bool} {turns : Nat} (he : ∀ n, e ≠ .begins n)
    (h : (b.next e).loop = some (saved, turns)) : ∃ turns', b.loop = some (saved, turns') := by
  have hnext : ∀ {saved' : List Bool} {turns' : Nat}, nextTurn saved' turns' = some (saved, turns) → saved' = saved := by
    intro saved' turns' hnext
    unfold nextTurn at hnext
    split at hnext
    · cases hnext
    · exact (Prod.mk.inj (Option.some.inj hnext)).1
  obtain ⟨opened, loop⟩ := b
  cases e with
  | opens holds => exact ⟨turns, h⟩
  | begins n => exact absurd rfl (he n)
  | closes =>
    rcases loop with _ | ⟨saved', turns'⟩
    · cases h
    · unfold Blocks.next at h
      dsimp only at h
      split at h
      · exact ⟨turns, h⟩
      · exact ⟨turns', by rw [hnext h]⟩
  | ends =>
    rcases loop with _ | ⟨saved', turns'⟩
    · cases h
    · exact ⟨turns', by rw [hnext h]⟩
  | clears =>
    rcases loop with _ | ⟨saved', turns'⟩
    · cases h
    · unfold Blocks.next at h
      dsimp only at h
      split at h
      · cases h
      · exact ⟨turns', by rw [hnext h]⟩
  | breaks => cases h
  | none => exact ⟨turns, h⟩

theorem blockEvent_ne_begins (hc : ¬BeginsLoop (codeOf codes vm.state)) (n : Nat) : blockEvent m codes vm ≠ .begins n := by
  rcases line_cases (codeOf codes vm.state) with h | h | h | h | h
  · rw [blockEvent_ordinary (Or.inl h)]
    simp
  · rw [blockEvent_conditional h]
    simp
  · exact absurd h hc
  · rw [blockEvent_terminator h]
    split
    · split
      · simp
      · split <;> simp
    · simp
    · split <;> simp
    · simp
  · rw [blockEvent_ordinary (Or.inr h)]
    simp

theorem LineKept.next {w : Watch} (h : LineKept w) (hagrees : Agrees vm.state w.blocks) : LineKept (w.next m codes vm) := by
  intro saved turns hloop
  unfold Watch.next at hloop ⊢
  dsimp only at hloop ⊢
  by_cases hc : BeginsLoop (codeOf codes vm.state)
  · rw [blockEvent_begins hc] at hloop
    unfold Blocks.next at hloop
    dsimp only at hloop
    split at hloop
    · cases hloop
    · obtain ⟨rfl, -⟩ := Prod.mk.inj (Option.some.inj hloop)
      rw [if_pos hc]
      exact hagrees.word
  · obtain ⟨turns', hbefore⟩ := Blocks.next_loop (blockEvent_ne_begins hc) hloop
    rw [if_neg hc]
    exact h saved turns' hbefore

/-- Where a turn is left, the next one has the conditionals that were open at the line of the loop. -/
theorem next_opened {saved : List Bool} {turns : Nat} (h : Agrees vm.state b) (hloop : b.loop = some (saved, turns))
    (hback : LeadsBack codes vm) : (b.next (blockEvent m codes vm)).opened = saved := by
  obtain ⟨hcode, ⟨hline, hmore⟩, hcases⟩ := hback
  obtain ⟨hturns, heq, hstored, hlen, hsuffix⟩ := h.inner saved turns hloop
  have hne : turns ≠ 1 := by
    rw [UInt32.lt_iff_toNat_lt, heq] at hmore
    have hone : (1 : UInt32).toNat = 1 := rfl
    omega
  have hend : IsTerminator (codeOf codes vm.state) := ⟨hcode, by rcases hcases with h | h | h <;> omega⟩
  rw [blockEvent_terminator hend]
  rcases hcases with ⟨hsub, hzero, hnot⟩ | hsub | ⟨hsub, hzero⟩
  · have hle : vm.state.ifCount.toNat ≤ vm.state.storedIfCount.toNat := by
      by_contra hlt
      refine hnot ⟨?_, ?_⟩
      · rw [gt_iff_lt, UInt8.lt_iff_toNat_lt]
        show 0 < vm.state.ifCount.toNat
        omega
      · rw [gt_iff_lt, UInt8.lt_iff_toNat_lt]
        omega
    rw [h.opened_eq hloop hle, hsub]
    show (Blocks.next _ (if (codeOf codes vm.state).toUInt32 = 0 then .closes else _)).opened = saved
    rw [if_pos hzero]
    show (if saved.length < saved.length then _ else _ : Blocks).opened = saved
    rw [if_neg (lt_irrefl _)]
  · rw [hsub]
    show (Blocks.next _ .ends).opened = saved
    unfold Blocks.next
    rw [hloop]
  · rw [hsub]
    show (Blocks.next _ (if (codeOf codes vm.state).toUInt32 = 0 then .clears else .none)).opened = saved
    rw [if_pos hzero]
    unfold Blocks.next
    rw [hloop]
    dsimp only
    rw [if_neg hne]

theorem watched_agrees {w w' : Watch} (h : Watched m codes vm w vm' w')
    (hdepth : ∀ vm₁ w₁, Watched m codes vm w vm₁ w₁ → w₁.blocks.opened.length ≤ 32)
    (hfit : ∀ vm₁ w₁, Watched m codes vm w vm₁ w₁ → vm₁.state.index.toNat < codes.length → EndsFit codes vm₁) :
    Agrees vm.state w.blocks ∧ LineKept w → Agrees vm'.state w'.blocks ∧ LineKept w' := by
  induction h with
  | refl vm w => exact id
  | @step vm vm₁ vm₂ w w₂ hindex hrun hrest ih =>
    rintro ⟨hagrees, hline⟩
    refine ih (fun _ _ h => hdepth _ _ (.step hindex hrun h)) (fun _ _ h => hfit _ _ (.step hindex hrun h)) ⟨?_, ?_⟩
    · exact step_agrees hindex hagrees (hdepth _ _ (.refl _ _)) (hdepth _ _ (.step hindex hrun (.refl _ _)))
        (hfit _ _ (.refl _ _) hindex) hrun
    · exact hline.next hagrees

/-- In every run in which D0 and D2 find what they rely on, the blocks are kept. -/
theorem blocks_kept (m : Machine ω) (codes : List UInt64) (vm : Vm ω)
    (hdepth : ∀ vm₁ w, Watched m codes vm.begin Watch.first vm₁ w → w.blocks.opened.length ≤ 32)
    (hfit : ∀ vm₁ w, Watched m codes vm.begin Watch.first vm₁ w → vm₁.state.index.toNat < codes.length →
      EndsFit codes vm₁) : BlocksKept m codes vm := by
  intro vm₁ w hreach
  have hstart : Agrees vm.begin.state Watch.first.blocks :=
    ⟨rfl, rfl, fun _ => rfl, fun saved turns h => absurd h (by simp [Watch.first])⟩
  obtain ⟨hagrees, hline⟩ := watched_agrees hreach hdepth hfit ⟨hstart, fun saved turns h => absurd h (by simp [Watch.first])⟩
  refine ⟨?_, ?_⟩
  · rw [skips_eq, hagrees.stack]
    exact skipsWord_stackWord (hdepth _ _ hreach)
  · intro vm₂ hindex hrun hback
    have hsome : vm₁.state.loopCount ≠ 0 := fun hz => by
      have hmore := hback.2.1.2
      rw [hz] at hmore
      exact absurd hmore (by decide)
    rcases hloop : w.blocks.loop with _ | ⟨saved, turns⟩
    · exact absurd (hagrees.idle hloop) hsome
    · have hnext := watched_snoc hreach hindex hrun
      have hagrees' := step_agrees hindex hagrees (hdepth _ _ hreach) (hdepth _ _ hnext) (hfit _ _ hreach hindex) hrun
      rw [hagrees'.word, next_opened hagrees hloop hback]
      exact (hline saved turns hloop).symm

theorem watched_cases {w w' : Watch} (h : Watched m codes vm w vm' w') : (vm' = vm ∧ w' = w) ∨
    (vm.state.index.toNat < codes.length ∧ Watched m codes (after (step m codes) vm) (w.next m codes vm) vm' w') := by
  cases h with
  | refl => exact Or.inl ⟨rfl, rfl⟩
  | step hindex hrun hrest =>
    rw [hrun.after_eq]
    exact Or.inr ⟨hindex, hrest⟩

end

/-- A conditional that fails in each of the two turns of a block that D1 ends. -/
def endedTwice : List UInt64 := [0xC000000000000002, 0xDD00000000000001, 0xD100000000000000]

theorem endedTwice_kept : BlocksKept emptyMachine endedTwice firstVm := by
  refine blocks_kept emptyMachine endedTwice firstVm ?_ ?_
  · intro vm w h
    rcases watched_cases h with ⟨-, rfl⟩ | ⟨-, h⟩
    · decide
    rcases watched_cases h with ⟨-, rfl⟩ | ⟨-, h⟩
    · decide
    rcases watched_cases h with ⟨-, rfl⟩ | ⟨-, h⟩
    · decide
    rcases watched_cases h with ⟨-, rfl⟩ | ⟨-, h⟩
    · decide
    rcases watched_cases h with ⟨-, rfl⟩ | ⟨-, h⟩
    · decide
    rcases watched_cases h with ⟨-, rfl⟩ | ⟨hindex, -⟩
    · decide
    · exact absurd hindex (by decide)
  · intro vm w _ hindex
    have hcases : vm.state.index.toNat = 0 ∨ vm.state.index.toNat = 1 ∨ vm.state.index.toNat = 2 := by
      simp only [endedTwice, List.length_cons, List.length_nil] at hindex
      omega
    have hends : typeOf (codeOf endedTwice vm.state) = 0xD → (subcodeOf (codeOf endedTwice vm.state)).toNat = 0 ∨
        (subcodeOf (codeOf endedTwice vm.state)).toNat = 2 → False := by
      unfold codeOf
      rcases hcases with h | h | h
      · rw [h]
        decide
      · rw [h]
        decide
      · rw [h]
        decide
    exact ⟨fun hcode hsub => (hends hcode (Or.inl hsub)).elim, fun hcode hsub => (hends hcode (Or.inr hsub)).elim⟩

/-- The same block, ended by D2; and a block of no turns in a conditional that fails. -/
def clearedTwice : List UInt64 := [0xC000000000000002, 0xDD00000000000001, 0xD200000000000000]

def emptyBlock : List UInt64 := [0xDD00000000000001, 0xC000000000000000, 0xD000000000000000]

/-- The second turn begins with the conditional of the first one; and the block of no turns keeps D0 from
closing the conditional. -/
theorem blocks_not_kept : ¬BlocksKept emptyMachine clearedTwice firstVm ∧ ¬BlocksKept emptyMachine emptyBlock firstVm := by
  constructor
  · intro h
    have hreach : Watched emptyMachine clearedTwice firstVm.begin Watch.first _ _ :=
      .step (by decide) (runs_after rfl) (.step (by decide) (runs_after rfl) (.refl _ _))
    have hback : LeadsBack clearedTwice
        (after (step emptyMachine clearedTwice) (after (step emptyMachine clearedTwice) firstVm.begin)) :=
      ⟨by decide, ⟨by decide, by decide⟩, Or.inr (Or.inr ⟨by decide, by decide⟩)⟩
    have hturn := (h _ _ hreach).2 _ (by decide) (runs_after rfl) hback
    exact absurd hturn (by decide)
  · intro h
    have hreach : Watched emptyMachine emptyBlock firstVm.begin Watch.first _ _ :=
      .step (by decide) (runs_after rfl) (.step (by decide) (runs_after rfl) (.step (by decide) (runs_after rfl) (.refl _ _)))
    exact absurd (h _ _ hreach).1 (by decide)

end Omiiba.Rosalina
