/-
Labelled transition systems: reachability, the invariant rule, and runs all of whose steps meet
a condition.
-/
import Mathlib.Tactic

namespace Omiiba

/-- A transition system over states `σ` whose steps take an input `ι`. -/
structure System (σ ι : Type*) where
  init : σ → Prop
  step : σ → ι → σ → Prop

namespace System

variable {σ ι : Type*}

/-- The states a system can reach. -/
inductive Reachable (S : System σ ι) : σ → Prop
  | init {s : σ} : S.init s → Reachable S s
  | step {s : σ} {i : ι} {s' : σ} : Reachable S s → S.step s i s' → Reachable S s'

/-- The runs all of whose steps meet `P`, a condition on the state before the step and its input. -/
def restrict (S : System σ ι) (P : σ → ι → Prop) : System σ ι where
  init := S.init
  step s i s' := P s i ∧ S.step s i s'

/-- What holds initially and is kept by every step holds of every reachable state. -/
theorem Reachable.invariant {S : System σ ι} {J : σ → Prop} (h0 : ∀ s, S.init s → J s)
    (hs : ∀ s i s', S.Reachable s → J s → S.step s i s' → J s') {s : σ} (h : S.Reachable s) : J s := by
  induction h with
  | init hi => exact h0 _ hi
  | step hr hstep ih => exact hs _ _ _ hr ih hstep

theorem Reachable.of_restrict {S : System σ ι} {P : σ → ι → Prop} {s : σ} (h : (S.restrict P).Reachable s) :
    S.Reachable s := by
  induction h with
  | init hi => exact .init hi
  | step _ hstep ih => exact .step ih hstep.2

/-- The system of a function that gives the next state or fails. -/
def ofStep {ε : Type*} (init : σ → Prop) (f : σ → ι → Except ε σ) : System σ ι where
  init := init
  step s i s' := f s i = .ok s'

/-- A run of the function that does not fail is a run of its system. -/
theorem Reachable.foldlM {ε : Type*} {init : σ → Prop} {f : σ → ι → Except ε σ} :
    ∀ {is : List ι} {s s' : σ}, (ofStep init f).Reachable s → is.foldlM f s = .ok s' → (ofStep init f).Reachable s'
  | [], s, s', h, hr => by cases hr; exact h
  | i :: is, s, s', h, hr => by
    rw [List.foldlM_cons] at hr
    rcases hf : f s i with e | s1
    · rw [hf] at hr; cases hr
    · rw [hf] at hr
      exact Reachable.foldlM (.step h hf) hr

/-- What is left of a result when its error is forgotten. -/
theorem eq_ok_of_toOption {ε α : Type*} {r : Except ε α} {a : α} (h : r.toOption = some a) : r = .ok a := by
  cases r with
  | error e => cases h
  | ok b => exact congrArg Except.ok (Option.some.inj h)

/-- The system of a function that gives the next state or nothing, for the inputs that are possible. -/
def guarded (init : σ → Prop) (enabled : σ → ι → Prop) (f : σ → ι → Option σ) : System σ ι where
  init := init
  step s i s' := enabled s i ∧ f s i = some s'

section Guarded

variable (enabled : σ → ι → Prop) [∀ s i, Decidable (enabled s i)] (f : σ → ι → Option σ)

/-- The function over a list of inputs, as long as they are possible. -/
def guardedRun (s : σ) : List ι → Option σ
  | [] => some s
  | i :: is => if enabled s i then (f s i).bind fun s' => guardedRun s' is else none

variable {enabled f}

theorem Reachable.guardedRun {init : σ → Prop} : ∀ {is : List ι} {s s' : σ},
    (guarded init enabled f).Reachable s → System.guardedRun enabled f s is = some s' →
      (guarded init enabled f).Reachable s'
  | [], s, s', h, hr => by
    obtain rfl := Option.some.inj hr
    exact h
  | i :: is, s, s', h, hr => by
    unfold System.guardedRun at hr
    split at hr
    · rename_i he
      obtain ⟨s1, hf, hrest⟩ := Option.bind_eq_some_iff.mp hr
      exact Reachable.guardedRun (.step h ⟨he, hf⟩) hrest
    · cases hr

/-- The same for runs that meet a condition. -/
theorem Reachable.restrict_guardedRun {init : σ → Prop} {P : σ → ι → Prop} [∀ s i, Decidable (P s i)] :
    ∀ {is : List ι} {s s' : σ}, ((guarded init enabled f).restrict P).Reachable s →
      System.guardedRun (fun s i => P s i ∧ enabled s i) f s is = some s' →
        ((guarded init enabled f).restrict P).Reachable s'
  | [], s, s', h, hr => by
    obtain rfl := Option.some.inj hr
    exact h
  | i :: is, s, s', h, hr => by
    unfold System.guardedRun at hr
    split at hr
    · rename_i he
      obtain ⟨s1, hf, hrest⟩ := Option.bind_eq_some_iff.mp hr
      exact Reachable.restrict_guardedRun (.step h ⟨he.1, he.2, hf⟩) hrest
    · cases hr

end Guarded

end System

end Omiiba
