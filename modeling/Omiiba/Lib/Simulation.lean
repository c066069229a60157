/-
Runs of a system with what happens in them, and how a run of one system is a run of another.
-/
import Omiiba.Lib.System

namespace Omiiba.System

variable {σ τ ι : Type*} {S : System σ ι} {T : System τ ι}

/-- A run from a state to a state. -/
inductive Runs (S : System σ ι) : σ → List ι → σ → Prop
  | nil {s : σ} : Runs S s [] s
  | cons {s s1 s2 : σ} {i : ι} {is : List ι} : S.step s i s1 → Runs S s1 is s2 → Runs S s (i :: is) s2

/-- If each step of a system is a step of another one on what its states stand for, its runs are runs of the other one. -/
theorem Runs.map {abs : σ → τ} (h : ∀ s i s', S.step s i s' → T.step (abs s) i (abs s')) {s s' : σ} {is : List ι}
    (hruns : S.Runs s is s') : T.Runs (abs s) is (abs s') := by
  induction hruns with
  | nil => exact .nil
  | cons hstep _ ih => exact .cons (h _ _ _ hstep) ih

end Omiiba.System
