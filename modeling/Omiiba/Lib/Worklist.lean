/-
Work lists that grow while they are walked: what is on the list when the walk is through is what is reached from
its roots.
-/
import Mathlib.Data.List.Basic

namespace Omiiba

variable {α : Type*} {next : α → List α} {p p' : α → Prop} {roots list : List α} {i : Nat} {a : α}

/-- What is reached from the roots, going on from what `p` holds of. -/
inductive Reached (next : α → List α) (p : α → Prop) (roots : List α) : α → Prop
  | root {a : α} : a ∈ roots → Reached next p roots a
  | step {a b : α} : Reached next p roots a → p a → b ∈ next a → Reached next p roots b

theorem Reached.mono (h : Reached next p roots a) (hp : ∀ a, p a → p' a) : Reached next p' roots a := by
  induction h with
  | root hroot => exact .root hroot
  | step _ hpa hnext ih => exact .step ih (hp _ hpa) hnext

/-- A list with the roots, closed under going on, has all that is reached. -/
theorem Reached.mem (h : Reached next p roots a) (hroots : ∀ a ∈ roots, a ∈ list)
    (hclosed : ∀ a ∈ list, p a → ∀ b ∈ next a, b ∈ list) : a ∈ list := by
  induction h with
  | root hroot => exact hroots _ hroot
  | step _ hpa hnext ih => exact hclosed _ ih hpa _ hnext

/-- The list, walked up to `i`: it has the roots and what follows on what has been walked, and nothing that is not
reached. -/
structure Walked (next : α → List α) (p : α → Prop) (roots list : List α) (i : Nat) : Prop where
  rooted : ∀ a ∈ roots, a ∈ list
  reached : ∀ a ∈ list, Reached next p roots a
  closed : ∀ j a, j < i → list[j]? = some a → p a → ∀ b ∈ next a, b ∈ list

theorem Walked.start (hroots : ∀ a ∈ roots, a ∈ list) (honly : ∀ a ∈ list, a ∈ roots) : Walked next p roots list 0 := by
  refine ⟨hroots, fun a ha => .root (honly a ha), ?_⟩
  intro j a hj
  exact absurd hj (Nat.not_lt_zero j)

theorem Walked.skip (h : Walked next p roots list i) (hi : list[i]? = some a) (hp : ¬ p a) :
    Walked next p roots list (i + 1) := by
  refine ⟨h.rooted, h.reached, fun j b hj hb hpb => ?_⟩
  rcases Nat.lt_succ_iff_lt_or_eq.mp hj with hlt | rfl
  · exact h.closed j b hlt hb hpb
  · rw [hi] at hb
    obtain rfl := Option.some.inj hb
    exact absurd hpb hp

theorem Walked.extend {fresh : List α} (h : Walked next p roots list i) (hi : list[i]? = some a) (hp : p a)
    (hnext : ∀ b ∈ next a, b ∈ list ++ fresh) (hfresh : ∀ b ∈ fresh, b ∈ next a) :
    Walked next p roots (list ++ fresh) (i + 1) := by
  have hlt := (List.getElem?_eq_some_iff.mp hi).1
  refine ⟨fun b hb => List.mem_append_left _ (h.rooted b hb), fun b hb => ?_, fun j b hj hb hpb c hc => ?_⟩
  · rcases List.mem_append.mp hb with hold | hnew
    · exact h.reached b hold
    · exact .step (h.reached a (List.mem_of_getElem? hi)) hp (hfresh b hnew)
  · rw [List.getElem?_append_left (by omega)] at hb
    rcases Nat.lt_succ_iff_lt_or_eq.mp hj with hbefore | rfl
    · exact List.mem_append_left _ (h.closed j b hbefore hb hpb c hc)
    · rw [hi] at hb
      obtain rfl := Option.some.inj hb
      exact hnext c hc

/-- At its end, the list is what is reached. -/
theorem Walked.mem_iff (h : Walked next p roots list i) (hend : list.length ≤ i) : a ∈ list ↔ Reached next p roots a := by
  refine ⟨h.reached a, fun hreached => hreached.mem h.rooted fun b hb hpb => ?_⟩
  obtain ⟨j, hj, hget⟩ := List.mem_iff_getElem.mp hb
  refine h.closed j b (by omega) ?_ hpb
  rw [List.getElem?_eq_getElem hj, hget]

end Omiiba
