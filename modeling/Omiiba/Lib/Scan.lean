/-
A loop that looks at one state after the other, until it is through or has found something. A look need not come to an end, and
the loop need not, either.
-/
import Mathlib.Tactic

namespace Omiiba

structure Scan (σ α : Type*) where
  /-- The loop is through. -/
  done : σ → Prop
  /-- What a look at a state finds, if it comes to an end. -/
  looks : σ → Option α → Prop
  next : σ → σ

namespace Scan

variable {σ α β : Type*} (scan : Scan σ α)

/-- From the state on, the loop ends, and this is what it finds. -/
inductive Ends : σ → Option α → Prop
  | through {s : σ} (hdone : scan.done s) : Ends s none
  | found {s : σ} {a : α} (hgo : ¬scan.done s) (hlook : scan.looks s (some a)) : Ends s (some a)
  | onward {s : σ} {r : Option α} (hgo : ¬scan.done s) (hlook : scan.looks s none) (hrest : Ends (scan.next s) r) : Ends s r

/-- The loop goes on behind the state. -/
def Passes (s : σ) : Prop := ¬scan.done s ∧ scan.looks s none

/-- The loop stops at the state. -/
inductive Stops (s : σ) : Option α → Prop
  | through (hdone : scan.done s) : Stops s none
  | found {a : α} (hgo : ¬scan.done s) (hlook : scan.looks s (some a)) : Stops s (some a)

variable {scan} {s : σ} {r : Option α}

theorem Stops.ends (h : scan.Stops s r) : scan.Ends s r := by
  cases h with
  | through hdone => exact .through hdone
  | found hgo hlook => exact .found hgo hlook

/-- The loop ends if it comes to a state at which it stops. -/
theorem ends_iff : scan.Ends s r ↔ ∃ k, (∀ i < k, scan.Passes (scan.next^[i] s)) ∧ scan.Stops (scan.next^[k] s) r := by
  constructor
  · intro h
    induction h with
    | through hdone => exact ⟨0, fun i hi => absurd hi (Nat.not_lt_zero i), .through hdone⟩
    | found hgo hlook => exact ⟨0, fun i hi => absurd hi (Nat.not_lt_zero i), .found hgo hlook⟩
    | onward hgo hlook _ ih =>
      obtain ⟨k, hpass, hstop⟩ := ih
      -- the state itself is passed first
      refine ⟨k + 1, fun i hi => ?_, hstop⟩
      cases i with
      | zero => exact ⟨hgo, hlook⟩
      | succ i => exact hpass i (by omega)
  · rintro ⟨k, hpass, hstop⟩
    induction k generalizing s with
    | zero => exact hstop.ends
    | succ k ih =>
      obtain ⟨hgo, hlook⟩ := hpass 0 (Nat.zero_lt_succ k)
      exact .onward hgo hlook (ih (fun i hi => hpass (i + 1) (by omega)) hstop)

/-- A loop that stays away from its end never gets through. -/
theorem not_ends_none {J : σ → Prop} (hnext : ∀ s, J s → J (scan.next s)) (haway : ∀ s, J s → ¬scan.done s) (hs : J s) :
    ¬scan.Ends s none := by
  intro h
  obtain ⟨k, -, hstop⟩ := ends_iff.mp h
  have hk : J (scan.next^[k] s) := Function.Iterate.rec J hs hnext k
  cases hstop with
  | through hdone => exact haway _ hk hdone

/-! ## Programs -/

section

variable {f : Nat → σ → β → Option (Option α)}

/-- A program that has so many turns, and does in each of them what the loop does, ends as the loop does. -/
theorem ends_of_run (hzero : ∀ s b, f 0 s b = none)
    (hturn : ∀ n s b r, f (n + 1) s b = some r →
      scan.Stops s r ∨ scan.Passes s ∧ ∃ b', f n (scan.next s) b' = some r) :
    ∀ n s b, f n s b = some r → scan.Ends s r := by
  intro n
  induction n with
  | zero =>
    intro s b h
    rw [hzero] at h
    cases h
  | succ n ih =>
    intro s b h
    rcases hturn n s b r h with hstop | ⟨⟨hgo, hlook⟩, b', hrest⟩
    · exact hstop.ends
    · exact .onward hgo hlook (ih _ b' hrest)

/-- And where the loop ends the program does, if it has enough turns. -/
theorem run_of_ends (hstops : ∀ n s b r, scan.Stops s r → f (n + 1) s b = some r)
    (hpasses : ∀ n s b, scan.Passes s → ∃ b', f (n + 1) s b = f n (scan.next s) b') (h : scan.Ends s r) :
    ∃ m, ∀ n, m ≤ n → ∀ b, f n s b = some r := by
  have hstop {s : σ} {r : Option α} (h : scan.Stops s r) : ∃ m, ∀ n, m ≤ n → ∀ b, f n s b = some r := by
    refine ⟨1, fun n hn b => ?_⟩
    obtain ⟨n, rfl⟩ := Nat.exists_eq_add_of_le' hn
    exact hstops n s b r h
  induction h with
  | through hdone => exact hstop (.through hdone)
  | found hgo hlook => exact hstop (.found hgo hlook)
  | onward hgo hlook _ ih =>
    obtain ⟨m, hm⟩ := ih
    refine ⟨m + 1, fun n hn b => ?_⟩
    obtain ⟨n, rfl⟩ := Nat.exists_eq_add_of_le' (show 1 ≤ n by omega)
    obtain ⟨b', hnext⟩ := hpasses n _ b ⟨hgo, hlook⟩
    rw [hnext]
    exact hm n (by omega) b'

end

end Scan

end Omiiba
