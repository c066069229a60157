/-
Changes that are made to something and taken back by one switch, which may fail. Where they are made is looked for the first
time, and kept.
-/
import Mathlib.Tactic

namespace Omiiba

/-- How the places `σ` of a change to an `α` are found, or what is returned if they are not; the change and its undoing. -/
structure Toggle (α σ : Type*) where
  prepare : α → Except Int σ
  change : σ → α → α
  undo : σ → α → α

namespace Toggle

variable {α σ : Type*}

/-- What is changed, and the places if they were found before. -/
@[ext] structure Target (α σ : Type*) where
  content : α
  prepared : Option σ

variable (t : Toggle α σ)

def places (x : Target α σ) : Except Int σ :=
  match x.prepared with
  | some s => .ok s
  | none => t.prepare x.content

/-- The change is made, or undone, if the target can be had (`0 ≤ res`) and the places are found. -/
def switch (res : Int) (on : Bool) (x : Target α σ) : Target α σ × Int :=
  if 0 ≤ res then
    match t.places x with
    | .error e => (x, e)
    | .ok s => (⟨if on then t.change s x.content else t.undo s x.content, some s⟩, res)
  else (x, res)

/-- For this content, the change can be undone and is one, and places that are not found are an error. -/
structure LawfulAt (a : α) : Prop where
  undo_change : ∀ {s}, t.prepare a = .ok s → t.undo s (t.change s a) = a
  change_ne : ∀ {s}, t.prepare a = .ok s → t.change s a ≠ a
  error_neg : ∀ {e}, t.prepare a = .error e → e < 0

/-- The target is `a`, changed or not, and places that are kept are those of `a`. -/
structure Is (a : α) (on : Bool) (x : Target α σ) : Prop where
  known : ∀ s ∈ x.prepared, t.prepare a = .ok s
  off : on = false → x.content = a
  on : on = true → ∃ s, x.prepared = some s ∧ x.content = t.change s a

/-- The switch fails: the target cannot be had, or the places are looked for and not found. -/
def Fails (a : α) (res : Int) (on : Bool) : Prop := res < 0 ∨ on = false ∧ ∀ s, t.prepare a ≠ .ok s

section

variable {t} {a : α} {on : Bool} {x : Target α σ}

theorem is_start (a : α) : t.Is a false ⟨a, none⟩ :=
  ⟨fun s hs => by simp at hs, fun _ => rfl, (nomatch ·)⟩

/-- A switch that is turned either fails and changes nothing, or is on the other side. -/
theorem switch_spec (hl : t.LawfulAt a) (h : t.Is a on x) (res : Int) :
    (t.Fails a res on ∧ (t.switch res (!on) x).1 = x ∧ (t.switch res (!on) x).2 < 0) ∨
      (¬t.Fails a res on ∧ t.Is a (!on) (t.switch res (!on) x).1 ∧ 0 ≤ (t.switch res (!on) x).2) := by
  unfold switch Fails
  by_cases hres : 0 ≤ res
  swap
  · rw [if_neg hres]
    exact .inl ⟨.inl (Int.not_le.mp hres), rfl, Int.not_le.mp hres⟩
  rw [if_pos hres]
  cases on with
  | true =>
    -- what is on was found before, so nothing is looked for
    obtain ⟨s, hs, hcontent⟩ := h.on rfl
    have hplaces : t.places x = .ok s := by
      simp [places, hs]
    have hprepare := h.known s (by simp [hs])
    refine .inr ⟨by simp; omega, ?_, by simpa [hplaces] using hres⟩
    rw [hplaces]
    refine ⟨fun s' hs' => ?_, fun _ => ?_, (nomatch ·)⟩
    · obtain rfl : s = s' := by simpa using hs'
      exact hprepare
    · simp only [Bool.not_true, Bool.false_eq_true, if_false, hcontent]
      exact hl.undo_change hprepare
  | false =>
    -- what is off is `a` itself: looking again finds what was kept
    have hcontent := h.off rfl
    have hplaces : t.places x = t.prepare a := by
      unfold places
      cases hx : x.prepared with
      | none => rw [hcontent]
      | some s => exact (h.known s (by simp [hx])).symm
    cases hprepare : t.prepare a with
    | error e =>
      rw [hplaces, hprepare]
      exact .inl ⟨.inr ⟨rfl, by simp⟩, rfl, hl.error_neg hprepare⟩
    | ok s =>
      refine .inr ⟨by simp; omega, ?_, by simpa [hplaces, hprepare] using hres⟩
      rw [hplaces, hprepare]
      refine ⟨fun s' hs' => ?_, (nomatch ·), fun _ => ⟨s, rfl, by simp [hcontent]⟩⟩
      obtain rfl : s = s' := by simpa using hs'
      exact hprepare

/-- A target that is changed is not what it was. -/
theorem Is.content_ne (hl : t.LawfulAt a) (h : t.Is a true x) : x.content ≠ a := by
  obtain ⟨s, hs, hcontent⟩ := h.on rfl
  rw [hcontent]
  exact hl.change_ne (h.known s (by simp [hs]))

end

end Toggle

end Omiiba
