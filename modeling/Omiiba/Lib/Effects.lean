/-
Programs with a state that can fail, and what their runs do to the state, whether they fail or not.
-/
import Mathlib.Tactic

namespace Omiiba

variable {σ ε α β : Type} {R : σ → σ → Prop}

/-- The state after a run, also of one that fails. -/
def after (x : ExceptT ε (StateM σ) α) (s : σ) : σ := (x.run.run s).2

/-- Every run leads to a state related to the one it begins in. -/
def Ensures (R : σ → σ → Prop) (x : ExceptT ε (StateM σ) α) : Prop := ∀ s, R s (after x s)

theorem Ensures.mono {R' : σ → σ → Prop} {x : ExceptT ε (StateM σ) α} (h : Ensures R x)
    (hle : ∀ s s', R s s' → R' s s') : Ensures R' x :=
  fun s => hle s _ (h s)

theorem ensures_modify {f : σ → σ} (h : ∀ s, R s (f s)) :
    Ensures R (modify f : ExceptT ε (StateM σ) PUnit) := h

theorem ensures_modifyGet {f : σ → α × σ} (h : ∀ s, R s (f s).2) :
    Ensures R (modifyGet f : ExceptT ε (StateM σ) α) := h

section

variable [Std.Refl R]

theorem ensures_pure (a : α) : Ensures R (pure a : ExceptT ε (StateM σ) α) := fun s => Std.Refl.refl s

theorem ensures_throw (e : ε) : Ensures R (throw e : ExceptT ε (StateM σ) α) := fun s => Std.Refl.refl s

theorem ensures_get : Ensures R (get : ExceptT ε (StateM σ) σ) := fun s => Std.Refl.refl s

end

theorem after_bind (x : ExceptT ε (StateM σ) α) (f : α → ExceptT ε (StateM σ) β) (s : σ) :
    after (x >>= f) s =
      match (x.run.run s).1 with
      | .ok a => after (f a) (after x s)
      | .error _ => after x s := by
  unfold after
  rw [ExceptT.run_bind, StateT.run_bind]
  rcases x.run.run s with ⟨a | a, s'⟩
  · rfl
  · rfl

theorem ensures_bind [IsTrans σ R] {x : ExceptT ε (StateM σ) α} {f : α → ExceptT ε (StateM σ) β}
    (hx : Ensures R x) (hf : ∀ a, Ensures R (f a)) : Ensures R (x >>= f) := by
  intro s
  rw [after_bind]
  split
  · exact IsTrans.trans _ _ _ (hx s) (hf _ _)
  · exact hx s

/-! ## Successful runs -/

/-- From `s` the program returns `a` and leaves `s'`. -/
def Runs (x : ExceptT ε (StateM σ) α) (s : σ) (a : α) (s' : σ) : Prop := x.run.run s = (.ok a, s')

theorem Runs.after_eq {x : ExceptT ε (StateM σ) α} {s s' : σ} {a : α} (h : Runs x s a s') : after x s = s' := by
  unfold after
  rw [show x.run.run s = (.ok a, s') from h]

theorem runs_after {x : ExceptT ε (StateM σ) α} {s : σ} {a : α} (h : (x.run.run s).1 = .ok a) : Runs x s a (after x s) :=
  Prod.ext h rfl

theorem Runs.ensures {x : ExceptT ε (StateM σ) α} {s s' : σ} {a : α} (h : Runs x s a s') (hx : Ensures R x) : R s s' := by
  have hs := hx s
  rwa [h.after_eq] at hs

theorem Runs.of_bind {x : ExceptT ε (StateM σ) α} {f : α → ExceptT ε (StateM σ) β} {s s' : σ} {b : β}
    (h : Runs (x >>= f) s b s') : ∃ a s₁, Runs x s a s₁ ∧ Runs (f a) s₁ b s' := by
  unfold Runs at h ⊢
  rw [ExceptT.run_bind, StateT.run_bind] at h
  rcases hx : x.run.run s with ⟨a | a, s₁⟩
  · rw [hx] at h
    cases h
  · rw [hx] at h
    exact ⟨a, s₁, rfl, h⟩

theorem Runs.bind {x : ExceptT ε (StateM σ) α} {f : α → ExceptT ε (StateM σ) β} {s s₁ s' : σ} {a : α} {b : β}
    (hx : Runs x s a s₁) (hf : Runs (f a) s₁ b s') : Runs (x >>= f) s b s' := by
  unfold Runs at hx hf ⊢
  rw [ExceptT.run_bind, StateT.run_bind, hx]
  exact hf

/-- A program has one run. -/
theorem Runs.unique {x : ExceptT ε (StateM σ) α} {s s₁ s₂ : σ} {a b : α} (h : Runs x s a s₁) (h' : Runs x s b s₂) :
    a = b ∧ s₁ = s₂ := by
  unfold Runs at h h'
  rw [h] at h'
  cases h'
  exact ⟨rfl, rfl⟩

theorem runs_pure_iff {s s' : σ} {a b : α} : Runs (pure a : ExceptT ε (StateM σ) α) s b s' ↔ a = b ∧ s = s' := by
  show ((Except.ok a, s) : Except ε α × σ) = (.ok b, s') ↔ _
  simp

theorem runs_get_iff {s s' : σ} {a : σ} : Runs (get : ExceptT ε (StateM σ) σ) s a s' ↔ s = a ∧ s = s' := by
  show ((Except.ok s, s) : Except ε σ × σ) = (.ok a, s') ↔ _
  simp

theorem runs_modify_iff {f : σ → σ} {s s' : σ} {a : PUnit} :
    Runs (modify f : ExceptT ε (StateM σ) PUnit) s a s' ↔ f s = s' := by
  show ((Except.ok PUnit.unit, f s) : Except ε PUnit × σ) = (.ok a, s') ↔ _
  simp

theorem not_runs_throw {s s' : σ} {e : ε} {a : α} : ¬ Runs (throw e : ExceptT ε (StateM σ) α) s a s' := by
  show ¬ ((Except.error e, s) : Except ε α × σ) = (.ok a, s')
  simp

/-- The state after two programs: that after a first one that fails, or after the second one. -/
theorem after_bind_cases {P : σ → Prop} {x : ExceptT ε (StateM σ) α} {f : α → ExceptT ε (StateM σ) β} {s : σ}
    (hfail : P (after x s)) (hdone : ∀ a s₁, Runs x s a s₁ → P (after (f a) s₁)) : P (after (x >>= f) s) := by
  rw [after_bind]
  rcases hx : x.run.run s with ⟨e | a, s₁⟩
  · exact hfail
  · have hrun : Runs x s a s₁ := hx
    rw [hrun.after_eq]
    exact hdone a s₁ hrun

theorem after_bind_of_runs {x : ExceptT ε (StateM σ) α} {f : α → ExceptT ε (StateM σ) β} {s s₁ : σ} {a : α}
    (h : Runs x s a s₁) : after (x >>= f) s = after (f a) s₁ := by
  rw [after_bind, h.after_eq, show x.run.run s = (.ok a, s₁) from h]

/-! ## Steps -/

@[simp] theorem after_pure (a : α) (s : σ) : after (pure a : ExceptT ε (StateM σ) α) s = s := rfl

@[simp] theorem after_throw (e : ε) (s : σ) : after (throw e : ExceptT ε (StateM σ) α) s = s := rfl

@[simp] theorem after_modify (g : σ → σ) (s : σ) : after (modify g : ExceptT ε (StateM σ) PUnit) s = g s := rfl

theorem after_get_bind (f : σ → ExceptT ε (StateM σ) β) (s : σ) : after (get >>= f) s = after (f s) s :=
  after_bind_of_runs (runs_get_iff.mpr ⟨rfl, rfl⟩)

theorem after_modify_bind (g : σ → σ) (f : PUnit → ExceptT ε (StateM σ) β) (s : σ) :
    after (modify g >>= f) s = after (f ⟨⟩) (g s) :=
  after_bind_of_runs (runs_modify_iff.mpr rfl)

theorem after_modifyGet_bind (g : σ → α × σ) (f : α → ExceptT ε (StateM σ) β) (s : σ) :
    after (modifyGet g >>= f) s = after (f (g s).1) (g s).2 := rfl

/-! ## Invariants -/

/-- Runs keep what holds of the state. -/
def Preserves (J : σ → Prop) (x : ExceptT ε (StateM σ) α) : Prop := ∀ s, J s → J (after x s)

theorem preserves_modify {J : σ → Prop} {g : σ → σ} (h : ∀ s, J s → J (g s)) :
    Preserves J (modify g : ExceptT ε (StateM σ) PUnit) := h

theorem preserves_pure {J : σ → Prop} (a : α) : Preserves J (pure a : ExceptT ε (StateM σ) α) := fun _ hs => hs

theorem preserves_get {J : σ → Prop} : Preserves J (get : ExceptT ε (StateM σ) σ) := fun _ hs => hs

theorem preserves_bind {J : σ → Prop} {x : ExceptT ε (StateM σ) α} {f : α → ExceptT ε (StateM σ) β} (hx : Preserves J x)
    (hf : ∀ a, Preserves J (f a)) : Preserves J (x >>= f) := by
  intro s hs
  refine after_bind_cases (hx s hs) fun a s₁ hrun => hf a s₁ ?_
  rw [← hrun.after_eq]
  exact hx s hs

/-! ## Weakest preconditions -/

/-- The program returns from `s` with `Q`, or fails with `E`. -/
def Wp (x : ExceptT ε (StateM σ) α) (Q : α → σ → Prop) (E : ε → σ → Prop) (s : σ) : Prop :=
  match x.run.run s with
  | (.ok a, s') => Q a s'
  | (.error e, s') => E e s'

section

variable {Q Q' : α → σ → Prop} {E E' : ε → σ → Prop} {s : σ}

@[simp] theorem wp_pure {a : α} : Wp (pure a : ExceptT ε (StateM σ) α) Q E s ↔ Q a s := Iff.rfl

@[simp] theorem wp_throw {e : ε} : Wp (throw e : ExceptT ε (StateM σ) α) Q E s ↔ E e s := Iff.rfl

@[simp] theorem wp_get {Q : σ → σ → Prop} : Wp (get : ExceptT ε (StateM σ) σ) Q E s ↔ Q s s := Iff.rfl

@[simp] theorem wp_modify {Q : PUnit → σ → Prop} {g : σ → σ} :
    Wp (modify g : ExceptT ε (StateM σ) PUnit) Q E s ↔ Q ⟨⟩ (g s) := Iff.rfl

@[simp] theorem wp_modifyGet {g : σ → α × σ} :
    Wp (modifyGet g : ExceptT ε (StateM σ) α) Q E s ↔ Q (g s).1 (g s).2 := Iff.rfl

theorem wp_bind {Q : β → σ → Prop} {x : ExceptT ε (StateM σ) α} {f : α → ExceptT ε (StateM σ) β} :
    Wp (x >>= f) Q E s ↔ Wp x (fun a => Wp (f a) Q E) E s := by
  unfold Wp
  rw [ExceptT.run_bind, StateT.run_bind]
  rcases x.run.run s with ⟨e | a, s'⟩
  · rfl
  · rfl

theorem Wp.mono {x : ExceptT ε (StateM σ) α} (h : Wp x Q E s) (hQ : ∀ a s', Q a s' → Q' a s') (hE : ∀ e s', E e s' → E' e s') :
    Wp x Q' E' s := by
  unfold Wp at h ⊢
  rcases hx : x.run.run s with ⟨e | a, s'⟩
  · rw [hx] at h
    exact hE e s' h
  · rw [hx] at h
    exact hQ a s' h

theorem Wp.and {x : ExceptT ε (StateM σ) α} (h : Wp x Q E s) (h' : Wp x Q' E' s) :
    Wp x (fun a s' => Q a s' ∧ Q' a s') (fun e s' => E e s' ∧ E' e s') s := by
  unfold Wp at h h' ⊢
  rcases hx : x.run.run s with ⟨e | a, s'⟩ <;>
  · rw [hx] at h h'
    exact ⟨h, h'⟩

theorem Wp.of_runs {x : ExceptT ε (StateM σ) α} {a : α} {s' : σ} (h : Wp x Q E s) (hx : Runs x s a s') : Q a s' := by
  unfold Wp at h
  rw [show x.run.run s = (.ok a, s') from hx] at h
  exact h

/-- A program that cannot fail returns. -/
theorem Wp.exists_runs {x : ExceptT ε (StateM σ) α} (h : Wp x Q (fun _ _ => False) s) : ∃ a s', Runs x s a s' ∧ Q a s' := by
  unfold Wp at h
  rcases hx : x.run.run s with ⟨e | a, s'⟩
  · rw [hx] at h
    exact h.elim
  · rw [hx] at h
    exact ⟨a, s', hx, h⟩

/-- What comes after a program is known from what the program does. -/
theorem Wp.bind {R : β → σ → Prop} {x : ExceptT ε (StateM σ) α} {f : α → ExceptT ε (StateM σ) β} (h : Wp x Q E s)
    (hf : ∀ a s', Q a s' → Wp (f a) R E s') : Wp (x >>= f) R E s :=
  wp_bind.mpr (h.mono hf fun _ _ he => he)

end

end Omiiba
