/-
Code that takes recursive locks and gives them back: how often each lock is held, and which one a call leaves held.
-/
import Mathlib.Tactic

namespace Omiiba

/-- How often each lock is held, and whether one has been released that was not held. -/
@[ext] structure Locks (L : Type*) where
  held : L → Nat
  overrun : Bool

namespace Locks

variable {L : Type*} [DecidableEq L] (locks : Locks L)

/-- No lock is held. -/
def free : Locks L := ⟨fun _ => 0, false⟩

def acquire (l : L) : Locks L := { locks with held := Function.update locks.held l (locks.held l + 1) }

def release (l : L) : Locks L :=
  if locks.held l = 0 then { locks with overrun := true }
  else { locks with held := Function.update locks.held l (locks.held l - 1) }

/-- What a call leaves that gives back all locks but perhaps one. -/
def take : Option L → Locks L
  | none => locks
  | some l => locks.acquire l

@[simp] theorem release_acquire (l : L) : (locks.acquire l).release l = locks := by
  have hsome : (locks.acquire l).held l = locks.held l + 1 := Function.update_self ..
  unfold release
  rw [if_neg (by omega), hsome]
  unfold acquire
  rw [Nat.add_sub_cancel, Function.update_idem, Function.update_eq_self]

theorem acquire_comm (l l' : L) : (locks.acquire l).acquire l' = (locks.acquire l').acquire l := by
  by_cases h : l' = l
  · rw [h]
  · simp only [acquire, Function.update_of_ne h, Function.update_of_ne (Ne.symm h)]
    rw [Function.update_comm (Ne.symm h)]

/-- A lock that is left over does not get in the way of another. -/
theorem take_acquire (l : L) (leak : Option L) : (locks.acquire l).take leak = (locks.take leak).acquire l := by
  rcases leak with _ | l'
  · rfl
  · exact locks.acquire_comm l l'

/-- All locks are held as often as before, or more often. -/
theorem held_le_take (leak : Option L) (l : L) : locks.held l ≤ (locks.take leak).held l := by
  rcases leak with _ | l'
  · exact le_rfl
  · show locks.held l ≤ Function.update locks.held l' (locks.held l' + 1) l
    by_cases h : l = l'
    · rw [h, Function.update_self]
      omega
    · rw [Function.update_of_ne h]

/-- A lock that is left is held once more, which nothing that is held at least as often makes up for. -/
theorem take_eq_none {leak : Option L} {locks' : Locks L} (h : locks' = locks)
    (hle : ∀ l, (locks.take leak).held l ≤ locks'.held l) : leak = none := by
  rcases leak with _ | l
  · rfl
  · have hl := hle l
    rw [h] at hl
    change Function.update locks.held l (locks.held l + 1) l ≤ locks.held l at hl
    rw [Function.update_self] at hl
    omega

theorem take_eq_self_iff (leak : Option L) : locks.take leak = locks ↔ leak = none := by
  constructor
  · exact fun h => locks.take_eq_none h fun _ => le_rfl
  · rintro rfl
    rfl

end Locks

/-! ## Programs -/

/-- A state, and the locks. -/
structure Locked (σ L : Type*) where
  state : σ
  locks : Locks L

/-- Programs that take and release locks. -/
abbrev Locking (σ L : Type) := StateM (Locked σ L)

section

variable {σ L α β : Type} [DecidableEq L]

def lock (l : L) : Locking σ L Unit := modify fun s => { s with locks := s.locks.acquire l }

def unlock (l : L) : Locking σ L Unit := modify fun s => { s with locks := s.locks.release l }

/-- What is done with the state alone. -/
def onState (f : σ → α × σ) : Locking σ L α := modifyGet fun s => ((f s.state).1, { s with state := (f s.state).2 })

/-- What is done only under a condition. -/
def onlyIf (p : Prop) [Decidable p] (x : Locking σ L Unit) : Locking σ L Unit := if p then x else pure ()

/-- A call leaves one lock held that it has taken, or none. -/
def LeavesLocks (x : Locking σ L α) (leak : σ → Option L) : Prop := ∀ s, (x.run s).2.locks = s.locks.take (leak s.state)

/-- A call from a state releases each lock as often as it has taken it, whatever was held before. -/
def Balanced (x : Locking σ L α) (s : σ) : Prop := ∀ locks, (x.run ⟨s, locks⟩).2.locks = locks

theorem LeavesLocks.balanced_iff {x : Locking σ L α} {leak : σ → Option L} (h : LeavesLocks x leak) (s : σ) :
    Balanced x s ↔ leak s = none := by
  have hrun (locks : Locks L) : (x.run ⟨s, locks⟩).2.locks = locks.take (leak s) := h ⟨s, locks⟩
  constructor
  · intro hbalanced
    exact (Locks.free.take_eq_self_iff _).mp ((hrun _).symm.trans (hbalanced _))
  · intro hnone locks
    rw [hrun, hnone]
    rfl

theorem leaves_pure (a : α) : LeavesLocks (pure a : Locking σ L α) fun _ => none := fun _ => rfl

theorem leaves_onState (f : σ → α × σ) : LeavesLocks (onState f : Locking σ L α) fun _ => none := fun _ => rfl

/-- After a call that may leave a lock, what is left is that one, if what comes then leaves none. -/
theorem LeavesLocks.bind {x : Locking σ L α} {f : α → Locking σ L β} {leak : σ → Option L} (hx : LeavesLocks x leak)
    (hf : ∀ a, LeavesLocks (f a) fun _ => none) : LeavesLocks (x >>= f) leak := by
  intro s
  rw [StateT.run_bind]
  exact (hf _ (x.run s).2).trans (hx s)

/-- A call that leaves no lock and does not change which lock is left by what comes then. -/
theorem LeavesLocks.before {x : Locking σ L α} {f : α → Locking σ L β} {leak : σ → Option L} (hx : LeavesLocks x fun _ => none)
    (hf : ∀ a, LeavesLocks (f a) leak) (hsame : ∀ s, leak (x.run s).2.state = leak s.state) : LeavesLocks (x >>= f) leak := by
  intro s
  have hlocks : (x.run s).2.locks = s.locks := hx s
  have hrest := hf (x.run s).1 (x.run s).2
  rw [hlocks, hsame] at hrest
  rw [StateT.run_bind]
  exact hrest

theorem LeavesLocks.map {x : Locking σ L α} {leak : σ → Option L} (hx : LeavesLocks x leak) (f : α → β) :
    LeavesLocks (f <$> x) leak := hx

theorem leaves_ite {p : Prop} [Decidable p] {x y : Locking σ L α} (hx : LeavesLocks x fun _ => none) (hy : LeavesLocks y fun _ => none) :
    LeavesLocks (if p then x else y) fun _ => none := by
  split_ifs
  · exact hx
  · exact hy

theorem LeavesLocks.onlyIf {x : Locking σ L Unit} (hx : LeavesLocks x fun _ => none) (p : Prop) [Decidable p] :
    LeavesLocks (Omiiba.onlyIf p x) fun _ => none := leaves_ite hx (leaves_pure ())

/-- What comes after a lock has been taken releases it, and leaves one that it has taken itself, or none. -/
def LeavesUnder (l : L) (x : Locking σ L α) (leak : σ → Option L) : Prop :=
  ∀ s : Locked σ L, (x.run { s with locks := s.locks.acquire l }).2.locks = s.locks.take (leak s.state)

theorem LeavesUnder.lock {l : L} {x : Locking σ L α} {leak : σ → Option L} (hx : LeavesUnder l x leak) :
    LeavesLocks (Omiiba.lock l >>= fun _ => x) leak := hx

theorem leavesUnder_unlock (l : L) : LeavesUnder l (unlock l : Locking σ L Unit) fun _ => none :=
  fun s => s.locks.release_acquire l

theorem LeavesLocks.afterUnlock {x : Locking σ L α} (hx : LeavesLocks x fun _ => none) (l : L) :
    LeavesUnder l (unlock l >>= fun _ => x) fun _ => none :=
  fun s => (hx _).trans (s.locks.release_acquire l)

theorem LeavesUnder.bind {l : L} {x : Locking σ L α} {f : α → Locking σ L β} {leak : σ → Option L} (hx : LeavesLocks x leak)
    (hf : ∀ a, LeavesUnder l (f a) fun _ => none) : LeavesUnder l (x >>= f) leak := by
  intro s
  rw [StateT.run_bind]
  have hrun : (x.run { s with locks := s.locks.acquire l }).2.locks = (s.locks.take (leak s.state)).acquire l :=
    (hx { s with locks := s.locks.acquire l }).trans (s.locks.take_acquire l _)
  have hrest := hf (x.run { s with locks := s.locks.acquire l }).1
    ⟨(x.run { s with locks := s.locks.acquire l }).2.state, s.locks.take (leak s.state)⟩
  rw [← hrun] at hrest
  exact hrest

theorem leavesUnder_ite {l : L} {p : Prop} [Decidable p] {x y : Locking σ L α} (hx : LeavesUnder l x fun _ => none)
    (hy : LeavesUnder l y fun _ => none) : LeavesUnder l (if p then x else y) fun _ => none := by
  split_ifs
  · exact hx
  · exact hy

end

end Omiiba
