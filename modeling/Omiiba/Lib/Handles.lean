/-
Handles that are given out and given back: what it means that each of them is either held or has been closed once.
-/
import Mathlib.Tactic

namespace Omiiba

/-- The handles `1`, …, `opened` have been given out, those of `closed` have been given back since. -/
structure Handles where
  opened : Nat
  closed : List Nat
  deriving DecidableEq

namespace Handles

def empty : Handles := ⟨0, []⟩

/-- The handle that is given out next. -/
def next (l : Handles) : Nat := l.opened + 1

def give (l : Handles) : Handles := { l with opened := l.next }

def close (l : Handles) (h : Nat) : Handles := { l with closed := h :: l.closed }

/-- Each handle that has been given out is held once and has not been closed, or has been closed once. -/
def Balanced (l : Handles) (held : List Nat) : Prop := (l.closed ++ held).Perm (List.range' 1 l.opened)

theorem next_ne_zero (l : Handles) : l.next ≠ 0 := Nat.succ_ne_zero _

variable {l : Handles} {held held' : List Nat} {h : Nat}

theorem balanced_empty : empty.Balanced [] := List.Perm.refl []

theorem Balanced.perm (hb : l.Balanced held) (hp : held.Perm held') : l.Balanced held' :=
  (hp.symm.append_left l.closed).trans hb

theorem Balanced.give (hb : l.Balanced held) : l.give.Balanced (l.next :: held) := by
  show (l.closed ++ l.next :: held).Perm (List.range' 1 (l.opened + 1))
  rw [List.range'_concat]
  refine List.perm_middle.trans (List.Perm.trans ?_ (List.perm_append_singleton _ _).symm)
  rw [Nat.one_mul, show 1 + l.opened = l.next from Nat.add_comm _ _]
  exact List.Perm.cons _ hb

theorem Balanced.close (hb : l.Balanced (h :: held)) : (l.close h).Balanced held :=
  (List.perm_middle.symm).trans hb

/-- All that is held can be closed. -/
theorem Balanced.closeAll (hb : l.Balanced held) : (held.foldl Handles.close l).Balanced [] := by
  induction held generalizing l with
  | nil => exact hb
  | cons h held ih => exact ih hb.close

end Handles

end Omiiba
