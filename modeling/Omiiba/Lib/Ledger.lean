/-
Values given out for objects and taken back. A value that has been taken back may be given out again,
so what it stands for is the object it was last given out for.
-/
import Mathlib.Tactic

namespace Omiiba

/-- Who values were last given out for, which of them are out, and the objects in the order in which
they were given a value and in which their values were returned. -/
structure Ledger (κ α : Type*) where
  owner : κ → Option α
  isOut : κ → Bool
  given : List α
  returned : List α

namespace Ledger

variable {κ α : Type*} {l : Ledger κ α} {held held' : List (κ × α)}

def empty : Ledger κ α := ⟨fun _ => none, fun _ => false, [], []⟩

/-- The pairs are the values that are out with their objects: no value is held twice, and each object that
was given a value is held once or was returned once. -/
structure Keeps (l : Ledger κ α) (held : List (κ × α)) : Prop where
  out : ∀ x ∈ held, l.isOut x.1 = true ∧ l.owner x.1 = some x.2
  nodup : (held.map Prod.fst).Nodup
  balanced : (l.returned ++ held.map Prod.snd).Perm l.given

theorem keeps_empty : (empty : Ledger κ α).Keeps [] :=
  ⟨fun _ hx => absurd hx List.not_mem_nil, List.nodup_nil, List.Perm.refl _⟩

theorem Keeps.perm (h : l.Keeps held) (hp : held.Perm held') : l.Keeps held' where
  out x hx := h.out x (hp.mem_iff.mpr hx)
  nodup := (hp.map _).nodup_iff.mp h.nodup
  balanced := ((hp.symm.map _).append_left _).trans h.balanced

/-- An object is held or was returned as often as it was given a value. -/
theorem Keeps.count [DecidableEq α] (h : l.Keeps held) (a : α) :
    l.returned.count a + (held.map Prod.snd).count a = l.given.count a := by
  rw [← List.count_append, h.balanced.count_eq]

/-! ## Giving and taking -/

variable [DecidableEq κ] {k : κ} {a : α}

def give (l : Ledger κ α) (k : κ) (a : α) : Ledger κ α :=
  { owner := Function.update l.owner k (some a), isOut := Function.update l.isOut k true,
    given := l.given ++ [a], returned := l.returned }

/-- The value is returned, for the object it was last given out for, also if it is not out. -/
def take (l : Ledger κ α) (k : κ) : Ledger κ α :=
  { l with isOut := Function.update l.isOut k false, returned := l.returned ++ (l.owner k).toList }

@[simp] theorem give_returned (l : Ledger κ α) (k : κ) (a : α) : (l.give k a).returned = l.returned := rfl
@[simp] theorem give_given (l : Ledger κ α) (k : κ) (a : α) : (l.give k a).given = l.given ++ [a] := rfl
@[simp] theorem take_given (l : Ledger κ α) (k : κ) : (l.take k).given = l.given := rfl
@[simp] theorem take_owner (l : Ledger κ α) (k : κ) : (l.take k).owner = l.owner := rfl
@[simp] theorem give_owner (l : Ledger κ α) (k : κ) (a : α) :
    (l.give k a).owner = Function.update l.owner k (some a) := rfl
@[simp] theorem take_returned (l : Ledger κ α) (k : κ) :
    (l.take k).returned = l.returned ++ (l.owner k).toList := rfl

/-- A value that is not out can be given out. -/
theorem Keeps.give (h : l.Keeps held) (hk : l.isOut k = false) (a : α) : (l.give k a).Keeps ((k, a) :: held) := by
  have hnew : ∀ x ∈ held, x.1 ≠ k := by
    rintro x hx rfl
    rw [(h.out x hx).1] at hk
    cases hk
  constructor
  · rintro x hx
    rcases List.mem_cons.mp hx with rfl | hx
    · exact ⟨Function.update_self .., Function.update_self ..⟩
    · refine ⟨(Function.update_of_ne (hnew x hx) ..).trans (h.out x hx).1, ?_⟩
      exact (Function.update_of_ne (hnew x hx) ..).trans (h.out x hx).2
  · refine List.nodup_cons.mpr ⟨?_, h.nodup⟩
    rintro hmem
    obtain ⟨x, hx, heq⟩ := List.mem_map.mp hmem
    exact hnew x hx heq
  · show (l.returned ++ a :: held.map Prod.snd).Perm (l.given ++ [a])
    exact List.perm_middle.trans ((h.balanced.cons a).trans (List.perm_append_singleton a l.given).symm)

/-- A value that is out can be returned. -/
theorem Keeps.take (h : l.Keeps ((k, a) :: held)) : (l.take k).Keeps held := by
  obtain ⟨hnot, hnodup⟩ := List.nodup_cons.mp h.nodup
  constructor
  · rintro x hx
    have hne : x.1 ≠ k := by
      rintro rfl
      exact hnot (List.mem_map.mpr ⟨x, hx, rfl⟩)
    obtain ⟨hout, howner⟩ := h.out x (List.mem_cons_of_mem _ hx)
    exact ⟨(Function.update_of_ne hne ..).trans hout, howner⟩
  · exact hnodup
  · have howner : l.owner k = some a := (h.out (k, a) List.mem_cons_self).2
    rw [take_returned, take_given, howner, Option.toList_some, List.append_assoc]
    exact h.balanced

/-- All values that are out can be returned, one after the other. -/
theorem Keeps.takeAll : ∀ {held : List (κ × α)} {l : Ledger κ α}, l.Keeps held →
    ((held.map Prod.fst).foldl Ledger.take l).Keeps []
  | [], _, h => h
  | (_, _) :: held, _, h => @Keeps.takeAll held _ h.take

theorem foldl_take_given (ks : List κ) : ∀ l : Ledger κ α, (ks.foldl Ledger.take l).given = l.given := by
  induction ks with
  | nil => exact fun _ => rfl
  | cons k ks ih => exact fun l => (ih (l.take k)).trans rfl

theorem foldl_take_owner (ks : List κ) : ∀ l : Ledger κ α, (ks.foldl Ledger.take l).owner = l.owner := by
  induction ks with
  | nil => exact fun _ => rfl
  | cons k ks ih => exact fun l => (ih (l.take k)).trans rfl

theorem foldl_take_returned (ks : List κ) : ∀ l : Ledger κ α,
    (ks.foldl Ledger.take l).returned = l.returned ++ ks.flatMap fun k => (l.owner k).toList := by
  induction ks with
  | nil => exact fun l => (List.append_nil _).symm
  | cons k ks ih =>
    intro l
    rw [List.foldl_cons, ih, List.flatMap_cons, take_returned, take_owner, List.append_assoc]

end Ledger

end Omiiba
