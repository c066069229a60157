/-
Data with a field for a checksum: it is taken over the data with the field cleared, and put into the field.
-/
import Omiiba.Lib.Memory

namespace Omiiba

/-- A field of an `α`, read and written. -/
structure CheckField (α β : Type*) where
  get : α → β
  set : β → α → α
  get_set : ∀ v a, get (set v a) = v
  set_set : ∀ v w a, set v (set w a) = set v a
  set_get : ∀ a, set (get a) a = a

namespace CheckField

variable {α β : Type*} [Zero β] (f : CheckField α β) (check : α → β)

/-- The data with the checksum in the field. -/
def fill (a : α) : α :=
  let cleared := f.set 0 a
  f.set (check cleared) cleared

/-- The checksum in the field is that of the data. -/
def Valid (a : α) : Prop := f.get a = check (f.set 0 a)

theorem valid_fill (a : α) : f.Valid check (f.fill check a) := by
  unfold Valid fill
  simp only [f.get_set, f.set_set]

end CheckField

/-! ## Words in a memory -/

namespace Memory

theorem store_store {α : Type*} (m : Memory α) (a : Nat) {bs cs : List α} (h : bs.length = cs.length) :
    (m.store a bs).store a cs = m.store a cs := by
  funext x
  by_cases hx : a ≤ x ∧ x - a < cs.length
  · rw [store_inside _ hx.1 hx.2, store_inside _ hx.1 hx.2]
  · rw [store_outside _ (by omega), store_outside _ (by omega), store_outside _ (by omega)]

theorem store_load (m : Memory UInt8) (a n : Nat) : m.store a (leBytes n (m.load a n)) = m := by
  funext x
  by_cases hx : a ≤ x ∧ x - a < n
  · rw [store_inside _ hx.1 (by rw [leBytes_length]; exact hx.2)]
    simp only [leBytes_load, List.getElem_map, List.getElem_range, Nat.add_sub_cancel' hx.1]
  · rw [store_outside _ (by rw [leBytes_length]; omega)]

/-- The word at an address. -/
def wordField (a : Nat) : CheckField (Memory UInt8) UInt32 where
  get m := UInt32.ofNat (m.load a 4)
  set v m := m.store a (leBytes 4 v.toNat)
  get_set v m := by
    rw [load_store, Nat.mod_eq_of_lt (show v.toNat < 256 ^ 4 from v.toNat_lt), UInt32.ofNat_toNat]
  set_set v w m := store_store m a (by simp)
  set_get m := by
    rw [UInt32.toNat_ofNat', Nat.mod_eq_of_lt (show m.load a 4 < 2 ^ 32 from load_lt m 4 a), store_load]

end Memory

end Omiiba
