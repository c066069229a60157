/-
Lists of entries as finite maps: a list represents a map when no two entries share a key and the
map gives each key the value of its entry. The order of the entries does not matter.
-/
import Mathlib.Data.List.Perm.Basic
import Mathlib.Tactic

namespace Omiiba

open scoped List

variable {α κ β : Type*} {key : α → κ} {val : α → β}

/-- `l` holds exactly the pairs of `m`, each once. -/
structure TableOf (key : α → κ) (val : α → β) (l : List α) (m : κ → Option β) : Prop where
  distinct : (l.map key).Nodup
  exact : ∀ k v, m k = some v ↔ ∃ e ∈ l, key e = k ∧ val e = v

namespace TableOf

theorem nil : TableOf key val [] fun _ => none := ⟨List.nodup_nil, by simp⟩

theorem perm {l l' : List α} {m : κ → Option β} (t : TableOf key val l m) (h : l ~ l') : TableOf key val l' m :=
  ⟨(h.map key).nodup_iff.1 t.distinct, fun k v => by rw [t.exact]; simp only [h.mem_iff]⟩

theorem eq_none {l : List α} {m : κ → Option β} (t : TableOf key val l m) {k : κ} :
    m k = none ↔ ∀ e ∈ l, key e ≠ k := by
  constructor
  · rintro hn e he rfl
    have := (t.exact (key e) (val e)).2 ⟨e, he, rfl, rfl⟩
    rw [hn] at this; cases this
  · intro h
    by_contra hne
    obtain ⟨v, hv⟩ := Option.ne_none_iff_exists'.1 hne
    obtain ⟨e, he, hk, -⟩ := (t.exact k v).1 hv
    exact h e he hk

theorem mem {l : List α} {m : κ → Option β} (t : TableOf key val l m) {e : α} (he : e ∈ l) :
    m (key e) = some (val e) := (t.exact _ _).2 ⟨e, he, rfl, rfl⟩

variable [DecidableEq κ]

/-- A new entry with a new key is an insertion. -/
theorem cons {l : List α} {m : κ → Option β} (t : TableOf key val l m) {e : α} (he : m (key e) = none) :
    TableOf key val (e :: l) (Function.update m (key e) (some (val e))) := by
  refine ⟨List.nodup_cons.2 ⟨?_, t.distinct⟩, fun k v => ?_⟩
  · rw [List.mem_map]
    rintro ⟨e', he', hk⟩
    exact t.eq_none.1 he e' he' hk
  · by_cases hk : k = key e
    · subst hk
      rw [Function.update_self]
      constructor
      · rintro h; cases h; exact ⟨e, List.mem_cons_self, rfl, rfl⟩
      · rintro ⟨e', he', hk, rfl⟩
        rcases List.mem_cons.1 he' with rfl | he'
        · rfl
        · exact absurd hk (t.eq_none.1 he e' he')
    · rw [Function.update_of_ne hk, t.exact]
      constructor
      · rintro ⟨e', he', h1, h2⟩; exact ⟨e', List.mem_cons_of_mem _ he', h1, h2⟩
      · rintro ⟨e', he', h1, h2⟩
        rcases List.mem_cons.1 he' with rfl | he'
        · exact absurd h1.symm hk
        · exact ⟨e', he', h1, h2⟩

omit [DecidableEq κ] in
theorem of_cons_ne {l : List α} {m : κ → Option β} {e : α} (t : TableOf key val (e :: l) m) :
    ∀ e' ∈ l, key e' ≠ key e := by
  intro e' he' hk
  exact (List.nodup_cons.1 t.distinct).1 (hk ▸ List.mem_map_of_mem he')

/-- Taking an entry out erases its key. -/
theorem tail {l : List α} {m : κ → Option β} {e : α} (t : TableOf key val (e :: l) m) :
    TableOf key val l (Function.update m (key e) none) := by
  refine ⟨(List.nodup_cons.1 t.distinct).2, fun k v => ?_⟩
  by_cases hk : k = key e
  · subst hk
    rw [Function.update_self]
    constructor
    · rintro ⟨⟩
    · rintro ⟨e', he', hk, -⟩; exact absurd hk (t.of_cons_ne e' he')
  · rw [Function.update_of_ne hk, t.exact]
    constructor
    · rintro ⟨e', he', h1, h2⟩
      rcases List.mem_cons.1 he' with rfl | he'
      · exact absurd h1.symm hk
      · exact ⟨e', he', h1, h2⟩
    · rintro ⟨e', he', h1, h2⟩; exact ⟨e', List.mem_cons_of_mem _ he', h1, h2⟩

omit [DecidableEq κ] in
/-- Taking out all entries whose value fails a test keeps the pairs whose value passes it. -/
theorem keep {l removed kept : List α} {m : κ → Option β} (t : TableOf key val l m) (h : removed ++ kept ~ l)
    {p : β → Bool} (hr : ∀ e ∈ removed, p (val e) = false) (hk : ∀ e ∈ kept, p (val e) = true) :
    TableOf key val kept fun k => (m k).filter p := by
  have t' := t.perm h.symm
  have hnd := t'.distinct
  rw [List.map_append] at hnd
  refine ⟨(List.nodup_append.1 hnd).2.1, fun k v => ?_⟩
  rw [Option.filter_eq_some_iff, t'.exact]
  constructor
  · rintro ⟨⟨e, he, rfl, rfl⟩, hp⟩
    rcases List.mem_append.1 he with he | he
    · rw [hr e he] at hp; cases hp
    · exact ⟨e, he, rfl, rfl⟩
  · rintro ⟨e, he, rfl, rfl⟩
    exact ⟨⟨e, List.mem_append_right _ he, rfl, rfl⟩, hk e he⟩

end TableOf

end Omiiba
