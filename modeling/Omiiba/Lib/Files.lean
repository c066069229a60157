/-
Files under names, with every moment of a run kept, so that one can say what is there after a cut: writing, removing and
renaming, each of which is done whole or not at all.
-/
import Mathlib.Tactic

namespace Omiiba.Files

variable {Path Content : Type} [DecidableEq Path]

abbrev Disk (Path Content : Type) := Path → Option Content

/-- What is there now, and what was there before, the last first. -/
structure Log (Path Content : Type) where
  now : Disk Path Content
  earlier : List (Disk Path Content)

namespace Log

variable {path other src dst : Path} {content : Option Content} {ok : Bool} {disk : Disk Path Content}
  {log log' log'' : Log Path Content} {P : Disk Path Content → Prop}

def start (disk : Disk Path Content) : Log Path Content := ⟨disk, []⟩

def set (path : Path) (content : Option Content) (log : Log Path Content) : Log Path Content :=
  ⟨Function.update log.now path content, log.now :: log.earlier⟩

def write (path : Path) (content : Content) (log : Log Path Content) : Log Path Content := log.set path (some content)

/-- `remove`, which succeeds where `ok` says so. -/
def remove (ok : Bool) (path : Path) (log : Log Path Content) : Log Path Content := if ok then log.set path none else log

/-- `rename`, which needs the file as well; what has the new name already is replaced. -/
def rename (ok : Bool) (src dst : Path) (log : Log Path Content) : Bool × Log Path Content :=
  if ok && (log.now src).isSome then
    (true, ⟨Function.update (Function.update log.now dst (log.now src)) src none, log.now :: log.earlier⟩)
  else (false, log)

/-- `P` holds now, and held at every moment before. -/
structure Always (P : Disk Path Content → Prop) (log : Log Path Content) : Prop where
  now : P log.now
  earlier : ∀ disk ∈ log.earlier, P disk

omit [DecidableEq Path] in
theorem Always.start (h : P disk) : (start disk).Always P := ⟨h, by simp [Log.start]⟩

omit [DecidableEq Path] in
theorem Always.next (h : log.Always P) (hnow : P disk) : Always P ⟨disk, log.now :: log.earlier⟩ := by
  refine ⟨hnow, ?_⟩
  rintro earlier hmem
  rcases List.mem_cons.mp hmem with rfl | hmem
  · exact h.now
  · exact h.earlier earlier hmem

theorem Always.remove (h : log.Always P) (hnow : ok = true → P (Function.update log.now path none)) :
    (log.remove ok path).Always P := by
  unfold Log.remove
  split
  · rename_i hok
    exact h.next (hnow hok)
  · exact h

@[simp] theorem write_now {content : Content} : (log.write path content).now path = some content := by
  simp [write, set]

theorem remove_now : (log.remove ok path).now = if ok then Function.update log.now path none else log.now := by
  unfold remove
  split <;> rfl

theorem remove_other (h : other ≠ path) : (log.remove ok path).now other = log.now other := by
  rw [remove_now]
  split
  · exact Function.update_of_ne h _ _
  · rfl

/-- `log'` is what a renaming that succeeds leaves. -/
structure Renamed (src dst : Path) (content : Content) (log log' : Log Path Content) : Prop where
  placed : log'.now dst = some content
  gone : log'.now src = none
  other : ∀ {other : Path}, other ≠ src → other ≠ dst → log'.now other = log.now other
  always : ∀ {P : Disk Path Content → Prop}, log.Always P → P log'.now → log'.Always P

theorem rename_some {content : Content} (hne : src ≠ dst) (h : log.now src = some content) :
    ∃ log', log.rename true src dst = (true, log') ∧ Renamed src dst content log log' := by
  refine ⟨_, by simp only [rename, h, Bool.true_and, Option.isSome_some, if_true]; rfl, ?_⟩
  refine ⟨?_, Function.update_self _ _ _, ?_, fun halways hnow => halways.next hnow⟩
  · dsimp only
    rw [Function.update_of_ne hne.symm, Function.update_self]
  · intro other hsrc hdst
    dsimp only
    rw [Function.update_of_ne hsrc, Function.update_of_ne hdst]

theorem rename_none (h : log.now src = none) : log.rename ok src dst = (false, log) := by simp [rename, h]

@[simp] theorem rename_fails : log.rename false src dst = (false, log) := by simp [rename]

/-- Only the file at `path` has changed from `log` to `log'`, at every moment. -/
structure Within (path : Path) (log log' : Log Path Content) : Prop where
  other : ∀ {other : Path}, other ≠ path → log'.now other = log.now other
  always : ∀ {P : Disk Path Content → Prop}, (∀ disk content, P disk → P (Function.update disk path content)) →
    log.Always P → log'.Always P

theorem Within.refl : Within path log log := ⟨fun _ => rfl, fun _ h => h⟩

theorem Within.trans (h : Within path log log') (h' : Within path log' log'') : Within path log log'' :=
  ⟨fun hother => (h'.other hother).trans (h.other hother), fun hstep halways => h'.always hstep (h.always hstep halways)⟩

theorem Within.set : Within path log (log.set path content) :=
  ⟨fun hother => Function.update_of_ne hother _ _, fun hstep h => h.next (hstep _ _ h.now)⟩

theorem Within.write {content : Content} : Within path log (log.write path content) := Within.set

theorem Within.remove : Within path log (log.remove ok path) := by
  unfold Log.remove
  split
  · exact Within.set
  · exact Within.refl

end Log

end Omiiba.Files
