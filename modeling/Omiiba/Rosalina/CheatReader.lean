/-
A whole cheat file, read line by line: the calls of `Cheat_ReadLine` give the lines of the file in
order, whatever the file system gives in one request and wherever the buffer is filled again.
-/
import Omiiba.Rosalina.CheatFile

namespace Omiiba.Rosalina

/-! ## Requests -/

/-- What `FSFILE_Read` gives of the bytes that are wanted at a position: some of them before the end of the
file, and none behind it. -/
structure FileServer (content : List UInt8) where
  count : Nat → Nat → Nat
  count_le : ∀ pos left, count pos left ≤ min left (content.length - pos)
  count_pos : ∀ pos left, 0 < left → pos < content.length → 0 < count pos left

section

variable {content : List UInt8}

/-- The loop of `IFile_Read`: the bytes, and the position behind them. -/
def ifileReadLoop (fs : FileServer content) : Nat → Nat → Nat → List UInt8 × Nat
  | 0, pos, _ => ([], pos)
  | turns + 1, pos, left =>
    let read := fs.count pos left
    if read = 0 then ([], pos)
    else
      let buf := (content.drop pos).take read
      if read = left then (buf, pos + read)
      else
        let (more, pos) := ifileReadLoop fs turns (pos + read) (left - read)
        (buf ++ more, pos)

/-- All bytes that are wanted are read, up to the end of the file. -/
theorem ifileReadLoop_eq (fs : FileServer content) : ∀ {turns pos left : Nat}, left ≤ turns → pos ≤ content.length →
    ifileReadLoop fs turns pos left = ((content.drop pos).take left, pos + min left (content.length - pos))
  | 0, pos, left, hturns, hpos => by
    obtain rfl : left = 0 := Nat.le_zero.mp hturns
    simp [ifileReadLoop]
  | turns + 1, pos, left, hturns, hpos => by
    have hle := fs.count_le pos left
    unfold ifileReadLoop
    dsimp only
    by_cases hzero : fs.count pos left = 0
    · have hend : left = 0 ∨ pos = content.length := by
        by_contra hmore
        have hsome := fs.count_pos pos left (by omega) (by omega)
        omega
      rw [if_pos hzero]
      rcases hend with rfl | rfl
      · simp
      · simp
    · rw [if_neg hzero]
      by_cases hall : fs.count pos left = left
      · rw [if_pos hall, hall]
        simp
        omega
      · have hturns' : left - fs.count pos left ≤ turns := by omega
        have hpos' : pos + fs.count pos left ≤ content.length := by omega
        rw [if_neg hall, ifileReadLoop_eq fs hturns' hpos']
        refine Prod.ext ?_ ?_
        · show (content.drop pos).take _ ++ (content.drop (pos + _)).take _ = _
          rw [← List.drop_drop, ← List.take_add]
          congr 1
          omega
        · show pos + fs.count pos left + min _ _ = pos + min _ _
          omega

/-- The buffer is filled with what `IFile_Read` gives. -/
theorem fill_eq_ifileReadLoop (fs : FileServer content) (file : BufferedFile) {pos : Nat} (hpos : pos ≤ content.length)
    (hrest : file.rest = content.drop pos) :
    file.fill.buffer = (ifileReadLoop fs 512 pos 512).1 ∧ file.fill.maxPos = (ifileReadLoop fs 512 pos 512).1.length ∧
      file.fill.rest = content.drop (ifileReadLoop fs 512 pos 512).2 := by
  rw [ifileReadLoop_eq fs (le_refl _) hpos]
  unfold BufferedFile.fill
  rw [hrest]
  refine ⟨rfl, rfl, ?_⟩
  rw [List.drop_drop]
  dsimp only
  by_cases hlong : 512 ≤ content.length - pos
  · rw [min_eq_left hlong]
  · rw [List.drop_eq_nil_of_le (by omega), List.drop_eq_nil_of_le (by omega)]

/-! ## Lines -/

/-- The calls of `Cheat_ReadLine` up to the marker of the end: what each returns, and its line. -/
def readLines : Nat → BufferedFile → List (Int × Option (List UInt8))
  | 0, _ => []
  | calls + 1, file =>
    let r := readLine file 1024
    (r.res, r.line) :: (if r.res = -1 then [] else readLines calls r.file)

end

end Omiiba.Rosalina
