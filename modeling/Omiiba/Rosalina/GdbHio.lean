/-
Requests of the debugged program to the debugger's host, after hio.c: the packet that is made of a request in the program's
memory, with all that is read of the request and written on the way.
-/
import Omiiba.Rosalina.GdbMem
import Omiiba.Rosalina.GdbThread

namespace Omiiba.Rosalina

/-! ## The code -/

/-- `PackedGdbHioRequest`, as the memory from its first byte on; the magic has been checked. -/
structure PackedGdbHioRequest where
  bytes : List UInt8
  size_le : 152 ≤ bytes.length
  magic : bytes.take 4 = ascii "GDB" ++ [0]

/-- A part of the request that is read, by its index in an array. -/
inductive HioAccess
  | functionName (i : Nat)
  | paramFormat (i : Nat)
  | parameters (i : Nat)
  | stringLengths (i : Nat)

namespace PackedGdbHioRequest

variable (req : PackedGdbHioRequest)

/-- `functionName`, which is read up to the first NUL. -/
def functionName : List UInt8 := (req.bytes.drop 8).takeWhile (· ≠ 0)

def paramFormat (i : Nat) : UInt8 := req.bytes.getD (25 + i) 0

def parameters (i : Nat) : Nat := (Memory.ofBytes req.bytes).load (40 + 8 * i) 8

def stringLengths (i : Nat) : Nat := (Memory.ofBytes req.bytes).load (104 + 4 * i) 4

end PackedGdbHioRequest

/-- What is written to `buf` and `tmp` and read of the request, and the text in `buf`. -/
structure HioTrace where
  bufWrites : List (Write UInt8)
  tmpWrites : List (Write UInt8)
  accesses : List HioAccess
  buf : List UInt8

/-- The text that is put in `tmp` for a letter of the format, with what is read for it, and `nStr` after it. -/
def paramText (req : PackedGdbHioRequest) (i nStr : Nat) : List UInt8 × List HioAccess × Nat :=
  let c := req.paramFormat i
  if c = 0x69 ∨ c = 0x49 ∨ c = 0x70 then (ascii "," ++ hexText (req.parameters i % 2 ^ 32), [.parameters i], nStr)
  else if c = 0x6C ∨ c = 0x4C then (ascii "," ++ hexText (req.parameters i), [.parameters i], nStr)
  else if c = 0x73 then
    (ascii "," ++ hexText (req.parameters i % 2 ^ 32) ++ ascii "/" ++ hexText (req.stringLengths nStr),
      [.parameters i, .stringLengths nStr], nStr + 1)
  else ([], [], nStr)

/-- The loop over the format, of which `k` letters may be left: each text is put in `tmp` and behind what is in `buf`. -/
def paramLoop (req : PackedGdbHioRequest) : Nat → Nat → Nat → List UInt8 → HioTrace
  | 0, _, _, buf => ⟨[], [], [], buf⟩
  | k + 1, i, nStr, buf =>
    if req.paramFormat i = 0 then ⟨[], [], [.paramFormat i], buf⟩
    else
      let (tmp, accesses, nStr) := paramText req i nStr
      let trace := paramLoop req k (i + 1) nStr (buf ++ tmp)
      ⟨⟨buf.length, tmp ++ [0]⟩ :: trace.bufWrites, ⟨0, tmp ++ [0]⟩ :: trace.tmpWrites,
        .paramFormat i :: accesses ++ trace.accesses, trace.buf⟩

/-- `GDB_SendCurrentHioRequest`. -/
def sendCurrentHioRequest (req : PackedGdbHioRequest) : HioTrace :=
  let buf := ascii "F" ++ req.functionName
  let trace := paramLoop req 8 0 0 buf
  ⟨⟨0, buf ++ [0]⟩ :: trace.bufWrites, trace.tmpWrites,
    (List.range (req.functionName.length + 1)).map HioAccess.functionName ++ trace.accesses, trace.buf⟩

/-! ## What is expected -/

/-- The access is to an element of the array. -/
def HioAccess.Inside : HioAccess → Prop
  | .functionName i => i < 16 + 1
  | .paramFormat i => i < 8 + 1
  | .parameters i => i < 8
  | .stringLengths i => i < 8

/-- The argument for a letter that is one of the protocol's. -/
def argument (c : UInt8) (parameter stringLength : Nat) : List UInt8 :=
  if c ∈ ascii "iIp" then 0x2C :: hexText (parameter % 2 ^ 32)
  else if c ∈ ascii "lL" then 0x2C :: hexText parameter
  else if c ∈ ascii "s" then 0x2C :: (hexText (parameter % 2 ^ 32) ++ 0x2F :: hexText stringLength)
  else []

namespace PackedGdbHioRequest

variable (req : PackedGdbHioRequest)

/-- The arguments for letters, the first of them at index `i` and with `nStr` strings in front of it. -/
def arguments : List UInt8 → Nat → Nat → List UInt8
  | [], _, _ => []
  | c :: letters, i, nStr => argument c (req.parameters i) (req.stringLengths nStr) ++
      arguments letters (i + 1) (if c = 0x73 then nStr + 1 else nStr)

/-- A text field of `size` bytes, up to a NUL. -/
def field (off size : Nat) : List UInt8 := ((req.bytes.drop off).take size).takeWhile (· ≠ 0)

/-- `F`, the name and an argument for each letter. -/
def packet : List UInt8 := ascii "F" ++ req.field 8 17 ++ req.arguments (req.field 25 8) 0 0

end PackedGdbHioRequest

/-- All that is written is in the arrays `buf` and `tmp` and all that is read is in arrays of the request, and the packet is the
one for the request and fits. -/
structure SendsRequest (req : PackedGdbHioRequest) : Prop where
  buf : ∀ w ∈ (sendCurrentHioRequest req).bufWrites, w.stop ≤ 256 + 1
  tmp : ∀ w ∈ (sendCurrentHioRequest req).tmpWrites, w.stop ≤ 32 + 1
  request : ∀ a ∈ (sendCurrentHioRequest req).accesses, a.Inside
  packet : (sendCurrentHioRequest req).buf = req.packet
  frame : (sendPacket (sendCurrentHioRequest req).buf).stop ≤ packetBufSize

/-! ## Texts -/

theorem hexText_length_le {n k : Nat} (hk : 0 < k) (h : n < 16 ^ k) : (hexText n).length ≤ k := by
  rw [hexText, List.length_map]
  exact (Nat.length_toDigits_le_iff (by norm_num) hk).mpr h

theorem argument_length_le (c : UInt8) {parameter stringLength : Nat} (hparameter : parameter < 2 ^ 64)
    (hstring : stringLength < 2 ^ 32) : (argument c parameter stringLength).length ≤ 18 := by
  have hlow : (hexText (parameter % 2 ^ 32)).length ≤ 8 := hexText_length_le (by omega) (by norm_num; omega)
  have hall : (hexText parameter).length ≤ 16 := hexText_length_le (by omega) (by norm_num; omega)
  have hsize : (hexText stringLength).length ≤ 8 := hexText_length_le (by omega) (by norm_num; omega)
  unfold argument
  split_ifs
  · rw [List.length_cons]
    omega
  · rw [List.length_cons]
    omega
  · simp only [List.length_cons, List.length_append]
    omega
  · simp

/-- A field has its NUL, or is read on behind it. -/
theorem takeWhile_length_lt_iff {l : List UInt8} : ∀ {n : Nat}, n ≤ l.length →
    ((l.takeWhile (· ≠ 0)).length < n ↔ 0 ∈ l.take n) := by
  induction l with
  | nil =>
    intro n hn
    obtain rfl : n = 0 := by simpa using hn
    simp
  | cons c l ih =>
    intro n hn
    cases n with
    | zero => simp
    | succ n =>
      by_cases hc : c = 0
      · simp [hc]
      · have hrest := ih (n := n) (by simpa using hn)
        simp [hc, Ne.symm hc, ← hrest]

theorem takeWhile_take {l : List UInt8} : ∀ {n : Nat}, (l.takeWhile (· ≠ 0)).length ≤ n →
    (l.take n).takeWhile (· ≠ 0) = l.takeWhile (· ≠ 0) := by
  induction l with
  | nil => simp
  | cons c l ih =>
    intro n hn
    by_cases hc : c = 0
    · cases n <;> simp [hc]
    · cases n with
      | zero => simp [hc] at hn
      | succ n =>
        have hrest := ih (n := n) (by simpa [hc] using hn)
        simpa [hc] using hrest

/-! ## The loop over the format -/

section

variable (req : PackedGdbHioRequest)

theorem parameters_lt (i : Nat) : req.parameters i < 2 ^ 64 := by
  have hlt := (Memory.ofBytes req.bytes).load_lt 8 (40 + 8 * i)
  norm_num at hlt ⊢
  exact hlt

theorem stringLengths_lt (i : Nat) : req.stringLengths i < 2 ^ 32 := by
  have hlt := (Memory.ofBytes req.bytes).load_lt 4 (104 + 4 * i)
  norm_num at hlt ⊢
  exact hlt

/-- What one letter gives. -/
theorem paramText_spec (i nStr : Nat) :
    (paramText req i nStr).1 = argument (req.paramFormat i) (req.parameters i) (req.stringLengths nStr) ∧
      (∀ a ∈ (paramText req i nStr).2.1, a = .parameters i ∨ a = .stringLengths nStr) ∧
      (paramText req i nStr).2.2 = if req.paramFormat i = 0x73 then nStr + 1 else nStr := by
  have hletters : (∀ c, c ∈ ascii "iIp" ↔ c = 0x69 ∨ c = 0x49 ∨ c = 0x70) ∧ (∀ c, c ∈ ascii "lL" ↔ c = 0x6C ∨ c = 0x4C) ∧
      ∀ c, c ∈ ascii "s" ↔ c = 0x73 := by
    simp [ascii]
  unfold paramText argument
  simp only [hletters.1, hletters.2.1, hletters.2.2]
  generalize req.paramFormat i = c
  by_cases hword : c = 0x69 ∨ c = 0x49 ∨ c = 0x70
  · have hs : c ≠ 0x73 := by
      rintro rfl
      exact absurd hword (by decide)
    simp [hword, hs, ascii]
  · by_cases hlong : c = 0x6C ∨ c = 0x4C
    · have hs : c ≠ 0x73 := by
        rintro rfl
        exact absurd hlong (by decide)
      simp [hword, hlong, hs, ascii]
    · by_cases hs : c = 0x73
      · simp [hs, ascii]
      · simp [hword, hlong, hs]

/-- The letters that are left are those in front of a NUL. -/
theorem field_cons {off : Nat} (h : off < req.bytes.length) (n : Nat) :
    req.field off (n + 1) = if req.bytes.getD off 0 = 0 then [] else req.bytes.getD off 0 :: req.field (off + 1) n := by
  unfold PackedGdbHioRequest.field
  rw [List.drop_eq_getElem_cons h, List.take_succ_cons, List.getD_eq_getElem?_getD, List.getElem?_eq_getElem h,
    Option.getD_some]
  by_cases hc : req.bytes[off] = 0 <;> simp [hc]

theorem paramLoop_buf (k : Nat) : ∀ {i : Nat} (nStr : Nat) (buf : List UInt8), i + k = 8 →
    (paramLoop req k i nStr buf).buf = buf ++ req.arguments (req.field (25 + i) k) i nStr := by
  have hsize := req.size_le
  induction k with
  | zero =>
    intro i nStr buf _
    simp [paramLoop, PackedGdbHioRequest.field, PackedGdbHioRequest.arguments]
  | succ k ih =>
    intro i nStr buf hi
    obtain ⟨htext, -, hcount⟩ := paramText_spec req i nStr
    have hfield := field_cons req (show 25 + i < req.bytes.length by omega) k
    rw [paramLoop, hfield]
    unfold PackedGdbHioRequest.paramFormat at htext hcount ⊢
    split
    · simp [PackedGdbHioRequest.arguments]
    · dsimp only
      rw [ih _ _ (by omega), htext, hcount, PackedGdbHioRequest.arguments, List.append_assoc, Nat.add_assoc]

/-- What is written and read in the loop. -/
theorem paramLoop_bounds (k : Nat) : ∀ {i nStr : Nat} (buf : List UInt8), i + k = 8 → nStr ≤ i →
    (∀ w ∈ (paramLoop req k i nStr buf).bufWrites, w.stop ≤ buf.length + 18 * k + 1) ∧
      (∀ w ∈ (paramLoop req k i nStr buf).tmpWrites, w.stop ≤ 18 + 1) ∧
      (∀ a ∈ (paramLoop req k i nStr buf).accesses, a.Inside) ∧
      (paramLoop req k i nStr buf).buf.length ≤ buf.length + 18 * k := by
  induction k with
  | zero =>
    intro i nStr buf _ _
    simp [paramLoop]
  | succ k ih =>
    intro i nStr buf hi hnStr
    obtain ⟨htext, haccesses, hcount⟩ := paramText_spec req i nStr
    have hlength := argument_length_le (req.paramFormat i) (parameters_lt req i) (stringLengths_lt req nStr)
    have hformat : (HioAccess.paramFormat i).Inside := show i < 8 + 1 by omega
    rw [paramLoop]
    split
    · simp [hformat]
    · have hnext : (paramText req i nStr).2.2 ≤ i + 1 := by
        rw [hcount]
        split <;> omega
      obtain ⟨hbuf, htmp, hrest, hend⟩ := ih (buf ++ (paramText req i nStr).1) (show i + 1 + k = 8 by omega) hnext
      rw [← htext] at hlength
      rw [List.length_append] at hbuf hend
      dsimp only
      simp only [List.forall_mem_cons, List.forall_mem_append]
      refine ⟨⟨?_, fun w hw => ?_⟩, ⟨?_, htmp⟩, ⟨⟨hformat, fun a ha => ?_⟩, hrest⟩, ?_⟩
      · simp only [Write.stop, List.length_append, List.length_singleton]
        omega
      · have := hbuf w hw
        omega
      · simp only [Write.stop, List.length_append, List.length_singleton]
        omega
      · rcases haccesses a ha with rfl | rfl
        · exact show i < 8 by omega
        · exact show nStr < 8 by omega
      · exact hend.trans (by omega)

/-- The name is read up to a NUL inside its array. -/
theorem functionName_lt_iff : req.functionName.length < 16 + 1 ↔ 0 ∈ (req.bytes.drop 8).take 17 := by
  have hsize := req.size_le
  exact takeWhile_length_lt_iff (by rw [List.length_drop]; omega)

/-- The request is read and sent as it should be exactly if the function's name has a NUL in its array. -/
theorem sendsRequest_iff : SendsRequest req ↔ 0 ∈ (req.bytes.drop 8).take 17 := by
  constructor
  · intro h
    have hend := h.request (.functionName req.functionName.length) (by simp [sendCurrentHioRequest])
    exact (functionName_lt_iff req).mp hend
  · intro hnul
    have hname := (functionName_lt_iff req).mpr hnul
    have hfirst : (ascii "F" ++ req.functionName).length ≤ 17 := by
      rw [List.length_append]
      show 1 + req.functionName.length ≤ 17
      omega
    obtain ⟨hbuf, htmp, haccesses, hend⟩ := paramLoop_bounds req 8 (ascii "F" ++ req.functionName) rfl le_rfl
    constructor
    · simp only [sendCurrentHioRequest, List.forall_mem_cons]
      refine ⟨?_, fun w hw => (hbuf w hw).trans (by omega)⟩
      show 0 + (ascii "F" ++ req.functionName ++ [0]).length ≤ 257
      rw [List.length_append, List.length_singleton]
      omega
    · exact fun w hw => (htmp w hw).trans (by omega)
    · simp only [sendCurrentHioRequest, List.forall_mem_append]
      refine ⟨fun a ha => ?_, haccesses⟩
      obtain ⟨i, hi, rfl⟩ := List.mem_map.mp ha
      have hi := List.mem_range.mp hi
      exact show i < 16 + 1 by omega
    · have hfield : req.field 8 17 = req.functionName := takeWhile_take hname.le
      have hloop := paramLoop_buf req 8 0 (ascii "F" ++ req.functionName) rfl
      exact hloop.trans (by rw [PackedGdbHioRequest.packet, hfield])
    · rw [sendPacket_stop]
      have hsent : (sendCurrentHioRequest req).buf.length ≤ 17 + 18 * 8 := hend.trans (by omega)
      unfold packetBufSize gdbBufLen
      omega

end

/-- A request whose name fills its array. -/
def longName : PackedGdbHioRequest where
  bytes := ascii "GDB" ++ [0] ++ List.replicate 4 0 ++ List.replicate 17 0x41 ++ List.replicate 127 0
  size_le := by decide +kernel
  magic := by decide +kernel

/-- Its name is read behind the array. -/
theorem longName_read_behind : ¬SendsRequest longName := by
  intro h
  have hend := h.request (.functionName 17) (by
    simp only [sendCurrentHioRequest, List.mem_append, List.mem_map, List.mem_range]
    exact .inl ⟨17, by decide +kernel, rfl⟩)
  exact absurd hend (by decide : ¬17 < 16 + 1)

end Omiiba.Rosalina
