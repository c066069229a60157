/-
`qfThreadInfo` and `qsThreadInfo` of thread.c: the list of the threads is made once, kept in
`threadListData`, and sent packet by packet.
-/
import Omiiba.Rosalina.GdbXfer

namespace Omiiba.Rosalina

/-! ## The list -/

/-- `%lx`. -/
def hexText (n : Nat) : List UInt8 := (Nat.toDigits 16 n).map fun c => UInt8.ofNat c.toNat

theorem hexText_lt {n : Nat} (h : n < 16) : hexText n = [Hex.digit n] := by
  unfold hexText
  rw [Nat.toDigits_of_lt_base h]
  interval_cases n <;> rfl

theorem hexText_ge {n : Nat} (h : 16 ≤ n) : hexText n = hexText (n / 16) ++ [Hex.digit (n % 16)] := by
  have hdigit := hexText_lt (Nat.mod_lt n (show 0 < 16 by decide))
  unfold hexText at *
  rw [Nat.toDigits_of_base_le (by decide) h, List.map_append, ← hdigit, Nat.toDigits_of_lt_base (Nat.mod_lt n (by decide))]

/-- A number can be read again. -/
theorem value_hexText (n : Nat) : Hex.value 0 (hexText n) = some n := by
  induction n using Nat.strong_induction_on with
  | _ n ih =>
    rcases Nat.lt_or_ge n 16 with hlt | hge
    · rw [hexText_lt hlt, Hex.value, Hex.digitValue_digit hlt]
      simp [Hex.value]
    · have hdigit := Hex.digitValue_digit (Nat.mod_lt n (show 0 < 16 by decide))
      rw [hexText_ge hge, Hex.value_append, ih (n / 16) (by omega)]
      simp only [Option.bind_some, Hex.value, hdigit, Option.some.injEq]
      omega

/-- Different numbers have different texts. -/
theorem hexText_inj {m n : Nat} (h : hexText m = hexText n) : m = n := by
  have hm := value_hexText m
  rw [h, value_hexText] at hm
  exact (Option.some.inj hm).symm

/-- The process of a context, and whether its thread ids name it. -/
structure ThreadIdForm where
  multiprocessExtEnabled : Bool
  pid : UInt32

/-- `GDB_EncodeThreadId`. -/
def encodeThreadId (form : ThreadIdForm) (tid : UInt32) : List UInt8 :=
  if form.multiprocessExtEnabled then ascii "p" ++ hexText (form.pid + 1).toNat ++ ascii "." ++ hexText tid.toNat
  else hexText tid.toNat

/-- Thread ids with commas between them. -/
def threadList (form : ThreadIdForm) : List UInt32 → List UInt8
  | [] => []
  | [tid] => encodeThreadId form tid
  | tid :: tids => encodeThreadId form tid ++ 0x2C :: threadList form tids

/-- `threadListData` up to its NUL, and `threadListDataPos`. -/
structure ThreadListState where
  data : List UInt8
  pos : UInt32
  deriving DecidableEq

def ThreadListState.empty : ThreadListState := ⟨[], 0⟩

/-- `GDB_GenerateThreadListData`; none where the list and its NUL do not fit in `threadListData`. -/
def generateThreadListData (form : ThreadIdForm) (alive : List UInt32) : Option (List UInt8) :=
  if (threadList form alive).length + 1 ≤ 0x800 then some (threadList form alive) else none

/-! ## The packets -/

/-- The loop of `GDB_SendThreadData`: back to a comma. -/
def backToComma (data : List UInt8) (pos : Nat) : Nat → Nat
  | 0 => 0
  | len + 1 => if data.getD (pos + (len + 1)) 0 ≠ 0x2C then backToComma data pos len else len + 1

/-- `len` of `GDB_SendThreadData`. -/
def threadDataLen (state : ThreadListState) : Nat :=
  let sz := state.data.length
  if state.pos.toNat ≥ sz then 0
  else if sz - state.pos.toNat ≤ gdbBufLen - 1 then sz - state.pos.toNat
  else backToComma state.data state.pos.toNat (gdbBufLen - 1) - 1

/-- `GDB_SendThreadData`. -/
def sendThreadData (state : ThreadListState) : StreamReply × ThreadListState :=
  let len := UInt32.ofNat (threadDataLen state)
  (sendStreamData state.data state.pos len true,
    if state.pos.toNat ≥ state.data.length then ThreadListState.empty else { state with pos := state.pos + len })

inductive ThreadQuery
  | qfThreadInfo (form : ThreadIdForm) (alive : List UInt32)
  | qsThreadInfo

/-- The state in which a query sends its packet. -/
def prepare (state : ThreadListState) : ThreadQuery → Option ThreadListState
  | .qfThreadInfo form alive =>
    if state.data = [] then (generateThreadListData form alive).map fun data => { state with data } else some state
  | .qsThreadInfo => some state

/-- The queries of a client, none if a list has not fit. -/
def runThreadQueries : ThreadListState → List ThreadQuery → Option ThreadListState
  | state, [] => some state
  | state, query :: queries => (prepare state query).bind fun state => runThreadQueries (sendThreadData state).2 queries

/-- The payloads of the packets with `'m'`, until the one with `'l'`. -/
def untilLast : Nat → ThreadListState → Option (List (List UInt8))
  | 0, _ => none
  | fuel + 1, state =>
    match sendThreadData state with
    | (.packet false payload, state) => (untilLast fuel state).map (payload :: ·)
    | (.packet true _, _) => some []
    | (.outside, _) => none

/-- The lists that the replies to `qfThreadInfo`, and then to `qsThreadInfo`, have. -/
def listing (state : ThreadListState) (form : ThreadIdForm) (alive : List UInt32) (fuel : Nat) : Option (List (List UInt8)) :=
  (prepare state (.qfThreadInfo form alive)).bind (untilLast fuel)

/-- Lists of thread ids that fit in a packet behind its letter, and that together name the threads, each once. -/
def Lists (form : ThreadIdForm) (alive : List UInt32) (payloads : List (List UInt8)) : Prop :=
  ∃ tidss : List (List UInt32), payloads = tidss.map (threadList form) ∧ (∀ tids ∈ tidss, tids ≠ []) ∧
    (∀ payload ∈ payloads, 1 + payload.length ≤ gdbBufLen) ∧ tidss.flatten.Perm alive

/-! ## Lengths -/

theorem encodeThreadId_ne_nil (form : ThreadIdForm) (tid : UInt32) : encodeThreadId form tid ≠ [] := by
  have hhex : hexText tid.toNat ≠ [] := by
    unfold hexText
    simp
  unfold encodeThreadId
  split_ifs
  · simp [ascii]
  · exact hhex

/-- A list is as long as its ids, with one comma less than ids. -/
theorem threadList_length (form : ThreadIdForm) {tids : List UInt32} (h : tids ≠ []) :
    (threadList form tids).length + 1 = (tids.map fun tid => (encodeThreadId form tid).length + 1).sum := by
  induction tids with
  | nil => exact absurd rfl h
  | cons tid tids ih =>
    cases tids with
    | nil => simp [threadList]
    | cons tid' tids =>
      have hlen := ih (by simp)
      rw [List.map_cons, List.sum_cons, ← hlen]
      simp only [threadList, List.length_append, List.length_cons]
      omega

theorem threadList_eq_nil (form : ThreadIdForm) {tids : List UInt32} : threadList form tids = [] ↔ tids = [] := by
  constructor
  · intro h
    rcases tids with _ | ⟨tid, _ | ⟨tid', tids⟩⟩
    · rfl
    · exact absurd h (encodeThreadId_ne_nil form tid)
    · simp [threadList] at h
  · rintro rfl
    rfl

/-- Lists that name the threads are together shorter than one list of them by a comma for each but one. -/
theorem lists_length (form : ThreadIdForm) {tidss : List (List UInt32)} (h : ∀ tids ∈ tidss, tids ≠ []) :
    ((tidss.map (threadList form)).flatten).length + tidss.length =
      (tidss.flatten.map fun tid => (encodeThreadId form tid).length + 1).sum := by
  induction tidss with
  | nil => rfl
  | cons tids tidss ih =>
    have hlen := threadList_length form (h tids List.mem_cons_self)
    have hrest := ih fun tids' hmem => h tids' (List.mem_cons_of_mem _ hmem)
    rw [List.flatten_cons, List.map_append, List.sum_append, ← hlen, ← hrest]
    simp only [List.map_cons, List.flatten_cons, List.length_append, List.length_cons]
    omega

/-! ## Sending -/

theorem backToComma_le (data : List UInt8) (pos : Nat) : ∀ len, backToComma data pos len ≤ len
  | 0 => le_rfl
  | len + 1 => by
    unfold backToComma
    split_ifs
    · exact (backToComma_le data pos len).trans (Nat.le_succ len)
    · exact le_rfl

theorem threadDataLen_le (state : ThreadListState) :
    threadDataLen state < gdbBufLen ∧ threadDataLen state ≤ state.data.length - state.pos.toNat := by
  have hcomma := backToComma_le state.data state.pos.toNat (gdbBufLen - 1)
  unfold threadDataLen
  dsimp only
  unfold gdbBufLen at *
  split_ifs <;> omega

theorem threadDataLen_toNat (state : ThreadListState) : (UInt32.ofNat (threadDataLen state)).toNat = threadDataLen state := by
  have hle := (threadDataLen_le state).1
  unfold gdbBufLen at hle
  exact UInt32.toNat_ofNat_of_lt' (Nat.lt_of_lt_of_le hle (by norm_num))

/-- A list that has been sent. -/
theorem sendThreadData_end {state : ThreadListState} (h : state.data.length ≤ state.pos.toNat) :
    sendThreadData state = (.packet true [], ThreadListState.empty) := by
  unfold sendThreadData sendStreamData sendWindow
  simp [h, gdbBufLen]

/-- A list of which something is left. -/
theorem sendThreadData_middle {state : ThreadListState} (h : state.pos.toNat < state.data.length) :
    sendThreadData state = (.packet false ((state.data.drop state.pos.toNat).take (threadDataLen state)),
      { state with pos := state.pos + UInt32.ofNat (threadDataLen state) }) := by
  obtain ⟨hbuf, hdata⟩ := threadDataLen_le state
  have hclamp : clampLength (UInt32.ofNat (threadDataLen state)) = threadDataLen state := by
    unfold clampLength
    rw [threadDataLen_toNat, if_neg (by omega)]
  have hnot : ¬state.data.length ≤ state.pos.toNat := by omega
  unfold sendThreadData sendStreamData sendWindow
  simp only [hclamp]
  rw [if_neg (by simp [h]), if_pos (by omega), if_neg hnot]

/-- The payloads are what is left of the list. -/
theorem untilLast_flatten (fuel : Nat) : ∀ {state : ThreadListState} {payloads : List (List UInt8)},
    state.data.length < 0x800 → untilLast fuel state = some payloads →
      payloads.flatten = state.data.drop state.pos.toNat := by
  induction fuel with
  | zero =>
    intro state payloads _ h
    simp [untilLast] at h
  | succ fuel ih =>
    intro state payloads hsize h
    unfold untilLast at h
    rcases Nat.lt_or_ge state.pos.toNat state.data.length with hlt | hge
    · rw [sendThreadData_middle hlt] at h
      obtain ⟨rest, hrest, rfl⟩ := Option.map_eq_some_iff.mp h
      have hdata := (threadDataLen_le state).2
      have hpos : (state.pos + UInt32.ofNat (threadDataLen state)).toNat = state.pos.toNat + threadDataLen state := by
        rw [UInt32.toNat_add, threadDataLen_toNat]
        exact Nat.mod_eq_of_lt (by omega)
      have hsize' : ({ state with pos := state.pos + UInt32.ofNat (threadDataLen state) } : ThreadListState).data.length < 0x800 :=
        hsize
      have htail : rest.flatten = state.data.drop (state.pos + UInt32.ofNat (threadDataLen state)).toNat := ih hsize' hrest
      rw [List.flatten_cons, htail, hpos, ← List.drop_drop, List.take_append_drop]
    · rw [sendThreadData_end hge] at h
      obtain rfl := Option.some.inj h
      exact (List.drop_eq_nil_of_le hge).symm

/-- A list that fits in one packet. -/
theorem untilLast_short {data : List UInt8} (hpos : data ≠ []) (hshort : data.length < gdbBufLen) :
    untilLast 2 ⟨data, 0⟩ = some [data] := by
  have hlength := List.length_pos_of_ne_nil hpos
  have hlen : threadDataLen ⟨data, 0⟩ = data.length := by
    unfold threadDataLen
    dsimp only
    rw [if_neg (by simpa using hpos), if_pos (by simp; omega)]
    rfl
  have hnat : (UInt32.ofNat data.length).toNat = data.length := hlen ▸ threadDataLen_toNat ⟨data, 0⟩
  unfold untilLast
  rw [sendThreadData_middle (show (0 : UInt32).toNat < data.length from hlength)]
  simp only [hlen]
  unfold untilLast
  rw [sendThreadData_end (by simp [hnat])]
  simp

/-! ## Listings -/

/-- What holds after any queries. -/
structure ThreadListState.Good (state : ThreadListState) : Prop where
  size : state.data.length < 0x800
  start : state.data = [] → state.pos = 0

theorem prepare_size {state state' : ThreadListState} {query : ThreadQuery} (h : state.Good)
    (hprepare : prepare state query = some state') : state'.data.length < 0x800 := by
  cases query with
  | qsThreadInfo =>
    obtain rfl := Option.some.inj hprepare
    exact h.size
  | qfThreadInfo form alive =>
    unfold prepare at hprepare
    dsimp only at hprepare
    split_ifs at hprepare
    · obtain ⟨data, hdata, rfl⟩ := Option.map_eq_some_iff.mp hprepare
      unfold generateThreadListData at hdata
      split_ifs at hdata with hfit
      obtain rfl := Option.some.inj hdata
      show (threadList form alive).length < 0x800
      omega
    · obtain rfl := Option.some.inj hprepare
      exact h.size

theorem sendThreadData_good {state : ThreadListState} (hsize : state.data.length < 0x800) :
    (sendThreadData state).2.Good := by
  rcases Nat.lt_or_ge state.pos.toNat state.data.length with hlt | hge
  · rw [sendThreadData_middle hlt]
    refine ⟨hsize, fun hnone => ?_⟩
    have hnil : state.data = [] := hnone
    rw [hnil] at hlt
    exact absurd hlt (Nat.not_lt_zero _)
  · rw [sendThreadData_end hge]
    exact ⟨by simp [ThreadListState.empty], fun _ => rfl⟩

theorem runThreadQueries_good (queries : List ThreadQuery) : ∀ {state state' : ThreadListState}, state.Good →
    runThreadQueries state queries = some state' → state'.Good := by
  induction queries with
  | nil =>
    intro state state' h hrun
    obtain rfl := Option.some.inj hrun
    exact h
  | cons query queries ih =>
    intro state state' h hrun
    obtain ⟨state'', hprepare, hrest⟩ := Option.bind_eq_some_iff.mp hrun
    exact ih (sendThreadData_good (prepare_size h hprepare)) hrest

/-- One list, that is cut, does not name what it named. -/
theorem lists_single {form : ThreadIdForm} {alive : List UInt32} {payloads : List (List UInt8)}
    (hflatten : payloads.flatten = threadList form alive) (h : Lists form alive payloads) :
    (threadList form alive).length < gdbBufLen := by
  obtain ⟨tidss, rfl, hne, hfit, hperm⟩ := h
  by_cases halive : alive = []
  · subst halive
    simp [threadList, gdbBufLen]
  · have htotal := lists_length form hne
    have hlen := threadList_length form halive
    rw [hflatten, (hperm.map _).sum_eq, ← hlen] at htotal
    obtain ⟨tids, rfl⟩ := List.length_eq_one_iff.mp (by omega : tidss.length = 1)
    have hpayload := hfit (threadList form tids) (by simp)
    simp only [List.map_cons, List.map_nil, List.flatten_cons, List.flatten_nil, List.append_nil] at hflatten
    rw [← hflatten]
    omega

theorem listing_short {form : ThreadIdForm} {alive : List UInt32} (h : (threadList form alive).length < gdbBufLen) :
    ∃ fuel payloads, listing ThreadListState.empty form alive fuel = some payloads ∧ Lists form alive payloads := by
  have hfit : (threadList form alive).length + 1 ≤ 0x800 := by
    unfold gdbBufLen at h
    omega
  have hlisting (fuel : Nat) : listing ThreadListState.empty form alive fuel = untilLast fuel ⟨threadList form alive, 0⟩ := by
    unfold listing prepare generateThreadListData
    simp [ThreadListState.empty, hfit]
  by_cases halive : alive = []
  · subst halive
    refine ⟨1, [], ?_, [], rfl, by simp, by simp, List.Perm.refl _⟩
    rw [hlisting]
    unfold untilLast
    rw [sendThreadData_end (Nat.zero_le _)]
  · have hne : threadList form alive ≠ [] := fun hnil => halive ((threadList_eq_nil form).mp hnil)
    refine ⟨2, [threadList form alive], ?_, [alive], rfl, by simpa using halive, ?_, by simp⟩
    · rw [hlisting]
      exact untilLast_short hne h
    · rintro payload hmem
      rw [List.mem_singleton.mp hmem]
      unfold gdbBufLen at *
      omega

theorem listing_lists {form : ThreadIdForm} {alive : List UInt32} {fuel : Nat} {payloads : List (List UInt8)}
    (hlisting : listing ThreadListState.empty form alive fuel = some payloads) (h : Lists form alive payloads) :
    (threadList form alive).length < gdbBufLen := by
  obtain ⟨state, hprepare, huntil⟩ := Option.bind_eq_some_iff.mp hlisting
  unfold prepare generateThreadListData at hprepare
  simp only [ThreadListState.empty, if_true] at hprepare
  obtain ⟨data, hdata, rfl⟩ := Option.map_eq_some_iff.mp hprepare
  split_ifs at hdata with hfit
  obtain rfl := Option.some.inj hdata
  exact lists_single (untilLast_flatten fuel (show (threadList form alive).length < 0x800 by omega) huntil) h

/-- A listing after queries that have left no list behind, names the threads exactly if the list of them fits
in one packet. -/
theorem listing_iff {queries : List ThreadQuery} {state : ThreadListState}
    (hrun : runThreadQueries ThreadListState.empty queries = some state) (hclosed : state.data = [])
    (form : ThreadIdForm) (alive : List UInt32) :
    (∃ fuel payloads, listing state form alive fuel = some payloads ∧ Lists form alive payloads) ↔
      (threadList form alive).length < gdbBufLen := by
  have hgood := runThreadQueries_good queries ⟨by simp [ThreadListState.empty], fun _ => rfl⟩ hrun
  obtain rfl : state = ThreadListState.empty := by
    obtain ⟨data, pos⟩ := state
    obtain rfl : data = [] := hclosed
    obtain rfl : pos = 0 := hgood.start rfl
    rfl
  constructor
  · rintro ⟨fuel, payloads, hlisting, h⟩
    exact listing_lists hlisting h
  · exact listing_short

theorem listing_two_threads :
    (∃ fuel payloads, listing ThreadListState.empty ⟨true, 0x1F⟩ [0x2A, 7] fuel = some payloads ∧
      Lists ⟨true, 0x1F⟩ [0x2A, 7] payloads) ↔ (threadList ⟨true, 0x1F⟩ [0x2A, 7]).length < gdbBufLen :=
  have hrun : runThreadQueries ThreadListState.empty [.qfThreadInfo ⟨true, 0x1F⟩ [9], .qsThreadInfo] =
      some ThreadListState.empty := by
    decide +kernel
  listing_iff hrun rfl _ _

/-- Threads with ids of eight digits. -/
def manyThreads : List UInt32 := (List.range 114).map fun i => UInt32.ofNat (0x10000000 + i)

/-- A list of 114 threads is cut in an id. And after a listing of thread 1 that has been left before its
`'l'`, thread 2 is not listed. -/
theorem listing_not_lists :
    (¬∃ fuel payloads, listing ThreadListState.empty ⟨false, 0⟩ manyThreads fuel = some payloads ∧
      Lists ⟨false, 0⟩ manyThreads payloads) ∧
    ∃ state, runThreadQueries ThreadListState.empty [.qfThreadInfo ⟨false, 0⟩ [1]] = some state ∧
      ¬∃ fuel payloads, listing state ⟨false, 0⟩ [2] fuel = some payloads ∧ Lists ⟨false, 0⟩ [2] payloads := by
  constructor
  · rintro ⟨fuel, payloads, hlisting, h⟩
    have hlen : (threadList ⟨false, 0⟩ manyThreads).length = 1025 := by decide +kernel
    have hlt := listing_lists hlisting h
    rw [hlen] at hlt
    exact absurd hlt (by decide)
  · refine ⟨⟨[0x31], 1⟩, by decide +kernel, ?_⟩
    rintro ⟨fuel, payloads, hlisting, h⟩
    obtain ⟨state, hprepare, huntil⟩ := Option.bind_eq_some_iff.mp hlisting
    obtain rfl := Option.some.inj hprepare
    have hnil : payloads.flatten = [] := untilLast_flatten fuel (by decide) huntil
    obtain ⟨tidss, rfl, hne, -, hperm⟩ := h
    obtain ⟨tids, htids⟩ : ∃ tids, tids ∈ tidss := by
      rcases tidss with _ | ⟨tids, tidss⟩
      · simp at hperm
      · exact ⟨tids, List.mem_cons_self⟩
    have hempty : threadList ⟨false, 0⟩ tids = [] := List.flatten_eq_nil_iff.mp hnil _ (List.mem_map_of_mem htids)
    exact hne tids htids ((threadList_eq_nil _).mp hempty)

end Omiiba.Rosalina
