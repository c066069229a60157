/-
The features of a debugger, after query.c: which packets make the thread ids of a connection name their process.
-/
import Omiiba.Rosalina.GdbThread
import Mathlib.Data.List.TakeWhile

namespace Omiiba.Rosalina

/-! ## The feature list -/

/-- `strncmp(a, b, n) == 0`, for strings without their terminators. -/
def strncmpEq : Nat → List UInt8 → List UInt8 → Bool
  | 0, _, _ => true
  | n + 1, a, b =>
    if a.headD 0 ≠ b.headD 0 then false
    else if a.headD 0 = 0 then true
    else strncmpEq n a.tail b.tail

/-- The literal of the one feature that is looked for. -/
def multiprocessFeature : List UInt8 := ascii "multiprocess+"

/-- The loop of `Supported` from `nextpos` on, over what there is of the data: `multiprocessExtEnabled` after it. -/
def supportedLoop (multiprocessExtEnabled : Bool) (pos : List UInt8) : Bool :=
  -- `strchrnul`: the item goes up to the separator or the end
  let item := pos.takeWhile (· ≠ 0x3B)
  let multiprocessExtEnabled := multiprocessExtEnabled || strncmpEq item.length pos multiprocessFeature
  match _hsep : pos.dropWhile (· ≠ 0x3B) with
  | [] => multiprocessExtEnabled
  | _ :: nextpos => supportedLoop multiprocessExtEnabled nextpos
termination_by pos.length
decreasing_by
  have hsplit := congrArg List.length (List.takeWhile_append_dropWhile (p := fun c => decide (c ≠ 0x3B)) (l := pos))
  rw [_hsep, List.length_append, List.length_cons] at hsplit
  omega

/-! ## Queries -/

inductive QueryDirection
  | read
  | write
  deriving DecidableEq

/-- The handlers of `gdbQueryHandlers`. -/
inductive QueryHandler
  | supported
  | xfer
  | startNoAckMode
  | attached
  | fThreadInfo
  | sThreadInfo
  | threadEvents
  | threadExtraInfo
  | getTLSAddr
  | currentThreadId
  | searchMemory
  | catchSyscalls
  | rcmd
  deriving DecidableEq

/-- `gdbQueryHandlers`. -/
def gdbQueryHandlers : List (List UInt8 × QueryHandler × QueryDirection) :=
  [(ascii "Supported", .supported, .read), (ascii "Xfer", .xfer, .read), (ascii "StartNoAckMode", .startNoAckMode, .write),
    (ascii "Attached", .attached, .read), (ascii "fThreadInfo", .fThreadInfo, .read),
    (ascii "sThreadInfo", .sThreadInfo, .read), (ascii "ThreadEvents", .threadEvents, .write),
    (ascii "ThreadExtraInfo", .threadExtraInfo, .read), (ascii "GetTLSAddr", .getTLSAddr, .read),
    (ascii "C", .currentThreadId, .read), (ascii "Search", .searchMemory, .read),
    (ascii "CatchSyscalls", .catchSyscalls, .write), (ascii "Rcmd", .rcmd, .read)]

/-- `GDB_HandleQuery`: the handler that is called, with its data. -/
def handleQuery (commandData : List UInt8) (direction : QueryDirection) : Option (QueryHandler × List UInt8) :=
  if commandData = [] then none
  else
    let name := commandData.takeWhile fun c => c ≠ 0x3A ∧ c ≠ 0x2C
    let queryData := (commandData.dropWhile fun c => c ≠ 0x3A ∧ c ≠ 0x2C).tail
    (gdbQueryHandlers.find? fun entry => entry.1 = name ∧ entry.2.2 = direction).map fun entry => (entry.2.1, queryData)

/-- A packet: its letter and what is behind it, up to the terminator. -/
structure GdbCommand where
  letter : UInt8
  commandData : List UInt8
  nonul : 0 ∉ commandData

/-- What happens on a context: a packet, or `GDB_CloseClient`. -/
inductive ClientEvent
  | packet (p : GdbCommand)
  | close

/-- The handler of a packet that is a query, with its data. -/
def GdbCommand.query (p : GdbCommand) : Option (QueryHandler × List UInt8) :=
  if p.letter = 0x71 then handleQuery p.commandData .read
  else if p.letter = 0x51 then handleQuery p.commandData .write
  else none

/-- `multiprocessExtEnabled` after an event; only `Supported` and `GDB_CloseClient` write to it. -/
def stepMultiprocess (multiprocessExtEnabled : Bool) : ClientEvent → Bool
  | .close => false
  | .packet p =>
    match p.query with
    | some (.supported, queryData) => supportedLoop multiprocessExtEnabled queryData
    | _ => multiprocessExtEnabled

/-- `multiprocessExtEnabled` after a history, from a context that has just been set up. -/
def multiprocessAfter (history : List ClientEvent) : Bool := history.foldl stepMultiprocess false

/-! ## What the client has announced -/

/-- The feature list of a packet, if it is `qSupported`. -/
def GdbCommand.features (p : GdbCommand) : Option (List (List UInt8)) :=
  match p.query with
  | some (.supported, queryData) => some (queryData.splitOn 0x3B)
  | _ => none

/-- The packets since the client of a context came. -/
def connection : List ClientEvent → List GdbCommand → List GdbCommand
  | [], packets => packets
  | .close :: history, _ => connection history []
  | .packet p :: history, packets => connection history (packets ++ [p])

/-- An item of a `qSupported` packet among these. -/
def Listed (packets : List GdbCommand) (item : List UInt8) : Prop :=
  ∃ p ∈ packets, ∃ items, p.features = some items ∧ item ∈ items

/-! ## The comparison -/

/-- With its own length an item is compared with no more than as much of the literal. -/
theorem strncmpEq_iff : ∀ {item rest literal : List UInt8}, 0 ∉ item ++ rest → 0 ∉ literal →
    (strncmpEq item.length (item ++ rest) literal = true ↔ item <+: literal)
  | [], rest, literal, _, _ => by simp [strncmpEq]
  | c :: item, rest, [], hitem, _ => by
    have hc : c ≠ 0 := fun h => hitem (by simp [h])
    simp [strncmpEq, hc]
  | c :: item, rest, d :: literal, hitem, hliteral => by
    have hc : c ≠ 0 := fun h => hitem (by simp [h])
    have ih := @strncmpEq_iff item rest literal
      (fun h => hitem (by simp only [List.cons_append, List.mem_cons]; exact Or.inr h))
      (fun h => hliteral (List.mem_cons_of_mem _ h))
    rw [List.cons_prefix_cons, ← ih, List.length_cons, List.cons_append, strncmpEq]
    by_cases hcd : c = d
    · subst hcd
      simp [hc]
    · simp [hcd]

/-- An item, with the separator and the list behind it if it is not the last one. -/
theorem item_cases (pos : List UInt8) :
    (pos.dropWhile (· ≠ 0x3B) = [] ∧ pos.takeWhile (· ≠ 0x3B) = pos ∧ pos.splitOn 0x3B = [pos]) ∨
      ∃ next, pos.dropWhile (· ≠ 0x3B) = 0x3B :: next ∧
        pos.splitOn 0x3B = pos.takeWhile (· ≠ 0x3B) :: next.splitOn 0x3B ∧
        pos = pos.takeWhile (· ≠ 0x3B) ++ 0x3B :: next := by
  have hsplit := List.takeWhile_append_dropWhile (p := fun c : UInt8 => decide (c ≠ 0x3B)) (l := pos)
  have hitem : (0x3B : UInt8) ∉ pos.takeWhile (· ≠ 0x3B) := fun h => by
    simpa using List.mem_takeWhile_imp h
  cases hdrop : pos.dropWhile (· ≠ 0x3B) with
  | nil =>
    rw [hdrop, List.append_nil] at hsplit
    refine Or.inl ⟨rfl, hsplit, List.splitOn_eq_singleton ?_⟩
    rwa [hsplit] at hitem
  | cons c next =>
    have hc : c = 0x3B := by
      have hhead := List.head?_dropWhile_not (fun c : UInt8 => decide (c ≠ 0x3B)) pos
      rw [hdrop] at hhead
      simpa using hhead
    subst hc
    rw [hdrop] at hsplit
    refine Or.inr ⟨next, rfl, ?_, hsplit.symm⟩
    conv_lhs => rw [← hsplit]
    exact List.splitOn_append_cons_self_of_not_mem hitem next

/-- The loop finds the items that the literal begins with. -/
theorem supportedLoop_iff (flag : Bool) (pos : List UInt8) (hnul : 0 ∉ pos) :
    supportedLoop flag pos = true ↔ flag = true ∨ ∃ item ∈ pos.splitOn 0x3B, item <+: multiprocessFeature := by
  have hliteral : (0 : UInt8) ∉ multiprocessFeature := by decide +kernel
  have hcompare : strncmpEq (pos.takeWhile (· ≠ 0x3B)).length pos multiprocessFeature = true ↔
      pos.takeWhile (· ≠ 0x3B) <+: multiprocessFeature := by
    have hsplit := List.takeWhile_append_dropWhile (p := fun c : UInt8 => decide (c ≠ 0x3B)) (l := pos)
    have h := strncmpEq_iff (by rwa [hsplit]) hliteral
    rwa [hsplit] at h
  rw [supportedLoop]
  rcases item_cases pos with ⟨hend, hitem, hitems⟩ | ⟨next, hdrop, hitems, hpos⟩
  · rw [hitems]
    split
    · rw [Bool.or_eq_true, hcompare, hitem]
      simp
    · rename_i h
      rw [hend] at h
      cases h
  · split
    · rename_i h
      rw [hdrop] at h
      cases h
    · rename_i c nextpos h
      rw [hdrop, List.cons.injEq] at h
      obtain ⟨-, rfl⟩ := h
      have hlen : next.length < pos.length := by
        have hlen := congrArg List.length hpos
        rw [List.length_append, List.length_cons] at hlen
        omega
      have hnext : 0 ∉ next := fun h => hnul (by rw [hpos]; simp [h])
      rw [supportedLoop_iff _ next hnext, Bool.or_eq_true, hcompare, hitems]
      simp only [List.mem_cons, exists_eq_or_imp, or_assoc]
termination_by pos.length

/-! ## Histories -/

theorem query_nonul {p : GdbCommand} {handler : QueryHandler} {queryData : List UInt8}
    (h : p.query = some (handler, queryData)) : 0 ∉ queryData := by
  have hdata : ∀ direction, handleQuery p.commandData direction = some (handler, queryData) → 0 ∉ queryData := by
    intro direction hquery hmem
    unfold handleQuery at hquery
    split_ifs at hquery
    obtain ⟨entry, _, hentry⟩ := Option.map_eq_some_iff.mp hquery
    rw [Prod.mk.injEq] at hentry
    rw [← hentry.2] at hmem
    exact p.nonul ((List.dropWhile_sublist _).subset (List.mem_of_mem_tail hmem))
  unfold GdbCommand.query at h
  split_ifs at h
  · exact hdata .read h
  · exact hdata .write h

/-- What one packet does to the flag. -/
theorem stepMultiprocess_packet (flag : Bool) (p : GdbCommand) : stepMultiprocess flag (.packet p) = true ↔
    flag = true ∨ ∃ items, p.features = some items ∧ ∃ item ∈ items, item <+: multiprocessFeature := by
  unfold GdbCommand.features
  rw [stepMultiprocess]
  rcases hquery : p.query with _ | ⟨handler, queryData⟩
  · simp
  · cases handler
    case supported =>
      dsimp only
      rw [supportedLoop_iff flag queryData (query_nonul hquery)]
      simp
    all_goals simp

/-- The flag after a history that goes on from some packets of the connection. -/
theorem foldl_multiprocess : ∀ (history : List ClientEvent) (flag : Bool) (packets : List GdbCommand),
    (flag = true ↔ ∃ item, Listed packets item ∧ item <+: multiprocessFeature) →
    (history.foldl stepMultiprocess flag = true ↔
      ∃ item, Listed (connection history packets) item ∧ item <+: multiprocessFeature)
  | [], flag, packets, h => h
  | .close :: history, flag, packets, h => by
    refine foldl_multiprocess history false [] ?_
    simp [Listed]
  | .packet p :: history, flag, packets, h => by
    refine foldl_multiprocess history _ (packets ++ [p]) ?_
    rw [stepMultiprocess_packet, h]
    constructor
    · rintro (⟨item, ⟨q, hq, items, hitems, hitem⟩, hprefix⟩ | ⟨items, hitems, item, hitem, hprefix⟩)
      · exact ⟨item, ⟨q, List.mem_append_left _ hq, items, hitems, hitem⟩, hprefix⟩
      · exact ⟨item, ⟨p, by simp, items, hitems, hitem⟩, hprefix⟩
    · rintro ⟨item, ⟨q, hq, items, hitems, hitem⟩, hprefix⟩
      rcases List.mem_append.mp hq with hq | hq
      · exact Or.inl ⟨item, ⟨q, hq, items, hitems, hitem⟩, hprefix⟩
      · obtain rfl := List.mem_singleton.mp hq
        exact Or.inr ⟨items, hitems, item, hitem, hprefix⟩

/-- The flag is set by any item that the literal begins with. -/
theorem multiprocessAfter_iff (history : List ClientEvent) : multiprocessAfter history = true ↔
    ∃ item, Listed (connection history []) item ∧ item <+: multiprocessFeature :=
  foldl_multiprocess history false [] (by simp [Listed])

/-- After every history the flag says whether the client has announced the feature, exactly where it has announced it
or no item it sent is a part of the name, from its beginning on; an empty item is one, and so is a missing list. Then
thread ids name their process for those clients only. -/
theorem multiprocess_iff (history : List ClientEvent) :
    ((multiprocessAfter history = true ↔ Listed (connection history []) multiprocessFeature) ↔
      Listed (connection history []) multiprocessFeature ∨
        ∀ item, Listed (connection history []) item → ¬ item <+: multiprocessFeature) ∧
    ((Listed (connection history []) multiprocessFeature ∨
        ∀ item, Listed (connection history []) item → ¬ item <+: multiprocessFeature) → ∀ pid tid,
      (Listed (connection history []) multiprocessFeature → encodeThreadId ⟨multiprocessAfter history, pid⟩ tid =
        ascii "p" ++ hexText (pid + 1).toNat ++ ascii "." ++ hexText tid.toNat) ∧
      (¬ Listed (connection history []) multiprocessFeature →
        encodeThreadId ⟨multiprocessAfter history, pid⟩ tid = hexText tid.toNat)) := by
  have hafter := multiprocessAfter_iff history
  have hexact : Listed (connection history []) multiprocessFeature → multiprocessAfter history = true := fun h =>
    hafter.mpr ⟨_, h, List.prefix_refl _⟩
  refine ⟨⟨fun h => ?_, fun h => ⟨fun hflag => ?_, hexact⟩⟩, fun h pid tid => ⟨fun hlisted => ?_, fun hlisted => ?_⟩⟩
  · by_cases hlisted : Listed (connection history []) multiprocessFeature
    · exact Or.inl hlisted
    · exact Or.inr fun item hitem hprefix => hlisted (h.mp (hafter.mpr ⟨item, hitem, hprefix⟩))
  · rcases h with h | h
    · exact h
    · obtain ⟨item, hitem, hprefix⟩ := hafter.mp hflag
      exact absurd hprefix (h item hitem)
  · unfold encodeThreadId
    rw [if_pos (hexact hlisted)]
  · have hflag : multiprocessAfter history = false := by
      rw [Bool.eq_false_iff, Ne, hafter]
      rintro ⟨item, hitem, hprefix⟩
      exact h.resolve_left hlisted item hitem hprefix
    unfold encodeThreadId
    rw [hflag, if_neg Bool.false_ne_true]

/-- `qSupported` without a list. -/
def plainSupported : GdbCommand := ⟨0x71, ascii "Supported", by decide +kernel⟩

/-- The flag is set by a packet that announces nothing. -/
theorem plainSupported_enables :
    ¬ (multiprocessAfter [.packet plainSupported] = true ↔
      Listed (connection [.packet plainSupported] []) multiprocessFeature) := by
  have hfeatures : plainSupported.features = some [[]] := by decide +kernel
  intro h
  have hflag : multiprocessAfter [.packet plainSupported] = true :=
    (multiprocessAfter_iff _).mpr ⟨[], ⟨plainSupported, by simp [connection], [[]], hfeatures, by simp⟩, List.nil_prefix⟩
  obtain ⟨p, hp, items, hitems, hitem⟩ := h.mp hflag
  obtain rfl : p = plainSupported := by simpa [connection] using hp
  obtain rfl : items = [[]] := Option.some.inj (hitems.symm.trans hfeatures)
  exact absurd (List.mem_singleton.mp hitem) (by decide +kernel)

end Omiiba.Rosalina
