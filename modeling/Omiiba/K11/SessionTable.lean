/-
The sessions that the kernel extension knows by name, after ipc.c: a table sorted by address, with a hook in the
destructor of every session that was to be added. A lookup does not look at what it has found, and a full table keeps
the sessions that are destroyed.
-/
import Omiiba.Lib.Slots
import Omiiba.Lib.System

namespace Omiiba.K11

/-! ## The table -/

structure SessionInfo where
  session : UInt32
  name : List UInt8
  deriving DecidableEq

def SessionInfo.zero : SessionInfo := ⟨0, List.replicate 12 0⟩

/-- The address of a session, which the table is sorted by. -/
def SessionInfo.key (info : SessionInfo) : Nat := info.session.toNat

/-- `MAX_SESSION`. -/
def maxSession : Nat := 345

/-- `sessionInfos` and `nbActiveSessions`. -/
structure SessionTable where
  sessionInfos : Nat → SessionInfo
  nbActiveSessions : Nat

/-- `strncpy`, of 12 characters. -/
def strncpy12 (name : List UInt8) : List UInt8 :=
  let chars := (name.takeWhile (· ≠ 0)).take 12
  chars ++ List.replicate (12 - chars.length) 0

namespace SessionTable

variable (t : SessionTable)

/-- `SessionInfo_FindClosestSlot`. -/
def findClosestSlot (session : UInt32) : Nat :=
  Slots.closestSlot SessionInfo.key t.nbActiveSessions t.sessionInfos session.toNat

/-- `SessionInfo_Lookup`, by the sessions that have the vtable of the extension. -/
def lookup (hasCustomVtable : UInt32 → Bool) (session : UInt32) : Option SessionInfo :=
  let id := t.findClosestSlot session
  if id = t.nbActiveSessions then none
  else if hasCustomVtable (t.sessionInfos id).session then some (t.sessionInfos id) else none

/-- `SessionInfo_Add`, after the vtable has been changed. -/
def add (session : UInt32) (name : List UInt8) : SessionTable :=
  if t.nbActiveSessions = maxSession then t
  else
    let id := t.findClosestSlot session
    if id ≠ t.nbActiveSessions ∧ (t.sessionInfos id).session = session then t
    else
      { sessionInfos := Function.update (Slots.shiftUp id t.nbActiveSessions t.sessionInfos) id ⟨session, strncpy12 name⟩
        nbActiveSessions := t.nbActiveSessions + 1 }

/-- `SessionInfo_Remove`. -/
def remove (session : UInt32) : SessionTable :=
  if t.nbActiveSessions = maxSession then t
  else
    let id := t.findClosestSlot session
    if id = t.nbActiveSessions then t
    else
      { sessionInfos := Slots.erase t.nbActiveSessions id SessionInfo.zero t.sessionInfos
        nbActiveSessions := t.nbActiveSessions - 1 }

/-- An entry of the table. -/
def Has (info : SessionInfo) : Prop := ∃ i < t.nbActiveSessions, t.sessionInfos i = info

/-- The table has an entry of a session. -/
def HasSession (session : UInt32) : Prop := ∃ i < t.nbActiveSessions, (t.sessionInfos i).session = session

/-- A session that is above all entries. -/
def Above (session : UInt32) : Prop := ∀ i < t.nbActiveSessions, (t.sessionInfos i).session < session

abbrev Sorted : Prop := Slots.Sorted SessionInfo.key t.nbActiveSessions t.sessionInfos

end SessionTable

/-! ## What the table is for -/

/-- The sessions that are registered, with their names. -/
structure Registry where
  sessions : Finset UInt32
  name : UInt32 → List UInt8

namespace Registry

variable (r : Registry)

/-- A session is registered if it is not yet and there is room. -/
def add (session : UInt32) (name : List UInt8) : Registry :=
  if session ∈ r.sessions ∨ r.sessions.card = maxSession then r
  else ⟨insert session r.sessions, Function.update r.name session (strncpy12 name)⟩

def remove (session : UInt32) : Registry := { r with sessions := r.sessions.erase session }

def find (session : UInt32) : Option SessionInfo :=
  if session ∈ r.sessions then some ⟨session, r.name session⟩ else none

end Registry

/-! ## Runs -/

/-- The table, the memory where a vtable is, the sessions that exist, and those that are to be registered. -/
structure Sessions where
  table : SessionTable
  hasCustomVtable : UInt32 → Bool
  alive : UInt32 → Bool
  registry : Registry

/-- A session is made, added or destroyed, or memory that is no session's is written. -/
inductive SessionInput
  | construct (session : UInt32)
  | add (session : UInt32) (name : List UInt8)
  | destroy (session : UInt32)
  | write (address : UInt32) (custom : Bool)

namespace Sessions

variable (k : Sessions)

def Enabled : SessionInput → Prop
  | .construct session => k.alive session = false
  | .add session _ => k.alive session = true
  | .destroy session => k.alive session = true
  | .write address _ => k.alive address = false

instance : (input : SessionInput) → Decidable (k.Enabled input)
  | .construct _ | .add _ _ | .destroy _ | .write _ _ => inferInstanceAs (Decidable (_ = _))

/-- The destructor of a session whose vtable was changed is `KSession__dtor_hook`. -/
def step : SessionInput → Sessions
  | .construct session =>
    { k with
      hasCustomVtable := Function.update k.hasCustomVtable session false
      alive := Function.update k.alive session true }
  | .add session name =>
    { k with
      table := k.table.add session name
      hasCustomVtable := Function.update k.hasCustomVtable session true
      registry := k.registry.add session name }
  | .destroy session =>
    { k with
      table := if k.hasCustomVtable session then k.table.remove session else k.table
      alive := Function.update k.alive session false
      registry := k.registry.remove session }
  | .write address custom => { k with hasCustomVtable := Function.update k.hasCustomVtable address custom }

def lookup (session : UInt32) : Option SessionInfo := k.table.lookup k.hasCustomVtable session

def init : Sessions where
  table := ⟨fun _ => SessionInfo.zero, 0⟩
  hasCustomVtable := fun _ => false
  alive := fun _ => false
  registry := ⟨∅, fun _ => []⟩

end Sessions

def sessionSystem : System Sessions SessionInput :=
  .guarded (· = .init) Sessions.Enabled fun k input => some (k.step input)

/-! ## When the table does what it is for -/

namespace SessionTable

variable (t : SessionTable)

/-- A lookup finds no other session: it is of an entry, or above all of them. -/
def LookupFits (session : UInt32) : Prop := t.HasSession session ∨ t.Above session

/-- A removal takes away what it should: from a table that is full, of a session without an entry, from another one, of
a session that a lookup would find or of one above all entries. -/
def RemoveFits (session : UInt32) : Prop :=
  if t.nbActiveSessions = maxSession then ¬ t.HasSession session else t.LookupFits session

variable {t} {session : UInt32}

theorem Sorted.isSlot (h : t.Sorted) (session : UInt32) :
    Slots.IsSlot SessionInfo.key t.nbActiveSessions t.sessionInfos session.toNat (t.findClosestSlot session) :=
  Slots.Sorted.closestSlot h session.toNat

theorem Sorted.hasSession_iff (h : t.Sorted) : t.HasSession session ↔ t.findClosestSlot session < t.nbActiveSessions ∧
    (t.sessionInfos (t.findClosestSlot session)).session = session := by
  have hmem := (h.isSlot session).mem_iff h
  simp only [SessionInfo.key, UInt32.toNat_inj] at hmem
  exact hmem

theorem Sorted.above_iff (h : t.Sorted) : t.Above session ↔ t.findClosestSlot session = t.nbActiveSessions := by
  have hslot := h.isSlot session
  constructor
  · intro habove
    by_contra hne
    have hlt : t.findClosestSlot session < t.nbActiveSessions := by
      have hle := hslot.le
      omega
    have hless := UInt32.lt_iff_toNat_lt.mp (habove _ hlt)
    exact absurd hless (Nat.not_lt_of_le (hslot.above _ le_rfl hlt))
  · intro hend i hi
    exact UInt32.lt_iff_toNat_lt.mpr (hslot.below i (hend ▸ hi))

/-- Two slots with one session are one. -/
theorem Sorted.inj (h : t.Sorted) {i j : Nat} (hi : i < t.nbActiveSessions) (hj : j < t.nbActiveSessions)
    (heq : (t.sessionInfos i).session = (t.sessionInfos j).session) : i = j := by
  have hkey : (t.sessionInfos i).key = (t.sessionInfos j).key := congrArg UInt32.toNat heq
  rcases Nat.lt_trichotomy i j with hlt | rfl | hgt
  · have hless := h i j hlt hj
    omega
  · rfl
  · have hless := h j i hgt hi
    omega

theorem Has.hasSession {info : SessionInfo} (h : t.Has info) : t.HasSession info.session := by
  obtain ⟨i, hi, rfl⟩ := h
  exact ⟨i, hi, rfl⟩

/-! ### Additions -/

theorem Sorted.add_eq (h : t.Sorted) (hroom : t.nbActiveSessions ≠ maxSession) (hnew : ¬ t.HasSession session)
    (name : List UInt8) : t.add session name =
      ⟨Slots.insert t.nbActiveSessions (t.findClosestSlot session) ⟨session, strncpy12 name⟩ t.sessionInfos,
        t.nbActiveSessions + 1⟩ := by
  have hle := (h.isSlot session).le
  unfold SessionTable.add
  rw [if_neg hroom]
  dsimp only
  rw [if_neg]
  · rfl
  · rintro ⟨hne, heq⟩
    exact hnew (h.hasSession_iff.mpr ⟨by omega, heq⟩)

theorem Sorted.add_same (h : t.Sorted) (hold : t.nbActiveSessions = maxSession ∨ t.HasSession session) (name : List UInt8) :
    t.add session name = t := by
  unfold SessionTable.add
  rcases hold with hfull | hsession
  · rw [if_pos hfull]
  · split
    · rfl
    · obtain ⟨hlt, heq⟩ := h.hasSession_iff.mp hsession
      dsimp only
      rw [if_pos ⟨Nat.ne_of_lt hlt, heq⟩]

theorem Sorted.add (h : t.Sorted) (name : List UInt8) : (t.add session name).Sorted := by
  by_cases hold : t.nbActiveSessions = maxSession ∨ t.HasSession session
  · rw [h.add_same hold]
    exact h
  · push Not at hold
    rw [h.add_eq hold.1 hold.2]
    refine Slots.Sorted.insert h (h.isSlot session) ?_
    rintro ⟨i, hi, heq⟩
    exact hold.2 ⟨i, hi, UInt32.toNat_inj.mp heq⟩

theorem Sorted.add_has (h : t.Sorted) (hroom : t.nbActiveSessions ≠ maxSession) (hnew : ¬ t.HasSession session)
    (name : List UInt8) (info : SessionInfo) :
    (t.add session name).Has info ↔ info = ⟨session, strncpy12 name⟩ ∨ t.Has info := by
  rw [h.add_eq hroom hnew]
  have hmem := Slots.insert_mem ⟨session, strncpy12 name⟩ t.sessionInfos (h.isSlot session).le (· = info)
  rw [eq_comm (a := info)]
  exact hmem

/-! ### Removals -/

theorem remove_full (h : t.nbActiveSessions = maxSession) : t.remove session = t := if_pos h

theorem Sorted.remove_above (h : t.Sorted) (habove : t.Above session) : t.remove session = t := by
  unfold SessionTable.remove
  split
  · rfl
  · exact if_pos (h.above_iff.mp habove)

theorem Sorted.remove_eq (h : t.Sorted) (hroom : t.nbActiveSessions ≠ maxSession) (hbelow : ¬ t.Above session) :
    t.remove session = ⟨Slots.erase t.nbActiveSessions (t.findClosestSlot session) SessionInfo.zero t.sessionInfos,
      t.nbActiveSessions - 1⟩ := by
  unfold SessionTable.remove
  rw [if_neg hroom]
  exact if_neg fun hend => hbelow (h.above_iff.mpr hend)

theorem Sorted.slot_lt (h : t.Sorted) (hbelow : ¬ t.Above session) : t.findClosestSlot session < t.nbActiveSessions := by
  rcases Nat.lt_or_eq_of_le (h.isSlot session).le with hlt | hend
  · exact hlt
  · exact absurd (h.above_iff.mpr hend) hbelow

theorem Sorted.remove (h : t.Sorted) (session : UInt32) : (t.remove session).Sorted := by
  by_cases hroom : t.nbActiveSessions = maxSession
  · rw [remove_full hroom]
    exact h
  by_cases habove : t.Above session
  · rw [h.remove_above habove]
    exact h
  · rw [h.remove_eq hroom habove]
    exact Slots.Sorted.erase h (h.slot_lt habove) _

/-- What is left: all but the entry in the slot. -/
theorem Sorted.remove_has (h : t.Sorted) (hroom : t.nbActiveSessions ≠ maxSession) (hbelow : ¬ t.Above session)
    (info : SessionInfo) : (t.remove session).Has info ↔
      ∃ i < t.nbActiveSessions, i ≠ t.findClosestSlot session ∧ t.sessionInfos i = info := by
  rw [h.remove_eq hroom hbelow]
  exact Slots.erase_mem _ _ (h.slot_lt hbelow) (· = info)

/-- A removal takes away the entry of the session and no other. -/
def Removes (t : SessionTable) (session : UInt32) : Prop :=
  ∀ info, (t.remove session).Has info ↔ t.Has info ∧ info.session ≠ session

theorem removes_same (hsame : t.remove session = t) (hnot : ¬ t.HasSession session) : t.Removes session := by
  intro info
  rw [hsame]
  constructor
  · exact fun hhas => ⟨hhas, fun heq => hnot (heq ▸ hhas.hasSession)⟩
  · exact fun hhas => hhas.1

theorem Sorted.removes_iff (h : t.Sorted) : t.Removes session ↔ t.RemoveFits session := by
  unfold RemoveFits
  split
  · rename_i hfull
    constructor
    · rintro hremoves ⟨i, hi, heq⟩
      have hgone := hremoves (t.sessionInfos i)
      rw [remove_full hfull] at hgone
      exact (hgone.mp ⟨i, hi, rfl⟩).2 heq
    · exact removes_same (remove_full hfull)
  rename_i hroom
  constructor
  · intro hremoves
    by_contra hnot
    unfold LookupFits at hnot
    push Not at hnot
    have hlt := h.slot_lt hnot.2
    have hgone := hremoves (t.sessionInfos (t.findClosestSlot session))
    have hne : (t.sessionInfos (t.findClosestSlot session)).session ≠ session := fun heq => hnot.1 ⟨_, hlt, heq⟩
    obtain ⟨i, hi, hother, heq⟩ := (h.remove_has hroom hnot.2 _).mp (hgone.mpr ⟨⟨_, hlt, rfl⟩, hne⟩)
    exact hother (h.inj hi hlt (congrArg SessionInfo.session heq))
  · rintro (hsession | habove)
    · obtain ⟨hlt, heq⟩ := h.hasSession_iff.mp hsession
      have hbelow : ¬ t.Above session := fun habove => absurd (h.above_iff.mp habove) (Nat.ne_of_lt hlt)
      intro info
      rw [h.remove_has hroom hbelow]
      constructor
      · rintro ⟨i, hi, hne, rfl⟩
        exact ⟨⟨i, hi, rfl⟩, fun hsame => hne (h.inj hi hlt (hsame.trans heq.symm))⟩
      · rintro ⟨⟨i, hi, rfl⟩, hne⟩
        exact ⟨i, hi, fun hslot => hne (hslot ▸ heq), rfl⟩
    · refine removes_same (h.remove_above habove) ?_
      rintro ⟨i, hi, rfl⟩
      exact absurd (UInt32.lt_iff_toNat_lt.mp (habove i hi)) (Nat.lt_irrefl _)

end SessionTable

/-! ## Runs keep the table -/

namespace Registry

variable {r : Registry} {session : UInt32}

theorem find_eq_some_iff {info : SessionInfo} :
    r.find info.session = some info ↔ info.session ∈ r.sessions ∧ r.name info.session = info.name := by
  unfold find
  split
  · rename_i hmem
    rw [Option.some.injEq]
    constructor
    · exact fun heq => ⟨hmem, congrArg SessionInfo.name heq⟩
    · rintro ⟨-, hname⟩
      rw [hname]
  · rename_i hnot
    exact ⟨nofun, fun h => absurd h.1 hnot⟩

theorem add_eq (hnew : session ∉ r.sessions) (hroom : r.sessions.card ≠ maxSession) (name : List UInt8) :
    r.add session name = ⟨insert session r.sessions, Function.update r.name session (strncpy12 name)⟩ := by
  unfold add
  rw [if_neg]
  exact not_or.mpr ⟨hnew, hroom⟩

end Registry

namespace Sessions

variable {k : Sessions}

/-- The table has the registered sessions, which exist and have the hook. -/
structure Good (k : Sessions) : Prop where
  sorted : k.table.Sorted
  size : k.table.nbActiveSessions ≤ maxSession
  card : k.registry.sessions.card = k.table.nbActiveSessions
  registered : ∀ info, k.table.Has info ↔ k.registry.find info.session = some info
  alive : ∀ info, k.table.Has info → k.alive info.session = true
  custom : ∀ info, k.table.Has info → k.hasCustomVtable info.session = true

theorem Good.mem_iff (h : k.Good) {session : UInt32} : session ∈ k.registry.sessions ↔ k.table.HasSession session := by
  constructor
  · intro hmem
    have hfind : k.registry.find session = some ⟨session, k.registry.name session⟩ := if_pos hmem
    exact ((h.registered ⟨session, _⟩).mpr hfind).hasSession
  · rintro ⟨i, hi, rfl⟩
    exact (Registry.find_eq_some_iff.mp ((h.registered _).mp ⟨i, hi, rfl⟩)).1

/-- A lookup gives the entry in the slot. -/
theorem Good.lookup_eq (h : k.Good) (session : UInt32) : k.lookup session =
    if k.table.findClosestSlot session = k.table.nbActiveSessions then none
    else some (k.table.sessionInfos (k.table.findClosestSlot session)) := by
  unfold Sessions.lookup SessionTable.lookup
  dsimp only
  by_cases hend : k.table.findClosestSlot session = k.table.nbActiveSessions
  · rw [if_pos hend, if_pos hend]
  · have hlt : k.table.findClosestSlot session < k.table.nbActiveSessions :=
      Nat.lt_of_le_of_ne (h.sorted.isSlot session).le hend
    rw [if_neg hend, if_neg hend, if_pos (h.custom _ ⟨_, hlt, rfl⟩)]

theorem Good.lookup_iff (h : k.Good) (session : UInt32) :
    k.lookup session = k.registry.find session ↔ k.table.LookupFits session := by
  rw [h.lookup_eq]
  by_cases habove : k.table.Above session
  · have hnot : session ∉ k.registry.sessions := by
      rw [h.mem_iff]
      rintro ⟨i, hi, rfl⟩
      exact absurd (UInt32.lt_iff_toNat_lt.mp (habove i hi)) (Nat.lt_irrefl _)
    rw [if_pos (h.sorted.above_iff.mp habove), Registry.find, if_neg hnot]
    exact ⟨fun _ => .inr habove, fun _ => rfl⟩
  · have hlt := h.sorted.slot_lt habove
    rw [if_neg (Nat.ne_of_lt hlt)]
    constructor
    · intro hfound
      have hmem : session ∈ k.registry.sessions := by
        by_contra hnot
        rw [Registry.find, if_neg hnot] at hfound
        cases hfound
      exact .inl (h.mem_iff.mp hmem)
    · rintro (hsession | hother)
      · obtain ⟨-, heq⟩ := h.sorted.hasSession_iff.mp hsession
        have hfind := (h.registered _).mp ⟨_, hlt, rfl⟩
        rw [← hfind, heq]
      · exact absurd hother habove

/-- The table and the registry are left as they are, with all that is in them. -/
theorem Good.frame (h : k.Good) {k' : Sessions} (htable : k'.table = k.table) (hregistry : k'.registry = k.registry)
    (halive : ∀ info, k.table.Has info → k'.alive info.session = k.alive info.session)
    (hcustom : ∀ info, k.table.Has info → k'.hasCustomVtable info.session = k.hasCustomVtable info.session) : k'.Good := by
  refine ⟨?_, ?_, ?_, fun info => ?_, fun info hhas => ?_, fun info hhas => ?_⟩
  · rw [htable]
    exact h.sorted
  · rw [htable]
    exact h.size
  · rw [htable, hregistry]
    exact h.card
  · rw [htable, hregistry]
    exact h.registered info
  · rw [htable] at hhas
    rw [halive info hhas]
    exact h.alive info hhas
  · rw [htable] at hhas
    rw [hcustom info hhas]
    exact h.custom info hhas

/-- Memory that is no session's, and sessions that are made, have no entry. -/
theorem Good.ne_of_not_alive (h : k.Good) {address : UInt32} (hdead : k.alive address = false) {info : SessionInfo}
    (hhas : k.table.Has info) : info.session ≠ address := by
  rintro rfl
  rw [h.alive info hhas] at hdead
  cases hdead

theorem Good.add (h : k.Good) {session : UInt32} (halive : k.alive session = true) (name : List UInt8) :
    (k.step (.add session name)).Good := by
  by_cases hold : k.table.nbActiveSessions = maxSession ∨ k.table.HasSession session
  · refine h.frame (h.sorted.add_same hold name) ?_ (fun _ _ => rfl) (fun info hhas => ?_)
    · refine if_pos ?_
      rw [h.mem_iff, h.card]
      exact hold.symm
    · rcases eq_or_ne info.session session with heq | hne
      · rw [heq]
        show Function.update k.hasCustomVtable session true session = _
        rw [Function.update_self, ← heq, h.custom info hhas]
      · exact Function.update_of_ne hne ..
  · push Not at hold
    obtain ⟨hroom, hnew⟩ := hold
    have hregistry := Registry.add_eq (mt h.mem_iff.mp hnew) (h.card ▸ hroom) name
    have hhas := h.sorted.add_has hroom hnew name
    refine ⟨h.sorted.add name, ?_, ?_, fun info => ?_, fun info hinfo => ?_, fun info hinfo => ?_⟩
    · show (k.table.add session name).nbActiveSessions ≤ maxSession
      rw [h.sorted.add_eq hroom hnew]
      have hsize := h.size
      show k.table.nbActiveSessions + 1 ≤ maxSession
      omega
    · show (k.registry.add session name).sessions.card = (k.table.add session name).nbActiveSessions
      rw [hregistry, h.sorted.add_eq hroom hnew, Finset.card_insert_of_notMem (mt h.mem_iff.mp hnew), h.card]
    · show (k.table.add session name).Has info ↔ (k.registry.add session name).find info.session = some info
      rw [hhas info, hregistry, Registry.find_eq_some_iff]
      dsimp only
      rcases eq_or_ne info.session session with heq | hne
      · rw [heq, Function.update_self]
        constructor
        · rintro (rfl | hinfo)
          · exact ⟨Finset.mem_insert_self _ _, rfl⟩
          · exact absurd (heq ▸ hinfo.hasSession) hnew
        · rintro ⟨-, hname⟩
          left
          rw [hname, ← heq]
      · rw [Function.update_of_ne hne, Finset.mem_insert, h.registered info, Registry.find_eq_some_iff]
        constructor
        · rintro (rfl | hinfo)
          · exact absurd rfl hne
          · exact ⟨.inr hinfo.1, hinfo.2⟩
        · rintro ⟨heq | hmem, hname⟩
          · exact absurd heq hne
          · exact .inr ⟨hmem, hname⟩
    · rcases (hhas info).mp hinfo with rfl | hinfo
      · exact halive
      · exact h.alive info hinfo
    · show Function.update k.hasCustomVtable session true info.session = true
      rcases (hhas info).mp hinfo with rfl | hinfo
      · exact Function.update_self ..
      · rcases eq_or_ne info.session session with heq | hne
        · rw [heq, Function.update_self]
        · rw [Function.update_of_ne hne]
          exact h.custom info hinfo

/-- A session that is not registered is forgotten. -/
theorem Registry.remove_of_notMem {r : Registry} {session : UInt32} (h : session ∉ r.sessions) : r.remove session = r := by
  unfold Registry.remove
  rw [Finset.erase_eq_of_notMem h]

/-- A session whose destructor is hooked is destroyed only when a removal does what it should. -/
def Fits (k : Sessions) : SessionInput → Prop
  | .destroy session => k.hasCustomVtable session = true → k.table.RemoveFits session
  | _ => True

theorem Good.destroy (h : k.Good) {session : UInt32} (hfits : k.Fits (.destroy session)) :
    (k.step (.destroy session)).Good := by
  by_cases hsession : k.table.HasSession session
  · -- the hook removes the entry, from a table that is not full
    have hcustom : k.hasCustomVtable session = true := by
      obtain ⟨i, hi, rfl⟩ := hsession
      exact h.custom _ ⟨i, hi, rfl⟩
    have hremoves := h.sorted.removes_iff.mpr (hfits hcustom)
    have hroom : k.table.nbActiveSessions ≠ maxSession := by
      intro hfull
      have hnot := hfits hcustom
      rw [SessionTable.RemoveFits, if_pos hfull] at hnot
      exact hnot hsession
    have hbelow : ¬ k.table.Above session := by
      intro habove
      obtain ⟨hlt, -⟩ := h.sorted.hasSession_iff.mp hsession
      exact absurd (h.sorted.above_iff.mp habove) (Nat.ne_of_lt hlt)
    have htable : (k.step (.destroy session)).table = k.table.remove session := if_pos hcustom
    have hnb : (k.table.remove session).nbActiveSessions = k.table.nbActiveSessions - 1 := by
      rw [h.sorted.remove_eq hroom hbelow]
    refine ⟨?_, ?_, ?_, fun info => ?_, fun info hinfo => ?_, fun info hinfo => ?_⟩
    · rw [htable]
      exact h.sorted.remove session
    · rw [htable, hnb]
      have hsize := h.size
      omega
    · rw [htable, hnb, ← h.card]
      exact Finset.card_erase_of_mem (h.mem_iff.mpr hsession)
    · rw [htable, hremoves info, h.registered info, Registry.find_eq_some_iff, Registry.find_eq_some_iff]
      show _ ↔ info.session ∈ k.registry.sessions.erase session ∧ _
      rw [Finset.mem_erase]
      tauto
    · rw [htable, hremoves info] at hinfo
      exact (Function.update_of_ne hinfo.2 ..).trans (h.alive info hinfo.1)
    · rw [htable, hremoves info] at hinfo
      exact h.custom info hinfo.1
  · -- there is no entry, and none is taken away
    have htable : (k.step (.destroy session)).table = k.table := by
      show (if k.hasCustomVtable session then k.table.remove session else k.table) = k.table
      split
      · rename_i hcustom
        have hremove := hfits hcustom
        unfold SessionTable.RemoveFits at hremove
        split at hremove
        · exact SessionTable.remove_full ‹_›
        · exact h.sorted.remove_above (hremove.resolve_left hsession)
      · rfl
    refine h.frame htable (Registry.remove_of_notMem (mt h.mem_iff.mp hsession)) (fun info hinfo => ?_) (fun _ _ => rfl)
    refine Function.update_of_ne ?_ ..
    rintro rfl
    exact hsession hinfo.hasSession

theorem Good.step (h : k.Good) {input : SessionInput} (henabled : k.Enabled input) (hfits : k.Fits input) :
    (k.step input).Good := by
  cases input with
  | construct session =>
    refine h.frame rfl rfl (fun info hinfo => ?_) (fun info hinfo => ?_)
    · exact Function.update_of_ne (h.ne_of_not_alive henabled hinfo) ..
    · exact Function.update_of_ne (h.ne_of_not_alive henabled hinfo) ..
  | add session name => exact h.add henabled name
  | destroy session => exact h.destroy hfits
  | write address custom =>
    refine h.frame rfl rfl (fun _ _ => rfl) (fun info hinfo => ?_)
    exact Function.update_of_ne (h.ne_of_not_alive henabled hinfo) ..

theorem good_init : init.Good := by
  refine ⟨fun i j _ hj => absurd hj (Nat.not_lt_zero j), Nat.zero_le _, rfl, fun info => ?_, ?_, ?_⟩
  · rw [Registry.find_eq_some_iff]
    exact ⟨fun ⟨i, hi, _⟩ => absurd hi (Nat.not_lt_zero i), fun h => absurd h.1 (Finset.notMem_empty _)⟩
  · exact fun info ⟨i, hi, _⟩ => absurd hi (Nat.not_lt_zero i)
  · exact fun info ⟨i, hi, _⟩ => absurd hi (Nat.not_lt_zero i)

/-- The table is sorted and has the registered sessions, which exist; a lookup gives the entry of its session, and a
removal takes it away and no other, exactly if they fit. -/
structure Found (k : Sessions) : Prop where
  sorted : k.table.Sorted
  size : k.table.nbActiveSessions ≤ maxSession
  registered : ∀ info, k.table.Has info ↔ k.registry.find info.session = some info
  alive : ∀ info, k.table.Has info → k.alive info.session = true
  lookup : ∀ session, k.lookup session = k.registry.find session ↔ k.table.LookupFits session
  remove : ∀ session, k.table.Removes session ↔ k.table.RemoveFits session

end Sessions

/-- In every run in which the sessions that are destroyed fit, the table is what the registry tells, and its lookups and
removals are right exactly if they fit. -/
theorem sessions_found (k : Sessions) (h : (sessionSystem.restrict Sessions.Fits).Reachable k) : k.Found := by
  have hgood : k.Good := by
    refine System.Reachable.invariant (S := sessionSystem.restrict Sessions.Fits) (J := Sessions.Good) ?_
      (fun k input k' _ hk hstep => ?_) h
    · rintro k rfl
      exact Sessions.good_init
    · obtain ⟨hfits, henabled, hok⟩ := hstep
      obtain rfl := Option.some.inj hok
      exact hk.step henabled hfits
  exact ⟨hgood.sorted, hgood.size, hgood.registered, hgood.alive, hgood.lookup_iff, fun _ => hgood.sorted.removes_iff⟩

/-! ## Sessions that are found, and one that is another's -/

instance (t : SessionTable) (session : UInt32) : Decidable (t.HasSession session) :=
  inferInstanceAs (Decidable (∃ i < t.nbActiveSessions, (t.sessionInfos i).session = session))

instance (t : SessionTable) (session : UInt32) : Decidable (t.Above session) :=
  inferInstanceAs (Decidable (∀ i < t.nbActiveSessions, (t.sessionInfos i).session < session))

instance (t : SessionTable) (session : UInt32) : Decidable (t.RemoveFits session) :=
  inferInstanceAs (Decidable (if t.nbActiveSessions = maxSession then ¬ t.HasSession session
    else t.HasSession session ∨ t.Above session))

instance (k : Sessions) : (input : SessionInput) → Decidable (k.Fits input)
  | .destroy session => inferInstanceAs (Decidable (k.hasCustomVtable session = true → k.table.RemoveFits session))
  | .construct _ | .add _ _ | .write _ _ => inferInstanceAs (Decidable True)

/-- The name of the service `cfg:u`. -/
def cfgName : List UInt8 := [99, 102, 103, 58, 117]

/-- A session is added. -/
def addInputs (session : UInt32) : List SessionInput := [.construct session, .add session cfgName]

/-- Two sessions are added and the first is destroyed; the other is found. -/
theorem second_session_found : ∃ k : Sessions, k.Found ∧ k.lookup 0x200 = some ⟨0x200, strncpy12 cfgName⟩ ∧
    k.alive 0x100 = false := by
  have hrun : (System.guardedRun (fun k input => k.Fits input ∧ k.Enabled input) (fun k input => some (k.step input))
      Sessions.init (addInputs 0x100 ++ addInputs 0x200 ++ [.destroy 0x100])).any
        (fun k => k.lookup 0x200 = some ⟨0x200, strncpy12 cfgName⟩ ∧ k.alive 0x100 = false) = true := by decide +kernel
  obtain ⟨k, hk, hfound⟩ := (Option.any_eq_true _ _).mp hrun
  have hinit : (sessionSystem.restrict Sessions.Fits).Reachable Sessions.init := .init rfl
  exact ⟨k, sessions_found k (hinit.restrict_guardedRun hk), of_decide_eq_true hfound⟩

/-- The lookup of a session that is not registered gives the entry of another one. -/
theorem unregistered_session_found : ∃ k : Sessions, sessionSystem.Reachable k ∧ k.alive 0x100 = true ∧
    k.registry.find 0x100 = none ∧ k.lookup 0x100 = some ⟨0x200, strncpy12 cfgName⟩ := by
  have hrun : (System.guardedRun Sessions.Enabled (fun k input => some (k.step input))
      Sessions.init (.construct 0x100 :: addInputs 0x200)).any
        (fun k => k.alive 0x100 = true ∧ k.registry.find 0x100 = none ∧
          k.lookup 0x100 = some ⟨0x200, strncpy12 cfgName⟩) = true := by decide +kernel
  obtain ⟨k, hk, hfound⟩ := (Option.any_eq_true _ _).mp hrun
  have hinit : sessionSystem.Reachable Sessions.init := .init rfl
  exact ⟨k, hinit.guardedRun hk, of_decide_eq_true hfound⟩

end Omiiba.K11
