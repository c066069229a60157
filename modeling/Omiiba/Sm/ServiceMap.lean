/-
The service table against a reference map keyed by (isNamedPort, first nameSize bytes): over every
sequence of registrations, unregistrations and process exits from the empty table, the table is
the map as long as every name that is stored is terminated.
-/
import Omiiba.Lib.KeyedTable
import Omiiba.Lib.System
import Omiiba.Sm.Names
import Omiiba.Sm.Processes

namespace Omiiba.Sm

open scoped List

/-! ## The reference map -/

/-- What a service is known by. -/
abbrev ServiceKey := Bool × List UInt8

/-- The reference: for each key its process and its port. -/
abbrev ServiceMap := ServiceKey → Option (UInt32 × Handle)

def ServiceInfo.key (info : ServiceInfo) : ServiceKey := (info.isNamedPort, storedKey info.name)
def ServiceInfo.value (info : ServiceInfo) : UInt32 × Handle := (info.pid, info.clientPort)

/-- The operations on the table, and every other step of sm. -/
inductive ServiceOp
  | register (g : Globals) (sys : Syscalls) (pid : UInt32) (clientPort : Handle) (name : Nat → UInt8)
      (nameSize : Int) (isNamedPort : Bool)
  | unregister (pid : UInt32) (name : Nat → UInt8) (nameSize : Int) (isNamedPort : Bool)
  | unregisterProcess (pid : UInt32)
  | other

/-- A step of the code next to the step of the reference map: where the code reports success the
reference inserts the key, erases it, or drops all keys of the process. -/
inductive ServiceStep : State × ServiceMap → ServiceOp → State × ServiceMap → Prop
  | register {g sys s m pid clientPort name nameSize isNamedPort res serverPort s'} :
      doRegisterServiceOrPort g sys s pid clientPort name nameSize isNamedPort = .ok (res, serverPort, s') →
      ServiceStep (s, m) (.register g sys pid clientPort name nameSize isNamedPort)
        (s', if rFailed res then m else Function.update m (isNamedPort, nameKey name nameSize)
          (some (pid, storedPort sys clientPort isNamedPort)))
  | unregister {s m pid name nameSize isNamedPort res s'} :
      unregisterServiceOrPort s pid name nameSize isNamedPort = (res, s') →
      ServiceStep (s, m) (.unregister pid name nameSize isNamedPort)
        (s', if rFailed res then m else Function.update m (isNamedPort, nameKey name nameSize) none)
  | unregisterProcess {s m pid res s'} : unregisterProcess s pid = (res, s') →
      ServiceStep (s, m) (.unregisterProcess pid)
        (s', if rFailed res then m else fun key => (m key).filter (·.1 != pid))
  | other {s m s'} : s'.servicesInfo = s.servicesInfo → ServiceStep (s, m) .other (s', m)

/-- The table and the reference map, from the empty table on. -/
def services : System (State × ServiceMap) ServiceOp where
  init := fun (s, m) => s.servicesInfo = [] ∧ m = fun _ => none
  step := ServiceStep

/-- The live entries are those of the map, no two of one key and at most 0xA0, and looking up a name
finds what the map has for its first `nameSize` bytes. -/
structure TableAgrees (s : State) (m : ServiceMap) : Prop where
  entries : TableOf ServiceInfo.key ServiceInfo.value s.servicesInfo m
  bound : s.servicesInfo.length ≤ 0xA0
  find : ∀ isNamedPort name nameSize, ValidName name nameSize →
    (findService s.servicesInfo isNamedPort name nameSize).map (·.2.value) = m (isNamedPort, nameKey name nameSize)
  registered : ∀ name nameSize, ValidName name nameSize →
    isServiceRegistered s name nameSize = (0, some (m (false, nameKey name nameSize)).isSome)

/-- A name the table will store is terminated. -/
def StoresTerminated (r : State × ServiceMap) : ServiceOp → Prop
  | .register _ sys _ _ name nameSize isNamedPort =>
    Registrable sys r.1 name nameSize isNamedPort → Terminated name nameSize
  | _ => True

/-! ## Looking up -/

theorem matches_iff {info : ServiceInfo} {isNamedPort : Bool} {name : Nat → UInt8} {nameSize : Int}
    (h : ValidName name nameSize) :
    (info.isNamedPort == isNamedPort && areServiceNamesEqual info.name name nameSize) = true ↔
      info.key = (isNamedPort, nameKey name nameSize) := by
  rw [Bool.and_eq_true, beq_iff_eq, areServiceNamesEqual_iff h]
  unfold ServiceInfo.key
  rw [Prod.mk.injEq]

theorem findServicePortByName_none {servicesInfo : List ServiceInfo} {isNamedPort : Bool} {name : Nat → UInt8}
    {nameSize : Int} (h : ValidName name nameSize) :
    findServicePortByName servicesInfo isNamedPort name nameSize = none ↔
      ∀ info ∈ servicesInfo, info.key ≠ (isNamedPort, nameKey name nameSize) := by
  unfold findServicePortByName
  rw [List.findIdx?_eq_none_iff]
  refine forall₂_congr fun info _ => ?_
  rw [← Bool.not_eq_true, matches_iff h]

theorem findService_key {servicesInfo : List ServiceInfo} {isNamedPort : Bool} {name : Nat → UInt8}
    {nameSize : Int} {i : Nat} {info : ServiceInfo} (h : ValidName name nameSize)
    (hf : findService servicesInfo isNamedPort name nameSize = some (i, info)) :
    info ∈ servicesInfo ∧ info.key = (isNamedPort, nameKey name nameSize) := by
  have hget := findService_getElem hf
  refine ⟨List.mem_of_getElem? hget, ?_⟩
  unfold findService at hf
  obtain ⟨j, hj, hm⟩ := Option.bind_eq_some_iff.1 hf
  obtain ⟨info', hi, he⟩ := Option.map_eq_some_iff.1 hm
  cases he
  obtain ⟨hlt, hp, -⟩ := List.findIdx?_eq_some_iff_getElem.1 hj
  rw [(List.getElem?_eq_some_iff.1 hget).2] at hp
  exact (matches_iff h).1 hp

theorem findService_none {servicesInfo : List ServiceInfo} {isNamedPort : Bool} {name : Nat → UInt8}
    {nameSize : Int} :
    findService servicesInfo isNamedPort name nameSize = none ↔
      findServicePortByName servicesInfo isNamedPort name nameSize = none := by
  unfold findService
  constructor
  · intro h
    by_contra hne
    obtain ⟨i, hi⟩ := Option.ne_none_iff_exists'.1 hne
    obtain ⟨hlt, -⟩ := List.findIdx?_eq_some_iff_getElem.1 hi
    rw [hi, Option.bind_some, List.getElem?_eq_getElem hlt] at h
    cases h
  · intro h; rw [h]; rfl

/-- A table that is the map is looked up as the map is. -/
theorem tableAgrees_of_tableOf {s : State} {m : ServiceMap}
    (t : TableOf ServiceInfo.key ServiceInfo.value s.servicesInfo m) (hb : s.servicesInfo.length ≤ 0xA0) :
    TableAgrees s m := by
  have hfind : ∀ isNamedPort name nameSize, ValidName name nameSize →
      (findService s.servicesInfo isNamedPort name nameSize).map (·.2.value) =
        m (isNamedPort, nameKey name nameSize) := by
    intro isNamedPort name nameSize hv
    rcases hf : findService s.servicesInfo isNamedPort name nameSize with - | ⟨i, info⟩
    · exact (t.eq_none.2 ((findServicePortByName_none hv).1 (findService_none.1 hf))).symm
    · obtain ⟨hmem, hkey⟩ := findService_key hv hf
      rw [← hkey, t.mem hmem]; rfl
  refine ⟨t, hb, hfind, fun name nameSize hv => ?_⟩
  unfold isServiceRegistered
  dsimp only
  rw [checkServiceName_iff.2 hv, if_neg (by simp), ← hfind false name nameSize hv, Option.isSome_map]
  by_cases hn : findServicePortByName s.servicesInfo false name nameSize = none
  · rw [findService_none.2 hn, hn]; rfl
  · have := mt findService_none.1 hn
    simp [hn, Option.isSome_iff_ne_none.2 this]

/-! ## Steps -/

theorem addService_servicesInfo {g : Globals} {s s' : State} {isNamedPort : Bool} {port : Handle}
    {info : ServiceInfo} {name : Nat → UInt8} (h : addService g (s.withPort isNamedPort port) info name = .ok s') :
    s'.servicesInfo = s.servicesInfo ++ [info] := by
  obtain ⟨kernel, -, rfl⟩ := addService_ok h
  cases isNamedPort <;> rfl

/-- Every operation whose stored name is terminated keeps the agreement. -/
theorem serviceStep_agrees {r r' : State × ServiceMap} {op : ServiceOp} (h : TableAgrees r.1 r.2)
    (hp : StoresTerminated r op) (hs : ServiceStep r op r') : TableAgrees r'.1 r'.2 := by
  cases hs with
  | @register g sys s m pid clientPort name nameSize isNamedPort res serverPort s' hreg =>
    rcases doRegister_ok hreg with ⟨hf, -, rfl⟩ | ⟨hf, hr, hadd⟩
    · rw [if_pos hf]; exact h
    · have hv := checkServiceName_iff.1 hr.valid
      have hs' := addService_servicesInfo hadd
      have hkey : (ServiceInfo.mk (strncpy8 name) (storedPort sys clientPort isNamedPort) pid isNamedPort).key =
          (isNamedPort, nameKey name nameSize) := Prod.ext rfl ((storedKey_strncpy8 hv).2 (hp hr))
      have hnone := h.entries.eq_none.2 ((findServicePortByName_none hv).1 hr.absent)
      have hroom : s.servicesInfo.length < 0xA0 := hr.room
      refine tableAgrees_of_tableOf ?_ (by show s'.servicesInfo.length ≤ _; rw [hs']; simp; omega)
      show TableOf _ _ s'.servicesInfo _
      rw [hs', if_neg (by simp [hf]), ← hkey]
      exact (h.entries.cons (by rw [hkey]; exact hnone)).perm (List.perm_append_singleton _ _).symm
  | @unregister s m pid name nameSize isNamedPort res s' hun =>
    rcases unregister_cases s pid name nameSize isNamedPort with ⟨hf, hs'⟩ | ⟨i, info, hv, hfind, hpid, heq⟩
    · rw [hun] at hf hs'
      cases hs'
      rw [if_pos hf]; exact h
    · rw [hun] at heq
      cases heq
      have hget := findService_getElem hfind
      have hlen := swapRemove_length hget
      have hbound : s.servicesInfo.length ≤ 0xA0 := h.bound
      have hkey := (findService_key (checkServiceName_iff.1 hv) hfind).2
      refine tableAgrees_of_tableOf ?_ (by show (swapRemove _ _).length ≤ _; omega)
      rw [if_neg (by decide), ← hkey]
      exact (h.entries.perm (swapRemove_perm_of_getElem hget).symm).tail
  | @unregisterProcess s m pid res s' hun =>
    rcases unregisterProcess_cases s pid with ⟨-, heq⟩ | ⟨a, removed, kept, -, hperm, hr, hk, heq⟩
    · rw [heq] at hun
      cases hun
      rw [if_pos (by decide)]; exact h
    · rw [heq] at hun
      cases hun
      have hlen := hperm.length_eq
      have hbound : s.servicesInfo.length ≤ 0xA0 := h.bound
      rw [List.length_append] at hlen
      refine tableAgrees_of_tableOf ?_ (by show kept.length ≤ _; omega)
      rw [if_neg (by decide)]
      exact h.entries.keep hperm (fun e he => by simp [ServiceInfo.value, hr e he])
        fun e he => by simpa [ServiceInfo.value] using hk e he
  | @other s m s' heq =>
    exact tableAgrees_of_tableOf (heq ▸ h.entries) (by show s'.servicesInfo.length ≤ _; rw [heq]; exact h.bound)

/-- Storing a name that is not terminated breaks the agreement: its key finds nothing. -/
theorem serviceStep_disagrees {r r' : State × ServiceMap} {op : ServiceOp} (hp : ¬ StoresTerminated r op)
    (hs : ServiceStep r op r') : ¬ TableAgrees r'.1 r'.2 := by
  cases hs with
  | @register g sys s m pid clientPort name nameSize isNamedPort res serverPort s' hreg =>
    simp only [StoresTerminated, not_forall] at hp
    obtain ⟨hr, hterm⟩ := hp
    have hv := checkServiceName_iff.1 hr.valid
    rcases doRegister_ok hreg with ⟨-, hn, -⟩ | ⟨hf, -, hadd⟩
    · exact absurd hr hn
    · intro h
      have hs' := addService_servicesInfo hadd
      have hnone : findServicePortByName s'.servicesInfo isNamedPort name nameSize = none := by
        rw [findServicePortByName_none hv, hs']
        intro info hi
        rcases List.mem_append.1 hi with hi | hi
        · exact (findServicePortByName_none hv).1 hr.absent info hi
        · obtain rfl := List.mem_singleton.1 hi
          intro hkey
          exact hterm ((storedKey_strncpy8 hv).1 (congrArg Prod.snd hkey))
      have hfind := h.find isNamedPort name nameSize hv
      dsimp only at hfind
      rw [findService_none.2 hnone, if_neg (by simp [hf]), Function.update_self] at hfind
      cases hfind
  | _ => exact absurd trivial hp

/-- In every run that stores only terminated names the table is the reference map; and the first
name stored that is not terminated is not found again. -/
theorem services_agree (r : State × ServiceMap) :
    ((services.restrict StoresTerminated).Reachable r → TableAgrees r.1 r.2) ∧
    ∀ op r', services.step r op r' → ¬ StoresTerminated r op → ¬ TableAgrees r'.1 r'.2 := by
  refine ⟨fun hr => hr.invariant (J := fun r => TableAgrees r.1 r.2) ?_ ?_, fun op r' hs hp => serviceStep_disagrees hp hs⟩
  · rintro ⟨s, m⟩ ⟨hs, rfl⟩
    refine tableAgrees_of_tableOf ?_ (by show s.servicesInfo.length ≤ _; rw [hs]; decide)
    rw [show s.servicesInfo = [] from hs]
    exact TableOf.nil
  · rintro r op r' - h ⟨hp, hs⟩
    exact serviceStep_agrees h hp hs

/-- "abc" registered from a terminated buffer: one live entry that is the map's. -/
theorem services_agree_abc : ∃ r, (services.restrict StoresTerminated).Reachable r ∧ r.1.servicesInfo.length = 1 ∧
    TableAgrees r.1 r.2 := by
  let name : Nat → UInt8 := fun i => [0x61, 0x62, 0x63].getD i 0
  let sys : Syscalls := ⟨(0, 1, 2), fun _ => (0, 3), (0, 4), (0, 0), (0, 5), 0⟩
  let g : Globals := ⟨6, 7, 8, 5, false, false⟩
  have hrun : (doRegisterServiceOrPort g sys State.zero 9 0 name 3 false).toOption.map
      (fun r => r.2.2.servicesInfo.length) = some 1 := by decide
  rcases hreg : doRegisterServiceOrPort g sys State.zero 9 0 name 3 false with e | ⟨res, serverPort, s'⟩
  · rw [hreg] at hrun; cases hrun
  · rw [hreg] at hrun
    have hterm : Terminated name 3 := .inr (by decide)
    have hstored : StoresTerminated (State.zero, fun _ => none) (.register g sys 9 0 name 3 false) := fun _ => hterm
    have hreach := System.Reachable.step (S := services.restrict StoresTerminated) (.init ⟨rfl, rfl⟩)
      ⟨hstored, ServiceStep.register hreg⟩
    exact ⟨_, hreach, by simpa [Except.toOption] using hrun, (services_agree _).1 hreach⟩

/-- "abc" registered from a buffer that goes on with "X": one live entry, and no "abc". -/
theorem services_lost : ∃ r, services.Reachable r ∧ r.1.servicesInfo.length = 1 ∧
    isServiceRegistered r.1 (fun i => [0x61, 0x62, 0x63, 0x58].getD i 0) 3 = (0, some false) ∧
    ¬ TableAgrees r.1 r.2 := by
  let name : Nat → UInt8 := fun i => [0x61, 0x62, 0x63, 0x58].getD i 0
  let sys : Syscalls := ⟨(0, 1, 2), fun _ => (0, 3), (0, 4), (0, 0), (0, 5), 0⟩
  let g : Globals := ⟨6, 7, 8, 5, false, false⟩
  have hv : ValidName name 3 := ⟨by decide, by decide, by decide⟩
  have hrun : (doRegisterServiceOrPort g sys State.zero 9 0 name 3 false).toOption.map
      (fun r => (rFailed r.1, r.2.2.servicesInfo.length, isServiceRegistered r.2.2 name 3)) =
        some (false, 1, 0, some false) := by decide
  rcases hreg : doRegisterServiceOrPort g sys State.zero 9 0 name 3 false with e | ⟨res, serverPort, s'⟩
  · rw [hreg] at hrun; cases hrun
  · rw [hreg] at hrun
    simp only [Except.toOption, Option.map_some, Option.some.injEq, Prod.mk.injEq] at hrun
    obtain ⟨hf, hlen, hlost⟩ := hrun
    refine ⟨_, .step (.init ⟨rfl, rfl⟩) (ServiceStep.register hreg), hlen, hlost, fun h => ?_⟩
    have hagree := (h.registered name 3 hv).symm.trans hlost
    simp [hf] at hagree

end Omiiba.Sm
