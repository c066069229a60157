/-
The emulation of a title's region and language, after KernelSetState.c and ipc.c: the loader registers attributes for
the titles it launches, and requests to cfg are answered in place of the service.
-/
import Omiiba.Lib.Memory
import Omiiba.Lib.System

namespace Omiiba.K11

/-! ## Attributes -/

structure LangemuAttributes where
  titleId : UInt64
  mask : UInt8
  region : UInt8
  language : UInt8
  country : UInt8
  state : UInt8
  deriving DecidableEq

def LangemuAttributes.zero : LangemuAttributes := ⟨0, 0, 0, 0, 0, 0⟩

/-- The attributes of a call of `KernelSetState`. -/
def langemuAttributes (titleId : UInt64) (varg1 : UInt32) : LangemuAttributes where
  titleId := titleId
  mask := (varg1 &&& 0xf).toUInt8
  region := ((varg1 >>> 4) &&& 0xf).toUInt8
  language := (varg1 >>> 8).toUInt8
  country := (varg1 >>> 16).toUInt8
  state := (varg1 >>> 24).toUInt8

/-- `processLangemuAttributes`. -/
abbrev LangemuTable := Nat → LangemuAttributes

/-- The length of `processLangemuAttributes`. -/
def maxLangemu : Nat := 0x40

/-- `KernelSetState` of type 0x10001; none for its error. -/
def registerLangemu (table : LangemuTable) (titleId : UInt64) (varg1 : UInt32) : Option LangemuTable :=
  ((List.range maxLangemu).find? fun i => (table i).titleId = 0).map fun i =>
    Function.update table i (langemuAttributes titleId varg1)

/-- The loop of `doLangEmu`: the last entry of a title. -/
def lookupLangemu (table : LangemuTable) (titleId : UInt64) : Option LangemuAttributes :=
  (List.range maxLangemu).foldl (fun attribs i => if (table i).titleId = titleId then some (table i) else attribs) none

/-! ## Requests -/

/-- A command buffer, and the memory of the process. -/
structure CfgRequest where
  cmdbuf : Nat → UInt32
  mem : Memory UInt8

/-- `SecureInfoGetRegion`, by its headers for the three services. -/
def isRegionRequest (header : UInt32) : Bool := header = 0x20000 || header = 0x4060000 || header = 0x8160000

/-- The words behind the header are those of a request for the language. -/
def CfgRequest.asksLanguage (r : CfgRequest) : Bool := r.cmdbuf 1 = 1 && r.cmdbuf 2 = 0xA0002 && r.cmdbuf 3 = 0x1C

/-- The words behind the header are those of a request for the country. -/
def CfgRequest.asksCountry (r : CfgRequest) : Bool := r.cmdbuf 1 = 4 && r.cmdbuf 2 = 0xB0000 && r.cmdbuf 3 = 0x4C

/-- The address `(u8 *)cmdbuf[4] + k`. -/
def CfgRequest.pointer (r : CfgRequest) (k : Nat) : Nat := (r.cmdbuf 4 + UInt32.ofNat k).toNat

def CfgRequest.setWord (r : CfgRequest) (i : Nat) (word : UInt32) : CfgRequest :=
  { r with cmdbuf := Function.update r.cmdbuf i word }

/-- `((u8 *)cmdbuf[4])[k] = byte`. -/
def CfgRequest.setByte (r : CfgRequest) (k : Nat) (byte : UInt8) : CfgRequest :=
  { r with mem := Function.update r.mem (r.pointer k) byte }

/-- A request is answered by attributes, or none. -/
def answerCfg (attribs : LangemuAttributes) (r : CfgRequest) : Option CfgRequest :=
  if isRegionRequest (r.cmdbuf 0) ∧ attribs.mask &&& 1 ≠ 0 then
    some (((r.setWord 0 ((r.cmdbuf 0 &&& 0xFFFF0000) ||| 0x80)).setWord 1 0).setWord 2 attribs.region.toUInt32)
  else if r.asksLanguage ∧ attribs.mask &&& 2 ≠ 0 then
    some (((r.setWord 0 ((r.cmdbuf 0 &&& 0xFFFF0000) ||| 0x40)).setWord 1 0).setByte 0 attribs.language)
  else if r.asksCountry ∧ attribs.mask &&& 0xC ≠ 0 then
    let r := if attribs.mask &&& 4 ≠ 0 then r.setByte 3 attribs.country else r
    let r := if attribs.mask &&& 8 ≠ 0 then r.setByte 2 attribs.state else r
    some ((r.setByte 1 0).setByte 0 0)
  else none

/-- `doLangEmu`, of a process of a title; none when the service is to answer, with the request as it is. -/
def doLangEmu (table : LangemuTable) (titleId : UInt64) (r : CfgRequest) : Option CfgRequest :=
  (lookupLangemu table titleId).bind fun attribs => answerCfg attribs r

/-! ## What a reply is -/

/-- A reply to a request, with the emulated values: the command id of the request with the number of words, the result 0,
and the value in the third word or in the buffer of the request. -/
def IsReply (attribs : LangemuAttributes) (request reply : CfgRequest) : Prop :=
  reply.cmdbuf 1 = 0 ∧
    if isRegionRequest (request.cmdbuf 0) then
      reply.cmdbuf 0 = (request.cmdbuf 0 &&& 0xFFFF0000) ||| 0x80 ∧ reply.cmdbuf 2 = attribs.region.toUInt32
    else
      reply.cmdbuf 0 = (request.cmdbuf 0 &&& 0xFFFF0000) ||| 0x40 ∧
        if request.asksLanguage then reply.mem (request.pointer 0) = attribs.language
        else (attribs.mask &&& 4 ≠ 0 → reply.mem (request.pointer 3) = attribs.country) ∧
          (attribs.mask &&& 8 ≠ 0 → reply.mem (request.pointer 2) = attribs.state)

/-- A request for the country is not answered, and one for the region is not answered by the language that words left
behind its header ask for. -/
def RequestFits (attribs : LangemuAttributes) (r : CfgRequest) : Prop :=
  isRegionRequest (r.cmdbuf 0) ∧ attribs.mask &&& 1 ≠ 0 ∨
    (r.asksCountry = true → attribs.mask &&& 0xC = 0) ∧
      (r.asksLanguage = true → isRegionRequest (r.cmdbuf 0) = true → attribs.mask &&& 2 = 0)

theorem asksCountry_not_language {r : CfgRequest} (h : r.asksCountry = true) : r.asksLanguage = false := by
  unfold CfgRequest.asksCountry at h
  unfold CfgRequest.asksLanguage
  simp only [Bool.and_eq_true, decide_eq_true_eq] at h
  rw [h.1.1]
  rfl

/-- The words of a request for the country are left as they are. -/
theorem answerCfg_country {attribs : LangemuAttributes} {r : CfgRequest} (hcountry : r.asksCountry = true)
    (hmask : attribs.mask &&& 0xC ≠ 0) (hregion : ¬ (isRegionRequest (r.cmdbuf 0) = true ∧ attribs.mask &&& 1 ≠ 0)) :
    ∃ reply, answerCfg attribs r = some reply ∧ reply.cmdbuf = r.cmdbuf := by
  unfold answerCfg
  rw [if_neg hregion, if_neg (fun hlanguage => ?_), if_pos ⟨hcountry, hmask⟩]
  · refine ⟨_, rfl, ?_⟩
    dsimp only [CfgRequest.setByte]
    split_ifs <;> rfl
  · rw [asksCountry_not_language hcountry] at hlanguage
    exact Bool.false_ne_true hlanguage.1

theorem answerCfg_region {attribs : LangemuAttributes} {r : CfgRequest}
    (h : isRegionRequest (r.cmdbuf 0) = true ∧ attribs.mask &&& 1 ≠ 0) : answerCfg attribs r =
      some (((r.setWord 0 ((r.cmdbuf 0 &&& 0xFFFF0000) ||| 0x80)).setWord 1 0).setWord 2 attribs.region.toUInt32) := if_pos h

theorem answerCfg_language {attribs : LangemuAttributes} {r : CfgRequest}
    (hregion : ¬ (isRegionRequest (r.cmdbuf 0) = true ∧ attribs.mask &&& 1 ≠ 0))
    (h : r.asksLanguage = true ∧ attribs.mask &&& 2 ≠ 0) : answerCfg attribs r =
      some (((r.setWord 0 ((r.cmdbuf 0 &&& 0xFFFF0000) ||| 0x40)).setWord 1 0).setByte 0 attribs.language) := by
  unfold answerCfg
  rw [if_neg hregion, if_pos h]

theorem isReply_region {attribs : LangemuAttributes} {r reply : CfgRequest}
    (h : isRegionRequest (r.cmdbuf 0) = true ∧ attribs.mask &&& 1 ≠ 0) (hanswer : answerCfg attribs r = some reply) :
    IsReply attribs r reply := by
  rw [answerCfg_region h] at hanswer
  obtain rfl := Option.some.inj hanswer
  refine ⟨rfl, ?_⟩
  rw [if_pos h.1]
  exact ⟨rfl, rfl⟩

/-- The reply to a request for the region has one word more. -/
theorem region_header_ne {header : UInt32} (h : isRegionRequest header = true) :
    (header &&& 0xFFFF0000) ||| 0x40 ≠ (header &&& 0xFFFF0000) ||| 0x80 := by
  simp only [isRegionRequest, Bool.or_eq_true, decide_eq_true_eq] at h
  rcases h with (rfl | rfl) | rfl <;> decide

/-- What is answered is a reply exactly if the request fits. -/
theorem isReply_iff (attribs : LangemuAttributes) (r : CfgRequest) :
    (∀ reply, answerCfg attribs r = some reply → IsReply attribs r reply) ↔ RequestFits attribs r := by
  constructor
  · intro hreplies
    by_cases hregion : isRegionRequest (r.cmdbuf 0) = true ∧ attribs.mask &&& 1 ≠ 0
    · exact .inl hregion
    right
    constructor
    · intro hcountry
      by_contra hmask
      obtain ⟨reply, hanswer, hcmdbuf⟩ := answerCfg_country hcountry hmask hregion
      have hresult := (hreplies reply hanswer).1
      rw [hcmdbuf] at hresult
      unfold CfgRequest.asksCountry at hcountry
      simp only [Bool.and_eq_true, decide_eq_true_eq] at hcountry
      rw [hcountry.1.1] at hresult
      cases hresult
    · intro hlanguage hheader
      by_contra hmask
      have hreply := (hreplies _ (answerCfg_language hregion ⟨hlanguage, hmask⟩)).2
      rw [if_pos hheader] at hreply
      exact region_header_ne hheader hreply.1
  · intro hfits reply hanswer
    by_cases hregion : isRegionRequest (r.cmdbuf 0) = true ∧ attribs.mask &&& 1 ≠ 0
    · exact isReply_region hregion hanswer
    obtain ⟨hcountry, hlanguage⟩ := hfits.resolve_left hregion
    by_cases hasks : r.asksLanguage = true ∧ attribs.mask &&& 2 ≠ 0
    · rw [answerCfg_language hregion hasks] at hanswer
      obtain rfl := Option.some.inj hanswer
      have hheader : ¬ isRegionRequest (r.cmdbuf 0) = true := fun hheader => hasks.2 (hlanguage hasks.1 hheader)
      refine ⟨rfl, ?_⟩
      rw [if_neg hheader, if_pos hasks.1]
      exact ⟨rfl, Function.update_self ..⟩
    · unfold answerCfg at hanswer
      rw [if_neg hregion, if_neg hasks, if_neg fun hcond => hcond.2 (hcountry hcond.1)] at hanswer
      cases hanswer

/-! ## Runs -/

/-- The table, and the attributes that have been registered, the first one first. -/
structure LangemuRun where
  table : LangemuTable
  registered : List LangemuAttributes

def LangemuRun.init : LangemuRun := ⟨fun _ => .zero, []⟩

/-- A registration, by `varg2`, `varg3` and `varg1` of its call. -/
structure Registration where
  titleId : UInt64
  varg1 : UInt32

/-- A registration that fails leaves the table as it is. -/
def LangemuRun.step (s : LangemuRun) (input : Registration) : LangemuRun where
  table := (registerLangemu s.table input.titleId input.varg1).getD s.table
  registered := s.registered ++ [langemuAttributes input.titleId input.varg1]

/-- The last attributes registered for a title. -/
def LangemuRun.last (s : LangemuRun) (titleId : UInt64) : Option LangemuAttributes :=
  (s.registered.filter fun attribs => attribs.titleId = titleId).getLast?

/-- A registration is of a title, and comes while there is room. -/
def LangemuRun.Fits (s : LangemuRun) (input : Registration) : Prop :=
  input.titleId ≠ 0 ∧ s.registered.length < maxLangemu

def langemuSystem : System LangemuRun Registration :=
  .guarded (· = .init) (fun _ _ => True) fun s input => some (s.step input)

/-- Requests are answered by the last attributes registered for the title, or not; and what is answered is a reply
exactly if the request fits. -/
structure LangemuRun.Emulated (s : LangemuRun) : Prop where
  answer : ∀ titleId r, doLangEmu s.table titleId r = (s.last titleId).bind fun attribs => answerCfg attribs r
  reply : ∀ titleId attribs, s.last titleId = some attribs → ∀ r,
    (∀ reply, doLangEmu s.table titleId r = some reply → IsReply attribs r reply) ↔ RequestFits attribs r

/-! ### The table -/

/-- A loop that remembers the last that meets a condition. -/
theorem foldl_last {α : Type*} (p : α → Prop) [DecidablePred p] (l : List α) (init : Option α) :
    l.foldl (fun acc x => if p x then some x else acc) init = (l.filter p).getLast?.or init := by
  induction l generalizing init with
  | nil => rfl
  | cons x l ih =>
    rw [List.foldl_cons, ih]
    by_cases hx : p x
    · have hkeep : (x :: l).filter (fun b => p b) = x :: l.filter fun b => p b := List.filter_cons_of_pos (by simpa using hx)
      rw [if_pos hx, hkeep, List.getLast?_cons]
      cases (l.filter fun b => p b).getLast? <;> rfl
    · have hdrop : (x :: l).filter (fun b => p b) = l.filter fun b => p b := List.filter_cons_of_neg (by simpa using hx)
      rw [if_neg hx, hdrop]

theorem lookupLangemu_eq (table : LangemuTable) (titleId : UInt64) : lookupLangemu table titleId =
    (((List.range maxLangemu).map table).filter fun attribs => attribs.titleId = titleId).getLast? := by
  have hloop := foldl_last (fun attribs : LangemuAttributes => attribs.titleId = titleId)
    ((List.range maxLangemu).map table) none
  rw [List.foldl_map, Option.or_none] at hloop
  exact hloop

/-- Attributes without a mask answer nothing. -/
theorem answerCfg_zero (r : CfgRequest) : answerCfg .zero r = none := by
  have hmask : ∀ bits, ¬ LangemuAttributes.zero.mask &&& bits ≠ 0 := by
    intro bits hne
    exact hne UInt8.zero_and
  unfold answerCfg
  rw [if_neg fun h => hmask _ h.2, if_neg fun h => hmask _ h.2, if_neg fun h => hmask _ h.2]

namespace LangemuRun

variable {s : LangemuRun}

/-- The table is what has been registered, followed by free entries. -/
structure Good (s : LangemuRun) : Prop where
  size : s.registered.length ≤ maxLangemu
  table : ∀ i, s.table i = s.registered[i]?.getD .zero
  titles : ∀ attribs ∈ s.registered, attribs.titleId ≠ 0

theorem Good.map_table (h : s.Good) : (List.range maxLangemu).map s.table =
    s.registered ++ List.replicate (maxLangemu - s.registered.length) .zero := by
  have hsize := h.size
  apply List.ext_getElem
  · simp
    omega
  · intro i hi hi'
    rw [List.getElem_map, List.getElem_range, h.table i]
    rcases Nat.lt_or_ge i s.registered.length with hlt | hge
    · rw [List.getElem_append_left hlt, List.getElem?_eq_getElem hlt]
      rfl
    · rw [List.getElem_append_right hge, List.getElem?_eq_none hge, List.getElem_replicate]
      rfl

theorem Good.answer (h : s.Good) (titleId : UInt64) (r : CfgRequest) :
    doLangEmu s.table titleId r = (s.last titleId).bind fun attribs => answerCfg attribs r := by
  unfold doLangEmu last
  rw [lookupLangemu_eq, h.map_table, List.filter_append]
  by_cases hzero : titleId = 0
  · -- no title: what is found is a free entry, if anything
    subst hzero
    have hnone : s.registered.filter (fun attribs => attribs.titleId = 0) = [] := by
      apply List.filter_eq_nil_iff.mpr
      intro attribs hmem
      simpa using h.titles attribs hmem
    rw [hnone, List.nil_append]
    cases hlast : ((List.replicate (maxLangemu - s.registered.length) LangemuAttributes.zero).filter
        fun attribs => attribs.titleId = 0).getLast? with
    | none => rfl
    | some attribs =>
      have hmem := List.mem_of_mem_filter (List.mem_of_getLast? hlast)
      rw [List.eq_of_mem_replicate hmem]
      exact answerCfg_zero r
  · have hfree : (List.replicate (maxLangemu - s.registered.length) LangemuAttributes.zero).filter
        (fun attribs => attribs.titleId = titleId) = [] := by
      apply List.filter_eq_nil_iff.mpr
      intro attribs hmem
      rw [List.eq_of_mem_replicate hmem]
      exact fun heq => hzero (of_decide_eq_true heq).symm
    rw [hfree, List.append_nil]

theorem Good.register (h : s.Good) {input : Registration} (hfits : s.Fits input) : (s.step input).Good := by
  obtain ⟨htitle, hroom⟩ := hfits
  have hfind : (List.range maxLangemu).find? (fun i => (s.table i).titleId = 0) = some s.registered.length := by
    rw [List.find?_range_eq_some]
    refine ⟨?_, List.mem_range.mpr hroom, fun i hi => ?_⟩
    · rw [h.table, List.getElem?_eq_none le_rfl]
      rfl
    · rw [h.table i, List.getElem?_eq_getElem hi]
      simpa using h.titles _ (List.getElem_mem hi)
  have htable : (s.step input).table =
      Function.update s.table s.registered.length (langemuAttributes input.titleId input.varg1) := by
    show (registerLangemu s.table input.titleId input.varg1).getD s.table = _
    unfold registerLangemu
    rw [hfind]
    rfl
  refine ⟨?_, fun i => ?_, fun attribs hmem => ?_⟩
  · show (s.registered ++ [_]).length ≤ maxLangemu
    rw [List.length_append, List.length_singleton]
    omega
  · rw [htable]
    show _ = (s.registered ++ [_])[i]?.getD .zero
    rcases eq_or_ne i s.registered.length with rfl | hne
    · rw [Function.update_self, List.getElem?_concat_length]
      rfl
    · rw [Function.update_of_ne hne, h.table i]
      rcases Nat.lt_or_ge i s.registered.length with hlt | hge
      · rw [List.getElem?_append_left hlt]
      · rw [List.getElem?_eq_none hge, List.getElem?_eq_none]
        rw [List.length_append, List.length_singleton]
        omega
  · rcases List.mem_append.mp hmem with hold | hnew
    · exact h.titles attribs hold
    · rw [List.mem_singleton.mp hnew]
      exact htitle

end LangemuRun

/-- In every run whose registrations fit, requests are emulated. -/
theorem requests_emulated (s : LangemuRun) (h : (langemuSystem.restrict LangemuRun.Fits).Reachable s) : s.Emulated := by
  have hgood : s.Good := by
    refine System.Reachable.invariant (S := langemuSystem.restrict LangemuRun.Fits) (J := LangemuRun.Good) ?_
      (fun s input s' _ hs hstep => ?_) h
    · rintro s rfl
      exact ⟨Nat.zero_le _, fun _ => rfl, nofun⟩
    · obtain ⟨hfits, -, hok⟩ := hstep
      obtain rfl := Option.some.inj hok
      exact hs.register hfits
  refine ⟨hgood.answer, fun titleId attribs hlast r => ?_⟩
  rw [← isReply_iff, hgood.answer, hlast]
  rfl

/-! ## A request that is answered, and one that is not -/

/-- A buffer with a header and four words, of a process whose memory is zero. -/
def cfgRequest (header size block : UInt32) (descriptor pointer : UInt32) : CfgRequest where
  cmdbuf := fun i => [header, size, block, descriptor, pointer].getD i 0
  mem := fun _ => 0

/-- The language of a title is emulated. -/
theorem language_emulated : ∃ s : LangemuRun, s.Emulated ∧
    (doLangEmu s.table 0x4000000030800 (cfgRequest 0x10082 1 0xA0002 0x1C 0x8000000)).map
      (fun reply => (reply.cmdbuf 0, reply.cmdbuf 1, reply.mem 0x8000000)) = some (0x10040, 0, 5) := by
  have hinit : (langemuSystem.restrict LangemuRun.Fits).Reachable .init := .init rfl
  have hfits : LangemuRun.init.Fits ⟨0x4000000030800, 0x502⟩ := ⟨by decide, by decide⟩
  exact ⟨_, requests_emulated _ (hinit.step ⟨hfits, trivial, rfl⟩), by decide +kernel⟩

/-- The country of a title is emulated, and the reply is the request with its size for the result. -/
theorem country_reply_is_request : ∃ s reply, langemuSystem.Reachable s ∧
    doLangEmu s.table 0x4000000030800 (cfgRequest 0x10082 4 0xB0000 0x4C 0x8000000) = some reply ∧
    reply.cmdbuf 0 = 0x10082 ∧ reply.cmdbuf 1 = 4 ∧
    ∀ attribs, ¬ IsReply attribs (cfgRequest 0x10082 4 0xB0000 0x4C 0x8000000) reply := by
  have hinit : langemuSystem.Reachable .init := .init rfl
  have hstep : langemuSystem.step .init ⟨0x4000000030800, 0x20004⟩ (LangemuRun.init.step ⟨0x4000000030800, 0x20004⟩) :=
    ⟨trivial, rfl⟩
  have hanswer : (doLangEmu (LangemuRun.init.step ⟨0x4000000030800, 0x20004⟩).table 0x4000000030800
      (cfgRequest 0x10082 4 0xB0000 0x4C 0x8000000)).map (fun reply => (reply.cmdbuf 0, reply.cmdbuf 1)) = some (0x10082, 4) := by
    decide +kernel
  obtain ⟨reply, hreply, hwords⟩ := Option.map_eq_some_iff.mp hanswer
  obtain ⟨hheader, hresult⟩ := Prod.mk.inj hwords
  refine ⟨_, reply, hinit.step hstep, hreply, hheader, hresult, fun attribs hisReply => ?_⟩
  rw [hisReply.1] at hresult
  cases hresult

end Omiiba.K11
