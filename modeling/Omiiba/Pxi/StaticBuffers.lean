/-
The static buffers of PXI over every run of its threads: each is free, provided to the kernel or used by one session.
Four are provided whenever commands come only while at most 17 are used; all sessions together use 21.
-/
import Omiiba.Pxi.Replies
import Omiiba.Lib.Bits

namespace Omiiba.Pxi

open Bits PxiRun

/-! ## Positions -/

/-- The static buffers that the bits of a word stand for. -/
def buffersOf (val : UInt32) : List Nat := positions val.toBitVec

theorem getMSBPosition_eq (val : UInt32) : getMSBPosition val = (buffersOf val).getLast? :=
  find?_range_reverse_eq_getLast? val.toBitVec

theorem getLSBPosition_eq (val : UInt32) : getLSBPosition val = (buffersOf val).head? :=
  find?_range_eq_head? val.toBitVec

theorem toBitVec_shift {pos : Nat} (hpos : pos < 32) :
    ((1 : UInt32) <<< pos.toUInt32).toBitVec = BitVec.twoPow 32 pos := by
  have hcount : (pos.toUInt32 : UInt32).toBitVec % 32 = BitVec.ofNat 32 pos := by
    apply BitVec.eq_of_toNat_eq
    simp only [BitVec.toNat_umod, UInt32.toNat_toBitVec, BitVec.toNat_ofNat]
    have hnat : (pos.toUInt32 : UInt32).toNat = pos := Nat.mod_eq_of_lt (by omega)
    rw [hnat]
    show pos % 32 = pos % 2 ^ 32
    omega
  rw [UInt32.toBitVec_shiftLeft, hcount, BitVec.shiftLeft_eq', BitVec.toNat_ofNat, Nat.mod_eq_of_lt (by omega)]
  rfl

theorem getLsbD_clearBit (val : UInt32) {pos : Nat} (hpos : pos < 32) (b : Nat) :
    (clearBit val pos).toBitVec.getLsbD b = (val.toBitVec.getLsbD b && decide (b ≠ pos)) := by
  unfold clearBit
  rw [UInt32.toBitVec_and, UInt32.toBitVec_not, toBitVec_shift hpos, BitVec.getLsbD_and, BitVec.getLsbD_not,
    BitVec.getLsbD_twoPow]
  by_cases hb : b < 32
  · simp [hb, hpos, eq_comm]
  · rw [BitVec.getLsbD_of_ge _ _ (by omega), Bool.false_and, Bool.false_and]

/-- The highest bits are cleared first. -/
theorem buffersOf_clearMSBs (nb : Nat) (val : UInt32) :
    buffersOf (clearMSBs val nb) = (buffersOf val).take ((buffersOf val).length - nb) := by
  induction nb generalizing val with
  | zero => rw [Nat.sub_zero, List.take_length, clearMSBs]
  | succ nb ih =>
    unfold clearMSBs
    rw [getMSBPosition_eq]
    rcases List.eq_nil_or_concat (buffersOf val) with hnil | ⟨init, last, hlast⟩
    · simp [hnil]
    · have hmem : last ∈ buffersOf val := by simp [hlast]
      have hclear : buffersOf (clearBit val last) = init :=
        positions_of_last (hlast.trans (by simp)) (getLsbD_clearBit val (List.mem_range.mp (List.mem_of_mem_filter hmem)))
      rw [hlast]
      simp only [List.concat_eq_append, List.getLast?_concat]
      rw [ih, hclear, List.length_append, List.length_singleton, Nat.add_sub_add_right]
      exact (List.take_append_of_le_length (Nat.sub_le _ _)).symm

/-- The descriptors list the buffers from the lowest on. -/
theorem staticBufsOf_eq (n : Nat) (val : UInt32) (h : (buffersOf val).length = n) :
    staticBufsOf val n = (buffersOf val).map some := by
  induction n generalizing val with
  | zero =>
    rw [List.length_eq_zero_iff.mp h]
    rfl
  | succ n ih =>
    obtain ⟨first, rest, hfirst⟩ := List.exists_cons_of_length_eq_add_one h
    have hmem : first ∈ buffersOf val := by simp [hfirst]
    have hclear : buffersOf (clearBit val first) = rest :=
      positions_of_head hfirst (getLsbD_clearBit val (List.mem_range.mp (List.mem_of_mem_filter hmem)))
    unfold staticBufsOf
    rw [getLSBPosition_eq, hfirst, List.head?_cons]
    simp only [List.map_cons, List.cons.injEq, true_and]
    rw [ih, hclear]
    rw [hclear]
    rw [hfirst] at h
    exact Nat.succ.inj h

theorem getLsbD_taken (src val : UInt32) (b : Nat) :
    (~~~val &&& src).toBitVec.getLsbD b = (src.toBitVec.getLsbD b && !val.toBitVec.getLsbD b) := by
  simp only [UInt32.toBitVec_and, UInt32.toBitVec_not, BitVec.getLsbD_and, BitVec.getLsbD_not]
  by_cases hb : b < 32
  · simp [hb, Bool.and_comm]
  · simp [BitVec.getLsbD_of_ge src.toBitVec b (by omega)]

/-- What is cleared is the end of the list. -/
theorem buffersOf_taken (nb : Nat) (src : UInt32) :
    buffersOf (~~~clearMSBs src nb &&& src) = (buffersOf src).drop ((buffersOf src).length - nb) :=
  positions_of_taken (buffersOf_clearMSBs nb src) (getLsbD_taken src (clearMSBs src nb))

theorem of_getLsbD_clearMSBs {src : UInt32} {nb b : Nat} (h : (clearMSBs src nb).toBitVec.getLsbD b = true) :
    src.toBitVec.getLsbD b = true := by
  have hmem : b ∈ buffersOf (clearMSBs src nb) := mem_positions.mpr h
  rw [buffersOf_clearMSBs] at hmem
  exact mem_positions.mp (List.mem_of_mem_take hmem)

/-- A word is what is left of it with what is taken from it. -/
theorem bit_clearMSBs (src : UInt32) (nb b : Nat) :
    bit src.toBitVec b = bit (clearMSBs src nb).toBitVec b + bit (~~~clearMSBs src nb &&& src).toBitVec b :=
  bit_sub of_getLsbD_clearMSBs (getLsbD_taken src (clearMSBs src nb) b)

theorem eq_zero_of_buffersOf {val : UInt32} (h : buffersOf val = []) : val = 0 := by
  apply UInt32.toBitVec_inj.mp
  apply BitVec.eq_of_getLsbD_eq
  intro pos _
  cases hpos : val.toBitVec.getLsbD pos with
  | true =>
    have hmem : pos ∈ buffersOf val := mem_positions.mpr hpos
    rw [h] at hmem
    cases hmem
  | false => simp

@[simp] theorem bit_zero (pos : Nat) : bit (0 : UInt32).toBitVec pos = 0 := by
  unfold bit
  simp

@[simp] theorem buffersOf_zero : buffersOf 0 = [] := by decide

theorem and_eq_zero {v v' : UInt32} (h : ∀ pos, bit v.toBitVec pos + bit v'.toBitVec pos ≤ 1) : v &&& v' = 0 := by
  apply eq_zero_of_buffersOf
  apply List.eq_nil_iff_forall_not_mem.mpr
  intro pos hpos
  have hboth := mem_positions.mp hpos
  rw [UInt32.toBitVec_and, BitVec.getLsbD_and, Bool.and_eq_true, ← bit_eq_one_iff, ← bit_eq_one_iff] at hboth
  have hle := h pos
  omega

/-! ## Buffers -/

/-- The static buffers of a state, with the sessions that are not idle. -/
structure Buffers where
  free : UInt32
  provided : UInt32
  staticBufs : List (Option Nat)
  used : Fin 9 → UInt32
  busy : Fin 9 → Bool
  arrival : Fin 9 → List (Option Nat)

def PxiRun.buffers (s : PxiRun) : Buffers where
  free := s.freeStaticBuffers
  provided := s.currentlyProvidedStaticBuffers
  staticBufs := s.staticBufs
  used i := (s.sessionData i).usedStaticBuffers
  busy i := decide ((s.sessionData i).state ≠ .idle)
  arrival := s.arrival

namespace Buffers

variable (b : Buffers)

/-- What a session keeps of the provided buffers. -/
def kept (i : Fin 9) : UInt32 := clearMSBs b.provided (4 - nbStaticBuffersByService i)

/-- What is free, with the provided buffers that a session does not keep. -/
def released (i : Fin 9) : UInt32 := b.free ||| (~~~b.kept i &&& b.provided)

/-- A command comes, and the buffers of the next one are provided. -/
def take (i : Fin 9) : Buffers :=
  let free := clearMSBs (b.released i) 4
  let provided := ~~~free &&& b.released i
  { free := free
    provided := provided
    staticBufs := staticBufsOf provided 4
    used := Function.update b.used i (b.kept i)
    busy := Function.update b.busy i true
    arrival := Function.update b.arrival i b.staticBufs }

/-- A session is idle again. -/
def give (i : Fin 9) : Buffers :=
  let val := clearMSBs (b.used i) 4
  { b with
    free := b.free ||| (~~~val &&& b.used i)
    used := Function.update b.used i val
    busy := Function.update b.busy i false }

/-- The buffers that the commands in flight keep. -/
def inUse : Nat := ∑ i, if b.busy i then nbStaticBuffersByService i else 0

/-- A command in flight has the first buffers of those that were listed when it came, an idle session has none. -/
def Holds (i : Fin 9) (used : UInt32) (busy : Bool) (arrival : List (Option Nat)) : Prop :=
  if busy then (buffersOf used).length = nbStaticBuffersByService i ∧
    (buffersOf used).map some = arrival.take (nbStaticBuffersByService i)
  else used = 0

/-- Each buffer is in one place, the sessions hold theirs, and four are provided. -/
structure Kept : Prop where
  once : ∀ pos, bit b.free.toBitVec pos + bit b.provided.toBitVec pos + ∑ i, bit (b.used i).toBitVec pos =
    if pos < 21 then 1 else 0
  holds : ∀ i, Holds i (b.used i) (b.busy i) (b.arrival i)
  four : (buffersOf b.provided).length = 4
  listed : b.staticBufs = (buffersOf b.provided).map some

variable {b} {b' : Buffers} {i : Fin 9}

/-- One session's buffers change, the others stay. -/
theorem sum_update {α : Type*} (f : α → Nat) (u : Fin 9 → α) (i : Fin 9) (a : α) :
    ∑ j, f (Function.update u i a j) + f (u i) = ∑ j, f (u j) + f a := by
  have hrest : ∀ j ∈ Finset.univ.erase i, f (Function.update u i a j) = f (u j) := by
    intro j hj
    rw [Function.update_of_ne (Finset.ne_of_mem_erase hj)]
  rw [← Finset.add_sum_erase _ _ (Finset.mem_univ i), ← Finset.add_sum_erase _ (fun j => f (u j)) (Finset.mem_univ i),
    Finset.sum_congr rfl hrest, Function.update_self]
  omega

/-- Words in which each of the 21 buffers is once have 21 buffers. -/
theorem length_of_once {free provided : UInt32} {used : Fin 9 → UInt32}
    (h : ∀ pos, bit free.toBitVec pos + bit provided.toBitVec pos + ∑ i, bit (used i).toBitVec pos =
      if pos < 21 then 1 else 0) :
    (buffersOf free).length + (buffersOf provided).length + ∑ i, (buffersOf (used i)).length = 21 := by
  have hsum : ∑ pos ∈ Finset.range 32, (bit free.toBitVec pos + bit provided.toBitVec pos +
      ∑ i, bit (used i).toBitVec pos) = 21 := by
    rw [Finset.sum_congr rfl fun pos _ => h pos]
    rfl
  rw [Finset.sum_add_distrib, Finset.sum_add_distrib, Finset.sum_comm] at hsum
  unfold buffersOf
  simp only [length_positions]
  exact hsum

theorem nbStaticBuffersByService_le (i : Fin 9) : nbStaticBuffersByService i ≤ 4 := by
  revert i
  decide

theorem Kept.sum_used (h : b.Kept) : ∑ i, (buffersOf (b.used i)).length = b.inUse := by
  apply Finset.sum_congr rfl
  intro i _
  have hholds := h.holds i
  unfold Holds at hholds
  split
  · rw [if_pos ‹_›] at hholds
    exact hholds.1
  · rw [if_neg ‹_›] at hholds
    rw [hholds]
    rfl

/-- The bits of a word that goes back to the free ones. -/
theorem bit_release {free src : UInt32} {nb pos : Nat} (h : bit free.toBitVec pos + bit src.toBitVec pos ≤ 1) :
    bit (free ||| (~~~clearMSBs src nb &&& src)).toBitVec pos + bit (clearMSBs src nb).toBitVec pos =
      bit free.toBitVec pos + bit src.toBitVec pos := by
  have hparts := bit_clearMSBs src nb pos
  have hdisjoint : ¬ (free.toBitVec.getLsbD pos = true ∧ (~~~clearMSBs src nb &&& src).toBitVec.getLsbD pos = true) := by
    rw [← bit_eq_one_iff, ← bit_eq_one_iff]
    omega
  have hor := bit_or_of_disjoint hdisjoint
  rw [UInt32.toBitVec_or, hor]
  omega

theorem Kept.le_one (h : b.Kept) (i : Fin 9) (pos : Nat) :
    bit b.free.toBitVec pos + bit b.provided.toBitVec pos + bit (b.used i).toBitVec pos ≤ 1 := by
  have honce := h.once pos
  have hle : bit (b.used i).toBitVec pos ≤ ∑ j, bit (b.used j).toBitVec pos :=
    Finset.single_le_sum (f := fun j => bit (b.used j).toBitVec pos) (fun _ _ => Nat.zero_le _) (Finset.mem_univ i)
  split at honce <;> omega

theorem Kept.give (h : b.Kept) (hbusy : b.busy i = true) : (b.give i).Kept := by
  have hholds := h.holds i
  rw [hbusy, Holds, if_pos rfl] at hholds
  have hval : clearMSBs (b.used i) 4 = 0 := by
    apply eq_zero_of_buffersOf
    rw [buffersOf_clearMSBs, hholds.1, Nat.sub_eq_zero_of_le (nbStaticBuffersByService_le i), List.take_zero]
  refine ⟨fun pos => ?_, fun j => ?_, h.four, h.listed⟩
  · have honce := h.once pos
    have hle := h.le_one i pos
    have hrelease : bit (b.free ||| (~~~clearMSBs (b.used i) 4 &&& b.used i)).toBitVec pos +
        bit (clearMSBs (b.used i) 4).toBitVec pos = _ := bit_release (by omega)
    have hsum := sum_update (fun v : UInt32 => bit v.toBitVec pos) b.used i (clearMSBs (b.used i) 4)
    simp only [Buffers.give]
    omega
  · simp only [Buffers.give]
    rcases eq_or_ne j i with rfl | hne
    · simp only [Function.update_self, hval]
      rfl
    · simp only [Function.update_of_ne hne]
      exact h.holds j

/-- With at most 17 buffers in use after a command, four are left to be provided. -/
theorem Kept.take (h : b.Kept) (hidle : b.busy i = false) (hfits : nbStaticBuffersByService i + b.inUse ≤ 17) :
    (b.take i).Kept := by
  have hholds := h.holds i
  rw [hidle, Holds, if_neg Bool.false_ne_true] at hholds
  have hle := nbStaticBuffersByService_le i
  have hkept : buffersOf (b.kept i) = (buffersOf b.provided).take (nbStaticBuffersByService i) := by
    unfold kept
    rw [buffersOf_clearMSBs, h.four, Nat.sub_sub_self hle]
  have hlength : (buffersOf (b.kept i)).length = nbStaticBuffersByService i := by
    rw [hkept, List.length_take, h.four, Nat.min_eq_left hle]
  have honce : ∀ pos, bit (b.released i).toBitVec pos +
      ∑ j, bit (Function.update b.used i (b.kept i) j).toBitVec pos = if pos < 21 then 1 else 0 := by
    intro pos
    have hone := h.le_one i pos
    have hbefore := h.once pos
    have hrelease : bit (b.released i).toBitVec pos + bit (b.kept i).toBitVec pos = _ := bit_release (by omega)
    have hsum := sum_update (fun v : UInt32 => bit v.toBitVec pos) b.used i (b.kept i)
    rw [hholds, bit_zero] at hsum
    omega
  have hroom : 4 ≤ (buffersOf (b.released i)).length := by
    have hcount : (buffersOf (b.released i)).length + (buffersOf 0).length +
        ∑ j, (buffersOf (Function.update b.used i (b.kept i) j)).length = 21 :=
      length_of_once fun pos => by rw [bit_zero, Nat.add_zero, honce pos]
    have hsum := sum_update (fun v : UInt32 => (buffersOf v).length) b.used i (b.kept i)
    rw [hholds, h.sum_used] at hsum
    simp only [buffersOf_zero, List.length_nil] at hcount hsum
    omega
  have hfour : (buffersOf (b.take i).provided).length = 4 := by
    simp only [Buffers.take]
    rw [buffersOf_taken, List.length_drop]
    omega
  refine ⟨fun pos => ?_, fun j => ?_, hfour, staticBufsOf_eq 4 _ hfour⟩
  · have hparts := bit_clearMSBs (b.released i) 4 pos
    rw [← honce pos, hparts]
    rfl
  · simp only [Buffers.take]
    rcases eq_or_ne j i with rfl | hne
    · simp only [Function.update_self]
      refine ⟨hlength, ?_⟩
      rw [hkept, h.listed, List.map_take]
    · simp only [Function.update_of_ne hne]
      exact h.holds j

end Buffers

/-! ## The threads -/

namespace PxiRun

variable {s s' : PxiRun} {i : Fin 9}

@[simp] theorem buffers_turn (s : PxiRun) : s.turn.buffers = s.buffers := by
  unfold turn
  split <;> rfl

/-- A session changes, and what it has of the buffers is as before. -/
theorem buffers_update {session : Session} (hsession : s'.sessionData = Function.update s.sessionData i session)
    (hfree : s'.freeStaticBuffers = s.freeStaticBuffers)
    (hprovided : s'.currentlyProvidedStaticBuffers = s.currentlyProvidedStaticBuffers)
    (hlisted : s'.staticBufs = s.staticBufs) (harrival : s'.arrival = s.arrival)
    (hused : session.usedStaticBuffers = (s.sessionData i).usedStaticBuffers)
    (hidle : session.state = .idle ↔ (s.sessionData i).state = .idle) : s'.buffers = s.buffers := by
  have hboth : ∀ j, (s'.sessionData j).usedStaticBuffers = (s.sessionData j).usedStaticBuffers ∧
      ((s'.sessionData j).state = .idle ↔ (s.sessionData j).state = .idle) := by
    intro j
    rw [hsession]
    rcases eq_or_ne j i with rfl | hne
    · rw [Function.update_self]
      exact ⟨hused, hidle⟩
    · rw [Function.update_of_ne hne]
      exact ⟨rfl, Iff.rfl⟩
  unfold buffers
  simp only [(hboth _).1, ne_eq, (hboth _).2, hfree, hprovided, hlisted, harrival]

theorem buffers_sendOne (s : PxiRun) (i : Fin 9) : (s.sendOne i).buffers = s.buffers := by
  unfold sendOne
  split
  · rfl
  · rename_i hgo
    have hwaits : s.waits i = true := by
      cases hw : s.waits i with
      | true => rfl
      | false => simp [hw] at hgo
    refine buffers_update rfl rfl rfl rfl rfl rfl ?_
    rw [(waits_iff.mp hwaits).2]
    exact ⟨nofun, nofun⟩

theorem buffers_closeSession (s : PxiRun) (i : Fin 9) : (s.closeSession i).buffers = s.buffers := by
  unfold closeSession
  rw [buffers_turn]
  exact buffers_update rfl rfl rfl rfl rfl rfl Iff.rfl

theorem buffers_acceptSession (h : s.acceptSession i = .ok s') : s'.buffers = s.buffers := by
  unfold acceptSession at h
  split at h
  · cases h
  · obtain rfl := Except.ok.inj h
    exact buffers_update rfl rfl rfl rfl rfl rfl Iff.rfl

theorem buffers_receiveFromArm9 {reply : Message} (h : s.receiveFromArm9 i reply = .ok s') : s'.buffers = s.buffers := by
  unfold receiveFromArm9 at h
  split at h
  · cases h
  rename_i hstate
  split at h
  · cases h
  obtain rfl := Except.ok.inj h
  refine buffers_update rfl rfl rfl rfl rfl rfl ?_
  rw [not_not.mp hstate]
  exact ⟨nofun, nofun⟩

/-- A session changes, with the buffers it has. -/
theorem buffers_eq {session : Session} (hsession : s'.sessionData = Function.update s.sessionData i session) :
    s'.buffers = {
      free := s'.freeStaticBuffers
      provided := s'.currentlyProvidedStaticBuffers
      staticBufs := s'.staticBufs
      used := Function.update s.buffers.used i session.usedStaticBuffers
      busy := Function.update s.buffers.busy i (decide (session.state ≠ .idle))
      arrival := s'.arrival } := by
  have hused : s'.buffers.used = Function.update s.buffers.used i session.usedStaticBuffers := by
    funext j
    show (s'.sessionData j).usedStaticBuffers = _
    rw [hsession]
    rcases eq_or_ne j i with rfl | hne
    · rw [Function.update_self, Function.update_self]
    · rw [Function.update_of_ne hne, Function.update_of_ne hne]
      rfl
  have hbusy : s'.buffers.busy = Function.update s.buffers.busy i (decide (session.state ≠ .idle)) := by
    funext j
    show decide ((s'.sessionData j).state ≠ .idle) = _
    rw [hsession]
    rcases eq_or_ne j i with rfl | hne
    · rw [Function.update_self, Function.update_self]
    · rw [Function.update_of_ne hne, Function.update_of_ne hne]
      rfl
  rw [← hused, ← hbusy]
  rfl

theorem buffers_giveReply (s : PxiRun) (i : Fin 9) : (s.giveReply i).buffers = s.buffers.give i := by
  have hsession : (s.giveReply i).sessionData = Function.update s.sessionData i { s.sessionData i with
      usedStaticBuffers := clearMSBs (s.sessionData i).usedStaticBuffers 4, state := .idle } := by
    simp [giveReply, releaseUsed, setSession]
  exact buffers_eq hsession

theorem buffers_takeCommand (s : PxiRun) (client i : Fin 9) (message : Message) :
    (s.takeCommand client i message).buffers = s.buffers.take i := by
  have hsession : (s.takeCommand client i message).sessionData = Function.update s.sessionData i { s.sessionData i with
      buffer := message
      state := .receivedFromArm11
      usedStaticBuffers := s.buffers.kept i } := by
    simp [takeCommand, acquireStaticBuffers, releaseProvided, setSession, Buffers.kept, buffers]
  exact buffers_eq hsession

theorem buffers_arm9Reply (h : s.arm9Reply i = .ok s') : s'.buffers = s.buffers.give i := by
  unfold arm9Reply at h
  split at h
  · cases h
  split at h
  · cases h
  obtain rfl := Except.ok.inj h
  rw [buffers_turn, buffers_giveReply]
  rfl

theorem buffers_arm11Command {client : Fin 9} {message : Message} {arg : UInt32}
    (h : s.arm11Command client i message arg = .ok s') :
    (s.sessionData i).state = .idle ∧ s'.buffers = s.buffers.take i := by
  unfold arm11Command at h
  split at h
  · cases h
  rename_i hstate
  split at h
  · cases h
  rename_i s₁ hpass
  split at h
  · cases h
  obtain rfl := Except.ok.inj h
  have hsame : s₁.buffers = s.buffers := by
    rw [passCommand_eq hpass]
    rfl
  rw [buffers_turn, buffers_takeCommand, hsame]
  exact ⟨not_not.mp hstate, rfl⟩

/-- The buffers that the commands in flight keep. -/
def inUse (s : PxiRun) : Nat := ∑ i, if (s.sessionData i).state ≠ .idle then nbStaticBuffersByService i else 0

theorem inUse_buffers (s : PxiRun) : s.buffers.inUse = s.inUse := by
  unfold Buffers.inUse inUse
  apply Finset.sum_congr rfl
  intro i _
  simp [buffers]

/-- A command comes only while at most 17 buffers are in use with its own. -/
def Fits (s : PxiRun) : ThreadInput → Prop
  | .command index _ _ => ∀ i, s.posToServiceId[index]? = some i → nbStaticBuffersByService i + s.inUse ≤ 17
  | _ => True

/-- Each of the 21 buffers is in one place, four are provided, and a command in flight has the first buffers of those that
were listed when it came. -/
structure BuffersPlaced (s : PxiRun) : Prop where
  covered : ∀ pos, (s.freeStaticBuffers.toNat.testBit pos = true ∨ s.currentlyProvidedStaticBuffers.toNat.testBit pos = true ∨
    ∃ i, (s.sessionData i).usedStaticBuffers.toNat.testBit pos = true) ↔ pos < 21
  free_provided : s.freeStaticBuffers &&& s.currentlyProvidedStaticBuffers = 0
  free_used : ∀ i, s.freeStaticBuffers &&& (s.sessionData i).usedStaticBuffers = 0
  provided_used : ∀ i, s.currentlyProvidedStaticBuffers &&& (s.sessionData i).usedStaticBuffers = 0
  used_used : ∀ i j, i ≠ j → (s.sessionData i).usedStaticBuffers &&& (s.sessionData j).usedStaticBuffers = 0
  four : (buffersOf s.currentlyProvidedStaticBuffers).length = 4
  listed : s.staticBufs = (buffersOf s.currentlyProvidedStaticBuffers).map some
  held : ∀ i, (s.sessionData i).state ≠ .idle →
    (buffersOf (s.sessionData i).usedStaticBuffers).length = nbStaticBuffersByService i ∧
      (buffersOf (s.sessionData i).usedStaticBuffers).map some = (s.arrival i).take (nbStaticBuffersByService i)

end PxiRun

/-! ## Runs -/

theorem PxiRun.placed_of_kept {s : PxiRun} (h : s.buffers.Kept) : s.BuffersPlaced := by
  have hone := h.le_one
  refine ⟨fun pos => ?_, and_eq_zero fun pos => ?_, fun i => and_eq_zero fun pos => ?_, fun i => and_eq_zero fun pos => ?_,
    fun i j hne => and_eq_zero fun pos => ?_, h.four, h.listed, fun i hbusy => ?_⟩
  · have honce := h.once pos
    show s.buffers.free.toBitVec.getLsbD pos = true ∨ s.buffers.provided.toBitVec.getLsbD pos = true ∨
      (∃ i, (s.buffers.used i).toBitVec.getLsbD pos = true) ↔ pos < 21
    simp only [← bit_eq_one_iff]
    constructor
    · intro hplace
      by_contra hpos
      rw [if_neg hpos] at honce
      have hsum : ∑ i, bit (s.buffers.used i).toBitVec pos = 0 := by omega
      rcases hplace with hfree | hprovided | ⟨i, hused⟩
      · omega
      · omega
      · have hzero := Finset.sum_eq_zero_iff.mp hsum i (Finset.mem_univ i)
        omega
    · intro hpos
      rw [if_pos hpos] at honce
      rcases Nat.eq_zero_or_pos (∑ i, bit (s.buffers.used i).toBitVec pos) with hsum | hsum
      · omega
      · obtain ⟨i, -, hused⟩ := Finset.exists_ne_zero_of_sum_ne_zero hsum.ne'
        have hle := bit_le_one (s.buffers.used i).toBitVec pos
        exact .inr (.inr ⟨i, by omega⟩)
  · have hle := hone 0 pos
    show bit s.buffers.free.toBitVec pos + bit s.buffers.provided.toBitVec pos ≤ 1
    omega
  · have hle := hone i pos
    show bit s.buffers.free.toBitVec pos + bit (s.buffers.used i).toBitVec pos ≤ 1
    omega
  · have hle := hone i pos
    show bit s.buffers.provided.toBitVec pos + bit (s.buffers.used i).toBitVec pos ≤ 1
    omega
  · have honce := h.once pos
    have hpair : bit (s.buffers.used i).toBitVec pos + bit (s.buffers.used j).toBitVec pos ≤
        ∑ k, bit (s.buffers.used k).toBitVec pos :=
      Finset.add_le_sum (f := fun k => bit (s.buffers.used k).toBitVec pos) (fun _ _ => Nat.zero_le _) (Finset.mem_univ i) (Finset.mem_univ j) hne
    show bit (s.buffers.used i).toBitVec pos + bit (s.buffers.used j).toBitVec pos ≤ 1
    split at honce <;> omega
  · have hholds := h.holds i
    have htrue : s.buffers.busy i = true := decide_eq_true hbusy
    rw [htrue, Buffers.Holds, if_pos rfl] at hholds
    exact hholds

theorem kept_init : threadInit.buffers.Kept := by
  refine ⟨fun pos => ?_, fun i => rfl, by decide, by decide⟩
  have hused : ∑ i, bit (threadInit.buffers.used i).toBitVec pos = 0 := Finset.sum_eq_zero fun i _ => bit_zero pos
  rw [hused]
  by_cases hpos : pos < 32
  · clear hused
    revert pos
    decide
  · rw [if_neg (by omega), bit, bit, BitVec.getLsbD_of_ge _ _ (by omega), BitVec.getLsbD_of_ge _ _ (by omega)]
    rfl

/-- A step takes buffers for a command, gives those of a session back or leaves them. -/
theorem Buffers.Kept.threadStep {s s' : PxiRun} {input : ThreadInput} (h : s.buffers.Kept) (henabled : s.Enabled input)
    (hfits : s.Fits input) (hok : Pxi.threadStep s input = .ok s') : s'.buffers.Kept := by
  have hsame : s'.buffers = s.buffers → s'.buffers.Kept := fun heq => heq ▸ h
  cases input with
  | send =>
    obtain ⟨sessions, hsender⟩ := henabled
    unfold Pxi.threadStep at hok
    rw [hsender] at hok
    cases sessions with
    | nil =>
      obtain rfl := Except.ok.inj hok
      exact hsame rfl
    | cons i sessions =>
      obtain rfl := Except.ok.inj hok
      exact hsame (buffers_sendOne s i)
  | scan =>
    obtain ⟨sessions, hsender⟩ := henabled
    unfold Pxi.threadStep at hok
    rw [hsender] at hok
    cases sessions with
    | nil => cases hok
    | cons i sessions =>
      dsimp only at hok
      split at hok
      · rename_i hstate
        have hbusy : s.buffers.busy i = true := decide_eq_true (by rw [hstate]; exact nofun)
        rw [buffers_arm9Reply hok]
        exact h.give hbusy
      · obtain rfl := Except.ok.inj hok
        exact hsame rfl
  | event =>
    obtain rfl := Except.ok.inj hok
    exact hsame (buffers_turn _)
  | token =>
    obtain rfl := Except.ok.inj hok
    exact hsame rfl
  | replyFailed =>
    unfold Pxi.threadStep at hok
    dsimp only at hok
    split at hok
    · cases hok
    · obtain rfl := Except.ok.inj hok
      exact hsame (buffers_closeSession s _)
  | closed index =>
    unfold Pxi.threadStep at hok
    dsimp only at hok
    split at hok
    · cases hok
    · obtain rfl := Except.ok.inj hok
      exact hsame (buffers_closeSession s _)
  | command index message arg =>
    unfold Pxi.threadStep at hok
    dsimp only at hok
    split at hok
    · rename_i client i _ hindex
      obtain ⟨hidle, htake⟩ := buffers_arm11Command hok
      rw [htake]
      refine h.take (decide_eq_false (not_not.mpr hidle)) ?_
      rw [inUse_buffers]
      exact hfits i hindex
    · cases hok
  | accept i => exact hsame (buffers_acceptSession hok)
  | receive i reply => exact hsame (buffers_receiveFromArm9 hok)
  | release =>
    obtain rfl := Except.ok.inj hok
    exact hsame rfl

/-- In every run in which the commands fit, the static buffers are where they belong. -/
theorem staticBuffers_placed (s : PxiRun) (h : (threadSystem.restrict PxiRun.Fits).Reachable s) : s.BuffersPlaced := by
  refine PxiRun.placed_of_kept ?_
  refine System.Reachable.invariant (S := threadSystem.restrict PxiRun.Fits) (J := fun s => s.buffers.Kept) ?_
    (fun s input s' _ hs hstep => ?_) h
  · rintro s rfl
    exact kept_init
  · obtain ⟨hfits, henabled, hok⟩ := hstep
    exact hs.threadStep henabled hfits (System.eq_ok_of_toOption hok)

/-! ## Commands that fit, and commands that do not -/

instance (s : PxiRun) : (input : ThreadInput) → Decidable (s.Fits input)
  | .command index _ _ => inferInstanceAs (Decidable (∀ i, s.posToServiceId[index]? = some i →
      nbStaticBuffersByService i + s.inUse ≤ 17))
  | .send | .scan | .event | .token | .replyFailed | .closed _ | .accept _ | .receive _ _ | .release =>
    inferInstanceAs (Decidable True)

/-- Sessions are connected. -/
def acceptInputs (sessions : List (Fin 9)) : List ThreadInput :=
  sendAllInputs ++ sessions.map .accept ++ [.event] ++ sendAllInputs

/-- A command without parameters comes at an index of the handles. -/
def commandInputs (index : Nat) : List ThreadInput := .command index .empty 0 :: sendAllInputs

/-- Two commands fit, and are answered the other way round: their buffers are where they belong. -/
theorem two_commands_placed : ∃ s : PxiRun, s.BuffersPlaced ∧ (s.sessionData 6).state = .sentToArm9 ∧
    (s.sessionData 1).state = .idle ∧ (s.sessionData 6).usedStaticBuffers = 0x198000 := by
  have hrun : (System.guardedRun (fun s input => s.Fits input ∧ s.Enabled input) (fun s input => (threadStep s input).toOption)
      threadInit (acceptInputs [1, 6] ++ commandInputs 0 ++ commandInputs 0 ++ fsReplyInputs)).any
        (fun s => (s.sessionData 6).state = .sentToArm9 ∧ (s.sessionData 1).state = .idle ∧
          (s.sessionData 6).usedStaticBuffers = 0x198000) = true := by decide +kernel
  obtain ⟨s, hs, hplaced⟩ := (Option.any_eq_true _ _).mp hrun
  have hinit : (threadSystem.restrict PxiRun.Fits).Reachable threadInit := .init rfl
  exact ⟨s, staticBuffers_placed s (hinit.restrict_guardedRun hs), of_decide_eq_true hplaced⟩

/-- Six commands leave three buffers to be provided: the seventh comes with three, keeps one of its two, and the other is
provided again while it is in flight. -/
theorem seventh_command_loses_buffer : ∃ s, threadSystem.Reachable s ∧ s.sender = .waiting ∧
    (s.sessionData 4).state = .sentToArm9 ∧ (buffersOf s.currentlyProvidedStaticBuffers).length = 2 ∧
    (s.arrival 4).take (nbStaticBuffersByService 4) = [some 0, some 7] ∧
    buffersOf (s.sessionData 4).usedStaticBuffers = [0] ∧ s.staticBufs = [some 7, some 8, none, none] ∧
    ¬ s.BuffersPlaced := by
  have hrun : (System.guardedRun PxiRun.Enabled (fun s input => (threadStep s input).toOption) threadInit
      (acceptInputs [1, 2, 3, 4, 6, 7, 8] ++ [4, 4, 4, 0, 0, 0, 0].flatMap commandInputs)).any
        (fun s => s.sender = .waiting ∧ (s.sessionData 4).state = .sentToArm9 ∧
          (buffersOf s.currentlyProvidedStaticBuffers).length = 2 ∧
          (s.arrival 4).take (nbStaticBuffersByService 4) = [some 0, some 7] ∧
          buffersOf (s.sessionData 4).usedStaticBuffers = [0] ∧ s.staticBufs = [some 7, some 8, none, none]) = true := by
    decide +kernel
  obtain ⟨s, hs, hlost⟩ := (Option.any_eq_true _ _).mp hrun
  have hinit : threadSystem.Reachable threadInit := .init rfl
  obtain ⟨hsender, hstate, htwo, hlost⟩ := of_decide_eq_true hlost
  refine ⟨s, hinit.guardedRun hs, hsender, hstate, htwo, hlost.1, hlost.2.1, hlost.2.2, fun hplaced => ?_⟩
  rw [hplaced.four] at htwo
  cases htwo

end Omiiba.Pxi
