/-
Runs written down: events with fixed answers of the kernel, and a decidable check that the kernel
can give them, so that a run from a state of the loop can be evaluated.
-/
import Omiiba.Sm.Loop

namespace Omiiba.Sm

/-- What one iteration receives, and the handles the kernel gives out in it, if any. -/
structure Event where
  received : Received
  port : Option (Handle × Handle) := none
  accepted : Option Handle := none
  session : Handle := 0
  full : Option Handle := none
  semaphore : Option Handle := none

/-- A failure of the kernel. -/
def failure : Result := 0x80000000

def Event.input (e : Event) : Input where
  acquired := []
  received := e.received
  sys :=
    { createPort := match e.port with
        | some (server, client) => (0, server, client)
        | none => (failure, 0, 0)
      createSessionToPort := fun port => if e.full = some port then (0xD0401834, 0) else (0, e.session)
      createSemaphore := match e.semaphore with
        | some semaphore => (0, semaphore)
        | none => (failure, 0)
      getProcessId := (failure, 0)
      acceptSession := match e.accepted with
        | some session => (0, session)
        | none => (failure, 0)
      uninitialised := 0 }

/-- A handle of an event is new, if there is one. -/
def freshHandle (k : Kernel) : Option Handle → Bool
  | none => true
  | some h => h != 0 && k h == none

/-- Whether the kernel can give an index, and what comes with it. -/
def receivable (g : Globals) (s : State) : Received → Bool
  | .failed _ => true
  | .unreachable id => id < (s.handles g).length
  | .signalled id message =>
    id < (s.handles g).length &&
    (id != 0 || 0 < s.kernel.count g.resumeGetServiceHandleOrPortRegisteredSemaphore) &&
    match firstShared message with
    | none => true
    | some h => h == 0 || s.kernel h == none

/-- Whether the kernel can behave so. -/
def Event.possible (g : Globals) (s : State) (e : Event) : Bool :=
  (s.handles g).all (fun h => s.kernel h != none) && receivable g s e.received &&
    freshHandle (svcReplyAndReceive g s e.input).kernel (e.port.map Prod.snd) &&
    freshHandle (svcReplyAndReceive g s e.input).kernel e.accepted &&
    freshHandle (svcReplyAndReceive g s e.input).kernel e.semaphore &&
    e.full.all (fun port => (svcReplyAndReceive g s e.input).kernel port == some .clientPort)

theorem fresh_of_freshHandle {k : Kernel} {h : Handle} (hf : freshHandle k (some h) = true) : Fresh k h := by
  unfold freshHandle at hf
  simpa [Fresh] using hf

theorem Event.kernelOk {g : Globals} {s : State} {e : Event} (h : e.possible g s = true) : KernelOk g s e.input := by
  unfold Event.possible at h
  simp only [Bool.and_eq_true] at h
  obtain ⟨⟨⟨⟨⟨hopen, hrec⟩, hport⟩, hacc⟩, hsem⟩, hfull⟩ := h
  have hindex : ∀ id message, e.received = .signalled id message → id < (s.handles g).length ∧
      (id = 0 → 0 < s.kernel.count g.resumeGetServiceHandleOrPortRegisteredSemaphore) ∧
      ∀ h, firstShared message = some h → h ≠ 0 → s.kernel h = none := by
    intro id message hr
    rw [hr] at hrec
    simp only [receivable, Bool.and_eq_true, decide_eq_true_eq] at hrec
    obtain ⟨⟨hid, htok⟩, hsh⟩ := hrec
    refine ⟨hid, fun h0 => by simpa [h0] using htok, fun h hf h0 => ?_⟩
    rw [hf] at hsh
    simpa [h0] using hsh
  refine ⟨fun ⟨x, hx, hn⟩ => ?_, fun id message hr => (hindex id message hr).1, fun id hr => ?_,
    fun message hr => (hindex 0 message hr).2.1 rfl, fun id message h hr hf => (hindex id message hr).2.2 h hf,
    List.not_mem_nil, ⟨fun hr => ?_, fun hr => ?_, fun hr => ?_, fun p hp => ?_, ?_, fun p => ?_, ?_⟩⟩
  · have := List.all_eq_true.1 hopen x hx
    rw [hn] at this
    simp at this
  · have hr' : e.received = .unreachable id := hr
    rw [hr'] at hrec
    simpa [receivable] using hrec
  · rcases hp : e.port with - | ⟨server, client⟩
    · simp only [Event.input, hp] at hr
      exact absurd hr (by decide)
    · rw [hp] at hport
      simp only [Event.input, hp]
      exact fresh_of_freshHandle hport
  · rcases hs : e.semaphore with - | semaphore
    · simp only [Event.input, hs] at hr
      exact absurd hr (by decide)
    · rw [hs] at hsem
      simp only [Event.input, hs]
      exact fresh_of_freshHandle hsem
  · rcases ha : e.accepted with - | session
    · simp only [Event.input, ha] at hr
      exact absurd hr (by decide)
    · rw [ha] at hacc
      simp only [Event.input, ha]
      exact fresh_of_freshHandle hacc
  · simp only [Event.input] at hp
    split at hp
    · next hf =>
      rw [hf] at hfull
      simpa using hfull
    · exact absurd hp (show ¬ (0 : Result) = 0xD0401834 by decide)
  · simp only [Event.input]
    split
    · exact (by decide : rModule 0 ≠ rmSrv)
    · decide
  · simp only [Event.input]
    split
    · exact (by decide : rModule 0xD0401834 ≠ rmSrv)
    · exact (by decide : rModule 0 ≠ rmSrv)
  · simp only [Event.input]
    decide

/-- A run of events. -/
def play (g : Globals) : State → List Event → Option State
  | s, [] => some s
  | s, e :: events =>
    if e.possible g s then
      match iterate g s e.input with
      | .ok s => play g s events
      | .error _ => none
    else none

/-- A run of events whose steps meet a condition leads to a state that such runs reach. -/
theorem play_reachable {g : Globals} {P : State → Input → Prop} {events : List Event} {s s' : State}
    (hP : ∀ s, ∀ e ∈ events, P s e.input) (hs : ((sm g).restrict P).Reachable s) (h : play g s events = some s') :
    ((sm g).restrict P).Reachable s' := by
  induction events generalizing s with
  | nil => cases h; exact hs
  | cons e events ih =>
    unfold play at h
    split at h
    · next hpos =>
      split at h
      · next s1 hi =>
        refine ih (fun s e he => hP s e (List.mem_cons_of_mem _ he)) (.step hs ⟨hP s e List.mem_cons_self, ?_⟩) h
        exact ⟨Event.kernelOk hpos, hi⟩
      · cases h
    · cases h

/-! ## A run to begin with -/

/-- sm before 7.x, where it registers no service for itself. -/
def globals : Globals := ⟨1, 2, 3, 5, true, true⟩

theorem initSystem_initial (cmdbuf : Words) : Initial globals (initSystem globals cmdbuf) := by
  refine ⟨by decide, ⟨(failure, 0, 9), fun _ => (0, 0), (0, 0), (0, 0), (0, 0), 0⟩, 0, cmdbuf, rfl, by decide⟩

/-- A session of srv: is accepted. -/
def connect (session : Handle) : Event := { received := .signalled 1 fun _ => 0, accepted := some session }

/-- A request of the session at an index of the array. -/
def request (id : Nat) (words : List UInt32) : Event := { received := .signalled id fun i => words.getD i 0 }

end Omiiba.Sm
