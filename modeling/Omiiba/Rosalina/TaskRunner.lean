/-
The task runner of Rosalina: threads hand tasks over to a thread of its own, through two events and one place for the task and
its arguments. Threads go on in any order, one statement at a time.
-/
import Omiiba.Lib.System

namespace Omiiba.Rosalina

/-! ## The code -/

/-- A task, and as much of its arguments as fits in `argStorage`. -/
structure TaskCall (τ : Type) where
  task : τ
  argdata : List UInt8

/-- Where a thread is: at which statement of `TaskRunner_RunTask`, at the first one of `TaskRunner_Terminate`, or in neither. -/
inductive TaskCaller (τ : Type)
  | elsewhere
  | terminates
  | waits (c : TaskCall τ)
  | setsTask (c : TaskCall τ)
  | copies (c : TaskCall τ)
  | signals (c : TaskCall τ)

/-- Where `TaskRunner_HandleTasks` is; it has returned at the end. -/
inductive TaskHandler
  | checks
  | signals
  | waits
  | calls
  | runs
  | returned

/-- `g_taskRunner` and its threads, with what has been handed over and what was called with which arguments. An event is signaled
or not: one that is waited for is taken by one thread. -/
structure TaskRunner (κ τ : Type) where
  readyEvent : Bool
  parametersSetEvent : Bool
  task : Option τ
  argStorage : List UInt8
  shouldTerminate : Bool
  callers : κ → TaskCaller τ
  handler : TaskHandler
  handedOver : List (TaskCall τ)
  called : List (τ × List UInt8)

/-- What happens next: a thread calls a function, or goes on, or the handler goes on. -/
inductive TaskInput (κ τ : Type)
  | runTask (k : κ) (task : τ) (argdata : List UInt8)
  | terminate (k : κ)
  | caller (k : κ)
  | handler

namespace TaskRunner

variable {κ τ : Type} [DecidableEq κ]

/-- After `TaskRunner_Init`. -/
def init : TaskRunner κ τ :=
  ⟨false, false, none, List.replicate 0x40 0, false, fun _ => .elsewhere, .checks, [], []⟩

def move (s : TaskRunner κ τ) (k : κ) (p : TaskCaller τ) : TaskRunner κ τ := { s with callers := Function.update s.callers k p }

/-- `TaskRunner_RunTask` and `TaskRunner_Terminate`, up to the next statement; none while the thread waits. -/
def stepCaller (noOp : τ) (s : TaskRunner κ τ) (k : κ) : Option (TaskRunner κ τ) :=
  match s.callers k with
  | .elsewhere => none
  | .terminates => some ({ s with shouldTerminate := true }.move k (.waits ⟨noOp, []⟩))
  | .waits c => if s.readyEvent then some ({ s with readyEvent := false }.move k (.setsTask c)) else none
  | .setsTask c => some ({ s with task := some c.task }.move k (.copies c))
  | .copies c => some ({ s with argStorage := c.argdata ++ s.argStorage.drop c.argdata.length }.move k (.signals c))
  | .signals c => some ({ s with parametersSetEvent := true, handedOver := s.handedOver ++ [c] }.move k .elsewhere)

/-- `TaskRunner_HandleTasks`, up to the next statement; none while it waits, and where it would call no task. -/
def stepHandler (s : TaskRunner κ τ) : Option (TaskRunner κ τ) :=
  match s.handler with
  | .checks => some { s with handler := if s.shouldTerminate then .returned else .signals }
  | .signals => some { s with readyEvent := true, handler := .waits }
  | .waits => if s.parametersSetEvent then some { s with parametersSetEvent := false, handler := .calls } else none
  | .calls => s.task.map fun task => { s with handler := .runs, called := s.called ++ [(task, s.argStorage)] }
  | .runs => some { s with handler := .checks }
  | .returned => none

def step (noOp : τ) (s : TaskRunner κ τ) : TaskInput κ τ → Option (TaskRunner κ τ)
  | .runTask k task argdata =>
    match s.callers k with
    | .elsewhere => some (s.move k (.waits ⟨task, argdata.take 0x40⟩))
    | _ => none
  | .terminate k =>
    match s.callers k with
    | .elsewhere => some (s.move k .terminates)
    | _ => none
  | .caller k => s.stepCaller noOp k
  | .handler => s.stepHandler

end TaskRunner

/-- A thread has been let in and has not handed its task over. -/
def TaskCaller.Inside {τ : Type} : TaskCaller τ → Prop
  | setsTask _ => True
  | copies _ => True
  | signals _ => True
  | _ => False

/-- The handler is neither waiting nor about to call a task. -/
def TaskHandler.Own : TaskHandler → Prop
  | waits => False
  | calls => False
  | _ => True

namespace TaskRunner

variable {κ τ : Type} {noOp : τ} {s s' : TaskRunner κ τ} {k : κ}

/-- What was called is what has been handed over, in this order and with these arguments. -/
def Served (handedOver : List (TaskCall τ)) (called : List (τ × List UInt8)) : Prop :=
  List.Forall₂ (fun c call => call.1 = c.task ∧ c.argdata <+: call.2) handedOver called

/-- A task stands in its place, with its arguments. -/
def Holds (s : TaskRunner κ τ) (c : TaskCall τ) : Prop := s.task = some c.task ∧ c.argdata <+: s.argStorage

/-- All but the last task that has been handed over were called, and that one stands in its place. -/
def Pending (s : TaskRunner κ τ) : Prop := ∃ earlier c, s.handedOver = earlier ++ [c] ∧ Served earlier s.called ∧ s.Holds c

/-- What a thread has done of its turn. -/
def Prepared (s : TaskRunner κ τ) : TaskCaller τ → Prop
  | .setsTask _ => True
  | .copies c => s.task = some c.task
  | .signals c => s.Holds c
  | _ => False

/-- Nobody is inside. -/
def Quiet (s : TaskRunner κ τ) : Prop := ∀ k, ¬(s.callers k).Inside

/-- While a task runs, its arguments are those it was called with. -/
def Undisturbed (s : TaskRunner κ τ) : Prop :=
  s.handler = .runs → ∃ call, s.called.getLast? = some call ∧ s.task = some call.1 ∧ s.argStorage = call.2

/-- There is one turn, which the handler, an event or a thread has. -/
inductive Turn (s : TaskRunner κ τ) : Prop
  | handler (own : s.handler.Own) (hready : s.readyEvent = false) (hset : s.parametersSetEvent = false) (quiet : s.Quiet)
      (served : Served s.handedOver s.called) (undisturbed : s.Undisturbed)
  | ready (hwaits : s.handler = .waits) (hready : s.readyEvent = true) (hset : s.parametersSetEvent = false) (quiet : s.Quiet)
      (served : Served s.handedOver s.called)
  | caller (k : κ) (hwaits : s.handler = .waits) (hready : s.readyEvent = false) (hset : s.parametersSetEvent = false)
      (only : ∀ k', (s.callers k').Inside → k' = k) (served : Served s.handedOver s.called)
      (prepared : s.Prepared (s.callers k))
  | parametersSet (hwaits : s.handler = .waits) (hready : s.readyEvent = false) (hset : s.parametersSetEvent = true)
      (quiet : s.Quiet) (pending : s.Pending)
  | calls (hcalls : s.handler = .calls) (hready : s.readyEvent = false) (hset : s.parametersSetEvent = false) (quiet : s.Quiet)
      (pending : s.Pending)

theorem Turn.of_own (h : s.Turn) (hown : s.handler.Own) :
    s.readyEvent = false ∧ s.parametersSetEvent = false ∧ s.Quiet ∧ Served s.handedOver s.called := by
  cases h with
  | handler _ hready hset quiet served => exact ⟨hready, hset, quiet, served⟩
  | ready hwaits | caller _ hwaits | parametersSet hwaits => exact absurd hown (by rw [hwaits]; exact not_false)
  | calls hcalls => exact absurd hown (by rw [hcalls]; exact not_false)

theorem Turn.of_ready (h : s.Turn) (hready : s.readyEvent = true) :
    s.handler = .waits ∧ s.parametersSetEvent = false ∧ s.Quiet ∧ Served s.handedOver s.called := by
  cases h with
  | ready hwaits _ hset quiet served => exact ⟨hwaits, hset, quiet, served⟩
  | _ => simp_all

theorem Turn.of_parametersSet (h : s.Turn) (hset : s.parametersSetEvent = true) :
    s.handler = .waits ∧ s.readyEvent = false ∧ s.Quiet ∧ s.Pending := by
  cases h with
  | parametersSet hwaits hready _ quiet pending => exact ⟨hwaits, hready, quiet, pending⟩
  | _ => simp_all

theorem Turn.of_inside (h : s.Turn) (hk : (s.callers k).Inside) :
    (s.handler = .waits ∧ s.readyEvent = false ∧ s.parametersSetEvent = false) ∧
      (∀ k', (s.callers k').Inside → k' = k) ∧ Served s.handedOver s.called ∧ s.Prepared (s.callers k) := by
  cases h with
  | caller k' hwaits hready hset only served prepared =>
    obtain rfl := only k hk
    exact ⟨⟨hwaits, hready, hset⟩, only, served, prepared⟩
  | handler _ _ _ quiet | ready _ _ _ quiet | parametersSet _ _ _ quiet | calls _ _ _ quiet => exact absurd hk (quiet k)

theorem Turn.stepHandler (h : s.Turn) (hstep : s.stepHandler = some s') : s'.Turn := by
  unfold TaskRunner.stepHandler at hstep
  split at hstep
  case h_6 => cases hstep
  case h_1 hchecks =>
    obtain rfl := Option.some.inj hstep
    obtain ⟨hready, hset, quiet, served⟩ := h.of_own (by rw [hchecks]; exact trivial)
    refine .handler ?_ hready hset quiet served fun hruns => ?_
    · dsimp only
      split <;> exact trivial
    · dsimp only at hruns
      split at hruns <;> cases hruns
  case h_2 hsignals =>
    obtain rfl := Option.some.inj hstep
    obtain ⟨-, hset, quiet, served⟩ := h.of_own (by rw [hsignals]; exact trivial)
    exact .ready rfl rfl hset quiet served
  case h_5 hruns =>
    obtain rfl := Option.some.inj hstep
    obtain ⟨hready, hset, quiet, served⟩ := h.of_own (by rw [hruns]; exact trivial)
    exact .handler trivial hready hset quiet served nofun
  case h_3 hwaits =>
    split at hstep
    case isFalse => cases hstep
    case isTrue hset =>
      obtain rfl := Option.some.inj hstep
      obtain ⟨-, hready, quiet, pending⟩ := h.of_parametersSet hset
      exact .calls rfl hready rfl quiet pending
  case h_4 hcalls =>
    obtain ⟨task, htask, rfl⟩ := Option.map_eq_some_iff.mp hstep
    cases h with
    | calls _ hready hset quiet pending =>
      obtain ⟨earlier, c, hhanded, served, hc, hargs⟩ := pending
      obtain rfl : task = c.task := Option.some.inj (htask.symm.trans hc)
      refine .handler trivial hready hset quiet ?_ fun _ => ⟨_, List.getLast?_concat, htask, rfl⟩
      show Served s.handedOver (s.called ++ [(c.task, s.argStorage)])
      rw [hhanded]
      exact List.rel_append served (.cons ⟨rfl, hargs⟩ .nil)
    | handler own => exact absurd own (by rw [hcalls]; exact not_false)
    | ready hwaits | caller _ hwaits | parametersSet hwaits => rw [hcalls] at hwaits; cases hwaits

theorem Turn.served (h : s.Turn) :
    ∃ earlier last, s.handedOver = earlier ++ last ∧ last.length ≤ 1 ∧ Served earlier s.called := by
  cases h with
  | handler _ _ _ _ served | ready _ _ _ _ served | caller _ _ _ _ _ served =>
    exact ⟨_, [], (List.append_nil _).symm, Nat.zero_le _, served⟩
  | parametersSet _ _ _ _ pending | calls _ _ _ _ pending =>
    obtain ⟨earlier, c, hhanded, served, -⟩ := pending
    exact ⟨earlier, [c], hhanded, le_rfl, served⟩

theorem Turn.undisturbed (h : s.Turn) : s.Undisturbed := by
  cases h with
  | handler _ _ _ _ _ undisturbed => exact undisturbed
  | ready hwaits | caller _ hwaits | parametersSet hwaits => exact fun hruns => absurd (hwaits.symm.trans hruns) nofun
  | calls hcalls => exact fun hruns => absurd (hcalls.symm.trans hruns) nofun

theorem Turn.alone (h : s.Turn) {k k' : κ} (hk : (s.callers k).Inside) (hk' : (s.callers k').Inside) : k = k' :=
  (h.of_inside hk').2.1 k hk

theorem Prepared.inside {p : TaskCaller τ} (h : s.Prepared p) : p.Inside := by
  cases p <;> first | exact trivial | exact h

theorem Turn.goesOn (h : s.Turn) :
    s.handler = .returned ∨ s.readyEvent = true ∨ s.stepHandler.isSome ∨ ∃ k, (s.callers k).Inside := by
  unfold TaskRunner.stepHandler
  cases h with
  | handler own =>
    cases hhandler : s.handler with
    | returned => exact .inl rfl
    | waits | calls => exact absurd own (by rw [hhandler]; exact not_false)
    | _ => exact .inr (.inr (.inl rfl))
  | ready _ hready => exact .inr (.inl hready)
  | caller k _ _ _ _ _ prepared => exact .inr (.inr (.inr ⟨k, prepared.inside⟩))
  | parametersSet hwaits _ hset =>
    refine .inr (.inr (.inl ?_))
    rw [hwaits]
    simp [hset]
  | calls hcalls _ _ _ pending =>
    obtain ⟨-, c, -, -, htask, -⟩ := pending
    refine .inr (.inr (.inl ?_))
    rw [hcalls]
    simp [htask]

variable [DecidableEq κ]

theorem inside_move {p : TaskCaller τ} {k' : κ} (h : ((s.move k p).callers k').Inside) :
    k' = k ∧ p.Inside ∨ k' ≠ k ∧ (s.callers k').Inside := by
  replace h : (Function.update s.callers k p k').Inside := h
  by_cases hk : k' = k
  · subst hk
    rw [Function.update_self] at h
    exact .inl ⟨rfl, h⟩
  · rw [Function.update_of_ne hk] at h
    exact .inr ⟨hk, h⟩

theorem callers_move (p : TaskCaller τ) : (s.move k p).callers k = p := Function.update_self ..

theorem Quiet.move (h : s.Quiet) {p : TaskCaller τ} (hp : ¬p.Inside) : (s.move k p).Quiet := by
  intro k' hk'
  rcases inside_move hk' with ⟨-, hinside⟩ | ⟨-, hinside⟩
  · exact hp hinside
  · exact h k' hinside

theorem only_move (h : ∀ k', (s.callers k').Inside → k' = k) (p : TaskCaller τ) :
    ∀ k', ((s.move k p).callers k').Inside → k' = k := by
  intro k' hk'
  rcases inside_move hk' with ⟨heq, -⟩ | ⟨-, hinside⟩
  · exact heq
  · exact h k' hinside

/-- The only thread that is inside leaves. -/
theorem quiet_move (h : ∀ k', (s.callers k').Inside → k' = k) {p : TaskCaller τ} (hp : ¬p.Inside) : (s.move k p).Quiet := by
  intro k' hk'
  rcases inside_move hk' with ⟨-, hinside⟩ | ⟨hne, hinside⟩
  · exact hp hinside
  · exact hne (h k' hinside)

/-- A thread that stays outside takes nobody's turn. -/
theorem Turn.move (h : s.Turn) (b : Bool) {p : TaskCaller τ} (hk : ¬(s.callers k).Inside) (hp : ¬p.Inside) :
    ({ s with shouldTerminate := b }.move k p).Turn := by
  cases h with
  | handler own hready hset quiet served undisturbed => exact .handler own hready hset (quiet.move hp) served undisturbed
  | ready hwaits hready hset quiet served => exact .ready hwaits hready hset (quiet.move hp) served
  | caller k' hwaits hready hset only served prepared =>
    have hinside : (s.callers k').Inside := by
      cases hc : s.callers k' <;> simp_all [Prepared, TaskCaller.Inside]
    have hne : k' ≠ k := by
      rintro rfl
      exact hk hinside
    refine .caller k' hwaits hready hset (fun l hl => ?_) served ?_
    · rcases inside_move hl with ⟨-, hinside⟩ | ⟨-, hinside⟩
      · exact absurd hinside hp
      · exact only l hinside
    · show Prepared _ (Function.update s.callers k p k')
      rw [Function.update_of_ne hne]
      cases hc : s.callers k' <;> rw [hc] at prepared <;> exact prepared
  | parametersSet hwaits hready hset quiet pending => exact .parametersSet hwaits hready hset (quiet.move hp) pending
  | calls hcalls hready hset quiet pending => exact .calls hcalls hready hset (quiet.move hp) pending

theorem Turn.stepCaller (h : s.Turn) (hstep : s.stepCaller noOp k = some s') : s'.Turn := by
  unfold TaskRunner.stepCaller at hstep
  split at hstep
  case h_1 => cases hstep
  case h_2 hk =>
    obtain rfl := Option.some.inj hstep
    exact h.move true (by rw [hk]; exact not_false) not_false
  case h_3 c hk =>
    split at hstep
    case isFalse => cases hstep
    case isTrue hready =>
      obtain rfl := Option.some.inj hstep
      obtain ⟨hwaits, hset, quiet, served⟩ := h.of_ready hready
      refine .caller k hwaits rfl hset (only_move (fun k' hk' => absurd hk' (quiet k')) _) served ?_
      rw [callers_move]
      exact trivial
  case h_4 c hk =>
    obtain rfl := Option.some.inj hstep
    obtain ⟨⟨hwaits, hready, hset⟩, only, served, -⟩ := h.of_inside (k := k) (by rw [hk]; exact trivial)
    refine .caller k hwaits hready hset (only_move only _) served ?_
    rw [callers_move]
    exact rfl
  case h_5 c hk =>
    obtain rfl := Option.some.inj hstep
    obtain ⟨⟨hwaits, hready, hset⟩, only, served, prepared⟩ := h.of_inside (k := k) (by rw [hk]; exact trivial)
    rw [hk] at prepared
    refine .caller k hwaits hready hset (only_move only _) served ?_
    rw [callers_move]
    exact ⟨prepared, List.prefix_append _ _⟩
  case h_6 c hk =>
    obtain rfl := Option.some.inj hstep
    obtain ⟨⟨hwaits, hready, -⟩, only, served, prepared⟩ := h.of_inside (k := k) (by rw [hk]; exact trivial)
    rw [hk] at prepared
    exact .parametersSet hwaits hready rfl (quiet_move only not_false) ⟨s.handedOver, c, rfl, served, prepared⟩

theorem Turn.step (h : s.Turn) {i : TaskInput κ τ} (hstep : s.step noOp i = some s') : s'.Turn := by
  cases i with
  | runTask k | terminate k =>
    dsimp only [TaskRunner.step] at hstep
    split at hstep
    case h_1 hk =>
      obtain rfl := Option.some.inj hstep
      exact h.move s.shouldTerminate (by rw [hk]; exact not_false) not_false
    case h_2 => cases hstep
  | caller k => exact h.stepCaller hstep
  | handler => exact h.stepHandler hstep

/-- What holds of the tasks at every moment. -/
structure Orderly (noOp : τ) (s : TaskRunner κ τ) : Prop where
  served : ∃ earlier last, s.handedOver = earlier ++ last ∧ last.length ≤ 1 ∧ Served earlier s.called
  undisturbed : s.Undisturbed
  alone : ∀ k k', (s.callers k).Inside → (s.callers k').Inside → k = k'
  goesOn : s.handler = .returned ∨ s.readyEvent = true ∨ s.stepHandler.isSome ∨ ∃ k, (s.callers k).Inside
  returned : s.handler = .returned →
    Served s.handedOver s.called ∧ ∀ k c, s.callers k = .waits c → s.stepCaller noOp k = none

theorem Turn.returned (h : s.Turn) (hreturned : s.handler = .returned) :
    Served s.handedOver s.called ∧ ∀ k c, s.callers k = .waits c → s.stepCaller noOp k = none := by
  obtain ⟨hready, -, -, served⟩ := h.of_own (by rw [hreturned]; exact trivial)
  refine ⟨served, fun k c hk => ?_⟩
  unfold TaskRunner.stepCaller
  rw [hk, hready]
  rfl

end TaskRunner

end Omiiba.Rosalina
