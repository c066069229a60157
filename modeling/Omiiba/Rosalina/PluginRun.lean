/-
Runs of the plugin loader: its block is allocated and mounted as long as a plugin is loaded and not swapped out, the status
word tells where the application is, and what is swapped in is what was swapped out. A second load command forgets the
target, and while the application is in the home menu every parameter it receives is taken for its return.
-/
import Omiiba.Rosalina.PluginState

namespace Omiiba.Rosalina

/-- A plugin is loaded, and its memory is not in the swap file. -/
def PluginState.Held (s : PluginState) : Prop := s.loaded.isSome = true ∧ s.pluginIsSwapped = false

/-- What is to hold between the parts of the loader's state. -/
structure PluginState.Consistent (s : PluginState) : Prop where
  allocated : s.isReady = true ∧ s.allocated = true ↔ s.Held
  /-- The plugin's memory is mounted in the target, and nowhere else. -/
  exeMapped : ∀ p, s.exeMapped p = true ↔ s.Held ∧ p = s.target
  heapMapped : ∀ p, s.heapMapped p = true ↔ s.Held ∧ p = s.target
  /-- While no event waits to be handled, the status word tells where the application is. -/
  status : s.event = 0 → s.status = s.place.status
  restored : ∀ x ∈ s.restored, x.1 = x.2
  /-- The target is known as long as there is a block, and as long as its plugin is loaded. -/
  target : (s.isReady = true ∨ s.allocated = true → s.loaded = some s.target) ∧
    ∀ p, s.loaded = some p → s.target = p ∧ p ≠ 0

/-- Load commands come while no plugin is loaded, and what they begin to mount is mounted and hooked. Parameters and exits
come while no event waits; in the home menu an application receives only parameters with which it returns, and it does not
exit there. Otherwise the kernel does what it is asked. -/
def PluginState.Orderly (s : PluginState) : PluginInput → Prop
  | .load c =>
    s.target = 0 ∧ (c.answers.exe = true → c.answers.heap = true ∧ c.hooked = true) ∧ c.answers.freed = true
  | .parameter p => s.event = 0 ∧
    (s.status = plgCfgInHome → p.forApplication = true → p.received = true → 10 ≤ p.command ∧ p.command ≤ 12)
  | .exit => s.event = 0 ∧ s.status ≠ plgCfgInHome
  | .kernelEvent a => a.exe = true ∧ a.heap = true ∧ a.freed = true
  | .terminated a => a.exe = true ∧ a.heap = true ∧ a.freed = true
  | .write _ => True

/-! ## Invariant -/

/-- The status word, the place of the application, whether the plugin has been told that it is away, and the tasks. -/
def PluginState.stage (s : PluginState) : UInt32 × PluginPlace × Bool × Nat :=
  (s.config, s.place, s.pluginIsSwapped || s.pluginIsHome, s.waiting)

/-- The stages of a loaded plugin. -/
def pluginStages : List (UInt32 × PluginPlace × Bool × Nat) :=
  [(plgCfgRunning, .running, false, 0), (plgCfgRunning ||| plgCfgHomeEvent, .home, false, 0), (plgCfgInHome, .home, true, 0),
    (plgCfgInHome ||| plgCfgHomeEvent, .running, true, 0), (plgCfgRunning ||| plgCfgExitEvent, .exiting, false, 0),
    (plgCfgExiting, .exiting, false, 1)]

/-- Only one of the two ways to be away is in use. -/
def PluginState.swaps (isN3DS : Bool) (s : PluginState) : Bool := s.pluginMemoryStrategy == plgStrategySwap && !isN3DS

def PluginState.holds (s : PluginState) : Bool := s.target != 0 && !s.pluginIsSwapped

structure PluginInv (isN3DS : Bool) (f : SwapFunctions) (s : PluginState) : Prop where
  loaded : s.loaded = if s.target = 0 then none else some s.target
  stage : s.target = 0 ∧ s.stage = (plgCfgNone, .absent, false, 0) ∨ s.target ≠ 0 ∧ s.stage ∈ pluginStages
  strategy : (if s.swaps isN3DS then s.pluginIsHome else s.pluginIsSwapped) = false
  isReady : s.isReady = s.holds
  allocated : s.allocated = s.holds
  exeMapped : ∀ p, s.exeMapped p = (s.holds && p == s.target)
  heapMapped : ∀ p, s.heapMapped p = (s.holds && p == s.target)
  size : s.isReady = true → s.memblock.length = s.memBlockSize.toNat
  swapFile : s.pluginIsSwapped = true → s.swapFile.take s.memBlockSize.toNat = (f.saveSwapFunc s.swappedOut).1 ∧
    s.swappedOut.length = s.memBlockSize.toNat
  restored : ∀ x ∈ s.restored, x.1 = x.2

section

variable {isN3DS : Bool} {f : SwapFunctions} {s : PluginState}

theorem pluginInv_init : PluginInv isN3DS f .init where
  loaded := rfl
  stage := Or.inl ⟨rfl, rfl⟩
  strategy := ite_self _
  isReady := rfl
  allocated := rfl
  exeMapped _ := rfl
  heapMapped _ := rfl
  size h := by cases h
  swapFile h := by cases h
  restored x hx := absurd hx List.not_mem_nil

theorem PluginInv.held_iff (h : PluginInv isN3DS f s) : s.Held ↔ s.holds = true := by
  unfold PluginState.Held PluginState.holds
  rw [h.loaded]
  by_cases htarget : s.target = 0 <;> simp [htarget]

/-- A word with an event is not the status alone. -/
theorem stage_status : ∀ x ∈ (plgCfgNone, PluginPlace.absent, false, 0) :: pluginStages,
    x.1 &&& 0xFFFF0000 = 0 → x.1 &&& 0xFFFF = x.2.1.status := by
  decide

theorem PluginInv.consistent (h : PluginInv isN3DS f s) : s.Consistent where
  allocated := by rw [h.isReady, h.allocated, and_self, h.held_iff]
  exeMapped p := by rw [h.exeMapped, h.held_iff, Bool.and_eq_true, beq_iff_eq]
  heapMapped p := by rw [h.heapMapped, h.held_iff, Bool.and_eq_true, beq_iff_eq]
  status := by
    rcases h.stage with ⟨-, hstage⟩ | ⟨-, hstage⟩
    · exact stage_status s.stage (hstage ▸ List.mem_cons_self)
    · exact stage_status s.stage (List.mem_cons_of_mem _ hstage)
  restored := h.restored
  target := by
    rw [h.isReady, h.allocated, or_self, h.loaded]
    unfold PluginState.holds
    by_cases htarget : s.target = 0
    · simp [htarget]
    · simp only [htarget, if_false, implies_true, true_and]
      rintro p hp
      obtain rfl := Option.some.inj hp
      exact ⟨rfl, htarget⟩

/-! ## Kernel extension -/

theorem PluginInv.moved (h : PluginInv isN3DS f s) {config : UInt32} {place : PluginPlace}
    (hstage : s.target = 0 ∧
        (config, place, s.pluginIsSwapped || s.pluginIsHome, s.waiting) = (plgCfgNone, .absent, false, 0) ∨
      s.target ≠ 0 ∧ (config, place, s.pluginIsSwapped || s.pluginIsHome, s.waiting) ∈ pluginStages) :
    PluginInv isN3DS f { s with config := config, place := place } :=
  ⟨h.loaded, hstage, h.strategy, h.isReady, h.allocated, h.exeMapped, h.heapMapped, h.size, h.swapFile, h.restored⟩

theorem stage_iff {config : UInt32} {place : PluginPlace} {away : Bool} {waiting : Nat} :
    s.stage = (config, place, away, waiting) ↔
      s.config = config ∧ s.place = place ∧ (s.pluginIsSwapped || s.pluginIsHome) = away ∧ s.waiting = waiting := by
  unfold PluginState.stage
  simp only [Prod.mk.injEq]

/-- The stages in which no event waits. -/
theorem PluginInv.settled (h : PluginInv isN3DS f s) (he : s.event = 0) :
    s.target = 0 ∧ s.stage = (plgCfgNone, .absent, false, 0) ∨
      s.target ≠ 0 ∧ (s.stage = (plgCfgRunning, .running, false, 0) ∨ s.stage = (plgCfgInHome, .home, true, 0) ∨
        s.stage = (plgCfgExiting, .exiting, false, 1)) := by
  have hno {config : UInt32} (hevent : config &&& 0xFFFF0000 ≠ 0) : s.config ≠ config := by
    rintro rfl
    exact hevent he
  rcases h.stage with hidle | ⟨ht, hstage⟩
  · exact Or.inl hidle
  · refine Or.inr ⟨ht, ?_⟩
    unfold pluginStages at hstage
    simp only [List.mem_cons, List.not_mem_nil, or_false] at hstage
    rcases hstage with hs | hs | hs | hs | hs | hs
    · exact Or.inl hs
    · exact absurd (stage_iff.mp hs).1 (hno (by decide))
    · exact Or.inr (Or.inl hs)
    · exact absurd (stage_iff.mp hs).1 (hno (by decide))
    · exact absurd (stage_iff.mp hs).1 (hno (by decide))
    · exact Or.inr (Or.inr hs)

theorem status_of_config {config : UInt32} (h : s.config = config) : s.status = config &&& 0xFFFF := by
  unfold PluginState.status
  rw [h]

/-- In the home menu every parameter counts. -/
theorem signalsHome_inHome (hs : s.status = plgCfgInHome) (p : AptParameter) :
    signalsHome s p = (p.forApplication && p.received) := by
  have hany : (decide (p.command ≥ 10) || decide (p.command ≤ 12)) = true := by
    rw [Bool.or_eq_true, decide_eq_true_eq, decide_eq_true_eq, ge_iff_le, UInt32.le_iff_toNat_le, UInt32.le_iff_toNat_le]
    change 10 ≤ _ ∨ _ ≤ 12
    omega
  unfold signalsHome
  rw [hs, hany]
  simp [plgCfgRunning, plgCfgInHome]

theorem PluginInv.receiveParameter (h : PluginInv isN3DS f s) {p : AptParameter} (ho : s.Orderly (.parameter p)) :
    PluginInv isN3DS f (receiveParameter s p) := by
  obtain ⟨he, hreturn⟩ := ho
  have hmoved (config : UInt32) (place : PluginPlace) (ht : s.target ≠ 0)
      (hmem : (config, place, s.pluginIsSwapped || s.pluginIsHome, s.waiting) ∈ pluginStages) :
      PluginInv isN3DS f { s with config := config, place := place } := h.moved (Or.inr ⟨ht, hmem⟩)
  unfold Rosalina.receiveParameter
  rcases h.settled he with ⟨ht, hs⟩ | ⟨ht, hs | hs | hs⟩ <;> obtain ⟨hc, hp, haway, hw⟩ := stage_iff.mp hs
  · have hstatus : s.status = plgCfgNone := (status_of_config hc).trans (by decide)
    have hno : signalsHome s p = false := by
      unfold signalsHome
      rw [hstatus]
      simp [plgCfgNone, plgCfgRunning, plgCfgInHome]
    rw [hno, hp]
    exact h.moved (Or.inl ⟨ht, by simp [AptParameter.moves, hc, haway, hw]⟩)
  · have hstatus : s.status = plgCfgRunning := (status_of_config hc).trans (by decide)
    have hsignal : signalsHome s p = (p.forApplication && p.received && p.command == 3) := by
      unfold signalsHome
      rw [hstatus]
      simp [plgCfgRunning, plgCfgInHome]
    rw [hsignal, hp]
    unfold AptParameter.moves
    dsimp only
    -- the application leaves, or it stays where it is
    split_ifs with hleaves
    · exact hmoved _ .home ht (by rw [hc, haway, hw]; decide)
    · exact hmoved _ .running ht (by rw [hc, haway, hw]; decide)
  · have hstatus : s.status = plgCfgInHome := (status_of_config hc).trans (by decide)
    have hcommand : (p.forApplication && p.received) = true → 10 ≤ p.command ∧ p.command ≤ 12 := by
      intro hreceived
      rw [Bool.and_eq_true] at hreceived
      exact hreturn hstatus hreceived.1 hreceived.2
    have hmoves : p.moves .home = if p.forApplication && p.received then .running else .home := by
      unfold AptParameter.moves
      dsimp only
      rcases hreceived : p.forApplication && p.received
      · rfl
      · simp [hcommand hreceived]
    rw [signalsHome_inHome hstatus, hp, hmoves]
    split_ifs with hback
    · exact hmoved _ .running ht (by rw [hc, haway, hw]; decide)
    · exact hmoved _ .home ht (by rw [hc, haway, hw]; decide)
  · have hstatus : s.status = plgCfgExiting := (status_of_config hc).trans (by decide)
    have hno : signalsHome s p = false := by
      unfold signalsHome
      rw [hstatus]
      simp [plgCfgExiting, plgCfgRunning, plgCfgInHome]
    rw [hno, hp]
    exact hmoved _ .exiting ht (by rw [hc, haway, hw]; decide)

theorem PluginInv.exitTarget (h : PluginInv isN3DS f s) (hloaded : s.loaded.isSome = true) (ho : s.Orderly .exit) :
    PluginInv isN3DS f (exitTarget s) := by
  obtain ⟨he, haway⟩ := ho
  unfold Rosalina.exitTarget
  rcases h.settled he with ⟨ht, -⟩ | ⟨ht, hs | hs | hs⟩
  · rw [h.loaded, if_pos ht] at hloaded
    cases hloaded
  · obtain ⟨hc, -, hflags, hw⟩ := stage_iff.mp hs
    rw [if_pos ((status_of_config hc).trans (by decide))]
    refine h.moved (Or.inr ⟨ht, ?_⟩)
    dsimp only
    rw [hc, hflags, hw]
    decide
  · exact absurd ((status_of_config (stage_iff.mp hs).1).trans (by decide)) haway
  · -- the exit has been handled already
    obtain ⟨hc, -, hflags, hw⟩ := stage_iff.mp hs
    have hstatus : s.status ≠ plgCfgRunning := by
      rw [status_of_config hc]
      decide
    rw [if_neg hstatus]
    refine h.moved (Or.inr ⟨ht, ?_⟩)
    rw [hc, hflags, hw]
    decide

/-! ## Load command -/

theorem PluginInv.not_held (h : PluginInv isN3DS f s) (ht : s.target = 0) :
    s.isReady = false ∧ s.allocated = false ∧ (∀ p, s.exeMapped p = false) ∧ ∀ p, s.heapMapped p = false := by
  have hholds : s.holds = false := by
    unfold PluginState.holds
    rw [ht]
    rfl
  refine ⟨h.isReady.trans hholds, h.allocated.trans hholds, fun p => ?_, fun p => ?_⟩
  · rw [h.exeMapped, hholds, Bool.false_and]
  · rw [h.heapMapped, hholds, Bool.false_and]

theorem PluginInv.idle (h : PluginInv isN3DS f s) (ht : s.target = 0) :
    s.pluginIsSwapped = false ∧ s.pluginIsHome = false ∧ s.waiting = 0 := by
  rcases h.stage with ⟨-, hstage⟩ | ⟨hne, -⟩
  · have haway := congrArg (fun x => x.2.2.1) hstage
    obtain ⟨hswapped, hhome⟩ := Bool.or_eq_false_iff.mp haway
    exact ⟨hswapped, hhome, congrArg (fun x => x.2.2.2) hstage⟩
  · exact absurd ht hne

/-- A plugin that is not loaded leaves settings behind, and no block. -/
theorem PluginInv.refused (h : PluginInv isN3DS f s) (ht : s.target = 0) {s' : PluginState} (ht' : s'.target = 0)
    (hstage : s'.stage = s.stage) (hloaded : s'.loaded = s.loaded) (hready : s'.isReady = false)
    (halloc : s'.allocated = false) (hexe : s'.exeMapped = s.exeMapped) (hheap : s'.heapMapped = s.heapMapped)
    (hrestored : s'.restored = s.restored) :
    PluginInv isN3DS f s' := by
  obtain ⟨-, -, hexe0, hheap0⟩ := h.not_held ht
  have hholds : s'.holds = false := by
    unfold PluginState.holds
    rw [ht']
    rfl
  have hidle : s'.stage = (plgCfgNone, .absent, false, 0) := by
    rcases h.stage with ⟨-, hs⟩ | ⟨hne, -⟩
    · exact hstage.trans hs
    · exact absurd ht hne
  have haway : s'.pluginIsSwapped = false ∧ s'.pluginIsHome = false := by
    have hfst := congrArg (fun x => x.2.2.1) hidle
    exact Bool.or_eq_false_iff.mp hfst
  constructor
  · rw [hloaded, h.loaded, ht, ht']
  · exact Or.inl ⟨ht', hidle⟩
  · rw [haway.1, haway.2, ite_self]
  · rw [hready, hholds]
  · rw [halloc, hholds]
  · intro p
    rw [hexe, hexe0, hholds, Bool.false_and]
  · intro p
    rw [hheap, hheap0, hholds, Bool.false_and]
  · intro hr
    rw [hready] at hr
    cases hr
  · intro hs
    rw [haway.1] at hs
    cases hs
  · rw [hrestored]
    exact h.restored

theorem PluginInv.loadPlugin (h : PluginInv isN3DS f s) {c : LoadCommand} (he : s.Enabled (.load c))
    (ho : s.Orderly (.load c)) : PluginInv isN3DS f (loadPlugin s c) := by
  obtain ⟨ht, hmount, hfreed⟩ := ho
  obtain ⟨hprocess, himage⟩ := he
  obtain ⟨hready, halloc, hexe, hheap⟩ := h.not_held ht
  unfold Rosalina.loadPlugin tryToLoadPlugin
  rcases henabled : c.isEnabled with _ | _
  · exact h.refused ht rfl rfl rfl hready halloc rfl rfl rfl
  rcases hopened : c.opened with _ | _
  · exact h.refused ht rfl rfl rfl hready halloc rfl rfl rfl
  rcases haccepted : c.accepted with _ | _
  · simp only [Bool.false_eq_true, if_true, if_false, memoryBlockFree, hready]
    exact h.refused ht rfl rfl rfl rfl halloc rfl rfl rfl
  simp only [if_true, fillBlock, hready, memoryBlockIsReady, memoryBlockFree, Bool.false_eq_true, if_false]
  rcases hread : c.read with _ | _
  · simp only [Bool.false_eq_true, if_false, hfreed]
    exact h.refused ht rfl rfl rfl rfl rfl rfl rfl rfl
  simp only [if_true, mountAndHook, mountInProcess, memoryBlockFree]
  rcases hexe1 : c.answers.exe with _ | _
  · -- nothing has been mounted
    simp only [Bool.false_and, Bool.false_eq_true, if_false, hfreed, Bool.or_false, Function.update_eq_self]
    exact h.refused ht rfl rfl rfl rfl rfl rfl rfl rfl
  · obtain ⟨hheap1, hhooked⟩ := hmount hexe1
    have hne : c.process ≠ 0 := fun hzero => by simp [hprocess hzero] at hexe1
    have hbne : (c.process != 0) = true := bne_iff_ne.mpr hne
    obtain ⟨hswapped, hhome, hwaiting⟩ := h.idle ht
    simp only [hheap1, hhooked, Bool.and_self, if_true, Bool.or_true]
    refine ⟨(if_neg hne).symm, Or.inr ⟨hne, ?_⟩, ?_, ?_, ?_, ?_, ?_, ?_, ?_, h.restored⟩
    · simp [PluginState.stage, pluginStages, hswapped, hhome, hwaiting]
    · simp [hswapped, hhome]
    · simp [PluginState.holds, hbne, hswapped]
    · simp [PluginState.holds, hbne, hswapped]
    · intro p
      simp [PluginState.holds, hbne, hswapped, Function.update_apply, hexe, beq_eq_decide]
    · intro p
      simp [PluginState.holds, hbne, hswapped, Function.update_apply, hheap, beq_eq_decide]
    · exact fun _ => himage
    · intro hs
      rw [hswapped] at hs
      cases hs

/-! ## Swapping -/

theorem holds_true (ht : s.target ≠ 0) (hs : s.pluginIsSwapped = false) : s.holds = true := by
  unfold PluginState.holds
  rw [hs, bne_iff_ne.mpr ht]
  rfl

theorem holds_of_swapped (hs : s.pluginIsSwapped = true) : s.holds = false := by
  unfold PluginState.holds
  rw [hs, Bool.not_true, Bool.and_false]

/-- Nothing is mapped when the plugin is unmounted. -/
theorem unmounted {mapped : UInt32 → Bool}
    (hmapped : ∀ p, mapped p = (s.holds && p == s.target)) (p : UInt32) :
    Function.update mapped s.target (mapped s.target && !true) p = false := by
  rw [Function.update_apply]
  split_ifs with hp
  · rw [Bool.not_true, Bool.and_false]
  · rw [hmapped, beq_eq_false_iff_ne.mpr hp, Bool.and_false]

theorem PluginInv.swapOut (h : PluginInv isN3DS f s) (hf : f.Undoes) {a : BlockAnswers} {s' : PluginState}
    (ha : a.exe = true ∧ a.heap = true ∧ a.freed = true) (ht : s.target ≠ 0) (hs : s.pluginIsSwapped = false)
    (hswaps : s.swaps isN3DS = true) (hp : s.place = .home) (hw : s.waiting = 0) (hstep : swapOut f s a = some s') :
    PluginInv isN3DS f s' := by
  have hholds := holds_true ht hs
  have hready := h.isReady.trans hholds
  have hhome : s.pluginIsHome = false := by
    have hstrategy := h.strategy
    rwa [if_pos hswaps] at hstrategy
  obtain ⟨hexe, hheap, hfreed⟩ := ha
  obtain ⟨t, hfile, rfl⟩ := Option.map_eq_some_iff.mp hstep
  unfold toSwapFile at hfile
  dsimp only at hfile
  split_ifs at hfile
  obtain rfl := Option.some.inj hfile
  have hlen := hf.length s.memblock
  unfold unmountFromProcess memoryBlockFree
  simp only [hready, if_true, hfreed, hexe, hheap, Bool.not_true, Bool.and_false]
  refine ⟨h.loaded, Or.inr ⟨ht, ?_⟩, ?_, ?_, ?_, ?_, ?_, ?_, ?_, h.restored⟩
  · simp [PluginState.stage, pluginStages, hp, hw]
  · show (if s.swaps isN3DS = true then s.pluginIsHome else true) = false
    rw [if_pos hswaps, hhome]
  · exact (holds_of_swapped rfl).symm
  · exact (holds_of_swapped rfl).symm
  · intro p
    rw [holds_of_swapped rfl, Bool.false_and]
    have := unmounted h.exeMapped p
    rwa [Bool.not_true, Bool.and_false] at this
  · intro p
    rw [holds_of_swapped rfl, Bool.false_and]
    have := unmounted h.heapMapped p
    rwa [Bool.not_true, Bool.and_false] at this
  · exact fun hr => by cases hr
  · intro _
    have hsize := h.size hready
    exact ⟨List.take_left' (hlen.trans hsize), hsize⟩

theorem PluginInv.swapIn (h : PluginInv isN3DS f s) (hf : f.Undoes) {a : BlockAnswers} {s' : PluginState}
    (ha : a.exe = true ∧ a.heap = true ∧ a.freed = true) (ht : s.target ≠ 0) (hs : s.pluginIsSwapped = true)
    (hswaps : s.swaps isN3DS = true) (hp : s.place = .running) (hw : s.waiting = 0) (hstep : swapIn f s a = some s') :
    PluginInv isN3DS f s' := by
  have hready := h.isReady.trans (holds_of_swapped hs)
  obtain ⟨hread, hsize⟩ := h.swapFile hs
  obtain ⟨hexe, hheap, -⟩ := ha
  obtain ⟨t, hfile, rfl⟩ := Option.map_eq_some_iff.mp hstep
  unfold memoryBlockIsReady fromSwapFile at hfile
  simp only [hready, Bool.false_eq_true, if_false, hread] at hfile
  split_ifs at hfile
  obtain rfl := Option.some.inj hfile
  have hback := hf.load_save s.swappedOut
  have hbne : (s.target != 0) = true := bne_iff_ne.mpr ht
  have hhome : s.pluginIsHome = false := by
    have hstrategy := h.strategy
    rwa [if_pos hswaps] at hstrategy
  unfold mountInProcess
  simp only [hback, hexe, hheap, Bool.and_self, Bool.or_true]
  refine ⟨h.loaded, Or.inr ⟨ht, ?_⟩, ?_, ?_, ?_, ?_, ?_, ?_, ?_, ?_⟩
  · simp [PluginState.stage, pluginStages, hp, hw, hhome]
  · show (if s.swaps isN3DS = true then s.pluginIsHome else false) = false
    rw [hhome, ite_self]
  · simp [PluginState.holds, hbne]
  · simp [PluginState.holds, hbne]
  · intro p
    simp [PluginState.holds, hbne, Function.update_apply, h.exeMapped, hs, beq_eq_decide]
  · intro p
    simp [PluginState.holds, hbne, Function.update_apply, h.heapMapped, hs, beq_eq_decide]
  · exact fun _ => hsize
  · exact fun hs' => by cases hs'
  · intro x hx
    rcases List.mem_append.mp hx with hx | hx
    · exact h.restored x hx
    · obtain rfl := List.mem_singleton.mp hx
      rfl

theorem event_of_config {config : UInt32} (h : s.config = config) : s.event = config &&& 0xFFFF0000 := by
  unfold PluginState.event
  rw [h]

/-- Without an event nothing happens. -/
theorem handleKernelEvent_none {a : BlockAnswers} (he : s.event = 0) : handleKernelEvent isN3DS f s a = some s := by
  unfold Rosalina.handleKernelEvent
  rw [he, if_neg (by decide : (0 : UInt32) ≠ plgCfgExitEvent), if_neg (by decide : (0 : UInt32) ≠ plgCfgHomeEvent),
    ite_self]

/-- The application leaves or comes back. -/
theorem PluginInv.homeEvent (h : PluginInv isN3DS f s) (hf : f.Undoes) {a : BlockAnswers} {s' : PluginState}
    (ha : a.exe = true ∧ a.heap = true ∧ a.freed = true) (ht : s.target ≠ 0) (hw : s.waiting = 0)
    (hplace : s.place = (if s.pluginIsSwapped || s.pluginIsHome then .running else .home))
    (hstatus : s.status ≠ plgCfgExiting) (he : s.event = plgCfgHomeEvent)
    (hstep : handleKernelEvent isN3DS f s a = some s') : PluginInv isN3DS f s' := by
  unfold Rosalina.handleKernelEvent at hstep
  rw [if_neg hstatus, he, if_neg (by decide : plgCfgHomeEvent ≠ plgCfgExitEvent), if_pos rfl,
    show (s.pluginMemoryStrategy == plgStrategySwap && !isN3DS) = s.swaps isN3DS from rfl] at hstep
  by_cases hswaps : s.swaps isN3DS = true
  · have hhome : s.pluginIsHome = false := by
      have hstrategy := h.strategy
      rwa [if_pos hswaps] at hstrategy
    rw [hhome, Bool.or_false] at hplace
    rw [if_pos hswaps] at hstep
    rcases hs : s.pluginIsSwapped with _ | _
    · rw [hs, if_neg Bool.false_ne_true] at hplace hstep
      exact h.swapOut hf ha ht hs hswaps hplace hw hstep
    · rw [hs, if_pos rfl] at hplace hstep
      exact h.swapIn hf ha ht hs hswaps hplace hw hstep
  · have hs : s.pluginIsSwapped = false := by
      have hstrategy := h.strategy
      rwa [if_neg hswaps] at hstrategy
    rw [hs, Bool.false_or] at hplace
    rw [if_neg hswaps] at hstep
    obtain rfl := Option.some.inj hstep
    refine ⟨h.loaded, Or.inr ⟨ht, ?_⟩, ?_, h.isReady, h.allocated, h.exeMapped, h.heapMapped, h.size, h.swapFile,
      h.restored⟩
    · unfold PluginState.stage
      dsimp only
      rw [hs, hw, hplace]
      rcases s.pluginIsHome with _ | _ <;> decide
    · show (if s.swaps isN3DS = true then !s.pluginIsHome else s.pluginIsSwapped) = false
      rw [if_neg hswaps, hs]

theorem PluginInv.handleKernelEvent (h : PluginInv isN3DS f s) (hf : f.Undoes) {a : BlockAnswers} {s' : PluginState}
    (ha : a.exe = true ∧ a.heap = true ∧ a.freed = true) (hstep : handleKernelEvent isN3DS f s a = some s') :
    PluginInv isN3DS f s' := by
  by_cases he : s.event = 0
  · rw [handleKernelEvent_none he] at hstep
    exact Option.some.inj hstep ▸ h
  · have hsettled {config : UInt32} (hc : s.config = config) (hnone : config &&& 0xFFFF0000 = 0) : False :=
      he ((event_of_config hc).trans hnone)
    rcases h.stage with ⟨-, hs⟩ | ⟨ht, hstage⟩
    · exact (hsettled (stage_iff.mp hs).1 (by decide)).elim
    · unfold pluginStages at hstage
      simp only [List.mem_cons, List.not_mem_nil, or_false] at hstage
      rcases hstage with hs | hs | hs | hs | hs | hs <;> obtain ⟨hc, hp, haway, hw⟩ := stage_iff.mp hs
      · exact (hsettled hc (by decide)).elim
      · refine h.homeEvent hf ha ht hw (by rw [haway, hp]; rfl) ?_ ((event_of_config hc).trans (by decide)) hstep
        rw [status_of_config hc]
        decide
      · exact (hsettled hc (by decide)).elim
      · refine h.homeEvent hf ha ht hw (by rw [haway, hp]; rfl) ?_ ((event_of_config hc).trans (by decide)) hstep
        rw [status_of_config hc]
        decide
      · -- the process is about to exit
        unfold Rosalina.handleKernelEvent at hstep
        rw [status_of_config hc, event_of_config hc, if_neg (by decide), if_pos (by decide)] at hstep
        obtain rfl := Option.some.inj hstep
        refine ⟨h.loaded, Or.inr ⟨ht, ?_⟩, h.strategy, h.isReady, h.allocated, h.exeMapped, h.heapMapped, h.size,
          h.swapFile, h.restored⟩
        unfold PluginState.stage
        dsimp only
        rw [haway, hp, hw]
        decide
      · exact (hsettled hc (by decide)).elim

theorem PluginInv.waitForProcessTerminated (h : PluginInv isN3DS f s) {a : BlockAnswers} (hw : 0 < s.waiting)
    (ha : a.exe = true ∧ a.heap = true ∧ a.freed = true) : PluginInv isN3DS f (waitForProcessTerminated s a) := by
  obtain ⟨hexe, hheap, hfreed⟩ := ha
  obtain ⟨ht, haway, hone⟩ : s.target ≠ 0 ∧ (s.pluginIsSwapped || s.pluginIsHome) = false ∧ s.waiting = 1 := by
    rcases h.stage with ⟨-, hs⟩ | ⟨ht, hstage⟩
    · have hno := (stage_iff.mp hs).2.2.2
      omega
    · have honly : ∀ x ∈ pluginStages, 0 < x.2.2.2 → x.2.2 = (false, 1) := by decide
      obtain ⟨haway, hone⟩ := Prod.mk.inj (honly s.stage hstage hw)
      exact ⟨ht, haway, hone⟩
  have hs : s.pluginIsSwapped = false := (Bool.or_eq_false_iff.mp haway).1
  have hready := h.isReady.trans (holds_true ht hs)
  unfold Rosalina.waitForProcessTerminated unmountFromProcess memoryBlockFree
  simp only [hs, Bool.false_eq_true, if_false, hready, if_true, hfreed, hexe, hheap, Bool.not_true, Bool.and_false]
  refine ⟨rfl, Or.inl ⟨rfl, ?_⟩, ?_, ?_, ?_, ?_, ?_, ?_, ?_, h.restored⟩
  · simp [PluginState.stage, hone]
  · exact ite_self _
  · rfl
  · rfl
  · intro p
    have hnone := unmounted h.exeMapped p
    rw [Bool.not_true, Bool.and_false] at hnone
    exact hnone.trans (Bool.false_and _).symm
  · intro p
    have hnone := unmounted h.heapMapped p
    rw [Bool.not_true, Bool.and_false] at hnone
    exact hnone.trans (Bool.false_and _).symm
  · exact fun hr => by cases hr
  · exact fun hs' => by cases hs'

theorem PluginInv.step (h : PluginInv isN3DS f s) (hf : f.Undoes) {i : PluginInput} {s' : PluginState}
    (he : s.Enabled i) (ho : s.Orderly i) (hstep : s.step isN3DS f i = some s') : PluginInv isN3DS f s' := by
  cases i with
  | load c =>
    obtain rfl := Option.some.inj hstep
    exact h.loadPlugin he ho
  | parameter p =>
    obtain rfl := Option.some.inj hstep
    exact h.receiveParameter ho
  | exit =>
    obtain rfl := Option.some.inj hstep
    exact h.exitTarget he ho
  | kernelEvent a => exact h.handleKernelEvent hf ho hstep
  | terminated a =>
    obtain rfl := Option.some.inj hstep
    exact h.waitForProcessTerminated he ho
  | write m =>
    obtain rfl := Option.some.inj hstep
    exact ⟨h.loaded, h.stage, h.strategy, h.isReady, h.allocated, h.exeMapped, h.heapMapped,
      fun hr => he.2.trans (h.size hr), h.swapFile, h.restored⟩

/-- As long as commands and events come in order and the kernel does what it is asked, the parts of the loader's state
agree. -/
theorem plugin_state_consistent (isN3DS : Bool) (f : SwapFunctions) (hf : f.Undoes) (s : PluginState)
    (hr : ((pluginSystem isN3DS f).restrict PluginState.Orderly).Reachable s) : s.Consistent := by
  have hinv : PluginInv isN3DS f s := by
    refine hr.invariant ?_ ?_
    · rintro s rfl
      exact pluginInv_init
    · rintro s i s' - hinv ⟨horderly, henabled, hstep⟩
      exact hinv.step hf henabled horderly hstep
  exact hinv.consistent

end

/-! ## Commands and parameters out of order -/

/-- A load command that finds no plugin forgets the target, and leaves the block of a plugin that is loaded. -/
theorem loadPlugin_forgets (s : PluginState) {c : LoadCommand} (hc : c.isEnabled = false ∨ c.opened = false) :
    (loadPlugin s c).target = 0 ∧ (loadPlugin s c).allocated = s.allocated ∧ (loadPlugin s c).loaded = s.loaded := by
  unfold loadPlugin tryToLoadPlugin
  rcases hc with hc | hc
  · rw [hc]
    exact ⟨rfl, rfl, rfl⟩
  · rw [hc]
    rcases c.isEnabled with _ | _
    · exact ⟨rfl, rfl, rfl⟩
    · exact ⟨rfl, rfl, rfl⟩

def willing : BlockAnswers := ⟨true, true, true, true⟩

/-- A plugin of 2 MiB with swap functions. -/
def sampleLoad : LoadCommand where
  process := 5
  isEnabled := true
  userStrategy := none
  opened := true
  accepted := true
  swapNotNeeded := false
  memoryRegionSize := 1
  embeddedSwapFunctions := true
  read := true
  image := List.replicate (2 * 1024 * 1024) 0
  answers := willing
  hooked := true

def copying : SwapFunctions := ⟨fun m => (m, 0), fun m => (m, 0)⟩

theorem copying_undoes : copying.Undoes := ⟨fun _ => rfl, fun _ => rfl⟩

/-- The application has left, and the event waits. -/
def leaving : PluginState := receiveParameter (loadPlugin .init sampleLoad) ⟨true, true, 3⟩

theorem reachable_parameter {isN3DS : Bool} {f : SwapFunctions} {s : PluginState} (h : (pluginSystem isN3DS f).Reachable s)
    (p : AptParameter) : (pluginSystem isN3DS f).Reachable (receiveParameter s p) := by
  have hstep : (pluginSystem isN3DS f).step s (.parameter p) (receiveParameter s p) := ⟨trivial, rfl⟩
  exact h.step hstep

theorem reachable_kernelEvent {isN3DS : Bool} {f : SwapFunctions} {s s' : PluginState} {a : BlockAnswers}
    (h : (pluginSystem isN3DS f).Reachable s) (hs : handleKernelEvent isN3DS f s a = some s') :
    (pluginSystem isN3DS f).Reachable s' := by
  have hstep : (pluginSystem isN3DS f).step s (.kernelEvent a) s' := ⟨trivial, hs⟩
  exact h.step hstep

theorem leaving_reachable (isN3DS : Bool) :
    ((pluginSystem isN3DS copying).restrict PluginState.Orderly).Reachable leaving := by
  have hload : PluginState.init.Orderly (.load sampleLoad) := ⟨rfl, fun _ => ⟨rfl, rfl⟩, rfl⟩
  have hsized : PluginState.init.Enabled (.load sampleLoad) :=
    ⟨fun hzero => absurd hzero (by decide), List.length_replicate⟩
  have hleave : (loadPlugin .init sampleLoad).Orderly (.parameter ⟨true, true, 3⟩) :=
    ⟨by decide, fun hstatus => absurd hstatus (by decide)⟩
  have hloaded : ((pluginSystem isN3DS copying).restrict PluginState.Orderly).Reachable (loadPlugin .init sampleLoad) :=
    .step (i := .load sampleLoad) (.init rfl) ⟨hload, hsized, rfl⟩
  have hleft : ((pluginSystem isN3DS copying).restrict PluginState.Orderly).step (loadPlugin .init sampleLoad)
      (.parameter ⟨true, true, 3⟩) leaving := ⟨hleave, trivial, rfl⟩
  exact hloaded.step hleft

theorem swappedOut_consistent :
    ∃ s : PluginState, s.pluginIsSwapped = true ∧ s.status = plgCfgInHome ∧ s.Consistent := by
  have hrun : (handleKernelEvent false copying leaving willing).any
      (fun s => s.pluginIsSwapped = true ∧ s.status = plgCfgInHome) = true := by decide
  obtain ⟨s, hs, hprop⟩ := (Option.any_eq_true _ _).mp hrun
  obtain ⟨hswapped, hstatus⟩ := of_decide_eq_true hprop
  have hkernel : leaving.Orderly (.kernelEvent willing) := ⟨rfl, rfl, rfl⟩
  have haway : ((pluginSystem false copying).restrict PluginState.Orderly).step leaving (.kernelEvent willing) s :=
    ⟨hkernel, trivial, hs⟩
  exact ⟨s, hswapped, hstatus,
    plugin_state_consistent false copying copying_undoes s ((leaving_reachable false).step haway)⟩

/-- While the application is in the home menu it receives a parameter that does not bring it back, and the plugin is told
that it is running. -/
theorem home_parameter_not_consistent : ¬ ∀ (isN3DS : Bool) (f : SwapFunctions), f.Undoes → ∀ s : PluginState,
    (pluginSystem isN3DS f).Reachable s → s.Consistent := by
  intro hclaim
  have hrun : ((handleKernelEvent true copying leaving willing).bind fun s =>
      handleKernelEvent true copying (receiveParameter s ⟨true, true, 1⟩) willing).any
        (fun s => s.event = 0 ∧ s.status ≠ s.place.status) = true := by decide
  obtain ⟨s, hs, hprop⟩ := (Option.any_eq_true _ _).mp hrun
  obtain ⟨hevent, hstatus⟩ := of_decide_eq_true hprop
  obtain ⟨t, ht, hs⟩ := Option.bind_eq_some_iff.mp hs
  have hleft : (pluginSystem true copying).Reachable leaving := (leaving_reachable true).of_restrict
  have hr := reachable_kernelEvent (reachable_parameter (reachable_kernelEvent hleft ht) ⟨true, true, 1⟩) hs
  exact hstatus ((hclaim true copying copying_undoes s hr).status hevent)

end Omiiba.Rosalina
