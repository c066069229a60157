/-
What is left of a plugin that could not be loaded, after file_loader.c and memoryblock.c: the file is closed, but the memory
block is freed whoever it belongs to, and what has been mapped in the process stays mapped.
-/
import Omiiba.Rosalina.PluginState

namespace Omiiba.Rosalina

/-! ## Resources -/

/-- The file that is being loaded, the blocks that the kernel has given out for plugins, the one the loader has ready, and
the plugin memory that is mapped in the process, with the address it is mapped at. -/
structure PluginResources where
  fileOpen : Bool
  blocks : List UInt32
  memblock : Option UInt32
  mapped : List (UInt32 × UInt32)
  owned : ∀ b ∈ memblock, b ∈ blocks

namespace PluginResources

variable (a : BlockAnswers) (s : PluginResources)

/-- A file is opened, or not. -/
def opened (fileOpen : Bool) : PluginResources := { s with fileOpen }

/-- `MemoryBlock__IsReady`, when the kernel has memory. -/
def allocate (block : UInt32) : PluginResources :=
  { s with
    blocks := block :: s.blocks
    memblock := some block
    owned := by simp }

/-- `MemoryBlock__Free`. -/
def free : PluginResources :=
  match s.memblock with
  | none => s
  | some b =>
    { s with
      blocks := if a.freed then s.blocks.erase b else s.blocks
      memblock := none
      owned := by simp }

def map (va block : UInt32) : PluginResources := { s with mapped := (va, block) :: s.mapped }

/-- `MemoryBlock__MountInProcess`, and if it succeeds. -/
def mountInProcess (block : UInt32) : PluginResources × Bool :=
  if a.exe then
    if a.heap then ((s.map 0x07000000 block).map 0x06000000 block, true)
    else (s.map 0x07000000 block, false)
  else (s, false)

/-- `IFile_Close`. -/
def close : PluginResources := { s with fileOpen := false }

/-- What is behind `exitFail`. -/
def exitFail : PluginResources × Bool := (s.close.free a, false)

/-- The end of `TryToLoadPlugin`: the block is mounted, and the first page of the game is mapped to install the hook. -/
def mountAndHook (env : PluginEnv) : PluginResources × Bool :=
  let (s, mounted) := s.mountInProcess a env.block.address
  if mounted && env.mapped then (s.close, true) else s.exitFail a

end PluginResources

/-! ## Loading -/

namespace PluginFile

variable (file : PluginFile) (env : PluginEnv) (a : BlockAnswers)

/-- The checks before the size of the memory block is set. -/
def headerChecks : List (Bool × PluginError) :=
  [(env.sizeKnown, .fileSize), (env.reads 0, .readFile), (file.magic.toUInt32 = pluginMagic.toUInt32, .invalidFile),
    (file.versionDifference ≥ 0, .outdatedPlugin), (file.versionDifference ≤ 0, .outdatedLoader), (env.reads 1, .readFile),
    (file.header.compatibility ≠ 1, .onlyEmulators), (!env.isHomebrew || file.header.allowHomebrewLoad, .notForHomebrew)]

/-- The checks with the memory block, before it is mounted. -/
def bodyChecks : List (Bool × PluginError) :=
  let parsed := (file.parseHeader env).header
  [(env.reads 2, .readFile), ((!parsed.embeddedExeLoadFunc && !parsed.embeddedSwapSaveLoadFunc) || env.payloadsValid, .payloads),
    (parsed.targetsCount = 0 || env.listsTitle, .incompatible), (env.reads 3, .readCode),
    (env.exeLoadFunctionSet || parsed.embeddedExeLoadFunc, .noLoadFunction),
    (env.loadChecksum = parsed.exeLoadChecksum, .corrupted)]

def headerAccepted : Bool := (file.headerChecks env).all Prod.fst

def bodyAccepted : Bool := (file.bodyChecks env).all Prod.fst

/-- `TryToLoadPlugin`, by what it takes and gives back; the console is rebooted when there is no memory for the block. -/
def tryToLoadPlugin (s : PluginResources) : Option (PluginResources × Bool) :=
  let s := s.opened env.opened
  if !env.opened then some (s, false)
  else if !file.headerAccepted env then some (s.exitFail a)
  -- the size of a block cannot be set while there is one
  else if s.memblock.isSome then some (s.exitFail a)
  else if !env.allocated then none
  else
    let s := s.allocate env.block.address
    if !file.bodyAccepted env then some (s.exitFail a) else some (s.mountAndHook a env)

end PluginFile

/-- The file is closed, nothing more is mapped in the process than before, and the blocks are those from before: none of
them was freed, and none is left that was allocated for this plugin. -/
structure PluginResources.Restored (s s' : PluginResources) : Prop where
  closed : s'.fileOpen = false
  mapped : s'.mapped = s.mapped
  blocks : s'.blocks = s.blocks

namespace PluginResources

variable {a : BlockAnswers} {env : PluginEnv} {s : PluginResources} {block : UInt32}

/-! ## The exit -/

theorem free_spec (s : PluginResources) : (s.free a).fileOpen = s.fileOpen ∧ (s.free a).mapped = s.mapped ∧
    (s.free a).memblock = none ∧
      (s.free a).blocks = if a.freed then s.memblock.elim s.blocks s.blocks.erase else s.blocks := by
  unfold free
  cases hblock : s.memblock with
  | none => simp [hblock]
  | some b => simp

@[simp] theorem exitFail_fileOpen : (s.exitFail a).1.fileOpen = false := (free_spec s.close).1

@[simp] theorem exitFail_mapped : (s.exitFail a).1.mapped = s.mapped := (free_spec s.close).2.1

theorem exitFail_blocks :
    (s.exitFail a).1.blocks = if a.freed then s.memblock.elim s.blocks s.blocks.erase else s.blocks :=
  (free_spec s.close).2.2.2

/-- A block that is ready is freed. -/
theorem restored_exitFail_iff : s.Restored ((s.opened true).exitFail a).1 ↔ (s.memblock.isSome = true → a.freed = false) := by
  have hblocks := exitFail_blocks (s := s.opened true) (a := a)
  have howned := s.owned
  simp only [opened] at hblocks
  constructor
  · rintro ⟨-, -, hsame⟩ hready
    obtain ⟨b, hb⟩ := Option.isSome_iff_exists.mp hready
    by_contra hfreed
    -- there would be one block less
    rw [Bool.not_eq_false] at hfreed
    rw [opened, hblocks, hfreed, hb] at hsame
    have hlength := congrArg List.length hsame
    have hmem := howned b hb
    rw [if_pos rfl, Option.elim_some, List.length_erase_of_mem hmem] at hlength
    have hpos := List.length_pos_of_mem hmem
    omega
  · intro hkept
    refine ⟨exitFail_fileOpen, exitFail_mapped, ?_⟩
    rw [opened, hblocks]
    cases hb : s.memblock with
    | none => simp
    | some b => simp [hkept (by simp [hb])]

/-- A block that was allocated is gone if the kernel frees it. -/
theorem restored_allocate_iff : s.Restored (((s.opened true).allocate block).exitFail a).1 ↔ a.freed = true := by
  have hblocks := exitFail_blocks (s := (s.opened true).allocate block) (a := a)
  simp only [opened, allocate] at hblocks
  constructor
  · rintro ⟨-, -, hsame⟩
    by_contra hfreed
    rw [opened, allocate, hblocks, if_neg hfreed] at hsame
    exact absurd (congrArg List.length hsame) (by simp)
  · intro hfreed
    refine ⟨exitFail_fileOpen, exitFail_mapped, ?_⟩
    rw [opened, allocate, hblocks, if_pos hfreed]
    simp

/-- What was mapped before the failure stays mapped. -/
theorem mountAndHook_cases (a : BlockAnswers) (env : PluginEnv) (s : PluginResources) :
    (a.exe = false ∧ s.mountAndHook a env = s.exitFail a) ∨
    (a.exe = true ∧ (a.heap = false ∨ env.mapped = false) ∧ ∃ (s' : PluginResources) (m : List (UInt32 × UInt32)),
      m ≠ [] ∧ s'.mapped = m ++ s.mapped ∧ s.mountAndHook a env = s'.exitFail a) ∨
    (a.exe = true ∧ a.heap = true ∧ env.mapped = true ∧ (s.mountAndHook a env).2 = true) := by
  unfold mountAndHook mountInProcess
  cases hexe : a.exe with
  | false => simp
  | true =>
    cases hheap : a.heap with
    | false =>
      -- the executable stays mapped
      exact .inr (.inl ⟨rfl, .inl rfl, s.map 0x07000000 env.block.address, [(0x07000000, env.block.address)], by simp, rfl,
        by simp⟩)
    | true =>
      cases hgame : env.mapped with
      | false =>
        -- and so does the heap
        exact .inr (.inl ⟨rfl, .inr rfl, (s.map 0x07000000 env.block.address).map 0x06000000 env.block.address,
          [(0x06000000, env.block.address), (0x07000000, env.block.address)], by simp, rfl, by simp⟩)
      | true => simp

end PluginResources

namespace PluginFile

variable {file : PluginFile} {env : PluginEnv} {a : BlockAnswers} {s s' : PluginResources}

/-! ## The plugins that are loaded -/

theorem checks_eq : file.checks env = (env.opened, .notOpened) :: file.headerChecks env ++
    [(!env.blockReady, .setBlockSize), (env.allocated, .allocate)] ++ file.bodyChecks env ++
      [(env.mounted, .mount), (env.mapped, .mapProcess)] := rfl

theorem tryToLoad_ok_iff : (∃ plugin, file.tryToLoad env = .ok plugin) ↔ (file.checks env).all Prod.fst = true := by
  unfold tryToLoad
  cases hfind : (file.checks env).find? fun check => !check.1 with
  | none =>
    have hall : (file.checks env).all Prod.fst = true := by
      simpa using List.find?_eq_none.mp hfind
    simp [hall]
  | some check =>
    have hfailed := List.find?_some hfind
    have hnot : ¬(file.checks env).all Prod.fst = true := by
      intro hall
      have hcheck := List.all_eq_true.mp hall check (List.mem_of_find?_eq_some hfind)
      simp [hcheck] at hfailed
    simp [hnot]

/-- What a call can do. -/
theorem tryToLoadPlugin_cases (file : PluginFile) (env : PluginEnv) (a : BlockAnswers) (s : PluginResources) :
    (env.opened = false ∧ file.tryToLoadPlugin env a s = some (s.opened false, false)) ∨
    (env.opened = true ∧ (file.headerAccepted env = false ∨ s.memblock.isSome = true) ∧
      file.tryToLoadPlugin env a s = some ((s.opened true).exitFail a)) ∨
    (env.opened = true ∧ file.headerAccepted env = true ∧ s.memblock = none ∧ env.allocated = false ∧
      file.tryToLoadPlugin env a s = none) ∨
    (env.opened = true ∧ file.headerAccepted env = true ∧ s.memblock = none ∧ env.allocated = true ∧
      file.bodyAccepted env = false ∧
        file.tryToLoadPlugin env a s = some (((s.opened true).allocate env.block.address).exitFail a)) ∨
    (env.opened = true ∧ file.headerAccepted env = true ∧ s.memblock = none ∧ env.allocated = true ∧
      file.bodyAccepted env = true ∧
        file.tryToLoadPlugin env a s = some (((s.opened true).allocate env.block.address).mountAndHook a env)) := by
  have hblock : (s.opened env.opened).memblock = s.memblock := rfl
  unfold tryToLoadPlugin
  simp only [hblock]
  cases hopened : env.opened with
  | false => simp
  | true =>
    cases hheader : file.headerAccepted env with
    | false => simp
    | true =>
      cases hmemblock : s.memblock with
      | some b => simp
      | none =>
        cases hallocated : env.allocated with
        | false => simp
        | true => cases hbody : file.bodyAccepted env <;> simp

/-- The plugins that are loaded are those that pass all checks. -/
theorem tryToLoadPlugin_true_iff (hready : env.blockReady = s.memblock.isSome) (hmounted : env.mounted = (a.exe && a.heap)) :
    (∃ s', file.tryToLoadPlugin env a s = some (s', true)) ↔ ∃ plugin, file.tryToLoad env = .ok plugin := by
  rw [tryToLoad_ok_iff, checks_eq]
  simp only [List.all_append, List.all_cons, List.all_nil, Bool.and_true, hready, hmounted]
  show _ ↔ (env.opened && file.headerAccepted env && (!s.memblock.isSome && env.allocated) && file.bodyAccepted env &&
    (a.exe && a.heap && env.mapped)) = true
  rcases tryToLoadPlugin_cases file env a s with ⟨hopened, h⟩ | ⟨-, hfail, h⟩ | ⟨-, -, -, hallocated, h⟩ |
    ⟨-, -, -, -, hbody, h⟩ | ⟨hopened, hheader, hblock, hallocated, hbody, h⟩
  · simp [h, hopened]
  · rcases hfail with hfail | hfail <;> simp [h, hfail, PluginResources.exitFail]
  · simp [h, hallocated]
  · simp [h, hbody, PluginResources.exitFail]
  · rw [h]
    rcases PluginResources.mountAndHook_cases a env ((s.opened true).allocate env.block.address) with
      ⟨hexe, hmount⟩ | ⟨-, hfail, x, m, -, -, hmount⟩ | ⟨hexe, hheap, hgame, hmount⟩
    · simp [hmount, hexe, PluginResources.exitFail]
    · rcases hfail with hfail | hfail <;> simp [hmount, hfail, PluginResources.exitFail]
    · refine ⟨fun _ => ?_, fun _ => ⟨_, congrArg some (Prod.ext rfl hmount)⟩⟩
      simp [hopened, hheader, hblock, hallocated, hbody, hexe, hheap, hgame]

/-- The failures that restore what was there: the file is not opened; no block is ready, and either the file is rejected
before one is allocated, or it is freed before anything of it is mapped. A block that is ready is kept only if the kernel
does not free it. -/
def FailsEarly (file : PluginFile) (env : PluginEnv) (a : BlockAnswers) (s : PluginResources) : Prop :=
  env.opened = false ∨ s.memblock.isSome = true ∧ a.freed = false ∨
    s.memblock = none ∧
      (file.headerAccepted env = false ∨ a.freed = true ∧ (file.bodyAccepted env = false ∨ a.exe = false))

/-- A plugin that could not be loaded leaves everything as it was exactly if it fails early. -/
theorem restored_iff (h : file.tryToLoadPlugin env a s = some (s', false)) : s.Restored s' ↔ file.FailsEarly env a s := by
  have hstate {x : PluginResources × Bool} (heq : file.tryToLoadPlugin env a s = some x) : x.1 = s' :=
    congrArg Prod.fst (Option.some.inj (heq.symm.trans h))
  rcases tryToLoadPlugin_cases file env a s with ⟨hopened, heq⟩ | ⟨hopened, hfail, heq⟩ | ⟨-, -, -, -, heq⟩ |
    ⟨hopened, hheader, hblock, -, hbody, heq⟩ | ⟨hopened, hheader, hblock, -, hbody, heq⟩
  · obtain rfl := hstate heq
    exact ⟨fun _ => .inl hopened, fun _ => ⟨rfl, rfl, rfl⟩⟩
  · -- the header is rejected, or there is a block already
    obtain rfl := hstate heq
    rw [PluginResources.restored_exitFail_iff]
    unfold FailsEarly
    cases hblock : s.memblock with
    | none =>
      have hheader : file.headerAccepted env = false := by simpa [hblock] using hfail
      simp [hheader]
    | some b => simp [hopened]
  · rw [heq] at h
    cases h
  · obtain rfl := hstate heq
    rw [PluginResources.restored_allocate_iff]
    simp [FailsEarly, hopened, hheader, hblock, hbody]
  · rcases PluginResources.mountAndHook_cases a env ((s.opened true).allocate env.block.address) with
      ⟨hexe, hmount⟩ | ⟨hexe, -, x, m, hm, hmapped, hmount⟩ | ⟨-, -, -, hmount⟩
    · rw [hmount] at heq
      obtain rfl := hstate heq
      rw [PluginResources.restored_allocate_iff]
      simp [FailsEarly, hopened, hheader, hblock, hbody, hexe]
    · -- what has been mapped stays so
      rw [hmount] at heq
      obtain rfl := hstate heq
      have hnot : ¬s.Restored (x.exitFail a).1 := by
        rintro ⟨-, hsame, -⟩
        rw [PluginResources.exitFail_mapped, hmapped] at hsame
        exact hm (List.append_left_eq_self.mp hsame)
      simp [FailsEarly, hopened, hheader, hblock, hbody, hexe, hnot]
    · rw [heq] at h
      rw [Option.some.inj h] at hmount
      cases hmount

end PluginFile

/-! ## Three failures -/

namespace PluginResources

/-- No plugin has memory yet. -/
def unused : PluginResources := ⟨false, [], none, [], by simp⟩

/-- A plugin of another process is mounted. -/
def inUse : PluginResources := ⟨false, [0x30000000], some 0x30000000, [], by simp⟩

/-- A plugin whose code cannot be read. -/
def unreadable : PluginEnv := { pluginEnv with reads := fun i => i ≠ 3 }

theorem unreadable_restored : ∃ s', (codePlugin 0x8000 0x6000).tryToLoadPlugin unreadable ⟨true, true, true, true⟩ unused =
    some (s', false) ∧ (unused.Restored s' ↔
      (codePlugin 0x8000 0x6000).FailsEarly unreadable ⟨true, true, true, true⟩ unused) := by
  have hload : (codePlugin 0x8000 0x6000).tryToLoadPlugin unreadable ⟨true, true, true, true⟩ unused =
      some (((unused.opened true).allocate 0x30000000).exitFail ⟨true, true, true, true⟩) := by
    have hheader : (codePlugin 0x8000 0x6000).headerAccepted unreadable = true := by decide
    have hbody : (codePlugin 0x8000 0x6000).bodyAccepted unreadable = false := by decide
    unfold PluginFile.tryToLoadPlugin
    rw [hheader, hbody]
    rfl
  exact ⟨_, hload, PluginFile.restored_iff hload⟩

/-- A second plugin that cannot be loaded takes the memory of the first one. When the heap of a plugin or the first page of
its game cannot be mapped, its executable stays in the process. -/
theorem failures_not_restored :
    (∃ s', (codePlugin 0x8000 0x6000).tryToLoadPlugin pluginEnv ⟨true, true, true, true⟩ inUse = some (s', false) ∧
      s'.blocks = [] ∧ ¬inUse.Restored s') ∧
    (∃ s', (codePlugin 0x8000 0x6000).tryToLoadPlugin pluginEnv ⟨true, false, true, true⟩ unused = some (s', false) ∧
      s'.mapped = [(0x07000000, 0x30000000)] ∧ ¬unused.Restored s') ∧
    (∃ s', (codePlugin 0x8000 0x6000).tryToLoadPlugin { pluginEnv with mapped := false } ⟨true, true, true, true⟩ unused =
      some (s', false) ∧ s'.mapped = [(0x06000000, 0x30000000), (0x07000000, 0x30000000)] ∧ ¬unused.Restored s') := by
  refine ⟨⟨_, rfl, rfl, ?_⟩, ⟨_, rfl, rfl, ?_⟩, ⟨_, rfl, rfl, ?_⟩⟩
  · rintro ⟨-, -, hblocks⟩
    cases hblocks
  · rintro ⟨-, hmapped, -⟩
    cases hmapped
  · rintro ⟨-, hmapped, -⟩
    cases hmapped

end PluginResources

end Omiiba.Rosalina
