/-
How PM launches a title and its dependencies, after launch.c and info.c: a process is registered, loaded and run,
and what is missing of the modules it depends on is launched before it runs.
-/
import Omiiba.Lib.Effects
import Omiiba.Pm.ProcessData

namespace Omiiba.Pm

abbrev Result := UInt32

/-- `R_FAILED`. -/
def failed (res : Result) : Bool := 0x80000000 ≤ res

/-- The `PMLAUNCHFLAG`s, and `PMLAUNCHFLAGEXT_FAKE_DEPENDENCY_LOADING`. -/
structure LaunchFlags where
  normalApplication : Bool
  loadDependencies : Bool
  notifyTermination : Bool
  queueDebugApplication : Bool
  terminatedNotificationVariation : UInt32
  useUpdateTitle : Bool
  fakeDependencyLoading : Bool
  deriving DecidableEq

/-- No flags. -/
def LaunchFlags.zero : LaunchFlags := ⟨false, false, false, false, 0, false, false⟩

/-- What is read of an `ExHeader_Info`. -/
structure ExHeaderInfo where
  titleId : UInt64
  dependencies : List UInt64
  coreVersion : UInt32
  reslimitCategory : UInt32

/-- How other modules and the kernel answer while one program is launched. -/
structure LaunchAnswers where
  /-- `LOADER_RegisterProgram`, of the program and its update -/
  registerProgram : UInt64 → UInt64 → Result × UInt64
  getProgramInfo : Result
  loadProcess : Result × UInt32
  getProcessId : Result × UInt32
  fsRegister : Result
  srvRegister : Result
  setResourceLimits : Result
  setAffinityMask : Result
  setIdealProcessor : Result
  debugActiveProcess : Result
  run : Result

/-- What a launch meets: the console, the exheader of each program, and the answers to the launch of the title that is
asked for and to that of each dependency, which comes once at most. -/
structure LaunchEnv where
  isN3ds : Bool
  numKips : Nat
  kernelSyscoreVer : UInt32
  exheader : UInt64 → ExHeaderInfo
  main : LaunchAnswers
  dependency : UInt64 → LaunchAnswers

/-- The part of `g_manager` that launches use, and what has been done since the request came: locks taken less locks
released, programs registered and unregistered, and, by their nodes, processes created and terminated; a process may be
created that has no node. -/
structure LaunchState where
  processes : List ProcessData
  freeNodes : List Nat
  runningApplicationData : Option Nat
  debugData : Option Nat
  lockDepth : Int
  registered : List UInt64
  unregistered : List UInt64
  created : List Nat
  orphans : Nat
  terminated : List Nat

/-- A process, or the update of a program, is dereferenced that is `NULL`, or a `panic`. -/
inductive PmFault
  | nullDereference
  | nullUpdate
  | panic (code : Nat)
  deriving DecidableEq

abbrev LaunchM (α : Type) := ExceptT PmFault (StateM LaunchState) α

/-- An entry of `dependencies`, `remrefcounts` and `depProcs`. -/
structure Dependency where
  titleId : UInt64
  remrefcount : UInt32
  process : Option Nat
  deriving DecidableEq

def lock : LaunchM PUnit := modify fun s => { s with lockDepth := s.lockDepth + 1 }

def unlock : LaunchM PUnit := modify fun s => { s with lockDepth := s.lockDepth - 1 }

/-- A write to a process. -/
def writeProcess (node : Nat) (f : ProcessData → ProcessData) : LaunchM PUnit :=
  modify fun s => { s with processes := modifyNode s.processes node f }

/-- `svcTerminateProcess`, of the handle of a process. -/
def svcTerminateProcess (node : Nat) : LaunchM PUnit := modify fun s => { s with terminated := node :: s.terminated }

/-- `ProcessData_Incref`, of a node. -/
def increfNode (node : Nat) (amount : UInt32) : LaunchM PUnit := do
  let s ← get
  match s.processes.find? (·.node = node) with
  | none => pure ⟨⟩
  | some process =>
    match process.incref amount with
    | none => throw (.panic 3)
    | some process => writeProcess node fun _ => process

/-! ## Registering and loading -/

section

variable (env : LaunchEnv) (answers : LaunchAnswers)

/-- `isTitleLaunchPrevented`. -/
def LaunchEnv.isTitleLaunchPrevented (titleId : UInt64) : Bool :=
  6 ≤ env.numKips && titleId &&& ~~~(n3dsTidMask ||| 1) = 0x0004003000008A02

/-- `registerProgram`: New 3DS titles are looked for first. -/
def registerProgram (programId update : UInt64) : Result × UInt64 :=
  if env.isN3ds then
    if programId >>> 48 = 0xFFFF then answers.registerProgram programId update
    else
      let n3ds := answers.registerProgram (programId &&& ~~~n3dsTidMask ||| 0x20000000)
        (update &&& ~~~n3dsTidMask ||| 0x20000000)
      if failed n3ds.1 then answers.registerProgram (programId &&& ~~~n3dsTidMask) (update &&& ~~~n3dsTidMask) else n3ds
  else answers.registerProgram programId update

/-- The result of calls of which the first that fails is the last. -/
def firstFailure : List Result → Result
  | [] => 0
  | [res] => res
  | res :: rest => if failed res then res else firstFailure rest

/-- The calls that prepare a process once it has its node. -/
def LaunchAnswers.preparations (exheader : ExHeaderInfo) : List Result :=
  [answers.fsRegister, answers.srvRegister] ++ (if exheader.reslimitCategory ≤ 3 then [answers.setResourceLimits] else []) ++
    [answers.setAffinityMask, answers.setIdealProcessor]

/-- The process as it is entered into the list. -/
def newProcess (node : Nat) (programHandle : UInt64) (flags : LaunchFlags) (exheader : ExHeaderInfo) : ProcessData where
  node := node
  handle := answers.loadProcess.2
  pid := answers.getProcessId.2
  titleId := exheader.titleId
  programHandle := programHandle
  notifyTermination := false
  kip := false
  dependenciesLoaded := false
  autoloaded := false
  notifyTerminationTerminated := false
  normalApplication := false
  terminatedNotificationVariation := flags.terminatedNotificationVariation
  terminationStatus := .running
  refcount := 1

/-- `loadWithoutDependencies`; the process comes back even if it fails after it has a node. -/
def loadWithoutDependencies (debug : Bool) (programHandle programId : UInt64) (flags : LaunchFlags)
    (exheader : ExHeaderInfo) : LaunchM (Result × Option Nat) :=
  if programId &&& 0x800000000 ≠ 0 then pure (0xD8E05803, none)
  else if failed answers.loadProcess.1 then pure (answers.loadProcess.1, none)
  else if failed answers.getProcessId.1 then do
    modify fun s => { s with orphans := s.orphans + 1 }
    pure (answers.getProcessId.1, none)
  else do
    lock
    let s ← get
    match s.freeNodes with
    | [] => throw (.panic 1)
    | node :: freeNodes =>
      modify fun s => { s with
        processes := s.processes ++ [newProcess answers node programHandle flags exheader]
        freeNodes := freeNodes
        created := node :: s.created }
      unlock
      let res := firstFailure (answers.preparations exheader)
      if failed res then pure (res, some node)
      else do
        if flags.normalApplication then
          writeProcess node fun process => { process with normalApplication := true }
        pure (if debug then answers.debugActiveProcess else res, some node)

/-! ## Dependencies -/

/-- A dependency is looked up in the list, or counted again. -/
def mergeDependency (processes : List ProcessData) (merged : List (Dependency × UInt32)) (titleId : UInt64) :
    Option (List (Dependency × UInt32)) :=
  if merged.any fun entry => entry.1.titleId = titleId then
    some (merged.map fun entry => if entry.1.titleId = titleId then (entry.1, entry.2 + 1) else entry)
  else if 48 ≤ merged.length then none
  else some (merged ++ [(⟨titleId, 0, (findProcessByTitleId processes titleId).map (·.node)⟩, 1)])

/-- The new references go to the processes, or wait for them. -/
def applyRefcounts : List (Dependency × UInt32) → LaunchM (List Dependency)
  | [] => pure []
  | (dependency, newrefcount) :: merged => do
    let dependency ← (match dependency.process with
      | some node => do
        increfNode node newrefcount
        pure dependency
      | none => pure { dependency with remrefcount := dependency.remrefcount + newrefcount })
    let dependencies ← applyRefcounts merged
    pure (dependency :: dependencies)

/-- `listMergeUniqueDependencies`. -/
def listMergeUniqueDependencies (dependencies : List Dependency) (exheader : ExHeaderInfo) : LaunchM (List Dependency) := do
  lock
  let s ← get
  match (listDependencies env.isN3ds exheader.dependencies).foldlM (mergeDependency s.processes) (dependencies.map (·, 0)) with
  | none => throw (.panic 2)
  | some merged =>
    let dependencies ← applyRefcounts merged
    unlock
    pure dependencies

/-! ## Launching -/

/-- `launchTitleImpl`, over the way to load a process with its dependencies. -/
def launchTitleImplWith
    (loadWithDependencies : UInt64 → LaunchFlags → LaunchM (Result × Option Nat))
    (exheader : ExHeaderInfo) (debug : Bool) (programId : UInt64) (update : Option UInt64) (flags : LaunchFlags) :
    LaunchM (Result × Option Nat) :=
  if env.isTitleLaunchPrevented programId then pure (0, none)
  else
    let flags :=
      if flags.normalApplication then { flags with loadDependencies := true } else { flags with useUpdateTitle := false }
    match if flags.useUpdateTitle then update else some programId with
    | none => throw .nullUpdate
    | some update =>
      let (res, programHandle) := registerProgram env answers programId update
      if failed res then pure (res, none)
      else do
        modify fun s => { s with registered := programHandle :: s.registered }
        let res := answers.getProgramInfo
        let res := if !failed res && env.kernelSyscoreVer = 2 && exheader.coreVersion ≠ 2 then 0xC8A05800 else res
        if failed res then do
          modify fun s => { s with unregistered := programHandle :: s.unregistered }
          pure (res, none)
        else do
          let (res, out) ←
            (if flags.loadDependencies then loadWithDependencies programHandle flags
            else loadWithoutDependencies answers debug programHandle programId flags exheader)
          let res ← (if failed res then pure res
            else do
              lock
              let s ← get
              if flags.queueDebugApplication then
                if s.debugData = none then do
                  modify fun s => { s with debugData := out }
                  pure res
                else pure 0xD8A05805
              else if out = none then throw .nullDereference
              else do
                if !failed answers.run && flags.normalApplication then
                  modify fun s => { s with runningApplicationData := out }
                pure answers.run)
          match out with
          | none => pure ⟨⟩
          | some node =>
            if failed res then svcTerminateProcess node
            else writeProcess node fun process =>
              { process with notifyTermination := process.notifyTermination || flags.notifyTermination }
          unlock
          pure (res, out)

/-- The launch of a dependency; without flags it does not come to the dependencies of its own. -/
def launchDependency (titleId : UInt64) : LaunchM (Result × Option Nat) :=
  launchTitleImplWith env (env.dependency titleId) (fun _ _ => pure (0, none)) (env.exheader titleId) false titleId none .zero

/-- The loop of `loadWithDependencies` from entry `i` on; there are 48 at most. -/
def loadDependencies : Nat → Nat → List Dependency → Result → LaunchM Result
  | 0, _, _, res => pure res
  | fuel + 1, i, dependencies, res =>
    match dependencies[i]? with
    | none => pure res
    | some dependency =>
      if dependency.process ≠ none then loadDependencies fuel (i + 1) dependencies res
      else do
        let (res, out) ← launchDependency env dependency.titleId
        if failed res then
          match out with
          | none => loadDependencies fuel (i + 1) dependencies res
          | some node => do
            svcTerminateProcess node
            pure res
        else
          match out with
          | none => throw .nullDereference
          | some node => do
            writeProcess node fun process => { process with autoloaded := true, dependenciesLoaded := true }
            increfNode node (dependency.remrefcount - 1)
            let dependencies := dependencies.set i { dependency with process := some node, remrefcount := 0 }
            let dependencies ← listMergeUniqueDependencies env dependencies (env.exheader dependency.titleId)
            loadDependencies fuel (i + 1) dependencies res

/-- `loadWithDependencies`. -/
def loadWithDependencies (debug : Bool) (programId programHandle : UInt64) (flags : LaunchFlags) :
    LaunchM (Result × Option Nat) := do
  let exheader := env.exheader programId
  let (res, out) ← loadWithoutDependencies env.main debug programHandle programId flags exheader
  if failed res then do
    match out with
    | none => pure ⟨⟩
    | some node => svcTerminateProcess node
    pure (res, out)
  else do
    let dependencies ← listMergeUniqueDependencies env [] exheader
    if dependencies ≠ [] then
      match out with
      | none => throw .nullDereference
      | some node => writeProcess node fun process => { process with dependenciesLoaded := true }
    let res ← loadDependencies env 48 0 (if flags.fakeDependencyLoading then [] else dependencies) res
    pure (res, out)

/-- `launchTitleImpl`. -/
def launchTitleImpl (debug : Bool) (programId : UInt64) (update : Option UInt64) (flags : LaunchFlags) :
    LaunchM (Result × Option Nat) :=
  launchTitleImplWith env env.main (loadWithDependencies env debug programId) (env.exheader programId) debug programId update flags

end

/-! ## What the steps leave alone -/

/-- What no launch changes of a process. -/
def ProcessData.identity (process : ProcessData) : Nat × UInt64 × UInt64 × Bool × TerminationStatus :=
  (process.node, process.titleId, process.programHandle, process.kip, process.terminationStatus)

/-- The processes are the same ones, and nothing else has changed. -/
structure Kept (s s' : LaunchState) : Prop where
  rest : s' = { s with processes := s'.processes }
  identity : s'.processes.map ProcessData.identity = s.processes.map ProcessData.identity

theorem Kept.refl (s : LaunchState) : Kept s s := ⟨rfl, rfl⟩

theorem Kept.trans {s s' s'' : LaunchState} (h : Kept s s') (h' : Kept s' s'') : Kept s s'' := by
  refine ⟨?_, h'.identity.trans h.identity⟩
  rw [h'.rest, h.rest]

theorem map_identity_modifyNode {list : List ProcessData} {node : Nat} {f : ProcessData → ProcessData}
    (hf : ∀ process ∈ list, process.node = node → (f process).identity = process.identity) :
    (modifyNode list node f).map ProcessData.identity = list.map ProcessData.identity := by
  unfold modifyNode
  rw [List.map_map]
  apply List.map_congr_left
  intro process hprocess
  rw [Function.comp_apply]
  split
  · rename_i hnode
    exact hf process hprocess hnode
  · rfl

theorem kept_writeProcess (s : LaunchState) (node : Nat) {f : ProcessData → ProcessData}
    (hf : ∀ process ∈ s.processes, process.node = node → (f process).identity = process.identity) :
    Kept s { s with processes := modifyNode s.processes node f } :=
  ⟨rfl, map_identity_modifyNode hf⟩

theorem incref_identity {process process' : ProcessData} {amount : UInt32} (h : process.incref amount = some process') :
    process'.identity = process.identity := by
  unfold ProcessData.incref at h
  split at h
  · split at h
    · cases h
    · obtain rfl := Option.some.inj h
      rfl
  · obtain rfl := Option.some.inj h
    rfl

/-- The nodes of a list are different ones. -/
def Nodes (processes : List ProcessData) : Prop := (processes.map (·.node)).Nodup

theorem map_node_identity (l : List ProcessData) : l.map (·.node) = (l.map ProcessData.identity).map (·.1) := by
  rw [List.map_map]
  rfl

theorem Nodes.congr {l l' : List ProcessData} (h : Nodes l) (hid : l'.map ProcessData.identity = l.map ProcessData.identity) :
    Nodes l' := by
  unfold Nodes at h ⊢
  rw [map_node_identity, hid, ← map_node_identity]
  exact h

theorem Nodes.eq_of_mem {l : List ProcessData} (h : Nodes l) {process process' : ProcessData} (hp : process ∈ l)
    (hp' : process' ∈ l) (hnode : process.node = process'.node) : process = process' :=
  List.inj_on_of_nodup_map h hp hp' hnode

/-- Of the faults, the steps of a launch can only come to a panic. -/
def Panics (E : PmFault → LaunchState → Prop) : Prop := ∀ code s, E (.panic code) s

section

variable {E : PmFault → LaunchState → Prop}

theorem increfNode_kept (hpanic : Panics E) {s : LaunchState} (hnodes : Nodes s.processes) (node : Nat) (amount : UInt32) :
    Wp (increfNode node amount) (fun _ s' => Kept s s') E s := by
  unfold increfNode
  rw [wp_bind, wp_get]
  split
  · exact Kept.refl s
  · rename_i process hprocess
    split
    · exact hpanic 3 s
    · rename_i process' hincref
      refine kept_writeProcess s node fun old hold hnode => ?_
      have hsame : old = process := by
        refine hnodes.eq_of_mem hold (List.mem_of_find?_eq_some hprocess) ?_
        rw [hnode]
        exact (of_decide_eq_true (List.find?_some (p := fun process : ProcessData => decide (process.node = node)) hprocess)).symm
      rw [hsame]
      exact incref_identity hincref

theorem Kept.nodes {s s' : LaunchState} (h : Kept s s') (hnodes : Nodes s.processes) : Nodes s'.processes :=
  hnodes.congr h.identity

/-- The entry, but for its deferred references. -/
def Dependency.entry (dependency : Dependency) : UInt64 × Option Nat := (dependency.titleId, dependency.process)

theorem applyRefcounts_spec (hpanic : Panics E) : ∀ (merged : List (Dependency × UInt32)) {s : LaunchState}, Nodes s.processes →
    Wp (applyRefcounts merged)
      (fun dependencies s' => Kept s s' ∧ dependencies.map Dependency.entry = merged.map fun entry => entry.1.entry) E s
  | [], s, _ => ⟨Kept.refl s, rfl⟩
  | (dependency, newrefcount) :: merged, s, hnodes => by
    unfold applyRefcounts
    rw [wp_bind]
    have hfirst : Wp (match dependency.process with
        | some node => do
          increfNode node newrefcount
          pure dependency
        | none => pure { dependency with remrefcount := dependency.remrefcount + newrefcount } : LaunchM Dependency)
        (fun dependency' s' => Kept s s' ∧ dependency'.entry = dependency.entry) E s := by
      split
      · refine (increfNode_kept hpanic hnodes _ _).bind fun _ s' hs' => ?_
        exact ⟨hs', rfl⟩
      · exact ⟨Kept.refl s, rfl⟩
    refine hfirst.mono (fun dependency' s₁ hs₁ => ?_) fun _ _ h => h
    refine (applyRefcounts_spec hpanic merged (hs₁.1.nodes hnodes)).bind fun dependencies s₂ hs₂ => ?_
    refine ⟨hs₁.1.trans hs₂.1, ?_⟩
    rw [List.map_cons, List.map_cons, hs₁.2, hs₂.2]

end

/-! ## Merging -/

section

variable {processes : List ProcessData}

/-- What a dependency that is not listed yet is listed as. -/
def lookup (processes : List ProcessData) (titleId : UInt64) : UInt64 × Option Nat :=
  (titleId, (findProcessByTitleId processes titleId).map (·.node))

/-- A merge adds entries at the end: each is looked up, each title is there once, and there are 48 at most. -/
structure Merged (processes : List ProcessData) (titles : List UInt64) (before after : List (UInt64 × Option Nat)) : Prop where
  fresh : ∃ fresh, after = before ++ fresh ∧ ∀ entry ∈ fresh, entry.1 ∈ titles ∧ entry = lookup processes entry.1
  listed : ∀ titleId ∈ titles, titleId ∈ after.map (·.1)
  nodup : (before.map (·.1)).Nodup → (after.map (·.1)).Nodup
  room : before.length ≤ 48 → after.length ≤ 48

theorem Merged.nil (before : List (UInt64 × Option Nat)) : Merged processes [] before before := by
  refine ⟨⟨[], (List.append_nil _).symm, ?_⟩, ?_, id, id⟩
  · intro entry hentry
    cases hentry
  · intro titleId htitle
    cases htitle

theorem Merged.cons {titleId : UInt64} {titles : List UInt64} {before middle after : List (UInt64 × Option Nat)}
    (h : Merged processes [titleId] before middle) (h' : Merged processes titles middle after) :
    Merged processes (titleId :: titles) before after := by
  obtain ⟨fresh, rfl, hfresh⟩ := h.fresh
  obtain ⟨fresh', rfl, hfresh'⟩ := h'.fresh
  refine ⟨⟨fresh ++ fresh', List.append_assoc .., fun entry hentry => ?_⟩, fun titleId' htitle => ?_,
    fun hnodup => h'.nodup (h.nodup hnodup), fun hroom => h'.room (h.room hroom)⟩
  · rcases List.mem_append.mp hentry with hold | hnew
    · obtain ⟨hmem, hlookup⟩ := hfresh entry hold
      rw [List.mem_singleton] at hmem
      exact ⟨hmem ▸ List.mem_cons_self .., hlookup⟩
    · obtain ⟨hmem, hlookup⟩ := hfresh' entry hnew
      exact ⟨List.mem_cons_of_mem _ hmem, hlookup⟩
  · rcases List.mem_cons.mp htitle with rfl | htail
    · have hthere := h.listed titleId' (List.mem_singleton.mpr rfl)
      rw [List.map_append, List.mem_append]
      exact Or.inl hthere
    · exact h'.listed titleId' htail

theorem mergeDependency_spec {merged merged' : List (Dependency × UInt32)} {titleId : UInt64}
    (h : mergeDependency processes merged titleId = some merged') :
    Merged processes [titleId] (merged.map fun entry => entry.1.entry) (merged'.map fun entry => entry.1.entry) := by
  unfold mergeDependency at h
  split at h
  · rename_i hthere
    obtain rfl := Option.some.inj h
    have hsame : (merged.map fun entry => if entry.1.titleId = titleId then (entry.1, entry.2 + 1) else entry).map
        (fun entry => entry.1.entry) = merged.map fun entry => entry.1.entry := by
      rw [List.map_map]
      apply List.map_congr_left
      intro entry _
      rw [Function.comp_apply]
      split <;> rfl
    rw [hsame]
    refine ⟨⟨[], (List.append_nil _).symm, nofun⟩, fun titleId' htitle => ?_, id, id⟩
    rw [List.mem_singleton] at htitle
    subst htitle
    obtain ⟨entry, hentry, htitle⟩ := List.any_eq_true.mp hthere
    rw [List.map_map]
    exact List.mem_map.mpr ⟨entry, hentry, of_decide_eq_true htitle⟩
  · rename_i hnew
    split at h
    · cases h
    · rename_i hroom
      obtain rfl := Option.some.inj h
      rw [List.map_append]
      refine ⟨⟨[lookup processes titleId], rfl, fun entry hentry => ?_⟩, fun titleId' htitle => ?_, fun hnodup => ?_, fun _ => ?_⟩
      · obtain rfl := List.mem_singleton.mp hentry
        exact ⟨List.mem_singleton.mpr rfl, rfl⟩
      · rw [List.mem_singleton] at htitle
        subst htitle
        rw [List.map_append, List.mem_append]
        exact Or.inr (List.mem_singleton.mpr rfl)
      · rw [List.map_append]
        refine List.Nodup.append hnodup (List.nodup_singleton _) ?_
        intro titleId' hold hthere
        obtain rfl : titleId' = titleId := List.mem_singleton.mp hthere
        rw [List.map_map] at hold
        obtain ⟨entry, hentry, htitle⟩ := List.mem_map.mp hold
        exact hnew (List.any_eq_true.mpr ⟨entry, hentry, decide_eq_true htitle⟩)
      · rw [List.length_append, List.length_map, List.map_singleton, List.length_singleton]
        omega

theorem foldlM_mergeDependency_spec : ∀ (titles : List UInt64) {merged merged' : List (Dependency × UInt32)},
    titles.foldlM (mergeDependency processes) merged = some merged' →
      Merged processes titles (merged.map fun entry => entry.1.entry) (merged'.map fun entry => entry.1.entry)
  | [], merged, merged', h => by
    obtain rfl := Option.some.inj h
    exact Merged.nil _
  | titleId :: titles, merged, merged', h => by
    rw [List.foldlM_cons] at h
    obtain ⟨middle, hmiddle, hrest⟩ := Option.bind_eq_some_iff.mp h
    exact (mergeDependency_spec hmiddle).cons (foldlM_mergeDependency_spec titles hrest)

end

theorem listMergeUniqueDependencies_spec {E : PmFault → LaunchState → Prop} (hpanic : Panics E) (env : LaunchEnv)
    (dependencies : List Dependency) (exheader : ExHeaderInfo) {s : LaunchState} (hnodes : Nodes s.processes) :
    Wp (listMergeUniqueDependencies env dependencies exheader)
      (fun dependencies' s' => Kept s s' ∧
        Merged s.processes (listDependencies env.isN3ds exheader.dependencies) (dependencies.map Dependency.entry)
          (dependencies'.map Dependency.entry)) E s := by
  unfold listMergeUniqueDependencies lock
  rw [wp_bind, wp_modify, wp_bind, wp_get]
  split
  · exact hpanic 2 _
  · rename_i merged hmerged
    have hspec := foldlM_mergeDependency_spec _ hmerged
    rw [List.map_map] at hspec
    refine (applyRefcounts_spec hpanic merged (s := { s with lockDepth := s.lockDepth + 1 }) hnodes).bind
      fun dependencies' s₁ hs₁ => ?_
    unfold unlock
    rw [wp_bind, wp_modify, wp_pure]
    refine ⟨⟨?_, hs₁.1.identity⟩, ?_⟩
    · have hrest := hs₁.1.rest
      rw [hrest]
      simp only [add_sub_cancel_right]
    · rw [hs₁.2]
      exact hspec

/-! ## Loading -/

section

variable (answers : LaunchAnswers) (exheader : ExHeaderInfo)

/-- Everything that `loadWithoutDependencies` asks for goes well. -/
def LaunchAnswers.loads (debug : Bool) (programId : UInt64) : Bool :=
  decide (programId &&& 0x800000000 = 0) && !failed answers.loadProcess.1 && !failed answers.getProcessId.1 &&
    !failed (firstFailure (answers.preparations exheader)) && !(debug && failed answers.debugActiveProcess)

/-- A process has been entered into the list, in the first node that was free. -/
structure Entered (titleId programHandle : UInt64) (s : LaunchState) (node : Nat) (s' : LaunchState) : Prop where
  rest : ∃ freeNodes, s.freeNodes = node :: freeNodes ∧
    s' = { s with processes := s'.processes, freeNodes := freeNodes, created := node :: s.created }
  identity : s'.processes.map ProcessData.identity =
    s.processes.map ProcessData.identity ++ [(node, titleId, programHandle, false, .running)]

theorem Entered.kept {titleId programHandle : UInt64} {s s' s'' : LaunchState} {node : Nat}
    (h : Entered titleId programHandle s node s') (hk : Kept s' s'') : Entered titleId programHandle s node s'' := by
  obtain ⟨freeNodes, hfree, hrest⟩ := h.rest
  refine ⟨⟨freeNodes, hfree, ?_⟩, hk.identity.trans h.identity⟩
  rw [hk.rest, hrest]

/-- The load goes well and gives the process; or it fails, and there may be a process all the same. -/
theorem loadWithoutDependencies_spec {E : PmFault → LaunchState → Prop} (hpanic : Panics E) (debug : Bool) (programHandle programId : UInt64) (flags : LaunchFlags)
    (s : LaunchState) :
    Wp (loadWithoutDependencies answers debug programHandle programId flags exheader)
      (fun r s' => failed r.1 = !answers.loads exheader debug programId ∧
        ((∃ node, r.2 = some node ∧ Entered exheader.titleId programHandle s node s') ∨
          answers.loads exheader debug programId = false ∧ r.2 = none ∧
            ∃ orphans, s.orphans ≤ orphans ∧ s' = { s with orphans := orphans })) E s := by
  unfold loadWithoutDependencies LaunchAnswers.loads
  split
  · rename_i hbatch
    rw [decide_eq_false hbatch, wp_pure]
    exact ⟨rfl, Or.inr ⟨rfl, rfl, s.orphans, le_rfl, rfl⟩⟩
  rename_i hbatch
  rw [decide_eq_true (not_not.mp hbatch)]
  split
  · rename_i hload
    rw [hload, wp_pure]
    exact ⟨hload, Or.inr ⟨rfl, rfl, s.orphans, le_rfl, rfl⟩⟩
  rename_i hload
  rw [Bool.not_eq_true] at hload
  rw [hload]
  split
  · rename_i hpid
    rw [hpid, wp_bind, wp_modify, wp_pure]
    exact ⟨hpid, Or.inr ⟨rfl, rfl, s.orphans + 1, Nat.le_succ _, rfl⟩⟩
  rename_i hpid
  rw [Bool.not_eq_true] at hpid
  rw [hpid]
  unfold lock unlock
  rw [wp_bind, wp_modify, wp_bind, wp_get]
  split
  · exact hpanic 1 _
  rename_i node freeNodes hfree
  rw [wp_bind, wp_modify, wp_bind, wp_modify]
  have hentered : Entered exheader.titleId programHandle s node
      { s with
        processes := s.processes ++ [newProcess answers node programHandle flags exheader]
        freeNodes := freeNodes
        created := node :: s.created
        lockDepth := s.lockDepth + 1 - 1 } := by
    refine ⟨⟨freeNodes, hfree, ?_⟩, ?_⟩
    · rw [add_sub_cancel_right]
    · rw [List.map_append]
      rfl
  dsimp only
  split
  · rename_i hprepare
    rw [hprepare, wp_pure]
    exact ⟨hprepare, Or.inl ⟨node, rfl, hentered⟩⟩
  · rename_i hprepare
    rw [Bool.not_eq_true] at hprepare
    rw [hprepare]
    have hresult : failed (if debug = true then answers.debugActiveProcess else firstFailure (answers.preparations exheader)) =
        (debug && failed answers.debugActiveProcess) := by
      cases debug
      · exact hprepare
      · rfl
    split
    · rw [wp_bind]
      unfold writeProcess
      rw [wp_modify, wp_pure]
      refine ⟨by rw [hresult]; simp, Or.inl ⟨node, rfl, hentered.kept ?_⟩⟩
      exact kept_writeProcess _ node fun _ _ _ => rfl
    · rw [wp_pure]
      exact ⟨by rw [hresult]; simp, Or.inl ⟨node, rfl, hentered⟩⟩

end

/-! ## A launch -/

/-- The launch of a title comes as far as its program and the program's exheader. -/
def LaunchEnv.registration (env : LaunchEnv) (answers : LaunchAnswers) (programId : UInt64) (update : Option UInt64)
    (flags : LaunchFlags) : Option (Result × UInt64) :=
  (if flags.normalApplication && flags.useUpdateTitle then update else some programId).map
    (registerProgram env answers programId)

/-- `LOADER_GetProgramInfo`, with the check of the system version. -/
def LaunchEnv.informs (env : LaunchEnv) (answers : LaunchAnswers) (exheader : ExHeaderInfo) : Bool :=
  !failed answers.getProgramInfo && !(env.kernelSyscoreVer = 2 && exheader.coreVersion ≠ 2)

/-- The end of a launch, once the process is loaded. -/
structure Launched (s : LaunchState) (node : Nat) (res : Result) (s' : LaunchState) : Prop where
  rest : s' = { s with
    processes := s'.processes
    debugData := s'.debugData
    runningApplicationData := s'.runningApplicationData
    terminated := if failed res then node :: s.terminated else s.terminated }
  identity : s'.processes.map ProcessData.identity = s.processes.map ProcessData.identity

/-- The flags that a launch goes on with. -/
def LaunchFlags.launching (flags : LaunchFlags) : LaunchFlags :=
  if flags.normalApplication then { flags with loadDependencies := true } else { flags with useUpdateTitle := false }

/-- The rule of a launch: it ends where it is prevented, where the program cannot be registered or its exheader had,
or else as the load of the process leaves it; a load that fails is followed by an unlock alone. -/
theorem launchTitleImplWith_wp {env : LaunchEnv} {answers : LaunchAnswers}
    {loadWithDependencies : UInt64 → LaunchFlags → LaunchM (Result × Option Nat)} {exheader : ExHeaderInfo} {debug : Bool}
    {programId : UInt64} {update : Option UInt64} {flags : LaunchFlags} {s : LaunchState}
    {Q : Result × Option Nat → LaunchState → Prop} {E : PmFault → LaunchState → Prop}
    (hnoupdate : env.registration answers programId update flags = none → E .nullUpdate s)
    (hprevented : env.isTitleLaunchPrevented programId = true → Q (0, none) s)
    (hunregistered : ∀ reg, env.isTitleLaunchPrevented programId = false →
      env.registration answers programId update flags = some reg → failed reg.1 = true → Q (reg.1, none) s)
    (huninformed : ∀ reg res, env.isTitleLaunchPrevented programId = false →
      env.registration answers programId update flags = some reg → failed reg.1 = false →
      env.informs answers exheader = false → failed res = true →
      Q (res, none) { s with registered := reg.2 :: s.registered, unregistered := reg.2 :: s.unregistered })
    (hload : ∀ reg, env.isTitleLaunchPrevented programId = false →
      env.registration answers programId update flags = some reg → failed reg.1 = false →
      env.informs answers exheader = true →
      Wp (if flags.launching.loadDependencies then loadWithDependencies reg.2 flags.launching
          else loadWithoutDependencies answers debug reg.2 programId flags.launching exheader)
        (fun r s' =>
          (failed r.1 = true → Q r { s' with
            terminated := r.2.toList ++ s'.terminated
            lockDepth := s'.lockDepth - 1 }) ∧
          (failed r.1 = false → ∃ node, r.2 = some node ∧
            ∀ res s'', (flags.queueDebugApplication = false → res = answers.run) → Launched s' node res s'' →
              Q (res, some node) s''))
        E { s with registered := reg.2 :: s.registered }) :
    Wp (launchTitleImplWith env answers loadWithDependencies exheader debug programId update flags) Q E s := by
  unfold launchTitleImplWith
  split
  · rename_i hprev
    exact hprevented hprev
  rename_i hprev
  rw [Bool.not_eq_true] at hprev
  have hflags : (if flags.normalApplication = true then { flags with loadDependencies := true }
      else { flags with useUpdateTitle := false }) = flags.launching := rfl
  dsimp only
  rw [hflags]
  have hupdate : flags.launching.useUpdateTitle = (flags.normalApplication && flags.useUpdateTitle) := by
    unfold LaunchFlags.launching
    cases hn : flags.normalApplication <;> simp
  rw [hupdate]
  split
  · rename_i hnone
    refine hnoupdate ?_
    unfold LaunchEnv.registration
    rw [hnone]
    rfl
  rename_i update' hsome
  have hreg : env.registration answers programId update flags = some (registerProgram env answers programId update') := by
    unfold LaunchEnv.registration
    rw [hsome]
    rfl
  generalize registerProgram env answers programId update' = reg at hreg
  obtain ⟨res, programHandle⟩ := reg
  split
  · rename_i hfail
    rw [wp_pure]
    exact hunregistered _ hprev hreg hfail
  rename_i hfail
  rw [Bool.not_eq_true] at hfail
  rw [wp_bind, wp_modify]
  have hinforms : failed (if (!failed answers.getProgramInfo && decide (env.kernelSyscoreVer = 2) &&
      decide (exheader.coreVersion ≠ 2)) = true then 0xC8A05800 else answers.getProgramInfo) = !env.informs answers exheader := by
    unfold LaunchEnv.informs
    cases hinfo : failed answers.getProgramInfo
    · by_cases hversion : env.kernelSyscoreVer = 2 ∧ exheader.coreVersion ≠ 2
      · simp [hversion.1, hversion.2]
        rfl
      · rw [not_and_or, not_not] at hversion
        rcases hversion with hcore | hcore <;> simp [hcore, hinfo]
    · simp [hinfo]
  dsimp only
  generalize (if (!failed answers.getProgramInfo && decide (env.kernelSyscoreVer = 2) &&
      decide (exheader.coreVersion ≠ 2)) = true then 0xC8A05800 else answers.getProgramInfo) = info at hinforms ⊢
  split
  · rename_i hinfo
    rw [hinforms, Bool.not_eq_true'] at hinfo
    rw [wp_bind, wp_modify, wp_pure]
    refine huninformed (res, programHandle) _ hprev hreg hfail hinfo ?_
    rw [hinforms, hinfo]
    rfl
  rename_i hinfo
  rw [hinforms, Bool.not_eq_true', Bool.not_eq_false] at hinfo
  rw [wp_bind]
  refine (hload (res, programHandle) hprev hreg hfail hinfo).mono (fun r s₁ hs₁ => ?_) fun _ _ h => h
  obtain ⟨hbad, hgood⟩ := hs₁
  obtain ⟨res₁, out⟩ := r
  dsimp only
  cases hres : failed res₁ with
  | true =>
    rw [if_pos rfl, wp_bind, wp_pure]
    have hQ := hbad hres
    unfold unlock
    cases out with
    | none =>
      rw [wp_bind, wp_modify, wp_pure]
      exact hQ
    | some node =>
      dsimp only
      rw [if_pos hres]
      unfold svcTerminateProcess
      rw [wp_bind, wp_modify, wp_bind, wp_modify, wp_pure]
      exact hQ
  | false =>
    obtain ⟨node, rfl, hdone⟩ := hgood hres
    -- from the lock on: the result, then the end of the launch
    have hend : ∀ res' (s₂ : LaunchState), (flags.queueDebugApplication = false → res' = answers.run) → s₂ = { s₁ with
        lockDepth := s₁.lockDepth + 1, debugData := s₂.debugData, runningApplicationData := s₂.runningApplicationData } →
        Wp (do
          if failed res' then svcTerminateProcess node
          else writeProcess node fun process =>
            { process with notifyTermination := process.notifyTermination || flags.launching.notifyTermination }
          unlock
          pure (res', some node) : LaunchM (Result × Option Nat)) Q E s₂ := by
      intro res' s₂ hrun hs₂
      unfold unlock
      split
      · rename_i hfailed
        unfold svcTerminateProcess
        rw [wp_bind, wp_modify, wp_bind, wp_modify, wp_pure]
        refine hdone res' _ hrun ⟨?_, ?_⟩
        · rw [if_pos hfailed, hs₂]
          simp only [add_sub_cancel_right]
        · rw [hs₂]
      · rename_i hfailed
        unfold writeProcess
        rw [wp_bind, wp_modify, wp_bind, wp_modify, wp_pure]
        refine hdone res' _ hrun ⟨?_, ?_⟩
        · rw [if_neg hfailed, hs₂]
          simp only [add_sub_cancel_right]
        · rw [hs₂]
          exact map_identity_modifyNode fun _ _ _ => rfl
    rw [if_neg Bool.false_ne_true]
    unfold lock
    simp only [wp_bind, wp_modify, wp_get]
    have hqueue : flags.launching.queueDebugApplication = flags.queueDebugApplication := by
      unfold LaunchFlags.launching
      split <;> rfl
    rw [hqueue]
    split
    · rename_i hqueued
      have hnever : ∀ res', flags.queueDebugApplication = false → res' = answers.run := by
        intro res' hdirect
        rw [hqueued] at hdirect
        cases hdirect
      split
      · rw [wp_bind, wp_modify, wp_pure]
        exact hend _ _ (hnever _) rfl
      · rw [wp_pure]
        exact hend _ _ (hnever _) rfl
    · split
      · rename_i hnone
        cases hnone
      · split
        · rw [wp_bind, wp_modify, wp_pure]
          exact hend _ _ (fun _ => rfl) rfl
        · rw [wp_pure]
          exact hend _ _ (fun _ => rfl) rfl

end Omiiba.Pm
