/-
What a launch that fails leaves behind: the lock of the process list, the processes that were created and the
program handles that were registered.
-/
import Omiiba.Pm.Launch

namespace Omiiba.Pm

/-! ## Cleaned up -/

/-- The handles that are unregistered when the processes are cleaned up, as `cleanupProcess` does it. -/
def unregisteredLater (processes : List ProcessData) : List UInt64 :=
  (processes.filter fun process => !process.kip).map (·.programHandle)

/-- No lock is held or released once too often, every process that was created is terminated, and each program handle is
unregistered once, now or with its process. -/
structure CleanedUp (s s' : LaunchState) : Prop where
  lock : s'.lockDepth = 0
  orphans : s'.orphans = 0
  processes : ∀ node ∈ s'.created, node ∈ s'.terminated
  handles : ∀ handle, (s'.unregistered ++ unregisteredLater s'.processes).count handle =
    (s'.registered ++ unregisteredLater s.processes).count handle

theorem unregisteredLater_identity (processes : List ProcessData) :
    unregisteredLater processes = ((processes.map ProcessData.identity).filter fun entry => !entry.2.2.2.1).map (·.2.2.1) := by
  unfold unregisteredLater
  rw [List.filter_map, List.map_map]
  rfl

/-- What the list and the ledger keep all through a launch. -/
structure Tidy (s : LaunchState) : Prop where
  nodes : Nodes s.processes
  free : s.freeNodes.Nodup
  unlisted : ∀ process ∈ s.processes, process.node ∉ s.freeNodes
  unused : ∀ node ∈ s.created, node ∉ s.freeNodes
  ended : ∀ node ∈ s.terminated, node ∈ s.created

/-- A request comes to a list that is in order. -/
structure Requested (s : LaunchState) : Prop where
  nodes : Nodes s.processes
  free : s.freeNodes.Nodup
  unlisted : ∀ process ∈ s.processes, process.node ∉ s.freeNodes
  lock : s.lockDepth = 0
  orphans : s.orphans = 0
  registered : s.registered = []
  unregistered : s.unregistered = []
  created : s.created = []
  terminated : s.terminated = []

theorem Requested.tidy {s : LaunchState} (h : Requested s) : Tidy s := by
  refine ⟨h.nodes, h.free, h.unlisted, ?_, ?_⟩
  · rw [h.created]
    intro node hnode
    cases hnode
  · rw [h.terminated]
    intro node hnode
    cases hnode

/-! ## Progress -/

/-- More has been created, what was running runs, and no lock is held that was not. -/
structure Progress (s s' : LaunchState) : Prop where
  tidy : Tidy s'
  created : ∀ node ∈ s.created, node ∈ s'.created
  running : ∀ node ∈ s.created, node ∉ s.terminated → node ∉ s'.terminated
  lock : s'.lockDepth ≤ s.lockDepth

theorem Progress.refl {s : LaunchState} (h : Tidy s) : Progress s s := ⟨h, fun _ hnode => hnode, fun _ _ hnode => hnode, le_rfl⟩

theorem Progress.trans {s s' s'' : LaunchState} (h : Progress s s') (h' : Progress s' s'') : Progress s s'' := by
  refine ⟨h'.tidy, fun node hnode => h'.created node (h.created node hnode), fun node hnode hrunning => ?_, h'.lock.trans h.lock⟩
  exact h'.running node (h.created node hnode) (h.running node hnode hrunning)

/-- Of what a state tells, a tidy one needs the processes, the free nodes and the nodes of the ledger. -/
theorem Tidy.of_eq {s s' : LaunchState} (h : Tidy s) (hnodes : s'.processes.map (·.node) = s.processes.map (·.node))
    (hfree : s'.freeNodes = s.freeNodes) (hcreated : s'.created = s.created) (hterminated : s'.terminated = s.terminated) :
    Tidy s' := by
  refine ⟨?_, ?_, ?_, ?_, ?_⟩
  · unfold Nodes
    rw [hnodes]
    exact h.nodes
  · rw [hfree]
    exact h.free
  · intro process hprocess
    have hnode : process.node ∈ s.processes.map (·.node) := by
      rw [← hnodes]
      exact List.mem_map_of_mem hprocess
    obtain ⟨old, hold, hsame⟩ := List.mem_map.mp hnode
    rw [hfree, ← hsame]
    exact h.unlisted old hold
  · rw [hcreated, hfree]
    exact h.unused
  · rw [hcreated, hterminated]
    exact h.ended

theorem Kept.progress {s s' : LaunchState} (h : Kept s s') (ht : Tidy s) : Progress s s' := by
  have hnodes : s'.processes.map (·.node) = s.processes.map (·.node) := by
    rw [map_node_identity, h.identity, ← map_node_identity]
  have hrest := h.rest
  generalize s'.processes = processes at hrest hnodes
  subst hrest
  exact ⟨ht.of_eq hnodes rfl rfl rfl, fun _ hnode => hnode, fun _ _ hnode => hnode, le_rfl⟩

theorem Entered.progress {titleId programHandle : UInt64} {s s' : LaunchState} {node : Nat}
    (h : Entered titleId programHandle s node s') (ht : Tidy s) :
    Progress s s' ∧ node ∈ s'.created ∧ node ∉ s'.terminated ∧ node ∉ s.created := by
  obtain ⟨freeNodes, hfree, hrest⟩ := h.rest
  have hnodes : s'.processes.map (·.node) = s.processes.map (·.node) ++ [node] := by
    rw [map_node_identity, h.identity, List.map_append, ← map_node_identity]
    rfl
  generalize s'.processes = processes at hrest hnodes
  subst hrest
  have hnodup := ht.free
  rw [hfree, List.nodup_cons] at hnodup
  have hnew : node ∉ s.created := by
    intro hnode
    apply ht.unused node hnode
    rw [hfree]
    exact List.mem_cons_self ..
  have hunlisted : ∀ process ∈ s.processes, process.node ≠ node ∧ process.node ∉ freeNodes := by
    intro process hprocess
    have hout := ht.unlisted process hprocess
    rw [hfree, List.mem_cons, not_or] at hout
    exact hout
  have hends : node ∉ s.terminated := fun hnode => hnew (ht.ended node hnode)
  refine ⟨⟨⟨?_, hnodup.2, ?_, ?_, ?_⟩, ?_, ?_, le_rfl⟩, List.mem_cons_self .., hends, hnew⟩
  · show (processes.map (·.node)).Nodup
    rw [hnodes]
    refine List.Nodup.append ht.nodes (List.nodup_singleton _) ?_
    intro old hold hthere
    obtain rfl : old = node := List.mem_singleton.mp hthere
    obtain ⟨process, hprocess, hsame⟩ := List.mem_map.mp hold
    exact (hunlisted process hprocess).1 hsame
  · intro process hprocess
    have hnode : process.node ∈ s.processes.map (·.node) ++ [node] := by
      rw [← hnodes]
      exact List.mem_map_of_mem hprocess
    rcases List.mem_append.mp hnode with hold | hlast
    · obtain ⟨old, hmem, hsame⟩ := List.mem_map.mp hold
      rw [← hsame]
      exact (hunlisted old hmem).2
    · rw [List.mem_singleton.mp hlast]
      exact hnodup.1
  · intro created hcreated
    rcases List.mem_cons.mp hcreated with rfl | hold
    · exact hnodup.1
    · have hout := ht.unused created hold
      rw [hfree, List.mem_cons, not_or] at hout
      exact hout.2
  · exact fun ended hended => List.mem_cons_of_mem _ (ht.ended ended hended)
  · exact fun created hcreated => List.mem_cons_of_mem _ hcreated
  · exact fun _ _ hrunning => hrunning

/-- What has been created since may be terminated. -/
theorem Progress.terminate {s s' : LaunchState} {node : Nat} (h : Progress s s') (hcreated : node ∈ s'.created)
    (hnew : node ∉ s.created) : Progress s { s' with terminated := node :: s'.terminated } := by
  refine ⟨⟨h.tidy.nodes, h.tidy.free, h.tidy.unlisted, h.tidy.unused, ?_⟩, h.created, ?_, h.lock⟩
  · intro ended hended
    rcases List.mem_cons.mp hended with rfl | hold
    · exact hcreated
    · exact h.tidy.ended ended hold
  · intro old hold hrunning hended
    rcases List.mem_cons.mp hended with rfl | hthere
    · exact hnew hold
    · exact h.running old hold hrunning hthere

/-! ## Dependencies -/

/-- A process that was not there before runs. -/
def Left (old : List Nat) (s : LaunchState) : Prop := ∃ node ∈ s.created, node ∉ s.terminated ∧ node ∉ old

theorem Left.progress {old : List Nat} {s s' : LaunchState} (h : Left old s) (hp : Progress s s') : Left old s' := by
  obtain ⟨node, hcreated, hrunning, hnew⟩ := h
  exact ⟨node, hp.created node hcreated, hp.running node hcreated hrunning, hnew⟩

/-- The launch of a dependency: the process it gives is a new one, which runs if all goes well. -/
theorem launchDependency_progress (env : LaunchEnv) (titleId : UInt64) {s : LaunchState} (ht : Tidy s) :
    Wp (launchDependency env titleId)
      (fun r s' => Progress s s' ∧ ∀ node, r.2 = some node →
        node ∈ s'.created ∧ node ∉ s.created ∧ (failed r.1 = false → node ∉ s'.terminated))
      (fun _ _ => True) s := by
  have hledger : ∀ registered unregistered,
      Progress s { s with registered := registered, unregistered := unregistered } := fun _ _ =>
    ⟨ht.of_eq rfl rfl rfl rfl, fun _ hnode => hnode, fun _ _ hnode => hnode, le_rfl⟩
  unfold launchDependency
  apply launchTitleImplWith_wp
  · exact fun _ => trivial
  · intro _
    exact ⟨Progress.refl ht, nofun⟩
  · intro _ _ _ _
    exact ⟨Progress.refl ht, nofun⟩
  · intro reg _ _ _ _ _ _
    exact ⟨hledger _ _, nofun⟩
  · intro reg _ _ _ _
    have hflags : LaunchFlags.zero.launching.loadDependencies = false := rfl
    rw [hflags, if_neg Bool.false_ne_true]
    have hregistered := hledger (reg.2 :: s.registered) s.unregistered
    refine (loadWithoutDependencies_spec _ _ (fun _ _ => trivial) ..).mono (fun r s₁ hs₁ => ?_) fun _ _ h => h
    obtain ⟨res, out⟩ := r
    obtain ⟨hresult, hout⟩ := hs₁
    dsimp only at hresult hout ⊢
    rcases hout with ⟨node, rfl, hentered⟩ | ⟨hloads, rfl, orphans, -, rfl⟩
    · obtain ⟨hprogress, hcreated, hrunning, hnew⟩ := hentered.progress hregistered.tidy
      have hfrom := hregistered.trans hprogress
      constructor
      · -- the process is terminated, and the lock is released that was not taken
        intro hfail
        have hended := hfrom.terminate hcreated hnew
        refine ⟨⟨hended.tidy.of_eq rfl rfl rfl rfl, hended.created, hended.running, ?_⟩, ?_⟩
        · have hlock := hended.lock
          dsimp only at hlock ⊢
          omega
        · rintro _ ⟨⟩
          refine ⟨hcreated, hnew, fun hok => ?_⟩
          rw [hfail] at hok
          cases hok
      · intro hok
        refine ⟨node, rfl, fun res' s₂ _ hs₂ => ?_⟩
        have hnodes : s₂.processes.map (·.node) = s₁.processes.map (·.node) := by
          rw [map_node_identity, hs₂.identity, ← map_node_identity]
        have hrest := hs₂.rest
        generalize s₂.processes = processes, s₂.debugData = debugData,
          s₂.runningApplicationData = runningApplicationData at hrest hnodes
        subst hrest
        cases hres : failed res' with
        | true =>
          have hended := hfrom.terminate hcreated hnew
          refine ⟨⟨hended.tidy.of_eq hnodes rfl rfl rfl, hended.created, hended.running, hended.lock⟩, ?_⟩
          rintro _ ⟨⟩
          refine ⟨hcreated, hnew, fun hok' => ?_⟩
          cases hok'
        | false =>
          refine ⟨⟨hfrom.tidy.of_eq hnodes rfl rfl rfl, hfrom.created, hfrom.running, hfrom.lock⟩, ?_⟩
          rintro _ ⟨⟩
          exact ⟨hcreated, hnew, fun _ => hrunning⟩
    · constructor
      · intro _
        refine ⟨⟨ht.of_eq rfl rfl rfl rfl, fun _ hnode => hnode, fun _ _ hnode => hnode, ?_⟩, nofun⟩
        dsimp only
        omega
      · intro hok
        simp [hloads, hok] at hresult

/-- The loop, from where it has failed, or has left a process, or is still to come to a dependency that is not there:
once it is through, it has failed or left a process. -/
theorem loadDependencies_left (env : LaunchEnv) (old : List Nat) : ∀ (fuel i : Nat) (dependencies : List Dependency)
    (res : Result) {s : LaunchState}, Tidy s → (∀ node ∈ old, node ∈ s.created) → dependencies.length ≤ 48 →
    48 ≤ fuel + i →
    (failed res = true ∨ Left old s ∨ ∃ j dependency, i ≤ j ∧ dependencies[j]? = some dependency ∧ dependency.process = none) →
    Wp (loadDependencies env fuel i dependencies res) (fun res' s' => Progress s s' ∧ (failed res' = true ∨ Left old s'))
      (fun _ _ => True) s
  | 0, i, dependencies, res, s, ht, _, hlength, hfuel, hcause => by
    refine ⟨Progress.refl ht, ?_⟩
    rcases hcause with hfail | hleft | ⟨j, dependency, hij, hj, -⟩
    · exact Or.inl hfail
    · exact Or.inr hleft
    · obtain ⟨hlt, -⟩ := List.getElem?_eq_some_iff.mp hj
      omega
  | fuel + 1, i, dependencies, res, s, ht, hold, hlength, hfuel, hcause => by
    unfold loadDependencies
    split
    · rename_i hnone
      refine ⟨Progress.refl ht, ?_⟩
      rcases hcause with hfail | hleft | ⟨j, dependency, hij, hj, -⟩
      · exact Or.inl hfail
      · exact Or.inr hleft
      · obtain ⟨hlt, -⟩ := List.getElem?_eq_some_iff.mp hj
        have hover := List.getElem?_eq_none_iff.mp hnone
        omega
    rename_i dependency hi
    split
    · rename_i hthere
      apply loadDependencies_left env old fuel (i + 1) dependencies res ht hold hlength (by omega)
      rcases hcause with hfail | hleft | ⟨j, dependency', hij, hj, hmissing⟩
      · exact Or.inl hfail
      · exact Or.inr (Or.inl hleft)
      · -- the entry at `i` is there, so the one that is not comes later
        refine Or.inr (Or.inr ⟨j, dependency', ?_, hj, hmissing⟩)
        rcases Nat.eq_or_lt_of_le hij with rfl | hlt
        · rw [hi] at hj
          obtain rfl := Option.some.inj hj
          exact absurd hmissing hthere
        · exact hlt
    refine (launchDependency_progress env dependency.titleId ht).bind fun r s₁ hs₁ => ?_
    obtain ⟨res₁, out⟩ := r
    obtain ⟨hprogress, hout⟩ := hs₁
    have hold₁ : ∀ node ∈ old, node ∈ s₁.created := fun node hnode => hprogress.created node (hold node hnode)
    dsimp only
    split
    · rename_i hfail
      split
      · refine (loadDependencies_left env old fuel (i + 1) dependencies res₁ hprogress.tidy hold₁ hlength (by omega)
          (Or.inl hfail)).mono (fun res' s' hs' => ?_) fun _ _ h => h
        exact ⟨hprogress.trans hs'.1, hs'.2⟩
      · rename_i node
        obtain ⟨hcreated, hnew, -⟩ := hout node rfl
        unfold svcTerminateProcess
        rw [wp_bind, wp_modify, wp_pure]
        exact ⟨hprogress.terminate hcreated hnew, Or.inl hfail⟩
    · rename_i hok
      rw [Bool.not_eq_true] at hok
      split
      · exact trivial
      rename_i node
      obtain ⟨hcreated, hnew, hrunning⟩ := hout node rfl
      have hleft : Left old s₁ := ⟨node, hcreated, hrunning hok, fun hthere => hnew (hold node hthere)⟩
      unfold writeProcess
      rw [wp_bind, wp_modify]
      have hwrite := (kept_writeProcess s₁ node (f := fun process : ProcessData =>
        { process with autoloaded := true, dependenciesLoaded := true }) fun _ _ _ => rfl).progress hprogress.tidy
      refine (increfNode_kept (fun _ _ => trivial) hwrite.tidy.nodes node _).bind fun _ s₂ hs₂ => ?_
      have hincref := hs₂.progress hwrite.tidy
      refine (listMergeUniqueDependencies_spec (fun _ _ => trivial) env _ _ hincref.tidy.nodes).bind fun dependencies' s₃ hs₃ => ?_
      have hmerge := hs₃.1.progress hincref.tidy
      have hfrom := hwrite.trans (hincref.trans hmerge)
      have hlength' : dependencies'.length ≤ 48 := by
        have hroom := hs₃.2.room
        simp only [List.length_map, List.length_set] at hroom
        exact hroom hlength
      refine (loadDependencies_left env old fuel (i + 1) dependencies' res₁ hmerge.tidy
        (fun node' hnode' => hfrom.created node' (hold₁ node' hnode')) hlength' (by omega)
        (Or.inr (Or.inl (hleft.progress hfrom)))).mono (fun res' s' hs' => ?_) fun _ _ h => h
      exact ⟨hprogress.trans (hfrom.trans hs'.1), hs'.2⟩

/-- With every dependency there, nothing is launched. -/
theorem loadDependencies_there (env : LaunchEnv) : ∀ (fuel i : Nat) {dependencies : List Dependency} (res : Result),
    (∀ dependency ∈ dependencies, dependency.process ≠ none) → loadDependencies env fuel i dependencies res = pure res
  | 0, _, _, _, _ => rfl
  | fuel + 1, i, dependencies, res, hthere => by
    unfold loadDependencies
    split
    · rfl
    · rename_i dependency hi
      rw [if_pos (hthere dependency (List.mem_of_getElem? hi))]
      exact loadDependencies_there env fuel (i + 1) res hthere

/-! ## The title that is asked for -/

section

variable (env : LaunchEnv) (debug : Bool) (programId : UInt64) (flags : LaunchFlags)

/-- The title is one of those in the list, or the one that is launched, up to the last byte. -/
def Listed (processes : List ProcessData) (launched titleId : UInt64) : Prop :=
  launched &&& ~~~0xFF = titleId &&& ~~~0xFF ∨
    ∃ process ∈ processes, process.titleId &&& ~~~0xFF = titleId &&& ~~~0xFF

/-- The program is loaded, and no dependency has to be. -/
def LaunchEnv.LoadsAlone (processes : List ProcessData) : Prop :=
  env.main.loads (env.exheader programId) debug programId = true ∧
    (flags.normalApplication = true ∨ flags.loadDependencies = true → flags.fakeDependencyLoading = true ∨
      ∀ titleId ∈ listDependencies env.isN3ds (env.exheader programId).dependencies,
        Listed processes (env.exheader programId).titleId titleId)

end

theorem lookup_ne_none {processes : List ProcessData} {titleId : UInt64} :
    (lookup processes titleId).2 ≠ none ↔
      ∃ entry ∈ processes.map ProcessData.identity, entry.2.1 &&& ~~~0xFF = titleId &&& ~~~0xFF := by
  unfold lookup findProcessByTitleId
  rw [Option.ne_none_iff_isSome, Option.isSome_map, List.find?_isSome]
  constructor
  · rintro ⟨process, hprocess, htitle⟩
    exact ⟨_, List.mem_map_of_mem hprocess, of_decide_eq_true htitle⟩
  · rintro ⟨entry, hentry, htitle⟩
    obtain ⟨process, hprocess, rfl⟩ := List.mem_map.mp hentry
    exact ⟨process, hprocess, decide_eq_true htitle⟩

theorem Entered.listed {launched programHandle titleId : UInt64} {s s' : LaunchState} {node : Nat}
    (h : Entered launched programHandle s node s') :
    (lookup s'.processes titleId).2 ≠ none ↔ Listed s.processes launched titleId := by
  rw [lookup_ne_none, h.identity]
  unfold Listed
  constructor
  · rintro ⟨entry, hentry, htitle⟩
    rcases List.mem_append.mp hentry with hold | hnew
    · obtain ⟨process, hprocess, rfl⟩ := List.mem_map.mp hold
      exact Or.inr ⟨process, hprocess, htitle⟩
    · rw [List.mem_singleton] at hnew
      subst hnew
      exact Or.inl htitle
  · rintro (htitle | ⟨process, hprocess, htitle⟩)
    · exact ⟨_, List.mem_append_right _ (List.mem_singleton.mpr rfl), htitle⟩
    · exact ⟨_, List.mem_append_left _ (List.mem_map_of_mem hprocess), htitle⟩

/-- The dependencies of the program that is entered are all there, or one is left for the loop. -/
theorem Merged.all_there {processes : List ProcessData} {titles : List UInt64} {dependencies : List Dependency}
    (h : Merged processes titles [] (dependencies.map Dependency.entry)) :
    (∀ dependency ∈ dependencies, dependency.process ≠ none) ↔ ∀ titleId ∈ titles, (lookup processes titleId).2 ≠ none := by
  obtain ⟨fresh, hfresh, hlookup⟩ := h.fresh
  rw [List.nil_append] at hfresh
  subst hfresh
  constructor
  · intro hthere titleId htitle
    obtain ⟨entry, hentry, rfl⟩ := List.mem_map.mp (h.listed titleId htitle)
    obtain ⟨dependency, hdependency, rfl⟩ := List.mem_map.mp hentry
    obtain ⟨-, hlooked⟩ := hlookup _ hentry
    rw [← hlooked]
    exact hthere dependency hdependency
  · intro hall dependency hdependency
    obtain ⟨htitle, hlooked⟩ := hlookup _ (List.mem_map_of_mem hdependency)
    have hthere := hall _ htitle
    rw [← hlooked] at hthere
    exact hthere

/-- How the load of the program ends: with nothing but its process, or failed, or with a process besides its own. -/
def Loaded (env : LaunchEnv) (debug : Bool) (programId programHandle : UInt64) (flags : LaunchFlags) (s : LaunchState)
    (r : Result × Option Nat) (s' : LaunchState) : Prop :=
  (env.LoadsAlone debug programId flags s.processes → failed r.1 = false ∧
    ∃ node, r.2 = some node ∧ Entered (env.exheader programId).titleId programHandle s node s') ∧
  (¬ env.LoadsAlone debug programId flags s.processes → Progress s s' ∧
    (failed r.1 = true ∨ ∃ node, r.2 = some node ∧ Left [node] s'))

theorem Loaded.of_failed {env : LaunchEnv} {debug : Bool} {programId programHandle : UInt64} {flags : LaunchFlags}
    {s s' : LaunchState} {r : Result × Option Nat} (hloads : env.main.loads (env.exheader programId) debug programId = false)
    (hprogress : Progress s s') (hfail : failed r.1 = true) : Loaded env debug programId programHandle flags s r s' := by
  refine ⟨fun hcond => ?_, fun _ => ⟨hprogress, Or.inl hfail⟩⟩
  have htrue := hcond.1
  rw [hloads] at htrue
  cases htrue

theorem orphans_progress {s : LaunchState} (ht : Tidy s) (orphans : Nat) : Progress s { s with orphans := orphans } :=
  ⟨ht.of_eq rfl rfl rfl rfl, fun _ hnode => hnode, fun _ _ hnode => hnode, le_rfl⟩

theorem load_spec (env : LaunchEnv) (debug : Bool) (programId programHandle : UInt64) (flags : LaunchFlags)
    {s : LaunchState} (ht : Tidy s) :
    Wp (if flags.launching.loadDependencies then loadWithDependencies env debug programId programHandle flags.launching
        else loadWithoutDependencies env.main debug programHandle programId flags.launching (env.exheader programId))
      (Loaded env debug programId programHandle flags s) (fun _ _ => True) s := by
  have hflags : flags.launching.loadDependencies = (flags.normalApplication || flags.loadDependencies) := by
    unfold LaunchFlags.launching
    cases hn : flags.normalApplication <;> simp
  have hfake : flags.launching.fakeDependencyLoading = flags.fakeDependencyLoading := by
    unfold LaunchFlags.launching
    cases hn : flags.normalApplication <;> simp
  cases hwith : flags.launching.loadDependencies with
  | false =>
    rw [if_neg Bool.false_ne_true]
    rw [hwith, eq_comm, Bool.or_eq_false_iff] at hflags
    refine (loadWithoutDependencies_spec _ _ (fun _ _ => trivial) ..).mono (fun r s₁ hs₁ => ?_) fun _ _ h => h
    obtain ⟨hresult, ⟨node, hout, hentered⟩ | ⟨hloads, -, orphans, -, rfl⟩⟩ := hs₁
    · cases hloads : env.main.loads (env.exheader programId) debug programId with
      | false =>
        rw [hloads] at hresult
        exact Loaded.of_failed hloads (hentered.progress ht).1 hresult
      | true =>
        rw [hloads] at hresult
        refine ⟨fun _ => ⟨hresult, node, hout, hentered⟩, fun hcond => absurd ⟨hloads, ?_⟩ hcond⟩
        simp [hflags.1, hflags.2]
    · rw [hloads] at hresult
      exact Loaded.of_failed hloads (orphans_progress ht orphans) hresult
  | true =>
    rw [if_pos rfl]
    rw [hwith, eq_comm, Bool.or_eq_true] at hflags
    unfold loadWithDependencies
    dsimp only
    refine (loadWithoutDependencies_spec _ _ (fun _ _ => trivial) ..).bind fun r s₁ hs₁ => ?_
    obtain ⟨res, out⟩ := r
    obtain ⟨hresult, hout⟩ := hs₁
    dsimp only at hresult hout ⊢
    cases hloads : env.main.loads (env.exheader programId) debug programId with
    | false =>
      rw [hloads] at hresult
      have hfail : failed res = true := hresult
      rw [if_pos hfail]
      unfold svcTerminateProcess
      rcases hout with ⟨node, rfl, hentered⟩ | ⟨-, rfl, orphans, -, rfl⟩
      · rw [wp_bind, wp_modify, wp_pure]
        obtain ⟨hprogress, hcreated, -, hnew⟩ := hentered.progress ht
        exact Loaded.of_failed hloads (hprogress.terminate hcreated hnew) hfail
      · dsimp only
        rw [wp_pure]
        exact Loaded.of_failed hloads (orphans_progress ht orphans) hfail
    | true =>
      rw [hloads] at hresult
      rcases hout with ⟨node, rfl, hentered⟩ | ⟨habsurd, -⟩
      swap
      · rw [hloads] at habsurd
        cases habsurd
      have hok : failed res = false := hresult
      rw [hok, if_neg Bool.false_ne_true]
      obtain ⟨hprogress, hcreated, hrunning, hnew⟩ := hentered.progress ht
      refine (listMergeUniqueDependencies_spec (fun _ _ => trivial) env [] _ hprogress.tidy.nodes).bind fun dependencies s₂ hs₂ => ?_
      obtain ⟨hkept, hmerged⟩ := hs₂
      rw [List.map_nil] at hmerged
      have hthere := hmerged.all_there
      simp only [hentered.listed] at hthere
      have hcond : env.LoadsAlone debug programId flags s.processes ↔
          flags.fakeDependencyLoading = true ∨ ∀ dependency ∈ dependencies, dependency.process ≠ none := by
        rw [hthere]
        exact ⟨fun h => h.2 hflags, fun h => ⟨hloads, fun _ => h⟩⟩
      -- the flag is set, if there are dependencies; then comes the loop
      have hloop : ∀ s₃, Kept s₁ s₃ →
          Wp (do
            let res ← loadDependencies env 48 0 (if flags.launching.fakeDependencyLoading then [] else dependencies) res
            pure (res, some node) : LaunchM (Result × Option Nat))
            (Loaded env debug programId programHandle flags s) (fun _ _ => True) s₃ := by
        intro s₃ hs₃
        have hprogress₃ := hprogress.trans (hs₃.progress hprogress.tidy)
        rw [hfake]
        by_cases halone : env.LoadsAlone debug programId flags s.processes
        · have hidle : ∀ dependency ∈ (if flags.fakeDependencyLoading then [] else dependencies), dependency.process ≠ none := by
            rcases hcond.mp halone with hno | hall
            · simp [hno]
            · split
              · simp
              · exact hall
          rw [loadDependencies_there env 48 0 res hidle, wp_bind, wp_pure, wp_pure]
          exact ⟨fun _ => ⟨hok, node, rfl, hentered.kept hs₃⟩, fun hnot => absurd halone hnot⟩
        · have hnot := halone
          rw [hcond, not_or, Bool.not_eq_true] at hnot
          obtain ⟨hno, hmissing⟩ := hnot
          push Not at hmissing
          obtain ⟨dependency, hdependency, hnone⟩ := hmissing
          obtain ⟨j, hj, hget⟩ := List.mem_iff_getElem.mp hdependency
          rw [hno, if_neg Bool.false_ne_true]
          have hlength : dependencies.length ≤ 48 := by
            have hroom := hmerged.room (Nat.zero_le _)
            rwa [List.length_map] at hroom
          have hnode : ∀ node' ∈ [node], node' ∈ s₃.created := by
            intro node' hnode'
            rw [List.mem_singleton.mp hnode']
            exact (hs₃.progress hprogress.tidy).created node hcreated
          refine (loadDependencies_left env [node] 48 0 dependencies res hprogress₃.tidy hnode hlength (by omega)
            (Or.inr (Or.inr ⟨j, dependency, Nat.zero_le j, ?_, hnone⟩))).bind fun res' s₄ hs₄ => ?_
          · rw [List.getElem?_eq_getElem hj, hget]
          · refine ⟨fun hyes => absurd hyes halone, fun _ => ⟨hprogress₃.trans hs₄.1, ?_⟩⟩
            rcases hs₄.2 with hfail | hleft
            · exact Or.inl hfail
            · exact Or.inr ⟨node, rfl, hleft⟩
      split
      · unfold writeProcess
        rw [wp_bind, wp_modify]
        exact hloop _ (hkept.trans (kept_writeProcess s₂ node fun _ _ _ => rfl))
      · exact hloop s₂ hkept

/-! ## A launch that fails -/

/-- Nothing has been done when it fails, or only the program registered, or it is the process itself that is not run. -/
def LaunchEnv.FailsCleanly (env : LaunchEnv) (debug : Bool) (programId : UInt64) (update : Option UInt64)
    (flags : LaunchFlags) (processes : List ProcessData) : Prop :=
  (∃ reg, env.registration env.main programId update flags = some reg ∧ failed reg.1 = true) ∨
    env.informs env.main (env.exheader programId) = false ∨ env.LoadsAlone debug programId flags processes

theorem Launched.cleanedUp {titleId programHandle : UInt64} {s s₁ s' : LaunchState} {node : Nat} {res : Result}
    (hs : Requested s) (hentered : Entered titleId programHandle { s with registered := programHandle :: s.registered } node s₁)
    (h : Launched s₁ node res s') (hfail : failed res = true) : CleanedUp s s' := by
  obtain ⟨freeNodes, -, hrest₁⟩ := hentered.rest
  have hidentity := h.identity.trans hentered.identity
  have hrest := h.rest
  rw [if_pos hfail] at hrest
  have hhandles : unregisteredLater s'.processes = unregisteredLater s.processes ++ [programHandle] := by
    rw [unregisteredLater_identity, hidentity, unregisteredLater_identity]
    simp
  refine ⟨?_, ?_, ?_, ?_⟩
  · rw [hrest, hrest₁]
    exact hs.lock
  · rw [hrest, hrest₁]
    exact hs.orphans
  · rw [hrest, hrest₁]
    simp [hs.created]
  · intro handle
    rw [hhandles, hrest, hrest₁]
    simp only [hs.registered, hs.unregistered, List.nil_append, List.count_append, List.count_cons, List.count_nil]
    omega

theorem Left.not_cleanedUp {s s₁ s' : LaunchState} {node : Nat} {res : Result} (hleft : Left [node] s₁)
    (h : Launched s₁ node res s') : ¬ CleanedUp s s' := by
  obtain ⟨left, hcreated, hrunning, hother⟩ := hleft
  intro hclean
  have hrest := h.rest
  have hended := hclean.processes left
  rw [hrest] at hended
  have hmem := hended hcreated
  dsimp only at hmem
  split at hmem
  · rcases List.mem_cons.mp hmem with rfl | hthere
    · exact hother (List.mem_singleton.mpr rfl)
    · exact hrunning hthere
  · exact hrunning hmem

/-- A launch that fails leaves nothing behind if it fails before the load of the program, or after it with no dependency
to load; if the load fails, the lock is released that was never taken, and if the process does not run, the dependencies
that were launched for it do. -/
theorem failed_launch_cleans_up (env : LaunchEnv) (debug : Bool) (programId : UInt64) (update : Option UInt64)
    (flags : LaunchFlags) {s s' : LaunchState} {res : Result} {out : Option Nat} (hs : Requested s)
    (hrun : Runs (launchTitleImpl env debug programId update flags) s (res, out) s') (hfail : failed res = true) :
    CleanedUp s s' ↔ env.FailsCleanly debug programId update flags s.processes := by
  have hwp : Wp (launchTitleImpl env debug programId update flags)
      (fun r s' => failed r.1 = true → (CleanedUp s s' ↔ env.FailsCleanly debug programId update flags s.processes))
      (fun _ _ => True) s := by
    unfold launchTitleImpl
    apply launchTitleImplWith_wp
    · exact fun _ => trivial
    · intro _ hfail
      cases hfail
    · intro reg _ hreg hunregistered _
      refine iff_of_true ⟨hs.lock, hs.orphans, ?_, ?_⟩ (Or.inl ⟨reg, hreg, hunregistered⟩)
      · simp [hs.created]
      · simp [hs.registered, hs.unregistered]
    · intro reg res _ hreg _ huninformed _ _
      refine iff_of_true ⟨hs.lock, hs.orphans, ?_, ?_⟩ (Or.inr (Or.inl huninformed))
      · simp [hs.created]
      · simp [hs.registered, hs.unregistered]
    · intro reg _ hreg hregistered hinformed
      have ht : Tidy { s with registered := reg.2 :: s.registered } := hs.tidy.of_eq rfl rfl rfl rfl
      have hcond : env.FailsCleanly debug programId update flags s.processes ↔ env.LoadsAlone debug programId flags s.processes := by
        unfold LaunchEnv.FailsCleanly
        simp [hreg, hregistered, hinformed]
      refine (load_spec env debug programId reg.2 flags ht).mono (fun r s₁ hs₁ => ?_) fun _ _ h => h
      obtain ⟨hclean, hunclean⟩ := hs₁
      constructor
      · intro hload _
        rw [hcond]
        refine iff_of_false ?_ ?_
        · intro hcleanedUp
          by_cases halone : env.LoadsAlone debug programId flags s.processes
          · rw [(hclean halone).1] at hload
            cases hload
          · -- the lock is released once more than it was taken
            have hlock := (hunclean halone).1.lock
            have hdepth := hcleanedUp.lock
            have hbefore := hs.lock
            dsimp only at hlock hdepth
            omega
        · intro halone
          rw [(hclean halone).1] at hload
          cases hload
      · intro hload
        by_cases halone : env.LoadsAlone debug programId flags s.processes
        · obtain ⟨-, node, hout, hentered⟩ := hclean halone
          refine ⟨node, hout, fun res' s'' _ hlaunched hfail' => ?_⟩
          exact iff_of_true (hlaunched.cleanedUp hs hentered hfail') (hcond.mpr halone)
        · rcases (hunclean halone).2 with hfailed | ⟨node, hout, hleft⟩
          · rw [hload] at hfailed
            cases hfailed
          · refine ⟨node, hout, fun res' s'' _ hlaunched _ => ?_⟩
            exact iff_of_false (hleft.not_cleanedUp hlaunched) (fun hcleanly => halone (hcond.mp hcleanly))
  exact hwp.of_runs hrun hfail

/-! ## A program that is not loaded, and one that does not run -/

/-- One program without dependencies, and what loading and running it answers. -/
def oneProgram (loadProcess run : Result) : LaunchEnv where
  isN3ds := false
  numKips := 5
  kernelSyscoreVer := 2
  exheader := fun titleId => ⟨titleId, [], 2, 0⟩
  main := ⟨fun _ _ => (0, 7), 0, (loadProcess, 0x1C), (0, 0x20), 0, 0, 0, 0, 0, 0, run⟩
  dependency := fun _ => ⟨fun _ _ => (0, 8), 0, (loadProcess, 0x1C), (0, 0x21), 0, 0, 0, 0, 0, 0, run⟩

def noProcesses : LaunchState where
  processes := []
  freeNodes := [0, 1, 2]
  runningApplicationData := none
  debugData := none
  lockDepth := 0
  registered := []
  unregistered := []
  created := []
  orphans := 0
  terminated := []

theorem requested_noProcesses : Requested noProcesses := by
  constructor <;> simp [noProcesses, Nodes]

/-- The program is registered and not loaded: the lock is released that was not taken, and nothing will unregister the
program. -/
theorem unloaded_unlocks : Requested noProcesses ∧
    Runs (launchTitleImpl (oneProgram 0xC8804478 0) false 0x0004001000021000 none .zero) noProcesses (0xC8804478, none)
      { noProcesses with lockDepth := -1, registered := [7] } ∧
    ¬ CleanedUp noProcesses { noProcesses with lockDepth := -1, registered := [7] } := by
  refine ⟨requested_noProcesses, rfl, fun hclean => ?_⟩
  have hlock := hclean.lock
  dsimp only at hlock
  omega

/-- The program is loaded and does not run: it is terminated, and its record unregisters it. -/
theorem unrun_cleans_up : CleanedUp noProcesses
    { noProcesses with
      processes := [newProcess (oneProgram 0 0xC8804478).main 0 7 .zero ⟨0x0004001000021000, [], 2, 0⟩]
      freeNodes := [1, 2]
      registered := [7]
      created := [0]
      terminated := [0] } := by
  have hrun : Runs (launchTitleImpl (oneProgram 0 0xC8804478) false 0x0004001000021000 none .zero) noProcesses
      (0xC8804478, some 0) _ := rfl
  refine (failed_launch_cleans_up _ _ _ _ _ requested_noProcesses hrun rfl).mpr ?_
  refine Or.inr (Or.inr ⟨rfl, fun hwith => ?_⟩)
  simp [LaunchFlags.zero] at hwith

end Omiiba.Pm
