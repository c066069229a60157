/-
What a launch with dependencies has loaded when it succeeds: the walk over the dependencies, and the titles that it
comes to.
-/
import Omiiba.Lib.Worklist
import Omiiba.Pm.LaunchCleanup

namespace Omiiba.Pm

/-! ## The dependencies of a title -/

/-- Titles are compared without their last byte. -/
def SameTitle (titleId titleId' : UInt64) : Prop := titleId &&& ~~~0xFF = titleId' &&& ~~~0xFF

instance (titleId titleId' : UInt64) : Decidable (SameTitle titleId titleId') :=
  inferInstanceAs (Decidable (titleId &&& ~~~0xFF = titleId' &&& ~~~0xFF))

section

variable (env : LaunchEnv) (programId : UInt64) (flags : LaunchFlags) (processes : List ProcessData)

/-- The dependencies that the exheader of a title lists. -/
def LaunchEnv.dependenciesOf (titleId : UInt64) : List UInt64 := listDependencies env.isN3ds (env.exheader titleId).dependencies

/-- A dependency, or one of a dependency. -/
def LaunchEnv.DependsOn (titleId : UInt64) : Prop :=
  Reached env.dependenciesOf (fun _ => True) (env.dependenciesOf programId) titleId

/-- No process has the title when its dependencies are merged. -/
def LaunchEnv.Missing (titleId : UInt64) : Prop := ¬ Listed processes (env.exheader programId).titleId titleId

/-- Everything goes well in the launch of a dependency. -/
def LaunchEnv.launches (titleId : UInt64) : Bool :=
  !env.isTitleLaunchPrevented titleId && !failed (registerProgram env (env.dependency titleId) titleId titleId).1 &&
    env.informs (env.dependency titleId) (env.exheader titleId) &&
    (env.dependency titleId).loads (env.exheader titleId) false titleId && !failed (env.dependency titleId).run

/-- The titles that the walk comes to: it goes on from those that are missing and launch. -/
def LaunchEnv.Walks (titleId : UInt64) : Prop :=
  Reached env.dependenciesOf (fun d => env.Missing programId processes d ∧ env.launches d = true)
    (env.dependenciesOf programId) titleId

/-- The exheader of a dependency has its title, and no other dependency has. -/
def LaunchEnv.Distinct : Prop :=
  ∀ d d', env.DependsOn programId d → env.DependsOn programId d' → (SameTitle (env.exheader d).titleId d' ↔ d = d')

/-- A process has the title and is neither terminating nor terminated. -/
def Running (processes : List ProcessData) (titleId : UInt64) : Prop :=
  ∃ process ∈ processes, SameTitle process.titleId titleId ∧ process.terminationStatus = .running

instance (processes : List ProcessData) (titleId : UInt64) : Decidable (Running processes titleId) :=
  inferInstanceAs (Decidable (∃ process ∈ processes, SameTitle process.titleId titleId ∧ process.terminationStatus = .running))

/-- Every dependency that may be launched runs. -/
def LaunchEnv.Complete (processes : List ProcessData) : Prop :=
  ∀ d, env.DependsOn programId d → env.isTitleLaunchPrevented d = false → Running processes d

/-- The walk comes to no title that is missing and prevented; and every dependency that may be launched runs already, or
has the title that is launched, or is missing and launches when the walk comes to it. -/
structure LaunchEnv.Completes : Prop where
  unprevented : env.isTitleLaunchPrevented programId = false → flags.fakeDependencyLoading = false →
    ∀ d, env.Walks programId processes d → env.Missing programId processes d → env.isTitleLaunchPrevented d = false
  covered : ∀ d, env.DependsOn programId d → env.isTitleLaunchPrevented d = false → Running processes d ∨
    env.isTitleLaunchPrevented programId = false ∧ (SameTitle (env.exheader programId).titleId d ∨
      flags.fakeDependencyLoading = false ∧ env.Walks programId processes d ∧ env.Missing programId processes d ∧
        env.launches d = true)

end

theorem LaunchEnv.Walks.dependsOn {env : LaunchEnv} {programId titleId : UInt64} {processes : List ProcessData}
    (h : env.Walks programId processes titleId) : env.DependsOn programId titleId :=
  h.mono fun _ _ => trivial

/-! ## The launch of one dependency -/

/-- The entry of a process that has been launched for a title. -/
def LaunchEnv.Launched (env : LaunchEnv) (titleId : UInt64) (entry : Nat × UInt64 × UInt64 × Bool × TerminationStatus) : Prop :=
  entry.2.1 = (env.exheader titleId).titleId ∧ entry.2.2.2.2 = .running

section

variable (env : LaunchEnv) (programId : UInt64) (processes : List ProcessData)
  (before : List (Nat × UInt64 × UInt64 × Bool × TerminationStatus))

/-- The loop, before entry `i`: which entries are to be launched is what was missing at the start, and the processes are
those that were there and one for each missing title that launches, of those walked. -/
structure Walk (dependencies : List Dependency) (i : Nat) (s : LaunchState) : Prop where
  tidy : Tidy s
  room : dependencies.length ≤ 48
  nodup : (dependencies.map (·.titleId)).Nodup
  walked : Walked env.dependenciesOf (fun d => env.Missing programId processes d ∧ env.launches d = true)
    (env.dependenciesOf programId) (dependencies.map (·.titleId)) i
  pending : ∀ j dependency, i ≤ j → dependencies[j]? = some dependency →
    (dependency.process = none ↔ env.Missing programId processes dependency.titleId)
  kept : ∀ entry ∈ before, entry ∈ s.processes.map ProcessData.identity
  known : ∀ entry ∈ s.processes.map ProcessData.identity, entry ∈ before ∨
    ∃ d ∈ dependencies.map (·.titleId), env.Missing programId processes d ∧ env.launches d = true ∧ env.Launched d entry
  done : ∀ j d, j < i → (dependencies.map (·.titleId))[j]? = some d → env.Missing programId processes d →
    env.isTitleLaunchPrevented d = false ∧
      (env.launches d = true → ∃ entry ∈ s.processes.map ProcessData.identity, env.Launched d entry)

end

section

variable {env : LaunchEnv} {programId : UInt64} {processes : List ProcessData}
  {before : List (Nat × UInt64 × UInt64 × Bool × TerminationStatus)} {dependencies : List Dependency} {dependency : Dependency}
  {i : Nat} {s s' : LaunchState}

theorem getElem?_titles (hi : dependencies[i]? = some dependency) :
    (dependencies.map (·.titleId))[i]? = some dependency.titleId := by
  rw [List.getElem?_map, hi]
  rfl

theorem Walk.walks (h : Walk env programId processes before dependencies i s) (hi : dependencies[i]? = some dependency) :
    env.Walks programId processes dependency.titleId :=
  h.walked.reached _ (List.mem_of_getElem? (getElem?_titles hi))

/-- A dependency that is there is passed over. -/
theorem Walk.skip (h : Walk env programId processes before dependencies i s) (hi : dependencies[i]? = some dependency)
    (hthere : dependency.process ≠ none) : Walk env programId processes before dependencies (i + 1) s := by
  have hnot : ¬ env.Missing programId processes dependency.titleId := fun hmissing =>
    hthere ((h.pending i dependency le_rfl hi).mpr hmissing)
  have hwalked := h.walked.skip (getElem?_titles hi) fun hp => hnot hp.1
  refine ⟨h.tidy, h.room, h.nodup, hwalked, ?_, h.kept, h.known, ?_⟩
  · exact fun j dependency' hj hget => h.pending j dependency' (by omega) hget
  · intro j d hj hget hmissing
    rcases Nat.lt_succ_iff_lt_or_eq.mp hj with hlt | rfl
    · exact h.done j d hlt hget hmissing
    · rw [getElem?_titles hi] at hget
      obtain rfl := Option.some.inj hget
      exact absurd hmissing hnot

/-- A dependency that launches is one process more, and its own dependencies are added to the list. -/
theorem Walk.launch {dependencies' : List Dependency} {node : Nat} {remrefcount : UInt32}
    {entry : Nat × UInt64 × UInt64 × Bool × TerminationStatus} (hdistinct : env.Distinct programId)
    (hbefore : ∀ d, env.Missing programId processes d ↔ ∀ entry ∈ before, ¬ SameTitle entry.2.1 d)
    (h : Walk env programId processes before dependencies i s) (hi : dependencies[i]? = some dependency)
    (hmissing : dependency.process = none) (hlaunches : env.launches dependency.titleId = true)
    (hentry : env.Launched dependency.titleId entry) {s₁ : LaunchState} (ht : Tidy s')
    (hids₁ : s₁.processes.map ProcessData.identity = s.processes.map ProcessData.identity ++ [entry])
    (hids : s'.processes.map ProcessData.identity = s₁.processes.map ProcessData.identity)
    (hmerged : Merged s₁.processes (env.dependenciesOf dependency.titleId)
      ((dependencies.set i ⟨dependency.titleId, remrefcount, some node⟩).map Dependency.entry)
      (dependencies'.map Dependency.entry)) :
    Walk env programId processes before dependencies' (i + 1) s' := by
  rw [h.pending i dependency le_rfl hi] at hmissing
  have htitles : ∀ list : List Dependency, (list.map Dependency.entry).map (·.1) = list.map (·.titleId) := fun list => by
    rw [List.map_map]
    rfl
  have hset : (dependencies.set i ⟨dependency.titleId, remrefcount, some node⟩).map (·.titleId) = dependencies.map (·.titleId) := by
    obtain ⟨hlt, hget⟩ := List.getElem?_eq_some_iff.mp (getElem?_titles hi)
    rw [List.map_set, ← hget, List.set_getElem_self]
  obtain ⟨fresh, hfresh, hlookup⟩ := hmerged.fresh
  have hnew : dependencies'.map (·.titleId) = dependencies.map (·.titleId) ++ fresh.map (·.1) := by
    rw [← htitles, hfresh, List.map_append, htitles, hset]
  have hnodup : (dependencies'.map (·.titleId)).Nodup := by
    rw [← htitles]
    apply hmerged.nodup
    rw [htitles, hset]
    exact h.nodup
  have hwalked : Walked env.dependenciesOf (fun d => env.Missing programId processes d ∧ env.launches d = true)
      (env.dependenciesOf programId) (dependencies'.map (·.titleId)) (i + 1) := by
    rw [hnew]
    refine h.walked.extend (getElem?_titles hi) ⟨hmissing, hlaunches⟩ (fun d hd => ?_) fun d hd => ?_
    · rw [← hnew, ← htitles]
      exact hmerged.listed d hd
    · obtain ⟨entry', hentry', rfl⟩ := List.mem_map.mp hd
      exact (hlookup entry' hentry').1
  have hwalks : dependency.titleId ∈ dependencies.map (·.titleId) := List.mem_of_getElem? (getElem?_titles hi)
  have hknown : ∀ entry' ∈ s₁.processes.map ProcessData.identity, entry' ∈ before ∨
      ∃ d ∈ dependencies.map (·.titleId), env.Missing programId processes d ∧ env.launches d = true ∧ env.Launched d entry' := by
    rw [hids₁]
    intro entry' hentry'
    rcases List.mem_append.mp hentry' with hold | hlast
    · exact h.known entry' hold
    · rw [List.mem_singleton.mp hlast]
      exact Or.inr ⟨dependency.titleId, hwalks, hmissing, hlaunches, hentry⟩
  -- a title that is new to the list is found only if it was there from the start
  have hfound : ∀ entry' ∈ fresh, entry'.2 = none ↔ env.Missing programId processes entry'.1 := by
    intro entry' hentry'
    obtain ⟨hmem, hlooked⟩ := hlookup entry' hentry'
    rw [hlooked, hbefore, ← not_iff_not]
    have hlist : (lookup s₁.processes entry'.1).2 ≠ none ↔ _ := lookup_ne_none
    refine hlist.trans ?_
    push Not
    constructor
    · rintro ⟨known, hthere, htitle⟩
      rcases hknown known hthere with hold | ⟨d, hd, -, -, hlaunched⟩
      · exact ⟨known, hold, htitle⟩
      · have hsame : d = entry'.1 := by
          refine (hdistinct d entry'.1 ?_ ?_).mp ?_
          · exact LaunchEnv.Walks.dependsOn (h.walked.reached d hd)
          · refine LaunchEnv.Walks.dependsOn (hwalked.reached entry'.1 ?_)
            rw [hnew]
            exact List.mem_append_right _ (List.mem_map_of_mem hentry')
          · unfold SameTitle
            rw [← hlaunched.1]
            exact htitle
        rw [hnew, List.nodup_append] at hnodup
        exact absurd hsame (hnodup.2.2 d hd entry'.1 (List.mem_map_of_mem hentry'))
    · rintro ⟨known, hthere, htitle⟩
      refine ⟨known, ?_, htitle⟩
      rw [hids₁]
      exact List.mem_append_left _ (h.kept known hthere)
  refine ⟨ht, ?_, hnodup, hwalked, ?_, ?_, ?_, ?_⟩
  · have hroom := hmerged.room
    rw [List.length_map, List.length_map, List.length_set] at hroom
    exact hroom h.room
  · intro j dependency' hj hget
    have hentries : ((dependencies.set i ⟨dependency.titleId, remrefcount, some node⟩).map Dependency.entry ++ fresh)[j]? =
        some dependency'.entry := by
      rw [← hfresh, List.getElem?_map, hget]
      rfl
    rcases Nat.lt_or_ge j dependencies.length with hlt | hge
    · rw [List.getElem?_append_left (by simpa using hlt), List.getElem?_map, List.getElem?_set_ne (by omega)] at hentries
      obtain ⟨old, hold, hsame⟩ := Option.map_eq_some_iff.mp hentries
      have hpending := h.pending j old (by omega) hold
      obtain ⟨htitle, hprocess⟩ := Prod.mk.inj hsame
      rw [← htitle, ← hprocess]
      exact hpending
    · rw [List.getElem?_append_right (by simpa using hge)] at hentries
      exact hfound _ (List.mem_of_getElem? hentries)
  · intro entry' hentry'
    rw [hids, hids₁]
    exact List.mem_append_left _ (h.kept entry' hentry')
  · rw [hids]
    intro entry' hentry'
    rcases hknown entry' hentry' with hold | ⟨d, hd, hlaunched⟩
    · exact Or.inl hold
    · refine Or.inr ⟨d, ?_, hlaunched⟩
      rw [hnew]
      exact List.mem_append_left _ hd
  · rw [hids, hids₁]
    intro j d hj hget hd
    have hlt := (List.getElem?_eq_some_iff.mp hi).1
    rw [hnew, List.getElem?_append_left (by rw [List.length_map]; omega)] at hget
    rcases Nat.lt_succ_iff_lt_or_eq.mp hj with hbefore' | rfl
    · obtain ⟨hprevented, hrunning⟩ := h.done j d hbefore' hget hd
      refine ⟨hprevented, fun hyes => ?_⟩
      obtain ⟨entry', hentry', hlaunched⟩ := hrunning hyes
      exact ⟨entry', List.mem_append_left _ hentry', hlaunched⟩
    · rw [getElem?_titles hi] at hget
      obtain rfl := Option.some.inj hget
      have hprevented : env.isTitleLaunchPrevented dependency.titleId = false := by
        simp only [LaunchEnv.launches, Bool.and_eq_true, Bool.not_eq_true'] at hlaunches
        exact hlaunches.1.1.1.1
      exact ⟨hprevented, fun _ => ⟨entry, List.mem_append_right _ (List.mem_singleton.mpr rfl), hentry⟩⟩

end

/-! ## The launch -/

theorem running_iff {processes : List ProcessData} {titleId : UInt64} :
    Running processes titleId ↔
      ∃ entry ∈ processes.map ProcessData.identity, SameTitle entry.2.1 titleId ∧ entry.2.2.2.2 = .running := by
  constructor
  · rintro ⟨process, hprocess, hrunning⟩
    exact ⟨_, List.mem_map_of_mem hprocess, hrunning⟩
  · rintro ⟨entry, hentry, hrunning⟩
    obtain ⟨process, hprocess, rfl⟩ := List.mem_map.mp hentry
    exact ⟨process, hprocess, hrunning⟩

theorem Complete.congr {env : LaunchEnv} {programId : UInt64} {processes processes' : List ProcessData}
    (h : processes'.map ProcessData.identity = processes.map ProcessData.identity) :
    env.Complete programId processes' ↔ env.Complete programId processes := by
  unfold LaunchEnv.Complete
  simp only [running_iff, h]

theorem Walk.start {env : LaunchEnv} {programId programHandle : UInt64} {s s₁ s' : LaunchState} {node : Nat}
    {dependencies : List Dependency} (h : Entered (env.exheader programId).titleId programHandle s node s₁) (ht : Tidy s')
    (hids : s'.processes.map ProcessData.identity = s₁.processes.map ProcessData.identity)
    (hmerged : Merged s₁.processes (env.dependenciesOf programId) [] (dependencies.map Dependency.entry)) :
    Walk env programId s.processes (s₁.processes.map ProcessData.identity) dependencies 0 s' := by
  obtain ⟨fresh, hfresh, hlookup⟩ := hmerged.fresh
  rw [List.nil_append] at hfresh
  have htitles : (dependencies.map Dependency.entry).map (·.1) = dependencies.map (·.titleId) := by
    rw [List.map_map]
    rfl
  have hroom := hmerged.room (Nat.zero_le _)
  rw [List.length_map] at hroom
  have hnodup := hmerged.nodup List.nodup_nil
  rw [htitles] at hnodup
  have hlisted := hmerged.listed
  rw [htitles] at hlisted
  refine ⟨ht, hroom, hnodup, Walked.start hlisted ?_, ?_, ?_, ?_, ?_⟩
  · intro d hd
    rw [← htitles, hfresh] at hd
    obtain ⟨entry, hentry, rfl⟩ := List.mem_map.mp hd
    exact (hlookup entry hentry).1
  · intro j dependency _ hget
    have hentry : dependency.entry ∈ fresh := by
      rw [← hfresh]
      exact List.mem_map_of_mem (List.mem_of_getElem? hget)
    have hlooked := (hlookup _ hentry).2
    have hprocess : dependency.process = (lookup s₁.processes dependency.titleId).2 := congrArg Prod.snd hlooked
    rw [hprocess]
    unfold LaunchEnv.Missing
    rw [← h.listed, not_ne_iff]
  · rw [hids]
    exact fun _ hentry => hentry
  · rw [hids]
    exact fun _ hentry => Or.inl hentry
  · intro j d hj
    exact absurd hj (Nat.not_lt_zero j)

section

variable {env : LaunchEnv} {programId programHandle : UInt64} {flags : LaunchFlags} {s s₁ s' : LaunchState} {node : Nat}

/-- What is there without the walk runs already, or has the title that is launched. -/
theorem Entered.running_iff (h : Entered (env.exheader programId).titleId programHandle s node s₁) {d : UInt64} :
    (∃ entry ∈ s₁.processes.map ProcessData.identity, SameTitle entry.2.1 d ∧ entry.2.2.2.2 = .running) ↔
      Running s.processes d ∨ SameTitle (env.exheader programId).titleId d := by
  rw [Pm.running_iff, h.identity]
  constructor
  · rintro ⟨entry, hentry, hsame, hrunning⟩
    rcases List.mem_append.mp hentry with hold | hlast
    · exact Or.inl ⟨entry, hold, hsame, hrunning⟩
    · rw [List.mem_singleton] at hlast
      subst hlast
      exact Or.inr hsame
  · rintro (⟨entry, hold, hsame, hrunning⟩ | hsame)
    · exact ⟨entry, List.mem_append_left _ hold, hsame, hrunning⟩
    · exact ⟨_, List.mem_append_right _ (List.mem_singleton.mpr rfl), hsame, rfl⟩

theorem Walk.complete_iff {dependencies : List Dependency} {i : Nat}
    (h : Entered (env.exheader programId).titleId programHandle s node s₁)
    (hdistinct : env.Distinct programId) (hprevented : env.isTitleLaunchPrevented programId = false)
    (hno : flags.fakeDependencyLoading = false) (hend : dependencies.length ≤ i)
    (hwalk : Walk env programId s.processes (s₁.processes.map ProcessData.identity) dependencies i s') :
    env.Complete programId s'.processes ↔ env.Completes programId flags s.processes := by
  have hwalked : ∀ {d}, d ∈ dependencies.map (·.titleId) ↔ env.Walks programId s.processes d :=
    hwalk.walked.mem_iff (by rwa [List.length_map])
  have hdone : ∀ d, env.Walks programId s.processes d → env.Missing programId s.processes d →
      env.isTitleLaunchPrevented d = false ∧
        (env.launches d = true → ∃ entry ∈ s'.processes.map ProcessData.identity, env.Launched d entry) := by
    intro d hd hmissing
    obtain ⟨j, hj, hget⟩ := List.mem_iff_getElem.mp (hwalked.mpr hd)
    refine hwalk.done j d ?_ ?_ hmissing
    · rw [List.length_map] at hj
      omega
    · rw [List.getElem?_eq_getElem hj, hget]
  constructor
  · intro hcomplete
    constructor
    · exact fun _ _ d hd hmissing => (hdone d hd hmissing).1
    · intro d hd hlaunchable
      obtain ⟨entry, hentry, hsame, hrunning⟩ := Pm.running_iff.mp (hcomplete d hd hlaunchable)
      rcases hwalk.known entry hentry with hold | ⟨d', hd', hmissing, hlaunches, hlaunched⟩
      · rcases h.running_iff.mp ⟨entry, hold, hsame, hrunning⟩ with hbefore | hmain
        · exact Or.inl hbefore
        · exact Or.inr ⟨hprevented, Or.inl hmain⟩
      · -- a process that the walk has launched for another title does not have this one
        have hwalks := hwalked.mp hd'
        rw [hlaunched.1] at hsame
        obtain rfl := (hdistinct d' d hwalks.dependsOn hd).mp hsame
        exact Or.inr ⟨hprevented, Or.inr ⟨hno, hwalks, hmissing, hlaunches⟩⟩
  · intro hcompletes d hd hlaunchable
    rw [Pm.running_iff]
    have hold : (Running s.processes d ∨ SameTitle (env.exheader programId).titleId d) →
        ∃ entry ∈ s'.processes.map ProcessData.identity, SameTitle entry.2.1 d ∧ entry.2.2.2.2 = .running := by
      intro hthere
      obtain ⟨entry, hentry, hrunning⟩ := h.running_iff.mpr hthere
      exact ⟨entry, hwalk.kept entry hentry, hrunning⟩
    rcases hcompletes.covered d hd hlaunchable with hrunning | ⟨-, hsame | ⟨-, hwalks, hmissing, hlaunches⟩⟩
    · exact hold (Or.inl hrunning)
    · exact hold (Or.inr hsame)
    · obtain ⟨entry, hentry, htitle, hrunning⟩ := (hdone d hwalks hmissing).2 hlaunches
      refine ⟨entry, hentry, ?_, hrunning⟩
      rw [htitle]
      exact (hdistinct d d hd hd).mpr rfl

end

end Omiiba.Pm
