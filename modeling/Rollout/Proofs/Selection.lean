import Mathlib.Data.List.Flatten
import Mathlib.Data.List.Perm.Basic
import Rollout.Proofs.Graph.Reachability
import Rollout.Proofs.Plan.Handover

/-!
Which projects a filter selects: those requested and all that they depend on, directly or not. They
are found by looking at one pending id after the other. An id may be pending many times, but only
the first time what it depends on is put off, so there is an end.
-/

namespace Rollout

open Relation EnvironmentPlan

namespace Project

/-- One id depends on another if the project of that id does in some environment. Of two projects
with one id the later counts.
-/
def DependsOn (projects : List Project) (id other : String) : Prop :=
  ∃ project ∈ unshadowed projects, project.id = id
    ∧ ∃ environment, other ∈ (project.dependenciesIn environment).keys

/-- An id that is requested, or that a needed one depends on. -/
def Needed (projects : List Project) (requested : List String) (id : String) : Prop :=
  ∃ name ∈ requested, ReflTransGen (DependsOn projects) name id

variable {projects : List Project} {requested : List String}

theorem Needed.dependsOn {id other : String} (needed : Needed projects requested id)
    (depends : DependsOn projects id other)
    : Needed projects requested other := by
  obtain ⟨name, asked, path⟩ := needed
  exact ⟨name, asked, path.tail depends⟩

-----------------------------------------------------------------------------------------
-- One step
-----------------------------------------------------------------------------------------

theorem mem_allDependencies {project : Project} {other : String}
    : other ∈ project.allDependencies
      ↔ ∃ environment, other ∈ (project.dependenciesIn environment).keys := by
  simp only [allDependencies, SortedMap.values, List.flatMap_map, List.mem_flatMap, Prod.exists,
    dependenciesIn, ← SortedMap.get?_eq_some_iff]
  refine exists_congr fun environment => ?_
  cases project.dependencies.get? environment <;> simp

theorem neighbours_eq (projects : List Project) (id : String)
    : neighbours projects id = ((project? projects id).map allDependencies).getD [] := by
  unfold neighbours project?
  cases projects.reverse.find? _ <;> rfl

theorem mem_neighbours {id other : String}
    : other ∈ neighbours projects id ↔ DependsOn projects id other := by
  rw [neighbours_eq]
  simp only [DependsOn, ← mem_allDependencies]
  cases found : project? projects id with
  | none =>
      have absent := project?_eq_none_iff.mp found
      simp only [Option.map_none, Option.getD_none, List.not_mem_nil, false_iff]
      rintro ⟨project, member, rfl, _⟩
      exact absent (mem_ids_unshadowed.mp (List.mem_map_of_mem member))
  | some project =>
      obtain ⟨member, named⟩ := project?_eq_some_iff.mp found
      simp only [Option.map_some, Option.getD_some]
      constructor
      · exact fun listed => ⟨project, member, named, listed⟩
      · rintro ⟨other, memberOther, namedOther, listed⟩
        have same := found.symm.trans (project?_eq_some_iff.mpr ⟨memberOther, namedOther⟩)
        cases same
        exact listed

namespace Selection

variable {s : Selection} {id : String} {rest : List String}

theorem step_of_done (done : s.pending = []) : s.step projects = s := by
  rw [step, done]

theorem step_of_selected (current : s.pending = id :: rest) (known : id ∈ s.selected.keys)
    : s.step projects = { s with pending := rest } := by
  simp [step, current, SortedMap.contains_iff, known]

theorem step_of_fresh (current : s.pending = id :: rest) (fresh : id ∉ s.selected.keys)
    : s.step projects
      = { selected := s.selected.add id
          pending := ((neighbours projects id).filter fun other =>
            !(s.selected.add id).contains other).reverse ++ rest } := by
  simp [step, current, SortedMap.contains_iff, fresh]

-----------------------------------------------------------------------------------------
-- What a selection keeps
-----------------------------------------------------------------------------------------

/-- An id that is selected or will be looked at. -/
def Covers (s : Selection) (id : String) : Prop :=
  id ∈ s.selected.keys ∨ id ∈ s.pending

/-- A selection that is on its way from a request: it covers needed ids only, all that is requested,
and all that a selected id depends on.
-/
structure Sound (projects : List Project) (requested : List String) (s : Selection) : Prop where
  needed : ∀ id, s.Covers id → Needed projects requested id
  asked : ∀ name ∈ requested, s.Covers name
  followed : ∀ id ∈ s.selected.keys, ∀ other, DependsOn projects id other → s.Covers other

/-- A step selects the latest pending id, if it is not selected already, and nothing else. -/
theorem mem_selected_step
    : id ∈ (s.step projects).selected.keys ↔ id ∈ s.selected.keys ∨ s.pending.head? = some id := by
  cases current : s.pending with
  | nil => simp [step_of_done current]
  | cons head rest =>
      rw [List.head?_cons, Option.some_inj, or_comm, eq_comm]
      by_cases known : head ∈ s.selected.keys
      · rw [step_of_selected current known, or_iff_right_of_imp]
        rintro rfl
        exact known
      · rw [step_of_fresh current known, SortedMap.mem_keys_add]

/-- A step loses no id: the one that is taken from the pending ids is selected. What it covers anew
is what the newly selected id depends on, and of that all.
-/
theorem covers_step_iff
    : (s.step projects).Covers id
      ↔ s.Covers id
        ∨ ∃ head ∉ s.selected.keys, s.pending.head? = some head ∧ DependsOn projects head id := by
  cases current : s.pending with
  | nil => simp [step_of_done current]
  | cons head rest =>
      simp only [List.head?_cons, Option.some_inj]
      by_cases known : head ∈ s.selected.keys
      · have none : ¬∃ other ∉ s.selected.keys, head = other ∧ DependsOn projects other id := by
          rintro ⟨_, fresh, rfl, _⟩
          exact fresh known
        have held (same : id = head) : id ∈ s.selected.keys := same ▸ known
        rw [or_iff_left none, step_of_selected current known, Covers, Covers, current,
          List.mem_cons, ← or_assoc, or_iff_left_of_imp held]
      · have anew : (∃ other ∉ s.selected.keys, head = other ∧ DependsOn projects other id)
            ↔ DependsOn projects head id := by simp [known]
        -- What is not put off here is selected already, and so covered as well.
        rw [anew, step_of_fresh current known, Covers, Covers, current]
        simp only [SortedMap.mem_keys_add, List.mem_append, List.mem_reverse, List.mem_filter,
          mem_neighbours, List.mem_cons, Bool.not_eq_true', SortedMap.contains_eq_false_iff]
        tauto

theorem Sound.start (projects : List Project) (requested : List String)
    : Sound projects requested (.start requested) where
  needed id covered := by
    have asked : id ∈ requested := by simpa [Covers, Selection.start] using covered
    exact ⟨id, asked, .refl⟩
  asked name listed := .inr (List.mem_reverse.mpr listed)
  followed _ chosen := absurd chosen SortedMap.mem_keys_empty

theorem Sound.step (sound : Sound projects requested s)
    : Sound projects requested (s.step projects) where
  needed id covered := by
    rcases covers_step_iff.mp covered with covered | ⟨head, _, latest, depends⟩
    · exact sound.needed id covered
    · exact (sound.needed head (.inr (List.mem_of_head? latest))).dependsOn depends
  asked name listed := covers_step_iff.mpr (.inl (sound.asked name listed))
  followed id chosen other depends := by
    by_cases known : id ∈ s.selected.keys
    · exact covers_step_iff.mpr (.inl (sound.followed id known other depends))
    · have latest := (mem_selected_step.mp chosen).resolve_left known
      exact covers_step_iff.mpr (.inr ⟨id, known, latest, depends⟩)

/-- Where nothing is pending any more, exactly the needed ids are selected. -/
theorem Sound.mem_selected_iff (sound : Sound projects requested s) (done : s.pending = [])
    : id ∈ s.selected.keys ↔ Needed projects requested id := by
  have settled {id : String} (covered : s.Covers id) : id ∈ s.selected.keys := by
    simpa [Covers, done] using covered
  refine ⟨fun chosen => sound.needed id (.inl chosen), ?_⟩
  rintro ⟨name, listed, path⟩
  exact reflTransGen_of_closed (fun source target chosen depends =>
    settled (sound.followed source chosen target depends)) (settled (sound.asked name listed)) path

-----------------------------------------------------------------------------------------
-- How long a selection takes
-----------------------------------------------------------------------------------------

/-- The projects that are not in a set. -/
def missing (projects : List Project) (selected : SortedSet String) : List Project :=
  projects.filter fun project => !selected.contains project.id

/-- The steps that may be left: the pending ids and all that the missing projects depend on. -/
def work (projects : List Project) (s : Selection) : Nat :=
  s.pending.length + ((missing projects s.selected).flatMap allDependencies).length

/-- A member that is filtered out takes its image along. -/
theorem length_flatMap_filter {α β : Type _} (f : α → List β) {keep : α → Bool} {xs : List α}
    {x : α} (member : x ∈ xs) (dropped : keep x = false)
    : ((xs.filter keep).flatMap f).length + (f x).length ≤ (xs.flatMap f).length := by
  have parts := ((List.filter_append_perm keep xs).flatMap_right f).length_eq
  have out : x ∈ xs.filter (!keep ·) := by simp [member, dropped]
  have image := ((List.singleton_sublist.mpr out).flatMap f).length_le
  rw [List.flatMap_append, List.length_append] at parts
  rw [List.flatMap_singleton] at image
  omega

/-- Selecting an id takes all that it depends on out of the work that the missing projects make. -/
theorem length_neighbours_add {selected : SortedSet String} (fresh : id ∉ selected.keys)
    : ((missing projects (selected.add id)).flatMap allDependencies).length
        + (neighbours projects id).length
      ≤ ((missing projects selected).flatMap allDependencies).length := by
  have others : missing projects (selected.add id)
      = (missing projects selected).filter (·.id ≠ id) := by
    rw [missing, missing, List.filter_filter]
    refine List.filter_congr fun project _ => ?_
    rw [Bool.eq_iff_iff]
    simp [SortedMap.contains_eq_false_iff, SortedMap.mem_keys_add]
  rw [others, neighbours_eq]
  cases found : project? projects id with
  | none => exact (List.filter_sublist.flatMap _).length_le
  | some project =>
      obtain ⟨member, rfl⟩ := project?_eq_some_iff.mp found
      have listed : project ∈ missing projects selected := by
        refine List.mem_filter.mpr ⟨(unshadowed_sublist projects).mem member, ?_⟩
        simpa [SortedMap.contains_eq_false_iff] using fresh
      exact length_flatMap_filter allDependencies listed (by simp)

/-- Each step does a piece of the work, as long as anything is pending. -/
theorem work_step (projects : List Project) (waiting : s.pending ≠ [])
    : work projects (s.step projects) < work projects s := by
  obtain ⟨id, rest, current⟩ := List.exists_cons_of_ne_nil waiting
  by_cases known : id ∈ s.selected.keys
  · rw [step_of_selected current known]
    simp [work, current]
  · rw [step_of_fresh current known]
    have bound : ((missing projects (s.selected.add id)).flatMap allDependencies).length
        + (neighbours projects id).length
        ≤ ((missing projects s.selected).flatMap allDependencies).length :=
      length_neighbours_add known
    have put := List.length_filter_le (fun other => !(s.selected.add id).contains other)
      (neighbours projects id)
    simp only [work, current, List.length_append, List.length_reverse, List.length_cons]
    omega

/-- After so many steps a selection is sound, and nothing is pending or that much of the work is
done; by induction on the steps.
-/
theorem sound_after (projects : List Project) (requested : List String) (steps : Nat)
    : Sound projects requested (after projects requested steps)
      ∧ ((after projects requested steps).pending = []
        ∨ work projects (after projects requested steps) + steps
            ≤ selectionSteps projects requested) := by
  induction steps with
  | zero =>
      have all : missing projects .empty = projects := List.filter_eq_self.mpr fun _ _ => rfl
      have left : work projects (start requested) = selectionSteps projects requested := by
        rw [work, start, all, List.length_reverse, selectionSteps]
      exact ⟨.start projects requested, .inr left.le⟩
  | succ steps ih =>
      obtain ⟨sound, left⟩ := ih
      rw [after, Nat.repeat, ← after]
      refine ⟨sound.step, ?_⟩
      by_cases done : (after projects requested steps).pending = []
      · exact .inl (by rw [step_of_done done, done])
      · have less := work_step projects done
        have left := left.resolve_left done
        exact .inr (by omega)

/-- So it comes to an end, whatever depends on whatever. -/
theorem pending_after (projects : List Project) (requested : List String)
    : (after projects requested (selectionSteps projects requested)).pending = [] := by
  rcases (sound_after projects requested (selectionSteps projects requested)).2 with done | left
  · exact done
  · have none
        : work projects (after projects requested (selectionSteps projects requested)) = 0 := by
      omega
    rw [work] at none
    exact List.length_eq_zero_iff.mp (by omega)

/-- Once nothing is pending, nothing changes any more; by induction on the further steps. -/
theorem after_of_done {steps later : Nat} (done : (after projects requested steps).pending = [])
    (more : steps ≤ later)
    : after projects requested later = after projects requested steps := by
  induction later, more using Nat.le_induction with
  | base => rfl
  | succ later _ ih =>
      rw [after, Nat.repeat, ← after, ih, step_of_done done]

/-- There is a first step after which nothing is pending, and what is selected then is the result.
-/
theorem exists_first_done (projects : List Project) (requested : List String)
    : ∃ steps ≤ selectionSteps projects requested,
        (∀ earlier < steps, (after projects requested earlier).pending ≠ [])
        ∧ (after projects requested steps).pending = []
        ∧ closure projects requested = (after projects requested steps).selected := by
  have ends : ∃ steps, (after projects requested steps).pending = [] :=
    ⟨_, pending_after projects requested⟩
  have bound := Nat.find_min' ends (pending_after projects requested)
  have done := Nat.find_spec ends
  refine ⟨Nat.find ends, bound, fun earlier sooner => Nat.find_min ends sooner, done, ?_⟩
  rw [closure, after_of_done done bound]

end Selection

/-- Exactly the needed ids are found. -/
theorem mem_closure_iff {id : String}
    : id ∈ (closure projects requested).keys ↔ Needed projects requested id :=
  (Selection.sound_after projects requested _).1.mem_selected_iff
    (Selection.pending_after projects requested)

-----------------------------------------------------------------------------------------
-- The selected projects
-----------------------------------------------------------------------------------------

/-- Whether an id is needed, as the closure tells it. -/
def isNeeded (projects : List Project) (requested : List String) (id : String) : Bool :=
  (closure projects requested).contains id

theorem isNeeded_iff {id : String}
    : isNeeded projects requested id = true ↔ Needed projects requested id := by
  rw [isNeeded, SortedMap.contains_iff, mem_closure_iff]

instance : DecidablePred (Needed projects requested) := fun _ =>
  decidable_of_iff _ isNeeded_iff

/-- Of all projects those with a needed id are selected, if any is requested. -/
theorem select_eq (projects : List Project) (asked : requested ≠ [])
    : select projects requested = projects.filter fun project =>
        isNeeded projects requested project.id := by
  rw [select, if_neg (by rwa [List.isEmpty_iff])]
  rfl

/-- A request selects exactly the projects that it leads to, along any number of dependencies of
whatever environments, each once and in the order of the projects. The selection comes to an end,
also where projects depend on each other in a circle or on what is no project: it takes no more
steps than ids are requested or depended on.
-/
theorem select_exactly_reachable (distinct : (projects.map Project.id).Nodup)
    (asked : requested ≠ [])
    : let leads (id other : String) : Prop :=
        ∃ project ∈ projects, project.id = id
          ∧ ∃ environment, other ∈ (project.dependenciesIn environment).keys
      (∃ steps ≤ selectionSteps projects requested,
        (∀ earlier < steps, (Selection.after projects requested earlier).pending ≠ [])
        ∧ (Selection.after projects requested steps).pending = []
        ∧ select projects requested = projects.filter fun project =>
            (Selection.after projects requested steps).selected.contains project.id)
      ∧ (select projects requested).Sublist projects
      ∧ ((select projects requested).map Project.id).Nodup
      ∧ ∀ project, project ∈ select projects requested
          ↔ project ∈ projects ∧ ∃ name ∈ requested, ReflTransGen leads name project.id := by
  intro leads
  have sublist : (select projects requested).Sublist projects := select_sublist projects requested
  refine ⟨?_, sublist, distinct.sublist (sublist.map Project.id), fun project => ?_⟩
  · obtain ⟨steps, bound, busy, done, result⟩ := Selection.exists_first_done projects requested
    refine ⟨steps, bound, busy, done, ?_⟩
    rw [← result]
    exact select_eq projects asked
  · have same : DependsOn projects = leads := by
      unfold DependsOn
      rw [unshadowed_eq_self distinct]
    rw [select_eq projects asked, List.mem_filter, isNeeded_iff, Needed, same]

/-- Two projects that depend on each other, the one in an environment in which the other does not,
and on what is no project: a request of the one leads to the other and to what that depends on.
-/
theorem select_exactly_reachable_circle
    : let project (id : String) (uses : List (String × List String)) : Project :=
        ⟨id, .empty, .ofList (uses.map fun use => (use.1, .ofKeys use.2))⟩
      let projects := [project "reports" [("dev", ["app"])],
        project "app" [("dev", ["infra"]), ("prod", ["elsewhere"])],
        project "infra" [("prod", ["app", "base"])], project "base" []]
      let leads (id other : String) : Prop :=
        ∃ project ∈ projects, project.id = id
          ∧ ∃ environment, other ∈ (project.dependenciesIn environment).keys
      (projects.map Project.id).Nodup ∧ ["app", "app"] ≠ []
      ∧ (select projects ["app", "app"]).map Project.id = ["app", "infra", "base"]
      ∧ ReflTransGen leads "app" "base" ∧ ¬ReflTransGen leads "app" "reports" := by
  intro project projects leads
  have distinct : (projects.map Project.id).Nodup := by decide
  have asked : ["app", "app"] ≠ [] := by simp
  obtain ⟨_, _, _, exactly⟩ := select_exactly_reachable distinct asked
  have ids : (select projects ["app", "app"]).map Project.id = ["app", "infra", "base"] := by
    decide +kernel
  refine ⟨distinct, asked, ids, ?_, fun path => ?_⟩
  · have listed : "base" ∈ (select projects ["app", "app"]).map Project.id := by rw [ids]; simp
    obtain ⟨base, member, named⟩ := List.mem_map.mp listed
    obtain ⟨_, name, listed, path⟩ := (exactly base).mp member
    obtain rfl : name = "app" := by simpa using listed
    rwa [named] at path
  · have member := (exactly (project "reports" [("dev", ["app"])])).mpr
      ⟨List.mem_cons_self, "app", List.mem_cons_self, path⟩
    have listed := List.mem_map_of_mem (f := Project.id) member
    rw [ids] at listed
    simp [project] at listed

end Project

namespace Manifest

variable {manifest : Manifest} {root : Path} {base : LoadContext}
variable {environments requested : List String}

theorem unknownProjects_eq_nil_iff {names : List String}
    : manifest.unknownProjects names = []
      ↔ ∀ name ∈ names, name ∈ manifest.projects.map ProjectEntry.name := by
  simp [unknownProjects]

/-- Naming projects does not change in which contexts projects are loaded. -/
theorem contexts_of_known
    (known : ∀ name ∈ requested, name ∈ manifest.projects.map ProjectEntry.name)
    : manifest.contexts root base ⟨environments, requested⟩
      = manifest.contexts root base ⟨environments, []⟩ := by
  simp only [contexts, unknownProjects_eq_nil_iff.mpr known,
    unknownProjects_eq_nil_iff.mpr (List.forall_mem_nil _)]

/-- Without requested projects all are returned. -/
theorem loadProjects_all {contexts : List LoadContext}
    (selected : manifest.contexts root base ⟨environments, []⟩ = .ok contexts)
    : manifest.loadProjects root base ⟨environments, []⟩
      = Batch.collect (contexts.map LoadContext.loadProject) := by
  rw [loadProjects_of_contexts selected]
  cases Batch.collect (contexts.map LoadContext.loadProject) <;> rfl

/-- Naming projects selects from what is loaded anyway: if any project fails to load, loading fails
whatever is requested.
-/
theorem loadProjects_of_known
    (known : ∀ name ∈ requested, name ∈ manifest.projects.map ProjectEntry.name)
    : manifest.loadProjects root base ⟨environments, requested⟩
      = (manifest.loadProjects root base ⟨environments, []⟩).map (Project.select · requested) := by
  have same : manifest.contexts root base ⟨environments, requested⟩
      = manifest.contexts root base ⟨environments, []⟩ := contexts_of_known known
  cases selected : manifest.contexts root base ⟨environments, []⟩ with
  | error faults =>
      rw [loadProjects_of_unknown (same.trans selected), loadProjects_of_unknown selected]
      rfl
  | ok contexts =>
      rw [loadProjects_of_contexts (same.trans selected), loadProjects_all selected]

end Manifest

end Rollout
