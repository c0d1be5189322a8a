import Rollout.CommandLine.Reach
import Rollout.Proofs.Plan.Coverage
import Rollout.Proofs.Plan.Restriction
import Rollout.Proofs.Selection

/-!
What a change of files does to a load that requests projects. What is selected depends on the files
of the needed projects only. But every project of the manifest is loaded, so whether anything is
returned depends on the faults of all of them.
-/

namespace Rollout

open Batch EnvironmentPlan Project

-----------------------------------------------------------------------------------------
-- The files of a project
-----------------------------------------------------------------------------------------

/-- A context that finds its files elsewhere. -/
def LoadContext.onDisk (context : LoadContext) (disk : Disk) (templates : TemplateSource)
    : LoadContext :=
  { context with disk, templates }

/-- The definition files that a context loads. -/
def LoadContext.files (context : LoadContext) : List Path :=
  (context.disk.definitionFiles context.directory).toOption.getD []

/-- What a context loads its project from is found elsewhere as it is here: the list of the
definition files, their texts and the templates that they name.
-/
structure LoadContext.SameFiles (context : LoadContext) (disk : Disk) (templates : TemplateSource)
    : Prop where
  listing : disk.definitionFiles context.directory
    = context.disk.definitionFiles context.directory
  texts : ∀ path ∈ context.files, disk.readText path = context.disk.readText path
  templates : ∀ path ∈ context.files, ∀ template ∈ CommandLine.templatesOfFile context path,
    templates template = context.templates template

instance {context : LoadContext} {disk : Disk} {templates : TemplateSource}
    : Decidable (context.SameFiles disk templates) :=
  decidable_of_iff
    (disk.definitionFiles context.directory = context.disk.definitionFiles context.directory
      ∧ (∀ path ∈ context.files, disk.readText path = context.disk.readText path)
      ∧ ∀ path ∈ context.files, ∀ template ∈ CommandLine.templatesOfFile context path,
          templates template = context.templates template)
    ⟨fun same => ⟨same.1, same.2.1, same.2.2⟩,
      fun same => ⟨same.listing, same.texts, same.templates⟩⟩

/-- Of all templates an expansion needs the one that the merged body names. -/
theorem Expansion.build_congr {e : Expansion} {templates : TemplateSource}
    {environment : Environment}
    (same : ∀ path ∈ (e.merged environment).template,
      templates (e.path.folder.join path) = e.templates (e.path.folder.join path))
    : build { e with templates } environment = e.build environment := by
  have merged : Expansion.merged { e with templates } environment = e.merged environment := rfl
  cases named : (e.merged environment).template with
  | none =>
      simp only [build, merged, named]
      rfl
  | some path =>
      have found : template { e with templates } path = e.template path := same path named
      simp only [build, merged, named, templateFaults, found]
      rfl

namespace LoadContext

variable {context : LoadContext} {disk : Disk} {templates : TemplateSource}

theorem expand_onDisk {path : Path} {definition : Definition}
    (same : ∀ environment ∈ context.environments,
      ∀ template ∈ ((context.expansion path definition).merged environment).template,
        templates (path.folder.join template) = context.templates (path.folder.join template))
    : (context.onDisk disk templates).expand path definition = context.expand path definition := by
  have built : context.environments.map
        ((context.onDisk disk templates).expansion path definition).build
      = context.environments.map (context.expansion path definition).build :=
    List.map_congr_left fun environment member => Expansion.build_congr (same environment member)
  have fault : (context.onDisk disk templates).apiFault? path definition
      = context.apiFault? path definition := rfl
  unfold expand
  rw [fault, ← built]
  rfl

theorem loadFile_onDisk {path : Path} (text : disk.readText path = context.disk.readText path)
    (same : ∀ template ∈ CommandLine.templatesOfFile context path,
      templates template = context.templates template)
    : (context.onDisk disk templates).loadFile path = context.loadFile path := by
  have read
      : (context.onDisk disk templates).readDefinitions path = context.readDefinitions path := by
    simp only [readDefinitions, onDisk, text]
  unfold loadFile
  rw [read]
  cases definitions : context.readDefinitions path with
  | error fault => rfl
  | ok definitions =>
      refine congrArg concat (List.map_congr_left fun definition member => ?_)
      refine expand_onDisk fun environment known template named => same _ ?_
      rw [CommandLine.templatesOfFile, definitions]
      simp only [List.mem_flatMap, List.mem_filterMap, Option.map_eq_some_iff]
      exact ⟨definition, member, environment, known, template, named, rfl⟩

theorem loadDirectory_onDisk (same : context.SameFiles disk templates)
    : (context.onDisk disk templates).loadDirectory = context.loadDirectory := by
  have listing : (context.onDisk disk templates).disk.definitionFiles
        (context.onDisk disk templates).directory
      = context.disk.definitionFiles context.directory := same.listing
  unfold loadDirectory
  rw [listing]
  cases listed : context.disk.definitionFiles context.directory with
  | error cause => rfl
  | ok paths =>
      have listedHere : context.files = paths := by rw [files, listed]; rfl
      refine congrArg concat (List.map_congr_left fun path member => ?_)
      rw [← listedHere] at member
      exact loadFile_onDisk (same.texts path member) (same.templates path member)

/-- A project that finds its files as they were is loaded as it was. -/
theorem loadProject_onDisk (same : context.SameFiles disk templates)
    : (context.onDisk disk templates).loadProject = context.loadProject := by
  unfold loadProject
  rw [loadDirectory_onDisk same]
  rfl

end LoadContext

-----------------------------------------------------------------------------------------
-- Selecting from projects that agree
-----------------------------------------------------------------------------------------

namespace Project

variable {projects others : List Project} {requested : List String}

/-- What a kept id depends on is told by the projects that are kept. -/
theorem dependsOn_filter_iff {keep : String → Bool} {id target : String} (kept : keep id = true)
    : DependsOn (projects.filter (keep ·.id)) id target ↔ DependsOn projects id target := by
  simp only [DependsOn, unshadowed_filter, List.mem_filter]
  refine exists_congr fun project => ?_
  constructor
  · rintro ⟨⟨member, _⟩, named, depends⟩
    exact ⟨member, named, depends⟩
  · rintro ⟨member, rfl, depends⟩
    exact ⟨⟨member, kept⟩, rfl, depends⟩

section Agree

variable (same : others.filter (isNeeded projects requested ·.id)
  = projects.filter (isNeeded projects requested ·.id))

include same

/-- Projects that agree on the needed ones need the same: from a requested one no path leaves those
on which they agree.
-/
theorem isNeeded_congr : isNeeded others requested = isNeeded projects requested := by
  have edge {id target : String} (needed : Needed projects requested id)
      : DependsOn others id target ↔ DependsOn projects id target := by
    have kept := isNeeded_iff.mpr needed
    rw [← dependsOn_filter_iff kept, same, dependsOn_filter_iff kept]
  funext id
  rw [Bool.eq_iff_iff, isNeeded_iff, isNeeded_iff]
  constructor
  · rintro ⟨name, asked, path⟩
    exact reflTransGen_of_closed (fun source target needed depends =>
      needed.dependsOn ((edge needed).mp depends)) ⟨name, asked, .refl⟩ path
  · rintro ⟨name, asked, path⟩
    refine ⟨name, asked, ?_⟩
    induction path with
    | refl => exact .refl
    | tail path last ih => exact ih.tail ((edge ⟨name, asked, path⟩).mpr last)

/-- So the same are selected from them. -/
theorem select_congr (asked : requested ≠ [])
    : select others requested = select projects requested := by
  rw [select_eq others asked, select_eq projects asked, isNeeded_congr same, same]

end Agree

end Project

-----------------------------------------------------------------------------------------
-- Loading from a changed disk
-----------------------------------------------------------------------------------------

/-- The projects that load, whatever becomes of the others. -/
def loadable (contexts : List LoadContext) : List Project :=
  contexts.filterMap fun context => context.loadProject.toOption

/-- All that the needed projects are loaded from is elsewhere as it is here. -/
def NeededUnchanged (contexts : List LoadContext) (requested : List String) (disk : Disk)
    (templates : TemplateSource) : Prop :=
  ∀ context ∈ contexts, Needed (loadable contexts) requested context.project →
    context.SameFiles disk templates

instance {contexts : List LoadContext} {requested : List String} {disk : Disk}
    {templates : TemplateSource}
    : Decidable (NeededUnchanged contexts requested disk templates) :=
  inferInstanceAs (Decidable (∀ context ∈ contexts,
    Needed (loadable contexts) requested context.project → context.SameFiles disk templates))

theorem eq_loadable {contexts : List LoadContext} {projects : List Project}
    (loaded : collect (contexts.map LoadContext.loadProject) = .ok projects)
    : projects = loadable contexts := by
  rw [(collect_eq_ok_iff.mp loaded).2, List.filterMap_map]
  rfl

/-- Only the contexts of kept ids count for the projects that are kept. -/
theorem filter_loadable_onDisk {contexts : List LoadContext} {disk : Disk}
    {templates : TemplateSource} {keep : String → Bool}
    (unchanged : ∀ context ∈ contexts, keep context.project = true →
      context.SameFiles disk templates)
    : (loadable (contexts.map (·.onDisk disk templates))).filter (keep ·.id)
      = (loadable contexts).filter (keep ·.id) := by
  simp only [loadable, List.filterMap_map, List.filter_filterMap]
  refine List.filterMap_congr fun context member => ?_
  cases kept : keep context.project with
  | true =>
      have same := LoadContext.loadProject_onDisk (unchanged context member kept)
      simp only [Function.comp_apply, same]
  | false =>
      have leftOut (other : LoadContext) (named : other.project = context.project)
          : other.loadProject.toOption.filter (keep ·.id) = none := by
        cases loaded : other.loadProject with
        | error faults => rfl
        | ok project =>
            have id := other.id_of_loadProject loaded
            simp [Except.toOption, Option.filter, id, named, kept]
      exact (leftOut (context.onDisk disk templates) rfl).trans (leftOut context rfl).symm

/-- So a change that spares the needed projects does not change what is selected. -/
theorem select_onDisk {contexts : List LoadContext} {requested : List String} {disk : Disk}
    {templates : TemplateSource} (asked : requested ≠ [])
    (unchanged : NeededUnchanged contexts requested disk templates)
    : Project.select (loadable (contexts.map (·.onDisk disk templates))) requested
      = Project.select (loadable contexts) requested := by
  refine select_congr (filter_loadable_onDisk fun context member kept => ?_) asked
  exact unchanged context member (isNeeded_iff.mp kept)

namespace Manifest

variable {manifest : Manifest} {root : Path} {base : LoadContext} {filter : ProjectFilter}

/-- Which contexts there are does not depend on any file. -/
theorem contexts_onDisk (disk : Disk) (templates : TemplateSource)
    : manifest.contexts root (base.onDisk disk templates) filter
      = (manifest.contexts root base filter).map (List.map (·.onDisk disk templates)) := by
  simp only [contexts, bind, Except.bind]
  cases manifest.selectEnvironments filter.environments with
  | error faults => rfl
  | ok environments =>
      dsimp only
      cases manifest.unknownProjects filter.projects with
      | nil => simp [Except.map, projectContext, LoadContext.onDisk]
      | cons => rfl

/-- What a load that requests known projects makes of files that have changed, where all that the
needed projects are loaded from is as it was. If it returns anything, this is what the unchanged
files select; but it fails exactly if any project of the manifest fails, with the faults of all of
them. So the change has no effect exactly if those faults stay the same.
-/
theorem loadProjects_isolated_iff {disk : Disk} {templates : TemplateSource}
    (asked : filter.projects ≠ [])
    (known : ∀ name ∈ filter.projects, name ∈ manifest.projects.map ProjectEntry.name)
    (unchanged : ∀ contexts, manifest.contexts root base filter = .ok contexts →
      NeededUnchanged contexts filter.projects disk templates)
    : let changed := base.onDisk disk templates
      let all : ProjectFilter := { filter with projects := [] }
      (∀ projects,
        manifest.loadProjects root changed filter = .ok projects
        ↔ errorsOf (manifest.loadProjects root changed all) = []
          ∧ ∃ contexts, manifest.contexts root base filter = .ok contexts
              ∧ projects = Project.select (loadable contexts) filter.projects)
      ∧ (∀ faults,
          manifest.loadProjects root changed filter = .error faults
          ↔ manifest.loadProjects root changed all = .error faults)
      ∧ (manifest.loadProjects root changed filter = manifest.loadProjects root base filter
          ↔ errorsOf (manifest.loadProjects root changed all)
            = errorsOf (manifest.loadProjects root base all)) := by
  intro changed all
  have whole (base : LoadContext) : manifest.loadProjects root base filter
      = (manifest.loadProjects root base all).map (Project.select · filter.projects) :=
    loadProjects_of_known known
  have same (base : LoadContext)
      : manifest.contexts root base filter = manifest.contexts root base all :=
    contexts_of_known known
  have moved : manifest.contexts root changed filter
      = (manifest.contexts root base filter).map (List.map (·.onDisk disk templates)) :=
    contexts_onDisk disk templates
  rw [whole changed, whole base]
  cases selected : manifest.contexts root base filter with
  | error faults =>
      rw [selected] at moved
      have failed := loadProjects_of_unknown ((same base).symm.trans selected)
      have failedChanged := loadProjects_of_unknown ((same changed).symm.trans moved)
      simp [failed, failedChanged, Except.map]
  | ok contexts =>
      rw [selected] at moved
      have select := select_onDisk asked (unchanged contexts selected)
      rw [loadProjects_all ((same base).symm.trans selected),
        loadProjects_all ((same changed).symm.trans moved)]
      refine ⟨fun projects => ?_, fun faults => ?_, map_eq_map_iff (fun _ => ne_nil_of_collect)
        (fun _ => ne_nil_of_collect) fun a b madeA madeB => ?_⟩
      · cases made : collect ((contexts.map (·.onDisk disk templates)).map
          LoadContext.loadProject) with
        | ok every =>
            rw [eq_loadable made]
            simp [Except.map, errorsOf, select, eq_comm]
        | error faults => simp [Except.map, errorsOf, ne_nil_of_collect made]
      · cases collect ((contexts.map (·.onDisk disk templates)).map LoadContext.loadProject) <;>
          simp [Except.map]
      · rw [eq_loadable madeA, eq_loadable madeB, select]

/-- The disk with two directories, with another second one. -/
def withSecond (second : Entry) : Disk :=
  { twoDirectories with root := twoDirectories.root.write second ["two".toList] }

/-- Loading the first project does not notice that the second defines something else. -/
theorem loadProjects_isolated_second
    : let after := withSecond (definitionDirectory (.new "z" "slo"))
      ∃ projects,
        projects.map Project.id = ["one"]
        ∧ twoProjects.loadProjects .empty (.new twoDirectories "" .empty) ⟨[], ["one"]⟩
          = .ok projects
        ∧ twoProjects.loadProjects .empty (.new after "" .empty) ⟨[], ["one"]⟩ = .ok projects := by
  intro after
  have facts : (twoProjects.contexts .empty (.new twoDirectories "" .empty)
        ⟨[], ["one"]⟩).toOption.any (fun contexts =>
      NeededUnchanged contexts ["one"] after after.templates
      ∧ errorsOf (twoProjects.loadProjects .empty (.new after "" .empty) ⟨[], []⟩) = []
      ∧ errorsOf (twoProjects.loadProjects .empty (.new twoDirectories "" .empty) ⟨[], []⟩) = []
      ∧ (Project.select (loadable contexts) ["one"]).map Project.id = ["one"]) = true := by
    decide +kernel
  obtain ⟨contexts, selected, fact⟩ := (Option.any_eq_true _ _).mp facts
  obtain ⟨same, faultlessAfter, faultless, ids⟩ := of_decide_eq_true fact
  have done := toOption_eq_some_iff.mp selected
  have unchanged (others : List LoadContext)
      (listed : twoProjects.contexts .empty (.new twoDirectories "" .empty) ⟨[], ["one"]⟩
        = .ok others)
      : NeededUnchanged others ["one"] after after.templates := by
    cases done.symm.trans listed
    exact same
  obtain ⟨returns, _, isolated⟩ := loadProjects_isolated_iff (by simp) (by decide) unchanged
  have loaded := (returns _).mpr ⟨faultlessAfter, contexts, done, rfl⟩
  exact ⟨_, ids, (isolated.mpr (faultlessAfter.trans faultless.symm)).symm.trans loaded, loaded⟩

/-- Emptying a file of the second project makes loading the first one fail, though nothing that the
first needs has changed.
-/
theorem not_isolated_emptied
    : let before := LoadContext.new twoDirectories "" .empty
      let after := withSecond (.directory [("slo.yaml", .text "")])
      ∃ contexts projects faults,
        twoProjects.contexts .empty before ⟨[], ["one"]⟩ = .ok contexts
        ∧ NeededUnchanged contexts ["one"] after after.templates
        ∧ twoProjects.loadProjects .empty before ⟨[], ["one"]⟩ = .ok projects
        ∧ twoProjects.loadProjects .empty (.new after "" .empty) ⟨[], ["one"]⟩ = .error faults := by
  intro before after
  have facts : (twoProjects.contexts .empty before ⟨[], ["one"]⟩).toOption.any (fun contexts =>
      NeededUnchanged contexts ["one"] after after.templates
      ∧ (twoProjects.loadProjects .empty before ⟨[], ["one"]⟩).toOption.isSome
      ∧ (twoProjects.loadProjects .empty (.new after "" .empty) ⟨[], ["one"]⟩).toOption = none)
      = true := by
    decide +kernel
  obtain ⟨contexts, selected, fact⟩ := (Option.any_eq_true _ _).mp facts
  obtain ⟨same, loads, fails⟩ := of_decide_eq_true fact
  obtain ⟨projects, loaded⟩ := Option.isSome_iff_exists.mp loads
  cases failed : twoProjects.loadProjects .empty (.new after "" .empty) ⟨[], ["one"]⟩ with
  | ok others => simp [failed, Except.toOption] at fails
  | error faults =>
      exact ⟨contexts, projects, faults, toOption_eq_some_iff.mp selected, same,
        toOption_eq_some_iff.mp loaded, rfl⟩

end Manifest

end Rollout
