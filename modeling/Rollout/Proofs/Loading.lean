import Rollout.Fixture.DefinitionText
import Rollout.Loading
import Rollout.Proofs.Expansion

/-!
Loading a directory as a whole. It gives every configuration that is asked for or, if anything is
wrong, all that is wrong: the batches of files, definitions and environments are one batch.
-/

namespace Rollout

open Batch

/-- A file that is read has a definition. -/
theorem Definition.ne_nil_of_ofFile {path : Path} {text : String} {definitions : List Definition}
    (read : ofFile path text = .ok definitions)
    : definitions ≠ [] := by
  unfold ofFile at read
  repeat' split at read
  all_goals cases read
  rename_i some _
  exact some

namespace LoadContext

variable {context : LoadContext} {path : Path} {definition : Definition}

-----------------------------------------------------------------------------------------
-- One batch
-----------------------------------------------------------------------------------------

/-- What is attempted for a definition: one expansion for each environment, none if its API is at
fault, which alone fails then.
-/
def attemptsFor (context : LoadContext) (path : Path) (definition : Definition)
    : List (Except (List LoadError) Configuration) :=
  match context.apiFault? path definition with
  | some fault => [.error [fault]]
  | none => context.environments.map (context.expansion path definition).build

/-- What is attempted for a file: all that is for its definitions, nothing else if it is not read.
-/
def attemptsIn (context : LoadContext) (path : Path)
    : List (Except (List LoadError) Configuration) :=
  match context.readDefinitions path with
  | .error fault => [.error [fault]]
  | .ok definitions => definitions.flatMap (context.attemptsFor path)

/-- All that is attempted for a directory, file after file, nothing if it is not listed. -/
def attempts (context : LoadContext) : List (Except (List LoadError) Configuration) :=
  match context.disk.definitionFiles context.directory with
  | .error cause => [.error [.file cause]]
  | .ok paths => paths.flatMap context.attemptsIn

theorem expand_eq
    : context.expand path definition = collect (context.attemptsFor path definition) := by
  unfold expand attemptsFor
  cases context.apiFault? path definition <;> rfl

theorem loadFile_eq : context.loadFile path = collect (context.attemptsIn path) := by
  unfold loadFile attemptsIn
  cases context.readDefinitions path with
  | error fault => rfl
  | ok definitions =>
      have parts : definitions.map (context.expand path)
          = (definitions.map (context.attemptsFor path)).map collect := by
        rw [List.map_map]
        exact List.map_congr_left fun _ _ => expand_eq
      simp only [parts, concat_map_collect, List.flatMap_def]

/-- Loading a directory is one batch of all attempts. -/
theorem loadDirectory_eq (context : LoadContext)
    : context.loadDirectory = collect context.attempts := by
  unfold loadDirectory attempts
  cases context.disk.definitionFiles context.directory with
  | error cause => rfl
  | ok paths =>
      have parts : paths.map context.loadFile = (paths.map context.attemptsIn).map collect := by
        rw [List.map_map]
        exact List.map_congr_left fun _ _ => loadFile_eq
      simp only [parts, concat_map_collect, List.flatMap_def]

theorem ne_nil_of_attemptsFor {faults : List LoadError}
    (failed : .error faults ∈ context.attemptsFor path definition)
    : faults ≠ [] := by
  unfold attemptsFor at failed
  split at failed
  · cases List.mem_singleton.mp failed
    exact List.cons_ne_nil _ _
  · obtain ⟨environment, _, built⟩ := List.mem_map.mp failed
    exact Expansion.ne_nil_of_build built

theorem ne_nil_of_attemptsIn {faults : List LoadError}
    (failed : .error faults ∈ context.attemptsIn path)
    : faults ≠ [] := by
  unfold attemptsIn at failed
  split at failed
  · cases List.mem_singleton.mp failed
    exact List.cons_ne_nil _ _
  · obtain ⟨definition, _, inside⟩ := List.mem_flatMap.mp failed
    exact ne_nil_of_attemptsFor inside

/-- No attempt fails without a fault. -/
theorem ne_nil_of_attempts {faults : List LoadError} (failed : .error faults ∈ context.attempts)
    : faults ≠ [] := by
  unfold attempts at failed
  split at failed
  · cases List.mem_singleton.mp failed
    exact List.cons_ne_nil _ _
  · obtain ⟨path, _, inside⟩ := List.mem_flatMap.mp failed
    exact ne_nil_of_attemptsIn inside

-----------------------------------------------------------------------------------------
-- What a directory holds
-----------------------------------------------------------------------------------------

/-- The definition files of a directory in the order in which they are listed, each with all the
definitions that it is read to.
-/
structure Holds (context : LoadContext) (files : List (Path × List Definition)) : Prop where
  listed : context.disk.definitionFiles context.directory = .ok (files.map Prod.fst)
  read : ∀ file ∈ files, ∃ text, context.disk.readText file.1 = .ok text
    ∧ Definition.ofFile file.1 text = .ok file.2
  nonempty : ∀ file ∈ files, file.2 ≠ []

/-- Every definition names an API that the context knows. -/
def Knows (context : LoadContext) (files : List (Path × List Definition)) : Prop :=
  ∀ file ∈ files, ∀ definition ∈ file.2,
    definition.api ≠ "" ∧ context.apis.contains definition.api = true

/-- Every definition of the files expanded for every environment: file after file, definition after
definition, environment after environment.
-/
def expansions (context : LoadContext) (files : List (Path × List Definition))
    : List (Except (List LoadError) Configuration) :=
  files.flatMap fun file => file.2.flatMap fun definition =>
    context.environments.map (context.expansion file.1 definition).build

theorem apiFault?_eq_none_iff
    : context.apiFault? path definition = none
      ↔ definition.api ≠ "" ∧ context.apis.contains definition.api = true := by
  unfold apiFault?
  split
  · simp_all
  · split <;> simp_all

theorem readDefinitions_eq_ok_iff {definitions : List Definition}
    : context.readDefinitions path = .ok definitions
      ↔ ∃ text, context.disk.readText path = .ok text
          ∧ Definition.ofFile path text = .ok definitions := by
  unfold readDefinitions
  cases context.disk.readText path <;> simp

variable {files : List (Path × List Definition)}

theorem mem_expansions {result : Except (List LoadError) Configuration}
    : result ∈ context.expansions files
      ↔ ∃ file ∈ files, ∃ definition ∈ file.2, ∃ environment ∈ context.environments,
          (context.expansion file.1 definition).build environment = result := by
  simp only [expansions, List.mem_flatMap, List.mem_map]

/-- Where every file is read and every API is known, nothing but expansions is attempted. -/
theorem attempts_eq (holds : context.Holds files) (knows : context.Knows files)
    : context.attempts = context.expansions files := by
  rw [attempts, holds.listed]
  dsimp only
  rw [List.flatMap_map]
  refine List.flatMap_congr fun file member => ?_
  rw [attemptsIn, readDefinitions_eq_ok_iff.mpr (holds.read file member)]
  refine List.flatMap_congr fun definition written => ?_
  rw [attemptsFor, apiFault?_eq_none_iff.mpr (knows file member definition written)]

/-- Where no attempt fails, every file is read and every API is known. -/
theorem exists_holds (faultless : ∀ faults, .error faults ∉ context.attempts)
    : ∃ files, context.Holds files ∧ context.Knows files := by
  unfold attempts at faultless
  cases listed : context.disk.definitionFiles context.directory with
  | error cause => simp [listed] at faultless
  | ok paths =>
      simp only [listed, List.mem_flatMap, not_exists, not_and] at faultless
      have read
          : ∀ path ∈ paths, ∃ definitions, context.readDefinitions path = .ok definitions := by
        intro path member
        cases found : context.readDefinitions path with
        | ok definitions => exact ⟨definitions, rfl⟩
        | error fault => simpa [attemptsIn, found] using faultless [fault] path member
      choose! definitions found using read
      have held (file : Path × List Definition)
          (member : file ∈ paths.map fun path => (path, definitions path))
          : file.1 ∈ paths ∧ context.readDefinitions file.1 = .ok file.2 := by
        obtain ⟨path, inside, rfl⟩ := List.mem_map.mp member
        exact ⟨inside, found path inside⟩
      refine ⟨paths.map fun path => (path, definitions path), ⟨?listed, ?read, ?nonempty⟩, ?knows⟩
      case listed =>
        rw [List.map_map, listed]
        exact congrArg _ (List.map_id _).symm
      case read => exact fun file member => readDefinitions_eq_ok_iff.mp (held file member).2
      case nonempty =>
        intro file member
        obtain ⟨_, _, read⟩ := readDefinitions_eq_ok_iff.mp (held file member).2
        exact Definition.ne_nil_of_ofFile read
      case knows =>
        intro file member definition written
        obtain ⟨inside, read⟩ := held file member
        have known : context.apiFault? file.1 definition = none := by
          rw [Option.eq_none_iff_forall_not_mem]
          intro fault unknown
          refine faultless [fault] file.1 inside ?_
          rw [attemptsIn, read]
          refine List.mem_flatMap.mpr ⟨definition, written, ?_⟩
          rw [attemptsFor, unknown]
          exact List.mem_singleton.mpr rfl
        exact apiFault?_eq_none_iff.mp known

/-- A directory is loaded exactly if every expansion of what it holds succeeds; the configurations
are those expansions, in their order.
-/
theorem loadDirectory_eq_ok_iff {configurations : List Configuration}
    : context.loadDirectory = .ok configurations
      ↔ ∃ files, context.Holds files ∧ context.Knows files
          ∧ context.expansions files = configurations.map .ok := by
  rw [loadDirectory_eq, collect_eq_ok_iff_eq_map fun _ => ne_nil_of_attempts]
  constructor
  · intro all
    have faultless : ∀ faults, .error faults ∉ context.attempts := by simp [all]
    obtain ⟨files, holds, knows⟩ := exists_holds faultless
    exact ⟨files, holds, knows, attempts_eq holds knows ▸ all⟩
  · rintro ⟨files, holds, knows, all⟩
    rwa [attempts_eq holds knows]

/-- Every configuration that is loaded was built of a definition of a known API, for one of the
environments.
-/
theorem built_of_loadDirectory {configurations : List Configuration} {c : Configuration}
    (loaded : context.loadDirectory = .ok configurations) (member : c ∈ configurations)
    : ∃ path definition, ∃ environment ∈ context.environments,
        (context.expansion path definition).build environment = .ok c
        ∧ definition.api ≠ "" ∧ context.apis.contains definition.api = true := by
  obtain ⟨files, _, knows, expanded⟩ := loadDirectory_eq_ok_iff.mp loaded
  have succeeded : .ok c ∈ context.expansions files := expanded ▸ List.mem_map_of_mem member
  obtain ⟨file, held, definition, written, environment, asked, built⟩ :=
    mem_expansions.mp succeeded
  exact ⟨file.1, definition, environment, asked, built, knows file held definition written⟩

-----------------------------------------------------------------------------------------
-- All or nothing
-----------------------------------------------------------------------------------------

/-- Loading a directory gives all or nothing. It succeeds exactly if the directory is listed, every
file is read to some definitions, every API is known and every definition is built for every
environment; then it gives one configuration for each definition and environment. Otherwise it
gives the faults of all failed attempts in the order of the attempts, and there is one.
-/
theorem loadDirectory_all_or_nothing (context : LoadContext)
    : ((∃ configurations, context.loadDirectory = .ok configurations)
        ↔ ∃ files, context.Holds files ∧ context.Knows files
            ∧ ∀ file ∈ files, ∀ definition ∈ file.2, ∀ environment ∈ context.environments,
                ∃ c, (context.expansion file.1 definition).build environment = .ok c)
      ∧ (∀ configurations,
          context.loadDirectory = .ok configurations
          ↔ ∃ files, context.Holds files ∧ context.Knows files
              ∧ context.expansions files = configurations.map .ok)
      ∧ ∀ faults,
          context.loadDirectory = .error faults
          ↔ faults = context.attempts.flatMap errorsOf ∧ faults ≠ [] := by
  refine ⟨?_, fun _ => loadDirectory_eq_ok_iff, fun _ => ?_⟩
  · have built (files : List (Path × List Definition))
        : (∃ configurations : List Configuration,
              context.expansions files = configurations.map .ok)
          ↔ ∀ file ∈ files, ∀ definition ∈ file.2, ∀ environment ∈ context.environments,
              ∃ c, (context.expansion file.1 definition).build environment = .ok c := by
      rw [exists_eq_map_ok_iff]
      simp only [mem_expansions]
      constructor
      · intro all file member definition written environment known
        exact all _ ⟨file, member, definition, written, environment, known, rfl⟩
      · rintro all result ⟨file, member, definition, written, environment, known, rfl⟩
        exact all file member definition written environment known
    simp only [loadDirectory_eq_ok_iff, ← built]
    rw [exists_comm]
    simp only [exists_and_left]
  · rw [loadDirectory_eq, collect_eq_error_iff]

open Fixture

/-- A directory with these entries, to be loaded for two environments. -/
def inShop (entries : List (String × Entry)) : LoadContext :=
  { LoadContext.new ⟨.directory [("shop", .directory entries)], []⟩ "shop" (.ofText "shop") with
    environments := [⟨"dev", "all"⟩, ⟨"prod", "all"⟩] }

/-- A definition of an unknown API, and one without a template. -/
def brokenShop : LoadContext :=
  inShop [("slo.yaml", .text (DefinitionText.file
    [.new "x" "objective", { DefinitionText.new "y" "slo" with template := none }]))]

/-- Two definitions with nothing wrong. -/
def soundShop : LoadContext :=
  inShop [
    ("slo.yaml", .text (DefinitionText.file [.new "x" "slo", .new "y" "slo"])),
    ("x.json", .text ""), ("y.json", .text "")]

/-- The unknown API is reported once, the missing template for each environment; without these
faults there is a configuration for each definition and environment.
-/
theorem loadDirectory_shops
    : brokenShop.loadDirectory = .error [
        .unknownApi "objective" (.ofText "shop/slo.yaml"),
        .definition ⟨⟨"shop", "slo", "y"⟩, .ofText "shop/slo.yaml", ⟨"dev", "all"⟩, none,
          "missing property `template`"⟩,
        .definition ⟨⟨"shop", "slo", "y"⟩, .ofText "shop/slo.yaml", ⟨"prod", "all"⟩, none,
          "missing property `template`"⟩]
      ∧ ∃ files configurations, soundShop.loadDirectory = .ok configurations
          ∧ soundShop.expansions files = configurations.map .ok
          ∧ configurations.map (fun c => (c.coordinate.configId, c.environment))
            = [("x", "dev"), ("x", "prod"), ("y", "dev"), ("y", "prod")] := by
  obtain ⟨_, _, failed⟩ := loadDirectory_all_or_nothing brokenShop
  obtain ⟨_, loaded, _⟩ := loadDirectory_all_or_nothing soundShop
  refine ⟨(failed _).mpr ⟨by decide +kernel, List.cons_ne_nil _ _⟩, ?_⟩
  have facts : soundShop.loadDirectory.toOption.any (fun configurations =>
      configurations.map (fun c => (c.coordinate.configId, c.environment))
        = [("x", "dev"), ("x", "prod"), ("y", "dev"), ("y", "prod")]) = true := by
    decide +kernel
  obtain ⟨configurations, done, fact⟩ := exists_ok_of_any facts
  obtain ⟨files, _, _, expanded⟩ := (loaded configurations).mp done
  exact ⟨files, configurations, done, expanded, of_decide_eq_true fact⟩

end LoadContext

end Rollout
