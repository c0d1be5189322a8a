import Rollout.Expansion
import Rollout.Proofs.Batch
import Rollout.Proofs.Binder

/-!
What a configuration that is built refers to. Its references are those that the binder recorded, so
they are complete exactly if no two coordinates among its parameters share a canonical text.
-/

namespace Rollout

/-- The coordinates that the parameters of a configuration refer to. -/
def Configuration.targets (c : Configuration) : List Coordinate :=
  c.parameters.values.flatMap Parameter.targets

theorem Configuration.mem_targets {c : Configuration} {target : Coordinate}
    : target ∈ c.targets
      ↔ ∃ name parameter,
          c.parameters.get? name = some parameter ∧ target ∈ parameter.targets := by
  simp only [targets, SortedMap.values, List.flatMap_map, List.mem_flatMap, Prod.exists,
    SortedMap.get?_eq_some_iff]

namespace Expansion

open Binder

-----------------------------------------------------------------------------------------
-- Typing the parameters of a body
-----------------------------------------------------------------------------------------

/-- The parameters of a body in the order in which they are typed. -/
def calls (merged : Merged) : List (String × RawParameter) :=
  plainParameters merged ++ (merged.name.map (nameParameter, ·)).toList

/-- Types parameters one after the other. -/
def Bound.addAll (bound : Bound) (calls : List (String × RawParameter)) : Bound :=
  calls.foldl (fun bound call => bound.add call.1 call.2) bound

theorem bind_eq (e : Expansion) (merged : Merged)
    : e.bind merged = Bound.addAll ⟨.empty, [], .new e.decoders e.coordinate⟩ (calls merged) := by
  rw [Bound.addAll, calls, List.foldl_append, bind]
  cases merged.name <;> rfl

/-- No name is typed twice: the body's own `name` hides a parameter of that name. -/
theorem names_calls_nodup (merged : Merged) : ((calls merged).map Prod.fst).Nodup := by
  have plain : ((plainParameters merged).map Prod.fst).Nodup :=
    merged.parameters.keys_nodup.sublist (List.filter_sublist.map Prod.fst)
  rw [calls, List.map_append]
  cases named : merged.name with
  | none => simpa using plain
  | some raw =>
      refine List.nodup_append.mpr ⟨plain, by simp, ?_⟩
      intro name member other listed same
      obtain rfl : other = nameParameter := by simpa using listed
      subst same
      obtain ⟨entry, kept, isName⟩ := List.mem_map.mp member
      have shown := (List.mem_filter.mp kept).2
      simp [isName, named] at shown

theorem binder_add (bound : Bound) (name : String) (raw : RawParameter)
    : (bound.add name raw).binder = (bound.binder.add name raw).2 := by
  unfold Bound.add
  split
  next h => rw [h]
  next h => rw [h]

theorem binder_addAll (bound : Bound) (calls : List (String × RawParameter))
    : (bound.addAll calls).binder = (bound.binder.addAll calls).2 := by
  induction calls generalizing bound with
  | nil => rfl
  | cons call rest ih =>
      rw [Bound.addAll, List.foldl_cons]
      exact (ih _).trans (by rw [binder_add]; rfl)

/-- What is typed does not depend on what was typed before. -/
theorem fst_add_binder (bound : Bound) (name other : String) (raw next : RawParameter)
    : ((bound.add name raw).binder.add other next).1 = (bound.binder.add other next).1 := by
  rw [binder_add, snd_add, fst_add_recorded]

theorem parameters_add (bound : Bound) (name : String) (raw : RawParameter)
    : (bound.add name raw).parameters
      = bound.parameters.insertOption name (bound.binder.add name raw).1.toOption := by
  unfold Bound.add
  split
  next h => rw [h]; rfl
  next h => rw [h]; rfl

/-- Parameters are held under their names as they are typed, by induction on the parameters. -/
theorem parameters_addAll (bound : Bound) (calls : List (String × RawParameter))
    : (bound.addAll calls).parameters
      = SortedMap.insertEach (fun call => (bound.binder.add call.1 call.2).1.toOption)
          bound.parameters calls := by
  induction calls generalizing bound with
  | nil => rfl
  | cons call rest ih =>
      rw [SortedMap.insertEach_cons, ← parameters_add]
      apply (ih _).trans
      simp only [fst_add_binder]

theorem refusal?_add_binder (bound : Bound) (name other : String) (raw next : RawParameter)
    : (bound.add name raw).binder.refusal? other next = bound.binder.refusal? other next := by
  rw [refusal?, fst_add_binder, refusal?]

theorem failures_add (bound : Bound) (name : String) (raw : RawParameter)
    : (bound.add name raw).failures
      = bound.failures ++ ((bound.binder.refusal? name raw).map (name, ·)).toList := by
  unfold Bound.add refusal?
  split
  next h =>
    rw [h]
    exact (List.append_nil _).symm
  next h =>
    rw [h]
    rfl

/-- Parameters that are refused are kept in the order in which they are met, by induction on the
parameters.
-/
theorem failures_addAll (bound : Bound) (calls : List (String × RawParameter))
    : (bound.addAll calls).failures
      = bound.failures
        ++ calls.filterMap fun call => (bound.binder.refusal? call.1 call.2).map (call.1, ·) := by
  induction calls generalizing bound with
  | nil => exact (List.append_nil _).symm
  | cons call rest ih =>
      rw [Bound.addAll, List.foldl_cons]
      apply (ih _).trans
      simp only [failures_add, refusal?_add_binder, List.append_assoc]
      cases refused : bound.binder.refusal? call.1 call.2 <;> simp [refused]

/-- A definition holds exactly the parameters that could be typed, each under its name. -/
theorem get?_parameters_bind {e : Expansion} {merged : Merged} {name : String}
    {parameter : Parameter}
    : (e.bind merged).parameters.get? name = some parameter
      ↔ ∃ raw, (name, raw) ∈ calls merged
          ∧ ((Binder.new e.decoders e.coordinate).add name raw).1 = .ok parameter := by
  rw [bind_eq, parameters_addAll, SortedMap.get?_insertEach (names_calls_nodup merged) (by simp)]
  simp [Batch.toOption_eq_some_iff]

-----------------------------------------------------------------------------------------
-- The configuration that is built
-----------------------------------------------------------------------------------------

/-- A definition is built exactly if it names a template that loads and nothing else is wrong with
it; the configuration is then made of the merged body alone.
-/
theorem build_eq_ok_iff {e : Expansion} {environment : Environment} {c : Configuration}
    : e.build environment = .ok c
      ↔ ∃ path template,
          (e.merged environment).template = some path
          ∧ e.template path = .ok template
          ∧ e.bodyFaults environment (e.merged environment) = []
          ∧ c = {
              template
              coordinate := e.coordinate
              group := environment.group
              environment := environment.name
              parameters := (e.bind (e.merged environment)).parameters
              references := (e.bind (e.merged environment)).binder.references
              skip := isSkipped (e.merged environment) } := by
  unfold build
  cases named : (e.merged environment).template with
  | none => simp [named]
  | some path =>
      cases loaded : e.template path with
      | error cause => simp [named, loaded]
      | ok template =>
          cases faults : e.bodyFaults environment (e.merged environment) with
          | nil => simp [named, loaded, faults, templateFaults, eq_comm]
          | cons fault rest => simp [named, loaded, faults, templateFaults]

/-- A definition that is not built says why. -/
theorem ne_nil_of_build {e : Expansion} {environment : Environment} {faults : List LoadError}
    (failed : e.build environment = .error faults)
    : faults ≠ [] := by
  unfold build at failed
  cases named : (e.merged environment).template with
  | none =>
      simp only [named] at failed
      cases failed
      exact List.cons_ne_nil _ _
  | some path =>
      cases loaded : e.template path with
      | error cause =>
          simp only [named, loaded, templateFaults] at failed
          cases failed
          exact List.cons_ne_nil _ _
      | ok template =>
          cases body : e.bodyFaults environment (e.merged environment) with
          | nil => simp [named, loaded, body, templateFaults] at failed
          | cons fault rest =>
              simp only [named, loaded, body, templateFaults, List.nil_append] at failed
              cases failed
              exact List.cons_ne_nil _ _

variable {e : Expansion} {environment : Environment} {c : Configuration}

/-- The parameters of a definition as they are typed for an environment. -/
def typed (e : Expansion) (environment : Environment)
    : List (Except BindError Parameter) × Binder :=
  (Binder.new e.decoders e.coordinate).addAll (calls (e.merged environment))

/-- A configuration refers to exactly what was met when its parameters were typed. -/
theorem mem_targets_build (built : e.build environment = .ok c) {target : Coordinate}
    : target ∈ c.targets ↔ target ∈ met (e.typed environment).1 := by
  obtain ⟨_, _, _, _, _, rfl⟩ := build_eq_ok_iff.mp built
  rw [Configuration.mem_targets, typed, addAll_eq, met, List.flatMap_map, List.mem_flatMap]
  simp only [get?_parameters_bind]
  constructor
  · rintro ⟨name, parameter, ⟨raw, listed, done⟩, refers⟩
    exact ⟨(name, raw), listed, by rwa [done]⟩
  · rintro ⟨⟨name, raw⟩, listed, refers⟩
    cases done : ((Binder.new e.decoders e.coordinate).add name raw).1 with
    | ok parameter => exact ⟨name, parameter, ⟨raw, listed, done⟩, by rwa [done] at refers⟩
    | error cause => simp [done, targetsOf] at refers

/-- The references of a configuration are those recorded when its parameters were typed. -/
theorem references_build (built : e.build environment = .ok c)
    : c.references = ((met (e.typed environment).1).foldl record .empty).values := by
  obtain ⟨_, _, _, _, _, rfl⟩ := build_eq_ok_iff.mp built
  rw [bind_eq, binder_addAll, typed, ← references_addAll]

-----------------------------------------------------------------------------------------
-- Complete references
-----------------------------------------------------------------------------------------

/-- What typing parameters one after the other records. Of the coordinates that they refer to and
that share a canonical text it is the one met first; so every text is there in whatever order the
parameters come, and all coordinates are exactly if no two of them share a text. The same holds of
the references of a configuration.
-/
theorem references_complete_iff (registry : DecoderRegistry) (own : Coordinate)
    (calls : List (String × RawParameter))
    : let run := (Binder.new registry own).addAll calls
      (∀ c, c ∈ run.2.references ↔ (met run.1).find? (·.canonical = c.canonical) = some c)
      ∧ ((∀ c ∈ met run.1, c ∈ run.2.references) ↔ Distinguished (met run.1))
      ∧ (∀ other : List (String × RawParameter), other.Perm calls →
          let turned := (Binder.new registry own).addAll other
          turned.2.references.map Coordinate.canonical = run.2.references.map Coordinate.canonical
          ∧ (Distinguished (met run.1) → turned.2.references = run.2.references))
      ∧ ∀ (e : Expansion) (environment : Environment) (c : Configuration),
          e.build environment = .ok c →
            (∀ target ∈ c.references, target ∈ c.targets)
            ∧ ((∀ target ∈ c.targets, target ∈ c.references) ↔ Distinguished c.targets) := by
  simp only [references_addAll]
  refine ⟨fun c => mem_values_record, subset_values_record_iff, ?_, ?_⟩
  · intro other perm
    have met_perm : (met ((Binder.new registry own).addAll other).1).Perm
        (met ((Binder.new registry own).addAll calls).1) := by
      rw [addAll_eq, addAll_eq]
      exact (perm.map _).flatMap_right targetsOf
    obtain ⟨texts, whole⟩ := record_perm met_perm
    rw [map_canonical_values_record, map_canonical_values_record]
    exact ⟨texts, fun distinguished => congrArg SortedMap.values (whole distinguished)⟩
  · intro e environment c built
    simp only [references_build built, Distinguished.congr fun _ => mem_targets_build built,
      mem_targets_build built]
    refine ⟨fun target recorded => ?_, subset_values_record_iff⟩
    exact List.mem_of_find?_eq_some (mem_values_record.mp recorded)

/-- Two parameters that refer to the `id` of a coordinate each. -/
def twoReferences (a b : Coordinate) : List (String × RawParameter) :=
  let reference (c : Coordinate) : RawParameter :=
    .shortReference [.text c.project, .text c.api, .text c.configId, .text "id"]
  [("first", reference a), ("second", reference b)]

/-- An objective with two such parameters. -/
def objective (a b : Coordinate) : Expansion where
  project := "app"
  path := .ofText "app/slo.yaml"
  definition := {
    id := "availability"
    api := "slo"
    body := {
      name := some (.literal (.text "Availability"))
      template := some "slo.json"
      skip := none
      parameters := ⟨twoReferences a b⟩ }
    groupOverrides := []
    environmentOverrides := [] }
  decoders := .builtins
  templates := fun path => .ok ⟨path.text, ""⟩

/-- A zone whose API has a colon in its name. -/
def zone : Coordinate :=
  ⟨"infra", "builtin:management-zones", "zone"⟩

/-- A zone of another project that has the canonical text of the first. -/
def twin : Coordinate :=
  ⟨"infra:builtin", "management-zones", "zone"⟩

/-- Different texts are all recorded, in either order of the parameters. -/
theorem references_complete_zone
    : let dashboard : Coordinate := ⟨"app", "dashboard", "overview"⟩
      let own : Coordinate := ⟨"app", "slo", "availability"⟩
      let calls := twoReferences zone dashboard
      ((Binder.new .builtins own).addAll calls.reverse).2.references
          = ((Binder.new .builtins own).addAll calls).2.references
      ∧ ∃ c, (objective zone dashboard).build ⟨"dev", "all"⟩ = .ok c
          ∧ zone ∈ c.references ∧ dashboard ∈ c.references := by
  intro dashboard own calls
  obtain ⟨_, _, turned, complete⟩ := references_complete_iff .builtins own calls
  have apart : Distinguished (met ((Binder.new .builtins own).addAll calls).1) := by decide +kernel
  refine ⟨(turned calls.reverse (List.reverse_perm calls)).2 apart, ?_⟩
  have facts : ((objective zone dashboard).build ⟨"dev", "all"⟩).toOption.any
      (fun c => Distinguished c.targets ∧ zone ∈ c.targets ∧ dashboard ∈ c.targets) = true := by
    decide +kernel
  obtain ⟨c, built, fact⟩ := (Option.any_eq_true _ _).mp facts
  obtain ⟨distinguished, first, second⟩ := of_decide_eq_true fact
  have done := Batch.toOption_eq_some_iff.mp built
  have all := (complete _ _ c done).2.mpr distinguished
  exact ⟨c, done, all zone first, all dashboard second⟩

/-- Of two zones that share a canonical text only the one met first is recorded: the other is lost,
and which one that is depends on the order of the parameters.
-/
theorem references_lose_twin
    : let own : Coordinate := ⟨"app", "slo", "availability"⟩
      let calls := twoReferences zone twin
      let run := (Binder.new .builtins own).addAll calls
      let turned := (Binder.new .builtins own).addAll calls.reverse
      met run.1 = [zone, twin] ∧ run.2.references = [zone]
      ∧ met turned.1 = [twin, zone] ∧ turned.2.references = [twin]
      ∧ ∃ c, (objective zone twin).build ⟨"dev", "all"⟩ = .ok c
          ∧ twin ∈ c.targets ∧ twin ∉ c.references := by
  have facts : ((objective zone twin).build ⟨"dev", "all"⟩).toOption.any
      (fun c => twin ∈ c.targets ∧ twin ∉ c.references) = true := by
    decide +kernel
  obtain ⟨c, built, fact⟩ := (Option.any_eq_true _ _).mp facts
  refine ⟨?_, ?_, ?_, ?_, c, Batch.toOption_eq_some_iff.mp built, of_decide_eq_true fact⟩
  all_goals decide +kernel

end Expansion

end Rollout
