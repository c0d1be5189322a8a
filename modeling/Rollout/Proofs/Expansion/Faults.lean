import Rollout.Proofs.Expansion.Problems

/-!
What becomes of a definition that names its template: a configuration if there is no problem,
otherwise a report of each problem, in a fixed order.
-/

namespace Rollout

namespace Expansion

variable {e : Expansion} {environment : Environment}

-----------------------------------------------------------------------------------------
-- The order of the problems
-----------------------------------------------------------------------------------------

/-- The problems of one turn in the order of the parameters that they are about. -/
structure InTurn (turn : Nat) (problems : List Problem) : Prop where
  turn_eq : ∀ problem ∈ problems, problem.turn = turn
  ordered : problems.Pairwise Problem.Before

theorem templateProblems_inTurn (path : String) : InTurn 0 (e.templateProblems path) where
  turn_eq problem member := by
    obtain ⟨_, _, rfl⟩ := mem_templateProblems.mp member
    rfl
  ordered := by
    unfold templateProblems
    split <;> simp

theorem repeatedProblems_inTurn (merged : Merged) : InTurn 1 (repeatedProblems merged) where
  turn_eq problem member := by
    obtain ⟨_, _, rfl⟩ := List.mem_map.mp member
    rfl
  ordered :=
    List.pairwise_map.mpr (merged.duplicates.keys_ascending.imp fun less => .inr ⟨rfl, less⟩)

theorem parameterProblems_inTurn (binder : Binder) (merged : Merged)
    : InTurn 2 (parameterProblems binder merged) where
  turn_eq problem member := by
    obtain ⟨_, _, made⟩ := List.mem_filterMap.mp member
    obtain ⟨_, _, rfl⟩ := Option.map_eq_some_iff.mp made
    rfl
  ordered := by
    refine List.pairwise_filterMap.mpr ((merged.parameters.ascending.filter _).imp ?_)
    intro a b less p first q next
    obtain ⟨_, _, rfl⟩ := Option.map_eq_some_iff.mp first
    obtain ⟨_, _, rfl⟩ := Option.map_eq_some_iff.mp next
    exact .inr ⟨rfl, less⟩

theorem nameProblems_inTurn (binder : Binder) (merged : Merged)
    : InTurn 3 (nameProblems binder merged) where
  turn_eq problem member := by
    rcases mem_nameProblems.mp member with ⟨_, rfl⟩ | ⟨_, _, _, _, rfl⟩ <;> rfl
  ordered := by
    unfold nameProblems
    split
    · simp
    · cases binder.refusal? nameParameter _ <;> simp

theorem skipProblems_inTurn (merged : Merged) : InTurn 4 (skipProblems merged) where
  turn_eq problem member := by
    obtain ⟨_, _, _, _, rfl⟩ := mem_skipProblems.mp member
    rfl
  ordered := by
    unfold skipProblems
    split <;> simp

/-- The problems stand in the order of their turns, those of one turn in the order
of the parameters.
-/
theorem problems_ascending (e : Expansion) (path : String) (merged : Merged)
    : (e.templateProblems path ++ bodyProblems e.binder merged).Pairwise Problem.Before := by
  have first : InTurn 0 (e.templateProblems path) := templateProblems_inTurn path
  have second := repeatedProblems_inTurn merged
  have third := parameterProblems_inTurn e.binder merged
  have fourth := nameProblems_inTurn e.binder merged
  have fifth := skipProblems_inTurn merged
  unfold bodyProblems
  refine Problem.pairwise_append first.ordered (Problem.pairwise_append second.ordered
    (Problem.pairwise_append third.ordered
      (Problem.pairwise_append fourth.ordered fifth.ordered ?_) ?_) ?_) ?_
  all_goals grind [InTurn]

-----------------------------------------------------------------------------------------
-- What is reported
-----------------------------------------------------------------------------------------

/-- A definition without a template is reported for that alone. -/
theorem build_of_no_template (absent : (e.merged environment).template = none)
    : e.build environment = .error [e.fault environment "missing property `template`"] := by
  simp [build, absent]

/-- With a template that is named, each problem is reported once. -/
theorem errorsOf_build {path : String} (present : (e.merged environment).template = some path)
    : Batch.errorsOf (e.build environment)
      = (e.templateProblems path ++ bodyProblems e.binder (e.merged environment)).map
          (Problem.fault e environment) := by
  rw [List.map_append, ← templateFaults_eq, ← bodyFaults_eq]
  unfold build
  simp only [present]
  split
  · simp_all [Batch.errorsOf]
  · rfl

/-- A definition that names its template is built exactly if it has no problem. -/
theorem exists_build_iff {path : String} (present : (e.merged environment).template = some path)
    : (∃ c, e.build environment = .ok c)
      ↔ (∃ template, e.template path = .ok template) ∧ e.Sound environment := by
  simp only [build_eq_ok_iff, ← bodyProblems_eq_nil_iff]
  rw [bodyFaults_eq]
  constructor
  · rintro ⟨_, named, template, same, loaded, faultless, _⟩
    obtain rfl := Option.some.inj (present.symm.trans same)
    exact ⟨⟨template, loaded⟩, List.map_eq_nil_iff.mp faultless⟩
  · rintro ⟨⟨template, loaded⟩, faultless⟩
    exact ⟨_, path, template, present, loaded, List.map_eq_nil_iff.mpr faultless, rfl⟩

-----------------------------------------------------------------------------------------
-- The parameters of what is built
-----------------------------------------------------------------------------------------

/-- What a parameter is typed from: the `name` from that of the body, any other from what is merged.
-/
def source? (merged : Merged) (name : String) : Option RawParameter :=
  if name = nameParameter then merged.name else merged.parameters.get? name

/-- Where nothing is wrong every parameter is typed, once, from its source. -/
theorem Sound.mem_calls (sound : e.Sound environment) {name : String} {raw : RawParameter}
    : (name, raw) ∈ calls (e.merged environment)
      ↔ source? (e.merged environment) name = some raw := by
  obtain ⟨own, _, named, _⟩ := sound.named
  rw [calls, List.mem_append, mem_plainParameters, source?]
  by_cases isName : name = nameParameter
  · simp [isName, named, eq_comm]
  · simp [isName, named, not_mem_duplicates_iff.mpr (sound.once name)]

theorem Sound.accepts (sound : e.Sound environment) {name : String} {raw : RawParameter}
    (given : source? (e.merged environment) name = some raw)
    : ∃ parameter, e.binder.Accepts name raw parameter := by
  unfold source? at given
  split at given
  next isName =>
    obtain ⟨own, parameter, named, accepted⟩ := sound.named
    obtain rfl := Option.some.inj (named.symm.trans given)
    exact ⟨parameter, isName ▸ accepted⟩
  next other => exact sound.parameters name raw given fun isName => absurd isName other

variable {c : Configuration}

theorem sound_of_build (built : e.build environment = .ok c) : e.Sound environment := by
  obtain ⟨path, _, present, _⟩ := build_eq_ok_iff.mp built
  exact ((exists_build_iff present).mp ⟨c, built⟩).2

/-- A parameter of a configuration is what its source is typed to. -/
theorem get?_parameters_of_build (built : e.build environment = .ok c) {name : String}
    {parameter : Parameter}
    : c.parameters.get? name = some parameter
      ↔ ∃ raw, source? (e.merged environment) name = some raw
          ∧ e.binder.Accepts name raw parameter := by
  have sound := sound_of_build built
  obtain ⟨_, _, _, _, _, rfl⟩ := build_eq_ok_iff.mp built
  rw [get?_parameters_bind]
  simp only [sound.mem_calls, Binder.fst_add_eq_ok_iff]

/-- A configuration has the parameters that are merged, and a `name`. -/
theorem mem_parameters_of_build (built : e.build environment = .ok c) {name : String}
    : name ∈ c.parameters.keys
      ↔ name ∈ (e.merged environment).parameters.keys ∨ name = nameParameter := by
  have sound := sound_of_build built
  have sources : name ∈ c.parameters.keys
      ↔ ∃ raw, source? (e.merged environment) name = some raw := by
    rw [SortedMap.mem_keys_iff]
    simp only [get?_parameters_of_build built]
    constructor
    · rintro ⟨_, raw, given, _⟩
      exact ⟨raw, given⟩
    · rintro ⟨raw, given⟩
      obtain ⟨parameter, accepted⟩ := sound.accepts given
      exact ⟨parameter, raw, given, accepted⟩
  obtain ⟨own, _, named, _⟩ := sound.named
  rw [sources, SortedMap.mem_keys_iff, source?]
  by_cases isName : name = nameParameter <;> simp [isName, named]

/-- What becomes of a definition that names its template. It is built exactly if the template loads,
no body that applies repeats a parameter, every parameter that counts is accepted, it has a `name`
that is accepted, and its `skip` can be read. Otherwise each problem is reported once, in the order
of turns and within a turn in that of the names. What is built has the parameters that are merged
and a `name`, each typed from its source.
-/
theorem build_accounts {path : String} (present : (e.merged environment).template = some path)
    : ((∃ c, e.build environment = .ok c)
        ↔ (∃ template, e.template path = .ok template) ∧ e.Sound environment)
      ∧ (∀ faults, e.build environment = .error faults →
          ∃ problems : List Problem,
            faults = problems.map (Problem.fault e environment)
            ∧ (∀ problem, problem ∈ problems ↔ e.HasProblem environment problem)
            ∧ problems.Pairwise Problem.Before)
      ∧ ∀ c, e.build environment = .ok c →
          (∀ name, name ∈ c.parameters.keys
            ↔ name ∈ (e.merged environment).parameters.keys ∨ name = nameParameter)
          ∧ ∀ name parameter, c.parameters.get? name = some parameter
              ↔ ∃ raw,
                  (if name = nameParameter then (e.merged environment).name
                    else (e.merged environment).parameters.get? name) = some raw
                  ∧ e.binder.Accepts name raw parameter := by
  refine ⟨exists_build_iff present, fun faults failed => ?_, fun c built => ?_⟩
  · refine ⟨_, ?_, fun _ => mem_problems present, problems_ascending e path _⟩
    rw [← errorsOf_build present, failed]
    rfl
  · exact ⟨fun _ => mem_parameters_of_build built, fun _ _ => get?_parameters_of_build built⟩

/-- An objective with a problem of every kind but one: it has no name that could be refused. -/
def troubledObjective : Expansion where
  project := "app"
  path := .ofText "app/slo.yaml"
  definition := {
    id := "availability"
    api := "slo"
    body := {
      name := none
      template := some "absent.json"
      skip := some (.text "maybe")
      parameters := ⟨[
        ("x", .literal .null), ("me", .shortReference [.text "id"]), ("x", .literal .null),
        ("id", .literal .null)]⟩ }
    groupOverrides := []
    environmentOverrides := [] }
  decoders := .builtins
  templates := fun path => .error (.templateNotFound path)

/-- All six problems of the one are reported in order; the other has none and is built with both of
its parameters and its name.
-/
theorem build_accounts_objectives
    : let environment : Environment := ⟨"dev", "all"⟩
      let sound := objective zone ⟨"app", "dashboard", "overview"⟩
      (∃ problems : List Problem,
        troubledObjective.build environment
          = .error (problems.map (Problem.fault troubledObjective environment))
        ∧ problems.length = 6 ∧ problems.Pairwise Problem.Before
        ∧ ∀ problem ∈ problems, troubledObjective.HasProblem environment problem)
      ∧ sound.Sound environment
      ∧ ∃ c, sound.build environment = .ok c
          ∧ nameParameter ∈ c.parameters.keys ∧ "first" ∈ c.parameters.keys := by
  intro environment sound
  have found : (Batch.errorsOf (troubledObjective.build environment)).length = 6 := by
    decide +kernel
  have absent : (troubledObjective.merged environment).template = some "absent.json" := by
    decide +kernel
  have present : (sound.merged environment).template = some "slo.json" := by decide +kernel
  obtain ⟨_, reported, _⟩ := build_accounts absent
  obtain ⟨accepted, _, held⟩ := build_accounts present
  obtain ⟨c, built, first⟩ := Batch.exists_ok_of_any
    (show (sound.build environment).toOption.any
      (fun _ => "first" ∈ (sound.merged environment).parameters.keys) = true by decide +kernel)
  refine ⟨?troubled, (accepted.mp ⟨c, built⟩).2, c, built, ?name, ?first⟩
  case troubled =>
    cases failed : troubledObjective.build environment with
    | ok c =>
        rw [failed] at found
        cases found
    | error faults =>
        obtain ⟨problems, rfl, has, ordered⟩ := reported faults failed
        rw [failed, Batch.errorsOf, List.length_map] at found
        exact ⟨problems, rfl, found, ordered, fun problem => (has problem).mp⟩
  case name => exact ((held c built).1 nameParameter).mpr (.inr rfl)
  case first => exact ((held c built).1 "first").mpr (.inl (of_decide_eq_true first))

end Expansion

end Rollout
