import Rollout.Proofs.Expansion
import Rollout.Proofs.Merge

/-!
What can be wrong with a definition for an environment, said of the bodies that apply and of what
they are merged to, and the problems in the order in which expanding the definition meets them.
-/

namespace Rollout

namespace Expansion

/-- The bodies that apply to an environment, the base first. -/
def applied (e : Expansion) (environment : Environment) : List Body :=
  (OverrideIndex.ofDefinition e.definition).applied e.definition.body environment

theorem merged_eq_ofBodies (e : Expansion) (environment : Environment)
    : e.merged environment = .ofBodies (e.applied environment) :=
  OverrideIndex.merge_eq_ofBodies _ _ _

/-- The binder that every parameter of a definition is typed by. -/
abbrev binder (e : Expansion) : Binder :=
  .new e.decoders e.coordinate

-----------------------------------------------------------------------------------------
-- Problems
-----------------------------------------------------------------------------------------

/-- Something that can be wrong with a definition for an environment. -/
inductive Problem
  | template (cause : FileError)
  | repeated (name : String)
  | parameter (name : String) (cause : BindError)
  | unnamed
  | misnamed (cause : BindError)
  | skip (reason : String)
deriving DecidableEq, Repr

namespace Problem

/-- How a problem is reported. -/
def fault (e : Expansion) (environment : Environment) : Problem → LoadError
  | .template cause =>
      e.fault environment ("error while loading template: `" ++ cause.message ++ "`")
  | .repeated name => e.fault environment ("duplicate parameter `" ++ name ++ "`")
  | .parameter name cause => e.parameterFault environment name cause
  | .unnamed => e.fault environment "missing parameter `name`"
  | .misnamed cause => e.parameterFault environment nameParameter cause
  | .skip reason => e.fault environment reason

/-- In which turn problems of a kind are reported. -/
def turn : Problem → Nat
  | .template _ => 0
  | .repeated _ => 1
  | .parameter .. => 2
  | .unnamed => 3
  | .misnamed _ => 3
  | .skip _ => 4

/-- The parameter that a problem is about, where problems of its kind are told apart by it. -/
def subject : Problem → String
  | .repeated name => name
  | .parameter name _ => name
  | _ => ""

/-- The order of reports: by turn, then by the name of the parameter. -/
def Before (p q : Problem) : Prop :=
  p.turn < q.turn ∨ (p.turn = q.turn ∧ compare p.subject q.subject = .lt)

theorem pairwise_append {low high : List Problem} (inLow : low.Pairwise Before)
    (inHigh : high.Pairwise Before) (apart : ∀ p ∈ low, ∀ q ∈ high, p.turn < q.turn)
    : (low ++ high).Pairwise Before :=
  List.pairwise_append.mpr ⟨inLow, inHigh, fun p first q next => .inl (apart p first q next)⟩

end Problem

/-- What is wrong with a definition for an environment, in terms of the bodies that apply and of
what they are merged to. A parameter counts unless its name is repeated, which is a problem of its
own, or hidden by the `name` of the body.
-/
inductive HasProblem (e : Expansion) (environment : Environment) : Problem → Prop
  | template {path : String} {cause : FileError}
    (present : (e.merged environment).template = some path)
    (failed : e.template path = .error cause)
    : HasProblem e environment (.template cause)
  | repeated {body : Body} {name : String} (applies : body ∈ e.applied environment)
    (twice : 2 ≤ body.parameters.names.count name)
    : HasProblem e environment (.repeated name)
  | parameter {name : String} {raw : RawParameter} {cause : BindError}
    (held : (e.merged environment).parameters.get? name = some raw)
    (once : ∀ body ∈ e.applied environment, body.parameters.names.count name ≤ 1)
    (shown : name = nameParameter → (e.merged environment).name = none)
    (refused : e.binder.Refuses name raw cause)
    : HasProblem e environment (.parameter name cause)
  | unnamed (absent : (e.merged environment).name = none) : HasProblem e environment .unnamed
  | misnamed {raw : RawParameter} {cause : BindError}
    (named : (e.merged environment).name = some raw)
    (refused : e.binder.Refuses nameParameter raw cause)
    : HasProblem e environment (.misnamed cause)
  | skip {value : Value} {reason : String} (set : (e.merged environment).skip = some value)
    (failed : parseSkip value = .error reason)
    : HasProblem e environment (.skip reason)

/-- Nothing is wrong with what the bodies say, whatever the template is. -/
structure Sound (e : Expansion) (environment : Environment) : Prop where
  distinct : ∀ body ∈ e.applied environment, body.parameters.names.Nodup
  parameters
    : ∀ name raw,
        (e.merged environment).parameters.get? name = some raw
        → (name = nameParameter → (e.merged environment).name = none)
        → ∃ parameter, e.binder.Accepts name raw parameter
  named
    : ∃ raw parameter,
        (e.merged environment).name = some raw ∧ e.binder.Accepts nameParameter raw parameter
  skip
    : ∀ value, (e.merged environment).skip = some value → ∃ skip, parseSkip value = .ok skip

-----------------------------------------------------------------------------------------
-- The problems in the order in which they are met
-----------------------------------------------------------------------------------------

def templateProblems (e : Expansion) (path : String) : List Problem :=
  match e.template path with
  | .ok _ => []
  | .error cause => [.template cause]

def repeatedProblems (merged : Merged) : List Problem :=
  merged.duplicates.keys.map .repeated

def parameterProblems (binder : Binder) (merged : Merged) : List Problem :=
  (plainParameters merged).filterMap fun call =>
    (binder.refusal? call.1 call.2).map (.parameter call.1)

def nameProblems (binder : Binder) (merged : Merged) : List Problem :=
  match merged.name with
  | none => [.unnamed]
  | some raw => ((binder.refusal? nameParameter raw).map .misnamed).toList

def skipProblems (merged : Merged) : List Problem :=
  match merged.skip.map parseSkip with
  | some (.error reason) => [.skip reason]
  | _ => []

/-- The problems beside the template. -/
def bodyProblems (binder : Binder) (merged : Merged) : List Problem :=
  repeatedProblems merged
    ++ (parameterProblems binder merged ++ (nameProblems binder merged ++ skipProblems merged))

variable {e : Expansion} {environment : Environment}

theorem templateFaults_eq (path : String)
    : e.templateFaults environment path
      = (e.templateProblems path).map (Problem.fault e environment) := by
  unfold templateFaults templateProblems
  cases e.template path <;> rfl

/-- Parameters that are refused are reported in the order of their names, then what is
wrong with the name.
-/
theorem parameterFaults_eq (merged : Merged)
    : e.parameterFaults environment merged
      = (parameterProblems e.binder merged ++ nameProblems e.binder merged).map
          (Problem.fault e environment) := by
  rw [parameterFaults, bind_eq, failures_addAll, calls, parameterProblems, nameProblems,
    List.nil_append, List.filterMap_append, List.map_append, List.map_append, List.append_assoc]
  congr 1
  · rw [List.map_filterMap, List.map_filterMap]
    refine List.filterMap_congr fun call _ => ?_
    rw [Option.map_map, Option.map_map]
    rfl
  · cases merged.name with
    | none => rfl
    | some raw =>
        cases refused : e.binder.refusal? nameParameter raw <;> simp [refused, Problem.fault]

theorem bodyFaults_eq (merged : Merged)
    : e.bodyFaults environment merged
      = (bodyProblems e.binder merged).map (Problem.fault e environment) := by
  have skips : e.skipFaults environment merged
      = (skipProblems merged).map (Problem.fault e environment) := by
    unfold skipFaults skipProblems
    cases merged.skip.map parseSkip with
    | none => rfl
    | some result => cases result <;> rfl
  rw [bodyFaults, parameterFaults_eq, skips, duplicateFaults, bodyProblems, repeatedProblems]
  simp only [List.map_append, List.map_map, List.append_assoc]
  rfl

theorem not_mem_duplicates_iff {name : String}
    : name ∉ (e.merged environment).duplicates.keys
      ↔ ∀ body ∈ e.applied environment, body.parameters.names.count name ≤ 1 := by
  rw [merged_eq_ofBodies, Merged.mem_duplicates_ofBodies]
  simp only [not_exists, not_and, not_le, Nat.lt_succ_iff]

theorem mem_plainParameters {merged : Merged} {name : String} {raw : RawParameter}
    : (name, raw) ∈ plainParameters merged
      ↔ merged.parameters.get? name = some raw
        ∧ name ∉ merged.duplicates.keys
        ∧ (name = nameParameter → merged.name = none) := by
  rw [plainParameters, List.mem_filter, ← SortedMap.get?_eq_some_iff, ← SortedMap.contains_iff]
  simp [imp_iff_not_or]

-----------------------------------------------------------------------------------------
-- The problems that there are
-----------------------------------------------------------------------------------------

section Members

variable {path : String} {problem : Problem}

theorem mem_templateProblems
    : problem ∈ e.templateProblems path
      ↔ ∃ cause, e.template path = .error cause ∧ problem = .template cause := by
  unfold templateProblems
  cases e.template path <;> simp

theorem mem_repeatedProblems
    : problem ∈ repeatedProblems (e.merged environment)
      ↔ ∃ body ∈ e.applied environment, ∃ name,
          2 ≤ body.parameters.names.count name ∧ problem = .repeated name := by
  rw [repeatedProblems, List.mem_map, merged_eq_ofBodies]
  simp only [Merged.mem_duplicates_ofBodies]
  constructor
  · rintro ⟨name, ⟨body, applies, twice⟩, rfl⟩
    exact ⟨body, applies, name, twice, rfl⟩
  · rintro ⟨body, applies, name, twice, rfl⟩
    exact ⟨name, ⟨body, applies, twice⟩, rfl⟩

theorem mem_parameterProblems
    : problem ∈ parameterProblems e.binder (e.merged environment)
      ↔ ∃ name raw cause,
          (e.merged environment).parameters.get? name = some raw
          ∧ (∀ body ∈ e.applied environment, body.parameters.names.count name ≤ 1)
          ∧ (name = nameParameter → (e.merged environment).name = none)
          ∧ e.binder.Refuses name raw cause
          ∧ problem = .parameter name cause := by
  rw [parameterProblems, List.mem_filterMap]
  simp only [Prod.exists, mem_plainParameters, not_mem_duplicates_iff, Option.map_eq_some_iff,
    Binder.refusal?_eq_some_iff]
  constructor
  · rintro ⟨name, raw, ⟨held, single, shown⟩, cause, refused, rfl⟩
    exact ⟨name, raw, cause, held, single, shown, refused, rfl⟩
  · rintro ⟨name, raw, cause, held, single, shown, refused, rfl⟩
    exact ⟨name, raw, ⟨held, single, shown⟩, cause, refused, rfl⟩

theorem mem_nameProblems {binder : Binder} {merged : Merged}
    : problem ∈ nameProblems binder merged
      ↔ (merged.name = none ∧ problem = .unnamed)
        ∨ ∃ raw cause, merged.name = some raw ∧ binder.Refuses nameParameter raw cause
            ∧ problem = .misnamed cause := by
  unfold nameProblems
  cases merged.name with
  | none => simp
  | some raw =>
      simp only [Option.mem_toList, Option.map_eq_some_iff, Binder.refusal?_eq_some_iff]
      simp [eq_comm]

theorem mem_skipProblems {merged : Merged}
    : problem ∈ skipProblems merged
      ↔ ∃ value reason, merged.skip = some value ∧ parseSkip value = .error reason
          ∧ problem = .skip reason := by
  unfold skipProblems
  cases merged.skip with
  | none => simp
  | some value => cases parsed : parseSkip value <;> simp [parsed]

/-- Beside those of the template, the problems of a definition are those of its body. -/
theorem mem_bodyProblems
    : problem ∈ bodyProblems e.binder (e.merged environment)
      ↔ e.HasProblem environment problem ∧ problem.turn ≠ 0 := by
  rw [bodyProblems, List.mem_append, List.mem_append, List.mem_append, mem_repeatedProblems,
    mem_parameterProblems, mem_nameProblems, mem_skipProblems]
  constructor
  · rintro (⟨_, applies, _, twice, rfl⟩ | ⟨_, _, _, held, once, shown, refused, rfl⟩
      | (⟨absent, rfl⟩ | ⟨_, _, named, refused, rfl⟩) | ⟨_, _, set, failed, rfl⟩)
    · exact ⟨.repeated applies twice, Nat.one_ne_zero⟩
    · exact ⟨.parameter held once shown refused, Nat.succ_ne_zero _⟩
    · exact ⟨.unnamed absent, Nat.succ_ne_zero _⟩
    · exact ⟨.misnamed named refused, Nat.succ_ne_zero _⟩
    · exact ⟨.skip set failed, Nat.succ_ne_zero _⟩
  · rintro ⟨has, later⟩
    cases has with
    | template => exact absurd rfl later
    | repeated applies twice => exact .inl ⟨_, applies, _, twice, rfl⟩
    | parameter held once shown refused =>
        exact .inr (.inl ⟨_, _, _, held, once, shown, refused, rfl⟩)
    | unnamed absent => exact .inr (.inr (.inl (.inl ⟨absent, rfl⟩)))
    | misnamed named refused => exact .inr (.inr (.inl (.inr ⟨_, _, named, refused, rfl⟩)))
    | skip set failed => exact .inr (.inr (.inr ⟨_, _, set, failed, rfl⟩))

/-- With a template that is named, all problems are those of the template and those of the body. -/
theorem mem_problems (present : (e.merged environment).template = some path)
    : problem ∈ e.templateProblems path ++ bodyProblems e.binder (e.merged environment)
      ↔ e.HasProblem environment problem := by
  rw [List.mem_append, mem_templateProblems, mem_bodyProblems]
  constructor
  · rintro (⟨cause, failed, rfl⟩ | ⟨has, _⟩)
    · exact .template present failed
    · exact has
  · intro has
    by_cases first : problem.turn = 0
    · cases has with
      | template named failed =>
          obtain rfl := Option.some.inj (present.symm.trans named)
          exact .inl ⟨_, failed, rfl⟩
      | _ => cases first
    · exact .inr ⟨has, first⟩

end Members

theorem Sound.once (sound : e.Sound environment) (name : String)
    : ∀ body ∈ e.applied environment, body.parameters.names.count name ≤ 1 :=
  fun body applies => List.nodup_iff_count_le_one.mp (sound.distinct body applies) name

/-- Nothing is wrong with the bodies exactly if there is no problem beside the template. -/
theorem bodyProblems_eq_nil_iff
    : bodyProblems e.binder (e.merged environment) = [] ↔ e.Sound environment := by
  simp only [List.eq_nil_iff_forall_not_mem, mem_bodyProblems]
  constructor
  · intro faultless
    have distinct : ∀ body ∈ e.applied environment, body.parameters.names.Nodup := by
      intro body applies
      rw [List.nodup_iff_count_le_one]
      intro name
      by_contra! twice
      exact faultless _ ⟨.repeated applies twice, Nat.one_ne_zero⟩
    refine ⟨distinct, ?parameters, ?named, ?skip⟩
    case parameters =>
      intro name raw held shown
      have once : ∀ body ∈ e.applied environment, body.parameters.names.count name ≤ 1 :=
        fun body applies => List.nodup_iff_count_le_one.mp (distinct body applies) name
      refine (e.binder.accepts_or_refuses name raw).resolve_right fun ⟨_, refused⟩ => ?_
      exact faultless _ ⟨.parameter held once shown refused, Nat.succ_ne_zero _⟩
    case named =>
      cases named : (e.merged environment).name with
      | none => exact absurd ⟨.unnamed named, Nat.succ_ne_zero _⟩ (faultless _)
      | some raw =>
          rcases e.binder.accepts_or_refuses nameParameter raw with
            ⟨parameter, accepted⟩ | ⟨cause, refused⟩
          · exact ⟨raw, parameter, rfl, accepted⟩
          · exact absurd ⟨.misnamed named refused, Nat.succ_ne_zero _⟩ (faultless _)
    case skip =>
      intro value set
      cases parsed : parseSkip value with
      | ok skip => exact ⟨skip, rfl⟩
      | error reason => exact absurd ⟨.skip set parsed, Nat.succ_ne_zero _⟩ (faultless _)
  · rintro sound problem ⟨has, later⟩
    cases has with
    | template => exact later rfl
    | @repeated body name applies twice =>
        have once := sound.once name body applies
        omega
    | parameter held _ shown refused =>
        obtain ⟨_, accepted⟩ := sound.parameters _ _ held shown
        exact refused.not_accepts accepted
    | unnamed absent =>
        obtain ⟨_, _, named, _⟩ := sound.named
        rw [absent] at named
        cases named
    | misnamed named refused =>
        obtain ⟨raw, _, same, accepted⟩ := sound.named
        obtain rfl := Option.some.inj (same.symm.trans named)
        exact refused.not_accepts accepted
    | skip set failed =>
        obtain ⟨_, parsed⟩ := sound.skip _ set
        rw [failed] at parsed
        cases parsed

end Expansion

end Rollout
