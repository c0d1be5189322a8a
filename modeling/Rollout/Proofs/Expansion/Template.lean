import Rollout.Proofs.Expansion.Faults

/-!
What a template hides. A template that does not load is reported together with all other problems of
a definition; without any template the other problems come to light only once there is one.
-/

namespace Rollout

/-- Is this said of a template that is missing or does not load? -/
def isTemplateReason (reason : String) : Bool :=
  reason = "missing property `template`"
    || "error while loading template: ".toList.isPrefixOf reason.toList

/-- Is the template what is at fault? -/
def LoadError.concernsTemplate : LoadError → Bool
  | .definition cause => cause.parameter.isNone && isTemplateReason cause.reason
  | _ => false

/-- What is said in words with another beginning is not said of the template. -/
theorem isTemplateReason_of_head {reason : String} {first : Char}
    (head : reason.toList.head? = some first) (notM : first ≠ 'm') (notE : first ≠ 'e')
    : isTemplateReason reason = false := by
  have missing : reason ≠ "missing property `template`" := by
    rintro rfl
    exact notM (Option.some.inj head).symm
  have loading : "error while loading template: ".toList.isPrefixOf reason.toList = false := by
    obtain ⟨rest, text⟩ := List.head?_eq_some_iff.mp head
    rw [text]
    simp [List.isPrefixOf_cons_cons, notE.symm]
  rw [isTemplateReason, loading, decide_eq_false missing, Bool.or_self]

/-- What is wrong with a `skip` is said in a text that starts with the word invalid. -/
theorem head?_of_parseSkip {value : Value} {reason : String}
    (failed : parseSkip value = .error reason)
    : reason.toList.head? = some 'i' := by
  cases value with
  | bool skip => cases failed
  | text s =>
      simp only [parseSkip] at failed
      split at failed
      · cases failed
      · split at failed
        · cases failed
        · cases failed
          simp
  | _ =>
      cases failed
      rfl

namespace Expansion

variable {e other : Expansion} {environment : Environment}

-----------------------------------------------------------------------------------------
-- Faults of the template and others
-----------------------------------------------------------------------------------------

/-- Which problems are about the template can be told from the reports. -/
theorem concernsTemplate_fault {problem : Problem} (has : e.HasProblem environment problem)
    : (problem.fault e environment).concernsTemplate = decide (problem.turn = 0) := by
  have said (reason : String) : (e.fault environment reason).concernsTemplate
      = isTemplateReason reason := rfl
  cases has with
  | template present failed => simp [Problem.fault, said, isTemplateReason, Problem.turn]
  | @repeated _ name applies twice =>
      have head : ("duplicate parameter `" ++ name ++ "`").toList.head? = some 'd' := by simp
      exact (said _).trans (isTemplateReason_of_head head (by decide) (by decide))
  | parameter held once shown refused => rfl
  | unnamed absent => exact (said _).trans (by decide)
  | misnamed named refused => rfl
  | skip set failed =>
      exact (said _).trans
        (isTemplateReason_of_head (head?_of_parseSkip failed) (by decide) (by decide))

/-- What is reported about a definition beside its template. -/
def bodyReport (e : Expansion) (environment : Environment) : List LoadError :=
  (Batch.errorsOf (e.build environment)).filter fun error => !error.concernsTemplate

/-- Without a template nothing else is reported. -/
theorem bodyReport_of_no_template (absent : (e.merged environment).template = none)
    : e.bodyReport environment = [] := by
  rw [bodyReport, build_of_no_template absent]
  simp [Batch.errorsOf, fault, LoadError.concernsTemplate, isTemplateReason]

/-- With a template all other problems are reported, whether it loads or not. -/
theorem bodyReport_of_template (present : (e.merged environment).template.isSome)
    : e.bodyReport environment
      = (bodyProblems e.binder (e.merged environment)).map (Problem.fault e environment) := by
  obtain ⟨path, named⟩ := Option.isSome_iff_exists.mp present
  rw [bodyReport, errorsOf_build named, List.map_append, List.filter_append]
  have ofTemplate : ((e.templateProblems path).map (Problem.fault e environment)).filter
      (fun error => !error.concernsTemplate) = [] := by
    rw [List.filter_eq_nil_iff]
    intro error reported
    obtain ⟨problem, met, rfl⟩ := List.mem_map.mp reported
    obtain ⟨cause, failed, rfl⟩ := mem_templateProblems.mp met
    simp [concernsTemplate_fault (.template named failed), Problem.turn]
  have ofBody : ((bodyProblems e.binder (e.merged environment)).map
        (Problem.fault e environment)).filter (fun error => !error.concernsTemplate)
      = (bodyProblems e.binder (e.merged environment)).map (Problem.fault e environment) := by
    rw [List.filter_eq_self]
    intro error reported
    obtain ⟨problem, met, rfl⟩ := List.mem_map.mp reported
    obtain ⟨has, later⟩ := mem_bodyProblems.mp met
    simp [concernsTemplate_fault has, later]
  rw [ofTemplate, ofBody, List.nil_append]

theorem bodyReport_eq
    : e.bodyReport environment
      = if (e.merged environment).template.isSome then
          (bodyProblems e.binder (e.merged environment)).map (Problem.fault e environment)
        else [] := by
  split
  next present => exact bodyReport_of_template present
  next absent => exact bodyReport_of_no_template (by simpa using absent)

-----------------------------------------------------------------------------------------
-- Definitions that differ in their templates
-----------------------------------------------------------------------------------------

/-- Two definitions that come, for an environment, to the same but for the template. Neither has to
name one, and what they name may load for one and not for the other.
-/
structure SameBody (e other : Expansion) (environment : Environment) : Prop where
  coordinate : other.coordinate = e.coordinate
  path : other.path = e.path
  decoders : other.decoders = e.decoders
  merged
    : other.merged environment
      = { e.merged environment with template := (other.merged environment).template }

namespace SameBody

variable (same : e.SameBody other environment)

include same

theorem bodyProblems_eq
    : bodyProblems other.binder (other.merged environment)
      = bodyProblems e.binder (e.merged environment) := by
  rw [binder, binder, same.decoders, same.coordinate, same.merged]
  rfl

theorem fault_eq : Problem.fault other environment = Problem.fault e environment := by
  funext problem
  cases problem <;> simp only [Problem.fault, fault, parameterFault, same.coordinate, same.path]

/-- What would be reported of both, if they both named a template. -/
theorem faults_eq
    : (bodyProblems other.binder (other.merged environment)).map (Problem.fault other environment)
      = (bodyProblems e.binder (e.merged environment)).map (Problem.fault e environment) := by
  rw [same.bodyProblems_eq, same.fault_eq]

end SameBody

/-- What a template hides. Of two definitions that differ in their templates only, the same is
reported beside the template if both name one, whether it loads or not, and then all other problems
are. Without a template nothing else is reported, so the reports are the same exactly if both name
one or neither does or nothing else is wrong; and a template that is put in reveals nothing exactly
if there was one before or nothing else is wrong.
-/
theorem bodyReport_same_iff (same : e.SameBody other environment)
    : ((e.merged environment).template.isSome → (other.merged environment).template.isSome →
        e.bodyReport environment = other.bodyReport environment)
      ∧ ((e.merged environment).template.isSome →
          ∀ error, error ∈ e.bodyReport environment
            ↔ ∃ problem, e.HasProblem environment problem ∧ problem.turn ≠ 0
                ∧ problem.fault e environment = error)
      ∧ ((e.merged environment).template = none →
          e.build environment = .error [e.fault environment "missing property `template`"]
          ∧ e.bodyReport environment = [])
      ∧ (e.bodyReport environment = other.bodyReport environment
          ↔ ((e.merged environment).template.isSome ↔ (other.merged environment).template.isSome)
            ∨ e.Sound environment)
      ∧ ((∀ error ∈ other.bodyReport environment, error ∈ e.bodyReport environment)
          ↔ ((other.merged environment).template.isSome → (e.merged environment).template.isSome)
            ∨ e.Sound environment) := by
  set faults := (bodyProblems e.binder (e.merged environment)).map (Problem.fault e environment)
  have nothing : faults = [] ↔ e.Sound environment := by
    rw [List.map_eq_nil_iff, bodyProblems_eq_nil_iff]
  have first : e.bodyReport environment
      = if (e.merged environment).template.isSome then faults else [] := bodyReport_eq
  have second : other.bodyReport environment
      = if (other.merged environment).template.isSome then faults else [] := by
    rw [bodyReport_eq, same.faults_eq]
  refine ⟨?both, ?all, ?missing, ?equal, ?reveal⟩
  case both =>
    intro first second
    rw [bodyReport_of_template first, bodyReport_of_template second, same.faults_eq]
  case all =>
    intro present error
    rw [bodyReport_of_template present, List.mem_map]
    simp only [mem_bodyProblems, and_assoc]
  case missing =>
    exact fun absent => ⟨build_of_no_template absent, bodyReport_of_no_template absent⟩
  case equal =>
    rw [first, second, ← nothing]
    cases (e.merged environment).template <;> cases (other.merged environment).template
    all_goals simp [eq_comm (a := [])]
  case reveal =>
    rw [first, second, ← nothing]
    cases (e.merged environment).template <;> cases (other.merged environment).template
    all_goals simp [List.eq_nil_iff_forall_not_mem]

/-- The troubled objective with another template, or with none; whatever it is, it loads. -/
def retemplated (template : Option String) : Expansion :=
  { troubledObjective with
    definition := { troubledObjective.definition with
      body := { troubledObjective.definition.body with template } }
    templates := fun path => .ok ⟨path.text, ""⟩ }

/-- A template that loads instead of one that does not makes no difference to the
five other problems.
-/
theorem bodyReport_same_loading
    : let environment : Environment := ⟨"dev", "all"⟩
      troubledObjective.SameBody (retemplated (some "slo.json")) environment
      ∧ troubledObjective.bodyReport environment
        = (retemplated (some "slo.json")).bodyReport environment
      ∧ (troubledObjective.bodyReport environment).length = 5 := by
  intro environment
  have same : troubledObjective.SameBody (retemplated (some "slo.json")) environment :=
    ⟨rfl, rfl, rfl, rfl⟩
  obtain ⟨both, _⟩ := bodyReport_same_iff same
  exact ⟨same, both (by decide +kernel) (by decide +kernel), by decide +kernel⟩

/-- A template instead of none reveals five problems that were not reported. -/
theorem bodyReport_revealed
    : let environment : Environment := ⟨"dev", "all"⟩
      (retemplated none).SameBody (retemplated (some "slo.json")) environment
      ∧ (retemplated none).build environment
        = .error [.definition ⟨⟨"app", "slo", "availability"⟩, .ofText "app/slo.yaml", environment,
          none, "missing property `template`"⟩]
      ∧ (retemplated none).bodyReport environment = []
      ∧ ((retemplated (some "slo.json")).bodyReport environment).length = 5 := by
  intro environment
  refine ⟨⟨rfl, rfl, rfl, rfl⟩, build_of_no_template ?_, ?_, ?_⟩
  all_goals decide +kernel

end Expansion

end Rollout
