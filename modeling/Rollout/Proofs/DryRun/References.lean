import Rollout.Proofs.DryRun.Order

/-!
What a reference comes to. In the order of deployment a configuration sees of those it refers to
what finally becomes of them, so a failure or a skip reaches everything that depends on it.
-/

namespace Rollout

/-- What a reference comes to, told by what finally becomes of the configuration that it points at,
if there is one.
-/
def ParameterReference.verdict (reference : ParameterReference)
    : Option (Except (List ResolutionError) ResolvedConfiguration) → Except ParameterError Value
  | none | some (.error _) =>
      .error (.unresolvedReference reference.target reference.property
        "configuration has not been resolved")
  | some (.ok entry) =>
      if entry.skip then
        .error (.unresolvedReference reference.target reference.property "configuration is skipped")
      else
        match entry.properties.get? reference.property with
        | some value => .ok value
        | none =>
            .error (.unresolvedReference reference.target reference.property
              "property does not exist")

/-- A store that holds what finally becomes of a configuration gives the verdict on a reference. -/
theorem Parameter.lookup_eq_verdict {store : EntityStore} {reference : ParameterReference}
    {final : Option (Except (List ResolutionError) ResolvedConfiguration)}
    (held : store.get? reference.target
      = (final.bind Except.toOption).map ResolvedConfiguration.entity)
    : lookup store reference = reference.verdict final := by
  rw [lookup, held]
  cases final with
  | none => rfl
  | some result =>
      cases result with
      | error errors => rfl
      | ok entry =>
          simp only [Option.bind_some, Except.toOption, Option.map_some,
            ResolvedConfiguration.entity, ParameterReference.verdict]
          cases entry.properties.get? reference.property <;> rfl

/-- Without an error the order of deployment is valid, if the configurations know
what they refer to.
-/
theorem validOrder_orderConfigurations {label : String} {configurations : List Configuration}
    (distinct : (configurations.map Configuration.coordinate).Nodup)
    (complete : ∀ c ∈ configurations, ∀ target ∈ c.targets, target ∈ c.references)
    (ordered : (orderConfigurations label configurations).errors = [])
    : ValidOrder configurations (orderConfigurations label configurations).order where
  perm := orderConfigurations_perm distinct ordered
  after c memberC d memberD refers :=
    orderConfigurations_before distinct ordered memberC memberD
      (complete c memberC d.coordinate refers)

/-- A configuration refers neither to itself nor to one that comes after it. -/
theorem ReferencesFirst.not_mem_of_append {c : Configuration} {before after : List Configuration}
    (first : ReferencesFirst (before ++ c :: after)) {target : Coordinate}
    (refers : target ∈ c.targets)
    : target ∉ (c :: after).map Configuration.coordinate := by
  induction before with
  | nil => exact first.1 target refers
  | cons _ rest ih => exact ih first.2

namespace DryRun

variable {c : Configuration} {before after : List Configuration}

theorem resolveParameter_reference (run : DryRun) (c : Configuration) (name : String)
    (reference : ParameterReference)
    : run.resolveParameter c name (.reference reference)
      = (Parameter.lookup run.resolved reference).mapError
          (⟨c.coordinate, run.environment, name, ·⟩) := by
  rw [resolveParameter, Parameter.resolve]
  cases Parameter.lookup run.resolved reference <;> rfl

/-- When its turn comes, a configuration finally becomes what the run makes of it then. -/
theorem finalOutcome_of_turn (run : DryRun)
    (distinct : ((before ++ c :: after).map Configuration.coordinate).Nodup)
    : run.finalOutcome (before ++ c :: after) c.coordinate
      = some ((run.outcomes before).2.outcome c) := by
  rw [List.map_append, List.map_cons] at distinct
  have new : c.coordinate ∉ before.map Configuration.coordinate := fun member =>
    (List.nodup_append.mp distinct).2.2 _ member _ (by simp) rfl
  rw [finalOutcome_append, finalOutcome_eq_none_iff.mpr new, finalOutcome_cons]
  simp

/-- When its turn comes, a configuration sees what finally becomes of those it refers to. -/
theorem get?_of_turn (environment : String) (vars : Variables)
    (distinct : ((before ++ c :: after).map Configuration.coordinate).Nodup)
    (first : ReferencesFirst (before ++ c :: after)) {target : Coordinate}
    (refers : target ∈ c.targets)
    : let run := DryRun.new environment vars
      (run.outcomes before).2.resolved.get? target
      = ((run.finalOutcome (before ++ c :: after) target).bind Except.toOption).map
          ResolvedConfiguration.entity := by
  intro run
  have early : (before.map Configuration.coordinate).Nodup :=
    distinct.sublist ((List.sublist_append_left before _).map _)
  rw [finalOutcome_append, finalOutcome_eq_none_iff.mpr (first.not_mem_of_append refers),
    Option.or_none, get?_outcomes early]
  exact Option.or_none

/-- A dry run in the order of deployment decides every reference of a configuration that is not
skipped by what finally becomes of the configuration it points at. All configurations have a final
outcome, and each has the one that follows from its parameters: it fails exactly
if one of them does.
-/
theorem references_decided (label environment : String) (vars : Variables)
    {configurations : List Configuration}
    (distinct : (configurations.map Configuration.coordinate).Nodup)
    (complete : ∀ c ∈ configurations, ∀ target ∈ c.targets, target ∈ c.references)
    (ordered : (orderConfigurations label configurations).errors = [])
    : let run := DryRun.new environment vars
      let order := (orderConfigurations label configurations).order
      order.Perm configurations
      ∧ (∀ target, run.finalOutcome order target = none
          ↔ target ∉ configurations.map Configuration.coordinate)
      ∧ ∀ before c after, order = before ++ c :: after →
          let reached := (run.outcomes before).2
          run.finalOutcome order c.coordinate = some (reached.outcome c)
          ∧ reached.Follows c (reached.outcome c)
          ∧ ∀ name reference, c.parameters.get? name = some (.reference reference) →
              reached.resolveParameter c name (.reference reference)
              = (reference.verdict (run.finalOutcome order reference.target)).mapError
                  (⟨c.coordinate, environment, name, ·⟩) := by
  intro run order
  have valid : ValidOrder configurations order :=
    validOrder_orderConfigurations distinct complete ordered
  obtain ⟨perm, first⟩ := (validOrder_iff distinct).mp valid
  have apart := valid.distinct distinct
  refine ⟨perm, fun target => ?_, fun before c after split => ?_⟩
  · rw [finalOutcome_eq_none_iff, (perm.map Configuration.coordinate).mem_iff]
  · intro reached
    rw [split] at apart first ⊢
    refine ⟨finalOutcome_of_turn run apart, reached.follows_outcome c, ?_⟩
    intro name reference held
    have refers : reference.target ∈ c.targets := Configuration.mem_targets.mpr
      ⟨name, _, held, by simp [Parameter.targets, Parameter.references]⟩
    have seen := get?_of_turn environment vars apart first refers
    have here : reached.environment = environment := environment_outcomes run before
    rw [resolveParameter_reference, Parameter.lookup_eq_verdict seen, here]

/-- Of three dashboards the first is skipped, so the second fails; the third then fails as well,
since the second is not there to be referred to.
-/
theorem references_decided_overview
    : let run := DryRun.new "dev" fun _ => none
      let service : ParameterReference := ⟨⟨"app", "dashboard", "service"⟩, "id"⟩
      ∃ before after,
        (orderConfigurations "dev" hidden.reverse).order = before ++ overview :: after
        ∧ (run.outcomes before).2.resolveParameter overview "part" (.reference service)
          = .error ⟨overview.coordinate, "dev", "part",
              .unresolvedReference service.target "id" "configuration has not been resolved"⟩ := by
  intro run service
  have distinct : (hidden.reverse.map Configuration.coordinate).Nodup := by decide +kernel
  have complete : ∀ c ∈ hidden.reverse, ∀ target ∈ c.targets, target ∈ c.references := by
    decide +kernel
  have ordered : (orderConfigurations "dev" hidden.reverse).errors = [] := by decide +kernel
  obtain ⟨perm, _, decided⟩ :=
    references_decided "dev" "dev" (fun _ => none) distinct complete ordered
  have failed : (run.finalOutcome (orderConfigurations "dev" hidden.reverse).order
      service.target).any (·.toOption.isNone) = true := by
    decide +kernel
  have member : overview ∈ (orderConfigurations "dev" hidden.reverse).order :=
    perm.symm.subset (by simp [hidden])
  obtain ⟨before, after, split⟩ := List.append_of_mem member
  refine ⟨before, after, split, ?_⟩
  rw [(decided before overview after split).2.2 "part" service rfl]
  obtain ⟨result, final, none⟩ := (Option.any_eq_true _ _).mp failed
  rw [final]
  cases result with
  | ok entry => cases none
  | error errors => rfl

end DryRun

end Rollout
