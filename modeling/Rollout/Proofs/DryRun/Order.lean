import Rollout.Proofs.DeploymentOrder
import Rollout.Proofs.DryRun.Store

/-!
A dry run gives the same in every valid order. Whichever it is, the store in the end solves the
equations that the configurations set up for each other, and these have one solution only.
-/

namespace Rollout

-----------------------------------------------------------------------------------------
-- Valid orders
-----------------------------------------------------------------------------------------

/-- An order of configurations in which each comes after those that its parameters refer to. -/
structure ValidOrder (configurations order : List Configuration) : Prop where
  perm : order.Perm configurations
  after : ∀ c ∈ configurations, ∀ d ∈ configurations, d.coordinate ∈ c.targets →
    [d, c].Sublist order

theorem ValidOrder.distinct {configurations order : List Configuration}
    (valid : ValidOrder configurations order)
    (distinct : (configurations.map Configuration.coordinate).Nodup)
    : (order.map Configuration.coordinate).Nodup :=
  (valid.perm.map Configuration.coordinate).nodup_iff.mpr distinct

/-- No configuration refers to itself or to one that comes later. -/
def ReferencesFirst : List Configuration → Prop
  | [] => True
  | c :: rest =>
      (∀ target ∈ c.targets, target ∉ (c :: rest).map Configuration.coordinate)
      ∧ ReferencesFirst rest

instance ReferencesFirst.decidable : DecidablePred ReferencesFirst
  | [] => isTrue trivial
  | c :: rest =>
      have := ReferencesFirst.decidable rest
      inferInstanceAs (Decidable ((∀ target ∈ c.targets,
        target ∉ (c :: rest).map Configuration.coordinate) ∧ ReferencesFirst rest))

/-- References come first in exactly the lists in which what a configuration refers to stands before
it; by induction on the list.
-/
theorem referencesFirst_iff {order : List Configuration}
    (distinct : (order.map Configuration.coordinate).Nodup)
    : ReferencesFirst order
      ↔ ∀ c ∈ order, ∀ d ∈ order, d.coordinate ∈ c.targets → [d, c].Sublist order := by
  induction order with
  | nil => simp [ReferencesFirst]
  | cons c rest ih =>
      obtain ⟨new, later⟩ := List.nodup_cons.mp distinct
      have absent : c ∉ rest := fun member => new (List.mem_map_of_mem member)
      rw [ReferencesFirst, ih later]
      constructor
      · rintro ⟨first, others⟩ a memberA b memberB refers
        rcases List.mem_cons.mp memberA with rfl | laterA
        · exact absurd (List.mem_map_of_mem memberB) (first b.coordinate refers)
        · rcases List.mem_cons.mp memberB with rfl | laterB
          · exact (List.singleton_sublist.mpr laterA).cons_cons b
          · exact (others a laterA b laterB refers).cons c
      · intro before
        refine ⟨fun target refers held => ?_, fun a memberA b memberB refers => ?_⟩
        · obtain ⟨d, member, rfl⟩ := List.mem_map.mp held
          exact absent (List.singleton_sublist.mp (before c (by simp) d member refers).tail)
        · cases before a (by simp [memberA]) b (by simp [memberB]) refers with
          | cons _ inside => exact inside
          | cons_cons _ _ => exact absurd memberB absent

theorem validOrder_iff {configurations order : List Configuration}
    (distinct : (configurations.map Configuration.coordinate).Nodup)
    : ValidOrder configurations order ↔ order.Perm configurations ∧ ReferencesFirst order := by
  have ordered (perm : order.Perm configurations) :=
    referencesFirst_iff ((perm.map Configuration.coordinate).nodup_iff.mpr distinct)
  constructor
  · rintro ⟨perm, after⟩
    refine ⟨perm, (ordered perm).mpr fun c memberC d memberD => ?_⟩
    exact after c (perm.subset memberC) d (perm.subset memberD)
  · rintro ⟨perm, first⟩
    refine ⟨perm, fun c memberC d memberD => ?_⟩
    exact (ordered perm).mp first c (perm.symm.subset memberC) d (perm.symm.subset memberD)

namespace DryRun

-----------------------------------------------------------------------------------------
-- The store as the solution of equations
-----------------------------------------------------------------------------------------

/-- The store holds what becomes of each configuration if it is resolved against this store itself,
and nothing else.
-/
structure Settled (run : DryRun) (configurations : List Configuration) : Prop where
  held : ∀ c ∈ configurations,
    run.resolved.get? c.coordinate = (run.outcome c).toOption.map ResolvedConfiguration.entity
  nothingElse : ∀ target, target ∉ configurations.map Configuration.coordinate →
    run.resolved.get? target = none

/-- The equations do not know an order. -/
theorem Settled.perm {run : DryRun} {order configurations : List Configuration}
    (settled : run.Settled order) (perm : order.Perm configurations)
    : run.Settled configurations where
  held c member := settled.held c (perm.symm.subset member)
  nothingElse target absent := settled.nothingElse target fun member =>
    absent ((perm.map Configuration.coordinate).subset member)

section Equations

variable {order : List Configuration}
variable (builtin : ∀ c ∈ order, ∀ parameter ∈ c.parameters.values, parameter.isBuiltin = true)
variable (first : ReferencesFirst order)

include builtin first

/-- Two stores that solve the equations hold the same if they do outside of them: each configuration
sees the same as those before it hold the same; by induction on a valid order.
-/
theorem get?_eq_of_held {left right : DryRun} (environment : left.environment = right.environment)
    (vars : left.vars = right.vars)
    (heldLeft : ∀ c ∈ order, left.resolved.get? c.coordinate
      = (left.outcome c).toOption.map ResolvedConfiguration.entity)
    (heldRight : ∀ c ∈ order, right.resolved.get? c.coordinate
      = (right.outcome c).toOption.map ResolvedConfiguration.entity)
    (outside : ∀ target, target ∉ order.map Configuration.coordinate →
      left.resolved.get? target = right.resolved.get? target)
    (target : Coordinate)
    : left.resolved.get? target = right.resolved.get? target := by
  induction order with
  | nil => exact outside target (by simp)
  | cons c rest ih =>
      obtain ⟨before, later⟩ := first
      simp only [List.forall_mem_cons] at builtin heldLeft heldRight
      have same : left.outcome c = right.outcome c :=
        outcome_congr environment vars builtin.1 fun t refers => outside t (before t refers)
      refine ih builtin.2 later heldLeft.2 heldRight.2 fun other absent => ?_
      rcases eq_or_ne other c.coordinate with rfl | different
      · rw [heldLeft.1, heldRight.1, same]
      · exact outside other (by simpa [different] using absent)

/-- Each configuration is resolved to what becomes of it in the end: what it sees is not touched by
itself or by a later one; by induction on the order.
-/
theorem fst_outcomes (distinct : (order.map Configuration.coordinate).Nodup) (run : DryRun)
    : (run.outcomes order).1 = order.map (run.outcomes order).2.outcome := by
  induction order generalizing run with
  | nil => rfl
  | cons c rest ih =>
      obtain ⟨before, later⟩ := first
      have same : run.outcome c = (run.outcomes (c :: rest)).2.outcome c := by
        refine outcome_congr (environment_outcomes run _).symm (vars_outcomes run _).symm
          (builtin c (by simp)) fun target refers => ?_
        rw [get?_outcomes distinct, finalOutcome_eq_none_iff.mpr (before target refers)]
        rfl
      rw [List.map_cons, ← same]
      refine congrArg₂ List.cons (fst_resolveOne run c) ?_
      exact ih (fun d member => builtin d (by simp [member])) later distinct.of_cons _

theorem finalOutcome_of_first (distinct : (order.map Configuration.coordinate).Nodup) (run : DryRun)
    {c : Configuration} (member : c ∈ order)
    : run.finalOutcome order c.coordinate = some ((run.outcomes order).2.outcome c) := by
  rw [finalOutcome, fst_outcomes builtin first distinct, ← List.map_prod_left_eq_zip,
    List.find?_map, Option.map_map]
  exact congrArg (Option.map (run.outcomes order).2.outcome) (find?_coordinate distinct member)

/-- A run that starts with an empty store solves the equations. -/
theorem settled_outcomes (distinct : (order.map Configuration.coordinate).Nodup)
    (environment : String) (vars : Variables)
    : ((DryRun.new environment vars).outcomes order).2.Settled order where
  held c member := by
    rw [get?_outcomes distinct, finalOutcome_of_first builtin first distinct _ member]
    simp [DryRun.new, EntityStore.get?, EntityStore.empty]
  nothingElse target absent := by
    rw [get?_outcomes distinct, finalOutcome_eq_none_iff.mpr absent]
    rfl

end Equations

-----------------------------------------------------------------------------------------
-- Independence of the order
-----------------------------------------------------------------------------------------

section ValidOrders

variable {configurations : List Configuration}
variable (distinct : (configurations.map Configuration.coordinate).Nodup)
variable (builtin : ∀ c ∈ configurations, ∀ parameter ∈ c.parameters.values,
  parameter.isBuiltin = true)

include distinct builtin

/-- In a valid order a run solves the equations and gives each configuration its outcome by them. -/
theorem settled_of_valid {order : List Configuration} (valid : ValidOrder configurations order)
    (environment : String) (vars : Variables)
    : let run := DryRun.new environment vars
      (run.outcomes order).2.Settled configurations
      ∧ (run.outcomes order).1 = order.map (run.outcomes order).2.outcome := by
  obtain ⟨perm, first⟩ := (validOrder_iff distinct).mp valid
  have kinds : ∀ c ∈ order, ∀ parameter ∈ c.parameters.values, parameter.isBuiltin = true :=
    fun c member => builtin c (perm.subset member)
  have apart := valid.distinct distinct
  exact ⟨(settled_outcomes kinds first apart environment vars).perm perm,
    fst_outcomes kinds first apart _⟩

/-- If there is a valid order, the equations have at most one solution. -/
theorem Settled.unique {order : List Configuration} (valid : ValidOrder configurations order)
    {left right : DryRun} (environment : left.environment = right.environment)
    (vars : left.vars = right.vars) (settledLeft : left.Settled configurations)
    (settledRight : right.Settled configurations)
    : left = right := by
  obtain ⟨perm, first⟩ := (validOrder_iff distinct).mp valid
  have kinds : ∀ c ∈ order, ∀ parameter ∈ c.parameters.values, parameter.isBuiltin = true :=
    fun c member => builtin c (perm.subset member)
  have turnedLeft := settledLeft.perm perm.symm
  have turnedRight := settledRight.perm perm.symm
  have same := get?_eq_of_held kinds first environment vars turnedLeft.held turnedRight.held
    fun target absent =>
      (turnedLeft.nothingElse target absent).trans (turnedRight.nothingElse target absent).symm
  obtain ⟨_, _, ⟨entities⟩⟩ := left
  obtain ⟨_, _, ⟨others⟩⟩ := right
  obtain rfl : entities = others := SortedMap.ext_get? same
  cases environment
  cases vars
  rfl

end ValidOrders

/-- In all valid orders of configurations with parameters of built-in kinds a dry run ends with the
same store, every configuration has the outcome that this store gives it, and the runs both succeed
or both fail, with the same values or errors up to their order.
-/
theorem resolve_order_independent (environment : String) (vars : Variables)
    {configurations first second : List Configuration}
    (distinct : (configurations.map Configuration.coordinate).Nodup)
    (builtin : ∀ c ∈ configurations, ∀ parameter ∈ c.parameters.values, parameter.isBuiltin = true)
    (validFirst : ValidOrder configurations first) (validSecond : ValidOrder configurations second)
    : let run := DryRun.new environment vars
      let final := (run.resolve first).2
      (run.resolve second).2 = final
      ∧ (run.outcomes first).1 = first.map final.outcome
      ∧ (run.outcomes second).1 = second.map final.outcome
      ∧ Batch.Reordered (run.resolve first).1 (run.resolve second).1 := by
  intro run final
  obtain ⟨settledFirst, outcomesFirst⟩ :=
    settled_of_valid distinct builtin validFirst environment vars
  obtain ⟨settledSecond, outcomesSecond⟩ :=
    settled_of_valid distinct builtin validSecond environment vars
  have same : (run.outcomes second).2 = final := by
    refine Settled.unique distinct builtin validFirst ?_ ?_ settledSecond settledFirst
    · exact (environment_outcomes run second).trans (environment_outcomes run first).symm
    · exact (vars_outcomes run second).trans (vars_outcomes run first).symm
  rw [same] at outcomesSecond
  refine ⟨same, outcomesFirst, outcomesSecond, ?_⟩
  rw [fst_resolve, fst_resolve, outcomesFirst, outcomesSecond]
  have perm : first.Perm second := validFirst.perm.trans validSecond.perm.symm
  exact Batch.reordered_collect (perm.map final.outcome)

/-- A dashboard whose references are those of its parameters. -/
def dashboard (configId : String) (skip : Bool) (parameters : List (String × Parameter))
    : Configuration where
  template := ⟨"dashboard.json", "\x7b\x7d"⟩
  coordinate := ⟨"app", "dashboard", configId⟩
  group := "all"
  environment := "dev"
  parameters := .ofList parameters
  references := parameters.flatMap fun e => e.2.targets
  skip

/-- A parameter that refers to a property of a dashboard. -/
def shown (configId property : String) : Parameter :=
  .reference ⟨⟨"app", "dashboard", configId⟩, property⟩

/-- A dashboard that refers to one that refers to a skipped one. -/
def overview : Configuration :=
  dashboard "overview" false [("part", shown "service" "id")]

/-- All three of them. -/
def hidden : List Configuration :=
  [dashboard "latency" true [],
    dashboard "service" false [("part", shown "latency" "id")], overview]

/-- A dashboard owned by whom a variable says, and one that refers to its owner and to a dashboard
that is not there.
-/
def owned : List Configuration :=
  [dashboard "costs" false [("owner", .environment "OWNER" (some "nobody"))],
    dashboard "report" false [("owner", shown "costs" "owner"), ("trend", shown "trend" "id")]]

/-- Two groups of dashboards are resolved alike, whichever comes first. -/
theorem resolve_order_independent_dashboards
    : let vars : Variables := fun name => if name = "OWNER" then some "platform" else none
      let run := DryRun.new "dev" vars
      (run.resolve (owned ++ hidden)).2 = (run.resolve (hidden ++ owned)).2
      ∧ ∃ errors others,
          (run.resolve (hidden ++ owned)).1 = .error errors
          ∧ (run.resolve (owned ++ hidden)).1 = .error others
          ∧ errors.Perm others ∧ errors ≠ others := by
  intro vars run
  have distinct : ((hidden ++ owned).map Configuration.coordinate).Nodup := by decide +kernel
  have builtin : ∀ c ∈ hidden ++ owned, ∀ parameter ∈ c.parameters.values,
      parameter.isBuiltin = true := by
    decide +kernel
  have valid : ValidOrder (hidden ++ owned) (hidden ++ owned) :=
    (validOrder_iff distinct).mpr ⟨.refl _, by decide +kernel⟩
  have turned : ValidOrder (hidden ++ owned) (owned ++ hidden) :=
    (validOrder_iff distinct).mpr ⟨List.perm_append_comm, by decide +kernel⟩
  obtain ⟨same, _, _, reordered⟩ :=
    resolve_order_independent "dev" vars distinct builtin valid turned
  refine ⟨same, ?_⟩
  have apart : Batch.errorsOf (run.resolve (hidden ++ owned)).1
      ≠ Batch.errorsOf (run.resolve (owned ++ hidden)).1 := by
    decide +kernel
  generalize (run.resolve (hidden ++ owned)).1 = result at reordered apart ⊢
  generalize (run.resolve (owned ++ hidden)).1 = other at reordered apart ⊢
  cases reordered with
  | ok => exact absurd rfl apart
  | error perm => exact ⟨_, _, rfl, rfl, perm, apart⟩

end DryRun

end Rollout
