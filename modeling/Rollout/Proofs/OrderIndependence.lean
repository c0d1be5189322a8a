import Rollout.Proofs.DeploymentOrder

/-!
What the order of configurations does not depend on: the order in which they are given, the order in
which their references are gone through, and every configuration whose coordinate
an earlier one has.
-/

namespace Rollout

-----------------------------------------------------------------------------------------
-- The first of each coordinate
-----------------------------------------------------------------------------------------

/-- Where coordinates differ, what is found by one is what has it. -/
theorem find?_coordinate_eq_some_iff {configurations : List Configuration}
    (unique : (configurations.map Configuration.coordinate).Nodup) {coordinate : Coordinate}
    {c : Configuration}
    : configurations.find? (fun d => d.coordinate = coordinate) = some c
      ↔ c ∈ configurations ∧ c.coordinate = coordinate := by
  constructor
  · intro found
    exact ⟨List.mem_of_find?_eq_some found, by simpa using List.find?_some found⟩
  · rintro ⟨member, rfl⟩
    exact find?_coordinate unique member

/-- Configurations are found by their coordinates in whatever order they stand. -/
theorem find?_coordinate_perm {configurations other : List Configuration}
    (unique : (configurations.map Configuration.coordinate).Nodup)
    (perm : other.Perm configurations) (coordinate : Coordinate)
    : other.find? (fun c => c.coordinate = coordinate)
      = configurations.find? (fun c => c.coordinate = coordinate) := by
  have turned := (perm.map Configuration.coordinate).nodup_iff.mpr unique
  apply Option.ext
  intro c
  rw [find?_coordinate_eq_some_iff unique, find?_coordinate_eq_some_iff turned, perm.mem_iff]

/-- No two configurations that are kept share a coordinate. -/
theorem nodup_firstOccurrences (configurations : List Configuration)
    : ((firstOccurrences configurations).map Configuration.coordinate).Nodup := by
  induction configurations with
  | nil => exact .nil
  | cons c rest ih =>
      rw [firstOccurrences, List.map_cons, List.nodup_cons]
      refine ⟨fun again => ?_, ih.sublist (List.filter_sublist.map _)⟩
      obtain ⟨d, kept, same⟩ := List.mem_map.mp again
      exact of_decide_eq_true (List.mem_filter.mp kept).2 same

/-- Leaving coordinates out before or after duplicates are left out is the same; by induction on the
configurations.
-/
theorem firstOccurrences_filter (keep : Coordinate → Bool) (configurations : List Configuration)
    : (firstOccurrences configurations).filter (fun c => keep c.coordinate)
      = firstOccurrences (configurations.filter fun c => keep c.coordinate) := by
  induction configurations with
  | nil => rfl
  | cons c rest ih =>
      cases kept : keep c.coordinate with
      | true =>
          simp only [firstOccurrences, List.filter_cons, kept, if_true, ← ih]
          rw [List.filter_comm]
      | false =>
          simp only [firstOccurrences, List.filter_cons, kept, Bool.false_eq_true, if_false, ← ih]
          rw [List.filter_filter]
          -- What is kept has another coordinate than `c` anyway.
          refine List.filter_congr fun d _ => ?_
          cases keptD : keep d.coordinate with
          | false => rfl
          | true =>
              have different : d.coordinate ≠ c.coordinate := fun same => by
                simp [same, kept] at keptD
              simp [different]

/-- A configuration whose coordinate an earlier one has is left out; by induction
on those before it.
-/
theorem firstOccurrences_duplicate {earlier later : List Configuration} {c : Configuration}
    (duplicate : c.coordinate ∈ earlier.map Configuration.coordinate)
    : firstOccurrences (earlier ++ c :: later) = firstOccurrences (earlier ++ later) := by
  induction earlier with
  | nil => cases duplicate
  | cons head rest ih =>
      simp only [List.cons_append, firstOccurrences]
      congr 1
      by_cases same : c.coordinate = head.coordinate
      · have leave (configurations : List Configuration) := firstOccurrences_filter
          (fun coordinate => coordinate ≠ head.coordinate) configurations
        simp only [leave, List.filter_append]
        rw [List.filter_cons_of_neg (by simp [same])]
      · rw [List.map_cons, List.mem_cons, or_iff_right same] at duplicate
        rw [ih duplicate]

-----------------------------------------------------------------------------------------
-- Configurations in any order
-----------------------------------------------------------------------------------------

/-- Puts configurations in order while their references are gone through in the order of `sources`,
which are the configurations that count.
-/
def orderThrough (environment : String) (configurations sources : List Configuration)
    : OrderedConfigurations :=
  let kept := firstOccurrences configurations
  let sorted := (referenceGraph kept sources).sort
  { environment
    order := sorted.order.filterMap fun coordinate =>
      kept.find? fun c => c.coordinate = coordinate
    errors := sorted.cycles.map fun member =>
      .configurationCycle environment member.node member.dependsOn }

theorem orderConfigurations_eq (environment : String) (configurations : List Configuration)
    : orderConfigurations environment configurations
      = orderThrough environment configurations (firstOccurrences configurations) :=
  rfl

/-- References may be gone through in any order. -/
theorem orderThrough_perm (environment : String) {configurations sources : List Configuration}
    (perm : sources.Perm (firstOccurrences configurations))
    : orderThrough environment configurations sources
      = orderConfigurations environment configurations := by
  rw [orderConfigurations_eq, orderThrough, referenceGraph_perm .rfl perm]
  rfl

/-- Configurations with different coordinates may be given in any order. -/
theorem orderConfigurations_of_perm (environment : String)
    {configurations other : List Configuration}
    (unique : (configurations.map Configuration.coordinate).Nodup)
    (perm : other.Perm configurations)
    : orderConfigurations environment other = orderConfigurations environment configurations := by
  have turned := (perm.map Configuration.coordinate).nodup_iff.mpr unique
  simp only [orderConfigurations, firstOccurrences_eq_self unique, firstOccurrences_eq_self turned,
    referenceGraph_perm perm perm, find?_coordinate_perm unique perm]

/-- Only the configurations that are kept have an influence on the order. -/
theorem orderConfigurations_congr (environment : String) {configurations other : List Configuration}
    (same : firstOccurrences other = firstOccurrences configurations)
    : orderConfigurations environment other = orderConfigurations environment configurations := by
  simp only [orderConfigurations, same]

/-- The order of configurations and what is reported depend on nothing but the configurations that
count. Where coordinates differ, neither the order in which configurations are given nor the one in
which their references are gone through makes a difference. In general the first configuration of
each coordinate counts, and a later one may be left out wherever it stands.
-/
theorem orderConfigurations_input_independent (environment : String)
    : (∀ configurations other sources : List Configuration,
          (configurations.map Configuration.coordinate).Nodup → other.Perm configurations →
            sources.Perm other →
              orderThrough environment other sources
                = orderConfigurations environment configurations)
      ∧ (∀ configurations sources : List Configuration,
          sources.Perm (firstOccurrences configurations) →
            orderThrough environment configurations sources
              = orderConfigurations environment configurations)
      ∧ (∀ configurations : List Configuration,
          orderConfigurations environment configurations
            = orderConfigurations environment (firstOccurrences configurations))
      ∧ ∀ (earlier later : List Configuration) (c : Configuration),
          c.coordinate ∈ earlier.map Configuration.coordinate →
            orderConfigurations environment (earlier ++ c :: later)
              = orderConfigurations environment (earlier ++ later) := by
  refine ⟨?_, ?_, ?_, ?_⟩
  · intro configurations other sources unique perm visited
    have turned := (perm.map Configuration.coordinate).nodup_iff.mpr unique
    rw [← firstOccurrences_eq_self turned] at visited
    rw [orderThrough_perm environment visited, orderConfigurations_of_perm environment unique perm]
  · exact fun _ _ visited => orderThrough_perm environment visited
  · intro configurations
    have once := firstOccurrences_eq_self (nodup_firstOccurrences configurations)
    exact orderConfigurations_congr environment once.symm
  · intro earlier later c duplicate
    exact orderConfigurations_congr environment (firstOccurrences_duplicate duplicate)

/-- A configuration that refers to others of its project. -/
def referring (configId : String) (others : List String) : Configuration where
  template := ⟨"board.json", ""⟩
  coordinate := ⟨"app", "dashboard", configId⟩
  group := "all"
  environment := "dev"
  parameters := .empty
  references := others.map (⟨"app", "dashboard", ·⟩)
  skip := false

/-- A configuration that refers to another, and two that refer to each other. -/
def boards : List Configuration :=
  [referring "overview" ["latency"], referring "latency" [], referring "first" ["second"],
    referring "second" ["first"]]

/-- Turning the list or the references around changes nothing, and neither does a second
configuration that would close a cycle if its reference counted.
-/
theorem orderConfigurations_boards
    : let closing := referring "latency" ["overview"]
      orderThrough "dev" boards.reverse boards = orderConfigurations "dev" boards
      ∧ orderThrough "dev" (boards ++ [closing]) boards.reverse = orderConfigurations "dev" boards
      ∧ ((orderConfigurations "dev" boards).order.map fun c => c.coordinate.configId)
          = ["latency", "overview"]
      ∧ (orderConfigurations "dev" boards).errors.length = 2 := by
  intro closing
  obtain ⟨turned, visited, _, duplicate⟩ := orderConfigurations_input_independent "dev"
  have distinct : (boards.map Configuration.coordinate).Nodup := by decide +kernel
  have again : closing.coordinate ∈ boards.map Configuration.coordinate := by decide +kernel
  have kept : firstOccurrences (boards ++ [closing]) = boards := by
    rw [firstOccurrences_duplicate again, List.append_nil, firstOccurrences_eq_self distinct]
  refine ⟨?_, ?_, by decide +kernel, by decide +kernel⟩
  · exact turned boards boards.reverse boards distinct (List.reverse_perm _)
      (List.reverse_perm _).symm
  · rw [visited (boards ++ [closing]) boards.reverse (kept ▸ List.reverse_perm _),
      duplicate boards [] closing again, List.append_nil]

end Rollout
