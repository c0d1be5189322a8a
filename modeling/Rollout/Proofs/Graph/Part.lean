import Rollout.Proofs.Graph.Least

/-!
Sorting a part of a graph that no dependency leaves. What its nodes lead to and which cycles they
lie on is decided within the part, so it is sorted as it is sorted within the whole graph.
-/

namespace Rollout.Graph

open Relation

universe u

variable {κ : Type u} [Ord κ] {part graph : Graph κ}

/-- Some nodes of a graph with all that they depend on. -/
structure IsPart (part graph : Graph κ) : Prop where
  nodes : ∀ node ∈ part.nodes.keys, node ∈ graph.nodes.keys
  depends : ∀ source ∈ part.nodes.keys, ∀ target,
    part.DependsOn source target ↔ graph.DependsOn source target

namespace IsPart

variable (isPart : part.IsPart graph)

include isPart

theorem mono {source target : κ} (depends : part.DependsOn source target)
    : graph.DependsOn source target :=
  (isPart.depends source depends.1 target).mp depends

/-- A dependency that starts in the part is one of the part, and stays in it. -/
theorem exists_dependsOn (source target other : κ)
    (start : source = other ∧ source ∈ part.nodes.keys) (depends : graph.DependsOn source target)
    : ∃ next, (target = next ∧ target ∈ part.nodes.keys) ∧ part.DependsOn other next := by
  obtain ⟨rfl, inside⟩ := start
  have within := (isPart.depends source inside target).mpr depends
  exact ⟨target, ⟨rfl, within.2.1⟩, within⟩

theorem reflTransGen_iff {node other : κ} (inside : node ∈ part.nodes.keys)
    : ReflTransGen part.DependsOn node other ↔ ReflTransGen graph.DependsOn node other := by
  refine ⟨fun path => path.lift id fun _ _ => isPart.mono, fun path => ?_⟩
  obtain ⟨_, ⟨rfl, _⟩, within⟩ := reflTransGen_image isPart.exists_dependsOn ⟨rfl, inside⟩ path
  exact within

theorem transGen_iff {node other : κ} (inside : node ∈ part.nodes.keys)
    : TransGen part.DependsOn node other ↔ TransGen graph.DependsOn node other := by
  refine ⟨fun path => path.lift id fun _ _ => isPart.mono, fun path => ?_⟩
  obtain ⟨_, ⟨rfl, _⟩, within⟩ := transGen_image isPart.exists_dependsOn ⟨rfl, inside⟩ path
  exact within

/-- What leads back to a node of the part lies in the part as well. -/
theorem mutual_iff {node other : κ} (inside : node ∈ part.nodes.keys)
    : Mutual part.DependsOn node other ↔ Mutual graph.DependsOn node other := by
  constructor
  · rintro ⟨forth, back⟩
    exact ⟨forth.lift id fun _ _ => isPart.mono, back.lift id fun _ _ => isPart.mono⟩
  · intro joined
    obtain ⟨_, ⟨rfl, reached⟩, forth⟩ :=
      reflTransGen_image isPart.exists_dependsOn ⟨rfl, inside⟩ joined.1
    exact ⟨forth, (isPart.reflTransGen_iff reached).mpr joined.2⟩

theorem offCycles_iff {node : κ} (inside : node ∈ part.nodes.keys)
    : part.OffCycles node ↔ graph.OffCycles node := by
  rw [OffCycles, OffCycles, isPart.transGen_iff inside]
  exact and_congr_left' (iff_of_true inside (isPart.nodes node inside))

/-- Whether a node of the part is ready depends only on what came before in the part. -/
theorem ready_iff {earlier before : List κ} {node : κ} (inside : node ∈ part.nodes.keys)
    (same : ∀ other ∈ part.nodes.keys, other ∈ before ↔ other ∈ earlier)
    : part.Ready before node ↔ graph.Ready earlier node := by
  constructor
  · intro ready
    refine ⟨(isPart.offCycles_iff inside).mp ready.free, mt (same node inside).mpr ready.absent, ?_⟩
    intro target depends free
    have within := (isPart.depends node inside target).mpr depends
    have reached := within.2.1
    exact (same target reached).mp
      (ready.after target within ((isPart.offCycles_iff reached).mpr free))
  · intro ready
    refine ⟨(isPart.offCycles_iff inside).mpr ready.free, mt (same node inside).mp ready.absent, ?_⟩
    intro target depends free
    have reached := depends.2.1
    exact (same target reached).mpr
      (ready.after target (isPart.mono depends) ((isPart.offCycles_iff reached).mp free))

end IsPart

/-- What is to be reported of a node: it lies on a cycle and leads to the others listed, in
ascending order, which lead back to it; to itself only by an edge of its own.
-/
structure Reports (graph : Graph κ) (member : CycleMember κ) : Prop where
  cycle : TransGen graph.DependsOn member.node member.node
  ascending : member.dependsOn.Pairwise fun a b => compare a b = .lt
  listed : ∀ node, node ∈ member.dependsOn
    ↔ Mutual graph.DependsOn member.node node
      ∧ (node = member.node → graph.DependsOn node node)

/-- What is to be reported of a node of the part is what is to be reported of it in the whole graph.
-/
theorem IsPart.reports_iff (isPart : part.IsPart graph) {member : CycleMember κ}
    : part.Reports member ↔ graph.Reports member ∧ member.node ∈ part.nodes.keys := by
  -- Within the part both graphs ask for the same.
  have listed (inside : member.node ∈ part.nodes.keys) (node : κ)
      : Mutual part.DependsOn member.node node ∧ (node = member.node → part.DependsOn node node)
        ↔ Mutual graph.DependsOn member.node node
          ∧ (node = member.node → graph.DependsOn node node) := by
    rw [isPart.mutual_iff inside]
    refine and_congr_right fun _ => imp_congr_right fun same => ?_
    subst same
    exact isPart.depends _ inside _
  constructor
  · intro reports
    obtain ⟨_, first, _⟩ := TransGen.head'_iff.mp reports.cycle
    have inside := first.1
    refine ⟨⟨(isPart.transGen_iff inside).mp reports.cycle, reports.ascending, ?_⟩, inside⟩
    exact fun node => (reports.listed node).trans (listed inside node)
  · rintro ⟨reports, inside⟩
    refine ⟨(isPart.transGen_iff inside).mpr reports.cycle, reports.ascending, ?_⟩
    exact fun node => (reports.listed node).trans (listed inside node).symm

variable [Std.LawfulEqOrd κ] [Std.TransOrd κ]

-----------------------------------------------------------------------------------------
-- The order of a part
-----------------------------------------------------------------------------------------

theorem contains_iff {node : κ} : graph.contains node = true ↔ node ∈ graph.nodes.keys :=
  SortedMap.contains_iff

/-- The order of the whole graph, cut down to a part, respects the dependencies of the part. -/
theorem IsPart.dependencyOrder (isPart : part.IsPart graph)
    : part.DependencyOrder (graph.sort.order.filter part.contains) where
  nodup := (sort_order_nodup graph).filter _
  mem_iff node := by
    rw [List.mem_filter, contains_iff, (dependencyOrder_sort graph).mem_iff]
    constructor
    · rintro ⟨free, inside⟩
      exact (isPart.offCycles_iff inside).mpr free
    · exact fun free => ⟨(isPart.offCycles_iff free.1).mp free, free.1⟩
  before source memberSource target memberTarget depends := by
    have before := (dependencyOrder_sort graph).before source (List.mem_of_mem_filter memberSource)
      target (List.mem_of_mem_filter memberTarget) (isPart.mono depends)
    have kept := before.filter part.contains
    rwa [List.filter_eq_self.mpr] at kept
    simp [contains_iff, depends.1, depends.2.1]

/-- Each of its nodes is still the least of those that are ready at its turn: in the part no others
are ready than in the whole graph.
-/
theorem IsPart.leastReady (isPart : part.IsPart graph)
    : AtEachTurn part.LeastReady (graph.sort.order.filter part.contains) := by
  intro before node after split
  refine ⟨isPart.dependencyOrder.ready before node after split, fun other ready => ?_⟩
  obtain ⟨earlier, rest, order, rfl, cut⟩ := List.filter_eq_append_iff.mp split
  obtain ⟨skipped, later, rfl, outside, inside, _⟩ := List.filter_eq_cons_iff.mp cut
  have turn : graph.sort.order = (earlier ++ skipped) ++ node :: later := by
    rw [order, List.append_assoc]
  refine (leastReady_sort graph _ node later turn).least other ?_
  refine (isPart.ready_iff ready.free.1 fun known member => ?_).mp ready
  have absent : known ∉ skipped := fun passed => outside known passed (contains_iff.mpr member)
  simp [contains_iff, member, absent]

theorem IsPart.sort_order (isPart : part.IsPart graph)
    : part.sort.order = graph.sort.order.filter part.contains :=
  (eq_sort_order isPart.dependencyOrder isPart.leastReady).symm

-----------------------------------------------------------------------------------------
-- The cycles of a part
-----------------------------------------------------------------------------------------

/-- Lists in ascending order of their keys are told apart by their members. -/
theorem eq_of_ascending_keys {α : Type*} (key : α → κ) {left right : List α}
    (ascendingLeft : left.Pairwise fun a b => compare (key a) (key b) = .lt)
    (ascendingRight : right.Pairwise fun a b => compare (key a) (key b) = .lt)
    (same : ∀ a, a ∈ left ↔ a ∈ right)
    : left = right := by
  have once {list : List α} (ascending : list.Pairwise fun a b => compare (key a) (key b) = .lt)
      : list.Nodup :=
    ascending.imp fun less same => by
      subst same
      simp at less
  have perm := (List.perm_ext_iff_of_nodup (once ascendingLeft) (once ascendingRight)).mpr same
  refine perm.eq_of_pairwise (fun a b _ _ less greater => ?_) ascendingLeft ascendingRight
  simpa using Std.TransCmp.lt_trans less greater

theorem reports_of_mem {member : CycleMember κ} (reported : member ∈ graph.sort.cycles)
    : graph.Reports member := by
  obtain ⟨ascending, listed⟩ := sort_cycles_dependsOn reported
  obtain ⟨known, cycle⟩ := mem_sort_cycles_iff.mp (List.mem_map_of_mem reported)
  refine ⟨cycle, ascending, fun node => (listed node).trans ?_⟩
  constructor
  · rintro ⟨inside, joined, loop⟩
    exact ⟨joined, fun same => ⟨inside, inside, loop same⟩⟩
  · rintro ⟨joined, loop⟩
    refine ⟨?_, joined, fun same => (loop same).2.2⟩
    exact reflTransGen_of_closed (fun _ _ _ depends => depends.2.1) known joined.1

/-- Exactly what is to be reported is reported, since nothing else is to be said of a node. -/
theorem mem_sort_cycles {member : CycleMember κ}
    : member ∈ graph.sort.cycles ↔ graph.Reports member := by
  refine ⟨reports_of_mem, fun reports => ?_⟩
  obtain ⟨_, first, _⟩ := TransGen.head'_iff.mp reports.cycle
  obtain ⟨found, listed, same⟩ := List.mem_map.mp (mem_sort_cycles_iff.mpr ⟨first.1, reports.cycle⟩)
  have reportsFound := reports_of_mem listed
  have members (node : κ) : node ∈ found.dependsOn ↔ node ∈ member.dependsOn := by
    rw [reportsFound.listed, reports.listed, same]
  have equal : found.dependsOn = member.dependsOn :=
    eq_of_ascending_keys id reportsFound.ascending reports.ascending members
  cases found
  cases member
  cases same
  cases equal
  exact listed

theorem IsPart.sort_cycles (isPart : part.IsPart graph)
    : part.sort.cycles = graph.sort.cycles.filter fun member => part.contains member.node := by
  refine eq_of_ascending_keys CycleMember.node (sort_cycles_ascending part)
    ((sort_cycles_ascending graph).filter _) fun member => ?_
  rw [List.mem_filter, contains_iff, mem_sort_cycles, mem_sort_cycles, isPart.reports_iff]

-----------------------------------------------------------------------------------------
-- Leaving nodes out
-----------------------------------------------------------------------------------------

/-- The nodes of a set that no dependency leaves are sorted among themselves as they are in the
whole graph: the order is the same with the other nodes left out, and so are the reported cycles.
-/
theorem sort_restrict (graph : Graph κ) (kept : SortedSet κ)
    (nodes : ∀ node ∈ kept.keys, node ∈ graph.nodes.keys)
    (closed : ∀ source ∈ kept.keys, ∀ target ∈ graph.targets source,
      target ∈ graph.nodes.keys → target ∈ kept.keys)
    : let part : Graph κ := { graph with nodes := kept }
      part.sort.order = graph.sort.order.filter kept.contains
      ∧ part.sort.cycles = graph.sort.cycles.filter fun member => kept.contains member.node := by
  intro part
  have isPart : part.IsPart graph := by
    refine ⟨nodes, fun source inside target => ⟨fun depends => ?_, fun depends => ?_⟩⟩
    · exact ⟨nodes source depends.1, nodes target depends.2.1, depends.2.2⟩
    · exact ⟨inside, closed source inside target depends.2.2 depends.2.1, depends.2.2⟩
  exact ⟨isPart.sort_order, isPart.sort_cycles⟩

/-- Without the nodes that depend on the cycles the others are sorted as before. -/
theorem sort_restrict_bridged
    : let kept : SortedSet Nat := .ofKeys [1, 2, 3, 5]
      let part : Graph Nat := { bridged with nodes := kept }
      part.sort.order = [5]
      ∧ part.sort.cycles = [⟨1, [2, 3]⟩, ⟨2, [1, 3]⟩, ⟨3, [1, 2, 3]⟩] := by
  intro kept part
  obtain ⟨order, cycles⟩ := sort_restrict bridged kept (by decide +kernel) (by decide +kernel)
  have whole : bridged.sort.order.filter kept.contains = [5]
      ∧ bridged.sort.cycles.filter (fun member => kept.contains member.node)
        = [⟨1, [2, 3]⟩, ⟨2, [1, 3]⟩, ⟨3, [1, 2, 3]⟩] := by
    decide +kernel
  exact ⟨order.trans whole.1, cycles.trans whole.2⟩

end Rollout.Graph
