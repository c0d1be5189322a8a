import Rollout.Proofs.Graph.Sort

/-!
The order of a sorted graph is the least of all orders that respect its dependencies. At each turn
the ready nodes are exactly those that can come next, and the least of them does; an order made in
this way is no greater than any other, since at the first difference it has the lesser node.
-/

namespace Rollout

-----------------------------------------------------------------------------------------
-- Releasing the least node
-----------------------------------------------------------------------------------------

namespace Release

variable {graph : Adjacency} {keep : Nat → Bool} {s : State}

/-- A node that passes can be released once all that it depends on is. -/
structure Releasable (graph : Adjacency) (keep : Nat → Bool) (earlier : List Nat) (node : Nat)
    : Prop where
  inside : node < graph.size
  passes : keep node = true
  absent : node ∉ earlier
  after : ∀ target, graph.Edge node target → target ∈ earlier

/-- Releases with the latest first, each of the least node that could be released. -/
inductive LeastReleased (graph : Adjacency) (keep : Nat → Bool) : List Nat → Prop
  | nil : LeastReleased graph keep []
  | cons {node earlier} (least : ∀ other, Releasable graph keep earlier other → node ≤ other)
    (rest : LeastReleased graph keep earlier)
    : LeastReleased graph keep (node :: earlier)

/-- Each release was of the least node at its turn, by induction on the later releases. -/
theorem LeastReleased.least {earlier later : List Nat} {node : Nat}
    (released : LeastReleased graph keep (later ++ node :: earlier)) {other : Nat}
    (releasable : Releasable graph keep earlier other)
    : node ≤ other := by
  induction later with
  | nil =>
      cases released with
      | cons least _ => exact least other releasable
  | cons _ rest ih =>
      cases released with
      | cons _ before => exact ih before

theorem Sound.mem_ready_iff (sound : Sound graph keep s) {node : Nat}
    : node ∈ s.ready ↔ Releasable graph keep s.order node := by
  rw [sound.ready, sound.left_eq_zero]
  constructor
  · rintro ⟨⟨inside, passes⟩, absent, after⟩
    exact ⟨inside, passes, absent, after⟩
  · rintro ⟨inside, passes, absent, after⟩
    exact ⟨⟨inside, passes⟩, absent, after⟩

/-- The first of the ready nodes is the least, since they stand in ascending order. -/
theorem LeastReleased.step {dependents : Adjacency} (released : LeastReleased graph keep s.order)
    (sound : Sound graph keep s)
    : LeastReleased graph keep (Release.step dependents s).order := by
  unfold Release.step
  split
  next => exact released
  next node rest current =>
    rw [(notifyAll_spec (dependents.targets node) _).1]
    refine .cons (fun other releasable => ?_) released
    have ready := sound.mem_ready_iff.mpr releasable
    have ascending := sound.ascending
    rw [current] at ready ascending
    rcases List.mem_cons.mp ready with rfl | later
    · exact Nat.le_refl other
    · exact Nat.le_of_lt ((List.pairwise_cons.mp ascending).1 other later)

/-- Every run releases the least node at each turn, by induction on the steps. -/
theorem leastReleased_run (inner : ∀ source target, graph.Edge source target → keep source = true)
    (steps : Nat)
    : LeastReleased graph keep
        (Nat.repeat (step (reverse graph)) steps (Release.start graph keep)).order := by
  induction steps with
  | zero => exact .nil
  | succ steps ih => exact ih.step (run_sound inner steps).1

/-- What stands in the order is the least of all that could be released at its turn. -/
theorem order_least {earlier later : List Nat} {node other : Nat}
    (split : order graph keep = earlier ++ node :: later)
    (releasable : Releasable (restrict graph keep) keep earlier other)
    : node ≤ other := by
  have released : LeastReleased (restrict graph keep) keep (order graph keep).reverse := by
    rw [order, List.reverse_reverse]
    exact leastReleased_run (fun source target edge => (edge_restrict.mp edge).1) graph.size
  rw [split, List.reverse_append, List.reverse_cons, List.append_assoc, List.singleton_append]
    at released
  refine released.least ⟨releasable.inside, releasable.passes, ?_, fun target edge => ?_⟩
  · simpa using releasable.absent
  · simpa using releasable.after target edge

end Release

-----------------------------------------------------------------------------------------
-- Orders that respect the dependencies
-----------------------------------------------------------------------------------------

/-- What holds of each member of a list and those before it. -/
def AtEachTurn {α : Type*} (holds : List α → α → Prop) (order : List α) : Prop :=
  ∀ earlier node later, order = earlier ++ node :: later → holds earlier node

namespace Graph

open Relation

universe u

variable {κ : Type u} [Ord κ] {graph : Graph κ}

/-- A node that lies on no cycle. -/
def OffCycles (graph : Graph κ) (node : κ) : Prop :=
  node ∈ graph.nodes.keys ∧ ¬TransGen graph.DependsOn node node

/-- A node off the cycles can come next if all that it depends on off the cycles came before. -/
structure Ready (graph : Graph κ) (earlier : List κ) (node : κ) : Prop where
  free : graph.OffCycles node
  absent : node ∉ earlier
  after : ∀ target, graph.DependsOn node target → graph.OffCycles target → target ∈ earlier

/-- The least node that can come next. -/
structure LeastReady (graph : Graph κ) (earlier : List κ) (node : κ) : Prop
    extends Ready graph earlier node where
  least : ∀ other, graph.Ready earlier other → other = node ∨ compare node other = .lt

/-- All nodes off the cycles in an order, each once and after those of them that it depends on. -/
structure DependencyOrder (graph : Graph κ) (order : List κ) : Prop where
  nodup : order.Nodup
  mem_iff : ∀ node, node ∈ order ↔ graph.OffCycles node
  before : ∀ source ∈ order, ∀ target ∈ order, graph.DependsOn source target →
    [target, source].Sublist order

/-- Nothing comes before it is ready: what it depends on stands before it, and not
behind it as well.
-/
theorem DependencyOrder.ready {order : List κ} (ordered : graph.DependencyOrder order)
    : AtEachTurn graph.Ready order := by
  intro earlier node later split
  have unique := ordered.nodup
  have member : node ∈ order := by simp [split]
  rw [split, List.nodup_append] at unique
  obtain ⟨_, uniqueLater, apart⟩ := unique
  refine ⟨(ordered.mem_iff node).mp member, fun inside => apart node inside node (by simp) rfl, ?_⟩
  intro target depends free
  have before := ordered.before node member target ((ordered.mem_iff target).mpr free) depends
  rw [split, List.sublist_append_iff] at before
  obtain ⟨first, second, parts, inEarlier, inLater⟩ := before
  cases first with
  | nil =>
      -- Then both stand behind all that came earlier, so the node stands there twice.
      rw [List.nil_append] at parts
      subst parts
      cases inLater with
      | cons _ tail =>
          have again : node ∈ later := tail.subset (by simp)
          exact absurd again (List.nodup_cons.mp uniqueLater).1
      | cons_cons _ tail =>
          have again : node ∈ later := List.singleton_sublist.mp tail
          exact absurd again (List.nodup_cons.mp uniqueLater).1
  | cons head rest =>
      obtain ⟨rfl, _⟩ := List.cons_eq_cons.mp parts
      exact inEarlier.subset (by simp)

/-- Two orders neither of which is greater are the same. -/
theorem eq_of_compare [Std.TransOrd κ] {order other : List κ}
    (first : other = order ∨ compare order other = .lt)
    (second : order = other ∨ compare other order = .lt)
    : other = order := by
  rcases first with same | less
  · exact same
  · rcases second with same | greater
    · exact same.symm
    · exact absurd greater (Std.OrientedCmp.not_lt_of_lt less)

variable [Std.LawfulEqOrd κ]

/-- Where two orders part, the one with the least ready node at each turn has the lesser; by
induction on it, for any nodes that came before both.
-/
theorem compare_of_least {order other : List κ} (earlier : List κ)
    (least : AtEachTurn (fun before => graph.LeastReady (earlier ++ before)) order)
    (ready : AtEachTurn (fun before => graph.Ready (earlier ++ before)) other)
    (length : order.length = other.length)
    : other = order ∨ compare order other = .lt := by
  induction order generalizing earlier other with
  | nil => exact .inl (List.length_eq_zero_iff.mp length.symm)
  | cons head rest ih =>
      match other with
      | [] => simp at length
      | next :: others =>
          have compare_cons : compare (head :: rest) (next :: others)
              = (compare head next).then (compare rest others) :=
            List.compareLex_cons_cons
          have first := least [] head rest rfl
          rcases first.least next (ready [] next others rfl) with rfl | less
          · have later : others = rest ∨ compare rest others = .lt := by
              refine ih (earlier ++ [next]) (fun before node after split => ?_)
                (fun before node after split => ?_) (by simpa using length)
              · simpa using least (next :: before) node after (by simp [split])
              · simpa using ready (next :: before) node after (by simp [split])
            rcases later with same | less
            · exact .inl (by rw [same])
            · exact .inr (by simp [compare_cons, less])
          · exact .inr (by simp [compare_cons, less])

/-- An order with the least ready node at each turn is the least of all. -/
theorem DependencyOrder.compare_of_least {order other : List κ}
    (ordered : graph.DependencyOrder order) (least : AtEachTurn graph.LeastReady order)
    (orderedOther : graph.DependencyOrder other)
    : other = order ∨ compare order other = .lt := by
  have perm : order.Perm other :=
    (List.perm_ext_iff_of_nodup ordered.nodup orderedOther.nodup).mpr fun node =>
      (ordered.mem_iff node).trans (orderedOther.mem_iff node).symm
  exact Graph.compare_of_least [] least orderedOther.ready perm.length_eq

variable [Std.TransOrd κ]

-----------------------------------------------------------------------------------------
-- The order of a sorted graph
-----------------------------------------------------------------------------------------

theorem dependencyOrder_sort (graph : Graph κ) : graph.DependencyOrder graph.sort.order where
  nodup := sort_order_nodup graph
  mem_iff _ := mem_sort_order_iff
  before _ memberSource _ memberTarget depends :=
    sort_order_before depends.2.2 memberSource memberTarget

/-- A node that is ready can be released at its place. -/
theorem Ready.releasable {earlier : List Nat} {place : Nat} {node : κ}
    (name : graph.Place place node) (ready : graph.Ready (graph.nameAll earlier) node)
    : Release.Releasable (Release.restrict graph.adjacency graph.passes) graph.passes earlier
        place where
  inside := by simpa using name.lt
  passes := passes_iff.mpr (mt (onCycle_adjacency_iff name).mp ready.free.2)
  absent inside := ready.absent (mem_nameAll.mpr ⟨place, inside, name⟩)
  after other edge := by
    obtain ⟨_, passes, edge⟩ := Release.edge_restrict.mp edge
    obtain ⟨target, nameTarget⟩ := exists_key (adjacency_closed graph place other edge)
    have free := mt (onCycle_adjacency_iff nameTarget).mpr (passes_iff.mp passes)
    have depends := (edge_adjacency_iff name nameTarget).mp edge
    obtain ⟨found, listed, nameFound⟩ :=
      mem_nameAll.mp (ready.after target depends ⟨nameTarget.mem, free⟩)
    exact nameFound.unique nameTarget ▸ listed

/-- Each node in order is the least of those that are ready at its turn. -/
theorem leastReady_sort (graph : Graph κ) : AtEachTurn graph.LeastReady graph.sort.order := by
  intro earlier node later split
  refine ⟨(dependencyOrder_sort graph).ready earlier node later split, fun other ready => ?_⟩
  rw [sort_order, nameAll, List.filterMap_eq_append_iff] at split
  obtain ⟨places, others, released, rfl, named⟩ := split
  obtain ⟨skipped, place, rest, rfl, unnamed, name, _⟩ := List.filterMap_eq_cons_iff.mp named
  -- Every place has a key, so none is passed over before the next one.
  have none : skipped = [] := by
    refine List.eq_nil_iff_forall_not_mem.mpr fun between inside => ?_
    have listed : between ∈ graph.released := by simp [released, inside]
    obtain ⟨key, known⟩ := exists_key (mem_released_iff.mp listed).1
    simp [Place, unnamed between inside] at known
  subst none
  obtain ⟨otherPlace, otherName⟩ := exists_place ready.free.1
  rcases (Release.order_least released (ready.releasable otherName)).eq_or_lt with rfl | less
  · exact .inl (otherName.key_unique name)
  · exact .inr (Place.compare_eq name otherName less)

/-- An order with the least ready node at each turn is the order of the sorted graph. -/
theorem eq_sort_order {order : List κ} (ordered : graph.DependencyOrder order)
    (least : AtEachTurn graph.LeastReady order)
    : order = graph.sort.order :=
  eq_of_compare
    ((dependencyOrder_sort graph).compare_of_least (leastReady_sort graph) ordered)
    (ordered.compare_of_least least (dependencyOrder_sort graph))

/-- The order of a sorted graph respects its dependencies and is the least order that does, the
orders compared from the front. Each node in it is the least of those that are ready at its turn,
and this is what the least order is known by.
-/
theorem sort_order_least (graph : Graph κ)
    : graph.DependencyOrder graph.sort.order
      ∧ (∀ other, graph.DependencyOrder other →
          other = graph.sort.order ∨ compare graph.sort.order other = .lt)
      ∧ AtEachTurn graph.LeastReady graph.sort.order
      ∧ ∀ order, graph.DependencyOrder order →
          (AtEachTurn graph.LeastReady order
            ↔ ∀ other, graph.DependencyOrder other →
                other = order ∨ compare order other = .lt) := by
  have ordered := dependencyOrder_sort graph
  have least := leastReady_sort graph
  refine ⟨ordered, fun other => ordered.compare_of_least least, least, fun order known => ?_⟩
  constructor
  · exact fun turns other => known.compare_of_least turns
  · intro smallest
    have same : order = graph.sort.order :=
      eq_of_compare (ordered.compare_of_least least known) (smallest _ ordered)
    exact same ▸ least

/-- Two nodes that depend on one other each. -/
def tiers : Graph Nat :=
  ⟨.ofKeys [1, 2, 3, 4], .ofList [(1, .ofKeys [4]), (2, .ofKeys [3])]⟩

/-- The node 2 comes as soon as it is ready, before 4, though 4 was ready earlier. -/
theorem sort_order_least_tiers
    : tiers.sort.order = [3, 2, 4, 1] ∧ tiers.DependencyOrder [3, 4, 2, 1]
      ∧ compare tiers.sort.order [3, 4, 2, 1] = .lt := by
  obtain ⟨ordered, least, _⟩ := sort_order_least tiers
  have order : tiers.sort.order = [3, 2, 4, 1] := by decide +kernel
  have other : tiers.DependencyOrder [3, 4, 2, 1] := by
    have perm : [3, 4, 2, 1].Perm tiers.sort.order := by
      rw [order]
      decide
    refine ⟨by decide, fun node => perm.mem_iff.trans (ordered.mem_iff node), ?_⟩
    unfold DependsOn
    decide +kernel
  refine ⟨order, other, (least _ other).resolve_left ?_⟩
  rw [order]
  decide

end Graph

end Rollout
