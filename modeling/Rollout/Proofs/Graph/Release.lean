import Mathlib.Order.WellFoundedSet
import Rollout.Proofs.Graph.Dependents

/-!
Releasing nodes one by one. Each node waits for exactly those of its dependencies that are not yet
released, so the ready nodes are the ones that can come next; without cycles some node is ready
until all are released.
-/

namespace Rollout.Release

open Relation Adjacency

variable {graph : Adjacency} {keep : Nat → Bool} {s : State}

/-- Nodes with the latest first, each once and after everything that it depends on. -/
inductive Released (graph : Adjacency) : List Nat → Prop
  | nil : Released graph []
  | cons {node earlier} (absent : node ∉ earlier)
    (after : ∀ target, graph.Edge node target → target ∈ earlier)
    (rest : Released graph earlier)
    : Released graph (node :: earlier)

theorem Released.nodup {order : List Nat} (released : Released graph order) : order.Nodup := by
  induction released with
  | nil => exact .nil
  | cons absent _ _ ih => exact List.nodup_cons.mpr ⟨absent, ih⟩

/-- What a released node depends on was released before it, by induction on the releases. -/
theorem Released.before {order : List Nat} (released : Released graph order) {node target : Nat}
    (member : node ∈ order) (edge : graph.Edge node target)
    : [node, target].Sublist order := by
  induction released with
  | nil => cases member
  | cons absent after rest ih =>
      rcases List.mem_cons.mp member with rfl | member
      · exact (List.singleton_sublist.mpr (after target edge)).cons_cons node
      · exact (ih member).cons _

/-- Released nodes depend on released nodes alone. -/
theorem Released.closed {order : List Nat} (released : Released graph order) {node target : Nat}
    (member : node ∈ order) (edge : graph.Edge node target)
    : target ∈ order :=
  (released.before member edge).subset (by simp)

/-- The invariant of a release among the nodes that pass `keep`. -/
structure Sound (graph : Adjacency) (keep : Nat → Bool) (s : State) : Prop where
  waits : ∀ node, s.left node = ((graph.targets node).filter (· ∉ s.order)).length
  ascending : s.ready.Pairwise (· < ·)
  ready
    : ∀ node,
        node ∈ s.ready
        ↔ (node < graph.size ∧ keep node = true) ∧ node ∉ s.order ∧ s.left node = 0
  kept : ∀ node ∈ s.order, node < graph.size ∧ keep node = true
  released : Released graph s.order

/-- A node waits for nothing exactly if all that it depends on is released. -/
theorem Sound.left_eq_zero (sound : Sound graph keep s) {node : Nat}
    : s.left node = 0 ↔ ∀ target, graph.Edge node target → target ∈ s.order := by
  rw [sound.waits, List.length_eq_zero_iff, List.filter_eq_nil_iff]
  simp [Edge]

/-- One more release takes its occurrences out of what was not yet released, by induction on the
targets.
-/
theorem length_filter_release {node : Nat} {order : List Nat} (absent : node ∉ order)
    (ends : List Nat)
    : (ends.filter (· ∉ order)).length - ends.count node
      = (ends.filter (· ∉ node :: order)).length := by
  have split : (ends.filter (· ∉ order)).length
      = (ends.filter (· ∉ node :: order)).length + ends.count node := by
    induction ends with
    | nil => rfl
    | cons head rest ih =>
        by_cases same : head = node
        · subst same
          simp [absent] at ih ⊢
          omega
        · by_cases known : head ∈ order
          · simpa [same, known] using ih
          · simp [same, known] at ih ⊢
            omega
  omega

/-- A node that can be released is not released yet, so all that depend on it still wait for it. -/
theorem Sound.count_le_left (sound : Sound graph keep s) {node : Nat} (ready : node ∈ s.ready)
    (other : Nat)
    : ((reverse graph).targets node).count other ≤ s.left other := by
  obtain ⟨⟨inside, _⟩, absent, _⟩ := (sound.ready node).mp ready
  rw [count_reverse inside, sound.waits]
  calc (graph.targets other).count node
      = ((graph.targets other).filter (· ∉ s.order)).count node := by simp [absent]
    _ ≤ ((graph.targets other).filter (· ∉ s.order)).length := List.count_le_length

/-- Releasing the least ready node keeps the invariant. The nodes that become ready are those of its
dependents that waited for it alone.
-/
theorem Sound.step (sound : Sound graph keep s)
    (inner : ∀ source target, graph.Edge source target → keep source = true)
    : Sound graph keep (step (reverse graph) s) := by
  unfold Release.step
  split
  next => exact sound
  next node rest current =>
    obtain ⟨⟨inside, passes⟩, absent, zero⟩ := (sound.ready node).mp (by simp [current])
    have below := sound.left_eq_zero.mp zero
    have ascendingBefore := sound.ascending
    rw [current] at ascendingBefore
    obtain ⟨above, ascendingRest⟩ := List.pairwise_cons.mp ascendingBefore
    obtain ⟨order, left, ready, ascending⟩ := notifyAll_spec ((reverse graph).targets node)
      { s with ready := rest, order := node :: s.order }
    have leftBefore (other : Nat)
        : { s with ready := rest, order := node :: s.order }.left other = s.left other := rfl
    simp only [count_reverse inside, leftBefore] at left ready
    have dependent (other : Nat)
        : other ∈ (reverse graph).targets node ↔ graph.Edge other node := by
      rw [← List.count_pos_iff, count_reverse inside, List.count_pos_iff, Edge]
    refine ⟨?_, ascending ascendingRest, ?_, ?_, ?_⟩
    · intro other
      rw [left, order, sound.waits]
      exact length_filter_release absent _
    · intro other
      rw [ready, order, left, dependent, List.mem_cons, not_or]
      have readyBefore := sound.ready other
      rw [current, List.mem_cons] at readyBefore
      constructor
      · intro given
        rcases given with member | ⟨edge, done⟩
        · obtain ⟨known, absentOther, zeroOther⟩ := readyBefore.mp (.inr member)
          have less := above other member
          exact ⟨known, ⟨by omega, absentOther⟩, by omega⟩
        · refine ⟨⟨edge.source_lt, inner other node edge⟩, ⟨?_, ?_⟩, done⟩
          · intro same
            subst same
            exact absent (below other edge)
          · exact fun member => absent (sound.released.closed member edge)
      · intro given
        obtain ⟨known, ⟨different, absentOther⟩, done⟩ := given
        by_cases zeroOther : s.left other = 0
        · exact .inl ((readyBefore.mpr ⟨known, absentOther, zeroOther⟩).resolve_left different)
        · refine .inr ⟨?_, done⟩
          rw [Edge, ← List.count_pos_iff]
          omega
    · intro other member
      rw [order] at member
      rcases List.mem_cons.mp member with rfl | member
      · exact ⟨inside, passes⟩
      · exact sound.kept other member
    · rw [order]
      exact .cons absent below sound.released

/-- The invariant holds before the first release: a node waits for all that it depends on. -/
theorem Sound.start (graph : Adjacency) (keep : Nat → Bool)
    : Sound graph keep (Release.start graph keep) := by
  have left (node : Nat) : (Release.start graph keep).left node = (graph.targets node).length := by
    by_cases inside : node < graph.size <;> simp [State.left, Release.start, targets, inside]
  refine ⟨?_, ?_, ?_, by simp [Release.start], .nil⟩
  · intro node
    rw [left]
    simp [Release.start]
  · exact List.pairwise_lt_range.filter _
  · intro node
    rw [left]
    simp [Release.start, and_assoc]

/-- Nothing changes once no node is ready. -/
theorem step_of_done {dependents : Adjacency} (done : s.ready = []) : step dependents s = s := by
  simp [Release.step, done]

/-- The order grows by one node with each release. -/
theorem length_step {dependents : Adjacency} (ready : s.ready ≠ [])
    : (step dependents s).order.length = s.order.length + 1 := by
  cases current : s.ready with
  | nil => exact absurd current ready
  | cons node rest =>
      have order := (notifyAll_spec (dependents.targets node)
        { s with ready := rest, order := node :: s.order }).1
      simp only [Release.step, current]
      rw [order, List.length_cons]

/-- The invariant holds after so many steps, and each of them released a node unless none was ready;
by induction on the steps.
-/
theorem run_sound (inner : ∀ source target, graph.Edge source target → keep source = true)
    (steps : Nat)
    : let s := Nat.repeat (step (reverse graph)) steps (Release.start graph keep)
      Sound graph keep s ∧ (s.ready = [] ∨ s.order.length = steps) := by
  induction steps with
  | zero => exact ⟨.start graph keep, .inr rfl⟩
  | succ steps ih =>
      obtain ⟨sound, progress⟩ := ih
      refine ⟨sound.step inner, ?_⟩
      rw [Nat.repeat]
      by_cases done
          : (Nat.repeat (step (reverse graph)) steps (Release.start graph keep)).ready = []
      · exact .inl (by rwa [step_of_done done])
      · rw [length_step done, progress.resolve_left done]
        exact .inr rfl

/-- An order that names as many nodes as there are leaves none that could be ready. -/
theorem Sound.done_of_full (sound : Sound graph keep s) (full : s.order.length = graph.size)
    : s.ready = [] := by
  apply List.eq_nil_iff_forall_not_mem.mpr
  intro node member
  obtain ⟨⟨inside, _⟩, absent, _⟩ := (sound.ready node).mp member
  have unique : (node :: s.order).Nodup := List.nodup_cons.mpr ⟨absent, sound.released.nodup⟩
  have included : (node :: s.order) ⊆ List.range graph.size := by
    intro other listed
    rw [List.mem_range]
    rcases List.mem_cons.mp listed with rfl | listed
    · exact inside
    · exact (sound.kept other listed).1
  have bound := unique.length_le_of_subset included
  rw [List.length_cons, List.length_range] at bound
  omega

/-- Without cycles every node that passes is released once none is ready: of those left, one that
leads to no other of them would be ready.
-/
theorem Sound.complete (sound : Sound graph keep s)
    (inner : ∀ source target, graph.Edge source target → target < graph.size ∧ keep target = true)
    (acyclic : ∀ node, ¬graph.OnCycle node) (done : s.ready = []) {node : Nat}
    (inside : node < graph.size) (passes : keep node = true)
    : node ∈ s.order := by
  have strict : IsStrictOrder Nat fun later earlier => TransGen graph.Edge earlier later :=
    { irrefl := acyclic, trans := fun _ _ _ first second => second.trans first }
  have finite : {node | node < graph.size ∧ keep node = true}.Finite :=
    (Set.finite_lt_nat graph.size).subset fun _ member => member.1
  refine finite.wellFoundedOn.induction
    (r := fun later earlier => TransGen graph.Edge earlier later) ⟨inside, passes⟩ ?_
  intro candidate known below
  by_contra absent
  have none : s.left candidate = 0 :=
    sound.left_eq_zero.mpr fun target edge => below target (inner _ _ edge) (.single edge)
  have ready := (sound.ready candidate).mpr ⟨known, absent, none⟩
  simp [done] at ready

-----------------------------------------------------------------------------------------
-- The order of a graph
-----------------------------------------------------------------------------------------

/-- A release of the nodes that pass after so many turns. -/
def after (graph : Adjacency) (keep : Nat → Bool) (turns : Nat) : State :=
  Nat.repeat (step (reverse (restrict graph keep))) turns (start (restrict graph keep) keep)

/-- The invariant holds after so many turns, each of which released a node unless none was ready. -/
theorem sound_after (graph : Adjacency) (keep : Nat → Bool) (turns : Nat)
    : Sound (restrict graph keep) keep (after graph keep turns)
      ∧ ((after graph keep turns).ready = [] ∨ (after graph keep turns).order.length = turns) :=
  run_sound (fun _ _ edge => (edge_restrict.mp edge).1) turns

/-- After as many turns as there are nodes none is ready. -/
theorem ready_after (graph : Adjacency) (keep : Nat → Bool)
    : (after graph keep graph.size).ready = [] := by
  obtain ⟨sound, progress⟩ := sound_after graph keep graph.size
  rcases progress with done | full
  · exact done
  · exact sound.done_of_full (full.trans (size_restrict graph keep).symm)

/-- The order of a graph is that of a sound release at whose end no node is ready. -/
theorem order_eq (graph : Adjacency) (keep : Nat → Bool)
    : ∃ final, order graph keep = final.order.reverse
        ∧ Sound (restrict graph keep) keep final ∧ final.ready = [] :=
  ⟨after graph keep graph.size, rfl, (sound_after graph keep graph.size).1, ready_after graph keep⟩

/-- No node is released twice. -/
theorem nodup_order (graph : Adjacency) (keep : Nat → Bool) : (order graph keep).Nodup := by
  obtain ⟨final, same, sound, _⟩ := order_eq graph keep
  rw [same, List.nodup_reverse]
  exact sound.released.nodup

/-- Without cycles among the nodes that pass, exactly those are released. -/
theorem mem_order_iff (graphClosed : graph.Closed)
    (acyclic : ∀ node, ¬(restrict graph keep).OnCycle node) {node : Nat}
    : node ∈ order graph keep ↔ node < graph.size ∧ keep node = true := by
  obtain ⟨final, same, sound, done⟩ := order_eq graph keep
  rw [same, List.mem_reverse, ← size_restrict graph keep]
  refine ⟨sound.kept node, fun known => ?_⟩
  refine sound.complete (fun source target edge => ?_) acyclic done known.1 known.2
  obtain ⟨_, passes, edge⟩ := edge_restrict.mp edge
  exact ⟨(size_restrict graph keep).symm ▸ graphClosed source target edge, passes⟩

/-- What a released node depends on stands before it, if it is released at all. -/
theorem order_before {source target : Nat} (edge : graph.Edge source target)
    (released : source ∈ order graph keep) (passes : keep target = true)
    : [target, source].Sublist (order graph keep) := by
  obtain ⟨final, same, sound, _⟩ := order_eq graph keep
  rw [same, List.mem_reverse] at released
  rw [same]
  have known := (sound.kept source released).2
  exact (sound.released.before released (edge_restrict.mpr ⟨known, passes, edge⟩)).reverse

end Rollout.Release
