import Rollout.Proofs.Graph.Layers

/-!
What every step of a component search keeps: marks, path and components agree with each other, the
path falls into layers, and the components found so far are complete.
-/

namespace Rollout.Components

open Relation Adjacency

/-- Components with the latest first. Each has a member, its members lead to one another, and no
edge leaves it but to an earlier one.
-/
inductive Condensed (graph : Adjacency) : List (List Nat) → Prop
  | nil : Condensed graph []
  | cons {component earlier}
    (nonempty : component ≠ [])
    (joined : ∀ a ∈ component, ∀ b ∈ component, Mutual graph.Edge a b)
    (closed : ∀ a ∈ component, ∀ b, graph.Edge a b → b ∈ component ∨ b ∈ earlier.flatten)
    (rest : Condensed graph earlier)
    : Condensed graph (component :: earlier)

/-- Components that have been found are left by no edge, by induction on them. -/
theorem Condensed.closed {graph : Adjacency} {found : List (List Nat)}
    (condensed : Condensed graph found)
    : ∀ a b, a ∈ found.flatten → graph.Edge a b → b ∈ found.flatten := by
  induction condensed with
  | nil => simp
  | cons nonempty joined closed rest ih =>
      intro a b inside edge
      rw [List.flatten_cons, List.mem_append] at inside ⊢
      rcases inside with inside | earlier
      · exact closed a inside b edge
      · exact .inr (ih a b earlier edge)

namespace Search

variable {graph : Adjacency} {s : Search}

-----------------------------------------------------------------------------------------
-- What the operations do to marks
-----------------------------------------------------------------------------------------

@[simp] theorem mark_withFrames {frames : List (Nat × List Nat)}
    : { s with frames }.mark = s.mark :=
  rfl

@[simp] theorem mark_withRoots {roots : List Nat} : { s with roots }.mark = s.mark :=
  rfl

/-- Only nodes of the graph can be unmet or on the path; a number beyond them counts as settled. -/
theorem lt_of_mark_ne {node : Nat} (h : s.mark node ≠ .settled) : node < s.marks.size := by
  by_contra outside
  have none : s.marks[node]? = none := Array.getElem?_eq_none (Nat.le_of_not_lt outside)
  exact h (by simp [mark, none])

/-- Writing a mark changes the mark of that node alone. -/
theorem mark_put {node : Nat} {mark : Mark} (inside : node < s.marks.size)
    : (s.put node mark).mark = Function.update s.mark node mark := by
  funext other
  by_cases same : other = node
  · subst other
    simp [put, Search.mark, inside]
  · simp [put, Search.mark, same, Ne.symm same]

@[simp] theorem size_put {node : Nat} {mark : Mark}
    : (s.put node mark).marks.size = s.marks.size := by
  simp [put]

@[simp] theorem size_lower {node bound : Nat}
    : (s.lower node bound).marks.size = s.marks.size := by
  unfold lower
  split <;> simp

@[simp] theorem met_lower {node bound : Nat} : (s.lower node bound).met = s.met := by
  unfold lower
  split <;> rfl

@[simp] theorem roots_lower {node bound : Nat} : (s.lower node bound).roots = s.roots := by
  unfold lower
  split <;> rfl

@[simp] theorem path_lower {node bound : Nat} : (s.lower node bound).path = s.path := by
  unfold lower
  split <;> rfl

@[simp] theorem frames_lower {node bound : Nat} : (s.lower node bound).frames = s.frames := by
  unfold lower
  split <;> rfl

@[simp] theorem found_lower {node bound : Nat} : (s.lower node bound).found = s.found := by
  unfold lower
  split <;> rfl

theorem mark_enter {node : Nat} (inside : node < s.marks.size)
    : (s.enter graph node).mark = Function.update s.mark node (.onPath s.met s.met) :=
  mark_put inside

theorem mark_lower {node index low bound : Nat} (mark : s.mark node = .onPath index low)
    : (s.lower node bound).mark
      = Function.update s.mark node (.onPath index (min low bound)) := by
  rw [lower, mark]
  exact mark_put (lt_of_mark_ne (by simp [mark]))

/-- Settling one node after the other settles them all and changes no other mark, by induction on
the nodes.
-/
theorem mark_settleAll (members : List Nat) (s : Search) (node : Nat)
    : (members.foldl (fun s member => s.put member .settled) s).mark node
      = if node ∈ members then .settled else s.mark node := by
  induction members generalizing s with
  | nil => simp
  | cons head rest ih =>
      rw [List.foldl_cons, ih]
      by_cases inRest : node ∈ rest
      · simp [inRest]
      · by_cases inside : head < s.marks.size
        · by_cases same : node = head <;> simp [mark_put inside, inRest, same]
        · have beyond : s.mark head = .settled := by
            by_contra other
            exact inside (lt_of_mark_ne other)
          have unchanged : s.put head .settled = s := by
            simp [put, Array.setIfInBounds, inside]
          by_cases same : node = head <;> simp [unchanged, inRest, same, beyond]

/-- Settling nodes leaves everything but the marks alone, by induction on the nodes. -/
theorem settleAll_frame (members : List Nat) (s : Search)
    : let next := members.foldl (fun s member => s.put member .settled) s
      next.marks.size = s.marks.size ∧ next.met = s.met ∧ next.roots = s.roots
        ∧ next.frames = s.frames := by
  induction members generalizing s with
  | nil => simp
  | cons head rest ih => simpa [put] using ih (s.put head .settled)

@[simp] theorem size_settle {node : Nat} : (s.settle node).marks.size = s.marks.size :=
  (settleAll_frame _ s).1

@[simp] theorem met_settle {node : Nat} : (s.settle node).met = s.met :=
  (settleAll_frame _ s).2.1

@[simp] theorem roots_settle {node : Nat} : (s.settle node).roots = s.roots :=
  (settleAll_frame _ s).2.2.1

@[simp] theorem frames_settle {node : Nat} : (s.settle node).frames = s.frames :=
  (settleAll_frame _ s).2.2.2

/-- Where a path is cut by the first occurrence of a node. -/
theorem takeWhile_ne {node : Nat} {above : List Nat} (below : List Nat) (absent : node ∉ above)
    : (above ++ node :: below).takeWhile (· ≠ node) = above
      ∧ (above ++ node :: below).dropWhile (· ≠ node) = node :: below := by
  have others : ∀ other ∈ above, decide (other ≠ node) = true := by
    intro other member
    exact decide_eq_true (fun same => absent (same ▸ member))
  constructor
  · rw [List.takeWhile_append_of_pos others]
    simp
  · rw [List.dropWhile_append_of_pos others]
    simp

/-- Settling a node makes a component of it and all above it, and leaves the path below it. -/
theorem settle_cut {node : Nat} {above below : List Nat} (path : s.path = above ++ node :: below)
    (absent : node ∉ above)
    : (s.settle node).path = below
      ∧ (s.settle node).found = (above ++ [node]) :: s.found
      ∧ ∀ other, (s.settle node).mark other
          = if other ∈ above ++ [node] then .settled else s.mark other := by
  obtain ⟨taken, dropped⟩ := takeWhile_ne below absent
  refine ⟨?_, ?_, ?_⟩
  · simp only [settle, path, dropped, List.drop_succ_cons, List.drop_zero]
  · simp only [settle, path, taken]
  · intro other
    have settled := mark_settleAll (above ++ [node]) s other
    rw [← settled]
    simp only [settle, path, taken, Search.mark]

-----------------------------------------------------------------------------------------
-- Marks, path and components agree
-----------------------------------------------------------------------------------------

/-- The marks tell which nodes are on the path and which are in components; an unmet node is still
to be started at, unless an edge leads to it first.
-/
structure Recorded (graph : Adjacency) (s : Search) : Prop where
  size : s.marks.size = graph.size
  onPath : ∀ node, node ∈ s.path ↔ ∃ index low, s.mark node = .onPath index low
  descending : Descending s.mark s.path
  numbered : ∀ node ∈ s.path, (s.mark node).index < s.met
  settled : ∀ node, node ∈ s.found.flatten ↔ node < graph.size ∧ s.mark node = .settled
  unique : s.found.flatten.Nodup
  condensed : Condensed graph s.found
  unmet : ∀ node, s.mark node = .unmet → node ∈ s.roots

/-- Frames are not recorded in marks. -/
theorem Recorded.withFrames (recorded : Recorded graph s) (frames : List (Nat × List Nat))
    : Recorded graph { s with frames } :=
  ⟨recorded.size, recorded.onPath, recorded.descending, recorded.numbered, recorded.settled,
    recorded.unique, recorded.condensed, recorded.unmet⟩

/-- Entering an unmet node gives it the highest number so far and touches no other node. -/
theorem Recorded.enter {node : Nat} {roots : List Nat} (recorded : Recorded graph s)
    (unmet : s.mark node = .unmet) (left : ∀ other ∈ s.roots, other = node ∨ other ∈ roots)
    : Recorded graph ({ s with roots }.enter graph node) := by
  have inside : node < s.marks.size := lt_of_mark_ne (by simp [unmet])
  have marks : ({ s with roots }.enter graph node).mark
      = Function.update s.mark node (.onPath s.met s.met) :=
    mark_enter (s := { s with roots }) inside
  have absent : ∀ other ∈ s.path, other ≠ node := by
    intro other member same
    subst same
    obtain ⟨index, low, mark⟩ := (recorded.onPath other).mp member
    simp [unmet] at mark
  refine ⟨by simpa [Search.enter] using recorded.size, ?_, ?_, ?_, ?_, recorded.unique,
    recorded.condensed, ?_⟩
  · intro other
    rw [marks]
    by_cases same : other = node
    · simp [same, Search.enter]
    · simpa [same, Search.enter, put] using recorded.onPath other
  · rw [marks]
    refine List.pairwise_cons.mpr ⟨?_, recorded.descending.imp_of_mem ?_⟩
    · intro other member
      simpa [absent other member] using recorded.numbered other member
    · intro later earlier laterIn earlierIn less
      simpa [absent later laterIn, absent earlier earlierIn] using less
  · rw [marks]
    intro other member
    rcases List.mem_cons.mp member with rfl | member
    · simp [Search.enter]
    · have less := recorded.numbered other member
      simp only [Function.update_of_ne (absent other member), Search.enter]
      omega
  · intro other
    rw [marks]
    by_cases same : other = node
    · subst other
      simpa [Search.enter, put, unmet] using recorded.settled node
    · simpa [Search.enter, put, same] using recorded.settled other
  · intro other still
    rw [marks] at still
    by_cases same : other = node
    · simp [same] at still
    · exact (left other (recorded.unmet other (by simpa [same] using still))).resolve_left same

/-- Lowering a mark leaves the node on the path with its number. -/
theorem Recorded.lower {node index low bound : Nat} (recorded : Recorded graph s)
    (mark : s.mark node = .onPath index low)
    : Recorded graph (s.lower node bound) := by
  have marks : (s.lower node bound).mark = _ := mark_lower mark
  have indices (other : Nat)
      : ((s.lower node bound).mark other).index = (s.mark other).index := by
    rw [marks]
    by_cases same : other = node <;> simp [same, mark]
  refine ⟨by simpa using recorded.size, ?_, ?_, ?_, ?_, by simpa using recorded.unique,
    by simpa using recorded.condensed, ?_⟩
  · intro other
    rw [marks, path_lower]
    by_cases same : other = node
    · simpa [same] using (recorded.onPath node).mpr ⟨index, low, mark⟩
    · simpa [same] using recorded.onPath other
  · simpa only [Descending, indices, path_lower] using recorded.descending
  · simpa only [indices, path_lower, met_lower] using recorded.numbered
  · intro other
    rw [marks, found_lower]
    by_cases same : other = node
    · simpa [same, mark] using recorded.settled node
    · simpa [same] using recorded.settled other
  · intro other still
    rw [marks] at still
    by_cases same : other = node
    · simp [same] at still
    · simpa using recorded.unmet other (by simpa [same] using still)

/-- A layer whose node leads back to none below itself, and that has no pending edge, is a complete
component: edges out of it end in it or in components found before.
-/
theorem Recorded.component {node : Nat} {above below : List Nat} (recorded : Recorded graph s)
    (graphClosed : graph.Closed) (path : s.path = above ++ node :: below)
    (layer : Layer graph s.mark node [] above below)
    (root : (s.mark node).low = (s.mark node).index)
    : Condensed graph ((above ++ [node]) :: s.found) := by
  have joined (member : Nat) (inside : member ∈ above ++ [node])
      : Mutual graph.Edge node member := by
    rcases List.mem_append.mp inside with high | last
    · exact layer.joined member high
    · obtain rfl := List.mem_singleton.mp last
      exact .refl _
  refine .cons (by simp) ?_ ?_ recorded.condensed
  · intro a insideA b insideB
    exact (joined a insideA).symm.trans (joined b insideB)
  · intro member inside target edge
    rcases layer.followed member inside target edge with ⟨_, none⟩ | reached
    · cases none
    cases mark : s.mark target with
    | unmet => simp [mark] at reached
    | settled =>
        exact .inr ((recorded.settled target).mpr ⟨graphClosed member target edge, mark⟩)
    | onPath index low =>
        have onPath := (recorded.onPath target).mpr ⟨index, low, mark⟩
        rw [mark, root, Mark.atLeast_onPath] at reached
        refine .inl ?_
        rw [path] at onPath
        rcases List.mem_append.mp onPath with high | onPath
        · simp [high]
        · rcases List.mem_cons.mp onPath with rfl | lowNode
          · simp
          · have descending := recorded.descending
            rw [path] at descending
            have less := descending.below.1 target lowNode
            simp only [mark, Mark.index_onPath] at less
            omega

/-- Settling such a layer keeps marks, path and components in agreement. -/
theorem Recorded.settle {node : Nat} {above below : List Nat} (recorded : Recorded graph s)
    (graphClosed : graph.Closed) (path : s.path = above ++ node :: below)
    (layer : Layer graph s.mark node [] above below)
    (root : (s.mark node).low = (s.mark node).index)
    : Recorded graph (s.settle node) := by
  have descending := recorded.descending
  rw [path] at descending
  obtain ⟨unique, absent, separate⟩ := descending.cut
  obtain ⟨newPath, newFound, marks⟩ := settle_cut path absent
  have onPath (member : Nat) (inside : member ∈ above ++ [node])
      : ∃ index low, s.mark member = .onPath index low := by
    apply (recorded.onPath member).mp
    rw [path]
    simp only [List.mem_append, List.mem_cons, List.not_mem_nil, or_false] at inside ⊢
    tauto
  refine ⟨by simpa using recorded.size, ?_, ?_, ?_, ?_, ?_, ?_, ?_⟩
  · intro other
    rw [newPath, marks]
    by_cases member : other ∈ above ++ [node]
    · have notBelow : other ∉ below := fun low => separate other low member
      simp only [if_pos member, notBelow, reduceCtorEq, exists_false]
    · rw [if_neg member, ← recorded.onPath other, path]
      simp only [List.mem_append, List.mem_cons, List.not_mem_nil, or_false] at member ⊢
      tauto
  · rw [newPath]
    refine descending.below.2.imp_of_mem fun {later earlier} laterIn earlierIn less => ?_
    rwa [marks, marks, if_neg (separate later laterIn), if_neg (separate earlier earlierIn)]
  · intro other member
    rw [newPath] at member
    rw [marks, if_neg (separate other member), met_settle]
    exact recorded.numbered other (by simp [path, member])
  · intro other
    rw [newFound, List.flatten_cons, List.mem_append, marks, recorded.settled other]
    by_cases member : other ∈ above ++ [node]
    · obtain ⟨index, low, mark⟩ := onPath other member
      have inside : other < s.marks.size := lt_of_mark_ne (by simp [mark])
      rw [recorded.size] at inside
      simp [member, inside]
    · simp [member]
  · rw [newFound, List.flatten_cons]
    refine List.nodup_append.mpr ⟨unique, recorded.unique, ?_⟩
    intro other member _ settled same
    subst same
    obtain ⟨index, low, mark⟩ := onPath other member
    have settledMark := ((recorded.settled other).mp settled).2
    simp [mark] at settledMark
  · rw [newFound]
    exact recorded.component graphClosed path layer root
  · intro other still
    rw [marks] at still
    by_cases member : other ∈ above ++ [node]
    · simp [member] at still
    · rw [if_neg member] at still
      simpa using recorded.unmet other still

end Search

end Rollout.Components
