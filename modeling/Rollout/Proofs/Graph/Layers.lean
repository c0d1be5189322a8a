import Rollout.Proofs.Graph.Reachability

/-!
The path of a component search, cut into one layer for each frame. A layer is the node of its frame
with the nodes above it that were left without closing a component; all of them lie on cycles with
it, and nothing they lead to stands lower on the path than the low of the node.
-/

namespace Rollout.Components

open Relation Adjacency

/-- The number of a node on the path. -/
def Mark.index : Mark → Nat
  | .onPath index _ => index
  | _ => 0

/-- The lowest number that a node of the path is known to lead back to. -/
def Mark.low : Mark → Nat
  | .onPath _ low => low
  | _ => 0

/-- A node in a component, or one on the path with no number below `bound`. -/
def Mark.AtLeast (bound : Nat) : Mark → Prop
  | .unmet => False
  | .onPath index _ => bound ≤ index
  | .settled => True

@[simp] theorem Mark.index_onPath (index low : Nat) : (Mark.onPath index low).index = index :=
  rfl

@[simp] theorem Mark.low_onPath (index low : Nat) : (Mark.onPath index low).low = low :=
  rfl

@[simp] theorem Mark.atLeast_onPath {bound index low : Nat}
    : (Mark.onPath index low).AtLeast bound ↔ bound ≤ index :=
  .rfl

@[simp] theorem Mark.atLeast_settled {bound : Nat} : Mark.settled.AtLeast bound :=
  trivial

@[simp] theorem Mark.not_atLeast_unmet {bound : Nat} : ¬Mark.unmet.AtLeast bound :=
  id

/-- A lower bound is easier to keep, by cases on the mark. -/
theorem Mark.AtLeast.mono {bound lower : Nat} {mark : Mark} (h : mark.AtLeast bound)
    (le : lower ≤ bound)
    : mark.AtLeast lower := by
  cases mark with
  | unmet => exact h
  | onPath index low => exact Nat.le_trans le h
  | settled => trivial

variable {graph : Adjacency} {marks next : Nat → Mark}

/-- The part of the path that belongs to the frame of `node`: the node and those `above` it, with
the path `below` it. An edge of this part that is not pending has been followed.
-/
structure Layer (graph : Adjacency) (marks : Nat → Mark) (node : Nat)
    (pending above below : List Nat)
    : Prop where
  edges : ∀ target ∈ pending, graph.Edge node target
  joined : ∀ member ∈ above, Mutual graph.Edge node member
  followed
    : ∀ member ∈ above ++ [node],
        ∀ target,
          graph.Edge member target
          → (member = node ∧ target ∈ pending) ∨ (marks target).AtLeast (marks node).low
  low_le : (marks node).low ≤ (marks node).index
  back
    : (marks node).low = (marks node).index
      ∨ ∃ earlier ∈ below,
          (marks earlier).index = (marks node).low ∧ ReflTransGen graph.Edge node earlier

/-- The frames and the path they cut into layers, both with the latest first. Each frame's node was
met along an edge from the node of the frame before.
-/
inductive Layers (graph : Adjacency) (marks : Nat → Mark) : List (Nat × List Nat) → List Nat → Prop
  | nil : Layers graph marks [] []
  | cons {node pending frames above below}
    (layer : Layer graph marks node pending above below)
    (entered : ∀ frame ∈ frames.head?, graph.Edge frame.1 node)
    (rest : Layers graph marks frames below)
    : Layers graph marks ((node, pending) :: frames) (above ++ node :: below)

/-- A path without frames is empty, by inversion. -/
theorem Layers.path_nil {path : List Nat} (layers : Layers graph marks [] path) : path = [] := by
  cases layers
  rfl

/-- The latest frame tells where the path is cut first, by inversion. -/
theorem Layers.cut {node : Nat} {pending path : List Nat} {frames : List (Nat × List Nat)}
    (layers : Layers graph marks ((node, pending) :: frames) path)
    : ∃ above below,
        path = above ++ node :: below
        ∧ Layer graph marks node pending above below
        ∧ (∀ frame ∈ frames.head?, graph.Edge frame.1 node)
        ∧ Layers graph marks frames below := by
  cases layers with
  | @cons _ _ _ above below layer entered rest =>
      exact ⟨above, below, rfl, layer, entered, rest⟩

/-- A path has its numbers in descending order, the latest node first. -/
def Descending (marks : Nat → Mark) (path : List Nat) : Prop :=
  path.Pairwise fun later earlier => (marks earlier).index < (marks later).index

-----------------------------------------------------------------------------------------
-- One layer while marks change
-----------------------------------------------------------------------------------------

/-- No node loses its place: what had at least some number keeps it or is settled. -/
def Advances (marks next : Nat → Mark) : Prop :=
  ∀ node bound, (marks node).AtLeast bound → (next node).AtLeast bound

/-- A layer outlives changes elsewhere: its own node and the numbers below it must not change. -/
theorem Layer.advance {node : Nat} {pending above below : List Nat}
    (layer : Layer graph marks node pending above below) (advances : Advances marks next)
    (same : next node = marks node) (sameBelow : ∀ earlier ∈ below, next earlier = marks earlier)
    : Layer graph next node pending above below where
  edges := layer.edges
  joined := layer.joined
  followed member inside target edge := by
    rw [same]
    exact (layer.followed member inside target edge).imp_right (advances target _)
  low_le := same ▸ layer.low_le
  back := by
    rw [same]
    apply layer.back.imp_right
    intro given
    obtain ⟨earlier, member, index, path⟩ := given
    exact ⟨earlier, member, by rwa [sameBelow earlier member], path⟩

/-- All layers outlive changes to nodes that are not on the path, by induction on the layers. -/
theorem Layers.advance {frames : List (Nat × List Nat)} {path : List Nat}
    (layers : Layers graph marks frames path) (advances : Advances marks next)
    (same : ∀ node ∈ path, next node = marks node)
    : Layers graph next frames path := by
  induction layers with
  | nil => exact .nil
  | @cons node pending frames above below layer entered rest ih =>
      have sameBelow : ∀ earlier ∈ below, next earlier = marks earlier :=
        fun earlier member => same earlier (by simp [member])
      exact .cons (layer.advance advances (same node (by simp)) sameBelow) entered (ih sameBelow)

/-- A pending edge has been followed once its target is settled or far enough up the path. -/
theorem Layer.follow {node target : Nat} {pending above below : List Nat}
    (layer : Layer graph marks node (target :: pending) above below)
    (reached : (marks target).AtLeast (marks node).low)
    : Layer graph marks node pending above below where
  edges other member := layer.edges other (List.mem_cons_of_mem _ member)
  joined := layer.joined
  followed member inside other edge := by
    rcases layer.followed member inside other edge with ⟨same, waiting⟩ | done
    · rcases List.mem_cons.mp waiting with rfl | waiting
      · exact .inr reached
      · exact .inl ⟨same, waiting⟩
    · exact .inr done
  low_le := layer.low_le
  back := layer.back

/-- A node numbered below another one of a descending path stands below it, since those above it
have higher numbers.
-/
theorem Descending.mem_below {node other : Nat} {above below : List Nat}
    (descending : Descending marks (above ++ node :: below))
    (member : other ∈ above ++ node :: below) (less : (marks other).index < (marks node).index)
    : other ∈ below := by
  rcases List.mem_append.mp member with high | low
  · have greater := (List.pairwise_append.mp descending).2.2 other high node List.mem_cons_self
    omega
  · rcases List.mem_cons.mp low with rfl | low
    · omega
    · exact low

/-- A descending path names no node twice. -/
theorem Descending.nodup {path : List Nat} (descending : Descending marks path) : path.Nodup :=
  List.Pairwise.imp (fun less same => by subst same; exact absurd less (Nat.lt_irrefl _)) descending

/-- A descending path cut after a node falls into two parts with no node in common. -/
theorem Descending.cut {node : Nat} {above below : List Nat}
    (descending : Descending marks (above ++ node :: below))
    : (above ++ [node]).Nodup ∧ node ∉ above ∧ ∀ other ∈ below, other ∉ above ++ [node] := by
  have unique : (above ++ [node] ++ below).Nodup := by simpa using descending.nodup
  obtain ⟨uniqueAbove, _, separate⟩ := List.nodup_append.mp unique
  refine ⟨uniqueAbove, ?_, fun other low high => separate other high other low rfl⟩
  exact fun member => (List.nodup_append.mp uniqueAbove).2.2 node member node (by simp) rfl

/-- What stands below a node of a descending path is numbered below it, and descends itself. -/
theorem Descending.below {node : Nat} {above below : List Nat}
    (descending : Descending marks (above ++ node :: below))
    : (∀ other ∈ below, (marks other).index < (marks node).index) ∧ Descending marks below :=
  List.pairwise_cons.mp (List.pairwise_append.mp descending).2.1

/-- Lowering a node's mark changes no number, so nothing loses its place. -/
theorem advances_lower {node index low : Nat} (bound : Nat)
    (mark : marks node = .onPath index low)
    : Advances marks (Function.update marks node (.onPath index (min low bound))) := by
  intro other limit atLeast
  by_cases same : other = node
  · subst other
    simpa [mark] using atLeast
  · simpa [same] using atLeast

/-- The low of a layer's node may fall to the number of any node of the path that it leads to:
one above it changes nothing, and one below it is what `back` asks for.
-/
theorem Layer.lower {node target index low : Nat} {pending above below : List Nat}
    (layer : Layer graph marks node pending above below)
    (descending : Descending marks (above ++ node :: below))
    (mark : marks node = .onPath index low) (member : target ∈ above ++ node :: below)
    (path : ReflTransGen graph.Edge node target)
    : Layer graph
        (Function.update marks node (.onPath index (min low (marks target).index)))
        node pending above below := by
  have advances : Advances marks _ := advances_lower (marks target).index mark
  have below_ne : ∀ earlier ∈ below, earlier ≠ node := by
    intro earlier inside same
    subst same
    exact descending.cut.2.2 earlier inside (by simp)
  have le : low ≤ index := by simpa [mark] using layer.low_le
  refine ⟨layer.edges, layer.joined, ?_, ?_, ?_⟩
  · intro other inside next edge
    apply (layer.followed other inside next edge).imp_right
    intro reached
    apply (advances next _ reached).mono
    simp only [Function.update_self, mark, Mark.low_onPath]
    omega
  · simp only [Function.update_self, Mark.low_onPath, Mark.index_onPath]
    omega
  · simp only [Function.update_self, Mark.low_onPath, Mark.index_onPath]
    by_cases less : (marks target).index < low
    · have targetBelow : target ∈ below := by
        refine descending.mem_below member ?_
        rw [mark, Mark.index_onPath]
        omega
      refine .inr ⟨target, targetBelow, ?_, path⟩
      rw [Function.update_of_ne (below_ne target targetBelow)]
      omega
    · rw [Nat.min_eq_left (Nat.le_of_not_lt less)]
      have back := layer.back
      simp only [mark, Mark.low_onPath, Mark.index_onPath] at back
      apply back.imp_right
      intro given
      obtain ⟨earlier, inside, same, leads⟩ := given
      exact ⟨earlier, inside, by rwa [Function.update_of_ne (below_ne earlier inside)], leads⟩

/-- The layers below a node do not see its low. -/
theorem Layers.lower {node index low : Nat} {above below : List Nat}
    {frames : List (Nat × List Nat)} (layers : Layers graph marks frames below) (bound : Nat)
    (descending : Descending marks (above ++ node :: below))
    (mark : marks node = .onPath index low)
    : Layers graph (Function.update marks node (.onPath index (min low bound))) frames below := by
  apply layers.advance (advances_lower bound mark)
  intro other member
  refine Function.update_of_ne ?_ ..
  intro same
  subst same
  exact descending.cut.2.2 other member (by simp)

-----------------------------------------------------------------------------------------
-- Layers that meet
-----------------------------------------------------------------------------------------

/-- Every node of the path leads to the node of the latest frame: within a layer by its cycles, and
from one layer to the next by the edge along which the next was entered.
-/
theorem Layers.leads_top {frames : List (Nat × List Nat)} {path : List Nat}
    (layers : Layers graph marks frames path)
    : ∀ frame ∈ frames.head?, ∀ member ∈ path, ReflTransGen graph.Edge member frame.1 := by
  induction layers with
  | nil => simp
  | @cons node pending frames above below layer entered rest ih =>
      intro frame latest member inside
      obtain rfl : (node, pending) = frame := by simpa using latest
      rcases List.mem_append.mp inside with high | low
      · exact (layer.joined member high).2
      · rcases List.mem_cons.mp low with rfl | low
        · exact .refl
        · cases frames with
          | nil => cases rest; cases low
          | cons previous frames =>
              exact (ih previous rfl member low).tail (entered previous rfl)

/-- A layer without pending edges joins the layer below, if its node leads back to the node there
and that node's low is no higher than its own.
-/
theorem Layer.absorb {parent child : Nat} {pending above aboveChild below : List Nat}
    (layer : Layer graph next parent pending above below)
    (closing : Layer graph marks child [] aboveChild (above ++ parent :: below))
    (advances : Advances marks next) (entered : graph.Edge parent child)
    (returns : ReflTransGen graph.Edge child parent)
    (le : (next parent).low ≤ (marks child).low)
    : Layer graph next parent pending (aboveChild ++ child :: above) below where
  edges := layer.edges
  joined member inside := by
    have joinedChild : Mutual graph.Edge parent child := ⟨.single entered, returns⟩
    rcases List.mem_append.mp inside with high | low
    · exact joinedChild.trans (closing.joined member high)
    · rcases List.mem_cons.mp low with rfl | low
      · exact joinedChild
      · exact layer.joined member low
  followed member inside target edge := by
    have cases : member ∈ aboveChild ++ [child] ∨ member ∈ above ++ [parent] := by
      simp only [List.mem_append, List.mem_cons, List.not_mem_nil, or_false] at inside ⊢
      tauto
    rcases cases with old | old
    · rcases closing.followed member old target edge with ⟨_, none⟩ | reached
      · cases none
      · exact .inr ((advances target _ reached).mono le)
    · exact layer.followed member old target edge
  low_le := layer.low_le
  back := layer.back

end Rollout.Components
