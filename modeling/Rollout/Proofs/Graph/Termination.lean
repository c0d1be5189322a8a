import Mathlib.Algebra.BigOperators.Fin
import Mathlib.Algebra.Order.BigOperators.Group.Finset
import Rollout.Proofs.Graph.Steps

/-!
How long a component search takes. Each step does a piece of the work that is left, and before the
first step `stepCount` pieces are.
-/

namespace Rollout.Components.Search

open Adjacency

variable {graph : Adjacency} {s : Search}

/-- Reaching and leaving the nodes that are unmet, and following their edges. -/
def unmetWork (graph : Adjacency) (marks : Nat → Mark) : Nat :=
  ∑ node ∈ (Finset.range graph.size).filter (marks · = .unmet), ((graph.targets node).length + 1)

/-- The steps that are left: pending edges, frames to leave, roots to start at and unmet nodes. -/
def work (graph : Adjacency) (s : Search) : Nat :=
  (s.frames.map fun frame => frame.2.length + 1).sum + s.roots.length + unmetWork graph s.mark

/-- Meeting a node takes its own work out of the sum over unmet nodes. -/
theorem unmetWork_meet {marks : Nat → Mark} {node : Nat} (mark : Mark) (inside : node < graph.size)
    (unmet : marks node = .unmet) (met : mark ≠ .unmet)
    : unmetWork graph (Function.update marks node mark) + ((graph.targets node).length + 1)
      = unmetWork graph marks := by
  have member : node ∈ (Finset.range graph.size).filter (marks · = .unmet) := by
    simp [inside, unmet]
  have rest : (Finset.range graph.size).filter (Function.update marks node mark · = .unmet)
      = ((Finset.range graph.size).filter (marks · = .unmet)).erase node := by
    ext other
    by_cases same : other = node <;> simp [same, met]
  rw [unmetWork, rest, Finset.sum_erase_add _ _ member, unmetWork]

/-- A state with the same frames and roots and no more unmet nodes has no more work. -/
theorem work_le {next : Search} (frames : next.frames = s.frames) (roots : next.roots = s.roots)
    (unmet : ∀ node, next.mark node = .unmet → s.mark node = .unmet)
    : work graph next ≤ work graph s := by
  have fewer : unmetWork graph next.mark ≤ unmetWork graph s.mark := by
    apply Finset.sum_le_sum_of_subset
    intro node member
    rw [Finset.mem_filter] at member ⊢
    exact ⟨member.1, unmet node member.2⟩
  rw [work, work, frames, roots]
  omega

/-- Entering an unmet node moves its work from the unmet nodes to the frames. -/
theorem work_enter {node : Nat} (size : s.marks.size = graph.size) (unmet : s.mark node = .unmet)
    : work graph (s.enter graph node) = work graph s := by
  have inside : node < s.marks.size := lt_of_mark_ne (by simp [unmet])
  have moved := unmetWork_meet (.onPath s.met s.met) (size ▸ inside) unmet (by simp)
  rw [work, mark_enter inside, work, ← moved]
  simp only [Search.enter, put, List.map_cons, List.sum_cons]
  omega

theorem unmet_of_lower {node bound other : Nat} (unmet : (s.lower node bound).mark other = .unmet)
    : s.mark other = .unmet := by
  cases mark : s.mark node with
  | unmet | settled => simpa [Search.lower, mark] using unmet
  | onPath index low =>
      rw [mark_lower mark] at unmet
      by_cases same : other = node
      · simp [same] at unmet
      · simpa [same] using unmet

theorem unmet_of_settle {node other : Nat} (unmet : (s.settle node).mark other = .unmet)
    : s.mark other = .unmet := by
  have marks := mark_settleAll (s.path.takeWhile (· ≠ node) ++ [node]) s other
  simp only [settle, Search.mark] at unmet marks
  rw [unmet] at marks
  split at marks
  · cases marks
  · exact marks.symm

/-- Following an edge adds no work, by cases on where its target stands. -/
theorem work_follow {node target : Nat} (size : s.marks.size = graph.size)
    : work graph (s.follow graph node target) ≤ work graph s := by
  unfold Search.follow
  split
  next unmet => exact (work_enter size unmet).le
  next => exact work_le frames_lower roots_lower fun _ => unmet_of_lower
  next => exact le_rfl

/-- Leaving a node adds no work: it changes neither frames nor roots and makes no node unmet. -/
theorem work_leave {node : Nat} : work graph (s.leave node) ≤ work graph s := by
  have passes (low : Nat) : work graph (s.pass low) ≤ work graph s := by
    unfold Search.pass
    split
    · exact work_le frames_lower roots_lower fun _ => unmet_of_lower
    · exact le_rfl
  unfold Search.leave
  split
  next index low _ =>
    split
    · exact (work_le frames_settle roots_settle fun _ => unmet_of_settle).trans (passes low)
    · exact passes low
  next => exact le_rfl

/-- Every step does a piece of the work, as long as some is left. Without frames and roots none is,
since an unmet node would still be a root.
-/
theorem Sound.work_step (sound : Sound graph s) : work graph (s.step graph) ≤ work graph s - 1 := by
  have size := sound.recorded.size
  unfold Search.step
  split
  next node target rest frames current =>
    have followed
        : work graph ({ s with frames := (node, rest) :: frames }.follow graph node target)
          ≤ work graph { s with frames := (node, rest) :: frames } := work_follow size
    have taken : work graph s = work graph { s with frames := (node, rest) :: frames } + 1 := by
      simp only [work, current, List.map_cons, List.sum_cons, List.length_cons, mark_withFrames]
      omega
    omega
  next node frames current =>
    have left : work graph ({ s with frames }.leave node) ≤ work graph { s with frames } :=
      work_leave
    have taken : work graph s = work graph { s with frames } + 1 := by
      simp only [work, current, List.map_cons, List.sum_cons, List.length_nil, mark_withFrames]
      omega
    omega
  next current =>
    split
    next roots =>
      have none : unmetWork graph s.mark = 0 := by
        apply Finset.sum_eq_zero
        intro node member
        have listed := sound.recorded.unmet node (Finset.mem_filter.mp member).2
        simp [roots] at listed
      simp [work, current, roots, none]
    next root roots next =>
      have started : work graph ({ s with roots }.startAt graph root)
          ≤ work graph { s with roots } := by
        unfold Search.startAt
        split
        next unmet => exact (work_enter (s := { s with roots }) size unmet).le
        next => exact le_rfl
      have taken : work graph s = work graph { s with roots } + 1 := by
        simp only [work, next, List.length_cons, mark_withRoots]
        omega
      omega

/-- The edges of a graph, counted node by node. -/
theorem edgeCount_eq_sum (graph : Adjacency)
    : graph.edgeCount = ∑ node ∈ Finset.range graph.size, (graph.targets node).length := by
  have counted : graph.edgeCount = (graph.toList.map List.length).sum := by
    rw [edgeCount, ← Array.foldl_toList, List.sum_eq_foldl, List.foldl_map]
  rw [counted, Finset.sum_range, ← Array.length_toList, ← Fin.sum_univ_fun_getElem]
  exact Finset.sum_congr rfl fun node _ => by simp [targets]

/-- Before the first step the work is that of all roots and all nodes with their edges. -/
theorem work_start (graph : Adjacency) : work graph (start graph) = stepCount graph := by
  have all : (Finset.range graph.size).filter ((start graph).mark · = .unmet)
      = Finset.range graph.size := by
    apply Finset.filter_true_of_mem
    intro node member
    simpa [mark_start] using member
  rw [work, unmetWork, all, Finset.sum_add_distrib, ← edgeCount_eq_sum, stepCount]
  simp only [start, List.map_nil, List.sum_nil, List.length_range, Finset.sum_const,
    Finset.card_range, smul_eq_mul]
  omega

/-- The search after so many steps. -/
def after (graph : Adjacency) (steps : Nat) : Search :=
  Nat.repeat (step graph) steps (start graph)

/-- After so many steps a search is sound and has that much less work, by induction on the steps. -/
theorem run_sound (graphClosed : graph.Closed) (steps : Nat)
    : Sound graph (after graph steps)
      ∧ work graph (after graph steps) ≤ stepCount graph - steps := by
  induction steps with
  | zero => exact ⟨.start graph, (work_start graph).le⟩
  | succ steps ih =>
      obtain ⟨sound, left⟩ := ih
      have done := sound.work_step
      rw [after, Nat.repeat]
      exact ⟨sound.step graphClosed, done.trans (by omega)⟩

/-- A search that is over: no frame is open, and no root is left to start at. -/
def Ended (s : Search) : Prop :=
  s.frames = [] ∧ s.roots = []

theorem ended_of_work (done : work graph s = 0) : s.Ended := by
  have roots : s.roots = [] := List.length_eq_zero_iff.mp (by simp only [work] at done; omega)
  refine ⟨?_, roots⟩
  cases current : s.frames with
  | nil => rfl
  | cons frame frames =>
      simp only [work, current, List.map_cons, List.sum_cons] at done
      omega

theorem ended_after (graphClosed : graph.Closed) : (after graph (stepCount graph)).Ended := by
  have left := (run_sound graphClosed (stepCount graph)).2
  rw [Nat.sub_self] at left
  exact ended_of_work (Nat.le_zero.mp left)

/-- A search that is over has put every node of the graph into a component. -/
theorem Sound.complete (sound : Sound graph s) (ended : s.Ended)
    : ∀ node, node ∈ s.found.flatten ↔ node < graph.size := by
  have path : s.path = [] := by
    have layers := sound.layers
    rw [ended.1] at layers
    exact layers.path_nil
  intro node
  rw [sound.recorded.settled]
  apply and_iff_left_of_imp
  intro inside
  cases mark : s.mark node with
  | unmet => simpa [ended.2] using sound.recorded.unmet node mark
  | onPath index low => simpa [path] using (sound.recorded.onPath node).mpr ⟨index, low, mark⟩
  | settled => rfl

end Rollout.Components.Search
