import Mathlib.Data.Set.Card
import Rollout.Proofs.Graph.Release

/-!
The turns of a release. At each of them a node waits for exactly those of its dependencies that are
not released yet, every node becomes ready once at most, and the turns come to an end after as many
as there are nodes to release.
-/

namespace Rollout.Release

open Adjacency

variable {graph : Adjacency} {keep : Nat → Bool} {s : State} {node : Nat}

-----------------------------------------------------------------------------------------
-- What a node waits for
-----------------------------------------------------------------------------------------

/-- Where no edge is written twice, the nodes that a node waits for are counted once each. -/
theorem Sound.left_eq_ncard (sound : Sound graph keep s) (distinct : (graph.targets node).Nodup)
    : s.left node = {target | graph.Edge node target ∧ target ∉ s.order}.ncard := by
  have listed
      : {target | graph.Edge node target ∧ target ∉ s.order}
        = ((graph.targets node).filter (· ∉ s.order)).toFinset := by
    ext target
    simp [Edge]
  rw [listed, Set.ncard_coe_finset, List.toFinset_card_of_nodup (distinct.filter _), sound.waits]

/-- A node that passes waits for those that pass and are not released. -/
theorem left_after (distinct : (graph.targets node).Nodup) (passes : keep node = true)
    (turns : Nat)
    : (after graph keep turns).left node
      = {target | graph.Edge node target ∧ keep target = true
          ∧ target ∉ (after graph keep turns).order}.ncard := by
  have unique : ((restrict graph keep).targets node).Nodup := by
    rw [targets_restrict, if_pos passes]
    exact distinct.filter keep
  rw [(sound_after graph keep turns).1.left_eq_ncard unique]
  congr 1
  ext target
  simp only [edge_restrict, passes, true_and, Set.mem_ofPred_eq, and_assoc, and_left_comm]

-----------------------------------------------------------------------------------------
-- What becomes ready
-----------------------------------------------------------------------------------------

/-- The nodes that become ready while nodes are told of a release, each as often as it does. -/
def entering (s : State) : List Nat → List Nat
  | [] => []
  | node :: rest =>
      if s.left node - 1 = 0 then node :: entering (notify s node) rest
      else entering (notify s node) rest

/-- The nodes that become ready in one turn. -/
def enteringTurn (dependents : Adjacency) (s : State) : List Nat :=
  match s.ready with
  | [] => []
  | node :: rest =>
      entering { s with ready := rest, order := node :: s.order } (dependents.targets node)

/-- The nodes that are ready at the start or become so in as many turns, each as often as it does.
-/
def entered (graph : Adjacency) (keep : Nat → Bool) : Nat → List Nat
  | 0 => (start (restrict graph keep) keep).ready
  | turns + 1 =>
      entered graph keep turns
      ++ enteringTurn (reverse (restrict graph keep)) (after graph keep turns)

theorem insertReady_perm {ready : List Nat} (absent : node ∉ ready)
    : (insertReady node ready).Perm (node :: ready) := by
  induction ready with
  | nil => exact .refl _
  | cons head rest ih =>
      obtain ⟨different, later⟩ := not_or.mp (mt List.mem_cons.mpr absent)
      rw [insertReady, if_neg different]
      split
      · exact .refl _
      · exact ((ih later).cons head).trans (.swap node head rest)

/-- While nodes are told that still wait, those become ready that were not so before; by induction
on the nodes that are told.
-/
theorem ready_notifyAll_perm {told : List Nat} (waits : ∀ node, told.count node ≤ s.left node)
    (idle : ∀ node ∈ s.ready, s.left node = 0)
    : (told.foldl notify s).ready.Perm (s.ready ++ entering s told) := by
  induction told generalizing s with
  | nil => simp [entering]
  | cons head rest ih =>
      have waiting : 0 < s.left head := by
        have given := waits head
        rw [List.count_cons_self] at given
        omega
      have absent : head ∉ s.ready := fun member => by
        have none := idle head member
        omega
      have idleLater (node : Nat) (member : node ∈ (notify s head).ready)
          : (notify s head).left node = 0 := by
        rw [left_notify]
        rcases mem_ready_notify.mp member with old | ⟨rfl, last⟩
        · rw [idle node old, Nat.zero_sub]
        · simpa using last
      rw [List.foldl_cons, entering]
      refine (ih (count_le_left_notify waits) idleLater).trans ?_
      rw [ready_notify]
      split
      · exact ((insertReady_perm absent).append_right _).trans List.perm_middle.symm
      · exact .refl _

/-- A turn moves one node from those that are ready to the order, and others become ready. -/
theorem Sound.step_perm (sound : Sound graph keep s)
    : ((Release.step (reverse graph) s).ready ++ (Release.step (reverse graph) s).order).Perm
        (s.ready ++ s.order ++ enteringTurn (reverse graph) s) := by
  rw [Release.step, enteringTurn]
  cases current : s.ready with
  | nil => simp [current]
  | cons node rest =>
      have ready : node ∈ s.ready := by simp [current]
      have became := ready_notifyAll_perm (s := { s with ready := rest, order := node :: s.order })
        (sound.count_le_left ready) fun other member =>
          ((sound.ready other).mp (by simp [current, member])).2.2
      have order := (notifyAll_spec ((reverse graph).targets node)
        { s with ready := rest, order := node :: s.order }).1
      rw [order, List.cons_append, List.cons_append]
      refine (became.append_right _).trans (List.perm_middle.trans (.cons node ?_))
      rw [List.append_assoc, List.append_assoc]
      exact List.perm_append_comm.append_left rest

/-- What ever became ready is ready still or released, by induction on the turns. -/
theorem entered_perm (graph : Adjacency) (keep : Nat → Bool) (turns : Nat)
    : (entered graph keep turns).Perm
        ((after graph keep turns).ready ++ (after graph keep turns).order) := by
  induction turns with
  | zero => simp [entered, after, Nat.repeat, start]
  | succ turns ih =>
      exact (ih.append_right _).trans (sound_after graph keep turns).1.step_perm.symm

/-- No node is both ready and released. -/
theorem Sound.nodup (sound : Sound graph keep s) : (s.ready ++ s.order).Nodup := by
  have ascending : s.ready.Nodup := sound.ascending.imp Nat.ne_of_lt
  refine List.nodup_append.mpr ⟨ascending, sound.released.nodup, ?_⟩
  rintro node ready _ released rfl
  exact ((sound.ready node).mp ready).2.1 released

/-- No node becomes ready twice. -/
theorem nodup_entered (graph : Adjacency) (keep : Nat → Bool) (turns : Nat)
    : (entered graph keep turns).Nodup :=
  (entered_perm graph keep turns).nodup_iff.mpr (sound_after graph keep turns).1.nodup

-----------------------------------------------------------------------------------------
-- The last turn
-----------------------------------------------------------------------------------------

theorem after_of_done {turns later : Nat} (done : (after graph keep turns).ready = [])
    (le : turns ≤ later)
    : after graph keep later = after graph keep turns := by
  induction later, le using Nat.le_induction with
  | base => rfl
  | succ later _ ih =>
      rw [← ih] at done ⊢
      exact step_of_done done

/-- A release takes no more turns than there are nodes, and its order is that after the last turn.
-/
theorem exists_last_turn (graph : Adjacency) (keep : Nat → Bool)
    : ∃ turns ≤ graph.size,
        (∀ earlier < turns, (after graph keep earlier).ready ≠ [])
        ∧ (after graph keep turns).ready = []
        ∧ order graph keep = (after graph keep turns).order.reverse := by
  have ends : ∃ turns, (after graph keep turns).ready = [] := ⟨_, ready_after graph keep⟩
  have bound := Nat.find_min' ends (ready_after graph keep)
  have done := Nat.find_spec ends
  refine ⟨Nat.find ends, bound, fun earlier sooner => Nat.find_min ends sooner, done, ?_⟩
  rw [← after_of_done done bound]
  rfl

end Rollout.Release
