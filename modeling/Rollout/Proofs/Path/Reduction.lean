import Mathlib.Data.List.Basic
import Mathlib.Data.List.Induction
import Mathlib.Tactic.Common
import Rollout.Path.Walk

/-!
What reducing segments leaves of them: names after climbs, and from the root names alone. Reducing
again changes nothing, and what is left leads wherever all segments led.
-/

namespace Rollout.Path

variable {fromRoot : Bool} {stack segments : List Segment} {s : Segment}

-----------------------------------------------------------------------------------------
-- The stack
-----------------------------------------------------------------------------------------

/-- A segment that leads further down: it neither stays nor climbs. -/
def Descends (s : Segment) : Prop :=
  stays s = false ∧ s ≠ up

/-- Segments that are reduced, the last first: some that lead down, on top of climbs. From the root
there are no climbs.
-/
inductive Stacked (fromRoot : Bool) : List Segment → Prop
  | climbs (count : Nat) (grounded : fromRoot = true → count = 0)
    : Stacked fromRoot (List.replicate count up)
  | descend {s : Segment} {stack : List Segment} (down : Descends s)
    (below : Stacked fromRoot stack)
    : Stacked fromRoot (s :: stack)

theorem stays_up : stays up = false := by
  decide

theorem push_of_stays (quiet : stays s = true) : push fromRoot stack s = stack := by
  simp [push, quiet]

theorem push_of_descends (down : Descends s) : push fromRoot stack s = s :: stack := by
  simp [push, down.1, down.2]

/-- A climb takes back the segment that led down last. -/
theorem push_up_of_descends (down : Descends s) : push fromRoot (s :: stack) up = stack := by
  simp [push, stays_up, down.2]

/-- A climb that nothing can be taken back for is kept, except at the root. -/
theorem push_up_climbs {count : Nat} (grounded : fromRoot = true → count = 0)
    : push fromRoot (List.replicate count up) up
      = List.replicate (if fromRoot then count else count + 1) up := by
  cases count with
  | zero => cases fromRoot <;> simp [push, stays_up]
  | succ count =>
      obtain rfl : fromRoot = false := by simpa using grounded
      simp [push, stays_up, List.replicate_succ]

/-- Every segment stays, climbs or leads down. -/
theorem stays_or_up_or_descends (s : Segment) : stays s = true ∨ s = up ∨ Descends s := by
  rw [Descends, ← Bool.not_eq_true]
  tauto

/-- Adding a segment keeps a stack reduced, by cases on the segment and on what it meets. -/
theorem Stacked.push (reduced : Stacked fromRoot stack) (s : Segment)
    : Stacked fromRoot (push fromRoot stack s) := by
  obtain quiet | rfl | down := stays_or_up_or_descends s
  · rwa [push_of_stays quiet]
  · cases reduced with
    | climbs count grounded =>
        rw [push_up_climbs grounded]
        refine .climbs _ fun root => ?_
        rw [if_pos root, grounded root]
    | descend down below => rwa [push_up_of_descends down]
  · rw [push_of_descends down]
    exact .descend down reduced

/-- Adding segments one by one keeps a stack reduced, by induction on the segments. -/
theorem Stacked.foldl_push (reduced : Stacked fromRoot stack) (segments : List Segment)
    : Stacked fromRoot (segments.foldl (Path.push fromRoot) stack) := by
  induction segments generalizing stack with
  | nil => exact reduced
  | cons s rest ih => exact ih (reduced.push s)

theorem Stacked.empty : Stacked fromRoot [] :=
  .climbs 0 fun _ => rfl

/-- Adding the segments of a reduced stack in their order gives the stack, by induction on it. -/
theorem Stacked.foldl_push_reverse (reduced : Stacked fromRoot stack)
    : stack.reverse.foldl (Path.push fromRoot) [] = stack := by
  induction reduced with
  | climbs count grounded =>
      rw [List.reverse_replicate]
      induction count with
      | zero => rfl
      | succ count ih =>
          obtain rfl : fromRoot = false := by simpa using grounded
          rw [List.replicate_succ', List.foldl_append, ih (by simp), List.foldl_cons,
            List.foldl_nil, push_up_climbs (by simp), ← List.replicate_succ']
          rfl
  | descend down below ih =>
      rw [List.reverse_cons, List.foldl_append, ih]
      exact push_of_descends down

/-- A reduced stack holds climbs and then what leads down, in the order of the path. -/
theorem Stacked.exists_reverse_eq (reduced : Stacked fromRoot stack)
    : ∃ climbs names, stack.reverse = List.replicate climbs up ++ names
        ∧ (∀ s ∈ names, Descends s) ∧ (fromRoot = true → climbs = 0) := by
  induction reduced with
  | climbs count grounded => exact ⟨count, [], by simp, by simp, grounded⟩
  | @descend s stack down below ih =>
      obtain ⟨climbs, names, equal, downs, grounded⟩ := ih
      refine ⟨climbs, names ++ [s], by simp [equal], ?_, grounded⟩
      simpa [or_imp, forall_and] using ⟨downs, down⟩

/-- Climbs and then what leads down are a reduced stack, by induction from the end. -/
theorem stacked_append {climbs : Nat} {names : List Segment} (downs : ∀ s ∈ names, Descends s)
    (grounded : fromRoot = true → climbs = 0)
    : Stacked fromRoot (List.replicate climbs up ++ names).reverse := by
  induction names using List.reverseRecOn with
  | nil =>
      rw [List.append_nil, List.reverse_replicate]
      exact .climbs climbs grounded
  | append_singleton names s ih =>
      rw [← List.append_assoc, List.reverse_append]
      refine .descend (downs s (by simp)) (ih fun t member => downs t ?_)
      exact List.mem_append_left _ member

-----------------------------------------------------------------------------------------
-- Reduced segments
-----------------------------------------------------------------------------------------

/-- What is left of segments are climbs and then what leads down; from the root nothing climbs. -/
theorem exists_reduce_eq (fromRoot : Bool) (segments : List Segment)
    : ∃ climbs names, reduce fromRoot segments = List.replicate climbs up ++ names
        ∧ (∀ s ∈ names, Descends s) ∧ (fromRoot = true → climbs = 0) :=
  (Stacked.empty.foldl_push segments).exists_reverse_eq

/-- Reducing leaves reduced segments as they are. -/
theorem reduce_eq_self (fromRoot : Bool) (climbs : Nat) {names : List Segment}
    (downs : ∀ s ∈ names, Descends s) (grounded : fromRoot = true → climbs = 0)
    : reduce fromRoot (List.replicate climbs up ++ names) = List.replicate climbs up ++ names := by
  have same := (stacked_append downs grounded).foldl_push_reverse
  rw [List.reverse_reverse] at same
  rw [reduce, same, List.reverse_reverse]

theorem mem_of_mem_push {t : Segment} (member : t ∈ push fromRoot stack s)
    : t ∈ stack ∨ t = s := by
  revert member
  fun_cases push fromRoot stack s <;> grind

/-- Reducing adds no segment, by induction from the end. -/
theorem mem_of_mem_reduce (member : s ∈ reduce fromRoot segments) : s ∈ segments := by
  rw [reduce, List.mem_reverse] at member
  induction segments using List.reverseRecOn with
  | nil => exact member
  | append_singleton segments last ih =>
      rw [List.foldl_append] at member
      rw [List.mem_append, List.mem_singleton]
      exact (mem_of_mem_push member).imp_left ih

-----------------------------------------------------------------------------------------
-- Where segments lead
-----------------------------------------------------------------------------------------

theorem step_of_stays (quiet : stays s = true) (directory : List Segment)
    : step directory s = directory := by
  simp [step, quiet]

theorem step_of_descends (down : Descends s) (directory : List Segment)
    : step directory s = directory ++ [s] := by
  simp [step, down.1, down.2]

theorem step_up (directory : List Segment) : step directory up = directory.dropLast := by
  simp [step, stays_up]

/-- One more segment on the stack leads one step further. From the root this is so where one starts
there, since climbing does not leave it.
-/
theorem foldl_step_push (reduced : Stacked fromRoot stack) {base : List Segment}
    (ground : fromRoot = true → base = [])
    : (push fromRoot stack s).reverse.foldl step base = step (stack.reverse.foldl step base) s := by
  obtain quiet | rfl | down := stays_or_up_or_descends s
  · rw [push_of_stays quiet, step_of_stays quiet]
  · cases reduced with
    | climbs count grounded =>
        rw [push_up_climbs grounded]
        cases fromRoot with
        | false =>
            rw [List.reverse_replicate, List.reverse_replicate, if_neg Bool.false_ne_true,
              List.replicate_succ', List.foldl_append]
            rfl
        | true =>
            rw [grounded rfl, ground rfl]
            rfl
    | @descend last _ down below =>
        rw [push_up_of_descends down, List.reverse_cons, List.foldl_append, List.foldl_cons,
          List.foldl_nil, step_of_descends down, step_up, List.dropLast_concat]
  · rw [push_of_descends down, List.reverse_cons, List.foldl_append]
    rfl

/-- What is left of segments leads wherever all of them do, by induction on the segments. -/
theorem foldl_step_reduce {base : List Segment} (ground : fromRoot = true → base = [])
    (segments : List Segment)
    : (reduce fromRoot segments).foldl step base = segments.foldl step base := by
  have all {stack : List Segment} (reduced : Stacked fromRoot stack)
      : (segments.foldl (push fromRoot) stack).reverse.foldl step base
        = segments.foldl step (stack.reverse.foldl step base) := by
    induction segments generalizing stack with
    | nil => rfl
    | cons s rest ih =>
        rw [List.foldl_cons, ih (reduced.push s), foldl_step_push reduced ground, List.foldl_cons]
  exact all .empty

end Rollout.Path
