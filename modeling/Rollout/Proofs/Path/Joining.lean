import Rollout.Proofs.Path.NormalForm

/-!
Joining and going up keep paths in normal form, so all paths that a run works with are. Joining is
reading two written paths as one text.
-/

namespace Rollout.Path

variable {p : Path} {segment : String} {segments : List Segment}

-----------------------------------------------------------------------------------------
-- Joining
-----------------------------------------------------------------------------------------

/-- Segments that reduce to the same can be replaced where others follow. -/
theorem reduce_append_congr {fromRoot : Bool} {segments others : List Segment}
    (same : reduce fromRoot segments = reduce fromRoot others) (more : List Segment)
    : reduce fromRoot (segments ++ more) = reduce fromRoot (others ++ more) := by
  have left := List.reverse_injective same
  rw [reduce, reduce, List.foldl_append, List.foldl_append, left]

theorem join_of_root (begins : startsAtRoot (segment.toList.map slash) = true)
    : p.join segment = ofSlashed (segment.toList.map slash) := by
  simp [Path.join, begins]

theorem empty_join : empty.join segment = ofSlashed (segment.toList.map slash) := by
  simp [Path.join]

theorem here_join : (relative []).join segment = ofSlashed (segment.toList.map slash) := by
  simp [Path.join]

theorem rooted_join (below : startsAtRoot (segment.toList.map slash) = false)
    : (rooted segments).join segment
      = .rooted (reduce true (segments ++ Text.pieces '/' (segment.toList.map slash))) := by
  simp [Path.join, below]

theorem relative_join (some : segments ≠ [])
    (below : startsAtRoot (segment.toList.map slash) = false)
    : (relative segments).join segment
      = .relative (reduce false (segments ++ Text.pieces '/' (segment.toList.map slash))) := by
  cases segments with
  | nil => exact absurd rfl some
  | cons => simp [Path.join, below]

/-- Joining reads what is written of the path and the segment as one text, with a slash in between.
Only the segment is read if it begins at the root, or if the path is written as nothing or `.`.
-/
theorem Clean.join_eq (clean : Clean p) (segment : String)
    : p.join segment
      = if startsAtRoot (segment.toList.map slash) ∨ p = .empty ∨ p = .relative [] then
          ofSlashed (segment.toList.map slash)
        else ofSlashed (p.chars ++ '/' :: segment.toList.map slash) := by
  split
  next alone =>
    obtain begins | rfl | rfl := alone
    · exact join_of_root begins
    · exact empty_join
    · exact here_join
  next more =>
    obtain ⟨below, some, notHere⟩ : _ ∧ _ ∧ _ := by simpa only [not_or, Bool.not_eq_true] using more
    cases clean with
    | empty => exact absurd rfl some
    | @rooted names proper =>
        have again := reduce_eq_self true 0 (fun s member => (proper s member).descends) (by simp)
        have same := reduce_append_congr (again.trans (reduce_pieces_rooted proper).symm)
          (Text.pieces '/' (segment.toList.map slash))
        rw [rooted_join below]
        rw [List.replicate_zero, List.nil_append, ← Text.pieces_append] at same
        rw [same]
        rfl
    | @relative climbs names proper =>
        have again :=
          reduce_eq_self false climbs (fun s member => (proper s member).descends) (by simp)
        have same := reduce_append_congr (again.trans (reduce_pieces_relative climbs proper).symm)
          (Text.pieces '/' (segment.toList.map slash))
        obtain ⟨c, rest, begins, other⟩ := exists_chars_relative_eq climbs proper
        rw [relative_join (fun none => notHere (congrArg _ none)) below, same,
          ← Text.pieces_append, begins]
        simp [ofSlashed, startsAtRoot, other]

/-- Joining keeps paths clean. -/
theorem Clean.join (clean : Clean p) (segment : String) : Clean (p.join segment) := by
  have plain := backslash_not_mem_slashed segment.toList
  rw [clean.join_eq]
  split
  · exact clean_ofSlashed plain
  · refine clean_ofSlashed fun member => ?_
    obtain before | after := List.mem_append.mp member
    · exact clean.normalText.backslash_not_mem before
    · obtain same | inside := List.mem_cons.mp after
      · cases same
      · exact plain inside

-----------------------------------------------------------------------------------------
-- All paths
-----------------------------------------------------------------------------------------

/-- The directory of a clean path is clean. -/
theorem Clean.parent (clean : Clean p) {directory : Path} (above : p.parent? = some directory)
    : Clean directory := by
  cases clean with
  | empty => cases above
  | @rooted names proper =>
      rw [parent?, Option.ite_none_left_eq_some] at above
      obtain ⟨_, same⟩ := above
      cases same
      exact .rooted fun s member => proper s ((List.dropLast_sublist _).subset member)
  | @relative climbs names proper =>
      rw [parent?, Option.ite_none_left_eq_some] at above
      obtain ⟨_, same⟩ := above
      cases same
      by_cases none : names = []
      · rw [none, List.append_nil, List.dropLast_replicate, ← List.append_nil (List.replicate _ up)]
        exact .relative (climbs - 1) (by simp)
      · rw [List.dropLast_append_of_ne_nil none]
        exact .relative climbs fun s member => proper s ((List.dropLast_sublist _).subset member)

/-- The paths that reading, joining and going up give, in whatever order. -/
inductive Built : Path → Prop
  | ofText (text : String) : Built (ofText text)
  | join {p : Path} (built : Built p) (segment : String) : Built (p.join segment)
  | parent {p directory : Path} (built : Built p) (above : p.parent? = some directory)
    : Built directory

/-- All of these paths are clean, by induction on how they come about. -/
theorem Built.clean (built : Built p) : Clean p := by
  induction built with
  | ofText text => exact clean_ofText text
  | join _ segment ih => exact ih.join segment
  | parent _ above ih => exact ih.parent above

end Rollout.Path
