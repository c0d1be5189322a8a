import Rollout.Proofs.Path.Walk

/-!
The containing directory and the file name. A path with a parent is its parent joined with its file
name. The parent is the directory that contains it, unless the path climbs and names nothing: then
its last segment is a climb as well, and leaving it out leads down instead of up.
-/

namespace Rollout.Path

variable {p directory : Path} {s : Segment}

-----------------------------------------------------------------------------------------
-- Texts of one segment
-----------------------------------------------------------------------------------------

/-- A segment, written as a text, leads one step. -/
theorem leads_ofList (some : s ≠ []) (noSlash : '/' ∉ s) (noBackslash : '\\' ∉ s)
    (base : List Segment)
    : leads base (String.ofList s) = step base s := by
  have below : startsAtRoot s = false := by
    cases s with
    | nil => exact absurd rfl some
    | cons c rest =>
        have other : c ≠ '/' := fun same => noSlash (same ▸ List.mem_cons_self)
        simp [startsAtRoot, other]
  simp [leads, walkText, String.toList_ofList, map_slash_eq_self noBackslash,
    Text.pieces_eq_singleton noSlash, below]

theorem leads_up (base : List Segment) : leads base ".." = base.dropLast :=
  (leads_ofList (s := up) (by decide) (by decide) (by decide) base).trans (step_up base)

theorem ofList_eq_up_iff : String.ofList s = ".." ↔ s = up := by
  have dots : ".." = String.ofList up := rfl
  rw [dots, String.ofList_inj]

-----------------------------------------------------------------------------------------
-- The last segment
-----------------------------------------------------------------------------------------

/-- A path with a parent holds one segment more than it. A relative parent holds at least one. -/
theorem exists_of_parent? (above : p.parent? = some directory)
    : ∃ front last, p = .rooted (front ++ [last]) ∧ directory = .rooted front
      ∨ p = .relative (front ++ [last]) ∧ directory = .relative front ∧ front ≠ [] := by
  cases p with
  | empty => cases above
  | rooted segments =>
      rw [parent?, Option.ite_none_left_eq_some] at above
      obtain ⟨some, same⟩ := above
      cases same
      rcases List.eq_nil_or_concat' segments with rfl | ⟨front, last, rfl⟩
      · exact absurd rfl some
      · exact ⟨front, last, .inl ⟨rfl, by rw [List.dropLast_concat]⟩⟩
  | relative segments =>
      rw [parent?, Option.ite_none_left_eq_some] at above
      obtain ⟨several, same⟩ := above
      cases same
      rcases List.eq_nil_or_concat' segments with rfl | ⟨front, last, rfl⟩
      · exact absurd (Nat.zero_le 1) several
      · refine ⟨front, last, .inr ⟨rfl, by rw [List.dropLast_concat], ?_⟩⟩
        rintro rfl
        exact several (Nat.le_refl 1)

theorem fileName?_relative {segments : List Segment} (some : segments ≠ [])
    : (relative segments).fileName? = segments.getLast?.map String.ofList := by
  cases segments with
  | nil => exact absurd rfl some
  | cons => rfl

/-- The last segment of a clean path is a name, or a climb where the path is made of climbs alone,
since names stand behind climbs.
-/
theorem Clean.isName_or_climbs {front : List Segment} {last : Segment}
    (clean : Clean (.relative (front ++ [last])))
    : IsName last ∨ last = up ∧ ∃ climbs, front ++ [last] = List.replicate climbs up := by
  generalize segments : front ++ [last] = all at clean
  have ends : all.getLast? = some last := by rw [← segments, List.getLast?_concat]
  cases clean with
  | @relative climbs names proper =>
      by_cases none : names = []
      · subst none
        rw [List.append_nil] at ends ⊢
        exact .inr ⟨List.eq_of_mem_replicate (List.mem_of_getLast? ends), climbs, rfl⟩
      · rw [List.getLast?_append_of_ne_nil _ none] at ends
        exact .inl (proper last (List.mem_of_getLast? ends))

theorem eq_up_of_fileName? {climbs : Nat}
    (above : (relative (List.replicate climbs up)).parent? = some directory)
    (named : (relative (List.replicate climbs up)).fileName? = some (String.ofList s))
    : s = up := by
  have some : List.replicate climbs up ≠ [] := by
    intro none
    rw [none] at above
    cases above
  rw [fileName?_relative some, Option.map_eq_some_iff] at named
  obtain ⟨last, ends, written⟩ := named
  rw [← String.ofList_inj.mp written]
  exact List.eq_of_mem_replicate (List.mem_of_getLast? ends)

/-- A path with a parent goes one step on from it, by its file name. -/
theorem Clean.exists_step (clean : Clean p) (above : p.parent? = some directory)
    : ∃ last, p.fileName? = some (String.ofList last)
        ∧ (IsName last ∨ last = up ∧ ∃ climbs, p = .relative (List.replicate climbs up))
        ∧ ∀ base, walk base p = step (walk base directory) last := by
  obtain ⟨front, last, ⟨rfl, rfl⟩ | ⟨rfl, rfl, some⟩⟩ := exists_of_parent? above
  · have name : IsName last := by
      cases clean with
      | rooted proper => exact proper last (by simp)
    refine ⟨last, ?_, .inl name, fun base => List.foldl_concat ..⟩
    simp [fileName?, fileNameChars?]
  · refine ⟨last, ?_, ?_, fun base => List.foldl_concat ..⟩
    · rw [fileName?_relative (by simp), List.getLast?_concat]
      rfl
    · exact clean.isName_or_climbs.imp_right fun ⟨climb, climbs, same⟩ =>
        ⟨climb, climbs, congrArg _ same⟩

-----------------------------------------------------------------------------------------
-- The containing directory
-----------------------------------------------------------------------------------------

theorem ne_empty_of_parent? (above : p.parent? = some directory)
    : p ≠ .empty ∧ directory ≠ .empty := by
  obtain ⟨front, last, ⟨rfl, rfl⟩ | ⟨rfl, rfl, _⟩⟩ := exists_of_parent? above
  · exact ⟨nofun, nofun⟩
  · exact ⟨nofun, nofun⟩

/-- What a path names lies in its parent. -/
theorem Clean.join_parent (clean : Clean p) (above : p.parent? = some directory) {name : Segment}
    (named : IsName name) (onward : ∀ base, walk base p = step (walk base directory) name)
    : p.join ".." = directory := by
  refine eq_of_walk_eq (clean.join "..") (clean.parent above) (clean.join_ne_empty (by decide))
    (ne_empty_of_parent? above).2 fun base => ?_
  rw [clean.walk_join, leads_up, onward, step_of_descends named.descends, List.dropLast_concat]

/-- Climbing on from a path that only climbs gives one climb more. -/
theorem climbs_join_up {climbs : Nat} (some : climbs ≠ 0)
    : (relative (List.replicate climbs up)).join ".."
      = .relative (List.replicate (climbs + 1) up) := by
  have cut : Text.pieces '/' ((".." : String).toList.map slash) = [up] := by decide
  have reduced :=
    reduce_eq_self false (climbs + 1) (List.forall_mem_nil Descends) (by simp)
  rw [List.append_nil] at reduced
  rw [relative_join (by simpa using some) (by decide), cut, ← List.replicate_succ', reduced]

/-- The parent of such a path has one climb less, so it lies within the path and not around it. -/
theorem ne_climbs_join_up {climbs : Nat}
    (above : (relative (List.replicate climbs up)).parent? = some directory)
    : directory ≠ (relative (List.replicate climbs up)).join ".." := by
  rw [parent?, Option.ite_none_left_eq_some] at above
  obtain ⟨several, same⟩ := above
  rw [List.length_replicate] at several
  cases same
  rw [climbs_join_up (by omega)]
  intro same
  have lengths := congrArg List.length (Path.relative.inj same)
  simp only [List.length_dropLast, List.length_replicate] at lengths
  omega

/-- A path with a parent has a file name, and the parent joined with it is the path. The parent is
the containing directory, which joining `..` gives, exactly if the file name is not a climb itself;
only a path of nothing but climbs has such a file name.
-/
theorem parent_join_fileName {raw : String} {directory : Path}
    (above : (ofText raw).parent? = some directory)
    : ∃ name, (ofText raw).fileName? = some name
        ∧ directory.join name = ofText raw
        ∧ (directory = (ofText raw).join ".." ↔ name ≠ "..")
        ∧ (name = ".." ↔ ∃ climbs, ofText raw = .relative (List.replicate climbs up)) := by
  have clean := clean_ofText raw
  obtain ⟨last, named, kind, onward⟩ := clean.exists_step above
  have around := clean.parent above
  have visible : last ≠ [] ∧ '/' ∉ last ∧ '\\' ∉ last := by
    rcases kind with name | ⟨rfl, _⟩
    · exact ⟨name.nonempty, name.noSlash, name.noBackslash⟩
    · decide
  refine ⟨String.ofList last, named, ?back, ?containing, ?climbs⟩
  case back =>
    refine eq_of_walk_eq (around.join _) clean (around.join_ne_empty ?_)
      (ne_empty_of_parent? above).1 fun base => ?_
    · simpa using visible.1
    · rw [around.walk_join, leads_ofList visible.1 visible.2.1 visible.2.2, onward]
  case containing =>
    rw [Ne, ofList_eq_up_iff]
    rcases kind with name | ⟨rfl, climbs, same⟩
    · exact iff_of_true (clean.join_parent above name onward).symm name.notUp
    · refine iff_of_false ?_ (not_not_intro rfl)
      rw [same] at above ⊢
      exact ne_climbs_join_up above
  case climbs =>
    rw [ofList_eq_up_iff]
    rcases kind with name | ⟨rfl, climbs, same⟩
    · refine iff_of_false name.notUp ?_
      rintro ⟨climbs, same⟩
      rw [same] at named above
      exact name.notUp (eq_up_of_fileName? above named)
    · exact iff_of_true rfl ⟨climbs, same⟩

/-- The folder of a file above the directory that one starts from. -/
theorem parent_join_fileName_shared
    : ∃ directory, (ofText "shop/../..\\shared/x.json").parent? = some directory
        ∧ directory.text = "../shared"
        ∧ directory.join "x.json" = ofText "shop/../..\\shared/x.json"
        ∧ directory = (ofText "shop/../..\\shared/x.json").join ".." := by
  have above : (ofText "shop/../..\\shared/x.json").parent?
      = some (.relative [up, "shared".toList]) := by decide
  obtain ⟨name, named, back, containing, _⟩ := parent_join_fileName above
  have same : some name = some "x.json" := named.symm.trans (by decide)
  cases same
  exact ⟨_, above, by decide, back, containing.mpr (by decide)⟩

/-- Two climbs have one climb as their parent, which does not contain them. -/
theorem parent_of_climbs
    : (ofText "../..").parent? = some (ofText "..")
      ∧ (ofText "../..").join ".." = ofText "../../.."
      ∧ ofText ".." ≠ (ofText "../..").join ".." := by
  decide

end Rollout.Path
