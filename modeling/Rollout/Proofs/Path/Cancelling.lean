import Rollout.Manifest
import Rollout.Proofs.Path.Walk

/-!
Texts that cancel, such as `.` or `shop/..`. Joining one leaves a path as it is, so a project that
gives one as its path is looked for beside the manifest. The empty text joined to `.` is the
exception: it gives the empty path, under which there is nothing on any disk.
-/

namespace Rollout.Path

variable {p : Path} {segment : String}

-----------------------------------------------------------------------------------------
-- Texts that cancel
-----------------------------------------------------------------------------------------

/-- A text of which nothing is left: wherever one starts, it leads back there. -/
def Cancels (segment : String) : Prop :=
  ∀ base, leads base segment = base

theorem clean_here : Clean (.relative []) :=
  .relative 0 (List.forall_mem_nil _)

theorem text_eq_here_iff (clean : Clean p) : p.text = "." ↔ p = .relative [] := by
  constructor
  · intro written
    rw [← clean.ofText_text, written]
    rfl
  · rintro rfl
    rfl

/-- These are the texts that are cleaned to nothing or to `.`, since no other path in normal form
leads nowhere.
-/
theorem cancels_iff
    : Cancels segment ↔ (ofText segment).text = "" ∨ (ofText segment).text = "." := by
  have clean := clean_ofText segment
  rw [clean.text_eq_empty_iff, text_eq_here_iff clean]
  constructor
  · intro cancels
    by_cases some : ofText segment = .empty
    · exact .inl some
    · refine .inr (eq_of_walk_eq clean clean_here some nofun fun base => ?_)
      rw [walk_ofText, cancels]
      rfl
  · intro left base
    rw [← walk_ofText]
    rcases left with none | here
    · rw [none]
      rfl
    · rw [here]
      rfl

-----------------------------------------------------------------------------------------
-- Joining them
-----------------------------------------------------------------------------------------

/-- Joining gives nothing only where nothing is joined to nothing, or to `.`. -/
theorem Clean.join_eq_empty_iff (clean : Clean p) (some : p ≠ .empty)
    : p.join segment = .empty ↔ p = .relative [] ∧ segment = "" := by
  constructor
  · intro joined
    by_cases none : segment = ""
    · subst none
      refine ⟨Classical.byContradiction fun elsewhere => ?_, rfl⟩
      have alone
          : ¬(startsAtRoot (("" : String).toList.map slash) ∨ p = .empty ∨ p = .relative []) := by
        simp [startsAtRoot, some, elsewhere]
      rw [clean.join_eq, if_neg alone, ofSlashed_eq_empty_iff] at joined
      simp at joined
    · exact absurd joined (clean.join_ne_empty none)
  · rintro ⟨rfl, rfl⟩
    rfl

/-- Joining a text that cancels leads back to the path, and two paths in normal form that lead to
the same are the same unless one of them is empty.
-/
theorem Clean.join_eq_self_iff (clean : Clean p) (some : p ≠ .empty) (cancels : Cancels segment)
    : p.join segment = p ↔ ¬(p = .relative [] ∧ segment = "") := by
  rw [← clean.join_eq_empty_iff some]
  constructor
  · intro same none
    exact some (same.symm.trans none)
  · intro joined
    refine eq_of_walk_eq (clean.join segment) clean joined some fun base => ?_
    rw [clean.walk_join, cancels]

/-- Every path lies in some directory, the current one if it says nothing else. -/
theorem Clean.folder (clean : Clean p) : Clean p.folder ∧ p.folder ≠ .empty := by
  rw [Path.folder]
  cases above : p.parent? with
  | none => exact ⟨clean_here, nofun⟩
  | some directory =>
      refine ⟨clean.parent above, ?_⟩
      rintro rfl
      cases p <;> simp [parent?] at above

/-- A text that cancels, joined to any path but the empty one, leaves it as it is, and so the
directory of a project with such a path is that of the manifest, wherever the manifest lies. The
only exception is the empty text where the path is `.`.
-/
theorem join_cancelled_iff (cancels : Cancels segment)
    : (∀ raw, raw ≠ ""
        → ((ofText raw).join segment = ofText raw ↔ ¬((ofText raw).text = "." ∧ segment = "")))
      ∧ ∀ manifest name,
        Manifest.projectDirectory (ofText manifest).folder ⟨name, some segment⟩
            = (ofText manifest).folder
          ↔ ¬((ofText manifest).folder.text = "." ∧ segment = "") := by
  refine ⟨fun raw nonempty => ?paths, fun manifest name => ?projects⟩
  case paths =>
    have clean := clean_ofText raw
    rw [text_eq_here_iff clean]
    exact clean.join_eq_self_iff (ofText_eq_empty_iff.not.mpr nonempty) cancels
  case projects =>
    obtain ⟨clean, some⟩ := (clean_ofText manifest).folder
    rw [text_eq_here_iff clean]
    exact clean.join_eq_self_iff some cancels

/-- A name and a climb cancel, whatever slashes and dots stand around them. -/
theorem join_cancelled_climb
    : Cancels ".//slo\\..\\"
      ∧ (ofText "../shop").join ".//slo\\..\\" = ofText "../shop"
      ∧ Manifest.projectDirectory (ofText "deploy/manifest.yaml").folder
          ⟨"shop", some ".//slo\\..\\"⟩
        = (ofText "deploy/manifest.yaml").folder := by
  have cancels : Cancels ".//slo\\..\\" := cancels_iff.mpr (by decide)
  obtain ⟨paths, projects⟩ := join_cancelled_iff cancels
  exact ⟨cancels, (paths "../shop" (by decide)).mpr (by decide),
    (projects "deploy/manifest.yaml" "shop").mpr (by decide)⟩

/-- The empty text cancels, but joined to `.` it gives the empty path. A project with the empty path
is found on no disk where its manifest lies in the current directory.
-/
theorem join_nothing_here
    : Cancels ""
      ∧ (ofText ".").join "" ≠ ofText "."
      ∧ Manifest.projectDirectory (ofText "manifest.json").folder ⟨"shop", some ""⟩
        ≠ (ofText "manifest.json").folder
      ∧ ∀ disk : Disk,
        disk.definitionFiles
            (Manifest.projectDirectory (ofText "manifest.json").folder ⟨"shop", some ""⟩)
          = .error (.access .empty .notFound) := by
  have nowhere
      : Manifest.projectDirectory (ofText "manifest.json").folder ⟨"shop", some ""⟩ = .empty := by
    decide
  refine ⟨cancels_iff.mpr (by decide), by decide, by decide, fun disk => ?_⟩
  rw [nowhere]
  rfl

end Rollout.Path
