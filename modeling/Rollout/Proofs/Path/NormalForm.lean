import Rollout.Proofs.Path.Reduction

/-!
The normal form of paths: climbs and then proper names, or proper names from the root. Every text is
read to a path of this form, and reading what is written of such a path gives it back.
-/

namespace Rollout.Path

variable {p : Path} {s : Segment} {text : List Char}

-----------------------------------------------------------------------------------------
-- Proper names
-----------------------------------------------------------------------------------------

/-- A segment that names something in a directory. -/
structure IsName (s : Segment) : Prop where
  nonempty : s ≠ []
  notHere : s ≠ ['.']
  notUp : s ≠ up
  noSlash : '/' ∉ s
  noBackslash : '\\' ∉ s

theorem isName_iff : IsName s ↔ Descends s ∧ '/' ∉ s ∧ '\\' ∉ s := by
  constructor
  · rintro ⟨nonempty, notHere, notUp, noSlash, noBackslash⟩
    exact ⟨⟨by simp [stays, nonempty, notHere], notUp⟩, noSlash, noBackslash⟩
  · rintro ⟨⟨moves, notUp⟩, noSlash, noBackslash⟩
    simp only [stays, Bool.or_eq_false_iff, decide_eq_false_iff_not] at moves
    exact ⟨moves.1, moves.2, notUp, noSlash, noBackslash⟩

theorem IsName.descends (name : IsName s) : Descends s :=
  (isName_iff.mp name).1

/-- Segments of a text without backslashes that lead down are names. -/
theorem isName_of_mem_pieces (plain : '\\' ∉ text) (cut : s ∈ Text.pieces '/' text)
    (down : Descends s)
    : IsName s :=
  isName_iff.mpr ⟨down, Text.separator_not_mem_of_mem_pieces cut,
    fun member => plain (Text.mem_of_mem_pieces cut member)⟩

theorem backslash_not_mem_slashed (text : List Char) : '\\' ∉ text.map slash := by
  intro member
  obtain ⟨c, _, same⟩ := List.mem_map.mp member
  unfold slash at same
  split at same
  · cases same
  next other => exact other same

/-- Only backslashes are rewritten. -/
theorem map_slash_eq_self (plain : '\\' ∉ text) : text.map slash = text := by
  refine (List.map_congr_left fun c member => ?_).trans (List.map_id text)
  exact if_neg fun same : c = '\\' => plain (same ▸ member)

-----------------------------------------------------------------------------------------
-- Clean paths
-----------------------------------------------------------------------------------------

/-- A path in normal form. -/
inductive Clean : Path → Prop
  | empty : Clean .empty
  | rooted {names : List Segment} (proper : ∀ s ∈ names, IsName s) : Clean (.rooted names)
  | relative (climbs : Nat) {names : List Segment} (proper : ∀ s ∈ names, IsName s)
    : Clean (.relative (List.replicate climbs up ++ names))

/-- A text that is written in normal form: nothing, one of `.` and `/`, or climbs and names with
single slashes between them. Only a slash at the front can stand for the root.
-/
inductive NormalText : List Char → Prop
  | empty : NormalText []
  | here : NormalText ['.']
  | root : NormalText ['/']
  | rooted {names : List Segment} (some : names ≠ []) (proper : ∀ s ∈ names, IsName s)
    : NormalText ('/' :: Text.join '/' names)
  | relative {climbs : Nat} {names : List Segment} (some : List.replicate climbs up ++ names ≠ [])
    (proper : ∀ s ∈ names, IsName s)
    : NormalText (Text.join '/' (List.replicate climbs up ++ names))

theorem chars_relative {segments : List Segment} (some : segments ≠ [])
    : chars (.relative segments) = Text.join '/' segments := by
  cases segments with
  | nil => exact absurd rfl some
  | cons => rfl

/-- A path in normal form is written in normal form. -/
theorem Clean.normalText (clean : Clean p) : NormalText p.chars := by
  cases clean with
  | empty => exact .empty
  | @rooted names proper =>
      by_cases some : names = []
      · rw [some]
        exact .root
      · exact .rooted some proper
  | @relative climbs names proper =>
      by_cases some : List.replicate climbs up ++ names = []
      · rw [some]
        exact .here
      · rw [chars_relative some]
        exact .relative some proper

/-- Climbs and names hold something, but neither kind of slash. -/
theorem visible_of_mem {climbs : Nat} {names : List Segment} (proper : ∀ s ∈ names, IsName s)
    : ∀ s ∈ List.replicate climbs up ++ names, s ≠ [] ∧ '/' ∉ s ∧ '\\' ∉ s := by
  intro s member
  obtain climb | listed := List.mem_append.mp member
  · rw [List.eq_of_mem_replicate climb]
    decide
  · have name := proper s listed
    exact ⟨name.nonempty, name.noSlash, name.noBackslash⟩

theorem backslash_not_mem_join {segments : List Segment} (plain : ∀ s ∈ segments, '\\' ∉ s)
    : '\\' ∉ Text.join '/' segments := by
  intro member
  obtain same | ⟨s, listed, inside⟩ := Text.mem_join member
  · cases same
  · exact plain s listed inside

/-- A text in normal form is written without backslashes. -/
theorem NormalText.backslash_not_mem (normal : NormalText text) : '\\' ∉ text := by
  cases normal with
  | empty => exact List.not_mem_nil
  | here => decide
  | root => decide
  | rooted some proper =>
      rw [List.mem_cons, not_or]
      exact ⟨by decide, backslash_not_mem_join fun s member => (proper s member).noBackslash⟩
  | relative some proper =>
      exact backslash_not_mem_join fun s member => (visible_of_mem proper s member).2.2

-----------------------------------------------------------------------------------------
-- Reading what is written
-----------------------------------------------------------------------------------------

/-- A text without backslashes is read to a path in normal form. -/
theorem clean_ofSlashed (plain : '\\' ∉ text) : Clean (ofSlashed text) := by
  have proper {fromRoot : Bool} {climbs : Nat} {names : List Segment}
      (left : reduce fromRoot (Text.pieces '/' text) = List.replicate climbs up ++ names)
      (downs : ∀ s ∈ names, Descends s)
      : ∀ s ∈ names, IsName s := by
    intro s member
    have kept : s ∈ reduce fromRoot (Text.pieces '/' text) :=
      left ▸ List.mem_append_right _ member
    exact isName_of_mem_pieces plain (mem_of_mem_reduce kept) (downs s member)
  unfold ofSlashed
  split
  · exact .empty
  · split
    · obtain ⟨climbs, names, left, downs, grounded⟩ :=
        exists_reduce_eq true (Text.pieces '/' text)
      rw [left, grounded rfl]
      exact .rooted (proper left downs)
    · obtain ⟨climbs, names, left, downs, _⟩ := exists_reduce_eq false (Text.pieces '/' text)
      rw [left]
      exact .relative climbs (proper left downs)

theorem clean_ofText (text : String) : Clean (ofText text) :=
  clean_ofSlashed (backslash_not_mem_slashed _)

/-- The segments of a written path from the root are its names, and an empty one at the front. -/
theorem reduce_pieces_rooted {names : List Segment} (proper : ∀ s ∈ names, IsName s)
    : reduce true (Text.pieces '/' (chars (.rooted names))) = names := by
  have again := reduce_eq_self true 0 (fun s member => (proper s member).descends) (by simp)
  by_cases some : names = []
  · rw [some]
    rfl
  · have cut := Text.pieces_append '/' [] (Text.join '/' names)
    rw [Text.pieces_join some fun s member => (proper s member).noSlash] at cut
    exact (congrArg (reduce true) cut).trans again

/-- The segments of a written relative path are its own. -/
theorem reduce_pieces_relative (climbs : Nat) {names : List Segment}
    (proper : ∀ s ∈ names, IsName s)
    : reduce false (Text.pieces '/' (chars (.relative (List.replicate climbs up ++ names))))
      = List.replicate climbs up ++ names := by
  by_cases some : List.replicate climbs up ++ names = []
  · rw [some]
    rfl
  · rw [chars_relative some,
      Text.pieces_join some fun s member => (visible_of_mem proper s member).2.1]
    exact reduce_eq_self false climbs (fun s member => (proper s member).descends) (by simp)

/-- A written relative path begins with something other than a slash. -/
theorem exists_chars_relative_eq (climbs : Nat) {names : List Segment}
    (proper : ∀ s ∈ names, IsName s)
    : ∃ c more, chars (.relative (List.replicate climbs up ++ names)) = c :: more ∧ c ≠ '/' := by
  cases segments : List.replicate climbs up ++ names with
  | nil => exact ⟨'.', [], rfl, by decide⟩
  | cons first rest =>
      obtain ⟨nonempty, noSlash, _⟩ :=
        visible_of_mem proper first (segments ▸ List.mem_cons_self)
      obtain ⟨c, more, rfl⟩ := List.exists_cons_of_ne_nil nonempty
      rw [List.mem_cons, not_or] at noSlash
      rw [chars_relative (List.cons_ne_nil _ _)]
      cases rest with
      | nil => exact ⟨c, more, rfl, Ne.symm noSlash.1⟩
      | cons => exact ⟨c, _, rfl, Ne.symm noSlash.1⟩

/-- Reading a written path gives it back. -/
theorem Clean.ofSlashed_chars (clean : Clean p) : ofSlashed p.chars = p := by
  cases clean with
  | empty => rfl
  | @rooted names proper =>
      have same := reduce_pieces_rooted proper
      rw [chars] at same
      simp [ofSlashed, startsAtRoot, chars, same]
  | @relative climbs names proper =>
      have same := reduce_pieces_relative climbs proper
      obtain ⟨c, more, begins, other⟩ := exists_chars_relative_eq climbs proper
      rw [begins] at same ⊢
      simp [ofSlashed, startsAtRoot, other, same]

theorem toList_text (p : Path) : p.text.toList = p.chars :=
  String.toList_ofList

/-- Cleaning what is clean changes nothing. -/
theorem Clean.ofText_text (clean : Clean p) : ofText p.text = p := by
  rw [ofText, toList_text, map_slash_eq_self clean.normalText.backslash_not_mem,
    clean.ofSlashed_chars]

theorem ofSlashed_eq_empty_iff : ofSlashed text = .empty ↔ text = [] := by
  unfold ofSlashed
  split
  next none => simpa using none
  next some => split <;> simpa using some

/-- Only the empty text is read to the empty path. -/
theorem ofText_eq_empty_iff {text : String} : ofText text = .empty ↔ text = "" := by
  rw [ofText, ofSlashed_eq_empty_iff, List.map_eq_nil_iff, String.toList_eq_nil_iff]

/-- Only the empty path is written as the empty text. -/
theorem Clean.text_eq_empty_iff (clean : Clean p) : p.text = "" ↔ p = .empty := by
  rw [← ofText_eq_empty_iff, clean.ofText_text]

end Rollout.Path
