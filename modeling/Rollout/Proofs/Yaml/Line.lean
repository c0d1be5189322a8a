import Mathlib.Data.List.Basic
import Mathlib.Data.List.TakeWhile
import Mathlib.Tactic.Common
import Rollout.Text.Blank
import Rollout.Yaml.Token.Scan

/-!
The lines that a reader of YAML sees, and how it skips those that are blank or comments. Where a
text has no other lines, the reader comes to its end or to white space that it does
not take for such.
-/

namespace Rollout.Yaml

variable {text more line : List Char} {c : Char}

-----------------------------------------------------------------------------------------
-- Lines
-----------------------------------------------------------------------------------------

/-- Does the character end a line, before breaks are unified? -/
def breaksLine (c : Char) : Bool :=
  isBreak c || c = '\r' || c = '\u0085'

def feed (c : Char) : Char :=
  if breaksLine c then '\n' else c

/-- The lines of a text, cut at every character that ends one. -/
def lines (text : List Char) : List (List Char) :=
  Text.pieces '\n' (text.map feed)

/-- A line that shows nothing, or a comment first. -/
def IsBlankLine (line : List Char) : Prop :=
  ∀ c, (Text.trim line).head? = some c → c = '#'

theorem lines_ne_nil (text : List Char) : lines text ≠ [] :=
  Text.pieces_ne_nil _ _

theorem feed_of_breaks (breaks : breaksLine c = true) : feed c = '\n' :=
  if_pos breaks

theorem lines_append (breaks : breaksLine c = true) (text more : List Char)
    : lines (text ++ c :: more) = lines text ++ lines more := by
  rw [lines, List.map_append, List.map_cons, feed_of_breaks breaks, Text.pieces_append]
  rfl

theorem lines_cons_of_breaks (breaks : breaksLine c = true) (text : List Char)
    : lines (c :: text) = [] :: lines text :=
  lines_append breaks [] text

/-- A character that ends no line belongs to the first line of what follows. -/
theorem exists_lines_cons (goesOn : breaksLine c = false) (text : List Char)
    : ∃ first others,
        lines text = first :: others ∧ lines (c :: text) = (c :: first) :: others := by
  obtain ⟨first, others, cut⟩ := List.exists_cons_of_ne_nil (lines_ne_nil text)
  refine ⟨first, others, cut, ?_⟩
  have same : feed c = c := if_neg (by simp [goesOn])
  have other : c ≠ '\n' := by
    rintro rfl
    cases goesOn
  rw [lines] at cut ⊢
  rw [List.map_cons, same, Text.pieces, if_neg other, cut]

/-- So does a text without line breaks. -/
theorem exists_lines_append (goesOn : ∀ c ∈ text, breaksLine c = false) (more : List Char)
    : ∃ first others, lines more = first :: others
        ∧ lines (text ++ more) = (text ++ first) :: others := by
  induction text with
  | nil =>
      obtain ⟨first, others, cut⟩ := List.exists_cons_of_ne_nil (lines_ne_nil more)
      exact ⟨first, others, cut, cut⟩
  | cons c text ih =>
      obtain ⟨goes, later⟩ := List.forall_mem_cons.mp goesOn
      obtain ⟨first, others, cut, joined⟩ := ih later
      obtain ⟨front, rest, same, put⟩ := exists_lines_cons goes (text ++ more)
      obtain ⟨rfl, rfl⟩ := List.cons_eq_cons.mp (joined.symm.trans same)
      exact ⟨first, others, cut, put⟩

-----------------------------------------------------------------------------------------
-- What a line shows first
-----------------------------------------------------------------------------------------

/-- Trimming keeps the first character that is no white space. -/
theorem head?_trim (line : List Char) : (Text.trim line).head? = line.find? (!Text.isBlank ·) := by
  induction line with
  | nil => rfl
  | cons c rest ih =>
      cases blank : Text.isBlank c with
      | true =>
          rw [Text.trim, List.dropWhile_cons_of_pos blank, List.find?_cons_of_neg (by simp [blank])]
          exact ih
      | false =>
          rw [Text.trim, List.dropWhile_cons_of_neg (by simp [blank]), List.reverse_cons,
            List.dropWhile_append, List.find?_cons_of_pos (by simp [blank])]
          split <;> simp [blank]

theorem isBlankLine_of_blank (blank : ∀ c ∈ line, Text.isBlank c = true) : IsBlankLine line := by
  intro c shown
  rw [head?_trim] at shown
  have visible := List.find?_some shown
  rw [blank c (List.mem_of_find?_eq_some shown)] at visible
  cases visible

/-- White space in front of a line makes no difference. -/
theorem isBlankLine_cons (blank : Text.isBlank c = true)
    : IsBlankLine (c :: line) ↔ IsBlankLine line := by
  unfold IsBlankLine
  rw [head?_trim, head?_trim, List.find?_cons_of_neg (by simp [blank])]

/-- A line that shows something first is a comment or nothing. -/
theorem isBlankLine_append_cons (blank : ∀ c ∈ text, Text.isBlank c = true)
    (shown : Text.isBlank c = false)
    : IsBlankLine (text ++ c :: more) ↔ c = '#' := by
  have first : (text ++ c :: more).find? (!Text.isBlank ·) = some c := by
    rw [List.find?_append, List.find?_eq_none.mpr fun d member => by simp [blank d member],
      List.find?_cons_of_pos (by simp [shown])]
    rfl
  unfold IsBlankLine
  rw [head?_trim, first]
  exact ⟨fun only => only c rfl, fun same d shows => (Option.some.inj shows).symm.trans same⟩

/-- The characters that end a line are white space. -/
theorem isBlank_of_breaksLine (breaks : breaksLine c = true) : Text.isBlank c = true := by
  simp only [breaksLine, isBreak, Bool.or_eq_true, decide_eq_true_eq, or_assoc] at breaks
  rcases breaks with rfl | rfl | rfl | rfl | rfl <;> decide

-----------------------------------------------------------------------------------------
-- Skipping blank lines and comments
-----------------------------------------------------------------------------------------

namespace Cursor

theorem rest_next (p : Cursor) : p.next.rest = p.rest.tail := by
  unfold next
  split
  next none => rw [none]; rfl
  next c rest some => split <;> rw [some] <;> rfl

theorem rest_skip (p : Cursor) (count : Nat) : (p.skip count).rest = p.rest.drop count := by
  induction count generalizing p with
  | zero => rfl
  | succ count ih => rw [skip, ih, rest_next, List.drop_tail]

theorem rest_span (p : Cursor) (test : Char → Bool)
    : (p.span test).2.rest = p.rest.dropWhile test := by
  have whole := p.rest.takeWhile_append_dropWhile (p := test)
  calc (p.span test).2.rest
      = p.rest.drop (p.rest.takeWhile test).length := rest_skip p _
    _ = (p.rest.takeWhile test ++ p.rest.dropWhile test).drop (p.rest.takeWhile test).length := by
        rw [whole]
    _ = p.rest.dropWhile test := List.drop_left

/-- Skipping spaces and then a comment leads to the end of a line, or past spaces alone to something
that begins no comment.
-/
theorem exists_skipped (p : Cursor) (test : Char → Bool) (spaces : ∀ c, test c = true ↔ c = ' ')
    : ∃ skipped, p.rest = skipped ++ (p.span test).2.skipComment.rest
        ∧ ∀ c rest, (p.span test).2.skipComment.rest = c :: rest → isBreak c = false
          → c ≠ ' ' ∧ c ≠ '#' ∧ ∀ d ∈ skipped, d = ' ' := by
  have whole := p.rest.takeWhile_append_dropWhile (p := test)
  rw [← p.rest_span] at whole
  cases comment : (p.span test).2.sees '#' with
  | true =>
      have onward := (p.span test).2.rest.takeWhile_append_dropWhile (p := (!isBreak ·))
      rw [skipComment, if_pos comment, rest_span]
      refine ⟨p.rest.takeWhile test ++ (p.span test).2.rest.takeWhile (!isBreak ·), ?_, ?_⟩
      · rw [List.append_assoc, onward, whole]
      · intro c rest ended goesOn
        have stopped := List.head?_dropWhile_not (!isBreak ·) (p.span test).2.rest
        rw [ended] at stopped
        simp [goesOn] at stopped
  | false =>
      rw [skipComment, if_neg (by simp [comment])]
      refine ⟨p.rest.takeWhile test, whole.symm, fun c rest shown _ => ⟨?_, ?_, ?_⟩⟩
      · have stopped := List.head?_dropWhile_not test p.rest
        rw [← rest_span, shown] at stopped
        rintro rfl
        exact absurd ((spaces ' ').mpr rfl) (by simpa using stopped)
      · rintro rfl
        simp [sees, peek, shown] at comment
      · intro d member
        exact (spaces d).mp (List.mem_takeWhile_imp member)

end Cursor

/-- A text all of whose lines are blank or comments. -/
def BlankText (text : List Char) : Prop :=
  ∀ line ∈ lines text, IsBlankLine line

theorem BlankText.after (blank : BlankText (text ++ c :: more)) (breaks : breaksLine c = true)
    : BlankText more := by
  intro line member
  refine blank line ?_
  rw [lines_append breaks]
  exact List.mem_append_right _ member

/-- Unifying breaks keeps the lines, but for those between a carriage return and its line feed. -/
theorem exists_lines_unifyBreaks (text : List Char)
    : ∃ first others more, lines (unifyBreaks text) = first :: others
        ∧ lines text = first :: more ∧ others ⊆ more := by
  fun_induction unifyBreaks text with
  | case1 => exact ⟨[], [], [], rfl, rfl, List.Subset.refl _⟩
  | case2 rest ih =>
      obtain ⟨first, others, more, unified, cut, fewer⟩ := ih
      refine ⟨[], first :: others, [] :: first :: more, ?_, ?_, ?_⟩
      · rw [lines_cons_of_breaks rfl, unified]
      · rw [lines_cons_of_breaks rfl, lines_cons_of_breaks rfl, cut]
      · exact fun line member => List.mem_cons_of_mem _ (List.cons_subset_cons _ fewer member)
  | case3 c rest _ ih =>
      obtain ⟨first, others, more, unified, cut, fewer⟩ := ih
      cases breaks : breaksLine c with
      | true =>
          have still : breaksLine (if c = '\r' || c = '\u0085' then '\n' else c) = true := by
            split
            · rfl
            · exact breaks
          refine ⟨[], first :: others, first :: more, ?_, ?_, List.cons_subset_cons _ fewer⟩
          · rw [lines_cons_of_breaks still, unified]
          · rw [lines_cons_of_breaks breaks, cut]
      | false =>
          have same : (if c = '\r' || c = '\u0085' then '\n' else c) = c := by
            refine if_neg fun marks => ?_
            rw [breaksLine, Bool.or_assoc, marks, Bool.or_true] at breaks
            cases breaks
          rw [same]
          obtain ⟨front, rest', cut', put⟩ := exists_lines_cons breaks (unifyBreaks rest)
          obtain ⟨front', rest'', cut'', put'⟩ := exists_lines_cons breaks rest
          obtain ⟨rfl, rfl⟩ := List.cons_eq_cons.mp (unified.symm.trans cut')
          obtain ⟨rfl, rfl⟩ := List.cons_eq_cons.mp (cut.symm.trans cut'')
          exact ⟨c :: first, others, more, put, put', fewer⟩

theorem BlankText.unifyBreaks (blank : BlankText text) : BlankText (unifyBreaks text) := by
  obtain ⟨first, others, more, unified, cut, fewer⟩ := exists_lines_unifyBreaks text
  intro line member
  rw [unified] at member
  rw [BlankText, cut] at blank
  exact blank line (List.cons_subset_cons _ fewer member)

/-- What such a text shows first begins a comment. -/
theorem BlankText.isBlank_of_ne (blank : BlankText (text ++ c :: more))
    (front : ∀ d ∈ text, d = ' ') (other : c ≠ '#')
    : Text.isBlank c = true := by
  cases goesOn : breaksLine c with
  | true => exact isBlank_of_breaksLine goesOn
  | false =>
      have goes : ∀ d ∈ text ++ [c], breaksLine d = false := by
        intro d member
        rcases List.mem_append.mp member with space | last
        · rw [front d space]
          rfl
        · rw [List.mem_singleton.mp last, goesOn]
      obtain ⟨first, others, _, cut⟩ := exists_lines_append goes more
      rw [List.append_assoc, List.append_assoc] at cut
      have margin : ∀ d ∈ text, Text.isBlank d = true := fun d space => front d space ▸ rfl
      have only := blank _ (cut ▸ List.mem_cons_self)
      by_contra shown
      exact other ((isBlankLine_append_cons margin (Bool.not_eq_true _ ▸ shown)).mp only)

/-- White space that is not skipped where a key may begin. -/
def IsStray (c : Char) : Prop :=
  Text.isBlank c = true ∧ c ≠ ' ' ∧ isBreak c = false

/-- Before the first token, blank lines and comments are skipped up to the end of the text or to
stray white space, by induction on the lines.
-/
theorem skipGap_of_blank {ahead : List Char} {s : Scan} (block : s.outerKeys = [])
    (allowed : s.keyAllowed = true) (blank : BlankText s.place.rest)
    (enough : s.place.rest.length ≤ ahead.length)
    : ∃ p, Scan.skipGap ahead s = { s with place := p }
        ∧ ∀ c rest, p.rest = c :: rest → IsStray c := by
  induction ahead generalizing s with
  | nil =>
      refine ⟨s.place, rfl, fun c rest shown => ?_⟩
      simp [shown] at enough
  | cons _ ahead ih =>
      obtain ⟨place, tokens, count, columns, keyStart, outerKeys, keyAllowed⟩ := s
      obtain rfl : outerKeys = [] := block
      obtain rfl : keyAllowed = true := allowed
      have noMark : place.sees '\ufeff' = false := by
        rw [Cursor.sees, Cursor.peek, decide_eq_false_iff_not]
        intro shown
        obtain ⟨rest, begins⟩ := List.head?_eq_some_iff.mp shown
        have front : BlankText ([] ++ '\ufeff' :: rest) := begins ▸ blank
        have visible := front.isBlank_of_ne (List.forall_mem_nil _) (by decide)
        cases visible
      obtain ⟨skipped, whole, stopped⟩ :=
        place.exists_skipped (fun c => c = ' ' || (false && c = '\t')) (by simp)
      rw [whole] at blank enough
      rw [Scan.skipGap]
      simp only [noMark, Bool.and_false, if_neg Bool.false_ne_true, Scan.inFlow, List.isEmpty_nil,
        Bool.not_true, Bool.or_false, Bool.true_or]
      generalize (place.span fun c => c = ' ' || (false && c = '\t')).2.skipComment = p
        at whole stopped blank enough ⊢
      split
      next breaks =>
        obtain ⟨c, shown, ends⟩ := (Option.any_eq_true ..).mp breaks
        obtain ⟨more, begins⟩ := List.head?_eq_some_iff.mp shown
        have next : p.next.rest = more := by rw [p.rest_next, begins, List.tail_cons]
        rw [begins] at blank enough
        refine ih (s := ⟨p.next, tokens, count, columns, keyStart, [], true⟩) rfl rfl ?_ ?_
        · rw [next]
          exact blank.after (by simp [breaksLine, ends])
        · simp only [List.length_append, List.length_cons] at enough
          rw [next]
          omega
      next goesOn =>
        refine ⟨p, rfl, fun c more begins => ?_⟩
        have goes : isBreak c = false := by simpa [Cursor.peek, begins] using goesOn
        obtain ⟨noSpace, noComment, front⟩ := stopped c more begins goes
        exact ⟨BlankText.isBlank_of_ne (begins ▸ blank) front noComment, noSpace, goes⟩

end Rollout.Yaml
