import Rollout.Definition.File
import Rollout.Proofs.Batch
import Rollout.Proofs.Yaml.Reading

/-!
When a file is rightly taken for one without definitions before it is read. The test knows the line
feed alone as the end of a line, and a reader of YAML others too, at which a comment ends. Where no
comment holds one of those, both see the same blank lines and comments, and there
is nothing to read.
-/

namespace Rollout

namespace Text

variable {line piece text : List Char}

/-- What trimming drops at both ends is white space. -/
theorem exists_margins (line : List Char)
    : ∃ left right, line = left ++ (trim line ++ right)
        ∧ (∀ c ∈ left, isBlank c = true) ∧ ∀ c ∈ right, isBlank c = true := by
  have front := line.takeWhile_append_dropWhile (p := isBlank)
  have back := (line.dropWhile isBlank).reverse.takeWhile_append_dropWhile (p := isBlank)
  refine ⟨line.takeWhile isBlank, ((line.dropWhile isBlank).reverse.takeWhile isBlank).reverse, ?_,
    fun c member => List.mem_takeWhile_imp member, fun c member => ?_⟩
  · rw [trim, ← List.reverse_append, back, List.reverse_reverse, front]
  · exact List.mem_takeWhile_imp (List.mem_reverse.mp member)

theorem trim_append_singleton {c : Char} (blank : isBlank c = true) (line : List Char)
    : trim (line ++ [c]) = trim line := by
  rw [trim, trim, List.dropWhile_append]
  split
  next none =>
    rw [List.isEmpty_iff.mp none, List.dropWhile_cons_of_pos blank]
    rfl
  next =>
    rw [List.reverse_append, List.reverse_singleton, List.singleton_append,
      List.dropWhile_cons_of_pos blank]

theorem trim_dropFinalReturn (line : List Char) : trim (dropFinalReturn line) = trim line := by
  unfold dropFinalReturn
  split
  next last =>
    obtain ⟨front, rfl⟩ := List.getLast?_eq_some_iff.mp last
    rw [List.dropLast_concat, trim_append_singleton rfl]
  next => rfl

/-- What is cut at line feeds are the lines, and nothing behind the last one. -/
theorem exists_pieces_eq (text : List Char)
    : ∃ front last, pieces '\n' text = front ++ [last]
        ∧ lines text = front.map dropFinalReturn ++ if last = [] then [] else [last] := by
  obtain ⟨front, last, cut⟩ :=
    (List.eq_nil_or_concat' (pieces '\n' text)).resolve_left (pieces_ne_nil '\n' text)
  refine ⟨front, last, cut, ?_⟩
  simp only [lines, cut, List.dropLast_concat, List.getLast?_concat]
  cases last <;> rfl

/-- Up to white space at its ends, a line is what stands between line feeds. -/
theorem forall_mem_lines_iff {P : List Char → Prop} (nothing : P [])
    : (∀ line ∈ lines text, P (trim line)) ↔ ∀ piece ∈ pieces '\n' text, P (trim piece) := by
  obtain ⟨front, last, cut, listed⟩ := exists_pieces_eq text
  rw [cut, listed, List.forall_mem_append, List.forall_mem_append, List.forall_mem_map,
    List.forall_mem_singleton]
  refine and_congr (forall₂_congr fun line _ => by rw [trim_dropFinalReturn]) ?_
  split
  next none =>
    rw [none]
    exact iff_of_true (List.forall_mem_nil _) nothing
  next => exact List.forall_mem_singleton

end Text

namespace Yaml

variable {text line comment margin : List Char} {c : Char}

theorem lines_join {segments : List (List Char)} (some : segments ≠ [])
    : lines (Text.join '\n' segments) = segments.flatMap lines := by
  induction segments with
  | nil => exact absurd rfl some
  | cons segment others ih =>
      by_cases more : others = []
      · rw [more, List.flatMap_singleton]
        rfl
      · rw [Text.join_cons more, lines_append rfl, ih more, List.flatMap_cons]

/-- A reader of YAML cuts at line feeds, and further what stands between them. -/
theorem blankText_iff : BlankText text ↔ ∀ piece ∈ Text.pieces '\n' text, BlankText piece := by
  have cut := lines_join (Text.pieces_ne_nil '\n' text)
  rw [Text.join_pieces] at cut
  rw [BlankText, cut, List.forall_mem_flatMap]
  rfl

theorem blankText_of_blank (blank : ∀ c ∈ text, Text.isBlank c = true) : BlankText text := by
  intro line member
  refine isBlankLine_of_blank fun c inside => ?_
  obtain ⟨d, listed, rfl⟩ := List.mem_map.mp (Text.mem_of_mem_pieces member inside)
  unfold feed
  split
  · rfl
  · exact blank d listed

/-- White space in front leaves blank lines and comments what they are. -/
theorem blankText_cons (white : Text.isBlank c = true)
    : BlankText (c :: text) ↔ BlankText text := by
  cases breaks : breaksLine c with
  | true =>
      rw [BlankText, lines_cons_of_breaks breaks, List.forall_mem_cons]
      exact and_iff_right (isBlankLine_of_blank (List.forall_mem_nil _))
  | false =>
      obtain ⟨first, others, cut, put⟩ := exists_lines_cons breaks text
      rw [BlankText, BlankText, cut, put, List.forall_mem_cons, List.forall_mem_cons,
        isBlankLine_cons white]

theorem BlankText.append_left (blank : BlankText text) (white : ∀ c ∈ margin, Text.isBlank c = true)
    : BlankText (margin ++ text) := by
  induction margin with
  | nil => exact blank
  | cons c margin ih =>
      obtain ⟨whiteHere, whiteLater⟩ := List.forall_mem_cons.mp white
      exact (blankText_cons whiteHere).mpr (ih whiteLater)

/-- What a text of blank lines and comments shows first begins a comment, by induction on the white
space before it.
-/
theorem BlankText.isBlankLine (blank : BlankText text) : IsBlankLine text := by
  induction text with
  | nil => exact isBlankLine_of_blank (List.forall_mem_nil _)
  | cons c text ih =>
      cases white : Text.isBlank c with
      | true => exact (isBlankLine_cons white).mpr (ih ((blankText_cons white).mp blank))
      | false =>
          have front : BlankText ([] ++ c :: text) := blank
          obtain rfl : c = '#' := by
            by_contra other
            cases white.symm.trans (front.isBlank_of_ne (List.forall_mem_nil _) other)
          have shown : IsBlankLine ([] ++ '#' :: text) :=
            (isBlankLine_append_cons (List.forall_mem_nil _) white).mpr rfl
          exact shown

/-- A comment in which no line ends is one line, whatever white space follows it. -/
theorem blankText_comment (unbroken : ∀ c ∈ '#' :: comment, breaksLine c = false)
    (white : ∀ c ∈ margin, Text.isBlank c = true)
    : BlankText ('#' :: comment ++ margin) := by
  obtain ⟨first, others, cut, put⟩ := exists_lines_append unbroken margin
  have blank := blankText_of_blank white
  rw [BlankText, cut, List.forall_mem_cons] at blank
  rw [BlankText, put, List.forall_mem_cons]
  have shown : IsBlankLine ([] ++ '#' :: (comment ++ first)) :=
    (isBlankLine_append_cons (List.forall_mem_nil _) rfl).mpr rfl
  exact ⟨shown, blank.2⟩

/-- A line that is blank or a comment stays so, cut further, if its comment is not cut. -/
theorem blankText_of_isBlankLine (blank : IsBlankLine line)
    (unbroken : ∀ c ∈ Text.trim line, breaksLine c = false)
    : BlankText line := by
  obtain ⟨left, right, whole, whiteLeft, whiteRight⟩ := Text.exists_margins line
  rw [whole]
  refine .append_left ?_ whiteLeft
  cases trimmed : Text.trim line with
  | nil => exact blankText_of_blank whiteRight
  | cons c comment =>
      rw [trimmed] at unbroken
      obtain rfl : c = '#' := blank c (by rw [trimmed]; rfl)
      exact blankText_comment unbroken whiteRight

end Yaml

namespace Definition

open Yaml (BlankText IsBlankLine breaksLine)

variable {text : List Char}

/-- The test asks what each part between line feeds shows first. -/
theorem isBlankFile_iff
    : isBlankFile text = true ↔ ∀ piece ∈ Text.pieces '\n' text, IsBlankLine piece := by
  have comments : isBlankFile text = true
      ↔ ∀ line ∈ Text.lines text, ∀ c, (Text.trim line).head? = some c → c = '#' := by
    unfold isBlankFile
    rw [List.all_eq_true]
    refine forall₂_congr fun line _ => ?_
    cases Text.trim line <;> simp
  exact comments.trans
    (Text.forall_mem_lines_iff (P := fun line => ∀ c, line.head? = some c → c = '#') (by simp))

/-- Whatever a reader of YAML sees as blank lines and comments is such for the test too. -/
theorem isBlankFile_of_blank (blank : BlankText text) : isBlankFile text = true :=
  isBlankFile_iff.mpr fun piece cut => (Yaml.blankText_iff.mp blank piece cut).isBlankLine

/-- The converse holds where no line ends within a comment. -/
theorem blankText_of_isBlankFile (test : isBlankFile text = true)
    (unbroken : ∀ line ∈ Text.lines text, ∀ c ∈ Text.trim line, breaksLine c = false)
    : BlankText text := by
  have goesOn := (Text.forall_mem_lines_iff (P := fun line => ∀ c ∈ line, breaksLine c = false)
    (List.forall_mem_nil _)).mp unbroken
  exact Yaml.blankText_iff.mpr fun piece cut =>
    Yaml.blankText_of_isBlankLine (isBlankFile_iff.mp test piece cut) (goesOn piece cut)

/-- A text of blank lines and comments gives no definitions. -/
theorem readFile_of_blank (blank : BlankText text) {definitions : List Definition}
    (given : readFile text = .ok definitions)
    : definitions = [] := by
  refine Yaml.Reading.Yields.of_read (P := (· = fileSchema.start)) ?_ given
  rcases Yaml.opening_of_blank blank with nothing | ⟨c, more, white, opens⟩
  · rw [nothing]
    exact Yaml.Reading.yields_record_nothing _ _
  · have unknown : fileSchema.field? (String.ofList (c :: more)) = none := by
      refine List.find?_eq_none.mpr fun field member named => ?_
      obtain rfl := List.mem_singleton.mp member
      have begins := congrArg String.toList (of_decide_eq_true named)
      rw [String.toList_ofList] at begins
      cases (List.cons_eq_cons.mp begins).1
      cases white
    exact Yaml.Reading.yields_record rfl rfl unknown opens _ _

/-- A file of which the lines are blank or comments, where a line ends at a line feed, is reported
as one without definitions. A reader of YAML finds none in it either, whether it reads the text or
refuses it, unless a comment holds another character at which a line of YAML ends. Every file in
which such a reader sees blank lines and comments alone is reported so.
-/
theorem isBlankFile_agrees (file : String)
    : (isBlankFile file.toList = true →
        (∀ path, ofFile path file = .error (.noConfigurations path))
        ∧ ((∀ line ∈ Text.lines file.toList, ∀ c ∈ Text.trim line, breaksLine c = false) →
          ∀ definitions, readFile file.toList = .ok definitions → definitions = []))
      ∧ (BlankText file.toList →
        isBlankFile file.toList = true
        ∧ ∀ definitions, readFile file.toList = .ok definitions → definitions = []) := by
  refine ⟨fun test => ⟨fun path => if_pos test, fun unbroken _ => ?_⟩, fun blank => ?_⟩
  · exact readFile_of_blank (blankText_of_isBlankFile test unbroken)
  · exact ⟨isBlankFile_of_blank blank, fun _ => readFile_of_blank blank⟩

/-- Line breaks of both kinds, and a comment that does not begin its line. -/
theorem isBlankFile_agrees_commented
    : let file := "# services\r\n\n  # none yet\n"
      isBlankFile file.toList = true
        ∧ (∀ line ∈ Text.lines file.toList, ∀ c ∈ Text.trim line, breaksLine c = false)
        ∧ ofFile (.ofText "slo.yaml") file = .error (.noConfigurations (.ofText "slo.yaml"))
        ∧ readFile file.toList = .ok [] := by
  intro file
  have test : isBlankFile file.toList = true := by decide
  have whole : (Text.lines file.toList).all fun line => (Text.trim line).all (!breaksLine ·) := by
    decide
  have unbroken : ∀ line ∈ Text.lines file.toList, ∀ c ∈ Text.trim line, breaksLine c = false := by
    simpa only [List.all_eq_true, Bool.not_eq_true'] using whole
  have readable : (readFile file.toList).toOption.any List.isEmpty = true := by
    simp only [file, String.reduceToList]
    decide
  obtain ⟨reported, agrees⟩ := (isBlankFile_agrees file).1 test
  obtain ⟨definitions, read, _⟩ := Batch.exists_ok_of_any readable
  rw [agrees unbroken definitions read] at read
  exact ⟨test, unbroken, reported _, read⟩

/-- A carriage return ends the comment for a reader of YAML, and a definition follows. -/
theorem isBlankFile_hides_definitions
    : ¬ ∀ (path : Path) (file : String), ofFile path file = .error (.noConfigurations path) →
        isBlankFile file.toList = true →
          ∀ definitions, readFile file.toList = .ok definitions → definitions = [] := by
  intro agrees
  let file := "# services\rconfigs: [{id: a}]\r"
  have test : isBlankFile file.toList = true := by decide
  have found : (readFile file.toList).toOption.any (!List.isEmpty ·) = true := by
    simp only [file, String.reduceToList]
    decide
  obtain ⟨definitions, read, some⟩ := Batch.exists_ok_of_any found
  rw [agrees (.ofText "slo.yaml") file (if_pos test) test definitions read] at some
  cases some

end Definition

end Rollout
