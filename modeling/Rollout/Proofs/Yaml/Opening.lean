import Rollout.Proofs.Yaml.Growth
import Rollout.Proofs.Yaml.Line
import Rollout.Yaml.Document

/-!
How a text of blank lines and comments opens as a document. Either it holds nothing but its end, or
it begins with a plain scalar whose first character is stray white space; then that scalar is all
that the document holds, or it stands in the first key of a mapping, or the tokens break the rules
there.
-/

namespace Rollout.Yaml

variable {c : Char} {rest text : List Char}

-----------------------------------------------------------------------------------------
-- The first token
-----------------------------------------------------------------------------------------

namespace IsStray

theorem ne (stray : IsStray c) {d : Char} (shown : Text.isBlank d = false) : c ≠ d := by
  rintro rfl
  rw [stray.1] at shown
  cases shown

theorem not_atMark (stray : IsStray c) {p : Cursor} (begins : p.rest = c :: rest) (mark : Char)
    (shown : Text.isBlank mark = false)
    : p.atMark mark = false := by
  simp [Cursor.atMark, begins, stray.ne shown]

theorem not_reserved (stray : IsStray c) : isReserved c = false := by
  have other (d : Char) (shown : Text.isBlank d = false) : (c = d) = False :=
    eq_false (stray.ne shown)
  have noBacktick : (c.toNat = 0x60) = False := by
    refine eq_false fun same => ?_
    have blank := stray.1
    simp [Text.isBlank, same] at blank
  simp only [isReserved, isFlowMark, noBacktick, other ',' rfl, other '[' rfl, other ']' rfl,
    other '\x7b' rfl, other '\x7d' rfl, other '#' rfl, other '&' rfl, other '*' rfl, other '!' rfl,
    other '|' rfl, other '>' rfl, other '\'' rfl, other '"' rfl, other '%' rfl, other '@' rfl]
  rfl

end IsStray

/-- The word at stray white space other than a tab begins with it. -/
theorem plainWord_of_stray (stray : IsStray c) (noTab : c ≠ '\t')
    : plainWord false (c :: rest) = (plainWord false rest).map (c :: ·) := by
  have noGap : isGap c = false := by
    simp [isGap, isBlank, stray.2.1, noTab, stray.2.2]
  simp [plainWord, noGap, stray.ne (d := ':') rfl]

theorem plainScalar_of_stray {least : Nat} {p after : Cursor} {broken : Bool}
    (begins : p.rest = c :: rest) (stray : IsStray c) (noTab : c ≠ '\t')
    (read : plainScalar false least p = some (text, broken, after))
    : ∃ more, text = c :: more := by
  have noMark := stray.not_atMark begins
  have noComment : p.sees '#' = false := by
    simp [Cursor.sees, Cursor.peek, begins, stray.ne (d := '#') rfl]
  rw [plainScalar, begins, plainFrom] at read
  simp only [Cursor.atDocumentMark, noMark '-' rfl, noMark '.' rfl, noComment, Bool.or_false,
    if_neg Bool.false_ne_true, begins, plainWord_of_stray stray noTab, Option.bind_eq_bind,
    Option.bind_eq_some_iff, Option.map_eq_some_iff] at read
  obtain ⟨word, ⟨more, _, rfl⟩, ended⟩ := read
  have noGap : foldGap [] = [] := rfl
  simp only [List.isEmpty_cons, if_neg Bool.false_ne_true, Option.ite_none_left_eq_some, noGap,
    List.nil_append, List.cons_append] at ended
  obtain ⟨_, ended⟩ := ended
  split at ended
  · cases ended
    exact ⟨more, rfl⟩
  · split at ended
    · cases ended
      exact ⟨more, rfl⟩
    · obtain ⟨⟨others, _⟩, _, same⟩ := Option.bind_eq_some_iff.mp ended
      cases same
      exact ⟨more ++ others, rfl⟩

/-- At stray white space stands a plain scalar, or no token if that is a tab. -/
theorem tokenHere_of_stray {s : Scan} (begins : s.place.rest = c :: rest) (stray : IsStray c)
    : s.tokenHere = if c = '\t' then none else s.plainHere := by
  have noMark := stray.not_atMark begins
  have other (d : Char) (shown : Text.isBlank d = false) : (c = d) = False :=
    eq_false (stray.ne shown)
  have plain : Scan.beginsPlain s.inFlow c rest = !decide (c = '\t') := by
    simp only [Scan.beginsPlain, isGap, isBlank, stray.2.1, stray.2.2, stray.not_reserved,
      other '-' rfl, other '?' rfl, other ':' rfl]
    simp
  simp only [Scan.tokenHere, begins, noMark '-' rfl, noMark '.' rfl, plain, other '%' rfl,
    other '[' rfl, other '\x7b' rfl, other ']' rfl, other '\x7d' rfl, other ',' rfl, other '-' rfl,
    other '?' rfl, other ':' rfl, other '*' rfl, other '&' rfl, other '!' rfl, other '|' rfl,
    other '>' rfl, other '\'' rfl, other '"' rfl]
  by_cases tab : c = '\t' <;> simp [tab]

/-- The scan of a text of blank lines and comments begins with the end of the text, or with a plain
scalar at stray white space, or not at all.
-/
theorem step_of_blank {text : List Char} (blank : BlankText text) {after : Scan}
    (read : (Scan.ofText text).step = some after)
    : after.tokens = [.textEnd]
      ∨ ∃ c more, Text.isBlank c = true
          ∧ after.tokens = [.scalar (String.ofList (c :: more)) true] := by
  obtain ⟨p, skipped, stray⟩ :=
    skipGap_of_blank (s := .ofText text) rfl rfl blank (Nat.le_refl _)
  simp only [Scan.step, Option.bind_eq_bind, Option.bind_eq_some_iff] at read
  obtain ⟨past, drops, token, reads, done⟩ := read
  rw [Scan.tokens_dropPastKeys done]
  -- No key has begun and no block is open, so nothing is given up or closed before the token.
  obtain rfl : { Scan.ofText text with place := p } = past := by
    rw [skipped] at drops
    exact Option.some.inj drops
  have closed : Scan.closeBlocks (· ≤ p.column) { Scan.ofText text with place := p }
      = { Scan.ofText text with place := p } := rfl
  rw [closed] at reads
  cases begins : p.rest with
  | nil =>
      left
      simp only [Scan.tokenHere, begins] at reads
      obtain rfl := Option.some.inj reads
      rfl
  | cons c rest =>
      right
      rw [tokenHere_of_stray begins (stray c rest begins), Option.ite_none_left_eq_some] at reads
      obtain ⟨noTab, reads⟩ := reads
      simp only [Scan.plainHere, Option.bind_eq_bind, Option.bind_eq_some_iff] at reads
      obtain ⟨noted, notes, ⟨word, broken, last⟩, scalar, same⟩ := reads
      obtain rfl := Option.some.inj notes
      obtain rfl := Option.some.inj same
      obtain ⟨more, rfl⟩ := plainScalar_of_stray begins (stray c rest begins) noTab scalar
      exact ⟨c, more, (stray c rest begins).1, rfl⟩

/-- The tokens of such a text are its end alone, or begin with a plain scalar at white space. -/
theorem tokens_of_blank {text : List Char} (blank : BlankText text)
    : tokens text = [.textEnd]
      ∨ ∃ c more, Text.isBlank c = true ∧ Begins (String.ofList (c :: more)) (tokens text) := by
  unfold tokens
  split
  next legal =>
    rw [Scan.run]
    cases reads : (Scan.ofText (unifyBreaks text)).step with
    | none => exact .inr ⟨' ', [], rfl, .nil⟩
    | some after =>
        rcases step_of_blank blank.unifyBreaks reads with ended | ⟨c, more, white, begun⟩
        · left
          simp [ended]
        · right
          have opens : Opens (String.ofList (c :: more)) after.tokens := ⟨[], [], begun, by simp⟩
          refine ⟨c, more, white, ?_⟩
          simpa [begun] using after.begins_run opens _
  next => exact .inr ⟨' ', [], rfl, .nil⟩

-----------------------------------------------------------------------------------------
-- The first node
-----------------------------------------------------------------------------------------

/-- A node of which the first scalar has the text, unless the text breaks off before it: the scalar
alone, or a mapping where it stands in the first key, if that is not left out.
-/
inductive Opening (text : String) : Node → Prop
  | cut : Opening text .cut
  | empty : Opening text .empty
  | scalar : Opening text (.scalar .none true text)
  | mapping {key : Node} (first : Opening text key) (value : Node) (more : List (Node × Node))
    : Opening text (.mapping .none ((key, value) :: more))

namespace Assemble

variable {α : Type} {key : Node}

theorem run_sees_bind (expected : List Token) (next : Bool → Assemble α) (s : Assembly)
    : (sees expected >>= next).run s = (next (s.tokens.head?.any expected.contains)).run s :=
  rfl

theorem run_drop_bind (next : Unit → Assemble α) (s : Assembly)
    : (drop >>= next).run s = (next ()).run { s with tokens := s.tokens.tail } :=
  rfl

/-- Whatever tokens are left, this gives entries of which the first has the key. -/
def Gives (key : Node) (read : Assemble (List (Node × Node))) : Prop :=
  ∀ s : Assembly, ∃ value more, (read.run s).1 = (key, value) :: more

theorem Gives.bind {first : Assemble α} {next : α → Assemble (List (Node × Node))}
    (later : ∀ x, Gives key (next x))
    : Gives key (first >>= next) :=
  fun s => later (first.run s).1 (first.run s).2

theorem Gives.ite {p : Prop} [Decidable p] {first second : Assemble (List (Node × Node))}
    (left : Gives key first) (right : Gives key second)
    : Gives key (if p then first else second) := by
  split
  · exact left
  · exact right

/-- Entries that are read after their key. -/
theorem exists_first {first : Assemble Node} {next : Node → Assemble (List (Node × Node))}
    (later : ∀ key, Gives key (next key)) (s : Assembly)
    : ∃ value more, ((first >>= next).run s).1 = ((first.run s).1, value) :: more :=
  later (first.run s).1 (first.run s).2

/-- Behind the mark of a key stands the key, unless it is left out. Its value and the entries after
it are read later.
-/
theorem blockEntries_key (steps : Nat) (s : Assembly)
    : ∃ value more,
        ((blockEntries (steps + 1)).run { s with tokens := .key :: s.tokens }).1
          = (if s.tokens.head?.any [Token.key, .value, .blockEnd].contains then .empty
              else ((node true true steps).run s).1, value) :: more := by
  have entry (key value : Node) : Gives key (do return (key, value) :: (← blockEntries steps)) :=
    .bind fun _ _ => ⟨value, _, rfl⟩
  rw [blockEntries, run_sees_bind, if_neg (by simp), run_sees_bind, if_pos (by simp), run_drop_bind,
    run_sees_bind]
  simp only [List.tail_cons]
  -- However the value is read, it is put behind the key.
  split <;> exact exists_first (fun key =>
    .bind fun _ => .bind fun _ =>
      .ite
        (.bind fun _ => .bind fun _ =>
          .ite (.bind fun _ => entry key _) (.bind fun _ => entry key _))
        (.ite (.bind fun _ => entry key _) (.bind fun _ => entry key _))) s

/-- Where no key is marked and the mapping does not end, it breaks off. -/
theorem blockEntries_cut {s : Assembly}
    (noMark : ∀ token, s.tokens.head? = some token → token ≠ .blockEnd ∧ token ≠ .key) (steps : Nat)
    : ((blockEntries steps).run s).1 = [(.cut, .cut)] := by
  have unseen (mark : Token) (isMark : mark = .blockEnd ∨ mark = .key)
      : ¬ s.tokens.head?.any [mark].contains = true := by
    intro seen
    obtain ⟨token, shown, same⟩ := (Option.any_eq_true ..).mp seen
    obtain rfl : token = mark := by simpa using same
    exact isMark.elim (noMark token shown).1 (noMark token shown).2
  rw [blockEntries.eq_def]
  cases steps with
  | zero => rfl
  | succ steps =>
      simp only
      rw [run_sees_bind, if_neg (unseen _ (.inl rfl)), run_sees_bind, if_neg (unseen _ (.inr rfl))]
      rfl

variable {text : String} {steps : Nat}

def OpensNodes (text : String) (steps : Nat) : Prop :=
  ∀ (loose : Bool) (s : Assembly), Begins text s.tokens →
    Opening text ((node true loose steps).run s).1

def OpensEntries (text : String) (steps : Nat) : Prop :=
  ∀ s : Assembly, Begins text s.tokens →
    ∃ key value more, ((blockEntries steps).run s).1 = (key, value) :: more ∧ Opening text key

theorem OpensNodes.entries (nodes : OpensNodes text steps) : OpensEntries text (steps + 1) := by
  intro ⟨tokens, anchors, handles⟩ (begins : Begins text tokens)
  cases begins with
  | nil | scalar => exact ⟨.cut, .cut, [], blockEntries_cut (by simp) _, .cut⟩
  | @mark token tokens isMark begins =>
      rcases isMark with rfl | rfl
      · obtain ⟨value, more, first⟩ := blockEntries_key steps ⟨tokens, anchors, handles⟩
        refine ⟨_, value, more, first, ?_⟩
        split
        · exact .empty
        · exact nodes true _ begins
      · exact ⟨.cut, .cut, [], blockEntries_cut (by simp) _, .cut⟩

theorem OpensEntries.nodes (entries : OpensEntries text steps) : OpensNodes text (steps + 1) := by
  intro loose ⟨tokens, anchors, handles⟩ (begins : Begins text tokens)
  rw [node]
  cases begins with
  | nil => exact .cut
  | scalar => cases loose <;> exact .scalar
  | @mark token tokens isMark begins =>
      rcases isMark with rfl | rfl
      · cases loose <;> exact .cut
      · obtain ⟨key, value, more, first, opens⟩ := entries ⟨tokens, anchors, handles⟩ begins
        have opened := Opening.mapping opens value more
        rw [← first] at opened
        cases loose <;> exact opened

/-- The tokens decide how the nodes open that begin with them, by induction on the steps. -/
theorem opens_nodes (text : String) (steps : Nat) : OpensNodes text steps := by
  suffices both : OpensNodes text steps ∧ OpensEntries text steps from both.1
  induction steps with
  | zero =>
      refine ⟨fun loose s _ => ?_, fun s _ => ⟨.cut, .cut, [], ?_, .cut⟩⟩
      · rw [node]
        exact .cut
      · rw [blockEntries]
        rfl
  | succ steps ih => exact ⟨ih.2.nodes, ih.1.entries⟩

end Assemble

/-- So they decide how the document opens. -/
theorem opening_root {text : String} {tokens : List Token} (begins : Begins text tokens)
    : Opening text (Document.ofTokens tokens).root := by
  have content : Opening text (Document.ofContent tokens Document.commonHandles).root :=
    Assemble.opens_nodes text (2 * tokens.length + 2) false
      ⟨tokens, [], Document.commonHandles⟩ begins
  cases begins with
  | nil => exact .cut
  | scalar => exact content
  | mark isMark _ => rcases isMark with rfl | rfl <;> exact content

/-- A text of blank lines and comments holds nothing, or it opens with a text at white space. -/
theorem opening_of_blank {text : List Char} (blank : BlankText text)
    : (Document.ofText text).root = .nothing
      ∨ ∃ c more, Text.isBlank c = true
          ∧ Opening (String.ofList (c :: more)) (Document.ofText text).root := by
  unfold Document.ofText
  rcases tokens_of_blank blank with ended | ⟨c, more, white, begins⟩
  · left
    rw [ended]
    rfl
  · exact .inr ⟨c, more, white, opening_root begins⟩

end Rollout.Yaml
