import Mathlib.Tactic.Common
import Rollout.Yaml.Token.Scan

/-!
How the tokens of a text grow. Reading on adds tokens behind those that are there; among them only
the marks of a mapping are put in, where a colon makes a key of what stands before it. So the first
scalar stays the first.
-/

namespace Rollout.Yaml

/-- A token that a colon can put in among those read before it. -/
def IsKeyMark (token : Token) : Prop :=
  token = .key ∨ token = .blockMapping

/-- The tokens of a later scan, both with the latest first. -/
inductive Grows : List Token → List Token → Prop
  | same (tokens : List Token) : Grows tokens tokens
  | add {tokens later : List Token} (token : Token) (grows : Grows tokens later)
    : Grows tokens (token :: later)
  | mark {tokens after before : List Token} {token : Token} (isMark : IsKeyMark token)
    (grows : Grows tokens (after ++ before))
    : Grows tokens (after ++ token :: before)

theorem Grows.trans {first second third : List Token} (before : Grows first second)
    (after : Grows second third)
    : Grows first third := by
  induction after with
  | same => exact before
  | add token _ ih => exact .add token ih
  | mark isMark _ ih => exact .mark isMark ih

theorem Grows.append (tokens later : List Token) : Grows tokens (later ++ tokens) := by
  induction later with
  | nil => exact .same tokens
  | cons token later ih => exact .add token ih

namespace Scan

variable {s after : Scan}

-----------------------------------------------------------------------------------------
-- The parts of a step
-----------------------------------------------------------------------------------------

theorem tokens_dropPastKeys (dropped : s.dropPastKeys = some after) : after.tokens = s.tokens := by
  simp only [dropPastKeys, Option.bind_eq_bind, Option.bind_eq_some_iff] at dropped
  obtain ⟨_, _, _, _, same⟩ := dropped
  cases same
  rfl

theorem tokens_dropKey (dropped : s.dropKey = some after) : after.tokens = s.tokens := by
  rw [dropKey, Option.ite_none_left_eq_some] at dropped
  obtain ⟨_, same⟩ := dropped
  cases same
  rfl

theorem tokens_noteKey (noted : s.noteKey = some after) : after.tokens = s.tokens := by
  unfold noteKey at noted
  split at noted
  · cases noted
    rfl
  · simp only [Option.bind_eq_bind, Option.bind_eq_some_iff] at noted
    obtain ⟨dropped, drops, same⟩ := noted
    cases same
    have kept : dropped.tokens = s.tokens := tokens_dropKey drops
    exact kept

theorem tokens_skipGap (ahead : List Char) (s : Scan) : (skipGap ahead s).tokens = s.tokens := by
  fun_induction skipGap ahead s with
  | case1 => rfl
  | case2 _ _ _ _ _ _ _ _ ih => exact ih
  | case3 => rfl

theorem grows_closeBlocks (keep : Nat → Bool) (s : Scan)
    : Grows s.tokens (s.closeBlocks keep).tokens := by
  unfold closeBlocks
  split
  · exact .same _
  · exact .append _ _

theorem grows_insert {token : Token} (isMark : IsKeyMark token) (s : Scan) (n : Nat)
    : Grows s.tokens (s.insert n token).tokens := by
  refine .mark isMark ?_
  rw [List.take_append_drop]
  exact .same _

theorem grows_openBlock {token : Token} (isMark : IsKeyMark token) (s : Scan) (column n : Nat)
    : Grows s.tokens (s.openBlock column n token).tokens := by
  unfold openBlock
  split
  · exact .same _
  · exact grows_insert isMark s n

/-- A block that opens here begins behind all tokens. -/
theorem grows_openBlockHere (token : Token) (s : Scan)
    : Grows s.tokens (s.openBlockHere token).tokens := by
  unfold openBlockHere openBlock
  split
  · exact .same _
  · simp only [insert, Nat.sub_self, List.take_zero, List.nil_append, List.drop_zero]
    exact .add token (.same _)

-----------------------------------------------------------------------------------------
-- One token
-----------------------------------------------------------------------------------------

/-- Whatever scan comes of reading on, its tokens have grown from these. -/
def Extends (tokens : List Token) (read : Option Scan) : Prop :=
  ∀ after, read = some after → Grows tokens after.tokens

namespace Extends

variable {tokens : List Token}

theorem nothing : Extends tokens none :=
  nofun

theorem done (grows : Grows tokens s.tokens) : Extends tokens (some s) := by
  intro after same
  cases same
  exact grows

theorem bind {α : Type} {first : Option α} {next : α → Option Scan}
    (later : ∀ x, first = some x → Extends tokens (next x))
    : Extends tokens (first >>= next) := by
  intro after read
  obtain ⟨x, reads, rest⟩ := Option.bind_eq_some_iff.mp read
  exact later x reads after rest

theorem ite {p : Prop} [Decidable p] {first second : Option Scan} (left : Extends tokens first)
    (right : Extends tokens second)
    : Extends tokens (if p then first else second) := by
  split
  · exact left
  · exact right

end Extends

theorem grows_noted {noted : Scan} (notes : s.noteKey = some noted) (token : Token)
    : Grows s.tokens (token :: noted.tokens) :=
  tokens_noteKey notes ▸ .add token (.same _)

theorem grows_dropped {dropped : Scan} (drops : s.dropKey = some dropped) (token : Token)
    : Grows s.tokens (token :: dropped.tokens) :=
  tokens_dropKey drops ▸ .add token (.same _)

theorem extends_textEnd (s : Scan) : Extends s.tokens s.textEnd := by
  have closed (p : Cursor) : Grows s.tokens ((s.goTo p).closeBlocks fun _ => false).tokens :=
    grows_closeBlocks _ (s.goTo p)
  exact .bind fun _ drops => .done ((closed _).trans (grows_dropped drops _))

theorem extends_directiveHere (s : Scan) : Extends s.tokens s.directiveHere :=
  .bind fun _ drops => .bind fun ⟨_, _⟩ _ =>
    .done ((grows_closeBlocks _ s).trans (grows_dropped drops _))

theorem extends_documentMark (s : Scan) (token : Token) : Extends s.tokens (s.documentMark token) :=
  .bind fun _ drops => .done ((grows_closeBlocks _ s).trans (grows_dropped drops _))

theorem extends_openFlow (s : Scan) (token : Token) : Extends s.tokens (s.openFlow token) :=
  .bind fun _ notes => .done (grows_noted notes _)

theorem extends_closeFlow (s : Scan) (token : Token) : Extends s.tokens (s.closeFlow token) := by
  refine .bind fun dropped drops => .done ?_
  split <;> exact grows_dropped drops token

theorem extends_separator (s : Scan) : Extends s.tokens s.separator :=
  .bind fun _ drops => .done (grows_dropped drops _)

theorem extends_entry (s : Scan) : Extends s.tokens s.entry :=
  .ite .nothing <| .bind fun _ drops =>
    .done ((grows_openBlockHere _ s).trans (grows_dropped drops _))

theorem extends_key (s : Scan) : Extends s.tokens s.key :=
  .ite .nothing <| .bind fun _ drops =>
    .done ((grows_openBlockHere _ s).trans (grows_dropped drops _))

/-- A colon puts a key mark in before what it makes a key of, and before the first key of a block
mapping also the token that begins it.
-/
theorem extends_value (s : Scan) : Extends s.tokens s.value := by
  unfold value
  split
  next start _ =>
    have marked := grows_insert (.inl rfl) s start.token
    exact .done (.add _ (marked.trans (grows_openBlock (.inr rfl) _ _ _)))
  next => exact .ite .nothing (.done (.add _ (grows_openBlockHere _ s)))

theorem extends_anchorHere (s : Scan) (token : String → Token)
    : Extends s.tokens (s.anchorHere token) :=
  .bind fun _ notes => .bind fun ⟨_, _⟩ _ => .done (grows_noted notes _)

theorem extends_tagHere (s : Scan) : Extends s.tokens s.tagHere :=
  .bind fun _ notes => .bind fun ⟨_, _⟩ _ => .done (grows_noted notes _)

theorem extends_blockScalarHere (s : Scan) : Extends s.tokens s.blockScalarHere :=
  .bind fun _ drops => .bind fun ⟨_, _⟩ _ => .done (grows_dropped drops _)

theorem extends_quotedHere (s : Scan) (quote : Char) : Extends s.tokens (s.quotedHere quote) :=
  .bind fun _ notes => .bind fun ⟨_, _⟩ _ => .done (grows_noted notes _)

theorem extends_plainHere (s : Scan) : Extends s.tokens s.plainHere :=
  .bind fun _ notes => .bind fun ⟨_, _, _⟩ _ => .done (grows_noted notes _)

/-- Reading a token keeps what is there, by cases on its kind. -/
theorem extends_tokenHere (s : Scan) : Extends s.tokens s.tokenHere := by
  simp only [tokenHere]
  split
  · exact s.extends_textEnd
  · refine .ite s.extends_directiveHere ?_
    refine .ite (s.extends_documentMark _) (.ite (s.extends_documentMark _) ?_)
    refine .ite (s.extends_openFlow _) (.ite (s.extends_openFlow _) ?_)
    refine .ite (s.extends_closeFlow _) (.ite (s.extends_closeFlow _) ?_)
    refine .ite s.extends_separator (.ite s.extends_entry ?_)
    refine .ite s.extends_key (.ite s.extends_value ?_)
    refine .ite (s.extends_anchorHere _) (.ite (s.extends_anchorHere _) (.ite s.extends_tagHere ?_))
    refine .ite s.extends_blockScalarHere (.ite (s.extends_quotedHere _) ?_)
    exact .ite s.extends_plainHere .nothing

/-- So does a step. -/
theorem extends_step (s : Scan) : Extends s.tokens s.step := by
  refine .bind fun past drops => .bind fun token reads => fun after drops' => ?_
  have kept := tokens_dropPastKeys drops
  rw [tokens_skipGap] at kept
  rw [tokens_dropPastKeys drops', ← kept]
  exact (grows_closeBlocks _ past).trans (extends_tokenHere _ token reads)

end Scan

-----------------------------------------------------------------------------------------
-- A run
-----------------------------------------------------------------------------------------

/-- Tokens, the latest first, of which the first scalar is plain and follows on marks alone. -/
def Opens (text : String) (tokens : List Token) : Prop :=
  ∃ later marks, tokens = later ++ .scalar text true :: marks ∧ ∀ mark ∈ marks, IsKeyMark mark

/-- Tokens, in the order of the text, that begin in this way as far as they go. -/
inductive Begins (text : String) : List Token → Prop
  | nil : Begins text []
  | mark {token : Token} {tokens : List Token} (isMark : IsKeyMark token)
    (begins : Begins text tokens)
    : Begins text (token :: tokens)
  | scalar (tokens : List Token) : Begins text (.scalar text true :: tokens)

/-- Growing keeps the first scalar: what is put in stands before it, among the marks, or behind it.
-/
theorem Grows.opens {tokens later : List Token} {text : String} (grows : Grows tokens later)
    (opens : Opens text tokens)
    : Opens text later := by
  induction grows with
  | same => exact opens
  | add token _ ih =>
      obtain ⟨behind, marks, rfl, areMarks⟩ := ih
      exact ⟨token :: behind, marks, rfl, areMarks⟩
  | @mark after before token isMark _ ih =>
      obtain ⟨behind, marks, same, areMarks⟩ := ih
      rcases List.append_eq_append_iff.mp same with ⟨middle, rfl, rfl⟩ | ⟨middle, rfl, front⟩
      · exact ⟨after ++ token :: middle, marks, by simp, areMarks⟩
      · cases middle with
        | nil =>
            obtain rfl : before = _ := front.symm
            exact ⟨behind ++ [token], marks, by simp, areMarks⟩
        | cons scalar middle =>
            obtain ⟨rfl, rfl⟩ := List.cons_eq_cons.mp front
            refine ⟨behind, middle ++ token :: before, by simp, ?_⟩
            obtain ⟨front, back⟩ := List.forall_mem_append.mp areMarks
            exact List.forall_mem_append.mpr ⟨front, List.forall_mem_cons.mpr ⟨isMark, back⟩⟩

theorem begins_take {text : String} {marks : List Token} (areMarks : ∀ mark ∈ marks, IsKeyMark mark)
    (more : List Token) (count : Nat)
    : Begins text ((marks ++ .scalar text true :: more).take count) := by
  induction marks generalizing count with
  | nil =>
      cases count with
      | zero => exact .nil
      | succ count => exact .scalar _
  | cons mark marks ih =>
      obtain ⟨isMark, others⟩ := List.forall_mem_cons.mp areMarks
      cases count with
      | zero => exact .nil
      | succ count => exact .mark isMark (ih others count)

theorem Opens.begins {text : String} {tokens : List Token} (opens : Opens text tokens) (count : Nat)
    : Begins text (tokens.reverse.take count) := by
  obtain ⟨later, marks, rfl, areMarks⟩ := opens
  rw [List.reverse_append, List.reverse_cons, List.append_assoc, List.singleton_append]
  exact begins_take (fun mark member => areMarks mark (List.mem_reverse.mp member)) _ count

/-- What a run reads begins with the scalar that was read first, by induction on the steps. -/
theorem Scan.begins_run {text : String} {s : Scan} (opens : Opens text s.tokens) (steps : Nat)
    : Begins text (s.run steps) := by
  induction steps generalizing s with
  | zero => exact opens.begins _
  | succ steps ih =>
      rw [run]
      cases reads : s.step with
      | none => exact opens.begins _
      | some after =>
          have later := (s.extends_step after reads).opens opens
          simp only
          split
          · have all := later.begins after.tokens.reverse.length
            rwa [List.take_length] at all
          · exact ih later

end Rollout.Yaml
