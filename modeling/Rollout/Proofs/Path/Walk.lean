import Rollout.Proofs.Path.Joining

/-!
Where paths lead. A path leads wherever its text does, so cleaning keeps the meaning of a text, and
joining goes on from where a path leads. Paths in normal form that lead to the same directory from
everywhere are the same, so joining is associative.
-/

namespace Rollout.Path

variable {p q : Path} {base : List Segment}

-----------------------------------------------------------------------------------------
-- Texts and paths
-----------------------------------------------------------------------------------------

/-- Where a text leads from `base`; a backslash separates like a slash. -/
def leads (base : List Segment) (text : String) : List Segment :=
  walkText base (text.toList.map slash)

/-- A path leads wherever the text does that it is read from. -/
theorem walk_ofSlashed (base : List Segment) (text : List Char)
    : walk base (ofSlashed text) = walkText base text := by
  unfold ofSlashed walkText
  split
  next none =>
    rw [List.isEmpty_iff.mp none]
    rfl
  next =>
    split
    · exact foldl_step_reduce (fun _ => rfl) _
    · exact foldl_step_reduce (by simp) _

theorem walk_ofText (base : List Segment) (text : String)
    : walk base (ofText text) = leads base text :=
  walk_ofSlashed base _

/-- A clean path leads wherever its own text does. -/
theorem Clean.leads_text (clean : Clean p) : leads base p.text = walk base p := by
  rw [← walk_ofText, clean.ofText_text]

/-- Every text is cleaned to its normal form: the result is written as climbs and then proper names,
or as proper names from the root, and with no character only if the text has none. Cleaning the
result changes nothing, and from every directory it leads wherever the text does. Joining and going
up never leave this form.
-/
theorem cleaning_normalizes (raw : String)
    : NormalText (ofText raw).text.toList
      ∧ ((ofText raw).text = "" ↔ raw = "")
      ∧ ofText (ofText raw).text = ofText raw
      ∧ (∀ base, leads base (ofText raw).text = leads base raw)
      ∧ ∀ p, Built p → NormalText p.text.toList ∧ ofText p.text = p := by
  have clean := clean_ofText raw
  refine ⟨?form, ?empty, clean.ofText_text, ?meaning, ?all⟩
  case form =>
    rw [toList_text]
    exact clean.normalText
  case empty => rw [clean.text_eq_empty_iff, ofText_eq_empty_iff]
  case meaning =>
    intro base
    rw [clean.leads_text, walk_ofText]
  case all =>
    intro p built
    rw [toList_text]
    exact ⟨built.clean.normalText, built.clean.ofText_text⟩

/-- The folder of a file that lies beside the directory that one starts from. -/
theorem cleaning_normalizes_shared
    : ∃ p, Built p ∧ p.text = "../shared" ∧ NormalText p.text.toList ∧ ofText p.text = p := by
  have built : Built (.relative [up, "shared".toList]) :=
    .parent (.join (.ofText "shop\\.//slo") "../..\\../shared/x.json") (by decide)
  obtain ⟨_, _, _, _, all⟩ := cleaning_normalizes ""
  exact ⟨_, built, by decide, all _ built⟩

-----------------------------------------------------------------------------------------
-- Joining
-----------------------------------------------------------------------------------------

/-- A text leads on from where the text before it leads, unless it begins at the root. -/
theorem walkText_append {text more : List Char} (some : text ≠ [])
    (below : startsAtRoot more = false)
    : walkText base (text ++ '/' :: more) = walkText (walkText base text) more := by
  have begins : startsAtRoot (text ++ '/' :: more) = startsAtRoot text := by
    simp [startsAtRoot, List.head?_append_of_ne_nil _ some]
  simp only [walkText, begins, below, Text.pieces_append, List.foldl_append]
  rfl

/-- Joining leads on from where the path leads. -/
theorem Clean.walk_join (clean : Clean p) (segment : String)
    : walk base (p.join segment) = leads (walk base p) segment := by
  rw [clean.join_eq]
  split
  next alone =>
    rw [walk_ofSlashed]
    obtain begins | rfl | rfl := alone
    · simp [leads, walkText, begins]
    · rfl
    · rfl
  next more =>
    obtain ⟨below, some, _⟩ : _ ∧ _ ∧ _ := by simpa only [not_or, Bool.not_eq_true] using more
    have written : p.chars ≠ [] := fun none => some <| by
      rw [← clean.ofSlashed_chars, none]
      rfl
    have here := walk_ofSlashed base p.chars
    rw [clean.ofSlashed_chars] at here
    rw [walk_ofSlashed, walkText_append written below, ← here]
    rfl

/-- Only the empty text can be joined to nothing. -/
theorem Clean.join_ne_empty (clean : Clean p) {segment : String} (some : segment ≠ "")
    : p.join segment ≠ .empty := by
  have written : segment.toList.map slash ≠ [] := by simpa using some
  rw [clean.join_eq]
  split
  · exact ofSlashed_eq_empty_iff.not.mpr written
  · exact ofSlashed_eq_empty_iff.not.mpr (by simp)

-----------------------------------------------------------------------------------------
-- Paths that lead to the same
-----------------------------------------------------------------------------------------

/-- Climbing so often leaves the front of a directory. -/
theorem foldl_step_climbs (climbs : Nat) (base : List Segment)
    : (List.replicate climbs up).foldl step base = base.take (base.length - climbs) := by
  induction climbs generalizing base with
  | zero => simp
  | succ climbs ih =>
      rw [List.replicate_succ, List.foldl_cons, ih, step_up, List.dropLast_eq_take, List.take_take,
        List.length_take]
      congr 1
      omega

/-- Names lead down one by one. -/
theorem foldl_step_names {names : List Segment} (proper : ∀ s ∈ names, IsName s)
    (base : List Segment)
    : names.foldl step base = base ++ names := by
  induction names generalizing base with
  | nil => simp
  | cons s rest ih =>
      obtain ⟨name, later⟩ := List.forall_mem_cons.mp proper
      rw [List.foldl_cons, ih later, step_of_descends name.descends, List.append_assoc]
      rfl

theorem walk_relative {climbs : Nat} {names : List Segment} (proper : ∀ s ∈ names, IsName s)
    : walk base (.relative (List.replicate climbs up ++ names))
      = base.take (base.length - climbs) ++ names := by
  rw [walk, List.foldl_append, foldl_step_climbs, foldl_step_names proper]

theorem walk_rooted {names : List Segment} (proper : ∀ s ∈ names, IsName s)
    : walk base (.rooted names) = names :=
  foldl_step_names proper []

/-- What is repeated at the front and nowhere else can be told from the rest. -/
theorem replicate_append_inj {α : Type _} [DecidableEq α] {x : α} {m n : Nat} {xs ys : List α}
    (same : List.replicate m x ++ xs = List.replicate n x ++ ys) (left : x ∉ xs) (right : x ∉ ys)
    : m = n ∧ xs = ys := by
  have counts := congrArg (List.count x) same
  simp only [List.count_append, List.count_replicate_self, List.count_eq_zero_of_not_mem left,
    List.count_eq_zero_of_not_mem right, Nat.add_zero] at counts
  subst counts
  exact ⟨rfl, List.append_cancel_left same⟩

section Distinguishing

-- The empty segment is no name, so a directory made of it shows how far a path climbs.
variable {climbs further : Nat} {names others : List Segment}
variable (proper : ∀ s ∈ names, IsName s) (othersProper : ∀ s ∈ others, IsName s)
include proper othersProper

/-- A relative path does not lead to the same directory from everywhere, a path from the root does.
-/
theorem exists_walk_ne
    : ∃ base, walk base (.rooted names)
        ≠ walk base (.relative (List.replicate climbs up ++ others)) := by
  refine ⟨List.replicate (climbs + 1) [], fun same => ?_⟩
  rw [walk_rooted proper, walk_relative othersProper] at same
  have inside : [] ∈ names := same ▸ by simp
  exact (proper [] inside).nonempty rfl

/-- Where relative paths lead tells how far they climb and what they name. -/
theorem eq_of_walk_relative_eq
    (same : ∀ base, walk base (.relative (List.replicate climbs up ++ names))
      = walk base (.relative (List.replicate further up ++ others)))
    : climbs = further ∧ names = others := by
  have equal := same (List.replicate (climbs + further) [])
  simp only [walk_relative proper, walk_relative othersProper, List.length_replicate,
    List.take_replicate, Nat.add_sub_cancel_left, Nat.add_sub_cancel, Nat.le_add_left,
    Nat.le_add_right, Nat.min_eq_left] at equal
  obtain ⟨rfl, rfl⟩ := replicate_append_inj equal
    (fun member => (proper [] member).nonempty rfl)
    (fun member => (othersProper [] member).nonempty rfl)
  exact ⟨rfl, rfl⟩

end Distinguishing

/-- Two paths in normal form that lead to the same directory from everywhere are the same, apart
from the empty path, which leads nowhere else than `.` does.
-/
theorem eq_of_walk_eq (cleanP : Clean p) (cleanQ : Clean q) (someP : p ≠ .empty)
    (someQ : q ≠ .empty) (same : ∀ base, walk base p = walk base q)
    : p = q := by
  cases cleanP with
  | empty => exact absurd rfl someP
  | rooted proper =>
      cases cleanQ with
      | empty => exact absurd rfl someQ
      | rooted othersProper =>
          have equal := same []
          rw [walk_rooted proper, walk_rooted othersProper] at equal
          rw [equal]
      | relative _ othersProper =>
          obtain ⟨base, different⟩ := exists_walk_ne proper othersProper
          exact absurd (same base) different
  | relative _ proper =>
      cases cleanQ with
      | empty => exact absurd rfl someQ
      | rooted othersProper =>
          obtain ⟨base, different⟩ := exists_walk_ne othersProper proper
          exact absurd (same base).symm different
      | relative _ othersProper =>
          obtain ⟨rfl, rfl⟩ := eq_of_walk_relative_eq proper othersProper same
          rfl

/-- Joining is associative as long as the last text is not empty: paths in normal form may be put
together from either end.
-/
theorem join_associative (a b : String) {c : String} (some : c ≠ "")
    : ((ofText a).join b).join c = (ofText a).join ((ofText b).join c).text := by
  have cleanA := clean_ofText a
  have inner := (clean_ofText b).join c
  have written : ((ofText b).join c).text ≠ "" :=
    inner.text_eq_empty_iff.not.mpr ((clean_ofText b).join_ne_empty some)
  refine eq_of_walk_eq ((cleanA.join b).join c) (cleanA.join _)
    ((cleanA.join b).join_ne_empty some) (cleanA.join_ne_empty written) fun base => ?_
  calc walk base (((ofText a).join b).join c)
      = leads (leads (leads base a) b) c := by
        rw [(cleanA.join b).walk_join, cleanA.walk_join, walk_ofText]
    _ = walk (leads base a) ((ofText b).join c) := by
        rw [(clean_ofText b).walk_join, walk_ofText]
    _ = walk base ((ofText a).join ((ofText b).join c).text) := by
        rw [cleanA.walk_join, inner.leads_text, walk_ofText]

/-- The second text climbs out of the first, and the third out of both. -/
theorem join_associative_climbing
    : "x\\../../shared" ≠ ""
      ∧ ((ofText "shop/slo").join "..\\../..").join "x\\../../shared"
        = .relative [up, up, "shared".toList]
      ∧ (ofText "shop/slo").join ((ofText "..\\../..").join "x\\../../shared").text
        = .relative [up, up, "shared".toList] := by
  have third : "x\\../../shared" ≠ "" := by decide
  have joined : ((ofText "shop/slo").join "..\\../..").join "x\\../../shared"
      = .relative [up, up, "shared".toList] := by
    decide
  exact ⟨third, joined, join_associative "shop/slo" "..\\../.." third ▸ joined⟩

end Rollout.Path
