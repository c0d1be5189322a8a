import Rollout.Binder
import Rollout.Proofs.Value

/-!
Which lists are taken for references: those of one to four scalars none of which is a bare null. A
null that is tagged passes for an empty text, unlike what the messages ask for.
-/

namespace Rollout.Binder

-----------------------------------------------------------------------------------------
-- Elements
-----------------------------------------------------------------------------------------

/-- A value that is taken for a field of a reference: a scalar beneath its tags, but no bare null.
-/
def IsElement (value : Value) : Prop :=
  value ≠ .null ∧ value.untagged.IsScalar

/-- The text of a value, empty if it has none. -/
def spelling (value : Value) : String :=
  value.scalarText.getD ""

theorem scalarText_of_isElement {value : Value} (element : IsElement value)
    : value.scalarText = some (spelling value) := by
  obtain ⟨text, found⟩ :=
    Option.isSome_iff_exists.mp ((Value.isSome_scalarText_iff value).mpr element.2)
  rw [spelling, found, Option.getD_some]

theorem elementText_of_isElement {value : Value} (element : IsElement value)
    : elementText value = .ok (spelling value) := by
  unfold elementText
  split
  · exact absurd rfl element.1
  · rw [scalarText_of_isElement element]

theorem elementText_of_not_isElement {value : Value} (invalid : ¬IsElement value)
    : elementText value = .error .shortReferenceElement := by
  unfold elementText
  split
  · rfl
  next bare =>
    have none : value.scalarText = none := by
      rw [← Option.not_isSome_iff_eq_none, Value.isSome_scalarText_iff]
      exact fun scalar => invalid ⟨bare, scalar⟩
    rw [none]

/-- By induction on the elements. -/
theorem mapM_elementText {elements : List Value} (all : ∀ v ∈ elements, IsElement v)
    : elements.mapM elementText = .ok (elements.map spelling) := by
  induction elements with
  | nil => rfl
  | cons value rest ih =>
      obtain ⟨first, others⟩ := List.forall_mem_cons.mp all
      rw [List.mapM_cons, elementText_of_isElement first, ih others]
      rfl

/-- Whichever element is invalid, the failure is the same; by induction on the elements. -/
theorem mapM_elementText_eq_error {elements : List Value} (invalid : ¬∀ v ∈ elements, IsElement v)
    : elements.mapM elementText = .error .shortReferenceElement := by
  induction elements with
  | nil => exact absurd (List.forall_mem_nil _) invalid
  | cons value rest ih =>
      rw [List.mapM_cons]
      by_cases first : IsElement value
      · have later : ¬∀ v ∈ rest, IsElement v := fun others =>
          invalid (List.forall_mem_cons.mpr ⟨first, others⟩)
        rw [elementText_of_isElement first, ih later]
        rfl
      · rw [elementText_of_not_isElement first]
        rfl

-----------------------------------------------------------------------------------------
-- Lists of them
-----------------------------------------------------------------------------------------

/-- A reference has at least a property and at most a project, an api, an id and a property. -/
def FitsLength (elements : List Value) : Prop :=
  1 ≤ elements.length ∧ elements.length ≤ 4

instance : DecidablePred FitsLength := fun elements =>
  inferInstanceAs (Decidable (1 ≤ elements.length ∧ elements.length ≤ 4))

/-- What texts refer to, read from the last: fields left out are those of the configuration itself.
-/
def spelled (own : Coordinate) (texts : List String) : ParameterReference where
  target := {
    project := texts.reverse[3]?.getD own.project
    api := texts.reverse[2]?.getD own.api
    configId := texts.reverse[1]?.getD own.configId
  }
  property := texts.reverse[0]?.getD ""

/-- Fields that are put in front of those written make up the four of a reference. -/
theorem take_append_spelled (own : Coordinate) {texts : List String} (nonempty : 1 ≤ texts.length)
    (few : texts.length ≤ 4)
    : let reference := spelled own texts
      [own.project, own.api, own.configId].take (4 - texts.length) ++ texts
        = [reference.target.project, reference.target.api, reference.target.configId,
            reference.property] := by
  match texts with
  | [_] | [_, _] | [_, _, _] | [_, _, _, _] => rfl
  | [] => cases nonempty
  | _ :: _ :: _ :: _ :: _ :: _ =>
      simp only [List.length_cons] at few
      omega

section ShortReference

variable {own : Coordinate} {elements : List Value}

theorem outOfRange_iff
    : (elements.isEmpty || decide (elements.length > 4)) = true ↔ ¬FitsLength elements := by
  rw [FitsLength, Bool.or_eq_true, List.isEmpty_iff, ← List.length_eq_zero_iff, decide_eq_true_iff]
  omega

theorem shortReference_of_length (misfit : ¬FitsLength elements)
    : shortReference own elements = .error (.shortReferenceLength elements.length) := by
  rw [shortReference, if_pos (outOfRange_iff.mpr misfit)]

theorem shortReference_of_invalid (fits : FitsLength elements)
    (invalid : ¬∀ v ∈ elements, IsElement v)
    : shortReference own elements = .error .shortReferenceElement := by
  rw [shortReference, if_neg (outOfRange_iff.not_left.mpr fits), mapM_elementText_eq_error invalid]
  rfl

theorem shortReference_of_elements (fits : FitsLength elements) (all : ∀ v ∈ elements, IsElement v)
    : shortReference own elements = .ok (.reference (spelled own (elements.map spelling))) := by
  have nonempty : 1 ≤ (elements.map spelling).length := by simpa using fits.1
  have few : (elements.map spelling).length ≤ 4 := by simpa using fits.2
  have four := take_append_spelled own nonempty few
  rw [shortReference, if_neg (outOfRange_iff.not_left.mpr fits), mapM_elementText all]
  simp only [bind, Except.bind, four]

end ShortReference

-----------------------------------------------------------------------------------------
-- What is accepted
-----------------------------------------------------------------------------------------

/-- What the messages ask of a short reference: one to four elements, and all of them non-null
scalars, whatever their tags.
-/
def WellFormed (elements : List Value) : Prop :=
  FitsLength elements ∧ ∀ v ∈ elements, v.untagged.IsScalar ∧ v.untagged ≠ .null

/-- How a list is refused: for its length first, otherwise for an element. -/
def refusalOf (elements : List Value) : BindError :=
  if FitsLength elements then .shortReferenceElement
  else .shortReferenceLength elements.length

/-- What is well-formed is accepted, and all else that is accepted has a null beneath a tag. -/
theorem wellFormed_iff {elements : List Value}
    : WellFormed elements
      ↔ (FitsLength elements ∧ ∀ v ∈ elements, IsElement v)
        ∧ ¬∃ v ∈ elements, v.untagged = .null := by
  have bare {v : Value} (nonnull : v.untagged ≠ .null) : v ≠ .null := by
    rintro rfl
    exact nonnull rfl
  rw [WellFormed, and_assoc, and_congr_right_iff]
  intro _
  constructor
  · intro sound
    refine ⟨fun v member => ⟨bare (sound v member).2, (sound v member).1⟩, ?_⟩
    rintro ⟨v, member, null⟩
    exact (sound v member).2 null
  · rintro ⟨all, none⟩ v member
    exact ⟨(all v member).2, fun null => none ⟨v, member, null⟩⟩

/-- A list is taken for a reference exactly if it has one to four elements, each of them a scalar
beneath its tags and none of them a bare null. Any other list is refused, for its length first. So
accepted is what the messages ask for, and all else refused, exactly unless there is a null beneath
a tag in a list that has nothing else wrong with it.
-/
theorem resolve_shortReference_iff (binder : Binder) {name : String} (free : name ≠ idParameter)
    (elements : List Value)
    : let result := binder.resolve name (.shortReference elements)
      let accepted := FitsLength elements ∧ ∀ v ∈ elements, IsElement v
      ((∃ reference, result = .ok (.reference reference)) ↔ accepted)
      ∧ (¬accepted → result = .error (refusalOf elements))
      ∧ (((∃ reference, result = .ok (.reference reference)) ↔ WellFormed elements)
            ∧ (¬WellFormed elements → result = .error (refusalOf elements))
          ↔ ¬(accepted ∧ ∃ v ∈ elements, v.untagged = .null)) := by
  intro result accepted
  have short : result = shortReference binder.own elements := if_neg free
  have taken (all : accepted) : ∃ reference, result = .ok (.reference reference) :=
    ⟨_, short.trans (shortReference_of_elements all.1 all.2)⟩
  have refused (bad : ¬accepted) : result = .error (refusalOf elements) := by
    rw [short, refusalOf]
    by_cases fits : FitsLength elements
    · rw [if_pos fits, shortReference_of_invalid fits fun all => bad ⟨fits, all⟩]
    · rw [if_neg fits, shortReference_of_length fits]
  have exactly : (∃ reference, result = .ok (.reference reference)) ↔ accepted := by
    refine ⟨fun ⟨reference, done⟩ => ?_, taken⟩
    by_contra bad
    rw [refused bad] at done
    cases done
  refine ⟨exactly, refused, ?_⟩
  rw [exactly, wellFormed_iff]
  constructor
  · rintro ⟨same, _⟩ ⟨all, tagged⟩
    exact (same.mp all).2 tagged
  · intro none
    have same : accepted ↔ accepted ∧ ¬∃ v ∈ elements, v.untagged = .null :=
      ⟨fun all => ⟨all, fun tagged => none ⟨all, tagged⟩⟩, And.left⟩
    exact ⟨same, fun bad => refused fun all => bad (same.mp all)⟩

/-- A number beneath two tags is accepted, a list in place of a field is not, nor are five fields.
-/
theorem resolve_shortReference_iff_tags
    : let binder : Binder := .new .builtins ⟨"app", "slo", "availability"⟩
      let tagged : List Value := [.tagged "outer" (.tagged "inner" (.integer 7)), .text "id"]
      let nested : List Value := [.sequence [.text "zone"], .text "id"]
      let long : List Value := .replicate 5 (.text "id")
      "zone" ≠ idParameter
      ∧ (∃ reference, binder.resolve "zone" (.shortReference tagged) = .ok (.reference reference))
      ∧ binder.resolve "zone" (.shortReference nested) = .error .shortReferenceElement
      ∧ binder.resolve "zone" (.shortReference long) = .error (.shortReferenceLength 5) := by
  intro binder tagged nested long
  have free : "zone" ≠ idParameter := by decide
  obtain ⟨taken, _, _⟩ := resolve_shortReference_iff binder free tagged
  obtain ⟨_, refusedNested, _⟩ := resolve_shortReference_iff binder free nested
  obtain ⟨_, refusedLong, _⟩ := resolve_shortReference_iff binder free long
  refine ⟨free, taken.mpr ⟨by decide, ?_⟩, refusedNested ?_, refusedLong ?_⟩
  · simp [tagged, IsElement, Value.untagged, Value.IsScalar]
  · simp [nested, IsElement, Value.untagged, Value.IsScalar]
  · exact fun all => absurd all.1 (by decide)

/-- A null beneath a tag is no scalar that the messages ask for. It is taken for an empty text, and
so refers to a configuration without an id.
-/
theorem resolve_tagged_null
    : let elements : List Value := [.tagged "t" .null, .text "id"]
      let result := (Binder.new .builtins ⟨"app", "slo", "availability"⟩).resolve "zone"
        (.shortReference elements)
      ¬WellFormed elements
      ∧ result = .ok (.reference ⟨⟨"app", "slo", ""⟩, "id"⟩)
      ∧ result ≠ .error (refusalOf elements) := by
  intro elements result
  have taken : result = .ok (.reference ⟨⟨"app", "slo", ""⟩, "id"⟩) := rfl
  refine ⟨fun sound => ?_, taken, by rw [taken]; simp⟩
  exact (sound.2 (.tagged "t" .null) List.mem_cons_self).2 rfl

end Rollout.Binder
