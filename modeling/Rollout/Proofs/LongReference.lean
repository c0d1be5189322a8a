import Rollout.Proofs.Binder
import Rollout.Proofs.ShortReference

/-!
References written out as a mapping. A mapping that gives under their names the fields which a short
reference lists, and no others, is typed to the same parameter, whatever else it holds.
-/

namespace Rollout

-----------------------------------------------------------------------------------------
-- Mappings that spell out a short reference
-----------------------------------------------------------------------------------------

/-- The names of a reference's fields, in the order in which a short reference lists them from its
end.
-/
def referenceFields : List String :=
  ["property", "configId", "api", "project"]

/-- A mapping names under its field, in whatever place, each element of a short reference. A field
for which the short reference has no element is absent or null. Nothing is said of other keys.
-/
structure SpellsOut (entries : List (Value × Value)) (elements : List Value) : Prop where
  distinct : Value.DistinctTexts entries
  kind : (.text "type", .text "reference") ∈ entries
  given
    : ∀ field ∈ referenceFields.zip elements.reverse, (Value.text field.1, field.2) ∈ entries
  omitted
    : ∀ name ∈ referenceFields.drop elements.length,
        ∀ value, (Value.text name, value) ∈ entries → value = .null

namespace SpellsOut

open Binder

variable {entries : List (Value × Value)} {elements : List Value} {own : Coordinate} {name : String}

/-- Each field reads like the element in its place, if there is one. -/
theorem textField_eq (spells : SpellsOut entries elements) (all : ∀ v ∈ elements, IsElement v)
    (place : Nat) {field : String} (named : referenceFields[place]? = some field)
    : DecodeContext.textField ⟨own, name, entries⟩ field
      = .ok (elements.map spelling).reverse[place]? := by
  have looked (value : Value) : Value.field field entries = some value
      ↔ (.text field, value) ∈ entries := Value.field_eq_some_iff spells.distinct
  rw [← List.map_reverse, List.getElem?_map, DecodeContext.textField, DecodeContext.field]
  cases listed : elements.reverse[place]? with
  | some value =>
      have member : value ∈ elements := List.mem_reverse.mp (List.mem_of_getElem? listed)
      have held := (looked value).mpr (spells.given (field, value)
        (List.mem_of_getElem? (List.getElem?_zip_eq_some.mpr ⟨named, listed⟩)))
      have bare := (all value member).1
      rw [held]
      split
      next none => cases none
      next null => exact absurd (Option.some.inj null) bare
      next other same =>
        cases same
        rw [scalarText_of_isElement (all value member)]
        rfl
  | none =>
      rw [List.getElem?_eq_none_iff, List.length_reverse] at listed
      have omitted : field ∈ referenceFields.drop elements.length := by
        refine List.mem_of_getElem? (i := place - elements.length) ?_
        rw [List.getElem?_drop, Nat.add_sub_cancel' listed, named]
      cases held : Value.field field entries with
      | none => rfl
      | some value =>
          rw [spells.omitted field omitted value ((looked value).mp held)]
          rfl

/-- So the mapping is decoded to the reference that the elements spell. -/
theorem decode_eq (spells : SpellsOut entries elements) (fits : FitsLength elements)
    (all : ∀ v ∈ elements, IsElement v)
    : DecoderRegistry.builtins.decode ⟨own, name, entries⟩
      = .ok (.reference (spelled own (elements.map spelling))) := by
  have kind : ((DecodeContext.field ⟨own, name, entries⟩ "type").bind Value.scalarText).getD ""
      = "reference" := by
    rw [DecodeContext.field, (Value.field_eq_some_iff spells.distinct).mpr spells.kind]
    rfl
  have decoder : DecoderRegistry.builtins.get? "reference" = some Decoder.reference := rfl
  obtain ⟨property, last⟩ : ∃ property, (elements.map spelling).reverse[0]? = some property :=
    ⟨_, List.getElem?_eq_getElem (by simpa using Nat.lt_of_succ_le fits.1)⟩
  rw [DecoderRegistry.decode, kind]
  simp only [decoder, Decoder.reference]
  rw [spells.textField_eq all 0 rfl, spells.textField_eq all 1 rfl, spells.textField_eq all 2 rfl,
    spells.textField_eq all 3 rfl, spelled, last]
  rfl

end SpellsOut

-----------------------------------------------------------------------------------------
-- Both ways of writing
-----------------------------------------------------------------------------------------

namespace Binder

/-- What is typed alike is accepted or refused alike, and records the same. -/
theorem add_congr {binder : Binder} {name : String} {raw other : RawParameter}
    (same : binder.resolve name raw = binder.resolve name other)
    : binder.add name raw = binder.add name other := by
  rw [add, add, same]

/-- What becomes of a reference, by whether it leads to the configuration it belongs to. -/
theorem add_of_reference {binder : Binder} {name : String} {raw : RawParameter}
    {reference : ParameterReference} (typed : binder.resolve name raw = .ok (.reference reference))
    : binder.add name raw
      = if reference.target = binder.own then (.error (.selfReference binder.own), binder)
        else (.ok (.reference reference),
          { binder with recorded := record binder.recorded reference.target }) := by
  have targets : (Parameter.reference reference).targets = [reference.target] := rfl
  split
  next own => exact add_of_own typed (by simp [targets, own])
  next foreign =>
    have accepted : binder.Accepts name raw (.reference reference) :=
      ⟨typed, by simpa [targets, eq_comm] using foreign⟩
    rw [add_of_accepts accepted, targets, List.foldl_cons, List.foldl_nil]

/-- A mapping that spells out a short reference is the same parameter under every name: what the
list spells, fields left out being those of the configuration itself. Both are refused, if they
refer to the configuration they belong to, and record the same otherwise.
-/
theorem resolve_spelled_out (own : Coordinate) (recorded : SortedMap String Coordinate)
    (name : String) {entries : List (Value × Value)} {elements : List Value}
    (fits : FitsLength elements) (all : ∀ v ∈ elements, IsElement v)
    (spells : SpellsOut entries elements)
    : let binder : Binder := ⟨.builtins, own, recorded⟩
      let reference := spelled own (elements.map spelling)
      binder.resolve name (.typed entries) = binder.resolve name (.shortReference elements)
      ∧ binder.add name (.typed entries) = binder.add name (.shortReference elements)
      ∧ (name ≠ idParameter →
          binder.resolve name (.shortReference elements) = .ok (.reference reference)
          ∧ binder.add name (.shortReference elements)
            = if reference.target = own then (.error (.selfReference own), binder)
              else (.ok (.reference reference),
                { binder with recorded := record recorded reference.target })) := by
  intro binder reference
  have typed (free : name ≠ idParameter)
      : binder.resolve name (.shortReference elements) = .ok (.reference reference) := by
    rw [resolve, if_neg free]
    exact shortReference_of_elements fits all
  have same : binder.resolve name (.typed entries)
      = binder.resolve name (.shortReference elements) := by
    by_cases reserved : name = idParameter
    · rw [resolve, if_pos reserved, resolve, if_pos reserved]
    · have decoded : binder.registry.decode ⟨binder.own, name, entries⟩
          = .ok (.reference reference) := spells.decode_eq fits all
      rw [typed reserved, resolve, if_neg reserved]
      simp only [decoded]
  exact ⟨same, add_congr same, fun free => ⟨typed free, add_of_reference (typed free)⟩⟩

/-- Three fields in another order, with a project that is null and with keys of no meaning. -/
theorem resolve_spelled_out_zones
    : let own : Coordinate := ⟨"app", "slo", "availability"⟩
      let elements : List Value := [.tagged "t" (.text "zones"), .integer 7, .text "id"]
      let entries : List (Value × Value) := [(.text "property", .text "id"),
        (.text "owner", .sequence []), (.integer 7, .text "api"), (.text "configId", .integer 7),
        (.text "type", .text "reference"), (.text "project", .null),
        (.text "api", .tagged "t" (.text "zones"))]
      let binder : Binder := .new .builtins own
      FitsLength elements ∧ (∀ v ∈ elements, IsElement v) ∧ SpellsOut entries elements
      ∧ "zone" ≠ idParameter
      ∧ binder.resolve "zone" (.typed entries) = .ok (.reference ⟨⟨"app", "zones", "7"⟩, "id"⟩)
      ∧ (binder.add "zone" (.typed entries)).2.references = [⟨"app", "zones", "7"⟩] := by
  intro own elements entries binder
  have fits : FitsLength elements := by decide
  have all : ∀ v ∈ elements, IsElement v := by
    simp [elements, IsElement, Value.untagged, Value.IsScalar]
  have spells : SpellsOut entries elements := {
    distinct := by simp [Value.DistinctTexts, entries]
    kind := by simp [entries]
    given := by simp [referenceFields, elements, entries]
    omitted := by simp [referenceFields, elements, entries]
  }
  have free : "zone" ≠ idParameter := by decide
  obtain ⟨same, sameAdd, made⟩ := resolve_spelled_out own .empty "zone" fits all spells
  obtain ⟨typed, added⟩ := made free
  have reference : spelled own (elements.map spelling) = ⟨⟨"app", "zones", "7"⟩, "id"⟩ := by
    decide +kernel
  refine ⟨fits, all, spells, free, ?_, ?_⟩
  · rw [← reference]
    exact same.trans typed
  · have foreign : (⟨"app", "zones", "7"⟩ : Coordinate) ≠ own := by decide
    have recorded : binder.add "zone" (.typed entries)
        = (.ok (.reference ⟨⟨"app", "zones", "7"⟩, "id"⟩),
            { binder with recorded := record .empty ⟨"app", "zones", "7"⟩ }) := by
      rw [reference, if_neg foreign] at added
      exact sameAdd.trans added
    rw [recorded]
    rfl

end Binder

end Rollout
