import Mathlib.Data.List.TakeWhile
import Rollout.FileFormat
import Rollout.Proofs.Path.NormalForm

/-!
Two ways to know a YAML file by its name. Definition files are found by how their names end, and all
other files are read by the extension of their names. A name such as `.yaml` ends like a YAML file
but has no extension; no other name is judged differently.
-/

namespace Rollout

variable {name : String} {front extension text : List Char}

-----------------------------------------------------------------------------------------
-- Extensions
-----------------------------------------------------------------------------------------

namespace Path

theorem passes_of_not_mem (noDot : '.' ∉ text) : ∀ c ∈ text.reverse, decide (c ≠ '.') = true :=
  fun _ member => decide_eq_true (ne_of_mem_of_not_mem (List.mem_reverse.mp member) noDot)

/-- A name with a dot is cut at its last one. It has the part behind it as its extension, unless
nothing stands in front.
-/
theorem extensionOf?_append (noDot : '.' ∉ extension)
    : extensionOf? (front ++ '.' :: extension) = if front = [] then none else some extension := by
  have last : ((front ++ '.' :: extension).reverse.takeWhile (· ≠ '.')).reverse = extension := by
    rw [List.reverse_append, List.reverse_cons, List.append_assoc,
      List.takeWhile_append_of_pos (passes_of_not_mem noDot)]
    simp
  rw [extensionOf?, last]
  cases front with
  | nil => simp
  | cons => simp; omega

theorem extensionOf?_of_not_mem (noDot : '.' ∉ text) : extensionOf? text = none := by
  have whole : (text.reverse.takeWhile (· ≠ '.')).reverse = text := by
    rw [List.takeWhile_eq_self_iff.mpr (passes_of_not_mem noDot), List.reverse_reverse]
  rw [extensionOf?, whole]
  exact if_pos (Nat.le_succ _)

theorem extensionOf?_eq_some_iff
    : extensionOf? text = some extension
      ↔ ∃ front, front ≠ [] ∧ text = front ++ '.' :: extension ∧ '.' ∉ extension := by
  constructor
  · intro known
    by_cases dot : '.' ∈ text
    · -- Cut from the right: the first dot of the reversed text is the last one.
      obtain ⟨behind, before, cut, noDot⟩ := List.eq_append_cons_of_mem (List.mem_reverse.mpr dot)
      have whole : text = before.reverse ++ '.' :: behind.reverse := by
        rw [← List.reverse_reverse text, cut]
        simp
      have absent : '.' ∉ behind.reverse := mt List.mem_reverse.mp noDot
      rw [whole, extensionOf?_append absent, Option.ite_none_left_eq_some] at known
      obtain ⟨some, same⟩ := known
      cases same
      exact ⟨before.reverse, some, whole, absent⟩
    · rw [extensionOf?_of_not_mem dot] at known
      cases known
  · rintro ⟨front, some, rfl, noDot⟩
    rw [extensionOf?_append noDot, if_neg some]

/-- A proper name is a path of its own. -/
theorem ofText_of_isName (named : IsName name.toList) : ofText name = .relative [name.toList] := by
  have clean : Clean (.relative [name.toList]) := .relative 0 (by simpa using named)
  have written : (Path.relative [name.toList]).text = name := String.ofList_toList
  have read := clean.ofText_text
  rwa [written] at read

theorem extension?_of_isName (named : IsName name.toList)
    : (ofText name).extension? = (extensionOf? name.toList).map String.ofList := by
  rw [ofText_of_isName named]
  rfl

end Path

-----------------------------------------------------------------------------------------
-- The two tests
-----------------------------------------------------------------------------------------

namespace FileFormat

theorem eq_dot_of_toLower {c : Char} (same : c.toLower = '.') : c = '.' := by
  unfold Char.toLower at same
  split at same
  next upper =>
    have moved := congrArg Char.val same
    obtain ⟨least, most⟩ := upper
    simp only [Char.reduceVal] at least most moved
    grind
  next => exact same

theorem ofExtension?_eq_yaml_iff
    : ofExtension? extension = some .yaml
      ↔ lower extension = "yaml".toList ∨ lower extension = "yml".toList := by
  unfold ofExtension?
  simp only
  split
  next json => rw [json]; decide
  next => simp [or_iff_not_imp_left]

/-- No YAML extension holds a dot, since lower case has one wherever the text does. -/
theorem dot_not_mem_of_yaml (yaml : ofExtension? extension = some .yaml) : '.' ∉ extension := by
  intro member
  have inLower : '.' ∈ lower extension := List.mem_map_of_mem (f := Char.toLower) member
  rcases ofExtension?_eq_yaml_iff.mp yaml with same | same
  all_goals
    rw [same] at inLower
    revert inLower
    decide

/-- In lower case a text ends in a dot and a given word exactly if it is cut so at a dot of its own.
-/
theorem dot_suffix_lower_iff {word : List Char}
    : '.' :: word <:+ lower text
      ↔ ∃ front extension, text = front ++ '.' :: extension ∧ lower extension = word := by
  constructor
  · rintro ⟨before, whole⟩
    obtain ⟨front, last, rfl, _, lowered⟩ := List.map_eq_append_iff.mp whole.symm
    obtain ⟨c, extension, rfl, dot, same⟩ := List.map_eq_cons_iff.mp lowered
    rw [eq_dot_of_toLower dot]
    exact ⟨front, extension, rfl, same⟩
  · rintro ⟨front, extension, rfl, rfl⟩
    exact ⟨lower front, by simp [lower]⟩

theorem lower_eq_dot_cons_iff {word : List Char}
    : lower text = '.' :: word ↔ ∃ extension, text = '.' :: extension ∧ lower extension = word := by
  constructor
  · intro lowered
    obtain ⟨c, extension, rfl, dot, same⟩ := List.map_eq_cons_iff.mp lowered
    rw [eq_dot_of_toLower dot]
    exact ⟨extension, rfl, same⟩
  · rintro ⟨extension, rfl, rfl⟩
    rfl

theorem toList_dotYaml : ".yaml".toList = '.' :: "yaml".toList :=
  rfl

theorem toList_dotYml : ".yml".toList = '.' :: "yml".toList :=
  rfl

/-- A definition file is known by a YAML extension behind a dot, whatever stands before the dot. -/
theorem isYamlName_iff
    : isYamlName name = true
      ↔ ∃ front extension,
          name.toList = front ++ '.' :: extension ∧ ofExtension? extension = some .yaml := by
  simp only [isYamlName, Bool.or_eq_true, List.isSuffixOf_iff_suffix, ofExtension?_eq_yaml_iff]
  rw [toList_dotYaml, toList_dotYml, dot_suffix_lower_iff, dot_suffix_lower_iff]
  simp only [and_or_left, exists_or]

theorem ofPath_eq_yaml_iff {path : Path}
    : ofPath path = .ok .yaml
      ↔ ofExtension? (path.extension?.getD "").toList = some .yaml := by
  unfold ofPath
  simp only
  split <;> simp [*]

/-- A file is read as YAML by such an extension behind a dot, if something stands before the dot. -/
theorem ofPath_ofText_eq_yaml_iff (named : Path.IsName name.toList)
    : ofPath (.ofText name) = .ok .yaml
      ↔ ∃ front extension, front ≠ []
          ∧ name.toList = front ++ '.' :: extension ∧ ofExtension? extension = some .yaml := by
  rw [ofPath_eq_yaml_iff, Path.extension?_of_isName named]
  constructor
  · intro yaml
    cases known : Path.extensionOf? name.toList with
    | none =>
        rw [known] at yaml
        cases yaml
    | some extension =>
        obtain ⟨front, some, cut, _⟩ := Path.extensionOf?_eq_some_iff.mp known
        rw [known] at yaml
        exact ⟨front, extension, some, cut, by simpa using yaml⟩
  · rintro ⟨front, extension, some, cut, yaml⟩
    have known := Path.extensionOf?_eq_some_iff.mpr ⟨front, some, cut, dot_not_mem_of_yaml yaml⟩
    rw [known]
    simpa using yaml

/-- A name that is nothing but a dot and a YAML extension. -/
def IsBareYaml (name : String) : Prop :=
  ∃ extension, name.toList = '.' :: extension ∧ ofExtension? extension = some .yaml

theorem isBareYaml_iff
    : IsBareYaml name
      ↔ lower name.toList = ".yaml".toList ∨ lower name.toList = ".yml".toList := by
  simp only [IsBareYaml, ofExtension?_eq_yaml_iff]
  rw [toList_dotYaml, toList_dotYml, lower_eq_dot_cons_iff, lower_eq_dot_cons_iff]
  simp only [and_or_left, exists_or]

/-- A bare name is taken for that of a definition file, but no file is read by it: it counts as one
without an extension.
-/
theorem IsBareYaml.judged (named : Path.IsName name.toList) (bare : IsBareYaml name)
    : isYamlName name = true ∧ ofPath (.ofText name) = .error (.unsupportedFormat "") := by
  obtain ⟨extension, whole, yaml⟩ := bare
  refine ⟨isYamlName_iff.mpr ⟨[], extension, whole, yaml⟩, ?_⟩
  have none : (Path.ofText name).extension? = none := by
    have alone : Path.extensionOf? ([] ++ '.' :: extension) = none :=
      Path.extensionOf?_append (dot_not_mem_of_yaml yaml)
    rw [Path.extension?_of_isName named, whole]
    exact congrArg _ alone
  rw [ofPath, none]
  rfl

/-- For every proper name the two tests agree, whether it is a YAML file's or not, unless the name
is a bare `.yaml` or `.yml` in any case of letters. The test for definition files takes such a name
for one of theirs, and the other finds no extension in it.
-/
theorem isYamlName_agrees_iff (named : Path.IsName name.toList)
    : ((isYamlName name = true ↔ ofPath (.ofText name) = .ok .yaml)
        ↔ lower name.toList ≠ ".yaml".toList ∧ lower name.toList ≠ ".yml".toList)
      ∧ (lower name.toList = ".yaml".toList ∨ lower name.toList = ".yml".toList →
          isYamlName name = true ∧ ofPath (.ofText name) = .error (.unsupportedFormat "")) := by
  rw [← not_or, ← isBareYaml_iff]
  refine ⟨⟨?apart, ?agree⟩, IsBareYaml.judged named⟩
  case apart =>
    intro agree bare
    obtain ⟨found, refused⟩ := bare.judged named
    rw [agree.mp found] at refused
    cases refused
  case agree =>
    intro notBare
    rw [isYamlName_iff, ofPath_ofText_eq_yaml_iff named]
    refine exists_congr fun front => exists_congr fun extension => ?_
    constructor
    · rintro ⟨whole, yaml⟩
      refine ⟨?_, whole, yaml⟩
      rintro rfl
      exact notBare ⟨extension, whole, yaml⟩
    · exact And.right

/-- Only the last of several dots counts, in capital letters as well. -/
theorem isYamlName_agrees_capitals
    : Path.IsName ".alerts.json.YML".toList
      ∧ isYamlName ".alerts.json.YML" = true
      ∧ ofPath (.ofText ".alerts.json.YML") = .ok .yaml := by
  have named : Path.IsName ".alerts.json.YML".toList := by constructor <;> decide
  have found : isYamlName ".alerts.json.YML" = true := by decide
  have agree := (isYamlName_agrees_iff named).1.mpr (by decide)
  exact ⟨named, found, agree.mp found⟩

/-- A file of this name is found as a definition file and refused as a manifest. -/
theorem isYamlName_differs_bare
    : Path.IsName ".yaml".toList
      ∧ ¬(isYamlName ".yaml" = true ↔ ofPath (.ofText ".yaml") = .ok .yaml)
      ∧ ofPath (.ofText ".yaml") = .error (.unsupportedFormat "") := by
  have found : isYamlName ".yaml" = true := by decide
  have refused : ofPath (.ofText ".yaml") = .error (.unsupportedFormat "") := by decide
  refine ⟨by constructor <;> decide, fun agree => ?_, refused⟩
  rw [agree.mp found] at refused
  cases refused

end FileFormat

end Rollout
