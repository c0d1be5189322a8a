import Rollout.Fixture.DefinitionText
import Rollout.Proofs.Batch
import Rollout.Proofs.Yaml.Record
import Rollout.Definition.Reading
import Rollout.Text.Pieces

/-!
What is written of a definition that is put together call by call. The lines of a block stand below
the keys that they are indented further than, and the keys are those of the strict schema. Each
override is written with a list of its own, so the second one of a kind repeats a key.
-/

namespace Rollout.Fixture

open Yaml.Reading (Accepts Refuses IsFieldEntry reads_record)

variable {text more : String} {ls others : List (List Char)}

-----------------------------------------------------------------------------------------
-- Lines of a text
-----------------------------------------------------------------------------------------

/-- The lines of a text, each ended by a line feed. -/
def linesOf (text : String) : List (List Char) :=
  (Text.pieces '\n' text.toList).dropLast

/-- The text consists of these lines. -/
structure Written (ls : List (List Char)) (text : String) : Prop where
  whole : text.toList = ls.flatMap (· ++ ['\n'])
  unbroken : ∀ line ∈ ls, '\n' ∉ line

/-- Each line feed ends a line, and nothing follows the last; by induction on the lines. -/
theorem pieces_lines (unbroken : ∀ line ∈ ls, '\n' ∉ line)
    : Text.pieces '\n' (ls.flatMap (· ++ ['\n'])) = ls ++ [[]] := by
  induction ls with
  | nil => rfl
  | cons line ls ih =>
      obtain ⟨here, later⟩ := List.forall_mem_cons.mp unbroken
      rw [List.flatMap_cons, List.append_assoc, List.singleton_append, Text.pieces_append,
        Text.pieces_eq_singleton here, ih later]
      rfl

theorem Written.linesOf_eq (written : Written ls text) : linesOf text = ls := by
  rw [linesOf, written.whole, pieces_lines written.unbroken, List.dropLast_concat]

theorem written_empty : Written [] "" :=
  ⟨rfl, List.forall_mem_nil _⟩

theorem Written.append (first : Written ls text) (second : Written others more)
    : Written (ls ++ others) (text ++ more) where
  whole := by rw [String.toList_append, first.whole, second.whole, List.flatMap_append]
  unbroken := List.forall_mem_append.mpr ⟨first.unbroken, second.unbroken⟩

/-- Texts put together one after another, by induction on what they are made of. -/
theorem written_join {α : Type} {items : List α} {lines : α → List (List Char)} {text : α → String}
    (each : ∀ x ∈ items, Written (lines x) (text x))
    : Written (items.flatMap lines) (String.join (items.map text)) := by
  induction items with
  | nil => exact written_empty
  | cons x items ih =>
      obtain ⟨here, later⟩ := List.forall_mem_cons.mp each
      rw [List.flatMap_cons, List.map_cons, String.join_cons]
      exact here.append (ih later)

-----------------------------------------------------------------------------------------
-- Keys and what stands beneath them
-----------------------------------------------------------------------------------------

/-- May the character stand before a key? A hyphen begins an item of a list. -/
def isMargin (c : Char) : Bool :=
  c = ' ' || c = '-'

/-- The column of the key of a line. -/
def column (line : List Char) : Nat :=
  (line.takeWhile isMargin).length

def keyOf (line : List Char) : String :=
  String.ofList ((line.dropWhile isMargin).takeWhile (· ≠ ':'))

/-- A key with the lines that stand beneath it. -/
structure Field where
  key : String
  beneath : List (List Char)
deriving DecidableEq, Repr

/-- The lines that are indented further than `margin`, up to the first that is not, and the fields
from there on.
-/
def fieldsFrom (margin : Nat) : List (List Char) → List (List Char) × List Field
  | [] => ([], [])
  | line :: rest =>
      let later := fieldsFrom margin rest
      if margin < column line then (line :: later.1, later.2)
      else ([], ⟨keyOf line, later.1⟩ :: later.2)

/-- The column at which the keys of a definition stand in a file. -/
def definitionColumn : Nat := 4

/-- The fields of a definition in its block of a file. -/
def fieldsOf (block : String) : List Field :=
  (fieldsFrom definitionColumn (linesOf block)).2

/-- A key, whatever follows its colon. -/
theorem column_keyOf {front key : List Char} (indented : front.all isMargin = true)
    (begins : key.head?.any isMargin = false) (noColon : ':' ∉ key) (rest : List Char)
    : column (front ++ (key ++ ':' :: rest)) = front.length
      ∧ keyOf (front ++ (key ++ ':' :: rest)) = String.ofList key := by
  have stop : (key ++ ':' :: rest).takeWhile isMargin = []
      ∧ (key ++ ':' :: rest).dropWhile isMargin = key ++ ':' :: rest := by
    cases key with
    | nil => exact ⟨rfl, rfl⟩
    | cons c key => exact ⟨List.takeWhile_cons_of_neg (by simpa using begins),
        List.dropWhile_cons_of_neg (by simpa using begins)⟩
  have letters : ∀ c ∈ key, decide (c ≠ ':') = true :=
    fun c member => decide_eq_true (ne_of_mem_of_not_mem member noColon)
  have word : (key ++ ':' :: rest).takeWhile (· ≠ ':') = key := by
    rw [List.takeWhile_append_of_pos letters]
    simp
  rw [List.all_eq_true] at indented
  constructor
  · rw [column, List.takeWhile_append_of_pos indented, stop.1, List.append_nil]
  · rw [keyOf, List.dropWhile_append_of_pos indented, stop.2, word]

theorem length_le_column {front : List Char} (indented : front.all isMargin = true)
    (rest : List Char)
    : front.length ≤ column (front ++ rest) := by
  rw [column, List.takeWhile_append_of_pos (List.all_eq_true.mp indented), List.length_append]
  exact Nat.le_add_right _ _

/-- Lines that are indented further stand beneath the key before them, by induction on the lines. -/
theorem fieldsFrom_append {margin : Nat} {beneath : List (List Char)}
    (deeper : ∀ line ∈ beneath, margin < column line) (rest : List (List Char))
    : fieldsFrom margin (beneath ++ rest)
      = (beneath ++ (fieldsFrom margin rest).1, (fieldsFrom margin rest).2) := by
  induction beneath with
  | nil => rfl
  | cons line beneath ih =>
      obtain ⟨here, later⟩ := List.forall_mem_cons.mp deeper
      rw [List.cons_append, fieldsFrom, ih later, if_pos here]
      rfl

/-- Lines in sections, each a key with lines that are indented further, by induction on these. -/
theorem fieldsFrom_sections {margin : Nat} {sections : List (List Char × List (List Char))}
    (heads : ∀ part ∈ sections, column part.1 = margin)
    (deeper : ∀ part ∈ sections, ∀ line ∈ part.2, margin < column line)
    : fieldsFrom margin (sections.flatMap fun part => part.1 :: part.2)
      = ([], sections.map fun part => ⟨keyOf part.1, part.2⟩) := by
  induction sections with
  | nil => rfl
  | cons part sections ih =>
      obtain ⟨head, heads⟩ := List.forall_mem_cons.mp heads
      obtain ⟨below, deeper⟩ := List.forall_mem_cons.mp deeper
      rw [List.flatMap_cons, List.cons_append, fieldsFrom, fieldsFrom_append below, ih heads deeper,
        head, if_neg (Nat.lt_irrefl margin), List.append_nil]
      rfl

namespace DefinitionText

variable {d : DefinitionText} {margin key value : String} {parameters : List (String × String)}

-----------------------------------------------------------------------------------------
-- What calls come to
-----------------------------------------------------------------------------------------

def OneLine (text : String) : Prop :=
  '\n' ∉ text.toList

instance : DecidablePred OneLine :=
  fun text => inferInstanceAs (Decidable ('\n' ∉ text.toList))

theorem OneLine.append (first : OneLine text) (second : OneLine more) : OneLine (text ++ more) := by
  rw [OneLine, String.toList_append]
  exact List.not_mem_append first second

/-- The texts that a call passes on. -/
def Call.texts : Call → List String
  | .name text | .template text | .skip text => [text]
  | .withoutName | .withoutTemplate => []
  | .parameter key value => [key, value]
  | .reference key api configId => [key, api, configId]
  | .override _ selector parameters => selector :: parameters.flatMap fun e => [e.1, e.2]

def Call.override? : Call → Option OverrideText
  | .override kind selector parameters => some ⟨kind, selector, parameters⟩
  | _ => none

/-- The overrides of one kind among calls, in their order. -/
def overridesOf (kind : OverrideKind) (calls : List Call) : List OverrideText :=
  (calls.filterMap Call.override?).filter (·.kind = kind)

theorem overrides_apply (d : DefinitionText) (call : Call)
    : (call.apply d).overrides = d.overrides ++ [call].filterMap Call.override? := by
  cases call <;> simp [Call.apply, Call.override?, withParameter, withReference, withOverride]

/-- Overrides are kept in the order of their calls, by induction on the calls. -/
theorem overrides_foldl (d : DefinitionText) (calls : List Call)
    : (calls.foldl Call.apply d).overrides = d.overrides ++ calls.filterMap Call.override? := by
  induction calls generalizing d with
  | nil => exact (List.append_nil _).symm
  | cons call calls ih =>
      rw [List.foldl_cons, ih, overrides_apply, List.append_assoc, ← List.filterMap_append]
      rfl

/-- Every text of the definition stands on one line. -/
structure Unbroken (d : DefinitionText) : Prop where
  id : OneLine d.id
  api : OneLine d.api
  name : ∀ text ∈ d.name, OneLine text
  template : ∀ text ∈ d.template, OneLine text
  skip : ∀ text ∈ d.skip, OneLine text
  parameters : ∀ e ∈ d.parameters, OneLine e.1 ∧ OneLine e.2
  overrides : ∀ o ∈ d.overrides, OneLine o.selector ∧ ∀ e ∈ o.parameters, OneLine e.1 ∧ OneLine e.2

theorem unbroken_new {id api : String} (idLine : OneLine id) (apiLine : OneLine api)
    : Unbroken (new id api) where
  id := idLine
  api := apiLine
  name := by
    rintro _ ⟨⟩
    exact (OneLine.append (by decide) idLine).append (by decide)
  template := by
    rintro _ ⟨⟩
    exact idLine.append (by decide)
  skip := nofun
  parameters := nofun
  overrides := nofun

theorem Unbroken.withParameter (unbroken : Unbroken d) (keyLine : OneLine key)
    (valueLine : OneLine value)
    : Unbroken (d.withParameter key value) :=
  { unbroken with
    parameters := List.forall_mem_append.mpr
      ⟨unbroken.parameters, List.forall_mem_singleton.mpr ⟨keyLine, valueLine⟩⟩ }

theorem Unbroken.apply (unbroken : Unbroken d) {call : Call}
    (onLines : ∀ text ∈ call.texts, OneLine text)
    : Unbroken (call.apply d) := by
  cases call with
  | name text => exact { unbroken with name := by rintro _ ⟨⟩; exact onLines _ List.mem_cons_self }
  | withoutName => exact { unbroken with name := nofun }
  | template text =>
      exact { unbroken with template := by rintro _ ⟨⟩; exact onLines _ List.mem_cons_self }
  | withoutTemplate => exact { unbroken with template := nofun }
  | skip text => exact { unbroken with skip := by rintro _ ⟨⟩; exact onLines _ List.mem_cons_self }
  | parameter key value =>
      simp only [Call.texts, List.forall_mem_cons] at onLines
      exact unbroken.withParameter onLines.1 onLines.2.1
  | reference key api configId =>
      simp only [Call.texts, List.forall_mem_cons] at onLines
      obtain ⟨keyLine, apiLine, idLine, _⟩ := onLines
      refine unbroken.withParameter keyLine ?_
      have opening : OneLine "[\"" := by decide
      have between : OneLine "\", \"" := by decide
      have closing : OneLine "\", \"id\"]" := by decide
      exact (((opening.append apiLine).append between).append idLine).append closing
  | override kind selector parameters =>
      obtain ⟨selectorLine, others⟩ := List.forall_mem_cons.mp onLines
      have each : ∀ e ∈ parameters, OneLine e.1 ∧ OneLine e.2 := fun e member =>
        ⟨others _ (List.mem_flatMap.mpr ⟨e, member, List.mem_cons_self⟩),
          others _ (List.mem_flatMap.mpr ⟨e, member, List.mem_cons_of_mem _ List.mem_cons_self⟩)⟩
      exact { unbroken with
        overrides := List.forall_mem_append.mpr
          ⟨unbroken.overrides, List.forall_mem_singleton.mpr ⟨selectorLine, each⟩⟩ }

/-- Texts on one line each come to a definition of such texts, by induction on the calls. -/
theorem Unbroken.foldl (unbroken : Unbroken d) {calls : List Call}
    (onLines : ∀ call ∈ calls, ∀ text ∈ call.texts, OneLine text)
    : Unbroken (calls.foldl Call.apply d) := by
  induction calls generalizing d with
  | nil => exact unbroken
  | cons call calls ih =>
      obtain ⟨here, later⟩ := List.forall_mem_cons.mp onLines
      exact ih (unbroken.apply here) later

-----------------------------------------------------------------------------------------
-- The block of a definition
-----------------------------------------------------------------------------------------

def entryLine (margin key value : String) : List Char :=
  (margin ++ key ++ ": " ++ value).toList

def headingLine (margin key : String) : List Char :=
  (margin ++ key ++ ":").toList

theorem written_line (oneLine : OneLine text) : Written [text.toList] (text ++ "\n") where
  whole := by rw [String.toList_append, List.flatMap_singleton]; rfl
  unbroken := List.forall_mem_singleton.mpr oneLine

theorem written_entry (keyLine : OneLine (margin ++ key)) (valueLine : OneLine value)
    : Written [entryLine margin key value] (entry margin key value) :=
  written_line ((keyLine.append (by decide)).append valueLine)

theorem written_heading (keyLine : OneLine (margin ++ key))
    : Written [headingLine margin key] (heading margin key) where
  whole := by
    simp only [heading, headingLine, String.toList_append, List.flatMap_singleton,
      List.append_assoc]
    rfl
  unbroken := List.forall_mem_singleton.mpr (keyLine.append (by decide))

def parametersBeneath (margin : String) (parameters : List (String × String)) : List (List Char) :=
  parameters.map fun e => entryLine margin e.1 e.2

theorem written_parameters (marginLine : OneLine margin)
    (onLines : ∀ e ∈ parameters, OneLine e.1 ∧ OneLine e.2)
    : Written (parametersBeneath margin parameters) (parameterLines margin parameters) := by
  have written := written_join fun e member =>
    written_entry (marginLine.append (onLines e member).1) (onLines e member).2
  rw [← List.map_eq_flatMap] at written
  exact written

/-- The lines below the key of the configuration. -/
def bodyBeneath (d : DefinitionText) : List (List Char) :=
  d.name.toList.map (entryLine "      " "name")
    ++ d.template.toList.map (entryLine "      " "template")
    ++ d.skip.toList.map (entryLine "      " "skip")
    ++ (if d.parameters.isEmpty then []
      else headingLine "      " "parameters" :: parametersBeneath "        " d.parameters)

/-- The lines below the key of an override. -/
def beneath (o : OverrideText) : List (List Char) :=
  entryLine "      - " o.kind.key o.selector :: headingLine "        " "override"
    :: headingLine "          " "parameters" :: parametersBeneath "            " o.parameters

/-- The lines of a definition, by the keys that they stand below. -/
def outline (d : DefinitionText) : List (List Char × List (List Char)) :=
  [(entryLine "  - " "id" d.id, []), (headingLine "    " "type", [entryLine "      " "api" d.api]),
    (headingLine "    " "config", d.bodyBeneath)]
    ++ d.overrides.map fun o => (headingLine "    " o.kind.list, beneath o)

theorem written_optional (key : String) {value : Option String}
    (keyLine : OneLine ("      " ++ key)) (onLine : ∀ text ∈ value, OneLine text)
    : Written (value.toList.map (entryLine "      " key)) (optionalEntry key value) := by
  cases value with
  | none => exact written_empty
  | some text => exact written_entry keyLine (onLine text rfl)

theorem written_override {o : OverrideText} (selectorLine : OneLine o.selector)
    (onLines : ∀ e ∈ o.parameters, OneLine e.1 ∧ OneLine e.2)
    : Written (headingLine "    " o.kind.list :: beneath o) (overrideLines o) := by
  have list : OneLine ("    " ++ o.kind.list) := by cases o.kind <;> decide
  have selected : OneLine ("      - " ++ o.kind.key) := by cases o.kind <;> decide
  have overriding : OneLine ("        " ++ "override") := by decide
  have heading : OneLine ("          " ++ "parameters") := by decide
  have margin : OneLine "            " := by decide
  exact ((((written_heading list).append (written_entry selected selectorLine)).append
    (written_heading overriding)).append (written_heading heading)).append
    (written_parameters margin onLines)

/-- The block of a definition consists of the lines of its outline. -/
theorem written_lines (unbroken : Unbroken d)
    : Written (d.outline.flatMap fun part => part.1 :: part.2) d.lines := by
  have id : Written [entryLine "  - " "id" d.id] _ := written_entry (by decide) unbroken.id
  have type : Written [headingLine "    " "type"] _ := written_heading (by decide)
  have api : Written [entryLine "      " "api" d.api] _ := written_entry (by decide) unbroken.api
  have config : Written [headingLine "    " "config"] _ := written_heading (by decide)
  have name := written_optional "name" (by decide) unbroken.name
  have template := written_optional "template" (by decide) unbroken.template
  have skip := written_optional "skip" (by decide) unbroken.skip
  have parameters : Written
      (if d.parameters.isEmpty then []
        else headingLine "      " "parameters" :: parametersBeneath "        " d.parameters)
      (if d.parameters.isEmpty then ""
        else heading "      " "parameters" ++ parameterLines "        " d.parameters) := by
    split
    case isTrue => exact written_empty
    case isFalse =>
      exact (written_heading (by decide)).append
        (written_parameters (by decide) unbroken.parameters)
  have overrides := written_join fun o member =>
    written_override (unbroken.overrides o member).1 (unbroken.overrides o member).2
  have whole : Written _ d.lines :=
    (((((((id.append type).append api).append config).append name).append template).append
      skip).append parameters).append overrides
  simpa [outline, bodyBeneath, List.flatMap_map] using whole

theorem written_file {definitions : List DefinitionText} (unbroken : ∀ d ∈ definitions, Unbroken d)
    : Written (headingLine "" "configs"
          :: definitions.flatMap fun d => d.outline.flatMap fun part => part.1 :: part.2)
        (file definitions) :=
  (written_heading (by decide)).append
    (written_join fun d member => written_lines (unbroken d member))

-----------------------------------------------------------------------------------------
-- The fields of a definition
-----------------------------------------------------------------------------------------

theorem column_keyOf_id (d : DefinitionText)
    : column (entryLine "  - " "id" d.id) = definitionColumn
      ∧ keyOf (entryLine "  - " "id" d.id) = "id" := by
  have whole : entryLine "  - " "id" d.id
      = "  - ".toList ++ ("id".toList ++ ':' :: ' ' :: d.id.toList) := by
    simp [entryLine]
  rw [whole]
  exact column_keyOf (by decide) (by decide) (by decide) _

theorem column_keyOf_list (kind : OverrideKind)
    : column (headingLine "    " kind.list) = definitionColumn
      ∧ keyOf (headingLine "    " kind.list) = kind.list := by
  cases kind <;> decide

theorem column_head (d : DefinitionText)
    : ∀ part ∈ d.outline, column part.1 = definitionColumn := by
  refine List.forall_mem_append.mpr ⟨?fixed, List.forall_mem_map.mpr fun o _ => ?override⟩
  case fixed =>
    simp only [List.forall_mem_cons]
    exact ⟨d.column_keyOf_id.1, by decide, by decide, List.forall_mem_nil _⟩
  case override => exact (column_keyOf_list o.kind).1

/-- What stands behind the margin stands beneath the keys of a definition. -/
def IsDeep (margin : String) : Prop :=
  definitionColumn < margin.toList.length ∧ margin.toList.all isMargin = true

instance : DecidablePred IsDeep :=
  fun _ => instDecidableAnd

theorem lt_column_entry (deep : IsDeep margin)
    : definitionColumn < column (entryLine margin key value) := by
  rw [entryLine, String.append_assoc, String.append_assoc, String.toList_append]
  exact Nat.lt_of_lt_of_le deep.1 (length_le_column deep.2 _)

theorem lt_column_parameter (deep : IsDeep margin)
    : ∀ line ∈ parametersBeneath margin parameters, definitionColumn < column line :=
  List.forall_mem_map.mpr fun _ _ => lt_column_entry deep

theorem lt_column_body (d : DefinitionText)
    : ∀ line ∈ d.bodyBeneath, definitionColumn < column line := by
  have entries (key : String) (values : List String)
      : ∀ line ∈ values.map (entryLine "      " key), definitionColumn < column line :=
    List.forall_mem_map.mpr fun _ _ => lt_column_entry (by decide)
  simp only [bodyBeneath, List.forall_mem_append]
  refine ⟨⟨⟨entries _ _, entries _ _⟩, entries _ _⟩, ?_⟩
  split
  case isTrue => exact List.forall_mem_nil _
  case isFalse =>
    exact List.forall_mem_cons.mpr ⟨by decide, lt_column_parameter (by decide)⟩

theorem lt_column_override (o : OverrideText)
    : ∀ line ∈ beneath o, definitionColumn < column line := by
  simp only [beneath, List.forall_mem_cons]
  exact ⟨lt_column_entry (by decide), by decide, by decide, lt_column_parameter (by decide)⟩

theorem lt_column_beneath (d : DefinitionText)
    : ∀ part ∈ d.outline, ∀ line ∈ part.2, definitionColumn < column line := by
  refine List.forall_mem_append.mpr ⟨?fixed, List.forall_mem_map.mpr fun o _ => ?override⟩
  case fixed =>
    simp only [List.forall_mem_cons]
    exact ⟨List.forall_mem_nil _, ⟨lt_column_entry (by decide), List.forall_mem_nil _⟩,
      d.lt_column_body, List.forall_mem_nil _⟩
  case override => exact lt_column_override o

/-- The fields of a definition: three of its own, and one for each override. -/
theorem fieldsOf_lines (unbroken : Unbroken d)
    : fieldsOf d.lines
      = [⟨"id", []⟩, ⟨"type", [entryLine "      " "api" d.api]⟩, ⟨"config", d.bodyBeneath⟩]
        ++ d.overrides.map fun o => ⟨o.kind.list, beneath o⟩ := by
  have overrides : (d.overrides.map fun o => (headingLine "    " o.kind.list, beneath o)).map
        (fun part => (⟨keyOf part.1, part.2⟩ : Field))
      = d.overrides.map fun o => ⟨o.kind.list, beneath o⟩ := by
    rw [List.map_map]
    exact List.map_congr_left fun o _ => by rw [Function.comp, (column_keyOf_list o.kind).2]
  have type : keyOf (headingLine "    " "type") = "type" := by decide
  have config : keyOf (headingLine "    " "config") = "config" := by decide
  rw [fieldsOf, (written_lines unbroken).linesOf_eq, fieldsFrom_sections d.column_head
    d.lt_column_beneath, outline, List.map_append, overrides]
  simp only [List.map_cons, List.map_nil, d.column_keyOf_id.2, type, config]

-----------------------------------------------------------------------------------------
-- Keys that repeat
-----------------------------------------------------------------------------------------

/-- The keys of a definition with these overrides. -/
def keysOf (overrides : List OverrideText) : List String :=
  ["id", "type", "config"] ++ overrides.map (·.kind.list)

variable {overrides : List OverrideText}

theorem list_injective : Function.Injective OverrideKind.list := by
  intro kind other same
  cases kind with
  | group =>
      cases other with
      | group => rfl
      | environment => exact absurd same (by decide)
  | environment =>
      cases other with
      | group => exact absurd same (by decide)
      | environment => rfl

theorem count_keysOf (overrides : List OverrideText) (kind : OverrideKind)
    : (keysOf overrides).count kind.list = (overrides.filter (·.kind = kind)).length := by
  have own : ["id", "type", "config"].count kind.list = 0 := by cases kind <;> decide
  rw [keysOf, List.count_append, own, Nat.zero_add, List.count_eq_countP, List.countP_map,
    List.countP_eq_length_filter]
  congr 1
  refine List.filter_congr fun o _ => ?_
  rw [Function.comp_apply, beq_eq_decide]
  exact decide_eq_decide.mpr list_injective.eq_iff

/-- No key but that of overrides can repeat. -/
theorem exists_kind_of_count {key : String} (twice : 1 < (keysOf overrides).count key)
    : ∃ kind : OverrideKind, key = kind.list := by
  have own : ["id", "type", "config"].count key ≤ 1 :=
    List.nodup_iff_count_le_one.mp (by decide) key
  rw [keysOf, List.count_append] at twice
  have among : key ∈ overrides.map (·.kind.list) := List.count_pos_iff.mp (by omega)
  obtain ⟨o, _, rfl⟩ := List.mem_map.mp among
  exact ⟨o.kind, rfl⟩

theorem nodup_keysOf_iff
    : (keysOf overrides).Nodup ↔ ∀ kind, (overrides.filter (·.kind = kind)).length ≤ 1 := by
  rw [List.nodup_iff_count_le_one]
  constructor
  · intro once kind
    rw [← count_keysOf]
    exact once kind.list
  · intro once key
    by_contra twice
    obtain ⟨kind, rfl⟩ := exists_kind_of_count (Nat.lt_of_not_le twice)
    rw [count_keysOf] at twice
    exact twice (once kind)

/-- Nothing that a definition must have is missing. -/
theorem missing?_keysOf (overrides : List OverrideText)
    : Definition.schema.missing? (keysOf overrides).reverse = none := by
  have present : "id" ∈ keysOf overrides := List.mem_cons_self
  simp [Schema.Record.missing?, Definition.schema, Schema.required, Schema.defaulted, present]

theorem keys_lines (unbroken : Unbroken d)
    : (fieldsOf d.lines).map Field.key = keysOf d.overrides := by
  rw [fieldsOf_lines unbroken, List.map_append, List.map_map]
  rfl

/-- Beneath the key of a kind, wherever it stands, are the overrides of the kind one after another.
-/
theorem beneath_list (unbroken : Unbroken d) (kind : OverrideKind)
    : ((fieldsOf d.lines).filter (·.key = kind.list)).map Field.beneath
      = (d.overrides.filter (·.kind = kind)).map beneath := by
  have own : [(⟨"id", []⟩ : Field), ⟨"type", [entryLine "      " "api" d.api]⟩,
      ⟨"config", d.bodyBeneath⟩].filter (·.key = kind.list) = [] := by
    cases kind <;> rfl
  have same : (fun o : OverrideText => decide (o.kind.list = kind.list))
      = fun o => decide (o.kind = kind) :=
    funext fun o => decide_eq_decide.mpr list_injective.eq_iff
  rw [fieldsOf_lines unbroken, List.filter_append, own, List.nil_append, List.filter_map,
    List.map_map, ← same]
  rfl

/-- Whatever calls a definition is put together by, its block has the keys of its parts and then one
for each override, in the order of the calls, with the lines of the override beneath it. So no key
is repeated exactly if there is at most one override of each kind. A mapping with these keys, whose
values can each be read, is then read as a definition, and otherwise refused for a repeated list of
overrides.
-/
theorem ofCalls_keys_nodup_iff (id api : String) (calls : List Call) (idLine : OneLine id)
    (apiLine : OneLine api) (onLines : ∀ call ∈ calls, ∀ text ∈ call.texts, OneLine text)
    : let fields := fieldsOf (ofCalls id api calls).lines
      let keys := fields.map Field.key
      keys = keysOf (calls.filterMap Call.override?)
      ∧ (∀ kind, (fields.filter (·.key = OverrideKind.list kind)).map Field.beneath
          = (overridesOf kind calls).map beneath)
      ∧ (keys.Nodup ↔ ∀ kind, (overridesOf kind calls).length ≤ 1)
      ∧ ∀ depth location props pairs,
          List.Forall₂ (IsFieldEntry Definition.schema (fun reader => reader depth) location) pairs
            keys →
          let reading := (Schema.Format.record Definition.schema : Yaml.Reader Definition)
            (depth + 1) location (.mapping props pairs)
          (keys.Nodup → Accepts reading)
          ∧ (¬keys.Nodup → ∃ kind, 1 < (overridesOf kind calls).length
              ∧ Refuses (.complaint location (.repeatedField kind.list)) reading) := by
  intro fields keys
  have unbroken : Unbroken (ofCalls id api calls) := (unbroken_new idLine apiLine).foldl onLines
  have overrides : (ofCalls id api calls).overrides = calls.filterMap Call.override? :=
    overrides_foldl _ calls
  have listed : keys = keysOf (calls.filterMap Call.override?) := overrides ▸ keys_lines unbroken
  refine ⟨listed, ?beneath, listed ▸ nodup_keysOf_iff, ?read⟩
  case beneath =>
    intro kind
    rw [beneath_list unbroken, overrides]
    rfl
  case read =>
    intro depth location props pairs readable reading
    rw [listed] at readable ⊢
    have complete := missing?_keysOf (calls.filterMap Call.override?)
    refine ⟨(reads_record readable complete props).1, fun repeated => ?_⟩
    obtain ⟨name, twice, refuses⟩ := (reads_record readable complete props).2 repeated
    rw [List.duplicate_iff_two_le_count] at twice
    obtain ⟨kind, rfl⟩ := exists_kind_of_count twice
    rw [count_keysOf] at twice
    exact ⟨kind, twice, refuses⟩

/-- A definition without a template that has one override of either kind. -/
def overriddenOnce : List Call :=
  [.withoutName, .withoutTemplate, .override .group "a" [], .override .environment "b" []]

/-- A definition without a template that has two overrides of one kind. -/
def overriddenTwice : List Call :=
  [.withoutName, .withoutTemplate, .override .group "a" [], .override .group "b" []]

/-- The entries of the former as a reader of YAML meets them. -/
def nodes : List (Yaml.Node × Yaml.Node) :=
  let plain (text : String) : Yaml.Node := .scalar .none true text
  let mapping (pairs : List (Yaml.Node × Yaml.Node)) : Yaml.Node := .mapping .none pairs
  let override (selector value : String) : Yaml.Node :=
    mapping [(plain selector, plain value),
      (plain "override", mapping [(plain "parameters", plain "")])]
  [(plain "id", plain "zone"), (plain "type", mapping [(plain "api", plain "slo")]),
    (plain "config", plain ""), (plain "groupOverrides", .sequence .none [override "group" "a"]),
    (plain "environmentOverrides", .sequence .none [override "environment" "b"])]

theorem readable_nodes (location : Yaml.Location)
    : List.Forall₂ (IsFieldEntry Definition.schema (fun reader => reader 10) location) nodes
        (keysOf (overriddenOnce.filterMap Call.override?)) := by
  refine .cons ?_ (.cons ?_ (.cons ?_ (.cons ?_ (.cons ?_ .nil))))
  all_goals exact ⟨⟨_, _, rfl⟩, _, rfl, fun _ _ => ⟨_, _, rfl⟩⟩

/-- One override of either kind: the keys differ, and the whole file is read. -/
theorem ofCalls_keys_nodup_once
    : let d := ofCalls "zone" "slo" overriddenOnce
      ((fieldsOf d.lines).map Field.key).Nodup
      ∧ Accepts ((Schema.Format.record Definition.schema : Yaml.Reader Definition) 11 .root
          (.mapping .none nodes))
      ∧ ∃ definitions, Definition.readFile (file [d]).toList = .ok definitions
          ∧ definitions.map (fun d => (d.groupOverrides.length, d.environmentOverrides.length))
            = [(1, 1)] := by
  intro d
  have onLines : ∀ call ∈ overriddenOnce, ∀ text ∈ call.texts, OneLine text := by decide
  obtain ⟨keys, _, distinct, read⟩ := ofCalls_keys_nodup_iff "zone" "slo" overriddenOnce
    (by decide) (by decide) onLines
  have once := distinct.mpr fun kind => by cases kind <;> decide
  have readable := readable_nodes .root
  rw [← keys] at readable
  have unbroken : Unbroken d :=
    Unbroken.foldl (unbroken_new (by decide) (by decide)) onLines
  have found : (Definition.readFile (file [d]).toList).toOption.any (fun definitions =>
      definitions.map (fun d => (d.groupOverrides.length, d.environmentOverrides.length))
        = [(1, 1)])
      = true := by
    rw [(written_file (List.forall_mem_singleton.mpr unbroken)).whole]
    decide +kernel
  obtain ⟨definitions, done, each⟩ := Batch.exists_ok_of_any found
  exact ⟨once, (read 10 .root .none nodes readable).1 once, definitions, done,
    of_decide_eq_true each⟩

/-- Two overrides of one kind: the list that they share is repeated, and the file refused for it. -/
theorem keys_repeat_two_groups
    : let d := ofCalls "zone" "slo" overriddenTwice
      (∀ call ∈ overriddenTwice, ∀ text ∈ call.texts, OneLine text)
      ∧ ¬((fieldsOf d.lines).map Field.key).Nodup
      ∧ (match Definition.readFile (file [d]).toList with
          | .error ⟨.complaint location (.repeatedField name), _⟩ =>
              location = (Yaml.Location.root.field "configs").item 0 && name = "groupOverrides"
          | _ => false) = true := by
  intro d
  have onLines : ∀ call ∈ overriddenTwice, ∀ text ∈ call.texts, OneLine text := by decide
  have unbroken : Unbroken d :=
    Unbroken.foldl (unbroken_new (by decide) (by decide)) onLines
  refine ⟨onLines, ?repeated, ?refused⟩
  case repeated =>
    rw [keys_lines unbroken]
    decide
  case refused =>
    rw [(written_file (List.forall_mem_singleton.mpr unbroken)).whole]
    decide +kernel

end DefinitionText

end Rollout.Fixture
