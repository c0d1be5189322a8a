import Mathlib.Data.List.Basic
import Mathlib.Data.List.Perm.Basic
import Rollout.Binder
import Rollout.Proofs.SortedMap

/-!
Which coordinates a binder records. Of those that share a canonical text it records the one that it
meets first, so nothing is lost exactly if no two of them share one.
-/

namespace Rollout

/-- The coordinates that a parameter refers to. -/
def Parameter.targets (parameter : Parameter) : List Coordinate :=
  parameter.references.map ParameterReference.target

/-- No two of the coordinates share a canonical text. -/
def Distinguished (coordinates : List Coordinate) : Prop :=
  ∀ a ∈ coordinates, ∀ b ∈ coordinates, a.canonical = b.canonical → a = b

instance : DecidablePred Distinguished := fun coordinates =>
  inferInstanceAs
    (Decidable (∀ a ∈ coordinates, ∀ b ∈ coordinates, a.canonical = b.canonical → a = b))

/-- Only which coordinates there are counts, neither their order nor their number. -/
theorem Distinguished.congr {left right : List Coordinate} (same : ∀ c, c ∈ left ↔ c ∈ right)
    : Distinguished left ↔ Distinguished right := by
  simp only [Distinguished, same]

namespace Binder

-----------------------------------------------------------------------------------------
-- Recording coordinates
-----------------------------------------------------------------------------------------

theorem get?_record (recorded : SortedMap String Coordinate) (c : Coordinate) (text : String)
    : (record recorded c).get? text
      = (recorded.get? text).or (if c.canonical = text then some c else none) := by
  rcases eq_or_ne c.canonical text with rfl | different
  · cases held : recorded.get? c.canonical <;> simp [record, SortedMap.contains, held]
  · rw [if_neg different, Option.or_none, record]
    split
    · rfl
    · simp [SortedMap.get?_insert, different.symm]

/-- Under a text the coordinate stays that was recorded first; by induction on the coordinates. -/
theorem get?_foldl_record (coordinates : List Coordinate) (recorded : SortedMap String Coordinate)
    (text : String)
    : (coordinates.foldl record recorded).get? text
      = (recorded.get? text).or (coordinates.find? (·.canonical = text)) := by
  induction coordinates generalizing recorded with
  | nil => simp
  | cons c rest ih =>
      rw [List.foldl_cons, ih, get?_record, Option.or_assoc]
      by_cases same : c.canonical = text <;> simp [same]

/-- What stands under a text has this canonical text. -/
theorem canonical_of_find? {coordinates : List Coordinate} {text : String} {c : Coordinate}
    (found : coordinates.find? (·.canonical = text) = some c)
    : c.canonical = text := by
  simpa using List.find?_some found

section Recorded

variable {coordinates : List Coordinate}

/-- Exactly the first coordinate of each canonical text is recorded. -/
theorem mem_values_record {c : Coordinate}
    : c ∈ (coordinates.foldl record .empty).values
      ↔ coordinates.find? (·.canonical = c.canonical) = some c := by
  have held (text : String) : (text, c) ∈ (coordinates.foldl record .empty).entries
      ↔ coordinates.find? (·.canonical = text) = some c := by
    rw [← SortedMap.get?_eq_some_iff, get?_foldl_record]
    rfl
  simp only [SortedMap.values, List.mem_map, Prod.exists, exists_eq_right, held]
  constructor
  · rintro ⟨text, found⟩
    rwa [canonical_of_find? found]
  · exact fun found => ⟨c.canonical, found⟩

/-- The canonical texts of the recorded coordinates are the texts they are recorded under. -/
theorem map_canonical_values_record
    : (coordinates.foldl record .empty).values.map Coordinate.canonical
      = (coordinates.foldl record .empty).keys := by
  rw [SortedMap.values, SortedMap.keys, List.map_map]
  apply List.map_congr_left
  rintro ⟨text, c⟩ entry
  rw [← SortedMap.get?_eq_some_iff, get?_foldl_record] at entry
  exact canonical_of_find? entry

/-- No text is lost: every canonical text is recorded. -/
theorem mem_keys_record {text : String}
    : text ∈ (coordinates.foldl record .empty).keys
      ↔ text ∈ coordinates.map Coordinate.canonical := by
  rw [← SortedMap.contains_iff, SortedMap.contains, get?_foldl_record]
  simp

/-- Where no two coordinates share a text, the one that has it is found under it. -/
theorem find?_canonical (distinguished : Distinguished coordinates) {text : String} {c : Coordinate}
    : coordinates.find? (·.canonical = text) = some c ↔ c ∈ coordinates ∧ c.canonical = text := by
  constructor
  · exact fun found => ⟨List.mem_of_find?_eq_some found, canonical_of_find? found⟩
  · rintro ⟨member, rfl⟩
    cases found : coordinates.find? (·.canonical = c.canonical) with
    | none => simpa using List.find?_eq_none.mp found c member
    | some first =>
        have same := canonical_of_find? found
        rw [distinguished first (List.mem_of_find?_eq_some found) c member same]

/-- All coordinates are recorded exactly if no two of them share a canonical text. -/
theorem subset_values_record_iff
    : (∀ c ∈ coordinates, c ∈ (coordinates.foldl record .empty).values)
      ↔ Distinguished coordinates := by
  simp only [mem_values_record]
  constructor
  · intro all a memberA b memberB same
    have first := all a memberA
    rw [same, all b memberB] at first
    exact (Option.some.inj first).symm
  · exact fun distinguished c member => (find?_canonical distinguished).mpr ⟨member, rfl⟩

/-- The texts that are recorded do not depend on the order of the coordinates, and neither do the
coordinates themselves if no two of them share a text.
-/
theorem record_perm {other : List Coordinate} (perm : other.Perm coordinates)
    : (other.foldl record .empty).keys = (coordinates.foldl record .empty).keys
      ∧ (Distinguished coordinates →
          other.foldl record .empty = coordinates.foldl record .empty) := by
  constructor
  · apply SortedMap.keys_eq_of_mem_iff
    intro text
    rw [mem_keys_record, mem_keys_record, (perm.map Coordinate.canonical).mem_iff]
  · intro distinguished
    have turned : Distinguished other :=
      (Distinguished.congr fun _ => perm.mem_iff).mpr distinguished
    apply SortedMap.ext_get?
    intro text
    apply Option.ext
    intro c
    simp only [get?_foldl_record, SortedMap.get?_empty, Option.none_or,
      find?_canonical distinguished, find?_canonical turned, perm.mem_iff]

end Recorded

-----------------------------------------------------------------------------------------
-- One parameter
-----------------------------------------------------------------------------------------

/-- A raw parameter is accepted if it is typed to a parameter that does not refer to the
configuration it belongs to.
-/
def Accepts (binder : Binder) (name : String) (raw : RawParameter) (parameter : Parameter) : Prop :=
  binder.resolve name raw = .ok parameter ∧ binder.own ∉ parameter.targets

/-- A parameter that is accepted has another name than the reserved one. -/
theorem Accepts.ne_id {binder : Binder} {name : String} {raw : RawParameter} {parameter : Parameter}
    (accepted : binder.Accepts name raw parameter)
    : name ≠ idParameter := by
  rintro rfl
  simp [Accepts, resolve] at accepted

/-- Why a raw parameter is refused: it is not typed, or it refers to the configuration it belongs
to, whatever else it refers to.
-/
inductive Refuses (binder : Binder) (name : String) (raw : RawParameter) : BindError → Prop
  | untyped {cause : BindError} (failed : binder.resolve name raw = .error cause)
    : Refuses binder name raw cause
  | selfReference {parameter : Parameter} (typed : binder.resolve name raw = .ok parameter)
    (own : binder.own ∈ parameter.targets)
    : Refuses binder name raw (.selfReference binder.own)

section Add

variable {binder : Binder} {name : String} {raw : RawParameter}

theorem add_of_error {cause : BindError} (failed : binder.resolve name raw = .error cause)
    : binder.add name raw = (.error cause, binder) := by
  simp [add, failed]

theorem add_of_own {parameter : Parameter} (typed : binder.resolve name raw = .ok parameter)
    (own : binder.own ∈ parameter.targets)
    : binder.add name raw = (.error (.selfReference binder.own), binder) := by
  unfold add
  rw [typed]
  exact if_pos own

theorem add_of_accepts {parameter : Parameter} (accepted : binder.Accepts name raw parameter)
    : binder.add name raw
      = (.ok parameter,
          { binder with recorded := parameter.targets.foldl record binder.recorded }) := by
  unfold add
  rw [accepted.1]
  exact if_neg accepted.2

/-- A call either accepts the parameter, and then records what it refers to, or refuses it, and then
changes nothing.
-/
theorem add_cases (binder : Binder) (name : String) (raw : RawParameter)
    : (∃ parameter, binder.Accepts name raw parameter
        ∧ binder.add name raw
          = (.ok parameter,
              { binder with recorded := parameter.targets.foldl record binder.recorded }))
      ∨ ∃ cause, binder.Refuses name raw cause ∧ binder.add name raw = (.error cause, binder) := by
  cases typed : binder.resolve name raw with
  | error cause => exact .inr ⟨cause, .untyped typed, add_of_error typed⟩
  | ok parameter =>
      by_cases own : binder.own ∈ parameter.targets
      · exact .inr ⟨_, .selfReference typed own, add_of_own typed own⟩
      · exact .inl ⟨parameter, ⟨typed, own⟩, add_of_accepts ⟨typed, own⟩⟩

theorem fst_add_eq_ok_iff {parameter : Parameter}
    : (binder.add name raw).1 = .ok parameter ↔ binder.Accepts name raw parameter := by
  constructor
  · intro added
    rcases binder.add_cases name raw with ⟨other, accepted, done⟩ | ⟨cause, _, done⟩
    · rw [done] at added
      cases added
      exact accepted
    · rw [done] at added
      cases added
  · intro accepted
    rw [add_of_accepts accepted]

theorem fst_add_eq_error_iff {cause : BindError}
    : (binder.add name raw).1 = .error cause ↔ binder.Refuses name raw cause := by
  constructor
  · intro added
    rcases binder.add_cases name raw with ⟨parameter, _, done⟩ | ⟨other, refused, done⟩
    · rw [done] at added
      cases added
    · rw [done] at added
      cases added
      exact refused
  · rintro (failed | ⟨typed, own⟩)
    · rw [add_of_error failed]
    · rw [add_of_own typed own]

theorem accepts_or_refuses (binder : Binder) (name : String) (raw : RawParameter)
    : (∃ parameter, binder.Accepts name raw parameter) ∨ ∃ cause, binder.Refuses name raw cause :=
  (binder.add_cases name raw).imp (fun ⟨parameter, h, _⟩ => ⟨parameter, h⟩)
    fun ⟨cause, h, _⟩ => ⟨cause, h⟩

theorem Refuses.not_accepts {cause : BindError} {parameter : Parameter}
    (refused : binder.Refuses name raw cause)
    : ¬binder.Accepts name raw parameter := by
  intro accepted
  have added := fst_add_eq_error_iff.mpr refused
  rw [fst_add_eq_ok_iff.mpr accepted] at added
  cases added

/-- Why a raw parameter is refused, if it is. -/
def refusal? (binder : Binder) (name : String) (raw : RawParameter) : Option BindError :=
  match (binder.add name raw).1 with
  | .ok _ => none
  | .error cause => some cause

theorem refusal?_eq_some_iff {cause : BindError}
    : binder.refusal? name raw = some cause ↔ binder.Refuses name raw cause := by
  rw [← fst_add_eq_error_iff, refusal?]
  cases (binder.add name raw).1 <;> simp

/-- A call that fails leaves the binder as it was. -/
theorem snd_add_of_error {cause : BindError} (failed : (binder.add name raw).1 = .error cause)
    : (binder.add name raw).2 = binder := by
  rcases binder.add_cases name raw with ⟨parameter, _, done⟩ | ⟨other, _, done⟩
  · rw [done] at failed
    cases failed
  · rw [done]

end Add

-----------------------------------------------------------------------------------------
-- One parameter after the other
-----------------------------------------------------------------------------------------

/-- The coordinates that a parameter refers to, none if it could not be typed. -/
def targetsOf : Except BindError Parameter → List Coordinate
  | .ok parameter => parameter.targets
  | .error _ => []

/-- Types parameters one after the other. -/
def addAll (binder : Binder) : List (String × RawParameter)
    → List (Except BindError Parameter) × Binder
  | [] => ([], binder)
  | (name, raw) :: rest =>
      let (first, binder) := binder.add name raw
      let (others, binder) := binder.addAll rest
      (first :: others, binder)

/-- The coordinates that typed parameters refer to, in the order in which they are met. -/
def met (results : List (Except BindError Parameter)) : List Coordinate :=
  results.flatMap targetsOf

/-- Typing a parameter records what it refers to and changes nothing else. -/
theorem snd_add (binder : Binder) (name : String) (raw : RawParameter)
    : (binder.add name raw).2
      = { binder with
          recorded := (targetsOf (binder.add name raw).1).foldl record binder.recorded } := by
  rcases binder.add_cases name raw with ⟨parameter, _, done⟩ | ⟨cause, _, done⟩
  · rw [done]
    rfl
  · rw [done]
    rfl

/-- What is recorded has no influence on what a parameter is typed to. -/
theorem fst_add_recorded (binder : Binder) (recorded : SortedMap String Coordinate) (name : String)
    (raw : RawParameter)
    : (Binder.add { binder with recorded } name raw).1 = (binder.add name raw).1 := by
  have resolved : Binder.resolve { binder with recorded } name raw = binder.resolve name raw := rfl
  unfold add
  rw [resolved]
  split
  · rfl
  · dsimp only
    split <;> rfl

/-- Parameters are typed as if each were the only one, and what they refer to is recorded from the
first to the last; by induction on the parameters.
-/
theorem addAll_eq (binder : Binder) (calls : List (String × RawParameter))
    : binder.addAll calls
      = (calls.map fun call => (binder.add call.1 call.2).1,
          { binder with
            recorded := (met (calls.map fun call => (binder.add call.1 call.2).1)).foldl record
              binder.recorded }) := by
  induction calls generalizing binder with
  | nil => rfl
  | cons call rest ih =>
      simp only [addAll, ih, snd_add, fst_add_recorded, met, List.map_cons, List.flatMap_cons,
        List.foldl_append]

/-- The references of a binder that started with none. -/
theorem references_addAll (registry : DecoderRegistry) (own : Coordinate)
    (calls : List (String × RawParameter))
    : ((new registry own).addAll calls).2.references
      = ((met ((new registry own).addAll calls).1).foldl record .empty).values := by
  rw [addAll_eq]
  rfl

-----------------------------------------------------------------------------------------
-- What calls leave recorded
-----------------------------------------------------------------------------------------

theorem own_addAll (binder : Binder) (calls : List (String × RawParameter))
    : (binder.addAll calls).2.own = binder.own := by
  rw [addAll_eq]

/-- What a parameter is typed to does not depend on earlier calls. -/
theorem resolve_addAll (binder : Binder) (calls : List (String × RawParameter)) (name : String)
    (raw : RawParameter)
    : (binder.addAll calls).2.resolve name raw = binder.resolve name raw := by
  rw [addAll_eq]
  rfl

section Run

variable {registry : DecoderRegistry} {own : Coordinate} {calls : List (String × RawParameter)}

/-- Nothing is recorded but what a parameter refers to that was accepted. -/
theorem exists_of_mem_references {c : Coordinate}
    (recorded : c ∈ ((new registry own).addAll calls).2.references)
    : ∃ parameter, .ok parameter ∈ ((new registry own).addAll calls).1 ∧ c ∈ parameter.targets := by
  rw [references_addAll, mem_values_record] at recorded
  obtain ⟨result, called, refers⟩ := List.mem_flatMap.mp (List.mem_of_find?_eq_some recorded)
  cases result with
  | ok parameter => exact ⟨parameter, called, refers⟩
  | error cause => cases refers

/-- The own coordinate is not recorded, since no parameter that refers to it is accepted. -/
theorem own_not_mem_references : own ∉ ((new registry own).addAll calls).2.references := by
  intro recorded
  obtain ⟨parameter, called, refers⟩ := exists_of_mem_references recorded
  rw [addAll_eq] at called
  obtain ⟨_, _, accepted⟩ := List.mem_map.mp called
  exact (fst_add_eq_ok_iff.mp accepted).2 refers

/-- The references stand in the order of their canonical texts, no text twice. -/
theorem references_ascending
    : ((new registry own).addAll calls).2.references.Pairwise
        fun a b => compare a.canonical b.canonical = .lt := by
  have texts : (((new registry own).addAll calls).2.references.map Coordinate.canonical).Pairwise
      fun a b => compare a b = .lt := by
    rw [references_addAll, map_canonical_values_record]
    exact SortedMap.keys_ascending _
  exact List.pairwise_map.mp texts

end Run

/-- However a binder was used, a call that fails changes nothing, in particular one for a parameter
with the own coordinate among its references. What is recorded is referred to by a parameter that
was accepted, is never the own coordinate, and stands in the order of canonical texts.
-/
theorem addAll_records_soundly (registry : DecoderRegistry) (own : Coordinate)
    (calls : List (String × RawParameter))
    : let run := (new registry own).addAll calls
      (∀ name raw cause, (run.2.add name raw).1 = .error cause → (run.2.add name raw).2 = run.2)
      ∧ (∀ name raw parameter, run.2.resolve name raw = .ok parameter → own ∈ parameter.targets →
          run.2.add name raw = (.error (.selfReference own), run.2))
      ∧ (∀ c ∈ run.2.references, ∃ parameter, .ok parameter ∈ run.1 ∧ c ∈ parameter.targets)
      ∧ own ∉ run.2.references
      ∧ run.2.references.Pairwise fun a b => compare a.canonical b.canonical = .lt := by
  intro run
  have same : run.2.own = own := own_addAll _ calls
  refine ⟨fun _ _ _ => snd_add_of_error, fun name raw parameter typed refers => ?_,
    fun _ => exists_of_mem_references, own_not_mem_references, references_ascending⟩
  rw [add_of_own typed (same ▸ refers), same]

/-- A decoder of parameters that refer to several configurations at once. -/
def several (targets : List Coordinate) : Decoder := fun _ =>
  .ok (.custom "several" (targets.map (⟨·, "id"⟩)) fun _ => .ok .null)

/-- A parameter that refers to three configurations is refused for one of them that is the own one;
of the others nothing is recorded, and what was recorded before stays.
-/
theorem addAll_records_soundly_several
    : let own : Coordinate := ⟨"app", "slo", "availability"⟩
      let other (configId : String) : Coordinate := ⟨"app", "dashboard", configId⟩
      let registry := DecoderRegistry.builtins.register "several"
        (several [other "b", own, other "c"])
      let run := (new registry own).addAll
        [("first", .shortReference [.text "dashboard", .text "a", .text "id"])]
      let next := run.2.add "second" (.typed [(.text "type", .text "several")])
      next.1 = .error (.selfReference own)
      ∧ next.2.references = [other "a"] ∧ own ∉ next.2.references := by
  intro own other registry run next
  obtain ⟨_, refused, _, foreign, _⟩ := addAll_records_soundly registry own
    [("first", .shortReference [.text "dashboard", .text "a", .text "id"])]
  have typed : run.2.resolve "second" (.typed [(.text "type", .text "several")])
      = .ok (.custom "several" ([other "b", own, other "c"].map (⟨·, "id"⟩))
          fun _ => .ok .null) := by
    have kind : registry.get? "several" = some (several [other "b", own, other "c"]) :=
      SortedMap.get?_insert_self _ _ _
    rw [resolve_addAll]
    simp [resolve, idParameter, DecoderRegistry.decode, DecodeContext.field, Value.field,
      Value.scalarText, new, kind, several]
  have done : next = (.error (.selfReference own), run.2) := refused _ _ _ typed (by decide)
  have recorded : run.2.references = [other "a"] := by decide +kernel
  rw [done]
  exact ⟨rfl, recorded, foreign⟩

end Binder

end Rollout
