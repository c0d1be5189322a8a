import Rollout.Definition.Merge
import Rollout.Proofs.Repetition
import Rollout.Proofs.SortedMap

/-!
What a block of parameters repeats, and layers of bodies in closed form. Whatever number of bodies
lies one on top of the other, a field is what the topmost body that sets it says, and nothing that
is set is ever unset again.
-/

namespace Rollout

namespace ParameterBlock

/-- The names that a block repeats are those that stand in it at least twice. -/
theorem mem_duplicates {block : ParameterBlock} {name : String}
    : name ∈ block.duplicates ↔ 2 ≤ block.names.count name :=
  mem_repeated

/-- What a block repeats is what stands in it at least twice, however often, and each such name is
reported once. Going through the entries, all places where a name is met for the second time are
reported, one after the other.
-/
theorem duplicates_in_order (block : ParameterBlock)
    : (∀ name, name ∈ block.duplicates ↔ 2 ≤ block.names.count name)
      ∧ block.duplicates.Nodup
      ∧ ∃ places : List Nat, places.Pairwise (· < ·)
        ∧ (∀ place, place ∈ places ↔ ∃ name, MetAgain block.names place name)
        ∧ List.Forall₂ (MetAgain block.names) places block.duplicates :=
  ⟨fun _ => mem_duplicates, nodup_repeated block.names, repeated_places block.names⟩

/-- The second `a` stands before the second `b`, although the first `b` stands before the first `a`.
-/
example
    : let block (names : List String) : ParameterBlock :=
        ⟨names.map fun name => (name, .literal .null)⟩
      (block ["b", "a", "a", "b", "a"]).duplicates = ["a", "b"] := by
  decide

end ParameterBlock

namespace Merged

-----------------------------------------------------------------------------------------
-- Fields that a body replaces as a whole
-----------------------------------------------------------------------------------------

/-- A field that every body replaces if it sets it is what the last body says that sets it; by
induction from the last body.
-/
theorem get_foldl_apply {β : Type _} {get : Merged → Option β} {field : Body → Option β}
    (replaces : ∀ merged body, get (apply merged body) = (field body).or (get merged))
    (merged : Merged) (bodies : List Body)
    : get (bodies.foldl apply merged) = (bodies.filterMap field).getLast?.or (get merged) := by
  induction bodies using List.reverseRecOn with
  | nil => rfl
  | append_singleton bodies body ih =>
      rw [List.foldl_append, List.foldl_cons, List.foldl_nil, replaces, ih, List.filterMap_append,
        List.getLast?_append, Option.or_assoc]
      cases set : field body <;> simp [set]

theorem name_ofBodies (bodies : List Body)
    : (ofBodies bodies).name = (bodies.filterMap Body.name).getLast? :=
  (get_foldl_apply (fun _ _ => rfl) empty bodies).trans Option.or_none

theorem skip_ofBodies (bodies : List Body)
    : (ofBodies bodies).skip = (bodies.filterMap Body.skip).getLast? :=
  (get_foldl_apply (fun _ _ => rfl) empty bodies).trans Option.or_none

/-- A template that is written but empty is as good as none. -/
theorem filterMap_usableTemplate (bodies : List Body)
    : bodies.filterMap usableTemplate = (bodies.filterMap Body.template).filter (· ≠ "") := by
  rw [List.filter_filterMap]
  rfl

theorem template_ofBodies (bodies : List Body)
    : (ofBodies bodies).template
      = ((bodies.filterMap Body.template).filter (· ≠ "")).getLast? := by
  rw [← filterMap_usableTemplate]
  exact (get_foldl_apply (fun _ _ => rfl) empty bodies).trans Option.or_none

-----------------------------------------------------------------------------------------
-- Parameters, one by one
-----------------------------------------------------------------------------------------

/-- All that the bodies write about parameters, body after body. -/
def written (bodies : List Body) : List (String × RawParameter) :=
  bodies.flatMap (·.parameters.entries)

theorem written_cons (body : Body) (rest : List Body)
    : written (body :: rest) = body.parameters.entries ++ written rest :=
  List.flatMap_cons

theorem mem_names_written {bodies : List Body} {name : String}
    : name ∈ (written bodies).map Prod.fst ↔ ∃ body ∈ bodies, name ∈ body.parameters.names := by
  rw [written, List.map_flatMap, List.mem_flatMap]
  rfl

/-- The parameters of all bodies are those of one block that says what they say in turn. -/
theorem parameters_ofBodies (bodies : List Body)
    : (ofBodies bodies).parameters = .ofList (written bodies) := by
  have all (merged : Merged) : (bodies.foldl apply merged).parameters
      = (written bodies).foldl (fun m e => m.insert e.1 e.2) merged.parameters := by
    induction bodies generalizing merged with
    | nil => rfl
    | cons body rest ih =>
        rw [List.foldl_cons, ih, written_cons, List.foldl_append]
        rfl
  exact all empty

theorem get?_parameters_ofBodies (bodies : List Body) (name : String)
    : (ofBodies bodies).parameters.get? name
      = ((written bodies).filter (·.1 = name)).getLast?.map Prod.snd := by
  rw [parameters_ofBodies, SortedMap.get?_ofList_eq_getLast?]

theorem mem_parameters_ofBodies {bodies : List Body} {name : String}
    : name ∈ (ofBodies bodies).parameters.keys ↔ ∃ body ∈ bodies, name ∈ body.parameters.names := by
  rw [parameters_ofBodies, SortedMap.mem_keys_ofList, mem_names_written]

/-- A name that a body repeats stays repeated, and no other name becomes so; by induction on the
bodies.
-/
theorem mem_duplicates_foldl_apply {merged : Merged} {bodies : List Body} {name : String}
    : name ∈ (bodies.foldl apply merged).duplicates.keys
      ↔ (∃ body ∈ bodies, 2 ≤ body.parameters.names.count name)
        ∨ name ∈ merged.duplicates.keys := by
  induction bodies generalizing merged with
  | nil => simp
  | cons body rest ih =>
      rw [List.foldl_cons, ih, apply, SortedMap.mem_keys_foldl_add, ParameterBlock.mem_duplicates]
      simp only [List.mem_cons, exists_eq_or_imp, or_assoc, or_left_comm]

theorem mem_duplicates_ofBodies {bodies : List Body} {name : String}
    : name ∈ (ofBodies bodies).duplicates.keys
      ↔ ∃ body ∈ bodies, 2 ≤ body.parameters.names.count name := by
  simp [ofBodies, mem_duplicates_foldl_apply, empty]

-----------------------------------------------------------------------------------------
-- Nothing is unset
-----------------------------------------------------------------------------------------

/-- All that one merged body has set, and all that it has found repeated, the other has too. -/
structure Keeps (before after : Merged) : Prop where
  name : before.name.isSome → after.name.isSome
  template : before.template.isSome → after.template.isSome
  skip : before.skip.isSome → after.skip.isSome
  parameters : ∀ name ∈ before.parameters.keys, name ∈ after.parameters.keys
  duplicates : ∀ name ∈ before.duplicates.keys, name ∈ after.duplicates.keys

theorem Keeps.refl (merged : Merged) : Keeps merged merged :=
  ⟨id, id, id, fun _ => id, fun _ => id⟩

theorem Keeps.trans {first second third : Merged} (h : Keeps first second)
    (next : Keeps second third)
    : Keeps first third where
  name set := next.name (h.name set)
  template set := next.template (h.template set)
  skip set := next.skip (h.skip set)
  parameters name held := next.parameters name (h.parameters name held)
  duplicates name held := next.duplicates name (h.duplicates name held)

/-- Writing entries keeps the keys that are there, by induction on the entries. -/
theorem mem_keys_foldl_insert {es : List (String × RawParameter)}
    {m : SortedMap String RawParameter} {name : String} (held : name ∈ m.keys)
    : name ∈ (es.foldl (fun m e => m.insert e.1 e.2) m).keys := by
  induction es generalizing m with
  | nil => exact held
  | cons e rest ih => exact ih (SortedMap.mem_keys_insert.mpr (.inr held))

/-- One more body unsets nothing. -/
theorem keeps_apply (merged : Merged) (body : Body) : Keeps merged (merged.apply body) where
  name set := by simp [apply, set]
  template set := by simp [apply, set]
  skip set := by simp [apply, set]
  parameters _ := mem_keys_foldl_insert
  duplicates _ held := SortedMap.mem_keys_foldl_add.mpr (.inr held)

/-- However many bodies are put on top, they unset nothing; by induction on the bodies. -/
theorem keeps_foldl_apply (merged : Merged) (bodies : List Body)
    : Keeps merged (bodies.foldl apply merged) := by
  induction bodies generalizing merged with
  | nil => exact .refl merged
  | cons body rest ih => exact (keeps_apply merged body).trans (ih _)

-----------------------------------------------------------------------------------------
-- The closed form
-----------------------------------------------------------------------------------------

/-- What bodies come to, one on top of the other. A name and a `skip` are those of the last body
that sets them, the template is the last one that is not empty. Each parameter that any body writes
has the last value written for it. Repeated are the names that stand at least twice in a single
body, whatever the other bodies write. And further bodies unset nothing of all this.
-/
theorem ofBodies_closed_form (bodies : List Body)
    : let merged := ofBodies bodies
      merged.name = (bodies.filterMap Body.name).getLast?
      ∧ merged.skip = (bodies.filterMap Body.skip).getLast?
      ∧ merged.template = ((bodies.filterMap Body.template).filter (· ≠ "")).getLast?
      ∧ (∀ name, merged.parameters.get? name
          = ((bodies.flatMap (·.parameters.entries)).filter (·.1 = name)).getLast?.map Prod.snd)
      ∧ (∀ name, name ∈ merged.parameters.keys
          ↔ ∃ body ∈ bodies, name ∈ body.parameters.names)
      ∧ (∀ name, name ∈ merged.duplicates.keys
          ↔ ∃ body ∈ bodies, 2 ≤ body.parameters.names.count name)
      ∧ ∀ later, Keeps merged (ofBodies (bodies ++ later)) := by
  refine ⟨name_ofBodies bodies, skip_ofBodies bodies, template_ofBodies bodies,
    get?_parameters_ofBodies bodies, fun _ => mem_parameters_ofBodies,
    fun _ => mem_duplicates_ofBodies, fun later => ?_⟩
  rw [ofBodies, ofBodies, List.foldl_append]
  exact keeps_foldl_apply _ later

/-- A repeated name that is overridden stays repeated; a name that two bodies
write once each is not.
-/
example
    : let body (names : List String) : Body :=
        { Body.empty with parameters := ⟨names.map fun name => (name, .literal .null)⟩ }
      (ofBodies [body ["x", "x", "y"], body ["x", "y"]]).duplicates.keys = ["x"] := by
  decide

end Merged

namespace OverrideIndex

/-- The bodies that apply to an environment, the lowest first. -/
def applied (index : OverrideIndex) (base : Body) (environment : Environment) : List Body :=
  base :: ((index.group? environment.group).toList ++ (index.environment? environment.name).toList)

/-- Merging puts the bodies that apply on top of one another, and no others. -/
theorem merge_eq_ofBodies (index : OverrideIndex) (base : Body) (environment : Environment)
    : index.merge base environment = .ofBodies (index.applied base environment) := by
  unfold merge applied
  cases index.group? environment.group <;> cases index.environment? environment.name <;> rfl

end OverrideIndex

end Rollout
