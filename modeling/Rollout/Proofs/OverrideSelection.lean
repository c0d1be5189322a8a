import Mathlib.Logic.Relation
import Rollout.Proofs.Merge

/-!
Which overrides apply to an environment: of the group overrides the last one for its group, of the
environment overrides the last one for its name. Edits that spare these two have no effect.
-/

namespace Rollout

open Relation

namespace Override

-----------------------------------------------------------------------------------------
-- The last override for a name
-----------------------------------------------------------------------------------------

/-- The last of the overrides for exactly this name. -/
def last? (overrides : List Override) (name : String) : Option Override :=
  (overrides.filter (·.selector = name)).getLast?

variable {name : String} {left right overrides : List Override}

theorem last?_append (before after : List Override) (name : String)
    : last? (before ++ after) name = (last? after name).or (last? before name) := by
  rw [last?, List.filter_append, List.getLast?_append]
  rfl

theorem last?_cons (o : Override) (rest : List Override) (name : String)
    : last? (o :: rest) name
      = (last? rest name).or (if o.selector = name then some o else none) := by
  rw [← List.singleton_append, last?_append]
  congr 1
  by_cases same : o.selector = name <;> simp [last?, same]

theorem last?_eq_none_iff : last? overrides name = none ↔ ∀ o ∈ overrides, o.selector ≠ name := by
  simp [last?]

theorem mem_of_last?_eq_some {o : Override} (found : last? overrides name = some o)
    : o ∈ overrides ∧ o.selector = name := by
  simpa [last?] using List.mem_of_getLast? found

-----------------------------------------------------------------------------------------
-- Edits that spare it
-----------------------------------------------------------------------------------------

/-- An override is taken out that is not the last one for a name: it is for another name, or a later
one is for this name.
-/
inductive Drops (name : String) : List Override → List Override → Prop
  | other {o : Override} (before after : List Override) (different : o.selector ≠ name)
    : Drops name (before ++ o :: after) (before ++ after)
  | shadowed {o later : Override} (before after : List Override) (follows : later ∈ after)
    (named : later.selector = name)
    : Drops name (before ++ o :: after) (before ++ after)

/-- Such overrides are taken out and put in, any number of them one after the other. To move an
override or to write another in its place is to take one out and to put one in.
-/
def Edited (name : String) : List Override → List Override → Prop :=
  EqvGen (Drops name)

/-- What is taken out leaves the last override where it is. -/
theorem Drops.last?_eq (dropped : Drops name left right) : last? left name = last? right name := by
  cases dropped with
  | other before after different =>
      rw [last?_append, last?_append, last?_cons, if_neg different, Option.or_none]
  | @shadowed o later before after follows named =>
      have found : (last? after name).isSome := by
        rw [Option.isSome_iff_ne_none, Ne, last?_eq_none_iff]
        exact fun none => none later follows named
      obtain ⟨final, last⟩ := Option.isSome_iff_exists.mp found
      rw [last?_append, last?_append, last?_cons, last, Option.some_or, Option.some_or]

theorem Drops.cons (o : Override) (dropped : Drops name left right)
    : Drops name (o :: left) (o :: right) := by
  cases dropped with
  | other before after different => exact .other (o :: before) after different
  | shadowed before after follows named => exact .shadowed (o :: before) after follows named

theorem Edited.cons (o : Override) (edited : Edited name left right)
    : Edited name (o :: left) (o :: right) := by
  induction edited with
  | rel _ _ dropped => exact .rel _ _ (dropped.cons o)
  | refl => exact .refl _
  | symm _ _ _ ih => exact .symm _ _ ih
  | trans _ _ _ _ _ ih next => exact .trans _ _ _ ih next

/-- All but the last override for a name can be taken out; by induction on the overrides. -/
theorem edited_last? (overrides : List Override) (name : String)
    : Edited name overrides (last? overrides name).toList := by
  induction overrides with
  | nil => exact .refl []
  | cons o rest ih =>
      rw [last?_cons]
      cases found : last? rest name with
      | some final =>
          obtain ⟨follows, named⟩ := mem_of_last?_eq_some found
          rw [found] at ih
          exact .trans _ _ _ (.rel _ _ (.shadowed [] rest follows named)) ih
      | none =>
          rw [found] at ih
          by_cases same : o.selector = name
          · rw [if_pos same]
            exact ih.cons o
          · rw [if_neg same]
            exact .trans _ _ _ (.rel _ _ (.other [] rest same)) ih

/-- These are all edits that leave the last override as it is, and no others. -/
theorem edited_iff : Edited name left right ↔ last? left name = last? right name := by
  constructor
  · intro edited
    induction edited with
    | rel _ _ dropped => exact dropped.last?_eq
    | refl => rfl
    | symm _ _ _ ih => exact ih.symm
    | trans _ _ _ _ _ ih next => exact ih.trans next
  · intro same
    have reduced := edited_last? left name
    rw [same] at reduced
    exact .trans _ _ _ reduced (.symm _ _ (edited_last? right name))

end Override

namespace OverrideIndex

open Override

-----------------------------------------------------------------------------------------
-- What is merged
-----------------------------------------------------------------------------------------

theorem get?_collect (overrides : List Override) (name : String)
    : (collect overrides).get? name = (last? overrides name).map Override.body := by
  rw [collect, SortedMap.get?_ofList_eq_getLast?, List.filter_map, List.getLast?_map,
    Option.map_map]
  rfl

/-- The bodies that apply are those of the last overrides. -/
theorem applied_ofDefinition (definition : Definition) (environment : Environment)
    : (ofDefinition definition).applied definition.body environment
      = definition.body
        :: ((last? definition.groupOverrides environment.group).toList
          ++ (last? definition.environmentOverrides environment.name).toList).map
            Override.body := by
  rw [applied, group?, environment?, ofDefinition, get?_collect, get?_collect, List.map_append,
    Option.toList_map, Option.toList_map]

/-- What a definition comes to in an environment: its own body, on it the last group override for
exactly the group of the environment, and on that the last environment override for exactly
its name. Nothing changes under edits that spare these two. Group overrides that are not for
the group count for nothing, whether or not they are named like the environment, and likewise
the other way round.
-/
theorem merge_selects_last (definition : Definition) (environment : Environment)
    : let mergeOf (definition : Definition) : Merged :=
        (ofDefinition definition).merge definition.body environment
      let group := last? definition.groupOverrides environment.group
      let single := last? definition.environmentOverrides environment.name
      mergeOf definition
          = .ofBodies (definition.body :: (group.toList ++ single.toList).map Override.body)
      ∧ (∀ groupOverrides environmentOverrides,
          Edited environment.group definition.groupOverrides groupOverrides
          → Edited environment.name definition.environmentOverrides environmentOverrides
          → mergeOf { definition with groupOverrides, environmentOverrides } = mergeOf definition)
      ∧ (∀ groupOverrides, (∀ o ∈ groupOverrides, o.selector ≠ environment.group)
          → mergeOf { definition with groupOverrides }
            = .ofBodies (definition.body :: single.toList.map Override.body))
      ∧ ∀ environmentOverrides, (∀ o ∈ environmentOverrides, o.selector ≠ environment.name)
          → mergeOf { definition with environmentOverrides }
            = .ofBodies (definition.body :: group.toList.map Override.body) := by
  intro mergeOf group single
  have merged (other : Definition) : mergeOf other
      = .ofBodies (other.body :: ((last? other.groupOverrides environment.group).toList
          ++ (last? other.environmentOverrides environment.name).toList).map Override.body) :=
    (merge_eq_ofBodies _ _ _).trans (congrArg _ (applied_ofDefinition other environment))
  refine ⟨merged definition, ?_, ?_, ?_⟩
  · intro groupOverrides environmentOverrides groups environments
    rw [merged, merged, ← edited_iff.mp groups, ← edited_iff.mp environments]
  · intro groupOverrides strange
    rw [merged, last?_eq_none_iff.mpr strange]
    rfl
  · intro environmentOverrides strange
    rw [merged, last?_eq_none_iff.mpr strange, Option.toList_none, List.append_nil]

/-- Each body writes a parameter of its own, so the parameters tell which bodies apply. The shadowed
override is rewritten and the one that is named like the environment moved to the end.
-/
theorem merge_selects_last_europe
    : let labelled (label : String) : Body :=
        { Body.empty with parameters := ⟨[(label, .literal .null)]⟩ }
      let definition : Definition := ⟨"alarm", "slo", labelled "base",
        [⟨"prod", labelled "shadowed"⟩, ⟨"europe", labelled "stranger"⟩,
          ⟨"prod", labelled "group"⟩],
        [⟨"europe", labelled "single"⟩, ⟨"prod", labelled "stranger"⟩]⟩
      let environment : Environment := ⟨"europe", "prod"⟩
      let edited : List Override :=
        [⟨"prod", labelled "rewritten"⟩, ⟨"prod", labelled "group"⟩,
          ⟨"europe", labelled "stranger"⟩]
      let strangers : List Override := [⟨"europe", labelled "stranger"⟩]
      let mergeOf (definition : Definition) : Merged :=
        (ofDefinition definition).merge definition.body environment
      Edited "prod" definition.groupOverrides edited
      ∧ mergeOf { definition with groupOverrides := edited } = mergeOf definition
      ∧ (mergeOf definition).parameters.keys = ["base", "group", "single"]
      ∧ (∀ o ∈ strangers, o.selector ≠ "prod")
      ∧ mergeOf { definition with groupOverrides := strangers }
          = .ofBodies [labelled "base", labelled "single"] := by
  intro labelled definition environment edited strangers mergeOf
  obtain ⟨selected, frame, strange, _⟩ := merge_selects_last definition environment
  have spared : Edited "prod" definition.groupOverrides edited := edited_iff.mpr rfl
  have others : ∀ o ∈ strangers, o.selector ≠ "prod" := by simp [strangers]
  refine ⟨spared, frame edited _ spared (.refl _), ?_, others, strange strangers others⟩
  have keys : (Merged.ofBodies (definition.body
      :: ((last? definition.groupOverrides environment.group).toList
        ++ (last? definition.environmentOverrides environment.name).toList).map
          Override.body)).parameters.keys = ["base", "group", "single"] := by
    decide
  rwa [← selected] at keys

end OverrideIndex

end Rollout
