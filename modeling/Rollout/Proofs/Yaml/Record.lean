import Mathlib.Data.List.Forall2
import Mathlib.Data.List.Duplicate
import Mathlib.Data.List.Nodup
import Mathlib.Tactic.Common
import Rollout.Yaml.Reading

/-!
When a mapping is read as a record. If each key names a field and each value can be read, all that
is left to decide is whether a field is repeated: the record is read if none is, and refused for
that alone otherwise.
-/

namespace Rollout.Yaml.Reading

variable {α β σ : Type} {ρ : Type → Type} {problem : Problem}

-----------------------------------------------------------------------------------------
-- What a reading comes to
-----------------------------------------------------------------------------------------

/-- Whatever aliases repeat, something is read. -/
def Accepts (reading : Reading α) : Prop :=
  ∀ repeats count, ∃ result after, (reading.run repeats).run count = .ok (result, after)

/-- Whatever aliases repeat, reading stops with this problem. -/
def Refuses (problem : Problem) (reading : Reading α) : Prop :=
  ∀ repeats count, (reading.run repeats).run count = .error problem

theorem accepts_pure (x : α) : Accepts (pure x) :=
  fun _ count => ⟨x, count, rfl⟩

theorem refuses_throw (problem : Problem) : Refuses problem (throw problem : Reading α) :=
  fun _ _ => rfl

theorem Accepts.bind {reading : Reading α} {next : α → Reading β} (accepts : Accepts reading)
    (later : ∀ x, Accepts (next x))
    : Accepts (reading >>= next) := by
  intro repeats count
  obtain ⟨x, met, first⟩ := accepts repeats count
  rw [ReaderT.run_bind, StateT.run_bind, first]
  exact later x repeats met

/-- A problem that is met later than something readable is met all the same. -/
theorem Accepts.refuses_bind {reading : Reading α} {next : α → Reading β}
    (accepts : Accepts reading) (later : ∀ x, Refuses problem (next x))
    : Refuses problem (reading >>= next) := by
  intro repeats count
  obtain ⟨x, met, first⟩ := accepts repeats count
  rw [ReaderT.run_bind, StateT.run_bind, first]
  exact later x repeats met

theorem Refuses.bind {reading : Reading α} (refuses : Refuses problem reading)
    (next : α → Reading β)
    : Refuses problem (reading >>= next) := by
  intro repeats count
  rw [ReaderT.run_bind, StateT.run_bind, refuses repeats count]
  rfl

-----------------------------------------------------------------------------------------
-- The entries of a record
-----------------------------------------------------------------------------------------

variable {record : Schema.Record ρ σ} {inner : ρ (σ → σ) → Location → Node → Reading (σ → σ)}
  {location : Location} {pair : Node × Node} {pairs : List (Node × Node)} {name : String}
  {names present : List String}

/-- The key of the entry names a field of the record, and the value can be read as that field. -/
structure IsFieldEntry (record : Schema.Record ρ σ)
    (inner : ρ (σ → σ) → Location → Node → Reading (σ → σ)) (location : Location)
    (pair : Node × Node) (name : String)
    : Prop where
  key : ∃ props plain, pair.1 = .scalar props plain name
  value
    : ∃ field, record.field? name = some field
        ∧ Accepts (inner field.read (location.under pair.1) pair.2)

theorem text_eq_pure (named : ∃ props plain, pair.1 = .scalar props plain name) (expected : String)
    (location : Location)
    : text expected location pair.1 = pure name := by
  obtain ⟨props, plain, same⟩ := named
  rw [same]
  rfl

/-- Entries of different fields are read, if no field that a record must have is missing; by
induction on the entries.
-/
theorem accepts_entries (readable : List.Forall₂ (IsFieldEntry record inner location) pairs names)
    (distinct : (names.reverse ++ present).Nodup)
    (complete : record.missing? (names.reverse ++ present) = none) (state : σ)
    : Accepts (entries record inner location pairs present state) := by
  induction readable generalizing present state with
  | nil =>
      rw [List.reverse_nil, List.nil_append] at complete
      rw [entries, complete]
      exact accepts_pure state
  | @cons pair name pairs names entry _ ih =>
      rw [List.reverse_cons, List.append_assoc, List.singleton_append] at distinct complete
      have absent : present.contains name = false := by
        have apart := (List.nodup_cons.mp (List.nodup_append.mp distinct).2.1).1
        simpa using apart
      obtain ⟨field, known, accepts⟩ := entry.value
      rw [entries, text_eq_pure entry.key, pure_bind, known]
      simp only [absent, if_neg Bool.false_ne_true]
      exact accepts.bind fun put => ih distinct complete (put state)

/-- Entries of which two name the same field are refused at the first such field. -/
theorem refuses_entries (readable : List.Forall₂ (IsFieldEntry record inner location) pairs names)
    (distinct : present.Nodup) (repeated : ¬(names.reverse ++ present).Nodup)
    : ∃ name, List.Duplicate name (names.reverse ++ present) ∧ ∀ state,
        Refuses (.complaint location (.repeatedField name))
          (entries record inner location pairs present state) := by
  induction readable generalizing present with
  | nil => exact absurd distinct repeated
  | @cons pair name pairs names entry _ ih =>
      rw [List.reverse_cons, List.append_assoc, List.singleton_append] at repeated ⊢
      obtain ⟨field, known, accepts⟩ := entry.value
      by_cases again : name ∈ present
      · have twice : List.Duplicate name (names.reverse ++ name :: present) :=
          again.duplicate_cons_self.mono_sublist (List.sublist_append_right _ _)
        refine ⟨name, twice, fun state => ?_⟩
        rw [entries, text_eq_pure entry.key, pure_bind, known]
        simp only [List.contains_iff_mem.mpr again]
        exact (refuses_throw _).bind _
      · obtain ⟨other, twice, refuses⟩ := ih (List.nodup_cons.mpr ⟨again, distinct⟩) repeated
        refine ⟨other, twice, fun state => ?_⟩
        have absent : present.contains name = false := by simpa using again
        rw [entries, text_eq_pure entry.key, pure_bind, known]
        simp only [absent, if_neg Bool.false_ne_true]
        exact accepts.refuses_bind fun put => refuses (put state)

/-- A mapping of entries that can be read, each on its own, is read as a record if they are of
different fields, and refused for a repeated one otherwise.
-/
theorem reads_record {schema : Schema.Record Reader σ} {depth : Nat}
    (readable
      : List.Forall₂ (IsFieldEntry schema (fun reader => reader depth) location) pairs names)
    (complete : schema.missing? names.reverse = none) (props : Properties)
    : let reading :=
        (Schema.Format.record schema : Reader σ) (depth + 1) location (.mapping props pairs)
      (names.Nodup → Accepts reading)
      ∧ (¬names.Nodup → ∃ name, List.Duplicate name names
          ∧ Refuses (.complaint location (.repeatedField name)) reading) := by
  intro reading
  have whole : reading
      = entries schema (fun reader => reader depth) location pairs [] schema.start := rfl
  have order : (names.reverse ++ []).Perm names := by
    rw [List.append_nil]
    exact names.reverse_perm
  rw [← List.append_nil names.reverse] at complete
  rw [whole, ← order.nodup_iff]
  refine ⟨fun distinct => accepts_entries readable distinct complete _, fun repeated => ?_⟩
  obtain ⟨name, twice, refuses⟩ := refuses_entries readable List.nodup_nil repeated
  rw [List.duplicate_iff_two_le_count, order.count_eq] at twice
  exact ⟨name, List.duplicate_iff_two_le_count.mpr twice, refuses _⟩

end Rollout.Yaml.Reading
