import Rollout.Proofs.Yaml.Opening
import Rollout.Yaml.Reading

/-!
What reading a document can give, if it gives anything. A record that is closed refuses a node whose
first key is no field.
-/

namespace Rollout.Yaml.Reading

variable {α β σ : Type} {ρ : Type → Type} {P : α → Prop}

/-- Whatever aliases repeat, what is read satisfies the condition, if anything is read. -/
def Yields (P : α → Prop) (reading : Reading α) : Prop :=
  ∀ repeats count result after,
    (reading.run repeats).run count = .ok (result, after) → P result

theorem yields_throw (problem : Problem) : Yields P (throw problem) :=
  nofun

theorem yields_pure {x : α} (holds : P x) : Yields P (pure x) := by
  rintro _ _ _ _ ⟨⟩
  exact holds

theorem Yields.bind {reading : Reading α} {next : α → Reading β} {Q : β → Prop}
    (yields : Yields P reading) (later : ∀ x, P x → Yields Q (next x))
    : Yields Q (reading >>= next) := by
  intro repeats count result after read
  rw [ReaderT.run_bind, StateT.run_bind] at read
  cases first : (reading.run repeats).run count with
  | error problem =>
      rw [first] at read
      cases read
  | ok found =>
      obtain ⟨x, met⟩ := found
      rw [first] at read
      exact later x (yields repeats count x met first) repeats met result after read

/-- What is expected elsewhere is not read. -/
theorem yields_refuse (location : Location) (expected : String) (node : Node)
    : Yields P (refuse location expected node) := by
  cases node with
  | scalar props plain text =>
      unfold refuse
      simp only
      split <;> exact yields_throw _
  | _ => exact yields_throw _

variable {record : Schema.Record ρ σ} {text : String} {key root : Node}

/-- As the name of a field, a node with this opening gives the text or nothing. -/
theorem yields_name (opens : Opening text key) (expected : String) (location : Location)
    : Yields (fun name => name = "" ∨ name = text) (Reading.text expected location key) := by
  cases opens with
  | cut => exact yields_refuse location expected .cut
  | empty => exact yields_pure (.inl rfl)
  | scalar => exact yields_pure (.inr rfl)
  | @mapping key first value more =>
      exact yields_refuse location expected (.mapping .none ((key, value) :: more))

theorem yields_entries_nil (inner : ρ (σ → σ) → Location → Node → Reading (σ → σ))
    (location : Location) (present : List String) (state : σ)
    : Yields (· = state) (entries record inner location [] present state) := by
  rw [entries]
  split
  · exact yields_throw _
  · exact yields_pure rfl

/-- Without entries there is only the record without any fields. -/
theorem yields_record_nothing (inner : Option (ρ (σ → σ) → Location → Node → Reading (σ → σ)))
    (location : Location)
    : Yields (· = record.start) (Reading.record record inner location .nothing) := by
  have noFields := @yields_entries_nil σ ρ record (fun _ _ _ => throw .broken) location []
    record.start
  exact noFields

section Closed

variable (closed : record.isClosed = true) (unnamed : record.field? "" = none)
  (unknown : record.field? text = none)

include closed unnamed unknown

/-- A closed record without a field of these names gives nothing if the text opens its first key. -/
theorem yields_entries_cons {P : σ → Prop} (opens : Opening text key)
    (inner : ρ (σ → σ) → Location → Node → Reading (σ → σ)) (location : Location) (value : Node)
    (more : List (Node × Node)) (present : List String) (state : σ)
    : Yields P (entries record inner location ((key, value) :: more) present state) := by
  rw [entries]
  refine (yields_name opens _ location).bind fun name named => ?_
  have noField : record.field? name = none := by
    rcases named with rfl | rfl <;> assumption
  rw [noField]
  simp only [closed, if_true]
  exact (yields_throw (P := fun _ => False) _).bind nofun

/-- So all that it gives for a node with this opening is the record without any fields. -/
theorem yields_record (opens : Opening text root)
    (inner : Option (ρ (σ → σ) → Location → Node → Reading (σ → σ))) (location : Location)
    : Yields (· = record.start) (Reading.record record inner location root) := by
  have noFields := @yields_record_nothing σ ρ record inner location
  unfold Reading.record
  cases opens with
  | cut => exact yields_refuse location record.expected .cut
  | empty => exact noFields
  | scalar =>
      have itself : follow (.scalar .none true text) = pure (.scalar .none true text) := rfl
      rw [itself, pure_bind]
      split
      · cases ‹Node.scalar .none true text = _›
      · cases ‹Node.scalar .none true text = _›
      · exact noFields
      · exact noFields
      · exact yields_refuse location record.expected (.scalar .none true text)
  | mapping first value more =>
      cases inner with
      | none => exact yields_throw _
      | some inner =>
          exact yields_entries_cons closed unnamed unknown first inner location value more []
            record.start

end Closed

/-- What a whole text gives is what its root node does. -/
theorem Yields.of_read {reader : Reader α} {text : List Char} {x : α}
    (yields : Yields P (reader depthLimit .root (Document.ofText text).root))
    (given : read reader text = .ok x)
    : P x := by
  unfold read at given
  simp only at given
  split at given
  · cases given
  next result after found =>
    split at given
    · cases given
      exact yields _ 0 x after found
    · cases given

end Rollout.Yaml.Reading
