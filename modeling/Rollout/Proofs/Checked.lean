import Mathlib.Data.List.Basic

/-!
Computations that can fail. Where a checked step goes through and gives what the unchecked one
gives, in every state that keeps an invariant, a whole run of such steps does.
-/

namespace Rollout.Checked

universe u v w

variable {σ : Type u} {α : Type v} {β : Type w}

/-- Changes what an array holds at a place, which must be one of its places. -/
def change? (xs : Array α) (place : Nat) (f : α → α) : Option (Array α) :=
  if place < xs.size then some (xs.modify place f) else none

theorem change?_of_lt {xs : Array α} {place : Nat} (inside : place < xs.size) (f : α → α)
    : change? xs place f = some (xs.modify place f) :=
  if_pos inside

/-- So many steps, each of which must go through. -/
def repeat? (step? : σ → Option σ) : Nat → σ → Option σ
  | 0, s => some s
  | steps + 1, s => (repeat? step? steps s).bind step?

/-- Where every step agrees, so do many of them; by induction on the steps. -/
theorem repeat?_eq_some {step? : σ → Option σ} {step : σ → σ} (holds : σ → Prop)
    (agrees : ∀ s, holds s → step? s = some (step s) ∧ holds (step s)) {s : σ} (start : holds s)
    (steps : Nat)
    : repeat? step? steps s = some (Nat.repeat step steps s)
      ∧ holds (Nat.repeat step steps s) := by
  induction steps with
  | zero => exact ⟨rfl, start⟩
  | succ steps ih =>
      obtain ⟨same, held⟩ := ih
      obtain ⟨next, kept⟩ := agrees _ held
      refine ⟨?_, kept⟩
      rw [repeat?, same, Option.bind_some, next]
      rfl

/-- Where going on agrees with each member of a list, so does going through the list;
by induction on it.
-/
theorem foldlM_eq_some {step? : σ → α → Option σ} {step : σ → α → σ} (holds : σ → Prop)
    {xs : List α}
    (agrees : ∀ s, holds s → ∀ x ∈ xs, step? s x = some (step s x) ∧ holds (step s x)) {s : σ}
    (start : holds s)
    : xs.foldlM step? s = some (xs.foldl step s) ∧ holds (xs.foldl step s) := by
  induction xs generalizing s with
  | nil => exact ⟨rfl, start⟩
  | cons x rest ih =>
      obtain ⟨next, kept⟩ := agrees s start x List.mem_cons_self
      rw [List.foldlM_cons, next, List.foldl_cons]
      exact ih (fun s held y member => agrees s held y (List.mem_cons_of_mem _ member)) kept

/-- What is decided for every member of a list is decided for all of them, by induction on the list,
for any members that were kept before.
-/
theorem filterM_eq_some {xs : List ℕ} {keep? : ℕ → Option Bool} {keep : ℕ → Bool}
    (decided : ∀ x ∈ xs, keep? x = some (keep x))
    : xs.filterM keep? = some (xs.filter keep) := by
  have latestFirst (before : List ℕ)
      : xs.filterAuxM keep? before = some ((xs.filter keep).reverse ++ before) := by
    induction xs generalizing before with
    | nil => rfl
    | cons x rest ih =>
        have later := ih fun y member => decided y (List.mem_cons_of_mem _ member)
        rw [List.filterAuxM, decided x List.mem_cons_self]
        cases kept : keep x with
        | false => simpa [kept] using later before
        | true => simpa [kept] using later (x :: before)
  simp [List.filterM, latestFirst]

/-- What is found for every member of a list is found for all of them, by induction on the list. -/
theorem mapM_eq_some {f? f : α → Option β} {xs : List α}
    (found : ∀ x ∈ xs, ∃ y, f? x = some y ∧ f x = some y)
    : xs.mapM f? = some (xs.filterMap f) := by
  induction xs with
  | nil => rfl
  | cons x rest ih =>
      obtain ⟨y, checked, same⟩ := found x List.mem_cons_self
      have later := ih fun z member => found z (List.mem_cons_of_mem _ member)
      rw [List.mapM_cons, checked, later, List.filterMap_cons_some same]
      rfl

end Rollout.Checked
