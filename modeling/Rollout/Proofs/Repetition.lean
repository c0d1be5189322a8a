import Mathlib.Data.List.Induction
import Mathlib.Data.List.Nodup
import Rollout.Repetition

/-!
What is reported as repeated: exactly what occurs at least twice, so nothing exactly if nothing
does, in the order of the places where it is met for the second time.
-/

namespace Rollout

variable {α : Type _} [DecidableEq α]

/-- Going through a list reports nothing exactly if nothing was reported before and nothing in the
list was met before or occurs twice; by induction on the list.
-/
theorem repeatedFrom_eq_nil_iff {seen twice xs : List α}
    : repeatedFrom seen twice xs = [] ↔ twice = [] ∧ xs.Nodup ∧ ∀ x ∈ xs, x ∉ seen := by
  induction xs generalizing seen twice with
  | nil => simp [repeatedFrom]
  | cons x rest ih =>
      rw [repeatedFrom]
      split
      next fresh =>
        rw [ih, List.nodup_cons]
        simp only [List.mem_cons, forall_eq_or_imp, not_or]
        grind
      next met =>
        rw [not_not] at met
        split
        next known =>
          rw [ih]
          simp [List.ne_nil_of_mem known]
        next new =>
          rw [ih]
          simp [met]

theorem repeated_eq_nil_iff {xs : List α} : repeated xs = [] ↔ xs.Nodup := by
  simp [repeated, repeatedFrom_eq_nil_iff]

/-- Going through a list reports what was reported before, what is met again and what occurs twice
in the list itself; by induction on the list.
-/
theorem mem_repeatedFrom {seen twice xs : List α} {x : α}
    : x ∈ repeatedFrom seen twice xs ↔ x ∈ twice ∨ (x ∈ seen ∧ x ∈ xs) ∨ 2 ≤ xs.count x := by
  induction xs generalizing seen twice with
  | nil => simp [repeatedFrom]
  | cons y rest ih =>
      have counted : 2 ≤ (y :: rest).count x ↔ 2 ≤ rest.count x ∨ (y = x ∧ x ∈ rest) := by
        rw [List.count_cons]
        by_cases same : y = x
        · simp only [same, beq_self_eq_true, ↓reduceIte, true_and, ← List.one_le_count_iff]
          omega
        · simp [same]
      rw [repeatedFrom, counted]
      split
      · rw [ih, List.mem_cons, List.mem_cons]
        grind
      · split
        · rw [ih, List.mem_cons]
          grind
        · rw [ih, List.mem_append, List.mem_singleton, List.mem_cons]
          grind

theorem mem_repeated {xs : List α} {x : α} : x ∈ repeated xs ↔ 2 ≤ xs.count x := by
  simp [repeated, mem_repeatedFrom]

/-- The last member of a list is reported anew if it was met before and not reported yet, by
induction on what comes before it.
-/
theorem repeatedFrom_append_singleton (seen twice xs : List α) (x : α)
    : repeatedFrom seen twice (xs ++ [x])
      = if (x ∈ seen ∨ x ∈ xs) ∧ x ∉ repeatedFrom seen twice xs then
          repeatedFrom seen twice xs ++ [x]
        else repeatedFrom seen twice xs := by
  induction xs generalizing seen twice with
  | nil => grind [repeatedFrom]
  | cons y rest ih =>
      rw [List.cons_append, repeatedFrom, repeatedFrom]
      split
      next fresh => grind
      next met => split <;> grind

/-- The last member of a list is reported exactly if it is met for the second time. -/
theorem repeated_append_singleton (xs : List α) (x : α)
    : repeated (xs ++ [x]) = if xs.count x = 1 then repeated xs ++ [x] else repeated xs := by
  have second : (x ∈ [] ∨ x ∈ xs) ∧ x ∉ repeated xs ↔ xs.count x = 1 := by
    rw [mem_repeated, or_iff_right List.not_mem_nil, ← List.one_le_count_iff]
    omega
  rw [repeated, repeatedFrom_append_singleton]
  exact if_congr second rfl rfl

/-- At this place of a list its member is met for the second time. -/
def MetAgain (xs : List α) (place : Nat) (x : α) : Prop :=
  xs[place]? = some x ∧ (xs.take place).count x = 1

theorem MetAgain.append {xs : List α} {place : Nat} {x : α} (again : MetAgain xs place x)
    (more : List α)
    : MetAgain (xs ++ more) place x := by
  obtain ⟨here, once⟩ := again
  obtain ⟨inside, _⟩ := List.getElem?_eq_some_iff.mp here
  exact ⟨by rwa [List.getElem?_append_left inside],
    by rwa [List.take_append_of_le_length (Nat.le_of_lt inside)]⟩

/-- One more member is met for the second time if it was met just once; all else is met again where
it was before.
-/
theorem metAgain_append_singleton_iff {xs : List α} {last x : α} {place : Nat}
    : MetAgain (xs ++ [last]) place x
      ↔ MetAgain xs place x ∨ (place = xs.length ∧ x = last ∧ xs.count last = 1) := by
  constructor
  · rintro ⟨here, once⟩
    obtain ⟨inside, _⟩ := List.getElem?_eq_some_iff.mp here
    rw [List.length_append, List.length_singleton, Nat.lt_succ_iff_lt_or_eq] at inside
    obtain before | rfl := inside
    · rw [List.getElem?_append_left before] at here
      rw [List.take_append_of_le_length (Nat.le_of_lt before)] at once
      exact .inl ⟨here, once⟩
    · obtain rfl : last = x := by simpa using here
      exact .inr ⟨rfl, rfl, by simpa using once⟩
  · rintro (before | ⟨rfl, rfl, once⟩)
    · exact before.append [last]
    · exact ⟨by simp, by simpa using once⟩

/-- What is reported is what is met for the second time, place after place, at every such place; by
induction from the end.
-/
theorem repeated_places (xs : List α)
    : ∃ places : List Nat, places.Pairwise (· < ·)
      ∧ (∀ place, place ∈ places ↔ ∃ x, MetAgain xs place x)
      ∧ List.Forall₂ (MetAgain xs) places (repeated xs) := by
  induction xs using List.reverseRecOn with
  | nil => exact ⟨[], .nil, by simp [MetAgain], .nil⟩
  | append_singleton xs last ih =>
      obtain ⟨places, rising, all, met⟩ := ih
      have earlier : List.Forall₂ (MetAgain (xs ++ [last])) places (repeated xs) :=
        met.imp fun _ _ again => again.append [last]
      simp only [repeated_append_singleton, metAgain_append_singleton_iff, exists_or, ← all]
      split
      next once =>
        have inside (place : Nat) (listed : place ∈ places) : place < xs.length := by
          obtain ⟨x, here, _⟩ := (all place).mp listed
          exact (List.getElem?_eq_some_iff.mp here).1
        have newest : MetAgain (xs ++ [last]) xs.length last :=
          metAgain_append_singleton_iff.mpr (.inr ⟨rfl, rfl, once⟩)
        refine ⟨places ++ [xs.length], ?_, by simp [once],
          List.rel_append earlier (.cons newest .nil)⟩
        exact List.pairwise_append.mpr ⟨rising, List.pairwise_singleton _ _, by simpa using inside⟩
      next often => exact ⟨places, rising, by simp [often], earlier⟩

/-- What is reported first is met for the second time first. -/
theorem repeated_ordered (xs : List α)
    : (repeated xs).Pairwise fun x y => ∃ i j, i < j ∧ MetAgain xs i x ∧ MetAgain xs j y := by
  obtain ⟨places, rising, -, met⟩ := repeated_places xs
  obtain ⟨same, again⟩ := List.forall₂_iff_get.mp met
  rw [List.pairwise_iff_getElem] at rising ⊢
  intro i j insideI insideJ less
  rw [← same] at insideI insideJ
  exact ⟨places[i], places[j], rising i j insideI insideJ less, again i _ _, again j _ _⟩

/-- Nothing is reported twice, since it is met for the second time only once; by induction from the
end.
-/
theorem nodup_repeated (xs : List α) : (repeated xs).Nodup := by
  induction xs using List.reverseRecOn with
  | nil => exact .nil
  | append_singleton xs last ih =>
      rw [repeated_append_singleton]
      split
      next once =>
        refine List.Nodup.append ih (List.nodup_singleton last) ?_
        simp only [List.disjoint_singleton, mem_repeated]
        omega
      next => exact ih

end Rollout
