/-!
What occurs more than once in a list.
-/

namespace Rollout

/-- Goes through a list left to right, given what was already met and what was already met twice. -/
def repeatedFrom {α : Type _} [DecidableEq α] (seen twice : List α) : List α → List α
  | [] => twice
  | x :: rest =>
      if x ∉ seen then repeatedFrom (x :: seen) twice rest
      else if x ∈ twice then repeatedFrom seen twice rest
      else repeatedFrom seen (twice ++ [x]) rest

/-- The members that occur more than once, each once, in the order of their first repetition. -/
def repeated {α : Type _} [DecidableEq α] (xs : List α) : List α :=
  repeatedFrom [] [] xs

end Rollout
