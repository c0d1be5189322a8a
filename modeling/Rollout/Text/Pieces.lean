/-!
Text cut at a separating character, and put together again. Cutting gives one piece more than there
are separators, and joining the pieces gives the text back.
-/

namespace Rollout.Text

/-- The pieces of a text between its separators, possibly empty ones. -/
def pieces (separator : Char) : List Char → List (List Char)
  | [] => [[]]
  | c :: rest =>
      if c = separator then [] :: pieces separator rest
      else
        match pieces separator rest with
        | [] => [[c]]
        | piece :: others => (c :: piece) :: others

/-- The pieces with a separator between any two of them. -/
def join (separator : Char) : List (List Char) → List Char
  | [] => []
  | [piece] => piece
  | piece :: others => piece ++ separator :: join separator others

theorem pieces_ne_nil (separator : Char) (text : List Char) : pieces separator text ≠ [] := by
  cases text with
  | nil => simp [pieces]
  | cons c rest =>
      unfold pieces
      split
      · simp
      · split <;> simp

theorem join_cons {separator : Char} {piece : List Char} {others : List (List Char)}
    (h : others ≠ [])
    : join separator (piece :: others) = piece ++ separator :: join separator others := by
  cases others with
  | nil => exact absurd rfl h
  | cons => rfl

/-- Joining undoes cutting. -/
theorem join_pieces (separator : Char) (text : List Char)
    : join separator (pieces separator text) = text := by
  induction text with
  | nil => rfl
  | cons c rest ih =>
      unfold pieces
      split
      · rename_i same
        rw [join_cons (pieces_ne_nil separator rest), ih, same]
        rfl
      · cases h : pieces separator rest with
        | nil => exact absurd h (pieces_ne_nil separator rest)
        | cons piece others =>
            rw [h] at ih
            cases others with
            | nil => simpa [join] using ih
            | cons => simpa [join] using ih

/-- A text is cut at every separator, so first on one side of it and then on the other. -/
theorem pieces_append (separator : Char) (text more : List Char)
    : pieces separator (text ++ separator :: more)
      = pieces separator text ++ pieces separator more := by
  induction text with
  | nil => simp [pieces]
  | cons c rest ih =>
      rw [List.cons_append, pieces, pieces]
      split
      · rw [ih, List.cons_append]
      · rw [ih]
        cases h : pieces separator rest with
        | nil => exact absurd h (pieces_ne_nil separator rest)
        | cons => rfl

/-- A text without the separator is its only piece. -/
theorem pieces_eq_singleton {separator : Char} {text : List Char} (none : separator ∉ text)
    : pieces separator text = [text] := by
  induction text with
  | nil => rfl
  | cons c rest ih =>
      rw [List.mem_cons, not_or] at none
      rw [pieces, if_neg (Ne.symm none.1), ih none.2]

/-- Cutting undoes joining, where no piece holds the separator. -/
theorem pieces_join {separator : Char} {segments : List (List Char)} (some : segments ≠ [])
    (none : ∀ s ∈ segments, separator ∉ s)
    : pieces separator (join separator segments) = segments := by
  induction segments with
  | nil => exact absurd rfl some
  | cons piece others ih =>
      have single := pieces_eq_singleton (none piece List.mem_cons_self)
      by_cases more : others = []
      · rw [more]
        exact single
      · rw [join_cons more, pieces_append, single,
          ih more fun s member => none s (List.mem_cons_of_mem _ member)]
        rfl

/-- Joining brings in no character but the separator. -/
theorem mem_join {separator : Char} {segments : List (List Char)} {c : Char}
    (member : c ∈ join separator segments)
    : c = separator ∨ ∃ s ∈ segments, c ∈ s := by
  induction segments with
  | nil => cases member
  | cons piece others ih =>
      by_cases more : others = []
      · rw [more] at member
        exact .inr ⟨piece, List.mem_cons_self, member⟩
      · rw [join_cons more, List.mem_append, List.mem_cons] at member
        obtain here | same | later := member
        · exact .inr ⟨piece, List.mem_cons_self, here⟩
        · exact .inl same
        · refine (ih later).imp_right fun ⟨s, listed, inside⟩ => ?_
          exact ⟨s, List.mem_cons_of_mem _ listed, inside⟩

/-- Cutting brings in no character. -/
theorem mem_of_mem_pieces {separator : Char} {text piece : List Char} {c : Char}
    (cut : piece ∈ pieces separator text) (member : c ∈ piece)
    : c ∈ text := by
  induction text generalizing piece with
  | nil =>
      rw [pieces, List.mem_singleton] at cut
      rwa [cut] at member
  | cons d rest ih =>
      rw [pieces] at cut
      split at cut
      · obtain rfl | cut := List.mem_cons.mp cut
        · cases member
        · exact List.mem_cons_of_mem _ (ih cut member)
      · split at cut
        next none => exact absurd none (pieces_ne_nil separator rest)
        next head others same =>
          obtain rfl | cut := List.mem_cons.mp cut
          · obtain rfl | member := List.mem_cons.mp member
            · exact List.mem_cons_self
            · exact List.mem_cons_of_mem _ (ih (same ▸ List.mem_cons_self) member)
          · exact List.mem_cons_of_mem _ (ih (same ▸ List.mem_cons_of_mem _ cut) member)

/-- No piece holds the separator. -/
theorem separator_not_mem_of_mem_pieces {separator : Char} {text piece : List Char}
    (h : piece ∈ pieces separator text)
    : separator ∉ piece := by
  induction text generalizing piece with
  | nil => simp_all [pieces]
  | cons c rest ih =>
      unfold pieces at h
      split at h
      · rcases List.mem_cons.mp h with rfl | h
        · simp
        · exact ih h
      · rename_i other
        split at h
        · simp only [List.mem_singleton] at h
          subst h
          simpa using Ne.symm other
        · rename_i head others same
          rcases List.mem_cons.mp h with rfl | h
          · simp only [List.mem_cons, not_or]
            exact ⟨Ne.symm other, ih (same ▸ List.mem_cons_self)⟩
          · exact ih (same ▸ List.mem_cons_of_mem _ h)

end Rollout.Text
