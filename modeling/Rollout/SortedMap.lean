/-!
Finite maps as strictly ascending lists of entries. The order is part of the type, so two maps with
the same look-ups are equal (`SortedMap.ext_get?`).
-/

namespace Rollout

universe u v w

/-- A finite map; its entries stand in ascending order of their keys, each key once. -/
structure SortedMap (κ : Type u) (α : Type v) [Ord κ] where
  entries : List (κ × α)
  ascending : entries.Pairwise fun a b => compare a.1 b.1 = .lt

/-- A finite set, read as a map to nothing. -/
abbrev SortedSet (κ : Type u) [Ord κ] := SortedMap κ Unit

namespace SortedMap

variable {κ : Type u} {α : Type v} {β : Type w} [Ord κ]

/-- Writes `v` under `k`, in place of what an ascending list of entries held there. -/
def insertEntry (k : κ) (v : α) : List (κ × α) → List (κ × α)
  | [] => [(k, v)]
  | e :: rest =>
      match compare k e.1 with
      | .lt => (k, v) :: e :: rest
      | .eq => (k, v) :: rest
      | .gt => e :: insertEntry k v rest

/-- What a list of entries holds under `k`. -/
def findEntry (k : κ) : List (κ × α) → Option α
  | [] => none
  | e :: rest => if compare k e.1 = .eq then some e.2 else findEntry k rest

theorem mem_insertEntry {k : κ} {v : α} {e : κ × α} {es : List (κ × α)}
    (h : e ∈ insertEntry k v es)
    : e = (k, v) ∨ e ∈ es := by
  induction es with
  | nil => simpa [insertEntry] using h
  | cons head rest ih =>
      unfold insertEntry at h
      split at h
      · simpa using h
      · rcases List.mem_cons.mp h with rfl | h
        · exact .inl rfl
        · exact .inr (List.mem_cons_of_mem _ h)
      · rcases List.mem_cons.mp h with rfl | h
        · exact .inr List.mem_cons_self
        · rcases ih h with h | h
          · exact .inl h
          · exact .inr (List.mem_cons_of_mem _ h)

theorem insertEntry_ascending [Std.TransOrd κ] (k : κ) (v : α) {es : List (κ × α)}
    (h : es.Pairwise fun a b => compare a.1 b.1 = .lt)
    : (insertEntry k v es).Pairwise fun a b => compare a.1 b.1 = .lt := by
  induction es with
  | nil => simp [insertEntry]
  | cons head rest ih =>
      obtain ⟨above, below⟩ := List.pairwise_cons.mp h
      unfold insertEntry
      split
      · rename_i less
        refine List.pairwise_cons.mpr ⟨fun e he => ?_, h⟩
        rcases List.mem_cons.mp he with rfl | he
        · exact less
        · exact Std.TransCmp.lt_trans less (above e he)
      · rename_i same
        refine List.pairwise_cons.mpr ⟨fun e he => ?_, below⟩
        exact Std.TransCmp.lt_of_eq_of_lt same (above e he)
      · rename_i greater
        refine List.pairwise_cons.mpr ⟨fun e he => ?_, ih below⟩
        rcases mem_insertEntry he with rfl | he
        · exact Std.OrientedCmp.lt_of_gt greater
        · exact above e he

def empty : SortedMap κ α :=
  ⟨[], .nil⟩

instance : EmptyCollection (SortedMap κ α) :=
  ⟨empty⟩

instance : Inhabited (SortedMap κ α) :=
  ⟨empty⟩

def insert [Std.TransOrd κ] (m : SortedMap κ α) (k : κ) (v : α) : SortedMap κ α :=
  ⟨insertEntry k v m.entries, insertEntry_ascending k v m.ascending⟩

def get? (m : SortedMap κ α) (k : κ) : Option α :=
  findEntry k m.entries

def contains (m : SortedMap κ α) (k : κ) : Bool :=
  (m.get? k).isSome

def size (m : SortedMap κ α) : Nat :=
  m.entries.length

def isEmpty (m : SortedMap κ α) : Bool :=
  m.entries.isEmpty

def keys (m : SortedMap κ α) : List κ :=
  m.entries.map Prod.fst

def values (m : SortedMap κ α) : List α :=
  m.entries.map Prod.snd

/-- The entries whose key passes `keep`. -/
def filterKeys (m : SortedMap κ α) (keep : κ → Bool) : SortedMap κ α :=
  ⟨m.entries.filter fun e => keep e.1, m.ascending.filter _⟩

def erase (m : SortedMap κ α) (k : κ) : SortedMap κ α :=
  m.filterKeys fun key => compare k key ≠ .eq

def mapValues (m : SortedMap κ α) (f : κ → α → β) : SortedMap κ β :=
  ⟨m.entries.map fun e => (e.1, f e.1 e.2), List.pairwise_map.mpr m.ascending⟩

/-- Changes what is held under `k`, taken as `default` where nothing is. -/
def update [Std.TransOrd κ] (m : SortedMap κ α) (k : κ) (default : α) (f : α → α)
    : SortedMap κ α :=
  m.insert k (f ((m.get? k).getD default))

/-- Inserts from left to right: of two entries with one key the later stays. -/
def ofList [Std.TransOrd κ] (es : List (κ × α)) : SortedMap κ α :=
  es.foldl (fun m e => m.insert e.1 e.2) empty

/-- Adds `k` to a set. -/
def add [Std.TransOrd κ] (s : SortedSet κ) (k : κ) : SortedSet κ :=
  SortedMap.insert s k ()

def ofKeys [Std.TransOrd κ] (ks : List κ) : SortedSet κ :=
  ks.foldl add empty

section Lemmas

theorem findEntry_insertEntry [Std.TransOrd κ] (k key : κ) (v : α) (es : List (κ × α))
    : findEntry key (insertEntry k v es)
      = if compare key k = .eq then some v else findEntry key es := by
  induction es with
  | nil => simp [insertEntry, findEntry]
  | cons head rest ih =>
      unfold insertEntry
      split
      · simp [findEntry]
      · rename_i same
        by_cases h : compare key k = .eq
        · simp [findEntry, h]
        · have : compare key head.1 ≠ .eq := fun e =>
            h (Std.TransCmp.eq_trans e (Std.OrientedCmp.eq_symm same))
          simp [findEntry, h, this]
      · rename_i greater
        by_cases h : compare key head.1 = .eq
        · have : compare key k ≠ .eq := fun e => by
            have := Std.TransCmp.eq_trans (Std.OrientedCmp.eq_symm e) h
            simp [this] at greater
          simp [findEntry, h, this]
        · simp [findEntry, h, ih]

@[simp] theorem get?_empty (k : κ) : (empty : SortedMap κ α).get? k = none :=
  rfl

@[simp] theorem get?_emptyCollection (k : κ) : (∅ : SortedMap κ α).get? k = none :=
  rfl

theorem get?_insert [Std.TransOrd κ] (m : SortedMap κ α) (k key : κ) (v : α)
    : (m.insert k v).get? key = if compare key k = .eq then some v else m.get? key :=
  findEntry_insertEntry k key v m.entries

@[simp] theorem get?_insert_self [Std.TransOrd κ] (m : SortedMap κ α) (k : κ) (v : α)
    : (m.insert k v).get? k = some v := by
  simp [get?_insert]

theorem findEntry_mem {k : κ} {v : α} {es : List (κ × α)} (h : findEntry k es = some v)
    : ∃ key, compare k key = .eq ∧ (key, v) ∈ es := by
  induction es with
  | nil => simp [findEntry] at h
  | cons head rest ih =>
      by_cases e : compare k head.1 = .eq
      · rw [findEntry, if_pos e] at h
        cases h
        exact ⟨head.1, e, List.mem_cons_self⟩
      · rw [findEntry, if_neg e] at h
        obtain ⟨key, same, member⟩ := ih h
        exact ⟨key, same, List.mem_cons_of_mem _ member⟩

theorem findEntry_of_mem [Std.TransOrd κ] {k key : κ} {v : α} {es : List (κ × α)}
    (ascending : es.Pairwise fun a b => compare a.1 b.1 = .lt)
    (same : compare k key = .eq) (member : (key, v) ∈ es)
    : findEntry k es = some v := by
  induction es with
  | nil => simp at member
  | cons head rest ih =>
      obtain ⟨above, below⟩ := List.pairwise_cons.mp ascending
      rcases List.mem_cons.mp member with rfl | member
      · simp [findEntry, same]
      · have less := above _ member
        have : compare k head.1 ≠ .eq := fun e => by
          have := Std.TransCmp.eq_trans (Std.OrientedCmp.eq_symm e) same
          simp [this] at less
        simp [findEntry, this, ih below member]

/-- A map holds exactly its entries, by uniqueness of keys. -/
theorem get?_eq_some_iff [Std.TransOrd κ] [Std.LawfulEqOrd κ] {m : SortedMap κ α} {k : κ}
    {v : α}
    : m.get? k = some v ↔ (k, v) ∈ m.entries := by
  constructor
  · intro h
    obtain ⟨key, same, member⟩ := findEntry_mem h
    rwa [Std.LawfulEqOrd.eq_of_compare same]
  · exact findEntry_of_mem m.ascending Std.ReflOrd.compare_self

theorem eq_of_ascending [Std.TransOrd κ] {es fs : List (κ × α)}
    (he : es.Pairwise fun a b => compare a.1 b.1 = .lt)
    (hf : fs.Pairwise fun a b => compare a.1 b.1 = .lt)
    (same : ∀ e, e ∈ es ↔ e ∈ fs)
    : es = fs := by
  induction es generalizing fs with
  | nil =>
      cases fs with
      | nil => rfl
      | cons f rest => simpa using (same f).mpr List.mem_cons_self
  | cons e es ih =>
      cases fs with
      | nil => simpa using (same e).mp List.mem_cons_self
      | cons f fs =>
          obtain ⟨aboveE, belowE⟩ := List.pairwise_cons.mp he
          obtain ⟨aboveF, belowF⟩ := List.pairwise_cons.mp hf
          have irrefl (x : κ) : compare x x ≠ .lt := by simp
          have heads : e = f := by
            rcases List.mem_cons.mp ((same e).mp List.mem_cons_self) with h | h
            · exact h
            · rcases List.mem_cons.mp ((same f).mpr List.mem_cons_self) with h' | h'
              · exact h'.symm
              · exact absurd (Std.TransCmp.lt_trans (aboveF e h) (aboveE f h')) (irrefl _)
          subst heads
          refine congrArg _ (ih belowE belowF fun x => ?_)
          constructor
          · intro hx
            rcases List.mem_cons.mp ((same x).mp (List.mem_cons_of_mem _ hx)) with rfl | h
            · exact absurd (aboveE x hx) (irrefl _)
            · exact h
          · intro hx
            rcases List.mem_cons.mp ((same x).mpr (List.mem_cons_of_mem _ hx)) with rfl | h
            · exact absurd (aboveF x hx) (irrefl _)
            · exact h

/-- Maps with the same look-ups are equal, by their common ascending order. -/
theorem ext_get? [Std.TransOrd κ] [Std.LawfulEqOrd κ] {m n : SortedMap κ α}
    (same : ∀ k, m.get? k = n.get? k)
    : m = n := by
  have : m.entries = n.entries :=
    eq_of_ascending m.ascending n.ascending fun e => by
      rw [← get?_eq_some_iff (m := m), ← get?_eq_some_iff (m := n), same]
  cases m
  cases n
  cases this
  rfl

theorem mem_keys_iff [Std.TransOrd κ] [Std.LawfulEqOrd κ] {m : SortedMap κ α} {k : κ}
    : k ∈ m.keys ↔ ∃ v, m.get? k = some v := by
  simp only [keys, get?_eq_some_iff, List.mem_map]
  constructor
  · rintro ⟨e, he, rfl⟩
    exact ⟨e.2, he⟩
  · rintro ⟨v, hv⟩
    exact ⟨_, hv, rfl⟩

theorem keys_ascending (m : SortedMap κ α) : m.keys.Pairwise fun a b => compare a b = .lt :=
  List.pairwise_map.mpr m.ascending

end Lemmas

end SortedMap

end Rollout
