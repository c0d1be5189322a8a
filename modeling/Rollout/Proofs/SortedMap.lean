import Mathlib.Data.List.Basic
import Mathlib.Data.List.Induction
import Mathlib.Data.List.Perm.Basic
import Mathlib.Tactic.Common
import Rollout.SortedMap

/-!
Laws of finite maps and sets: what a look-up finds after each operation. Sets are told apart by
their members alone.
-/

namespace Rollout.SortedMap

universe u v w

variable {κ : Type u} {α : Type v} [Ord κ]

@[simp] theorem mem_keys_empty {k : κ} : k ∉ (empty : SortedMap κ α).keys := by
  simp [keys, empty]

theorem findEntry_mapValues [Std.LawfulEqOrd κ] {β : Type w} (f : κ → α → β) (k : κ)
    (es : List (κ × α))
    : findEntry k (es.map fun e => (e.1, f e.1 e.2)) = (findEntry k es).map (f k) := by
  induction es with
  | nil => rfl
  | cons e es ih =>
      by_cases same : k = e.1
      · simp [findEntry, same]
      · simp [findEntry, same, ih]

@[simp] theorem get?_mapValues [Std.LawfulEqOrd κ] {β : Type w} (m : SortedMap κ α)
    (f : κ → α → β) (k : κ)
    : (m.mapValues f).get? k = (m.get? k).map (f k) :=
  findEntry_mapValues f k m.entries

/-- Leaving entries out by their keys leaves nothing else out. -/
theorem findEntry_filter [Std.LawfulEqOrd κ] (keep : κ → Bool) (k : κ) (es : List (κ × α))
    : findEntry k (es.filter fun e => keep e.1) = if keep k then findEntry k es else none := by
  induction es with
  | nil => simp [findEntry]
  | cons e es ih =>
      by_cases same : k = e.1
      · subst same
        cases kept : keep e.1 <;> simp [findEntry, kept, ih]
      · cases kept : keep e.1 <;> simp [findEntry, kept, ih, same]

@[simp] theorem get?_filterKeys [Std.LawfulEqOrd κ] (m : SortedMap κ α) (keep : κ → Bool) (k : κ)
    : (m.filterKeys keep).get? k = if keep k then m.get? k else none :=
  findEntry_filter keep k m.entries

theorem mapValues_filterKeys {β : Type w} (m : SortedMap κ α) (keep : κ → Bool) (f : κ → α → β)
    : (m.filterKeys keep).mapValues f = (m.mapValues f).filterKeys keep := by
  simp only [filterKeys, mapValues, List.filter_map]
  rfl

variable [Std.TransOrd κ]

/-- Keys stand in strictly ascending order, so none stands twice. -/
theorem keys_nodup (m : SortedMap κ α) : m.keys.Nodup :=
  m.keys_ascending.imp fun less same => by
    subst same
    simp at less

theorem get?_update {m : SortedMap κ α} {k key : κ} {default : α} {f : α → α}
    : (m.update k default f).get? key
      = if compare key k = .eq then some (f ((m.get? k).getD default)) else m.get? key := by
  rw [update, get?_insert]

/-- Writes a value if there is one. -/
def insertOption (m : SortedMap κ α) (k : κ) : Option α → SortedMap κ α
  | some v => m.insert k v
  | none => m

/-- Writes under each key what `f` makes of its entry, if it makes anything of it. -/
def insertEach {β : Type w} (f : κ × β → Option α) (m : SortedMap κ α) (es : List (κ × β))
    : SortedMap κ α :=
  es.foldl (fun m e => m.insertOption e.1 (f e)) m

theorem insertEach_cons {β : Type w} (f : κ × β → Option α) (m : SortedMap κ α) (e : κ × β)
    (es : List (κ × β))
    : insertEach f m (e :: es) = insertEach f (m.insertOption e.1 (f e)) es :=
  rfl

variable [Std.LawfulEqOrd κ]

theorem contains_iff {m : SortedMap κ α} {k : κ} : m.contains k = true ↔ k ∈ m.keys := by
  rw [mem_keys_iff, contains, Option.isSome_iff_exists]

theorem contains_eq_false_iff {m : SortedMap κ α} {k : κ} : m.contains k = false ↔ k ∉ m.keys := by
  rw [← contains_iff, Bool.not_eq_true]

@[simp] theorem mem_keys_insert {m : SortedMap κ α} {k key : κ} {v : α}
    : key ∈ (m.insert k v).keys ↔ key = k ∨ key ∈ m.keys := by
  simp only [← contains_iff, contains, get?_insert]
  by_cases same : key = k <;> simp [same]

/-- Writing values under keys adds these, by induction on them. -/
theorem mem_keys_foldl_insertKeys {ks : List κ} {f : κ → α} {m : SortedMap κ α} {key : κ}
    : key ∈ (ks.foldl (fun m k => m.insert k (f k)) m).keys ↔ key ∈ ks ∨ key ∈ m.keys := by
  induction ks generalizing m with
  | nil => simp
  | cons k ks ih =>
      rw [List.foldl_cons, ih, mem_keys_insert, List.mem_cons]
      tauto

/-- Maps with the same keys list them in the same order. -/
theorem keys_eq_of_mem_iff {β : Type w} {m : SortedMap κ α} {n : SortedMap κ β}
    (same : ∀ k, k ∈ m.keys ↔ k ∈ n.keys)
    : m.keys = n.keys := by
  have perm := (List.perm_ext_iff_of_nodup m.keys_nodup n.keys_nodup).mpr same
  refine perm.eq_of_pairwise (fun a b _ _ less greater => ?_) m.keys_ascending n.keys_ascending
  simpa using Std.TransCmp.lt_trans less greater

theorem mem_keys_add {s : SortedSet κ} {k key : κ}
    : key ∈ (add s k).keys ↔ key = k ∨ key ∈ s.keys :=
  mem_keys_insert

/-- Changes that can be swapped where they meet can be swapped everywhere. -/
theorem update_comm {m : SortedMap κ α} {default : α} {f g : α → α} (swap : ∀ v, g (f v) = f (g v))
    (k l : κ)
    : (m.update k default f).update l default g = (m.update l default g).update k default f := by
  apply ext_get?
  intro key
  simp only [get?_update, Std.LawfulEqCmp.compare_eq_iff_eq]
  by_cases same : k = l
  · subst same
    by_cases met : key = k
    · simp [met, swap]
    · simp [met]
  · by_cases met : key = k
    · simp [met, same]
    · simp [met, Ne.symm same]

/-- Keys may be added in any order. -/
theorem add_comm (s : SortedSet κ) (k l : κ) : (s.add k).add l = (s.add l).add k := by
  apply ext_get?
  intro key
  simp only [add, get?_insert]
  split <;> split <;> rfl

/-- Adding keys one by one adds them all, by induction on the keys. -/
theorem mem_keys_foldl_add {ks : List κ} {s : SortedSet κ} {key : κ}
    : key ∈ (ks.foldl add s).keys ↔ key ∈ ks ∨ key ∈ s.keys := by
  induction ks generalizing s with
  | nil => simp
  | cons k ks ih =>
      rw [List.foldl_cons, ih, mem_keys_add, List.mem_cons]
      tauto

@[simp] theorem mem_keys_ofKeys {ks : List κ} {key : κ} : key ∈ (ofKeys ks).keys ↔ key ∈ ks := by
  simp [ofKeys, mem_keys_foldl_add]

/-- Of several entries under one key the last stays, by induction from the end. -/
theorem get?_ofList (es : List (κ × α)) (k : κ)
    : (ofList es).get? k = (es.reverse.find? fun e => compare k e.1 = .eq).map Prod.snd := by
  induction es using List.reverseRecOn with
  | nil => rfl
  | append_singleton es e ih =>
      rw [ofList, List.foldl_append, List.foldl_cons, List.foldl_nil, get?_insert,
        List.reverse_append, List.reverse_singleton, List.singleton_append]
      by_cases same : compare k e.1 = .eq
      · simp [same]
      · rw [if_neg same, List.find?_cons_of_neg (by simpa using same)]
        exact ih

/-- The same with the entries for that key, the last of which counts. -/
theorem get?_ofList_eq_getLast? [DecidableEq κ] (es : List (κ × α)) (k : κ)
    : (ofList es).get? k = (es.filter (·.1 = k)).getLast?.map Prod.snd := by
  rw [get?_ofList, List.getLast?_eq_head?_reverse, ← List.filter_reverse, List.head?_filter]
  simp only [Std.LawfulEqCmp.compare_eq_iff_eq, eq_comm (a := k)]

/-- What a list of entries holds under a key is one of the values written there. -/
theorem mem_of_get?_ofList {es : List (κ × α)} {k : κ} {v : α}
    (found : (ofList es).get? k = some v)
    : (k, v) ∈ es := by
  rw [get?_ofList, Option.map_eq_some_iff] at found
  obtain ⟨⟨key, _⟩, first, rfl⟩ := found
  have same := List.find?_some first
  simp only [Std.LawfulEqCmp.compare_eq_iff_eq, decide_eq_true_eq] at same
  subst same
  simpa using List.mem_of_find?_eq_some first

theorem mem_keys_ofList {es : List (κ × α)} {k : κ}
    : k ∈ (ofList es).keys ↔ k ∈ es.map Prod.fst := by
  rw [← contains_iff, contains, get?_ofList, Option.isSome_map, List.find?_isSome]
  simp

/-- A map written down by a function of the keys holds the function's values. -/
theorem get?_ofList_map {ks : List κ} {f : κ → α} {k : κ} {v : α}
    : (ofList (ks.map fun key => (key, f key))).get? k = some v ↔ k ∈ ks ∧ v = f k := by
  constructor
  · intro found
    obtain ⟨key, listed, equal⟩ := List.mem_map.mp (mem_of_get?_ofList found)
    cases equal
    exact ⟨listed, rfl⟩
  · intro given
    obtain ⟨listed, rfl⟩ := given
    have known : k ∈ (ofList (ks.map fun key => (key, f key))).keys := by
      simpa [mem_keys_ofList] using listed
    obtain ⟨value, found⟩ := mem_keys_iff.mp known
    obtain ⟨key, _, equal⟩ := List.mem_map.mp (mem_of_get?_ofList found)
    cases equal
    exact found

/-- Where no key stands twice and none is held before, a key holds what was made of its entry; by
induction on the entries.
-/
theorem get?_insertEach {β : Type w} {f : κ × β → Option α} {m : SortedMap κ α}
    {es : List (κ × β)} (distinct : (es.map Prod.fst).Nodup)
    (fresh : ∀ e ∈ es, m.get? e.1 = none) {k : κ} {v : α}
    : (insertEach f m es).get? k = some v
      ↔ (∃ x, (k, x) ∈ es ∧ f (k, x) = some v) ∨ m.get? k = some v := by
  induction es generalizing m with
  | nil => simp [insertEach]
  | cons e rest ih =>
      obtain ⟨key, x⟩ := e
      obtain ⟨new, later⟩ := List.nodup_cons.mp distinct
      have unheld := fresh (key, x) List.mem_cons_self
      have absent (y : β) : (key, y) ∉ rest := fun member =>
        new (List.mem_map.mpr ⟨_, member, rfl⟩)
      rw [insertEach_cons]
      cases made : f (key, x) with
      | none =>
          apply (ih later fun e member => fresh e (List.mem_cons_of_mem _ member)).trans
          by_cases same : k = key
          · subst same
            simp [absent, made]
          · simp [same]
      | some value =>
          have freshLater : ∀ e ∈ rest, (m.insert key value).get? e.1 = none := by
            intro e member
            have different : e.1 ≠ key := fun same => new (List.mem_map.mpr ⟨e, member, same⟩)
            simpa [get?_insert, different] using fresh e (List.mem_cons_of_mem _ member)
          apply (ih later freshLater).trans
          by_cases same : k = key
          · subst same
            simp [absent, made, unheld]
          · simp [same, get?_insert]

end Rollout.SortedMap
