import Rollout.Proofs.Checked
import Rollout.Proofs.Graph.Release

/-!
The release of nodes with every access checked: edges must end at nodes of the graph, a node that is
told of a release must have waited for one, and none may be ready after the last turn. None of this
ever fails.
-/

namespace Rollout.Release

open Adjacency Checked

-----------------------------------------------------------------------------------------
-- Checked steps
-----------------------------------------------------------------------------------------

/-- For each node how many nodes it waits for, and which nodes wait for it. -/
structure Tally where
  waiting : Array Nat
  dependents : Adjacency

namespace Tally

/-- Notes an edge at both its ends, unless its target is on a cycle. -/
def note? (cyclic : Array Bool) (source : Nat) (tally : Tally) (target : Nat) : Option Tally := do
  if ← cyclic[target]? then return tally
  let waiting ← change? tally.waiting source (· + 1)
  let dependents ← change? tally.dependents target (· ++ [source])
  return ⟨waiting, dependents⟩

/-- Notes the edges of a node that is on no cycle. -/
def noteAll? (graph : Adjacency) (cyclic : Array Bool) (tally : Tally) (source : Nat)
    : Option Tally := do
  let targets ← graph[source]?
  if ← cyclic[source]? then return tally
  targets.foldlM (note? cyclic source) tally

def blank (size : Nat) : Tally :=
  ⟨.replicate size 0, .replicate size []⟩

def of? (graph : Adjacency) (cyclic : Array Bool) : Option Tally :=
  (List.range graph.size).foldlM (noteAll? graph cyclic) (blank graph.size)

end Tally

/-- Whether a node can be released at once. -/
def isReady? (cyclic : Array Bool) (waiting : Array Nat) (node : Nat) : Option Bool := do
  if ← cyclic[node]? then return false
  let left ← waiting[node]?
  return left = 0

/-- Tells a node that one of its dependencies is released. It must wait for one. -/
def notify? (s : State) (node : Nat) : Option State := do
  match ← s.waiting[node]? with
  | 0 => none
  | left + 1 =>
      return { s with
        waiting := s.waiting.setIfInBounds node left
        ready := if left = 0 then insertReady node s.ready else s.ready }

def step? (dependents : Adjacency) (s : State) : Option State :=
  match s.ready with
  | [] => some s
  | node :: rest => do
      let told ← dependents[node]?
      told.foldlM notify? { s with ready := rest, order := node :: s.order }

/-- The nodes off the cycles in the order of their release, if no step fails and none is ready after
the last turn.
-/
def order? (graph : Adjacency) (cyclic : Array Bool) : Option (List Nat) := do
  let tally ← Tally.of? graph cyclic
  let ready ← (List.range graph.size).filterM (isReady? cyclic tally.waiting)
  let last ← repeat? (step? tally.dependents) graph.size ⟨tally.waiting, ready, []⟩
  if last.ready.isEmpty then return last.order.reverse else none

variable {graph : Adjacency} {keep : Nat → Bool} {cyclic : Array Bool} {s : State}

-----------------------------------------------------------------------------------------
-- Counting dependencies
-----------------------------------------------------------------------------------------

/-- The nodes of a graph that do not pass are those marked as cyclic. -/
def Flags (graph : Adjacency) (keep : Nat → Bool) (cyclic : Array Bool) : Prop :=
  ∀ node < graph.size, cyclic[node]? = some (!keep node)

namespace Tally

variable {tally : Tally}

/-- Notes an edge at both its ends. -/
def note (source : Nat) (tally : Tally) (target : Nat) : Tally :=
  ⟨tally.waiting.modify source (· + 1), tally.dependents.modify target (· ++ [source])⟩

def noteAll (graph : Adjacency) (tally : Tally) (source : Nat) : Tally :=
  (graph.targets source).foldl (note source) tally

/-- Both parts of a tally have a place for every node of a graph. -/
def Fits (graph : Adjacency) (tally : Tally) : Prop :=
  tally.waiting.size = graph.size ∧ tally.dependents.size = graph.size

theorem Fits.note {source target : Nat} (fits : Fits graph tally)
    : Fits graph (tally.note source target) := by
  simpa [Fits, Tally.note] using fits

/-- The edges of a node are noted as those of the graph restricted to what passes. -/
theorem noteAll?_eq {source : Nat} (graphClosed : graph.Closed) (flags : Flags graph keep cyclic)
    (fits : Fits graph tally) (inside : source < graph.size)
    : noteAll? graph cyclic tally source
        = some (noteAll (restrict graph keep) tally source)
      ∧ Fits graph (noteAll (restrict graph keep) tally source) := by
  rw [noteAll?, getElem?_eq_targets inside, flags source inside, noteAll, targets_restrict]
  cases passes : keep source with
  | false => exact ⟨rfl, fits⟩
  | true =>
      rw [if_pos rfl, List.foldl_filter]
      refine foldlM_eq_some (Fits graph) (fun t fits target edge => ?_) fits
      have ends : target < graph.size := graphClosed source target edge
      rw [note?, flags target ends]
      cases keep target with
      | false => exact ⟨rfl, fits⟩
      | true =>
          simp only [Option.bind_eq_bind, Option.bind_some, Bool.not_true, Bool.false_eq_true,
            if_false, if_true, change?_of_lt (fits.1 ▸ inside), change?_of_lt (fits.2 ▸ ends)]
          exact ⟨rfl, fits.note⟩

/-- Noting the targets of one source raises its own count alone, by induction on the targets. -/
theorem waiting_foldl_note (source : Nat) (ends : List Nat) (tally : Tally) (node : Nat)
    : (ends.foldl (note source) tally).waiting[node]?
      = tally.waiting[node]?.map (· + if source = node then ends.length else 0) := by
  induction ends generalizing tally with
  | nil => simp
  | cons head rest ih =>
      rw [List.foldl_cons, ih, note, Array.getElem?_modify]
      by_cases same : source = node
      · simp [same, Function.comp_def, Nat.add_assoc, Nat.add_comm 1]
      · simp [same]

/-- Each of several sources is counted once, by induction on them. -/
theorem waiting_foldl_noteAll {sources : List Nat} (unique : sources.Nodup) (tally : Tally)
    (node : Nat)
    : (sources.foldl (noteAll graph) tally).waiting[node]?
      = tally.waiting[node]?.map
          (· + if node ∈ sources then (graph.targets node).length else 0) := by
  induction sources generalizing tally with
  | nil => simp
  | cons source rest ih =>
      obtain ⟨absent, uniqueRest⟩ := List.nodup_cons.mp unique
      rw [List.foldl_cons, ih uniqueRest, noteAll, waiting_foldl_note]
      by_cases same : source = node
      · subst same
        simp [absent, Function.comp_def]
      · simp [same, Ne.symm same]

/-- Noting the edges of all nodes reverses them. -/
theorem dependents_foldl_noteAll (graph : Adjacency)
    : ((List.range graph.size).foldl (noteAll graph) (blank graph.size)).dependents
      = reverse graph := by
  rw [reverse]
  show _ = List.foldl _ (blank graph.size).dependents _
  refine Eq.symm (List.foldl_hom Tally.dependents fun tally source => ?_)
  exact List.foldl_hom Tally.dependents fun _ _ => rfl

theorem of?_eq (graphClosed : graph.Closed) (flags : Flags graph keep cyclic)
    : of? graph cyclic
      = some ⟨(restrict graph keep).map List.length, reverse (restrict graph keep)⟩ := by
  have noted : of? graph cyclic
      = some ((List.range graph.size).foldl (noteAll (restrict graph keep)) (blank graph.size)) :=
    (foldlM_eq_some (Fits graph)
      (fun t fits source member =>
        noteAll?_eq graphClosed flags fits (List.mem_range.mp member))
      (by simp [Fits, blank])).1
  have reversed := dependents_foldl_noteAll (restrict graph keep)
  rw [size_restrict] at reversed
  rw [noted, Option.some_inj, mk.injEq]
  refine ⟨Array.ext_getElem? fun node => ?_, reversed⟩
  rw [waiting_foldl_noteAll List.nodup_range]
  by_cases inside : node < graph.size <;> simp [blank, targets, inside]

end Tally

/-- What is ready at the start is what waits for nothing. -/
theorem isReady?_eq (flags : Flags graph keep cyclic) {node : Nat} (inside : node < graph.size)
    : isReady? cyclic ((restrict graph keep).map List.length) node
      = some (keep node && ((restrict graph keep).targets node).isEmpty) := by
  rw [isReady?, flags node inside]
  cases passes : keep node with
  | false => rfl
  | true =>
      have listed : (restrict graph keep)[node]? = some ((restrict graph keep).targets node) :=
        getElem?_eq_targets (by simpa using inside)
      cases ends : (restrict graph keep).targets node <;> simp [listed, ends]

-----------------------------------------------------------------------------------------
-- Releasing
-----------------------------------------------------------------------------------------

theorem notify?_eq {node : Nat} (waits : 0 < s.left node)
    : notify? s node = some (notify s node) := by
  obtain ⟨left, more⟩ : ∃ left, s.left node = left + 1 := Nat.exists_eq_add_one.mpr waits
  have counted : s.waiting[node]? = some (left + 1) := by
    cases found : s.waiting[node]? with
    | none => simp [State.left, found] at more
    | some count => simpa [State.left, found] using more
  rw [notify?, notify, counted]
  rfl

/-- Nodes may be told as often as they wait, by induction on them. -/
theorem notifyAll?_eq {told : List Nat} (waits : ∀ node, told.count node ≤ s.left node)
    : told.foldlM notify? s = some (told.foldl notify s) := by
  induction told generalizing s with
  | nil => rfl
  | cons head rest ih =>
      have first := waits head
      rw [List.count_cons_self] at first
      rw [List.foldlM_cons, notify?_eq (by omega), List.foldl_cons]
      exact ih (count_le_left_notify waits)

theorem Sound.step?_eq (sound : Sound graph keep s)
    : step? (reverse graph) s = some (Release.step (reverse graph) s) := by
  rw [step?, Release.step]
  cases current : s.ready with
  | nil => rfl
  | cons node rest =>
      have ready : node ∈ s.ready := by simp [current]
      obtain ⟨⟨inside, _⟩, _⟩ := (sound.ready node).mp ready
      have listed := getElem?_eq_targets ((size_reverse graph).symm ▸ inside)
      simp only [listed, Option.bind_eq_bind, Option.bind_some]
      exact notifyAll?_eq (sound.count_le_left ready)

-----------------------------------------------------------------------------------------
-- A whole release
-----------------------------------------------------------------------------------------

theorem order?_eq (graphClosed : graph.Closed) (flags : Flags graph keep cyclic)
    : order? graph cyclic = some (order graph keep) := by
  have inner : ∀ source target, (restrict graph keep).Edge source target → keep source = true :=
    fun source target edge => (edge_restrict.mp edge).1
  have ready
      : (List.range graph.size).filterM
          (isReady? cyclic ((restrict graph keep).map List.length))
        = some (start (restrict graph keep) keep).ready := by
    rw [filterM_eq_some fun node member => isReady?_eq flags (List.mem_range.mp member)]
    simp [start]
  have goesThrough
      : repeat? (step? (reverse (restrict graph keep))) graph.size
          (start (restrict graph keep) keep)
        = some (after graph keep graph.size) :=
    (repeat?_eq_some (Sound (restrict graph keep) keep)
      (fun s sound => ⟨sound.step?_eq, sound.step inner⟩) (.start _ _) graph.size).1
  have begun
      : ⟨(restrict graph keep).map List.length, (start (restrict graph keep) keep).ready, []⟩
        = start (restrict graph keep) keep := rfl
  simp only [order?, Tally.of?_eq graphClosed flags, Option.bind_eq_bind, Option.bind_some, ready,
    begun, goesThrough, ready_after]
  rfl

end Rollout.Release
