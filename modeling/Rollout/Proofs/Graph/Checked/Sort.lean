import Rollout.Proofs.Graph.Checked.Release
import Rollout.Proofs.Graph.Checked.Search
import Rollout.Proofs.Graph.Condensation
import Rollout.Proofs.Graph.Sort
import Rollout.Proofs.Graph.Turns

/-!
Sorting with every access checked: components must have a first member, and what is reported or
ordered must have a key. A sort never fails, and its release ends after one turn for each node at
most, with the counters at each turn those of the dependencies that are left.
-/

namespace Rollout.Graph

open Adjacency Checked

universe u

-----------------------------------------------------------------------------------------
-- Checked sorting
-----------------------------------------------------------------------------------------

/-- Whether a component is a cycle; it must have a first member. -/
def isCycle? (graph : Adjacency) (component : List Nat) : Option Bool := do
  let first ← component.head?
  if component.length ≠ 1 then return true
  let targets ← graph[first]?
  return targets.contains first

/-- The nodes marked as members of cycles, and what is reported for them. -/
structure Reported where
  cyclic : Array Bool
  members : SortedMap Nat (List Nat)

def mark? (nodes : List Nat) (cyclic : Array Bool) : Option (Array Bool) :=
  nodes.foldlM (fun cyclic node => change? cyclic node fun _ => true) cyclic

/-- Reports for each of these nodes the others, and itself if it has an edge to itself. -/
def report? (graph : Adjacency) (nodes : List Nat) (members : SortedMap Nat (List Nat))
    : Option (SortedMap Nat (List Nat)) :=
  nodes.foldlM (fun members node => do
    let targets ← graph[node]?
    return members.insert node (nodes.filter fun other =>
      other ≠ node || targets.contains node)) members

/-- Marks and reports the members of a component, if it is a cycle. -/
def Reported.add? (graph : Adjacency) (reported : Reported) (component : List Nat)
    : Option Reported := do
  if ← isCycle? graph component then
    let ascending := (SortedMap.ofKeys component).keys
    let cyclic ← mark? ascending reported.cyclic
    let members ← report? graph ascending reported.members
    return ⟨cyclic, members⟩
  else return reported

def Reported.blank (size : Nat) : Reported :=
  ⟨.replicate size false, .empty⟩

def Reported.of? (graph : Adjacency) : Option Reported := do
  let components ← Components.find? graph
  components.foldlM (add? graph) (blank graph.size)

variable {κ : Type u} [Ord κ]

/-- Orders a graph, if no access fails. -/
def sort? (graph : Graph κ) : Option (Sorted κ) :=
  let keys := graph.nodes.keys.toArray
  (Reported.of? graph.adjacency).bind fun reported =>
    (Release.order? graph.adjacency reported.cyclic).bind fun places => do
      let order ← places.mapM (keys[·]?)
      let cycles ← reported.members.entries.mapM fun (place, others) => do
        let node ← keys[place]?
        let dependsOn ← others.mapM (keys[·]?)
        return (⟨node, dependsOn⟩ : CycleMember κ)
      return ⟨order, cycles⟩

-----------------------------------------------------------------------------------------
-- Reporting never fails
-----------------------------------------------------------------------------------------

section Reporting

variable {graph : Adjacency} {reported : Reported} {component : List Nat}

/-- Whether a component is a cycle. -/
def isCycle (graph : Adjacency) : List Nat → Bool
  | [node] => (graph.targets node).contains node
  | _ => true

theorem isCycle?_eq (nonempty : component ≠ []) (inside : ∀ node ∈ component, node < graph.size)
    : isCycle? graph component = some (isCycle graph component) := by
  match component with
  | [] => exact absurd rfl nonempty
  | [node] => simp [isCycle?, isCycle, getElem?_eq_targets (inside node List.mem_cons_self)]
  | _ :: _ :: _ => simp [isCycle?, isCycle]

def mark (nodes : List Nat) (cyclic : Array Bool) : Array Bool :=
  nodes.foldl (fun cyclic node => cyclic.modify node fun _ => true) cyclic

def report (graph : Adjacency) (nodes : List Nat) (members : SortedMap Nat (List Nat))
    : SortedMap Nat (List Nat) :=
  nodes.foldl (fun members node =>
    members.insert node (nodes.filter fun other =>
      other ≠ node || (graph.targets node).contains node)) members

/-- Marking nodes marks them and no others, by induction on the nodes. -/
theorem getElem?_mark (nodes : List Nat) (cyclic : Array Bool) (node : Nat)
    : (mark nodes cyclic)[node]? = cyclic[node]?.map (· || nodes.contains node) := by
  induction nodes generalizing cyclic with
  | nil => simp [mark]
  | cons head rest ih =>
      rw [mark, List.foldl_cons]
      refine (ih (cyclic.modify head fun _ => true)).trans ?_
      rw [Array.getElem?_modify]
      by_cases same : head = node
      · simp [same, Function.comp_def]
      · simp [same, Ne.symm same]

theorem mark?_eq {nodes : List Nat} {cyclic : Array Bool}
    (inside : ∀ node ∈ nodes, node < cyclic.size)
    : mark? nodes cyclic = some (mark nodes cyclic) := by
  refine (foldlM_eq_some (·.size = cyclic.size) (fun marked size node member => ?_) rfl).1
  exact ⟨change?_of_lt (size ▸ inside node member) _, by rw [Array.size_modify, size]⟩

theorem report?_eq {nodes : List Nat} (inside : ∀ node ∈ nodes, node < graph.size)
    (members : SortedMap Nat (List Nat))
    : report? graph nodes members = some (report graph nodes members) := by
  refine (foldlM_eq_some (fun _ => True) (fun members _ node member => ?_) trivial).1
  rw [getElem?_eq_targets (inside node member)]
  exact ⟨rfl, trivial⟩

namespace Reported

/-- Marks and reports the members of a component. -/
def add (graph : Adjacency) (reported : Reported) (component : List Nat) : Reported :=
  let ascending := (SortedMap.ofKeys component).keys
  ⟨mark ascending reported.cyclic, report graph ascending reported.members⟩

/-- Exactly the nodes that something is reported for are marked. -/
def Agrees (graph : Adjacency) (reported : Reported) : Prop :=
  ∀ node < graph.size, reported.cyclic[node]? = some (reported.members.contains node)

theorem Agrees.lt (agrees : Agrees graph reported) {node : Nat} (inside : node < graph.size)
    : node < reported.cyclic.size :=
  (Array.getElem?_eq_some_iff.mp (agrees node inside)).1

theorem Agrees.add (agrees : Agrees graph reported)
    : Agrees graph (reported.add graph component) := by
  intro node inside
  rw [Reported.add, getElem?_mark, agrees node inside, Option.map_some, Option.some_inj,
    Bool.eq_iff_iff]
  simp only [report, Bool.or_eq_true, SortedMap.contains_iff, SortedMap.mem_keys_foldl_insertKeys,
    List.contains_iff_mem, or_comm]

def next (graph : Adjacency) (reported : Reported) (component : List Nat) : Reported :=
  if isCycle graph component then reported.add graph component else reported

theorem add?_eq (agrees : Agrees graph reported) (nonempty : component ≠ [])
    (inside : ∀ node ∈ component, node < graph.size)
    : add? graph reported component = some (reported.next graph component)
      ∧ Agrees graph (reported.next graph component) := by
  have listed (node : Nat) (member : node ∈ (SortedMap.ofKeys component).keys)
      : node < graph.size :=
    inside node (SortedMap.mem_keys_ofKeys.mp member)
  rw [add?, isCycle?_eq nonempty inside, next]
  cases isCycle graph component with
  | false => exact ⟨rfl, agrees⟩
  | true =>
      simp only [Option.bind_eq_bind, Option.bind_some, if_true,
        mark?_eq fun node member => agrees.lt (listed node member), report?_eq listed]
      exact ⟨rfl, agrees.add⟩

/-- Nothing is reported at first, and nothing is marked. -/
theorem Agrees.blank (graph : Adjacency) : Agrees graph (blank graph.size) := by
  intro node inside
  simp [Reported.blank, inside, SortedMap.contains]

/-- Reporting the cycles among all components reports what the cycles' members are told of. -/
theorem members_foldl_next (graph : Adjacency)
    : ((Components.find graph).foldl (next graph) (blank graph.size)).members
      = cycleMembers graph := by
  have filtered
      : cycleMembers graph
        = ((Components.find graph).filter (isCycle graph)).foldl
            (fun members component => report graph (SortedMap.ofKeys component).keys members)
            (blank graph.size).members := rfl
  rw [filtered, List.foldl_filter]
  refine Eq.symm (List.foldl_hom Reported.members fun reported component => ?_)
  rw [next]
  split <;> rfl

/-- Going through all components reports what is reported for the cycles among them. -/
theorem of?_eq (graphClosed : graph.Closed)
    : ∃ cyclic, of? graph = some ⟨cyclic, cycleMembers graph⟩
        ∧ Agrees graph ⟨cyclic, cycleMembers graph⟩ := by
  obtain ⟨goesThrough, agrees⟩
      : (Components.find graph).foldlM (add? graph) (blank graph.size)
          = some ((Components.find graph).foldl (next graph) (blank graph.size))
        ∧ Agrees graph ((Components.find graph).foldl (next graph) (blank graph.size)) := by
    refine foldlM_eq_some (Agrees graph) (fun reported agrees component member => ?_)
      (.blank graph)
    have inside (node : Nat) (listed : node ∈ component) : node < graph.size :=
      (Components.exists_mem_find_iff graphClosed).mp ⟨component, member, listed⟩
    have nonempty : component ≠ [] := by
      obtain ⟨found, same, condensed, _⟩ := Components.find_eq graphClosed
      rw [same, List.mem_reverse] at member
      exact condensed.nonempty member
    exact add?_eq agrees nonempty inside
  refine ⟨((Components.find graph).foldl (next graph) (blank graph.size)).cyclic, ?_, ?_⟩
  · rw [of?, Components.find?_eq graphClosed, ← members_foldl_next]
    exact goesThrough
  · rw [← members_foldl_next]
    exact agrees

end Reported

end Reporting

-----------------------------------------------------------------------------------------
-- Sorting never fails
-----------------------------------------------------------------------------------------

theorem exists_getElem?_keys {graph : Graph κ} {place : Nat} (inside : place < graph.adjacency.size)
    : ∃ key, graph.nodes.keys.toArray[place]? = some key := by
  simpa only [List.getElem?_toArray, Place] using exists_key inside

/-- Places are named without a failure. -/
theorem mapM_getElem? {graph : Graph κ} {places : List Nat}
    (inside : ∀ place ∈ places, place < graph.adjacency.size)
    : places.mapM (graph.nodes.keys.toArray[·]?)
      = some (places.filterMap (graph.nodes.keys.toArray[·]?)) := by
  refine mapM_eq_some fun place member => ?_
  obtain ⟨key, found⟩ := exists_getElem?_keys (inside place member)
  exact ⟨key, found, found⟩

/-- Only places are reported, each with places. -/
theorem lt_of_mem_cycleMembers {graph : Adjacency} (graphClosed : graph.Closed) {node : Nat}
    {others : List Nat} (reported : (node, others) ∈ (cycleMembers graph).entries)
    : node < graph.size ∧ ∀ other ∈ others, other < graph.size := by
  have found := SortedMap.get?_eq_some_iff.mpr reported
  have cycle := (mem_keys_cycleMembers graphClosed).mp (SortedMap.mem_keys_iff.mpr ⟨_, found⟩)
  refine ⟨cycle.lt, fun other listed => ?_⟩
  have joined := (((cycleMembers_spec graphClosed found).2 other).mp listed).1
  by_cases same : other = node
  · exact same ▸ cycle.lt
  · have cycle : graph.OnCycle other := joined.symm.cycle same
    exact cycle.lt

theorem sort?_eq [Std.TransOrd κ] [Std.LawfulEqOrd κ] (graph : Graph κ)
    : graph.sort? = some graph.sort := by
  obtain ⟨cyclic, reported, agrees⟩ := Reported.of?_eq (adjacency_closed graph)
  have flags : Release.Flags graph.adjacency graph.passes cyclic := by
    intro node inside
    simpa [passes] using agrees node inside
  have released := Release.order?_eq (adjacency_closed graph) flags
  have order
      : (Release.order graph.adjacency graph.passes).mapM (graph.nodes.keys.toArray[·]?)
        = some graph.sort.order :=
    mapM_getElem? fun place member => (mem_released_iff.mp member).1
  have cycles
      : ((cycleMembers graph.adjacency).entries.mapM fun (place, others) => do
          let node ← graph.nodes.keys.toArray[place]?
          let dependsOn ← others.mapM (graph.nodes.keys.toArray[·]?)
          return (⟨node, dependsOn⟩ : CycleMember κ))
        = some graph.sort.cycles := by
    refine mapM_eq_some fun entry member => ?_
    obtain ⟨place, others⟩ := entry
    obtain ⟨inside, othersInside⟩ := lt_of_mem_cycleMembers (adjacency_closed graph) member
    obtain ⟨key, found⟩ := exists_getElem?_keys inside
    simp only [found, mapM_getElem? othersInside]
    exact ⟨_, rfl, rfl⟩
  simp only [sort?, reported, released, Option.bind_some]
  rw [order, cycles]
  rfl

-----------------------------------------------------------------------------------------
-- The turns of a sort
-----------------------------------------------------------------------------------------

/-- The release of a graph's nodes off the cycles, after so many turns. -/
def release (graph : Graph κ) (turns : Nat) : Release.State :=
  Release.after graph.adjacency graph.passes turns

/-- The places that are ready at the start or become so in as many turns, each as often as it does.
-/
def entered (graph : Graph κ) (turns : Nat) : List Nat :=
  Release.entered graph.adjacency graph.passes turns

/-- A sort never fails: no access misses, no component is empty, and no node is told of a release
that does not wait for one. At each turn a node off the cycles waits for just as many nodes as it
depends on that are off the cycles too and not released. No node becomes ready twice, and the turns
end once none is ready, which takes no more of them than there are nodes.
-/
theorem sort_never_fails [Std.TransOrd κ] [Std.LawfulEqOrd κ] (graph : Graph κ)
    : graph.sort? = some graph.sort
      ∧ (∀ turns place, ¬graph.adjacency.OnCycle place →
          (graph.release turns).left place
          = {target | graph.adjacency.Edge place target ∧ ¬graph.adjacency.OnCycle target
              ∧ target ∉ (graph.release turns).order}.ncard)
      ∧ (∀ turns,
          (graph.entered turns).Nodup
          ∧ (graph.entered turns).Perm
              ((graph.release turns).ready ++ (graph.release turns).order))
      ∧ ∃ turns ≤ graph.nodeCount,
          (∀ earlier < turns, (graph.release earlier).ready ≠ [])
          ∧ (graph.release turns).ready = []
          ∧ graph.sort.order = graph.nameAll (graph.release turns).order.reverse := by
  refine ⟨sort?_eq graph, fun turns place free => ?_, fun turns => ?_, ?_⟩
  · simp only [← passes_iff] at free ⊢
    exact Release.left_after (nodup_targets_adjacency graph place) free turns
  · exact ⟨Release.nodup_entered _ _ turns, Release.entered_perm _ _ turns⟩
  · obtain ⟨turns, bound, busy, done, released⟩ :=
      Release.exists_last_turn graph.adjacency graph.passes
    refine ⟨turns, ?_, busy, done, ?_⟩
    · simpa [adjacency, nodeCount, SortedMap.keys, SortedMap.size] using bound
    · rw [sort_order, Graph.released, released]
      rfl

/-- The node 4 waits for 5 alone, since 1, which it depends on too, lies on a cycle. -/
theorem sort_never_fails_bridged
    : bridged.sort? = some bridged.sort
      ∧ bridged.Place 3 4
      ∧ {target | bridged.adjacency.Edge 3 target ∧ ¬bridged.adjacency.OnCycle target
          ∧ target ∉ (bridged.release 0).order}.ncard = 1
      ∧ bridged.entered 2 = [4, 3] ∧ (bridged.entered 2).Nodup := by
  obtain ⟨through, waits, entered, _⟩ := sort_never_fails bridged
  have free : ¬bridged.adjacency.OnCycle 3 := passes_iff.mp (by decide +kernel)
  refine ⟨through, by unfold Place; decide +kernel, ?_, by decide +kernel, (entered 2).1⟩
  rw [← waits 0 3 free]
  decide +kernel

end Rollout.Graph
