import Rollout.Proofs.Checked
import Rollout.Proofs.Graph.Termination

/-!
The component search with every access checked: nodes must be nodes of the graph, only nodes of the
path are lowered and left, and the search must be over after the steps it is given. None
of this ever fails.
-/

namespace Rollout.Components

open Adjacency Checked

namespace Search

-----------------------------------------------------------------------------------------
-- Checked steps
-----------------------------------------------------------------------------------------

/-- Marks a node, which must be one of the graph. -/
def put? (s : Search) (node : Nat) (mark : Mark) : Option Search :=
  if node < s.marks.size then some (s.put node mark) else none

def enter? (graph : Adjacency) (s : Search) (node : Nat) : Option Search := do
  let targets ← graph[node]?
  let entered ← s.put? node (.onPath s.met s.met)
  return { entered with
    met := s.met + 1
    path := node :: s.path
    frames := (node, targets) :: s.frames }

/-- Only a node of the path is lowered. -/
def lower? (s : Search) (node bound : Nat) : Option Search := do
  match ← s.marks[node]? with
  | .onPath index low => s.put? node (.onPath index (min low bound))
  | _ => none

def follow? (graph : Adjacency) (s : Search) (node target : Nat) : Option Search := do
  match ← s.marks[target]? with
  | .unmet => s.enter? graph target
  | .onPath index _ => s.lower? node index
  | .settled => return s

/-- Takes nodes off a path one by one until `node` is taken, or none is left. -/
def takeUpTo (node : Nat) : List Nat → List Nat × List Nat
  | [] => ([], [])
  | head :: rest =>
      if head = node then ([head], rest)
      else (head :: (takeUpTo node rest).1, (takeUpTo node rest).2)

def settle? (s : Search) (node : Nat) : Option Search := do
  let (members, path) := takeUpTo node s.path
  let settled ← members.foldlM (fun s member => s.put? member .settled) s
  return { settled with path, found := members :: s.found }

def pass? (s : Search) (low : Nat) : Option Search :=
  match s.frames with
  | (parent, _) :: _ => s.lower? parent low
  | [] => some s

/-- Only a node of the path is left. -/
def leave? (s : Search) (node : Nat) : Option Search := do
  match ← s.marks[node]? with
  | .onPath index low =>
      let passed ← s.pass? low
      if low = index then passed.settle? node else return passed
  | _ => none

def startAt? (graph : Adjacency) (s : Search) (root : Nat) : Option Search := do
  if (← s.marks[root]?) = .unmet then s.enter? graph root else return s

def step? (graph : Adjacency) (s : Search) : Option Search :=
  match s.frames with
  | (node, target :: rest) :: frames =>
      { s with frames := (node, rest) :: frames }.follow? graph node target
  | (node, []) :: frames => { s with frames }.leave? node
  | [] =>
      match s.roots with
      | [] => some s
      | root :: roots => { s with roots }.startAt? graph root

variable {graph : Adjacency} {s : Search} {node : Nat}

-----------------------------------------------------------------------------------------
-- No step fails
-----------------------------------------------------------------------------------------

theorem getElem?_marks (inside : node < s.marks.size) : s.marks[node]? = some (s.mark node) := by
  simp [mark, inside]

/-- Only nodes of the graph are marked as met. -/
theorem getElem?_marks_of_ne (known : s.mark node ≠ .settled)
    : s.marks[node]? = some (s.mark node) :=
  getElem?_marks (lt_of_mark_ne known)

theorem put?_eq (inside : node < s.marks.size) (mark : Mark)
    : s.put? node mark = some (s.put node mark) :=
  if_pos inside

theorem enter?_eq (size : s.marks.size = graph.size) (inside : node < graph.size)
    : s.enter? graph node = some (s.enter graph node) := by
  rw [enter?, getElem?_eq_targets inside, put?_eq (size ▸ inside)]
  rfl

theorem lower?_eq {index low : Nat} (mark : s.mark node = .onPath index low) (bound : Nat)
    : s.lower? node bound = some (s.lower node bound) := by
  have known : s.mark node ≠ .settled := by simp [mark]
  rw [lower?, getElem?_marks_of_ne known, lower, mark]
  exact put?_eq (lt_of_mark_ne known) _

theorem follow?_eq {target index low : Nat} (size : s.marks.size = graph.size)
    (mark : s.mark node = .onPath index low) (inside : target < graph.size)
    : s.follow? graph node target = some (s.follow graph node target) := by
  rw [follow?, getElem?_marks (size ▸ inside), follow]
  cases s.mark target with
  | unmet => exact enter?_eq size inside
  | onPath index _ => exact lower?_eq mark index
  | settled => rfl

theorem startAt?_eq (size : s.marks.size = graph.size) (inside : node < graph.size)
    : s.startAt? graph node = some (s.startAt graph node) := by
  rw [startAt?, getElem?_marks (size ▸ inside), Search.startAt]
  simp only [Option.bind_eq_bind, Option.bind_some]
  split
  · exact enter?_eq size inside
  · rfl

/-- What is taken off a path up to one of its nodes, by induction on what stands above it. -/
theorem takeUpTo_eq {above below : List Nat} (absent : node ∉ above)
    : takeUpTo node (above ++ node :: below) = (above ++ [node], below) := by
  induction above with
  | nil => simp [takeUpTo]
  | cons head rest ih =>
      obtain ⟨different, later⟩ := not_or.mp (mt List.mem_cons.mpr absent)
      simp [takeUpTo, Ne.symm different, ih later]

theorem settle?_eq {above below : List Nat} (path : s.path = above ++ node :: below)
    (absent : node ∉ above) (inside : ∀ other ∈ s.path, other < s.marks.size)
    : s.settle? node = some (s.settle node) := by
  obtain ⟨taken, dropped⟩ := takeWhile_ne below absent
  have settled
      : (above ++ [node]).foldlM (fun t member => put? t member .settled) s
        = some ((above ++ [node]).foldl (fun t member => t.put member .settled) s) := by
    refine (foldlM_eq_some (·.marks.size = s.marks.size) (fun t size member listed => ?_) rfl).1
    have onPath : member ∈ s.path := by
      rw [path]
      simp only [List.mem_append, List.mem_cons, List.not_mem_nil, or_false] at listed ⊢
      tauto
    exact ⟨put?_eq (size ▸ inside member onPath) _, by rw [size_put, size]⟩
  simp only [settle?, settle, path, takeUpTo_eq absent, taken, dropped, settled]
  rfl

@[simp] theorem size_pass {low : Nat} : (s.pass low).marks.size = s.marks.size := by
  unfold pass
  split <;> simp

theorem Recorded.lt_of_mem_path (recorded : Recorded graph s) (member : node ∈ s.path)
    : node < s.marks.size := by
  obtain ⟨index, low, mark⟩ := (recorded.onPath node).mp member
  exact lt_of_mark_ne (by simp [mark])

/-- The node of the latest frame stands on the path. -/
theorem Sound.exists_mark {pending : List Nat} {frames : List (Nat × List Nat)}
    (sound : Sound graph s) (current : s.frames = (node, pending) :: frames)
    : ∃ index low, s.mark node = .onPath index low := by
  have layers := sound.layers
  rw [current] at layers
  obtain ⟨above, below, path, _⟩ := layers.cut
  exact (sound.recorded.onPath node).mp (by simp [path])

/-- What is passed on goes to the node of the latest frame. -/
theorem pass?_eq
    (onPath : ∀ frame ∈ s.frames.head?, ∃ index low, s.mark frame.1 = .onPath index low)
    (low : Nat)
    : s.pass? low = some (s.pass low) := by
  cases current : s.frames with
  | nil => simp [pass?, Search.pass, current]
  | cons frame frames =>
      obtain ⟨_, _, mark⟩ := onPath frame (by simp [current])
      simpa [pass?, Search.pass, current] using lower?_eq mark low

/-- Leaving a node lowers the node of the frame below, which stands on the path, and settles nodes
of the path, which are nodes of the graph.
-/
theorem Sound.leave?_eq {frames : List (Nat × List Nat)} (sound : Sound graph s)
    (current : s.frames = (node, []) :: frames)
    : { s with frames }.leave? node = some ({ s with frames }.leave node) := by
  have recorded := sound.recorded.withFrames frames
  obtain ⟨index, low, mark⟩ := sound.exists_mark current
  have marked : { s with frames }.mark node = .onPath index low := mark
  have layers := sound.layers
  rw [current] at layers
  obtain ⟨above, below, path, _, _, restLayers⟩ := layers.cut
  have descending := sound.recorded.descending
  rw [path] at descending
  have passes : { s with frames }.pass? low = some ({ s with frames }.pass low) := by
    refine pass?_eq (fun frame latest => ?_) low
    obtain ⟨rest, rfl⟩ : ∃ rest, frames = frame :: rest := List.head?_eq_some_iff.mp latest
    obtain ⟨_, _, restPath, _⟩ := restLayers.cut
    exact (recorded.onPath frame.1).mp (by simp [path, restPath])
  have inside (other : Nat) (member : other ∈ ({ s with frames }.pass low).path)
      : other < ({ s with frames }.pass low).marks.size := by
    rw [path_pass] at member
    rw [size_pass]
    exact recorded.lt_of_mem_path member
  rw [leave?, getElem?_marks_of_ne (by simp [marked]), Search.leave, marked]
  simp only [Option.bind_eq_bind, Option.bind_some, passes]
  split
  · exact settle?_eq (by rw [path_pass, path]) descending.cut.2.1 inside
  · rfl

/-- No step of a search fails, by cases on the latest frame and the next root. Edges end at nodes of
the graph, and so do the roots that are left.
-/
theorem Sound.step?_eq (sound : Sound graph s) (graphClosed : graph.Closed)
    (roots : ∀ root ∈ s.roots, root < graph.size)
    : s.step? graph = some (s.step graph) := by
  have size := sound.recorded.size
  rw [step?, Search.step]
  match current : s.frames with
  | (node, target :: rest) :: frames =>
      obtain ⟨index, low, mark⟩ := sound.exists_mark current
      have layers := sound.layers
      rw [current] at layers
      obtain ⟨_, _, _, layer, _⟩ := layers.cut
      have edge : graph.Edge node target := layer.edges target List.mem_cons_self
      exact follow?_eq (s := { s with frames := (node, rest) :: frames }) size mark
        (graphClosed node target edge)
  | (node, []) :: frames => exact sound.leave?_eq current
  | [] =>
      match next : s.roots with
      | [] => rfl
      | root :: rest =>
          exact startAt?_eq (s := { s with roots := rest, frames := [] }) size
            (roots root (by simp [next]))

theorem roots_follow {target : Nat} : (s.follow graph node target).roots = s.roots := by
  unfold Search.follow
  split <;> simp [Search.enter, put]

theorem roots_leave : (s.leave node).roots = s.roots := by
  have pass (low : Nat) : (s.pass low).roots = s.roots := by
    unfold Search.pass
    split <;> simp
  unfold Search.leave
  split
  · split <;> simp [pass]
  · rfl

/-- No step adds a root. -/
theorem roots_step : (s.step graph).roots ⊆ s.roots := by
  unfold Search.step
  split
  · rw [roots_follow]
    exact List.Subset.refl _
  · rw [roots_leave]
    exact List.Subset.refl _
  · split
    next => exact List.Subset.refl _
    next root roots next =>
      rw [next]
      unfold Search.startAt
      split <;> exact List.subset_cons_self root roots

end Search

-----------------------------------------------------------------------------------------
-- A whole search
-----------------------------------------------------------------------------------------

/-- The components, if no step fails and nothing is left to search after the last one. -/
def find? (graph : Adjacency) : Option (List (List Nat)) := do
  let last ← repeat? (Search.step? graph) (stepCount graph) (Search.start graph)
  if last.frames.isEmpty && last.roots.isEmpty then return last.found.reverse else none

theorem find?_eq {graph : Adjacency} (graphClosed : graph.Closed)
    : find? graph = some (find graph) := by
  have goesThrough
      : repeat? (Search.step? graph) (stepCount graph) (Search.start graph)
        = some (Search.after graph (stepCount graph)) := by
    refine (repeat?_eq_some (fun s => s.Sound graph ∧ ∀ root ∈ s.roots, root < graph.size)
      (fun s held => ?_) ⟨.start graph, fun root => List.mem_range.mp⟩ (stepCount graph)).1
    obtain ⟨sound, roots⟩ := held
    exact ⟨sound.step?_eq graphClosed roots, sound.step graphClosed,
      fun root member => roots root (Search.roots_step member)⟩
  obtain ⟨frames, roots⟩ := Search.ended_after graphClosed
  simp only [find?, goesThrough, Option.bind_eq_bind, Option.bind_some, frames, roots]
  rfl

end Rollout.Components
