import Rollout.Proofs.Graph.Search

/-!
The steps of a component search. Following an edge, leaving a node and starting at a root each keep
the search sound: its marks agree with path and components, and its path falls into layers.
-/

namespace Rollout.Components

open Relation Adjacency

namespace Search

variable {graph : Adjacency} {s : Search}

/-- The invariant of a search. -/
structure Sound (graph : Adjacency) (s : Search) : Prop where
  recorded : Recorded graph s
  layers : Layers graph s.mark s.frames s.path

-----------------------------------------------------------------------------------------
-- One step
-----------------------------------------------------------------------------------------

/-- No unmet node has a place to lose. -/
theorem advances_of_unmet {node : Nat} (mark : Mark) (unmet : s.mark node = .unmet)
    : Advances s.mark (Function.update s.mark node mark) := by
  intro other bound reached
  by_cases same : other = node
  · subst other
    simp [unmet] at reached
  · simpa [same] using reached

/-- A node that was just entered is a layer of its own, with all its edges pending. -/
theorem layer_enter {marks : Nat → Mark} {node index : Nat} {below : List Nat}
    (mark : marks node = .onPath index index)
    : Layer graph marks node (graph.targets node) [] below where
  edges _ member := member
  joined := by simp
  followed member inside target edge := by
    obtain rfl := List.mem_singleton.mp inside
    exact .inl ⟨rfl, edge⟩
  low_le := by simp [mark]
  back := by simp [mark]

/-- Entering a node puts a layer of that node alone on top of the others. -/
theorem Layers.enter {marks : Nat → Mark} {node index : Nat} {below : List Nat}
    {frames : List (Nat × List Nat)} (mark : marks node = .onPath index index)
    (entered : ∀ frame ∈ frames.head?, graph.Edge frame.1 node)
    (rest : Layers graph marks frames below)
    : Layers graph marks ((node, graph.targets node) :: frames) (node :: below) :=
  have layers : Layers graph marks _ ([] ++ node :: below) := .cons (layer_enter mark) entered rest
  layers

section Follow

variable {node target : Nat} {rest : List Nat} {frames : List (Nat × List Nat)}

/-- An edge to an unmet node opens a layer for it. -/
theorem Recorded.meet (recorded : Recorded graph s)
    (layers : Layers graph s.mark ((node, target :: rest) :: frames) s.path)
    (current : s.frames = (node, rest) :: frames) (unmet : s.mark target = .unmet)
    : Sound graph (s.enter graph target) := by
  refine ⟨recorded.enter unmet fun _ => .inr, ?_⟩
  have absent : ∀ other ∈ s.path, other ≠ target := by
    intro other inside same
    subst same
    obtain ⟨_, _, mark⟩ := (recorded.onPath other).mp inside
    simp [unmet] at mark
  have kept := layers.advance (advances_of_unmet (.onPath s.met s.met) unmet)
    (fun other inside => Function.update_of_ne (absent other inside) ..)
  obtain ⟨above, below, path, layer, entered, restLayers⟩ := kept.cut
  have edge : graph.Edge node target := layer.edges target List.mem_cons_self
  have member : node ∈ s.path := by simp [path]
  rw [mark_enter (lt_of_mark_ne (by simp [unmet]))]
  refine Layers.enter (Function.update_self ..) (by simpa [current] using edge) ?_
  rw [current, path]
  refine .cons (layer.follow ?_) entered restLayers
  have low_le := layer.low_le
  have numbered := recorded.numbered node member
  rw [Function.update_of_ne (absent node member)] at low_le ⊢
  rw [Function.update_self, Mark.atLeast_onPath]
  omega

/-- An edge back to the path lowers the node it leaves. -/
theorem Recorded.turnBack {index low : Nat} (recorded : Recorded graph s)
    (layers : Layers graph s.mark ((node, target :: rest) :: frames) s.path)
    (current : s.frames = (node, rest) :: frames) (onPath : s.mark target = .onPath index low)
    : Sound graph (s.lower node index) := by
  obtain ⟨above, below, path, layer, entered, restLayers⟩ := layers.cut
  have descending := recorded.descending
  have targetInside := (recorded.onPath target).mpr ⟨index, low, onPath⟩
  rw [path] at descending targetInside
  obtain ⟨ownIndex, ownLow, mark⟩ := (recorded.onPath node).mp (by simp [path])
  have edge : graph.Edge node target := layer.edges target List.mem_cons_self
  have lowered := layer.lower descending mark targetInside (.single edge)
  rw [onPath, Mark.index_onPath] at lowered
  have advances : Advances s.mark _ := advances_lower index mark
  refine ⟨recorded.lower mark, ?_⟩
  rw [mark_lower mark, path_lower, frames_lower, current, path]
  refine .cons (lowered.follow ?_) entered (restLayers.lower index descending mark)
  apply (advances target index (by simp [onPath])).mono
  simp only [Function.update_self, Mark.low_onPath]
  omega

/-- An edge into a component needs nothing more. -/
theorem Recorded.skip (recorded : Recorded graph s)
    (layers : Layers graph s.mark ((node, target :: rest) :: frames) s.path)
    (current : s.frames = (node, rest) :: frames) (settled : s.mark target = .settled)
    : Sound graph s := by
  obtain ⟨above, below, path, layer, entered, restLayers⟩ := layers.cut
  refine ⟨recorded, ?_⟩
  rw [current, path]
  exact .cons (layer.follow (by simp [settled])) entered restLayers

/-- Following an edge keeps the invariant, by cases on where its target stands. -/
theorem Sound.follow (sound : Sound graph s)
    (current : s.frames = (node, target :: rest) :: frames)
    : Sound graph ({ s with frames := (node, rest) :: frames }.follow graph node target) := by
  have recorded := sound.recorded.withFrames ((node, rest) :: frames)
  have layers := sound.layers
  rw [current] at layers
  unfold Search.follow
  split
  next unmet => exact recorded.meet layers rfl unmet
  next index low onPath => exact recorded.turnBack layers rfl onPath
  next settled => exact recorded.skip layers rfl settled

end Follow

section Leave

variable {node index low : Nat} {frames : List (Nat × List Nat)}

@[simp] theorem path_pass : (s.pass low).path = s.path := by
  unfold pass
  split <;> simp

@[simp] theorem frames_pass : (s.pass low).frames = s.frames := by
  unfold pass
  split <;> simp

/-- Passing a low to the node below keeps marks, path and components in agreement. -/
theorem Recorded.pass {below : List Nat} (recorded : Recorded graph s)
    (layers : Layers graph s.mark s.frames below) (inside : below ⊆ s.path)
    : Recorded graph (s.pass low) := by
  unfold Search.pass
  split
  next parent pending rest current =>
    rw [current] at layers
    obtain ⟨_, _, path, _⟩ := layers.cut
    obtain ⟨_, _, mark⟩ := (recorded.onPath parent).mp (inside (by simp [path]))
    exact recorded.lower mark
  next => exact recorded

/-- A number above that of the node below passes nothing on: its low is no higher than its own
number.
-/
theorem mark_pass {below : List Nat} (layers : Layers graph s.mark s.frames below)
    (recorded : Recorded graph s) (inside : below ⊆ s.path)
    (higher : ∀ earlier ∈ below, (s.mark earlier).index < low)
    : (s.pass low).mark = s.mark := by
  unfold Search.pass
  split
  next parent pending rest current =>
    rw [current] at layers
    obtain ⟨_, _, path, layer, _⟩ := layers.cut
    have member : parent ∈ below := by simp [path]
    obtain ⟨index, parentLow, mark⟩ := (recorded.onPath parent).mp (inside member)
    have less := higher parent member
    have low_le := layer.low_le
    simp only [mark, Mark.index_onPath, Mark.low_onPath] at less low_le
    rw [mark_lower mark, Nat.min_eq_left (by omega), ← mark, Function.update_eq_self]
  next => rfl

/-- Leaving a node that leads back to none below itself closes its component. What it passes on
changes nothing, since all nodes below have lower numbers.
-/
theorem Recorded.close (recorded : Recorded graph s) (graphClosed : graph.Closed)
    (layers : Layers graph s.mark ((node, []) :: s.frames) s.path)
    (mark : s.mark node = .onPath index index)
    : Sound graph ((s.pass index).settle node) := by
  obtain ⟨above, below, path, layer, entered, restLayers⟩ := layers.cut
  have descending := recorded.descending
  rw [path] at descending
  obtain ⟨_, absent, separate⟩ := descending.cut
  have inside : below ⊆ s.path := fun other member => by simp [path, member]
  have unchanged : (s.pass index).mark = s.mark := by
    apply mark_pass restLayers recorded inside
    intro earlier member
    simpa [mark] using descending.below.1 earlier member
  have passPath : (s.pass index).path = above ++ node :: below := by rw [path_pass, path]
  obtain ⟨newPath, _, marks⟩ := settle_cut passPath absent
  refine ⟨(recorded.pass restLayers inside).settle graphClosed passPath ?_ ?_, ?_⟩
  · rwa [unchanged]
  · simp [unchanged, mark]
  · rw [newPath, frames_settle, frames_pass]
    refine restLayers.advance ?_ ?_
    · intro other bound reached
      rw [marks, unchanged]
      split
      · trivial
      · exact reached
    · intro other member
      rw [marks, unchanged, if_neg (separate other member)]

/-- Leaving a node that leads back further joins its layer to the one below. -/
theorem Recorded.merge (recorded : Recorded graph s)
    (layers : Layers graph s.mark ((node, []) :: s.frames) s.path)
    (mark : s.mark node = .onPath index low) (further : low ≠ index)
    : Sound graph (s.pass low) := by
  obtain ⟨above, below, path, layer, entered, restLayers⟩ := layers.cut
  have descending := recorded.descending
  rw [path] at descending
  have descendingBelow := descending.below.2
  have inside : below ⊆ s.path := fun other member => by simp [path, member]
  obtain ⟨earlier, member, same, leads⟩ : ∃ earlier ∈ below,
      (s.mark earlier).index = low ∧ ReflTransGen graph.Edge node earlier := by
    simpa [mark, further] using layer.back
  cases current : s.frames with
  | nil =>
      rw [current] at restLayers
      cases restLayers
      cases member
  | cons frame frames =>
      obtain ⟨parent, pending⟩ := frame
      rw [current] at restLayers entered
      have entry : graph.Edge parent node := entered _ rfl
      have returns : ReflTransGen graph.Edge node parent :=
        leads.trans (restLayers.leads_top _ rfl earlier member)
      obtain ⟨aboveParent, belowParent, pathBelow, layerBelow, enteredBelow, deepest⟩ :=
        restLayers.cut
      subst pathBelow
      obtain ⟨parentIndex, parentLow, parentMark⟩ :=
        (recorded.onPath parent).mp (inside (by simp))
      have lowered := layerBelow.lower descendingBelow parentMark member (.head entry leads)
      rw [same] at lowered
      have advances : Advances s.mark _ := advances_lower low parentMark
      have joined := lowered.absorb layer advances entry returns (by
        simp only [Function.update_self, mark, Mark.low_onPath]
        omega)
      have kept := deepest.lower low descendingBelow parentMark
      have passes : s.pass low = s.lower parent low := by simp [Search.pass, current]
      rw [passes]
      refine ⟨recorded.lower parentMark, ?_⟩
      rw [mark_lower parentMark, frames_lower, path_lower, current, path]
      simpa using Layers.cons joined enteredBelow kept

/-- Leaving a node keeps the invariant, by cases on how far it leads back. -/
theorem Sound.leave (sound : Sound graph s) (graphClosed : graph.Closed)
    (current : s.frames = (node, []) :: frames)
    : Sound graph ({ s with frames }.leave node) := by
  have recorded := sound.recorded.withFrames frames
  have layers := sound.layers
  rw [current] at layers
  have inside : node ∈ s.path := by
    obtain ⟨above, below, path, _⟩ := layers.cut
    simp [path]
  obtain ⟨index, low, mark⟩ := (sound.recorded.onPath node).mp inside
  have marked : { s with frames }.mark node = .onPath index low := mark
  unfold Search.leave
  rw [marked]
  by_cases root : low = index
  · subst low
    simpa using recorded.close graphClosed layers mark
  · simpa [root] using recorded.merge layers mark root

end Leave

/-- A node that was met already is passed over as a root. -/
theorem Recorded.skipRoot {root : Nat} {roots : List Nat} (recorded : Recorded graph s)
    (next : s.roots = root :: roots) (met : s.mark root ≠ .unmet)
    : Recorded graph { s with roots } := by
  refine ⟨recorded.size, recorded.onPath, recorded.descending, recorded.numbered,
    recorded.settled, recorded.unique, recorded.condensed, ?_⟩
  intro node unmet
  have listed := recorded.unmet node unmet
  rw [next] at listed
  rcases List.mem_cons.mp listed with rfl | listed
  · exact absurd unmet met
  · exact listed

/-- Starting at a root keeps the invariant: no frame is open, so the path is empty and an unmet root
is a layer of its own.
-/
theorem Sound.startAt {root : Nat} {roots : List Nat} (sound : Sound graph s)
    (current : s.frames = []) (next : s.roots = root :: roots)
    : Sound graph ({ s with roots }.startAt graph root) := by
  have layers := sound.layers
  rw [current] at layers
  have path : s.path = [] := layers.path_nil
  unfold Search.startAt
  split
  next unmet =>
    refine ⟨sound.recorded.enter unmet (by simp [next]), ?_⟩
    rw [mark_enter (lt_of_mark_ne (by simp [unmet]))]
    have alone : ({ s with roots }.enter graph root).path = [root] := by
      simp [Search.enter, path]
    have frame : ({ s with roots }.enter graph root).frames = [(root, graph.targets root)] := by
      simp [Search.enter, current]
    rw [alone, frame]
    exact Layers.enter (Function.update_self ..) (by simp) .nil
  next met =>
    rw [← current] at layers
    exact ⟨sound.recorded.skipRoot next met, layers⟩

/-- Every step keeps the invariant, by cases on the latest frame and the next root. -/
theorem Sound.step (sound : Sound graph s) (graphClosed : graph.Closed)
    : Sound graph (s.step graph) := by
  unfold Search.step
  split
  next node target rest frames current => exact sound.follow current
  next node frames current => exact sound.leave graphClosed current
  next current =>
    split
    next => exact sound
    next root roots next => exact sound.startAt current next

/-- A search that has not begun has met no node of the graph. -/
theorem mark_start (node : Nat)
    : (start graph).mark node = if node < graph.size then .unmet else .settled := by
  by_cases inside : node < graph.size <;> simp [start, Search.mark, inside]

/-- The invariant holds before the first step. -/
theorem Sound.start (graph : Adjacency) : Sound graph (Search.start graph) := by
  refine ⟨⟨by simp [Search.start], ?_, .nil, ?_, ?_, .nil, .nil, ?_⟩, .nil⟩
  · intro node
    rw [mark_start]
    by_cases inside : node < graph.size <;> simp [Search.start, inside]
  · intro node member
    cases member
  · intro node
    rw [mark_start]
    by_cases inside : node < graph.size <;> simp [Search.start, inside]
  · intro node unmet
    rw [mark_start] at unmet
    by_cases inside : node < graph.size
    · simpa [Search.start] using inside
    · simp [inside] at unmet

end Search

end Rollout.Components
