import Mathlib.Data.List.Sort
import Mathlib.Data.String.Basic
import Mathlib.Tactic.MkIffOfInductiveProp
import Rollout.Disk
import Rollout.Proofs.Path.Parent

/-!
What the list of definition files in a directory names. Entry names are joined to the path of the
directory, and joining reads a backslash as a slash. So the list names the files of the directory,
one path each, as long as none of their names holds a backslash; such a file is listed under a path
that leads elsewhere.
-/

namespace Rollout

open Rollout.Path

variable {directory path : Path} {name other : String}

-----------------------------------------------------------------------------------------
-- Entries of a directory
-----------------------------------------------------------------------------------------

/-- A name that a directory can hold. -/
@[mk_iff]
structure IsEntryName (name : String) : Prop where
  nonempty : name ≠ ""
  notHere : name ≠ "."
  notUp : name ≠ ".."
  noSlash : '/' ∉ name.toList

instance : DecidablePred IsEntryName :=
  fun name => decidable_of_iff _ (isEntryName_iff name).symm

/-- Only a backslash can keep the name of an entry from being a segment of a path. -/
theorem IsEntryName.isName (entry : IsEntryName name) (plain : '\\' ∉ name.toList)
    : IsName name.toList where
  nonempty := String.toList_eq_nil_iff.not.mpr entry.nonempty
  notHere same := entry.notHere (String.toList_inj.mp same)
  notUp same := entry.notUp (String.toList_inj.mp same)
  noSlash := entry.noSlash
  noBackslash := plain

/-- The path leads to the entry of the directory with that name, wherever one starts. -/
def Names (directory path : Path) (name : String) : Prop :=
  ∀ base, walk base path = walk base directory ++ [name.toList]

/-- A path names one entry at most. -/
theorem Names.unique (names : Names directory path name) (others : Names directory path other)
    : name = other := by
  have same := (names []).symm.trans (others [])
  exact String.toList_inj.mp (List.singleton_inj.mp (List.append_cancel_left same))

theorem names_join_of_isName (clean : Clean directory) (named : IsName name.toList)
    : Names directory (directory.join name) name := by
  intro base
  have onward := leads_ofList named.nonempty named.noSlash named.noBackslash (walk base directory)
  rw [String.ofList_toList] at onward
  rw [clean.walk_join, onward, step_of_descends named.descends]

/-- No path leads to a segment with a backslash, unless one starts below it. -/
theorem backslash_not_mem_walk (clean : Clean path) {s : Segment} (passed : s ∈ walk [] path)
    : '\\' ∉ s := by
  cases clean with
  | empty => cases passed
  | rooted proper =>
      rw [walk_rooted proper] at passed
      exact (proper s passed).noBackslash
  | relative climbs proper =>
      rw [walk_relative proper, List.take_nil, List.nil_append] at passed
      exact (proper s passed).noBackslash

theorem Names.backslash_not_mem (clean : Clean path) (names : Names directory path name)
    : '\\' ∉ name.toList :=
  backslash_not_mem_walk clean (by simp [names []])

/-- So the names that paths name have no backslashes, by induction on the paths. -/
theorem backslash_not_mem_of_forall₂ {paths : List Path} {listed : List String}
    (cleaned : ∀ p ∈ paths, Clean p) (names : List.Forall₂ (Names directory) paths listed)
    : ∀ name ∈ listed, '\\' ∉ name.toList := by
  induction names with
  | nil => exact List.forall_mem_nil _
  | cons named _ ih =>
      obtain ⟨clean, later⟩ := List.forall_mem_cons.mp cleaned
      exact List.forall_mem_cons.mpr ⟨named.backslash_not_mem clean, ih later⟩

-----------------------------------------------------------------------------------------
-- The list of definition files
-----------------------------------------------------------------------------------------

namespace Disk

variable {children : List (String × Entry)}

/-- The names of the definition files among the entries of a directory. -/
def definitionNames (children : List (String × Entry)) : List String :=
  (children.filter fun e => !e.2.isDirectory && FileFormat.isYamlName e.1).map Prod.fst

/-- These names, in the order of the texts of their paths. -/
def orderedNames (directory : Path) (children : List (String × Entry)) : List String :=
  (definitionNames children).mergeSort fun a b => (directory.join a).text ≤ (directory.join b).text

theorem orderedNames_perm (directory : Path) (children : List (String × Entry))
    : (orderedNames directory children).Perm (definitionNames children) :=
  List.mergeSort_perm _ _

theorem definitionPaths_eq (directory : Path) (children : List (String × Entry))
    : definitionPaths directory children
      = (orderedNames directory children).map directory.join := by
  have sorted := List.map_mergeSort (f := directory.join) (l := definitionNames children)
    (r := fun a b => (directory.join a).text ≤ (directory.join b).text)
    (s := fun p q => p.text ≤ q.text) fun _ _ _ _ => rfl
  rw [orderedNames, sorted, definitionNames, List.map_map]
  rfl

theorem clean_of_mem_definitionPaths (clean : Clean directory) (children : List (String × Entry))
    : ∀ p ∈ definitionPaths directory children, Clean p := by
  intro p member
  rw [definitionPaths_eq] at member
  obtain ⟨name, _, rfl⟩ := List.mem_map.mp member
  exact clean.join name

theorem definitionPaths_ascending (directory : Path) (children : List (String × Entry))
    : (definitionPaths directory children).Pairwise (·.text ≤ ·.text) := by
  have transitive (p q r : Path) (before : decide (p.text ≤ q.text) = true)
      (after : decide (q.text ≤ r.text) = true)
      : decide (p.text ≤ r.text) = true :=
    decide_eq_true (String.le_trans (of_decide_eq_true before) (of_decide_eq_true after))
  have total (p q : Path) : (decide (p.text ≤ q.text) || decide (q.text ≤ p.text)) = true := by
    simpa using String.le_total p.text q.text
  have sorted := List.pairwise_mergeSort transitive total
    ((children.filter fun e => !e.2.isDirectory && FileFormat.isYamlName e.1).map
      fun e => directory.join e.1)
  exact sorted.imp of_decide_eq_true

/-- Names without backslashes are joined to different paths. -/
theorem nodup_definitionPaths (clean : Clean directory)
    (unique : (definitionNames children).Nodup)
    (named : ∀ name ∈ definitionNames children, IsName name.toList)
    : (definitionPaths directory children).Nodup := by
  rw [definitionPaths_eq]
  have order := orderedNames_perm directory children
  refine List.Nodup.map_on (fun a memberA b memberB same => ?_) (order.nodup_iff.mpr unique)
  have namesA := names_join_of_isName clean (named a (order.mem_iff.mp memberA))
  exact (same ▸ namesA).unique (names_join_of_isName clean (named b (order.mem_iff.mp memberB)))

/-- Where no path is listed twice, each text comes strictly after those before it, since a clean
path is known by its text.
-/
theorem definitionPaths_strictly_ascending (clean : Clean directory)
    (unique : (definitionPaths directory children).Nodup)
    : (definitionPaths directory children).Pairwise (·.text < ·.text) := by
  have cleaned := clean_of_mem_definitionPaths clean children
  refine ((definitionPaths_ascending directory children).and unique).imp_of_mem ?_
  rintro p q memberP memberQ ⟨le, different⟩
  refine lt_of_le_of_ne le fun same => different ?_
  rw [← (cleaned p memberP).ofText_text, same, (cleaned q memberQ).ofText_text]

/-- The list names the definition files of a directory: its paths are in strictly ascending order,
and they name the files one by one, in some order of the files.
-/
def ListsFiles (directory : Path) (children : List (String × Entry)) (paths : List Path) : Prop :=
  paths.Pairwise (·.text < ·.text)
  ∧ ∃ listed, listed.Perm (definitionNames children)
    ∧ List.Forall₂ (Names directory) paths listed

theorem listsFiles_of_named (clean : Clean directory) (unique : (definitionNames children).Nodup)
    (named : ∀ name ∈ definitionNames children, IsName name.toList)
    : ListsFiles directory children (definitionPaths directory children) := by
  have order := orderedNames_perm directory children
  refine ⟨definitionPaths_strictly_ascending clean (nodup_definitionPaths clean unique named),
    orderedNames directory children, order, ?_⟩
  rw [definitionPaths_eq, List.forall₂_map_left_iff, List.forall₂_same]
  exact fun name member => names_join_of_isName clean (named name (order.mem_iff.mp member))

/-- The definition files of a directory are always listed in ascending order, with one path for each
and none for anything else. The list names these files, each by its own path, exactly if none of
their names holds a backslash. Names are texts here, as in the whole tree: nothing is said of a file
whose name is not UTF-8.
-/
theorem definitionFiles_listed_iff {disk : Disk} (clean : Clean directory)
    (located : disk.locate directory = .ok (.directory children))
    (distinct : (children.map Prod.fst).Nodup) (proper : ∀ e ∈ children, IsEntryName e.1)
    : ∃ paths, disk.definitionFiles directory = .ok paths
        ∧ paths.Pairwise (·.text ≤ ·.text)
        ∧ paths.length = (definitionNames children).length
        ∧ (ListsFiles directory children paths
          ↔ ∀ name ∈ definitionNames children, '\\' ∉ name.toList) := by
  refine ⟨definitionPaths directory children, ?listed, definitionPaths_ascending directory children,
    ?count, ?faithful, ?plain⟩
  case listed => rw [definitionFiles, located]
  case count =>
    rw [definitionPaths_eq, List.length_map, (orderedNames_perm directory children).length_eq]
  case faithful =>
    rintro ⟨_, listed, order, names⟩ name member
    have cleaned := clean_of_mem_definitionPaths clean children
    exact backslash_not_mem_of_forall₂ cleaned names name (order.mem_iff.mpr member)
  case plain =>
    intro plain
    refine listsFiles_of_named clean ?_ fun name member => ?_
    · exact distinct.sublist (List.filter_sublist.map Prod.fst)
    · obtain ⟨e, among, rfl⟩ := List.mem_map.mp member
      exact (proper e (List.mem_filter.mp among).1).isName (plain e.1 member)

/-- A directory with definition files and other entries. -/
def mixed : List (String × Entry) :=
  [("b.yml", .text "configs:"), (".a.YAML", .binary), ("old.yaml", .directory []),
    ("x.json", .text "")]

/-- A directory with two files, the name of the first of which climbs over itself if it is read as a
path.
-/
def entangled : List (String × Entry) :=
  [("x\\..\\a.yaml", .text "configs:"), ("a.yaml", .text "")]

/-- The tree that holds these entries in one directory. -/
def holding (children : List (String × Entry)) : Disk :=
  ⟨.directory [("shop", .directory children)], []⟩

theorem locate_holding (children : List (String × Entry))
    : (holding children).locate (ofText "shop") = .ok (.directory children) :=
  rfl

/-- Capital letters and a dot in front make no difference; a directory is no file. -/
theorem definitionFiles_listed_mixed
    : ∃ paths, (holding mixed).definitionFiles (ofText "shop") = .ok paths
        ∧ definitionNames mixed = ["b.yml", ".a.YAML"]
        ∧ ListsFiles (ofText "shop") mixed paths := by
  have names : definitionNames mixed = ["b.yml", ".a.YAML"] := by decide
  obtain ⟨paths, listed, _, _, faithful⟩ := definitionFiles_listed_iff (clean_ofText "shop")
    (locate_holding mixed) (by decide) (by decide)
  refine ⟨paths, listed, names, faithful.mpr ?_⟩
  rw [names]
  decide

/-- Both files are listed under the path of the second. -/
theorem not_listed_entangled
    : (∀ e ∈ entangled, IsEntryName e.1)
      ∧ (holding entangled).definitionFiles (ofText "shop")
        = .ok [ofText "shop/a.yaml", ofText "shop/a.yaml"]
      ∧ ¬ListsFiles (ofText "shop") entangled [ofText "shop/a.yaml", ofText "shop/a.yaml"] := by
  have files : (definitionNames entangled).map (ofText "shop").join
      = List.replicate 2 (ofText "shop/a.yaml") := by
    decide
  have paths : definitionPaths (ofText "shop") entangled
      = List.replicate 2 (ofText "shop/a.yaml") := by
    rw [definitionPaths_eq, ← List.perm_replicate, ← files]
    exact (orderedNames_perm _ _).map _
  refine ⟨by decide, ?_, fun lists => absurd lists.1 (by decide)⟩
  rw [definitionFiles, locate_holding]
  exact congrArg _ paths

end Disk

end Rollout
