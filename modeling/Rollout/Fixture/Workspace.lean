import Rollout.Disk
import Rollout.Fixture.DefinitionText
import Rollout.Text.Blank

/-!
A deployment directory built up file by file: a manifest at its root and one directory a project.
-/

namespace Rollout.Fixture

/-- A directory in an otherwise empty file tree. -/
structure Workspace where
  tree : Entry
deriving Inhabited

namespace Workspace

/-- Where the workspace lies in its tree. -/
def root : List Segment :=
  [['w', 'o', 'r', 'k', 's', 'p', 'a', 'c', 'e']]

def empty : Workspace :=
  ⟨(Entry.directory []).write (.directory []) root⟩

/-- The place of a path that starts in the workspace. Only a slash divides it. -/
def place (path : String) : List Segment :=
  Path.walkText root path.toList

def manifestPath : String :=
  "manifest.yaml"

def holds (w : Workspace) (path : String) : Bool :=
  (w.tree.descend (place path)).toOption.isSome

/-- Writes a file and the directories that it lies in. -/
def write (w : Workspace) (path content : String) : Workspace :=
  ⟨w.tree.write (.text content) (place path)⟩

def listLine (margin name : String) : String :=
  margin ++ "- name: " ++ name ++ "\n"

/-- The text of a manifest with these projects, and groups with their environments. -/
def manifestText (projects : List String) (groups : List (String × List String)) : String :=
  let group (name : String) (environments : List String) : String :=
    listLine "  " name ++ "    environments:\n"
      ++ String.join (environments.map (listLine "      "))
  "projects:\n" ++ String.join (projects.map (listLine "  ")) ++ "environmentGroups:\n"
    ++ String.join (groups.map fun (name, environments) => group name environments)

def writeManifest (w : Workspace) (projects : List String) (groups : List (String × List String))
    : Workspace :=
  w.write manifestPath (manifestText projects groups)

def templateKey : List Char :=
  "template: ".toList

/-- The template that a line of a definition file names. -/
def templateOf? (line : List Char) : Option String :=
  let line := Text.trim line
  if templateKey.isPrefixOf line then some (String.ofList (line.drop templateKey.length)) else none

/-- The path of a file of a project. -/
def projectFile (project file : String) : String :=
  project ++ "/" ++ file

/-- Writes a definition file, and an empty template wherever one is named that is not there. -/
def writeProject (w : Workspace) (project file : String) (definitions : List DefinitionText)
    : Workspace :=
  let text := DefinitionText.file definitions
  let templates := (Text.lines text.toList).filterMap templateOf?
  let w := templates.foldl (fun w template =>
    let path := projectFile project template
    if w.holds path then w else w.write path "\x7b\x7d") w
  w.write (projectFile project file) text

mutual

/-- The files of an entry, each with its place below it. -/
def filesOf (above : List String) : Entry → List (List String × String)
  | .text content => [(above, content)]
  | .binary | .refused .. => []
  | .directory children => filesOfAll above children

def filesOfAll (above : List String) : List (String × Entry) → List (List String × String)
  | [] => []
  | (name, entry) :: rest => filesOf (above ++ [name]) entry ++ filesOfAll above rest

end

/-- The files of the workspace by their paths. -/
def files (w : Workspace) : List (String × String) :=
  match w.tree.descend root with
  | .ok entry =>
      (filesOf [] entry).map fun (names, content) => (String.intercalate "/" names, content)
  | .error _ => []

end Workspace

end Rollout.Fixture
