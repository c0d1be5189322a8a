import Rollout.FileFormat
import Rollout.Path.Walk

/-!
The files a deployment is read from: a tree of entries and the directory relative paths start from.
-/

namespace Rollout

/-- An entry of the file tree. Names are texts: what has a name that is not UTF-8 is left out. A file
whose bytes are not UTF-8 text is `binary`. What cannot be read is `refused`: a file that may not be
opened, or else a directory that may not be listed or a link that leads to no file. A link that
leads to a file stands in the tree as that file.
-/
inductive Entry
  | text (content : String)
  | binary
  | directory (children : List (String × Entry))
  | refused (isFile : Bool) (fault : AccessFault)
deriving Inhabited

namespace Entry

def child? (name : String) : List (String × Entry) → Option Entry
  | [] => none
  | (other, entry) :: rest => if other = name then some entry else child? name rest

/-- The longest name a directory can hold, in bytes. -/
def nameLimit : Nat := 255

/-- Follows names downwards. -/
def descend : Entry → List Segment → Except AccessFault Entry
  | entry, [] => .ok entry
  | .directory children, s :: rest =>
      let name := String.ofList s
      if name.utf8ByteSize > nameLimit then .error .nameTooLong
      else
        match child? name children with
        | none => .error .notFound
        | some entry => descend entry rest
  | .refused false fault, _ :: _ => .error fault
  | _, _ :: _ => .error .notDirectory

def setChild (name : String) (entry : Entry) : List (String × Entry) → List (String × Entry)
  | [] => [(name, entry)]
  | (other, old) :: rest =>
      if other = name then (name, entry) :: rest else (other, old) :: setChild name entry rest

/-- The tree with `entry` at the given place; missing directories are made. -/
def write (tree : Entry) (entry : Entry) : List Segment → Entry
  | [] => entry
  | s :: rest =>
      let name := String.ofList s
      let children :=
        match tree with
        | .directory children => children
        | _ => []
      let below := (child? name children).getD (.directory [])
      .directory (setChild name (write below entry rest) children)

/-- A link that leads to a directory is none. -/
def isDirectory : Entry → Bool
  | .directory _ => true
  | _ => false

def leadsToDirectory : Entry → Bool
  | .refused _ fault => fault = .isDirectory
  | entry => entry.isDirectory

def isFile : Entry → Bool
  | .text _ | .binary => true
  | .refused isFile _ => isFile
  | .directory _ => false

end Entry

/-- A file tree as seen from a working directory. -/
structure Disk where
  root : Entry
  workingDirectory : List Segment
deriving Inhabited

/-- The text of a template, known by the path it was read from. -/
structure Template where
  id : String
  content : String
deriving DecidableEq, Repr, Inhabited

/-- Finds the template a path stands for. -/
abbrev TemplateSource := Path → Except FileError Template

namespace Disk

/-- The longest path the operating system takes, in bytes. -/
def pathLimit : Nat := 4095

/-- The entry a path stands for. The empty path stands for none. -/
def locate (disk : Disk) (p : Path) : Except AccessFault Entry :=
  if p = .empty then .error .notFound
  else if p.chars.contains '\x00' then .error .nulByte
  else if p.text.utf8ByteSize > pathLimit then .error .nameTooLong
  else disk.root.descend (p.walk disk.workingDirectory)

def entry? (disk : Disk) (p : Path) : Option Entry :=
  (disk.locate p).toOption

def isDirectory (disk : Disk) (p : Path) : Bool :=
  (disk.entry? p).any Entry.leadsToDirectory

def isFile (disk : Disk) (p : Path) : Bool :=
  (disk.entry? p).any Entry.isFile

def exists? (disk : Disk) (p : Path) : Bool :=
  disk.isDirectory p || disk.isFile p

/-- The text of a file. -/
def readText (disk : Disk) (p : Path) : Except FileError String :=
  match disk.locate p with
  | .error fault => .error (.access p fault)
  | .ok (.text content) => .ok content
  | .ok .binary => .error (.access p .notText)
  | .ok (.directory _) => .error (.access p .isDirectory)
  | .ok (.refused _ fault) => .error (.access p fault)

/-- The paths of the definition files among the entries of a directory, in the order of their
texts.
-/
def definitionPaths (directory : Path) (children : List (String × Entry)) : List Path :=
  let files := children.filter fun e => !e.2.isDirectory && FileFormat.isYamlName e.1
  (files.map fun e => directory.join e.1).mergeSort fun p q => p.text ≤ q.text

/-- The definition files directly inside a directory. -/
def definitionFiles (disk : Disk) (directory : Path) : Except FileError (List Path) :=
  match disk.locate directory with
  | .error fault => .error (.access directory fault)
  | .ok (.directory children) => .ok (definitionPaths directory children)
  | .ok (.refused false fault) => .error (.access directory fault)
  | .ok _ => .error (.access directory .notDirectory)

/-- Templates read from the tree. -/
def templates (disk : Disk) : TemplateSource := fun p =>
  if disk.isFile p then
    (disk.readText p).map fun content => ⟨p.text, content⟩
  else .error (.templateNotFound p)

end Disk

end Rollout
