import Rollout.CommandLine.Reach
import Rollout.CommandLine.Report

/-!
The program. It reads what the plan depends on, lets the plan be made and prints it.
-/

namespace Rollout.Program

open CommandLine

/-- A file as it is on the disk. -/
def readEntry (bytes : ByteArray) : Entry :=
  match String.fromUTF8? bytes with
  | some text => .text text
  | none => .binary

/-- The number that a lookup reports where links lead in a circle. -/
def linkLoopCode : UInt32 := -40

/-- Why the operating system finds or opens nothing, in the words of the tree. -/
def fault? : IO.Error → Option AccessFault
  | .noFileOrDirectory .. => some .notFound
  | .permissionDenied .. => some .denied
  | .inappropriateType .. => some .notDirectory
  | .invalidArgument _ code _ => if code = linkLoopCode then some .linkLoop else none
  | _ => none

/-- What cannot be read, for a reason that the tree has a word for. Any other error ends the run. -/
def refuse (isFile : Bool) (error : IO.Error) : IO Entry :=
  match fault? error with
  | some fault => return .refused isFile fault
  | none => throw error

/-- What an entry of a directory reads as that is not a directory itself. Links are followed. -/
def readFile (entry : IO.FS.DirEntry) : IO Entry := do
  match ← entry.path.metadata.toBaseIO with
  | .error error => refuse false error
  | .ok status =>
      if status.type == .dir then return .refused false .isDirectory
      match ← (IO.FS.readBinFile entry.path).toBaseIO with
      | .error error => refuse (status.type == .file) error
      | .ok bytes => return readEntry bytes

/-- A directory with the definition files in it. A link is one of them by its name, wherever it
leads. Nothing else in the directory is opened.
-/
def readDirectory (directory : IO.FS.DirEntry) : IO Entry := do
  match ← directory.path.readDir.toBaseIO with
  | .error error => refuse false error
  | .ok entries =>
      let named := entries.toList.filter fun entry => FileFormat.isYamlName entry.fileName
      let files ← named.filterM fun entry =>
        return (← entry.path.symlinkMetadata.toBaseIO).toOption.all (·.type != .dir)
      return .directory (← files.mapM fun file => return (file.fileName, ← readFile file))

/-- What the operating system has at a path: a file, or a directory with its definition files. Where
it has nothing, the tree has nothing either.
-/
def look (p : Path) : IO (Option Entry) := do
  if p = .empty then return none
  let place : IO.FS.DirEntry := ⟨← IO.currentDir, p.text⟩
  match ← place.path.metadata.toBaseIO with
  | .error error => return ((fault? error).filter (· ≠ .notFound)).map (.refused false)
  | .ok status => if status.type == .dir then readDirectory place else readFile place

/-- The disk with what is at a path. Nothing is put below a file. -/
def add (disk : Disk) (p : Path) : IO Disk := do
  let some entry ← look p | return disk
  if disk.locate p matches .error .notDirectory then return disk
  return { disk with root := disk.root.write entry (p.walk disk.workingDirectory) }

/-- The disk with all that a plan reads, directories before what lies in them. -/
def snapshot (manifest : Path) : IO Disk := do
  let workingDirectory := (Path.ofText (← IO.currentDir).toString).walk []
  let root := (Entry.directory []).write (.directory []) workingDirectory
  let start : Disk := ⟨root, workingDirectory⟩
  -- What lies deeper is written later, or the listing of a directory would hide it.
  let depth (p : Path) : Nat := (p.walk workingDirectory).length
  let disk ← add start manifest
  let folders := (directories disk manifest).mergeSort fun p q => depth p ≤ depth q
  let disk ← add (← folders.foldlM add start) manifest
  -- A template may be listed as a definition file, and has been read then.
  let templates := (templatePaths disk manifest).filter fun p => (disk.entry? p).isNone
  templates.foldlM add disk

/-- The variables that a plan asks for. -/
def readVariables (disk : Disk) (manifest : Path) : IO Variables := do
  let values ← (variableNames disk manifest).mapM fun name => return (name, ← IO.getEnv name)
  return fun name => (values.lookup name).join

def run (request : Request) : IO Report :=
  match request with
  | .plan plan => do
      let manifest := Path.ofText plan.manifest
      let disk ← snapshot manifest
      return .ofRequest disk (← readVariables disk manifest) request
  | request => return .ofRequest ⟨.directory [], []⟩ (fun _ => none) request

end Rollout.Program

open Rollout in
def main (arguments : List String) : IO UInt32 := do
  let report ← Program.run (.ofArguments arguments)
  for warning in report.warnings do
    IO.eprintln ("WARN " ++ warning.message)
  IO.print report.output
  IO.eprint report.errors
  return report.status.toUInt32
