import Rollout.Path.Basic

/-!
The formats of manifests and other auxiliary files, known by the extension of the file name.
-/

namespace Rollout

inductive FileFormat
  | json
  | yaml
deriving DecidableEq, Repr

namespace FileFormat

def name : FileFormat → String
  | .json => "JSON"
  | .yaml => "YAML"

def lower (text : List Char) : List Char :=
  text.map Char.toLower

/-- The format an extension stands for, in any case of its letters. -/
def ofExtension? (extension : List Char) : Option FileFormat :=
  let extension := lower extension
  if extension = "json".toList then some .json
  else if extension = "yaml".toList || extension = "yml".toList then some .yaml
  else none

/-- Does a file with this name hold definitions? -/
def isYamlName (name : String) : Bool :=
  let name := lower name.toList
  ".yaml".toList.isSuffixOf name || ".yml".toList.isSuffixOf name

end FileFormat

/-- Why the operating system refuses a file operation. -/
inductive AccessFault
  | notFound
  | notDirectory
  | isDirectory
  | nameTooLong
  | nulByte
  | notText
  | denied
  | linkLoop
deriving DecidableEq, Repr

def AccessFault.message : AccessFault → String
  | .notFound => "No such file or directory (os error 2)"
  | .notDirectory => "Not a directory (os error 20)"
  | .isDirectory => "Is a directory (os error 21)"
  | .nameTooLong => "File name too long (os error 36)"
  | .nulByte => "file name contained an unexpected NUL byte"
  | .notText => "stream did not contain valid UTF-8"
  | .denied => "Permission denied (os error 13)"
  | .linkLoop => "Too many levels of symbolic links (os error 40)"

/-- Why a file could not be used. -/
inductive FileError
  | access (path : Path) (fault : AccessFault)
  | unreadable (path : Path) (format : FileFormat) (detail : String)
  | unsupportedFormat (extension : String)
  | templateNotFound (path : Path)
deriving DecidableEq, Repr

def FileError.message : FileError → String
  | .access path fault => "I/O error at " ++ path.text ++ ": " ++ fault.message
  | .unreadable path format detail =>
      "cannot parse " ++ format.name ++ " file " ++ path.text ++ ": " ++ detail
  | .unsupportedFormat extension => "unsupported file format `" ++ extension ++ "`"
  | .templateNotFound path => "template not found: " ++ path.text

/-- The format of a file, by the extension of its path. -/
def FileFormat.ofPath (path : Path) : Except FileError FileFormat :=
  let extension := path.extension?.getD ""
  match ofExtension? extension.toList with
  | some format => .ok format
  | none => .error (.unsupportedFormat extension)

end Rollout
