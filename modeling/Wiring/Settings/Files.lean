import Wiring.Settings.Load
import Wiring.Text.Pieces
/-!
# Settings from a file

The files of a directory, and the settings that one of them holds.
-/

namespace Wiring

/-- The files of a directory without subdirectories. -/
structure Directory where
  files : List (String × ByteArray)

namespace Directory

/-- The steps of a path, without those that stay where they are. -/
def steps (path : String) : List String :=
  ((Text.pieces '/' path.toList).map String.ofList).filter fun step => step ∉ ["", "."]

/-- The content of the file at a path, which must start in the directory and end in a name. -/
def read? (d : Directory) (path : String) : Option ByteArray :=
  if path.startsWith "/" || path.endsWith "/" then none
  else match steps path with
  | [name] => d.files.lookup name
  | _ => none

end Directory

namespace Settings

/-- Settings from the file at a path. -/
def ofFile (d : Directory) (path : String) : Except LoadError Settings :=
  match d.read? path with
  | none => .error (.noFile path)
  | some bytes =>
    match String.fromUTF8? bytes with
    | none => .error (.notText path)
    | some text => ofText text

end Settings

end Wiring
