import Agenda.Value.Read
import Agenda.Value.Print

/-! # Storage in a file

All keys of a storage are one JSON object in one file. A missing file, or one that holds no JSON
object, is an empty storage. A change is written to a second file, which then takes the name of
the first, so that no file ever holds half a change.
-/

namespace Agenda

/-! ## Files of a folder

A folder holds texts under names, each name once. A file is written whole, and takes another name
in one step; a file that had that name is then gone.
-/

abbrev Folder := List (String × List Char)

namespace Folder

def read? (f : Folder) (name : String) : Option (List Char) :=
  f.lookup name

def remove (f : Folder) (name : String) : Folder :=
  f.filter fun file => file.1 != name

def write (f : Folder) (name : String) (text : List Char) : Folder :=
  (name, text) :: f.remove name

def rename (f : Folder) (name new : String) : Folder :=
  match f.read? name with
  | some text => (f.remove name).write new text
  | none => f

def names (f : Folder) : List String :=
  (f.map (·.1)).mergeSort fun a b => a ≤ b

end Folder

/-! ## The file of a storage -/

namespace StorageFile

/-- The entries that the text of a file holds. -/
def entries (text : Option (List Char)) : Except Fault Entries :=
  match text with
  | none => .ok []
  | some cs =>
    match Value.ofJson cs with
    | .ok (.object es) => .ok es
    | .ok _ => .ok []
    | .error (.notJson _) => .ok []
    | .error .numeralTooLong => .error .numeralTooLong

def write (es : Entries) : List Char :=
  (Value.object es).indented 0

/-- The name of the file that a change is written to first. -/
def draftName (name : String) : String :=
  name ++ ".tmp"

def get (f : Folder) (name key : String) : Except Fault Value := do
  return (← entries (f.read? name)).at? key

def set (f : Folder) (name key : String) (v : Value) : Except Fault Folder := do
  let text := write ((← entries (f.read? name)).insert key v)
  return (f.write (draftName name) text).rename (draftName name) name

end StorageFile

end Agenda
