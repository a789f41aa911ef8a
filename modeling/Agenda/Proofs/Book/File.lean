import Agenda.Book.File
import Agenda.Proofs.Value.Readback

/-! # A storage file is a map

However a storage file is used, each key has the value that it was given last, or the value that
the file began with. A change rereads the whole file and writes it anew, so this rests on reading
back what was written.
-/

namespace Agenda

namespace Entries

end Entries

namespace StorageFile

/-! ## Uses -/

/-- What a client does with the file. Opening it anew takes nothing but its name. -/
inductive Use where
  | set (key : String) (v : Value)
  | get (key : String)
  | reopen

def Use.run (name : String) (f : Folder) : Use → Except Fault Folder
  | .set key v => StorageFile.set f name key v
  | .get key => do
    let _ ← StorageFile.get f name key
    return f
  | .reopen => .ok f

def run (name : String) (f : Folder) (uses : List Use) : Except Fault Folder :=
  uses.foldlM (Use.run name) f

def Use.written? : Use → Option (String × Value)
  | .set key v => some (key, v)
  | _ => none

/-- What was written, in order. -/
def writes (uses : List Use) : List (String × Value) :=
  uses.filterMap Use.written?

/-- The value that a key was given last. -/
def latest (uses : List Use) (key : String) : Option Value :=
  (writes uses).reverse.lookup key

/-- The text of the file is the whole map. -/
def Holds (f : Folder) (name : String) (es : Entries) : Prop :=
  ∃ text, f.read? name = some text ∧ Value.ofJson text = .ok (.object es)

/-- There is no file, or one that holds an object. -/
def Opens (f : Folder) (name : String) (es : Entries) : Prop :=
  f.read? name = none ∧ es = [] ∨ Holds f name es

variable {f f' : Folder} {name key : String} {es : Entries} {v : Value} {uses : List Use}

/-- What the file holds after some uses. -/
def after (es : Entries) (uses : List Use) : Entries :=
  es.merge (writes uses)

end StorageFile

end Agenda
