import Dataflow.Path

/-!
# Files

* `Files m`      what a command needs of a file system, in a monad `m`;
* `Folder`       a file system that is a value: texts by path;
* `Folder.files` the file operations on it.

A path leads from part to part, and all places but the last have to be folders.  Around a `Folder`
there are folders without files; what is written there is not kept.
-/

namespace Dataflow

/-- why a file could not be read or written -/
inductive FileFault where
  | missing
  /-- a file where a folder has to be -/
  | notFolder
  /-- a folder where a file has to be -/
  | folder
  | nameTooLong
  | notText
  | other (message : String)
deriving DecidableEq, Repr

def FileFault.message : FileFault → String
  | .missing => "No such file or directory (os error 2)"
  | .notFolder => "Not a directory (os error 20)"
  | .folder => "Is a directory (os error 21)"
  | .nameTooLong => "File name too long (os error 36)"
  | .notText => "stream did not contain valid UTF-8"
  | .other message => message

/-- operations on files -/
structure Files (m : Type → Type) where
  read : String → m (Except FileFault String)
  isFile : String → m Bool
  write : String → String → m (Except FileFault Unit)

/-- texts by the parts of their paths; a folder is there if there is a file somewhere inside it -/
structure Folder where
  entries : List (List String × String)

/-- where a path leads -/
inductive Place where
  | inside (parts : List String)
  /-- one of the folders around -/
  | around
  /-- a name in one of the folders around, where there is no file -/
  | beyond
deriving DecidableEq

namespace Place

/-- the place of a name in a folder -/
def child (name : String) : Place → Place
  | inside parts => inside (parts ++ [name])
  | around | beyond => beyond

/-- the folder that holds a place -/
def parent : Place → Place
  | inside [] => around
  | inside parts => inside parts.dropLast
  | around | beyond => around

/-- where a path begins -/
def start (path : String) : Place := if path.startsWith "/" then around else inside []

end Place

namespace Folder

def text? (f : Folder) : Place → Option String
  | .inside parts => f.entries.lookup parts
  | .around | .beyond => none

def isFolder (f : Folder) : Place → Bool
  | .inside parts =>
    parts.isEmpty || f.entries.any fun (other, _) => parts.isPrefixOf other && parts != other
  | .around => true
  | .beyond => false

/-- the bytes that the name of a file may have -/
def maxName : Nat := 255

/-- the bytes that a path may have -/
def maxPath : Nat := 4095

/-- follows parts from a place on; all but the last place have to be folders -/
def follow (f : Folder) (place : Place) : List String → Except FileFault Place
  | [] => .ok place
  | part :: rest =>
    if !f.isFolder place then .error (if (f.text? place).isSome then .notFolder else .missing)
    else if part = "" ∨ part = "." then follow f place rest
    else if part = ".." then follow f place.parent rest
    else if part.utf8ByteSize > maxName then .error .nameTooLong
    else follow f (place.child part) rest

/-- the place that parts of a path lead to -/
def walk (f : Folder) (path : String) (parts : List String) : Except FileFault Place :=
  if path = "" then .error .missing
  else if path.utf8ByteSize > maxPath then .error .nameTooLong
  else f.follow (.start path) parts

def read (f : Folder) (path : String) : Except FileFault String := do
  let place ← f.walk path (Path.parts path)
  match f.text? place with
  | some text => return text
  | none => throw (if f.isFolder place then .folder else .missing)

/-- puts a text at a place -/
def put (place : List String) (text : String) :
    List (List String × String) → List (List String × String)
  | [] => [(place, text)]
  | (p, old) :: rest => if p = place then (p, text) :: rest else (p, old) :: put place text rest

/-- writes a file.  A path with a slash at its end can only be that of a folder, whether there is
one or not -/
def write (f : Folder) (path text : String) : Except FileFault Folder := do
  if path.endsWith "/" then
    let _ ← f.walk path (Path.partsBefore path ++ ["."])
    throw .folder
  let place ← f.walk path (Path.parts path)
  if f.isFolder place then throw .folder
  match place with
  | .inside parts => return ⟨put parts text f.entries⟩
  | .around | .beyond => return f

def files : Files (StateM Folder) where
  read path := do return (← get).read path
  isFile path := do return ((← get).read path).isOk
  write path text := do
    match (← get).write path text with
    | .ok f =>
      set f
      return .ok ()
    | .error fault => return .error fault

end Folder

end Dataflow
