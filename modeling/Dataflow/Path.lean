/-!
# Paths

A path is a row of parts with slashes between them.  Empty parts, and parts `.` other than a leading
one, say nothing and do not count.

* `Path.parts`     the parts as they are written;
* `Path.parent?`   the path without its last part; the root has none;
* `Path.beside`    the path of a file with another name next to a file.
-/

namespace Dataflow.Path

def parts (path : String) : List String := path.splitOn "/"

/-- the parts in front of the last one, empty parts at the end aside -/
def partsBefore (path : String) : List String :=
  ((parts path).reverse.dropWhile (· = "")).tail.reverse

/-- drops what does not count from the end; the list begins with the last part -/
def trim : List String → List String
  | part :: first :: rest =>
    if part = "" ∨ part = "." then trim (first :: rest) else part :: first :: rest
  | rest => rest

def parent? (path : String) : Option String :=
  match trim (parts path).reverse with
  | [] | [""] => none
  | _ :: before =>
    match (trim before).reverse with
    | [""] => some "/"
    | parts => some ("/".intercalate parts)

/-- a path inside a folder -/
def inside (folder name : String) : String :=
  if folder = "" ∨ folder.endsWith "/" then folder ++ name else folder ++ "/" ++ name

def beside (path name : String) : String := inside ((parent? path).getD "") name

end Dataflow.Path
