import Dataflow.Text.Blank

/-!
# Lines of text

* `splitLines`   cuts a text at every newline and drops one carriage return from the end of a line;
* `joinLines`    puts newlines between lines.

A text always has at least one line.  A line that still ends in a carriage return after the split
ended in two.
-/

namespace Dataflow.Text

/-- cuts at every newline -/
def cutLines : List Char → List (List Char)
  | [] => [[]]
  | c :: rest =>
    if c = '\n' then [] :: cutLines rest
    else match cutLines rest with
      | [] => [[c]]
      | line :: lines => (c :: line) :: lines

/-- drops one carriage return from the end -/
def dropReturn (line : List Char) : List Char :=
  if line.getLast? = some '\r' then line.dropLast else line

def splitLines (text : String) : List String :=
  (cutLines text.toList).map fun line => String.ofList (dropReturn line)

def joinLines (lines : List String) : String :=
  String.ofList (['\n'].intercalate (lines.map String.toList))

theorem cutLines_ne_nil (text : List Char) : cutLines text ≠ [] := by
  cases text with
  | nil => simp [cutLines]
  | cons c rest =>
    rw [cutLines]
    split
    · simp
    · split <;> simp

theorem splitLines_ne_nil (text : String) : splitLines text ≠ [] := by
  simp [splitLines, cutLines_ne_nil]

end Dataflow.Text
