import Dataflow.Text.Lines
import Dataflow.Text.Name

/-!
# The shape of statements

What the text of a node says about its statements without being evaluated.

* `Statement.group`          how many lines each statement takes: a line ends its statement unless a
                             bracket is open, and one that is never closed takes all lines left;
* `Statement.target?`        the name that a text assigns to;
* `Statement.yields`         a text yields a value unless it is blank or an assignment;
* `Statement.isUnfinished`   an assignment with nothing after its equals sign;
* `Statement.countInputs`    the `$` of a line, those in string literals too.

Brackets are counted wherever they stand, in string literals too, and a closing bracket without an
opening one counts for nothing.
-/

namespace Dataflow.Statement

/-- open brackets after a character -/
def bracketStep (depth : Nat) (c : Char) : Nat :=
  if c = '(' ∨ c = '[' then depth + 1
  else if c = ')' ∨ c = ']' then depth - 1
  else depth

/-- open brackets after a line -/
def depthAfter (depth : Nat) (line : String) : Nat := line.toList.foldl bracketStep depth

/-- the sizes of the groups, with so many brackets open after so many lines of the first group -/
def groupFrom (depth count : Nat) : List String → List Nat
  | [] => if count = 0 then [] else [count]
  | line :: rest =>
    if depthAfter depth line = 0 then (count + 1) :: groupFrom 0 0 rest
    else groupFrom (depthAfter depth line) (count + 1) rest

def group (lines : List String) : List Nat := groupFrom 0 0 lines

/-- the name that a text assigns to: a name with an equals sign after it -/
def target? (text : String) : Option String :=
  match Text.leadingName? (Text.trimStart text.toList) with
  | some (name, rest) =>
    if (Text.trimStart rest).head? = some '=' then some (String.ofList name) else none
  | none => none

def isBlank (text : String) : Bool := Text.isBlankText text.toList

def yields (text : String) : Bool := !(isBlank text || (target? text).isSome)

/-- what stands after the first equals sign -/
def afterEquals (text : List Char) : List Char := (text.dropWhile (· != '=')).drop 1

def isUnfinished (text : String) : Bool :=
  (target? text).isSome && Text.isBlankText (afterEquals text.toList)

def countInputs (line : String) : Nat := line.toList.count '$'

theorem total_groupFrom (lines : List String) (depth count : Nat) :
    (groupFrom depth count lines).foldr (· + ·) 0 = count + lines.length := by
  induction lines generalizing depth count with
  | nil => by_cases h : count = 0 <;> simp [groupFrom, h]
  | cons line rest ih =>
    rw [groupFrom]
    split
    · rw [List.foldr_cons, ih, List.length_cons]
      omega
    · rw [ih, List.length_cons]
      omega

/-- every line is in one statement -/
theorem total_group (lines : List String) : (group lines).foldr (· + ·) 0 = lines.length := by
  rw [group, total_groupFrom, Nat.zero_add]

end Dataflow.Statement
