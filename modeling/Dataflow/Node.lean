import Dataflow.Binary.Decimal
import Dataflow.Statement.Shape

/-!
# Nodes

A node is a box of text with a position.  Its text fixes its shape: the lines group into statements,
every `$` is an input, and the statements that yield a value are its outputs.

* `Node.ofText`       a node with a text and no wires;
* `Node.setText`      another text; inputs keep their wires by position;
* `Node.keepOutput?`  gives a statement without a value an output;
* `Node.statementTexts`, `Node.text`   the texts of the statements and of the node.

A statement that had an output keeps it while its text is blank or an assignment without a value, so
that wires outlive a text that is being typed.  These are the HELD outputs (`Node.heldOutputs`).
-/

namespace Dataflow

/-- a line of text and how many inputs it reads -/
structure Line where
  text : String
  inputs : Nat
deriving DecidableEq, Repr

/-- how many inputs a run of lines reads -/
def Line.total (lines : List Line) : Nat := lines.foldr (fun line count => line.inputs + count) 0

/-- a group of lines that is run as one, and whether it feeds an output -/
structure Statement where
  lineCount : Nat
  hasOutput : Bool
deriving DecidableEq, Repr

/-- where an input takes its value from: a node by slot, and one of its outputs -/
structure Source where
  node : Nat
  output : Nat
deriving DecidableEq, Repr

/-- a box of text -/
structure Node where
  x : Single
  y : Single
  lines : List Line
  statements : List Statement
  /-- the sources of the inputs; the i-th `$` of the text reads input i -/
  inputs : List (Option Source)
  /-- the statements that feed the outputs, in ascending order -/
  outputs : List Nat
deriving DecidableEq

namespace Statement

/-- a text that yields nothing but may hold an output -/
def mayHold (text : String) : Bool := isBlank text || isUnfinished text

end Statement

namespace Node

/-- cuts a list into pieces of the given lengths -/
def pieces {α : Type} : List Nat → List α → List (List α)
  | [], _ => []
  | n :: sizes, items => items.take n :: pieces sizes (items.drop n)

def lineOf (text : String) : Line := ⟨text, Statement.countInputs text⟩

/-- the statements of a text, given the ones before it: an output is held if the statement in the
same place had one -/
def regroup : List Statement → List (List String) → List Statement
  | _, [] => []
  | previous, piece :: rest =>
    let text := Text.joinLines piece
    let had := (previous.head?.map Statement.hasOutput).getD false
    ⟨piece.length, had && Statement.mayHold text || Statement.yields text⟩
      :: regroup previous.tail rest

/-- the indices of the statements with an output -/
def outputsOf (statements : List Statement) : List Nat :=
  statements.zipIdx.filterMap fun (s, index) => if s.hasOutput then some index else none

/-- as many inputs as asked for: the first ones stay, new ones have no wire -/
def resize (inputs : List (Option Source)) (count : Nat) : List (Option Source) :=
  inputs.take count ++ List.replicate (count - inputs.length) none

/-- inputs and outputs that fit the text -/
def refit (n : Node) : Node :=
  { n with
    inputs := resize n.inputs (Line.total n.lines)
    outputs := outputsOf n.statements }

def setText (n : Node) (text : String) : Node :=
  let lines := Text.splitLines text
  { n with
    lines := lines.map lineOf
    statements := regroup n.statements (pieces (Statement.group lines) lines) }.refit

def ofText (text : String) : Node := setText ⟨.zero false, .zero false, [], [], [], []⟩ text

def moveTo (n : Node) (x y : Single) : Node := { n with x, y }

/-- the lines of each statement -/
def statementLines (n : Node) : List (List Line) :=
  pieces (n.statements.map Statement.lineCount) n.lines

def textOf (lines : List Line) : String := Text.joinLines (lines.map Line.text)

def statementTexts (n : Node) : List String := n.statementLines.map textOf

def text (n : Node) : String := textOf n.lines

/-- the statements that have an output although their text yields nothing -/
def heldOutputs (n : Node) : List Nat :=
  (n.statements.zip n.statementTexts).zipIdx.filterMap fun ((s, text), index) =>
    if s.hasOutput && !Statement.yields text then some index else none

/-- gives a statement an output that its text does not yield; only a blank statement or an
assignment without a value may hold one -/
def keepOutput? (n : Node) (index : Nat) : Option Node :=
  match n.statementTexts[index]? with
  | some text =>
    if Statement.mayHold text then
      some { n with statements := n.statements.modify index ({ · with hasOutput := true }) }.refit
    else none
  | none => none

/-- changes the source of every input -/
def mapInputs (n : Node) (change : Option Source → Option Source) : Node :=
  { n with inputs := n.inputs.map change }

/-- equality of nodes; positions are compared as numbers -/
def same (a b : Node) : Bool :=
  a.x.same b.x && a.y.same b.y && a.lines == b.lines && a.statements == b.statements
    && a.inputs == b.inputs && a.outputs == b.outputs

theorem length_resize (inputs : List (Option Source)) (count : Nat) :
    (resize inputs count).length = count := by
  simp only [resize, List.length_append, List.length_take, List.length_replicate]
  omega

theorem pieces_cons {α : Type} (n : Nat) (sizes : List Nat) (items : List α) :
    pieces (n :: sizes) items = items.take n :: pieces sizes (items.drop n) := rfl

theorem length_inputs_refit (n : Node) :
    n.refit.inputs.length = Line.total n.lines := length_resize _ _

end Node

end Dataflow
