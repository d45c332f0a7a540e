import Dataflow.Diagram.Schedule
import Dataflow.Statement.Run

/-!
# Evaluating diagrams

A pass runs the nodes of a diagram in the order of its schedule.  A fault never stops it: the
statement yields nothing, its lines carry the message, and the pass goes on.

* `NodeResult`         the output values of a node, and a message for every line, empty for a line
                       without a fault;
* `Results`            the results by slot, with the scopes of the pass; empty slots have none;
* `runNode`            runs the statements of a node on its input values;
* `Diagram.evaluate`   a pass, from the results of an earlier one, of which nothing is kept.

The nodes share the scopes of the pass, but every node begins at the root.
-/

namespace Dataflow

/-- what the evaluation of a node gave -/
structure NodeResult where
  outputs : List Value
  errors : List String

/-- what a pass gave -/
structure Results where
  nodes : Array NodeResult
  scopes : Scopes

namespace NodeResult

/-- of a slot without a node -/
def empty : NodeResult := ⟨[], []⟩

/-- of a node that depends on itself: it is not run -/
def cyclic (n : Node) : NodeResult :=
  ⟨List.replicate n.outputs.length .void,
   List.replicate n.lines.length Fault.cyclicDependency.message⟩

/-- puts the outcome of a statement in front: its value if it has an output, and its message on
every line -/
def cons (s : Statement) (lineCount : Nat) (outcome : Except Fault Value) (later : NodeResult) :
    NodeResult :=
  let (v, message) :=
    match outcome with
    | .ok v => (v, "")
    | .error fault => (.void, fault.message)
  ⟨if s.hasOutput then v :: later.outputs else later.outputs,
   List.replicate lineCount message ++ later.errors⟩

def hasErrors (r : NodeResult) : Bool := r.errors.any (· != "")

/-- equality as a host sees it -/
def same (a b : NodeResult) : Bool := Value.sameItems a.outputs b.outputs && a.errors == b.errors

end NodeResult

namespace Results

def empty : Results := ⟨#[], .empty⟩

/-- nothing but empty slots -/
def reset (_ : Results) (slots : Nat) : Results := ⟨Array.replicate slots .empty, .empty⟩

def hasErrors (r : Results) : Bool := r.nodes.any NodeResult.hasErrors

/-- the lines with a message: slot, line and message -/
def errors (r : Results) : List (Nat × Nat × String) :=
  r.nodes.toList.zipIdx.flatMap fun (node, slot) =>
    node.errors.zipIdx.filterMap fun (message, line) =>
      if message = "" then none else some (slot, line, message)

/-- the value of an output -/
def output? (r : Results) (source : Source) : Option Value :=
  r.nodes[source.node]?.bind fun node => node.outputs[source.output]?

/-- the value of an input: nothing if it is not wired or its source gave no value -/
def inputValue (r : Results) : Option Source → Value
  | some source => (r.output? source).getD .void
  | none => .void

/-- equality as a host sees it -/
def same (a b : Results) : Bool :=
  a.nodes.size == b.nodes.size
    && (a.nodes.toList.zip b.nodes.toList).all (fun (s, t) => s.same t)
    && a.scopes.same b.scopes

end Results

variable {σ : Type}

/-- runs a statement unless it is blank, from a given input on -/
def runStatement (root : Root) (sink : Sink σ) (site : Site) (text : String) (firstInput : Nat)
    (s : Session σ) : Except Fault Value × Session σ :=
  if Statement.isBlank text then (.ok .void, s.seek firstInput)
  else Statement.run root sink site text (s.seek firstInput)

/-- runs the statements of a node from one of them on; every statement begins to read at its own
first input, whatever the ones before it have read -/
def runStatements (root : Root) (sink : Sink σ) (pass slot : Nat) :
    List (Statement × List Line) → Nat → Nat → Session σ → NodeResult × Session σ
  | [], _, _, s => (.empty, s)
  | (statement, lines) :: rest, index, firstInput, s =>
    let (outcome, s) := runStatement root sink ⟨pass, slot, index⟩ (Node.textOf lines) firstInput s
    let (later, s) :=
      runStatements root sink pass slot rest (index + 1)
        (firstInput + Line.total lines) s
    (.cons statement lines.length outcome later, s)

def runNode (root : Root) (sink : Sink σ) (pass slot : Nat) (n : Node) (inputs : List Value)
    (scopes : Scopes) (host : σ) : NodeResult × Session σ :=
  runStatements root sink pass slot (n.statements.zip n.statementLines) 0 0
    (.start scopes inputs host)

namespace Diagram

/-- evaluates a node, or gives a cyclic one its messages -/
def evaluateTurn (d : Diagram) (root : Root) (sink : Sink σ) (pass : Nat)
    (state : Results × σ) (turn : Turn) : Results × σ :=
  let (r, host) := state
  match d.node? turn.slot with
  | none => (r, host)
  | some n =>
    if turn.cyclic then
      ({ r with nodes := r.nodes.setIfInBounds turn.slot (.cyclic n) }, host)
    else
      let (result, s) :=
        runNode root sink pass turn.slot n (n.inputs.map r.inputValue) r.scopes host
      (⟨r.nodes.setIfInBounds turn.slot result, s.scopes⟩, s.host)

def evaluate (d : Diagram) (root : Root) (sink : Sink σ) (pass : Nat) (earlier : Results)
    (host : σ) : Results × σ :=
  d.schedule.foldl (d.evaluateTurn root sink pass) (earlier.reset d.slotCount, host)

end Diagram

end Dataflow
