import Dataflow.Diagram
import Dataflow.Log
import Dataflow.Saved.Entry

/-!
# Loading a saved diagram

* `NodeDraft`      what a `node` block says;
* `Draft`          the diagram so far, with the connections to be made once all nodes are there;
* `Loaded`         the diagram or a fault, with remarks on what was dropped;
* `Saved.load`     loads a saved text.

The first `diagram` entry counts.  Numbers of nodes are slots plus one.  A node block with a number
that was there before replaces the node, while the connections of both blocks are made.  Entries
with an unknown tag are passed over.  A field that a block gives twice has its last value.
-/

namespace Dataflow.Saved

/-- the largest number of a node -/
def maxNodeId : Nat := 65536

/-- reads an index: digits with an optional plus, below `2 ^ 64` -/
def readIndex? (text : String) : Option Nat :=
  let digits := match text.toList with
    | '+' :: rest => rest
    | chars => chars
  if digits ≠ [] ∧ digits.all Char.isDigit then
    let n := Numeral.digitsValue digits
    if n < Nat.pow 2 64 then some n else none
  else none

namespace Entry

def wrongContent (e : Entry) : LoadFault := .wrongContent e.line e.tag

def asBlock : Entry → Except LoadFault (List Entry)
  | .block _ _ entries => .ok entries
  | e => .error e.wrongContent

def asString : Entry → Except LoadFault String
  | .scalar _ _ (.string text) => .ok text
  | e => .error e.wrongContent

/-- a number, read as the field needs it -/
def asNumber {α : Type} (read? : String → Option α) : Entry → Except LoadFault α
  | .scalar _ line (.number text) =>
    match read? text with
    | some a => .ok a
    | none => .error (.invalidNumber line text)
  | e => .error e.wrongContent

def asIndex (e : Entry) : Except LoadFault Nat := e.asNumber readIndex?

def asSingle (e : Entry) : Except LoadFault Single :=
  e.asNumber fun text => Binary.read? text.toList

/-- the number of a node -/
def asNodeId (e : Entry) : Except LoadFault Nat := do
  let id ← e.asIndex
  if id = 0 ∨ maxNodeId < id then throw (.invalidNodeId e.line id)
  return id

end Entry

/-- what a `connection` block says -/
structure ConnectionDraft where
  line : Nat
  input : Option Nat
  sourceId : Option Nat
  output : Option Nat
deriving DecidableEq, Repr

def ConnectionDraft.readField (c : ConnectionDraft) (e : Entry) :
    Except LoadFault ConnectionDraft :=
  match e.tag with
  | "input_index" => e.asIndex.map fun n => { c with input := some n }
  | "source_node_id" => e.asIndex.map fun n => { c with sourceId := some n }
  | "source_output_index" => e.asIndex.map fun n => { c with output := some n }
  | _ => .ok c

/-- what a `node` block says -/
structure NodeDraft where
  id : Option Nat
  x : Single
  y : Single
  /-- the latest first -/
  lines : List String
  /-- statements that hold an output, with the line that says so, the latest first -/
  held : List (Nat × Nat)
  /-- the latest first -/
  connections : List ConnectionDraft

namespace NodeDraft

def empty : NodeDraft := ⟨none, .zero false, .zero false, [], [], []⟩

def readAxis (n : NodeDraft) (e : Entry) : Except LoadFault NodeDraft :=
  match e.tag with
  | "x" => e.asSingle.map fun x => { n with x }
  | "y" => e.asSingle.map fun y => { n with y }
  | _ => .ok n

def readField (n : NodeDraft) (e : Entry) : Except LoadFault NodeDraft :=
  match e.tag with
  | "id" => e.asNodeId.map fun id => { n with id := some id }
  | "position" => do (← e.asBlock).foldlM readAxis n
  | "line" => e.asString.map fun text => { n with lines := text :: n.lines }
  | "sticky_output" => e.asIndex.map fun index => { n with held := (e.line, index) :: n.held }
  | "connection" => do
    let c ← (← e.asBlock).foldlM ConnectionDraft.readField ⟨e.line, none, none, none⟩
    return { n with connections := c :: n.connections }
  | _ => .ok n

end NodeDraft

/-- reads a `node` block: the slot, and what it says -/
def readNode (e : Entry) : Except LoadFault (Nat × NodeDraft) := do
  let n ← (← e.asBlock).foldlM NodeDraft.readField .empty
  match n.id with
  | some id => return (id - 1, n)
  | none => throw (.missingNodeId e.line)

/-- gives statements their held outputs, with a remark on those that cannot have one -/
def holdOutputs (n : Node) (log : List LogLine) : List (Nat × Nat) → Node × List LogLine
  | [] => (n, log)
  | (line, index) :: rest =>
    match n.keepOutput? index with
    | some n => holdOutputs n log rest
    | none =>
      holdOutputs n
        (log ++ [⟨.warn, s!"line {line}: statement {index} cannot keep an output, ignored"⟩]) rest

/-- the diagram so far, the connections to be made with the slots of their inputs, and the
remarks -/
structure Draft where
  diagram : Diagram
  /-- the latest first -/
  connections : List (Nat × ConnectionDraft)
  log : List LogLine

namespace Draft

def empty : Draft := ⟨.empty, [], []⟩

/-- puts a node into its slot -/
def place (draft : Draft) (line slot : Nat) (n : NodeDraft) : Draft :=
  let plain := (Node.ofText (Text.joinLines n.lines.reverse)).moveTo n.x n.y
  let (node, log) := holdOutputs plain draft.log n.held.reverse
  let log :=
    if (draft.diagram.node? slot).isSome then
      log ++ [⟨.warn, s!"line {line}: duplicate node id {slot + 1}, replacing"⟩]
    else log
  ⟨draft.diagram.place slot node,
   n.connections.map (fun c => (slot, c)) ++ draft.connections, log⟩

/-- reads the `node` blocks one after the other, up to the first fault -/
def readNodes : List Entry → Draft → Option LoadFault × Draft
  | [], draft => (none, draft)
  | e :: rest, draft =>
    match readNode e with
    | .ok (slot, n) => readNodes rest (draft.place e.line slot n)
    | .error fault => (some fault, draft)

end Draft

/-- what a connection wires to which input, or why it is dropped -/
def readConnection (d : Diagram) (slot : Nat) (c : ConnectionDraft) :
    Except String (Source × Nat) :=
  match c.input, c.sourceId, c.output with
  | some input, some sourceId, some output =>
    if sourceId = 0 then .error s!"line {c.line}: connection from node id 0 dropped"
    else
      let source : Source := ⟨sourceId - 1, output⟩
      match d.allows source slot input with
      | .ok () => .ok (source, input)
      | .error fault => .error s!"line {c.line}: connection dropped: {fault.message}"
  | _, _, _ => .error s!"line {c.line}: incomplete connection dropped"

/-- makes the connections one after the other, with a remark on those that are dropped -/
def connectAll (d : Diagram) (log : List LogLine) :
    List (Nat × ConnectionDraft) → Diagram × List LogLine
  | [] => (d, log)
  | (slot, c) :: rest =>
    match readConnection d slot c with
    | .ok (source, input) => connectAll (d.wire slot input (some source)) log rest
    | .error message => connectAll d (log ++ [⟨.warn, message⟩]) rest

/-- what loading gives -/
structure Loaded where
  result : Except LoadFault Diagram
  log : List LogLine

/-- the diagram that the entries of a `diagram` block describe -/
def build (block : List Entry) : Loaded :=
  match Draft.readNodes (block.filter (·.tag == "node")) .empty with
  | (some fault, draft) => ⟨.error fault, draft.log⟩
  | (none, draft) =>
    let (d, log) := connectAll draft.diagram draft.log draft.connections.reverse
    ⟨.ok d.prune, log⟩

/-- the entries of the first `diagram` block -/
def diagramBlock (entries : List Entry) : Except LoadFault (List Entry) :=
  match entries.find? (·.tag == "diagram") with
  | some e => e.asBlock
  | none => .error .missingDiagram

def load (text : String) : Loaded :=
  match lexemes text >>= entries >>= diagramBlock with
  | .ok block => build block
  | .error fault => ⟨.error fault, []⟩

end Dataflow.Saved
