import Dataflow.Node

/-!
# Diagrams

A diagram is a row of slots, some of which hold a node.  A node keeps its slot until it is deleted,
and new nodes go behind the last slot.  An input is wired by the source it stores.

* `Diagram.push`, `add`, `place`   a node behind the last slot, or in a given one;
* `Diagram.delete`                 empties a slot and unwires the inputs that read from it;
* `Diagram.connect`, `disconnect`  wires; a cycle is not refused here;
* `Diagram.setText`, `move`        changes a node in place;
* `Diagram.prune`                  drops wires from outputs that do not exist.
-/

namespace Dataflow

/-- why an edit failed -/
inductive EditFault where
  | nodeNotFound (slot : Nat)
  | inputOutOfRange (slot input : Nat)
  | outputOutOfRange (slot output : Nat)
deriving DecidableEq, Repr

def EditFault.message : EditFault → String
  | .nodeNotFound slot => s!"Node not found: {slot}"
  | .inputOutOfRange slot input => s!"Node {slot} has no input {input}"
  | .outputOutOfRange slot output => s!"Node {slot} has no output {output}"

/-- slots that hold nodes -/
structure Diagram where
  slots : Array (Option Node)

namespace Diagram

def empty : Diagram := ⟨#[]⟩

/-- the node in a slot -/
def node? (d : Diagram) (slot : Nat) : Option Node := d.slots[slot]?.join

/-- the occupied slots with their nodes, in ascending order -/
def existing (d : Diagram) : List (Nat × Node) :=
  d.slots.toList.zipIdx.filterMap fun (held, slot) => held.map fun n => (slot, n)

def slotCount (d : Diagram) : Nat := d.slots.size

def nodeCount (d : Diagram) : Nat := d.existing.length

def push (d : Diagram) (n : Node) : Diagram := ⟨d.slots.push (some n)⟩

def add (d : Diagram) (text : String) : Diagram := d.push (.ofText text)

/-- puts a node into a slot, in place of the one there; missing slots are made empty -/
def place (d : Diagram) (slot : Nat) (n : Node) : Diagram :=
  ⟨(d.slots ++ Array.replicate (slot + 1 - d.slots.size) none).setIfInBounds slot (some n)⟩

/-- changes every node -/
def mapNodes (d : Diagram) (change : Node → Node) : Diagram := ⟨d.slots.map (·.map change)⟩

/-- the node of an edit -/
def getNode (d : Diagram) (slot : Nat) : Except EditFault Node :=
  match d.node? slot with
  | some n => .ok n
  | none => .error (.nodeNotFound slot)

/-- drops a wire from a slot -/
def unwire (slot : Nat) : Option Source → Option Source
  | some source => if source.node = slot then none else some source
  | none => none

/-- empties a slot and drops the wires from it; the result has the node -/
def delete (d : Diagram) (slot : Nat) : Except EditFault (Node × Diagram) := do
  let n ← d.getNode slot
  let rest : Diagram := ⟨d.slots.setIfInBounds slot none⟩
  return (n, rest.mapNodes (·.mapInputs (unwire slot)))

/-- changes the node in a slot -/
def modify (d : Diagram) (slot : Nat) (change : Node → Node) : Diagram :=
  ⟨d.slots.modify slot (·.map change)⟩

/-- stores the source of an input -/
def wire (d : Diagram) (slot input : Nat) (source : Option Source) : Diagram :=
  d.modify slot fun n => { n with inputs := n.inputs.set input source }

/-- the input of an edit -/
def getInput (d : Diagram) (slot input : Nat) : Except EditFault (Option Source) := do
  let n ← d.getNode slot
  match n.inputs[input]? with
  | some source => return source
  | none => throw (.inputOutOfRange slot input)

/-- whether an output and an input can be wired -/
def allows (d : Diagram) (source : Source) (slot input : Nat) : Except EditFault Unit := do
  let feeder ← d.getNode source.node
  if feeder.outputs.length ≤ source.output then
    throw (.outputOutOfRange source.node source.output)
  let _ ← d.getInput slot input

def connect (d : Diagram) (source : Source) (slot input : Nat) : Except EditFault Diagram := do
  d.allows source slot input
  return d.wire slot input (some source)

/-- drops the wire of an input; the result has its source -/
def disconnect (d : Diagram) (slot input : Nat) : Except EditFault (Option Source × Diagram) := do
  let source ← d.getInput slot input
  return (source, d.wire slot input none)

/-- an output that exists -/
def hasOutput (d : Diagram) (source : Source) : Bool :=
  match d.node? source.node with
  | some n => source.output < n.outputs.length
  | none => false

/-- a source that names an output that exists -/
def valid? (d : Diagram) : Option Source → Option Source
  | some source => if d.hasOutput source then some source else none
  | none => none

def prune (d : Diagram) : Diagram := d.mapNodes (·.mapInputs d.valid?)

/-- another text for a node; wires that no longer fit are dropped -/
def setText (d : Diagram) (slot : Nat) (text : String) : Except EditFault Diagram := do
  let _ ← d.getNode slot
  return (d.modify slot (·.setText text)).prune

def move (d : Diagram) (slot : Nat) (x y : Single) : Except EditFault Diagram := do
  let _ ← d.getNode slot
  return d.modify slot (·.moveTo x y)

/-- diagrams are equal when the same slots hold equal nodes -/
def same (a b : Diagram) : Bool :=
  let s := a.existing
  let t := b.existing
  s.length == t.length && (s.zip t).all fun (m, n) => m.1 == n.1 && m.2.same n.2

theorem node?_empty (slot : Nat) : empty.node? slot = none := by simp [empty, node?]

end Diagram

end Dataflow
