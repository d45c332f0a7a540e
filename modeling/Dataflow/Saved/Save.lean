import Dataflow.Diagram
import Dataflow.Text.Quoted

/-!
# Saving a diagram

`Saved.save` writes the existing nodes in ascending order, each with its number, position, lines,
held outputs and connections, one entry a line, every block indented by two more blanks.
-/

namespace Dataflow.Saved

/-- a line of the saved form -/
def entryLine (depth : Nat) (text : String) : String :=
  String.ofList (List.replicate (2 * depth) ' ') ++ text ++ "\n"

/-- a block with what stands in it -/
def blockText (depth : Nat) (tag : String) (inside : String) : String :=
  entryLine depth (tag ++ " \x7b") ++ inside ++ entryLine depth "\x7d"

/-- an entry with a value -/
def valueText (depth : Nat) (tag value : String) : String := entryLine depth (tag ++ ": " ++ value)

def connectionText (source : Option Source) (input : Nat) : String :=
  match source with
  | none => ""
  | some source =>
    blockText 2 "connection"
      (valueText 3 "input_index" (toString input)
        ++ valueText 3 "source_node_id" (toString (source.node + 1))
        ++ valueText 3 "source_output_index" (toString source.output))

def nodeText (slot : Nat) (n : Node) : String :=
  blockText 1 "node"
    (valueText 2 "id" (toString (slot + 1))
      ++ blockText 2 "position" (valueText 3 "x" n.x.text ++ valueText 3 "y" n.y.text)
      ++ String.join (n.lines.map fun line => valueText 2 "line" (Text.quote line.text))
      ++ String.join (n.heldOutputs.map fun s => valueText 2 "sticky_output" (toString s))
      ++ String.join (n.inputs.zipIdx.map fun (source, input) => connectionText source input))

/-- the saved form of a diagram -/
def save (d : Diagram) : String :=
  blockText 0 "diagram" (String.join (d.existing.map fun (slot, n) => nodeText slot n))

end Dataflow.Saved
