import Dataflow.Evaluation
import Dataflow.Json

/-!
# Reports

What a run has to say about a pass, with all values as text.

* `Report.ofResults`     every existing node in ascending order with its outputs and failed lines;
* `Report.withHost`      adds what the host was shown and what was returned;
* `Report.errorCount`    the failed lines of all nodes;
* `Report.text`, `json`  the two written forms.

Nodes are numbered by slot from one on, lines within their node from one on and outputs from zero
on.  A slot has no entry in the results' lines exactly when it is empty.
-/

namespace Dataflow

/-- a failed line; the first line of a node is 1 -/
structure LineReport where
  line : Nat
  message : String
deriving DecidableEq, Repr

/-- a node, numbered as saved -/
structure NodeReport where
  id : Nat
  outputs : List String
  errors : List LineReport
deriving DecidableEq, Repr

structure Report where
  nodes : List NodeReport
  shown : List String
  returned : Option String
deriving DecidableEq, Repr

namespace LineReport

/-- the failed lines of a node -/
def ofMessages (messages : List String) : List LineReport :=
  messages.zipIdx.filterMap fun (message, index) =>
    if message = "" then none else some ⟨index + 1, message⟩

def text (r : LineReport) : String := s!"  line {r.line}: error: {r.message}\n"

def json (r : LineReport) : Json :=
  .object [("line", .number r.line), ("message", .string r.message)]

end LineReport

namespace NodeReport

def ofResult (slot : Nat) (r : NodeResult) : NodeReport :=
  ⟨slot + 1, r.outputs.map Value.text, LineReport.ofMessages r.errors⟩

def text (r : NodeReport) : String :=
  s!"node {r.id}\n"
    ++ String.join (r.outputs.zipIdx.map fun (output, index) => s!"  out {index}: {output}\n")
    ++ String.join (r.errors.map LineReport.text)

def json (r : NodeReport) : Json :=
  .object [("id", .number r.id), ("outputs", .array (r.outputs.map .string)),
    ("errors", .array (r.errors.map LineReport.json))]

end NodeReport

namespace Report

def ofResults (r : Results) : Report :=
  ⟨r.nodes.toList.zipIdx.filterMap fun (node, slot) =>
    if node.errors = [] then none else some (.ofResult slot node), [], none⟩

def withHost (r : Report) (host : Collector) : Report :=
  { r with shown := host.shown.toList.map Value.text, returned := host.returned.map Value.text }

def errorCount (r : Report) : Nat :=
  r.nodes.foldr (fun node count => node.errors.length + count) 0

def text (r : Report) : String :=
  String.join (r.nodes.map NodeReport.text)
    ++ String.join (r.shown.map fun v => s!"show: {v}\n")
    ++ ((r.returned.map fun v => s!"return: {v}\n").getD "")

def json (r : Report) : Json :=
  .object [("nodes", .array (r.nodes.map NodeReport.json)), ("shown", .array (r.shown.map .string)),
    ("return_value", (r.returned.map Json.string).getD .null)]

end Report

end Dataflow
