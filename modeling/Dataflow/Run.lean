import Dataflow.Report
import Dataflow.Settings

/-!
# Runs and checks

* `Diagram.run`          a pass over a diagram with the bindings of some settings;
* `Run.succeeds`         no line failed, and if a type was asked for a value of it was returned;
* `Diagram.complaints`   the statements that are malformed, found without running them.

A returned value of another type than the one asked for fails its line, so a returned value that is
there has the right type.
-/

namespace Dataflow

/-- a finished run -/
structure Run where
  report : Report
  log : List LogLine
  /-- the type that was asked for, if any -/
  expected : Option String

namespace Run

/-- whether a returned value was asked for and there is none -/
def lacksValue (r : Run) : Bool := r.expected.isSome && r.report.returned.isNone

def succeeds (r : Run) : Bool := !r.lacksValue && r.report.errorCount == 0

end Run

/-- the root of a run: its host adds nothing -/
def Settings.root (s : Settings) : Root := ⟨s.environment, .none⟩

/-- runs a diagram; a type asked for here goes before the one in the settings -/
def Diagram.run (d : Diagram) (s : Settings) (expect : Option String) : Run :=
  let expected := expect.or s.expected
  let (results, host) := d.evaluate s.root .collecting 0 .empty (.expecting expected)
  ⟨(Report.ofResults results).withHost host, host.log.toList, expected⟩

/-- a malformed statement: its node as numbered when saved, its first line, counted from one on, and
what is wrong -/
structure Complaint where
  id : Nat
  line : Nat
  fault : Fault
deriving DecidableEq, Repr

/-- the malformed ones of some statements, of which the first one begins at a line -/
def Node.complaintsFrom (id line : Nat) : List (List Line) → List Complaint
  | [] => []
  | lines :: rest =>
    let text := Node.textOf lines
    let later := complaintsFrom id (line + lines.length) rest
    if Statement.isBlank text then later
    else match Statement.check text with
      | .ok _ => later
      | .error fault => ⟨id, line, fault⟩ :: later

def Diagram.complaints (d : Diagram) : List Complaint :=
  d.existing.flatMap fun (slot, n) => Node.complaintsFrom (slot + 1) 1 n.statementLines

end Dataflow
