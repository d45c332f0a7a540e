import Dataflow.Binary.Decimal
import Dataflow.Text.Lines
import Dataflow.Text.Letter
import Dataflow.Text.Hidden
import Dataflow.Token.Scan
import Dataflow.Expression.Grammar
import Dataflow.Value.Same
import Dataflow.Value.Member
import Dataflow.Value.Arithmetic
import Dataflow.Value.Call
import Dataflow.Expression.Evaluate
import Dataflow.Sink
import Dataflow.Statement.Shape
import Dataflow.Statement.Run
import Dataflow.Callbacks
import Dataflow.Diagram
import Dataflow.Evaluation
import Dataflow.Saved.Load
import Dataflow.Saved.Save
import Dataflow.Observed
import Dataflow.Report
import Dataflow.Settings
import Dataflow.Settings.Load
import Dataflow.Settings.Save
import Dataflow.Run
import Dataflow.Main
import Dataflow.Proofs.Cycle
import Dataflow.Proofs.Walk
import Dataflow.Proofs.Schedule
import Dataflow.Proofs.Pass
import Dataflow.Proofs.Alone
import Dataflow.Proofs.Reading
import Dataflow.Proofs.Tree
import Dataflow.Proofs.Sound
import Dataflow.Proofs.Complete
import Dataflow.Proofs.Unambiguous
import Dataflow.Proofs.Accepted
import Dataflow.Proofs.Interpreter
import Dataflow.Proofs.Faults
import Dataflow.Proofs.Replay
import Dataflow.Proofs.Callbacks
import Dataflow.Proofs.Account
import Dataflow.Proofs.Decimal
import Dataflow.Proofs.Item
import Dataflow.Proofs.Shape
import Dataflow.Proofs.Built
import Dataflow.Proofs.Rebuild
import Dataflow.Proofs.Written
import Dataflow.Proofs.RoundTrip
import Dataflow.Proofs.Check
import Dataflow.Proofs.Agreement
import Dataflow.Proofs.Edits
import Dataflow.Proofs.Coherence
import Dataflow.Proofs.Failed
import Dataflow.Proofs.Scanning
import Dataflow.Proofs.Filling
import Dataflow.Proofs.Steady
import Dataflow.Proofs.Trace
import Dataflow.Proofs.Alignment
import Dataflow.Proofs.Effect
import Dataflow.Proofs.Lexical
import Dataflow.Proofs.Reload
import Dataflow.Proofs.Attribution
import Dataflow.Proofs.Verdict
import Dataflow.Proofs.Graph
import Dataflow.Proofs.Registry
import Dataflow.Proofs.Spelling
import Dataflow.Proofs.Extension
import Dataflow.Proofs.Renumber
import Dataflow.Proofs.Again
import Dataflow.Proofs.Brackets
import Dataflow.Proofs.History
import Dataflow.Proofs.Contents
import Dataflow.Proofs.Assembly
import Dataflow.Proofs.Reorder
import Dataflow.Proofs.Duplicates
import Dataflow.Proofs.Handover
import Dataflow.Proofs.Height
import Dataflow.Proofs.Lossless
import Dataflow.Proofs.Assignment
import Dataflow.Proofs.Equality
import Dataflow.Proofs.Likeness
import Dataflow.Proofs.Construction
import Dataflow.Proofs.Guarded
import Dataflow.Proofs.Dangling
import Dataflow.Proofs.OwnText
import Dataflow.Proofs.Layout
import Dataflow.Proofs.Position
import Dataflow.Proofs.Chains
