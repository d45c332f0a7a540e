import Dataflow.Expression.Evaluate
import Dataflow.Sink

/-!
# Running statements

    statement := 'show' '(' expression ')' | 'return' expression | NAME '=' expression | expression

* `Form`               which of the four a statement is, told by its first two tokens;
* `Statement.read`     reads a statement into a machine;
* `Statement.check`    checks a statement without running it, and counts the inputs it reads;
* `Session`, `Statement.run`   runs a statement after others of its node.

Showing, returning and assigning have no value of their own.  An assignment opens a scope, which the
later statements of the node see.
-/

namespace Dataflow

/-- the forms of a statement -/
inductive Form where
  /-- `show(expression)` -/
  | display
  /-- `return expression` -/
  | result
  /-- `name = expression` -/
  | assignment (name : String)
  | expression
deriving DecidableEq, Repr

/-- what the statements of a node share: the scopes of the evaluation, the scope in force, the
inputs of the node, and the state of the host -/
structure Session (σ : Type) where
  scopes : Scopes
  scope : Option Nat
  feed : Feed
  host : σ

namespace Session

variable {σ : Type}

/-- before the first statement of a node -/
def start (scopes : Scopes) (inputs : List Value) (host : σ) : Session σ :=
  ⟨scopes, none, .ofList inputs, host⟩

/-- makes an input the next one to be read -/
def seek (s : Session σ) (index : Nat) : Session σ := { s with feed := s.feed.seek index }

/-- opens a scope inside the one in force -/
def assign (s : Session σ) (name : String) (v : Value) : Session σ :=
  { s with scopes := s.scopes.push ⟨name, v, s.scope⟩, scope := some s.scopes.size }

end Session

namespace Statement

open Parse

variable {σ : Type}

/-- tells the form of a statement and passes over the tokens that mark it -/
def readForm : Parse σ Form := do
  match ← peek, ← peekSecond with
  | .name "show", .mark .openParen =>
    let _ ← bump
    let _ ← bump
    pure .display
  | .name "return", _ =>
    let _ ← bump
    pure .result
  | .name name, .mark .equals =>
    let _ ← bump
    let _ ← bump
    pure (.assignment name)
  | _, _ => pure .expression

def read (m : Machine σ) : Parse σ Form := do
  let form ← readForm
  Expression.outermost m
  if form = .display then closeParen
  finish
  pure form

/-- reads a statement text into a machine -/
def drive (m : Machine σ) (text : String) (s : σ) : Except Fault Form × σ :=
  match Token.scan text with
  | .error fault => (.error fault, s)
  | .ok tokens =>
    match read m tokens s with
    | (.ok (form, _), s) => (.ok form, s)
    | (.error fault, s) => (.error fault, s)

/-- checks a statement; the result is how many inputs it reads -/
def check (text : String) : Except Fault Nat :=
  match drive (.tallying true) text ⟨0, 0⟩ with
  | (.ok _, t) => .ok t.inputs
  | (.error fault, _) => .error fault

/-- lets the value of a statement take effect -/
def conclude (sink : Sink σ) (form : Form) (v : Value) (s : Session σ) :
    Except Fault Value × Session σ :=
  match form with
  | .display => (.ok .void, { s with host := sink.display v s.host })
  | .result =>
    match sink.accept v s.host with
    | (.ok (), host) => (.ok .void, { s with host })
    | (.error fault, host) => (.error fault, { s with host })
  | .assignment name =>
    (.ok .void, { s with host := sink.remark (name ++ " = " ++ v.text) s.host }.assign name v)
  | .expression => (.ok v, s)

def run (root : Root) (sink : Sink σ) (site : Site) (text : String) (s : Session σ) :
    Except Fault Value × Session σ :=
  match drive (.evaluating root s.scopes s.scope site) text (.start s.feed) with
  | (.ok form, stack) => conclude sink form stack.top { s with feed := stack.feed }
  | (.error fault, stack) => (.error fault, { s with feed := stack.feed })

end Statement

end Dataflow
