import Dataflow.Expression.Grammar
import Dataflow.Feed
import Dataflow.Scope
import Dataflow.Value.Arithmetic
import Dataflow.Value.Member

/-!
# Evaluating expressions

`Machine.evaluating` is the stack machine over values: inputs come from a feed, names from the
scopes and the host's bindings around them.

* `Stack`                  the state of the machine, the top value first;
* `Expression.evaluate`    the value of a complete expression.

The machine falls back to `void` where a value is missing on its stack; the grammar hands over every
operand before its operator, so this does not happen.
-/

namespace Dataflow

/-- the state of the machine over values -/
structure Stack where
  /-- the top value first -/
  values : List Value
  feed : Feed
  /-- how often a member was taken from a value -/
  accesses : Nat

namespace Stack

def start (feed : Feed) : Stack := ⟨[], feed, 0⟩

/-- the value on top -/
def top (s : Stack) : Value := s.values.headD .void

def push (s : Stack) (v : Value) : Stack := { s with values := v :: s.values }

def drop (s : Stack) (n : Nat) : Stack := { s with values := s.values.drop n }

/-- the top values in the order in which they were pushed -/
def topMost (s : Stack) (n : Nat) : List Value := (s.values.take n).reverse

end Stack

namespace Machine

/-- leaves a result on the stack, or fails with the operands taken -/
def leave (s : Stack) : Except Fault Value → Except Fault Unit × Stack
  | .ok v => (.ok (), s.push v)
  | .error fault => (.error fault, s)

/-- the stack machine over values -/
def evaluating (root : Root) (scopes : Scopes) (scope : Option Nat) (site : Site) :
    Machine Stack where
  step op s :=
    match op with
    | .number digits => leave s (.ok (.float (Binary.ofDigits digits.toList)))
    | .string text => leave s (.ok (.string text))
    | .input =>
      match s.feed.take with
      | some (v, feed) => leave { s with feed } (.ok v)
      | none => (.error .noMoreInputs, s)
    | .name name =>
      match scopes.find? root.environment scope name with
      | some v => leave s (.ok v)
      | none => (.error (.unknownIdentifier name), s)
    | .vector length => leave (s.drop length) (.ok (.vector (s.topMost length)))
    | .member name =>
      leave { s.drop 1 with accesses := s.accesses + 1 }
        (s.top.memberOf (.fetched site s.accesses) name)
    | .call forms =>
      let below := s.drop forms.length
      leave (below.drop 1) (below.top.call root.host forms (s.topMost forms.length))
    | .binary sign => leave (s.drop 2) (Value.apply sign (s.drop 1).top s.top)

end Machine

namespace Expression

def evaluate (root : Root) (scopes : Scopes) (scope : Option Nat) (site : Site) (text : String)
    (feed : Feed) : Except Fault Value × Feed :=
  match drive (.evaluating root scopes scope site) text (.start feed) with
  | (.ok (), s) => (.ok s.top, s.feed)
  | (.error fault, s) => (.error fault, s.feed)

end Expression

end Dataflow
