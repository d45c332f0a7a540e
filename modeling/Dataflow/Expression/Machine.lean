import Dataflow.Fault

/-!
# Stack machines

An expression is a sequence of operations on a stack, operands before their operator.  The grammar
(`Dataflow.Expression.Grammar`) knows nothing about values: it hands one operation after the other
to a machine and stops at the first that fails.

* `Op`              the operations;
* `Op.pops`         how many values an operation takes from the stack; it leaves one more;
* `Machine σ`       answers an operation, with a state `σ` that survives a failure;
* `recording`       the machine that writes down what it is asked and never fails;
* `Tally`, `tallying`   the machine that only counts, to check a statement without running it.
-/

namespace Dataflow

/-- how an argument of a call is written -/
inductive ArgumentForm where
  /-- `expression` -/
  | positional
  /-- `name = expression` -/
  | named (name : String)
deriving DecidableEq, Repr

/-- an operation on a stack of values -/
inductive Op where
  /-- puts an unsigned integer literal on the stack -/
  | number (digits : String)
  /-- puts a string literal on the stack -/
  | string (text : String)
  /-- puts the next input on the stack -/
  | input
  /-- puts what a name stands for on the stack -/
  | name (text : String)
  /-- takes so many values and puts a vector of them on the stack -/
  | vector (length : Nat)
  /-- takes a value and puts a member of it on the stack -/
  | member (name : String)
  /-- takes the arguments and what is called below them, and puts the result on the stack -/
  | call (forms : List ArgumentForm)
  /-- takes the right operand and the left one below it, and puts the result on the stack -/
  | binary (sign : Sign)
deriving DecidableEq, Repr

def Op.pops : Op → Nat
  | .number _ | .string _ | .input | .name _ => 0
  | .vector length => length
  | .member _ => 1
  | .call forms => forms.length + 1
  | .binary _ => 2

/-- answers operations; the state survives a failure -/
structure Machine (σ : Type) where
  step : Op → σ → Except Fault Unit × σ

namespace Machine

def recording : Machine (List Op) where
  step op ops := (.ok (), ops ++ [op])

end Machine

/-- what the checking machine counts -/
structure Tally where
  /-- values on the stack -/
  depth : Nat
  /-- inputs asked for -/
  inputs : Nat
deriving DecidableEq, Repr

namespace Machine

/-- counts values and inputs; an input is refused unless inputs are allowed -/
def tallying (allowInputs : Bool) : Machine Tally where
  step op t :=
    match op with
    | .input =>
      if allowInputs then (.ok (), ⟨t.depth + 1, t.inputs + 1⟩) else (.error .inputRejected, t)
    | op => (.ok (), ⟨t.depth - op.pops + 1, t.inputs⟩)

end Machine

end Dataflow
