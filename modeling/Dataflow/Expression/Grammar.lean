import Dataflow.Expression.Parse
import Dataflow.Token.Scan

/-!
# The grammar of expressions

Lowest precedence first:

    expression := product (('+' | '-') product)*
    product    := access (('*' | '/') access)*
    access     := primary ('.' NAME | '(' arguments ')')*
    primary    := '(' expression ')' | NUMBER | STRING | '$' | NAME
                | '[' (expression (',' expression)*)? ']'
    arguments  := (argument (',' argument)*)?
    argument   := NAME '=' expression | expression

A production reads its tokens and hands the operations to a machine in the order in which a stack
machine needs them.  `expression m n` allows `n` expressions inside each other, itself counted; the
productions between two levels take the reader of the inner level as an argument, so the nesting
alone bounds the recursion.  A loop of a production runs over the tokens that were ahead when it
began: every turn takes at least one, so they do not run out before the loop is done.
-/

namespace Dataflow.Expression

open Parse

variable {σ : Type}

/-- how many expressions may stand inside each other -/
def maxNesting : Nat := 128

def sumSign? : Token → Option Sign
  | .mark .plus => some .plus
  | .mark .minus => some .minus
  | _ => none

def productSign? : Token → Option Sign
  | .mark .star => some .times
  | .mark .slash => some .over
  | _ => none

/-- further operands, each applied as soon as it is read -/
def chainTail (m : Machine σ) (sign? : Token → Option Sign) (operand : Parse σ Unit) :
    List Token → Parse σ Unit
  | [] => pure ()
  | _ :: turns => do
    match sign? (← peek) with
    | none => pure ()
    | some sign =>
      let _ ← bump
      operand
      emit m (.binary sign)
      chainTail m sign? operand turns

/-- operands joined by the signs of one precedence, which group to the left -/
def chain (m : Machine σ) (sign? : Token → Option Sign) (operand : Parse σ Unit) :
    Parse σ Unit := do
  operand
  chainTail m sign? operand (← ahead)

/-- the name after a dot -/
def memberName (m : Machine σ) : Parse σ Unit := do
  match ← bump with
  | .name name => emit m (.member name)
  | .finish => fail .unexpectedEnd
  | found => fail (.unexpectedToken found .memberName)

/-- an argument: a name before an equals sign names it -/
def argument (inner : Parse σ Unit) : Parse σ ArgumentForm := do
  match ← peek, ← peekSecond with
  | .name name, .mark .equals =>
    let _ ← bump
    let _ ← bump
    inner
    pure (.named name)
  | _, _ =>
    inner
    pure .positional

def argumentList (inner : Parse σ Unit) : List Token → Parse σ (List ArgumentForm)
  | [] => pure []
  | _ :: turns => do
    let form ← argument inner
    if ← eat .comma then
      let forms ← argumentList inner turns
      pure (form :: forms)
    else pure [form]

/-- the arguments of a call, up to its closing parenthesis -/
def arguments (inner : Parse σ Unit) : Parse σ (List ArgumentForm) := do
  match ← peek with
  | .mark .closeParen => pure []
  | _ => argumentList inner (← ahead)

/-- members and calls, each applied to what stands before it -/
def accessTail (m : Machine σ) (inner : Parse σ Unit) : List Token → Parse σ Unit
  | [] => pure ()
  | _ :: turns => do
    if ← eat .dot then
      memberName m
      accessTail m inner turns
    else if ← eat .openParen then
      let forms ← arguments inner
      closeParen
      emit m (.call forms)
      accessTail m inner turns
    else pure ()

/-- the elements of a vector and its closing bracket; the result is how many there are -/
def elements (inner : Parse σ Unit) : List Token → Parse σ Nat
  | [] => pure 0
  | _ :: turns => do
    inner
    if ← eat .closeBracket then pure 1
    else if ← eat .comma then
      let more ← elements inner turns
      pure (more + 1)
    else fail .missingCloseBracket

def vector (m : Machine σ) (inner : Parse σ Unit) : Parse σ Unit := do
  if ← eat .closeBracket then emit m (.vector 0)
  else
    let length ← elements inner (← ahead)
    emit m (.vector length)

def primary (m : Machine σ) (inner : Parse σ Unit) : Parse σ Unit := do
  match ← bump with
  | .mark .openParen =>
    inner
    closeParen
  | .number digits => emit m (.number digits)
  | .string text => emit m (.string text)
  | .mark .dollar => emit m .input
  | .mark .openBracket => vector m inner
  | .name name => emit m (.name name)
  | .finish => fail .unexpectedEnd
  | found => fail (.unexpectedToken found .expression)

def access (m : Machine σ) (inner : Parse σ Unit) : Parse σ Unit := do
  primary m inner
  accessTail m inner (← ahead)

def product (m : Machine σ) (inner : Parse σ Unit) : Parse σ Unit :=
  chain m productSign? (access m inner)

def sum (m : Machine σ) (inner : Parse σ Unit) : Parse σ Unit :=
  chain m sumSign? (product m inner)

/-- an expression with at most so many levels, itself counted -/
def expression (m : Machine σ) : Nat → Parse σ Unit
  | 0 => fail (.nestingTooDeep maxNesting)
  | levels + 1 => sum m (expression m levels)

/-- an expression at the outermost level -/
def outermost (m : Machine σ) : Parse σ Unit := expression m maxNesting

/-- a complete expression -/
def complete (m : Machine σ) : Parse σ Unit := do
  outermost m
  finish

/-- drives a machine with a text that is one complete expression -/
def drive (m : Machine σ) (text : String) (s : σ) : Except Fault Unit × σ :=
  match Token.scan text with
  | .error fault => (.error fault, s)
  | .ok tokens =>
    match complete m tokens s with
    | (.ok _, s) => (.ok (), s)
    | (.error fault, s) => (.error fault, s)

end Dataflow.Expression
