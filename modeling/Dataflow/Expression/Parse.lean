import Dataflow.Expression.Machine

/-!
# Reading tokens into a machine

`Parse σ α` is a reading step: from the tokens ahead and the state of a machine to a result and the
tokens left, or to a fault.  The state of the machine is kept in both cases.

* `peek`, `peekSecond`, `bump`, `eat`   look at the tokens ahead and pass over them; nothing gets
                                        past `finish`;
* `emit`                                hands an operation to the machine.
-/

namespace Dataflow

/-- a reading step -/
def Parse (σ α : Type) : Type := List Token → σ → Except Fault (α × List Token) × σ

namespace Parse

variable {σ α β : Type}

def fail (fault : Fault) : Parse σ α := fun _ s => (.error fault, s)

instance : Monad (Parse σ) where
  pure a := fun tokens s => (.ok (a, tokens), s)
  bind p next := fun tokens s =>
    match p tokens s with
    | (.ok (a, rest), s) => next a rest s
    | (.error fault, s) => (.error fault, s)

def peek : Parse σ Token := fun tokens s => (.ok (tokens.headD .finish, tokens), s)

def peekSecond : Parse σ Token := fun tokens s => (.ok (tokens.tail.headD .finish, tokens), s)

/-- the tokens ahead, to bound a loop that takes one of them in every turn -/
def ahead : Parse σ (List Token) := fun tokens s => (.ok (tokens, tokens), s)

def bump : Parse σ Token := fun tokens s =>
  match tokens with
  | [] => (.ok (.finish, []), s)
  | .finish :: rest => (.ok (.finish, .finish :: rest), s)
  | t :: rest => (.ok (t, rest), s)

def eat (m : Mark) : Parse σ Bool := fun tokens s =>
  match tokens with
  | .mark n :: rest => if n = m then (.ok (true, rest), s) else (.ok (false, tokens), s)
  | _ => (.ok (false, tokens), s)

def emit (m : Machine σ) (op : Op) : Parse σ Unit := fun tokens s =>
  match m.step op s with
  | (.ok (), s) => (.ok ((), tokens), s)
  | (.error fault, s) => (.error fault, s)

/-- asks for a closing parenthesis -/
def closeParen : Parse σ Unit := do
  if ← eat .closeParen then pure () else fail .missingCloseParen

/-- asks for the end of the statement -/
def finish : Parse σ Unit := do
  match ← peek with
  | .finish => pure ()
  | found => fail (.trailingInput found)

theorem bind_eq (p : Parse σ α) (next : α → Parse σ β) (tokens : List Token) (s : σ) :
    (p >>= next) tokens s =
      match p tokens s with
      | (.ok (a, rest), s) => next a rest s
      | (.error fault, s) => (.error fault, s) := rfl

theorem pure_eq (a : α) (tokens : List Token) (s : σ) :
    (pure a : Parse σ α) tokens s = (.ok (a, tokens), s) := rfl

end Parse

end Dataflow
