import Dataflow.Fault
import Dataflow.Value.Basic

/-!
# Arithmetic on values

Floats with floats in every way; vectors of floats of one length are added and subtracted element by
element; a vector of floats is scaled by a float from either side and divided by one.
-/

namespace Dataflow

def Sign.onSingles : Sign → Single → Single → Single
  | .plus => Binary.add
  | .minus => Binary.sub
  | .times => Binary.mul
  | .over => Binary.div

namespace Value

/-- the elements of a vector that has to hold floats only -/
def floatElements (sign : Sign) (v : Value) : Except Fault (List Single) :=
  match v.floats? with
  | some xs => .ok xs
  | none => .error (.nonFloatVectorElement sign)

/-- a vector of floats -/
def ofFloats (xs : List Single) : Value := .vector (xs.map .float)

def apply (sign : Sign) (left right : Value) : Except Fault Value :=
  match sign, left, right with
  | sign, .float x, .float y => .ok (.float (sign.onSingles x y))
  | .plus, .vector a, .vector b | .minus, .vector a, .vector b => do
    if a.length ≠ b.length then throw (.vectorLengthMismatch a.length b.length)
    let xs ← floatElements sign left
    let ys ← floatElements sign right
    return ofFloats (List.zipWith sign.onSingles xs ys)
  | .times, .float k, .vector _ => do
    let xs ← floatElements sign right
    return ofFloats (xs.map (·.mul k))
  | .times, .vector _, .float k => do
    let xs ← floatElements sign left
    return ofFloats (xs.map (·.mul k))
  | .over, .vector _, .float k => do
    let xs ← floatElements sign left
    return ofFloats (xs.map (·.div k))
  | _, _, _ => .error (.invalidOperands sign left.typeName right.typeName)

end Value

end Dataflow
