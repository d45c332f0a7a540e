import Dataflow.Value.Basic

/-!
# Equality of values

`Value.same` is the equality that a host sees.  Floats are compared as numbers, functions and
classes by their origin.  Objects are equal when they have the same type, the same member names in
the same order and equal members; a member that is a function on both sides counts as equal, since
the methods of an object come to be anew at every access.
-/

namespace Dataflow.Value

/-- the fields of a record called `Body` against the members of a body -/
def sameAsBody (fields : List (String × Value)) (b : Body) : Bool :=
  match fields with
  | [(n₁, .vector [.float x, .float y]), (n₂, .float r), (n₃, .function _), (n₄, .function _)] =>
    [n₁, n₂, n₃, n₄] == ["position", "rotation", "pos", "moved"] && Body.same ⟨x, y, r⟩ b
  | _ => false

mutual

def same : Value → Value → Bool
  | .void, .void => true
  | .float x, .float y => x.same y
  | .string a, .string b => a == b
  | .vector a, .vector b => sameItems a b
  | .record s a, .record t b => s == t && sameFields a b
  | .record s a, .body b => s == "Body" && sameAsBody a b
  | .body a, .record t b => t == "Body" && sameAsBody b a
  | .body a, .body b => a.same b
  | .function f, .function g => f.origin == g.origin
  | .classRef a _ _, .classRef b _ _ => a == b
  | _, _ => false

def sameItems : List Value → List Value → Bool
  | [], [] => true
  | v :: rest, w :: rest' => same v w && sameItems rest rest'
  | _, _ => false

def sameFields : List (String × Value) → List (String × Value) → Bool
  | [], [] => true
  | (m, v) :: rest, (n, w) :: rest' =>
    m == n && (v.isFunction && w.isFunction || same v w) && sameFields rest rest'
  | _, _ => false

end

end Dataflow.Value
