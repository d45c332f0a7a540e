import Dataflow.Fault
import Dataflow.Value.Basic

/-!
# Members of values

`Value.memberOf` looks a member up: `x` and `y` of a point first, then the members of an object.
-/

namespace Dataflow.Value

/-- a member by name; a method comes to be at the given origin -/
def member? (origin : Origin) (v : Value) (name : String) : Option Value :=
  Named.get? (v.members origin) name

/-- the coordinates of a point -/
def coordinate? (v : Value) (name : String) : Option Value :=
  match v.point? with
  | some (x, y) =>
    if name = "x" then some (.float x)
    else if name = "y" then some (.float y)
    else none
  | none => none

def memberOf (origin : Origin) (v : Value) (name : String) : Except Fault Value :=
  match v.coordinate? name with
  | some found => .ok found
  | none =>
    match v.member? origin name with
    | some found => .ok found
    | none => .error (.unknownMember v.typeName name)

end Dataflow.Value
