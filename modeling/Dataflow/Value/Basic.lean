import Dataflow.Binary.Decimal
import Dataflow.Named

/-!
# Values

* `Value`            what expressions compute: nothing, 32-bit floats, strings, vectors of values,
                     objects (records and bodies), functions and classes;
* `Value.typeName`   the type of a value as a diagram sees it;
* `Value.members`    the members of an object in order;
* `Value.point?`, `Value.floats?`   a vector seen as a point or as a list of floats.

Functions and classes are told apart by where they came to be, their `Origin`: one that the host
binds by its number among the bindings, a method by the place in the diagram where it was taken from
its object, which happens anew at every access.
-/

namespace Dataflow

/-- a place in an evaluation: which pass, the slot of the node, and which of its statements -/
structure Site where
  pass : Nat
  slot : Nat
  statement : Nat
deriving DecidableEq, Repr

/-- where a function or a class came to be -/
inductive Origin where
  /-- bound by the host, with a number -/
  | bound (index : Nat)
  /-- taken from an object: where, and how many accesses came before it there -/
  | fetched (site : Site) (count : Nat)
deriving DecidableEq, Repr

/-- a rigid body in a scene -/
structure Body where
  x : Single
  y : Single
  /-- in degrees -/
  rotation : Single
deriving DecidableEq

/-- what a function does -/
inductive Routine where
  /-- the square root of a float -/
  | sqrt
  /-- the length of a vector of floats -/
  | length
  /-- where a body is -/
  | position (b : Body)
  /-- a body at an offset -/
  | moved (b : Body)
  /-- left to the host, which knows it by name -/
  | host (name : String)
deriving DecidableEq

/-- something that can be called -/
structure Function where
  origin : Origin
  routine : Routine
deriving DecidableEq

/-- a dynamically typed value -/
inductive Value where
  | void
  | float (x : Single)
  | string (text : String)
  | vector (items : List Value)
  /-- an object with a type name and named fields -/
  | record (typeName : String) (fields : List (String × Value))
  /-- an object that stands for a body -/
  | body (b : Body)
  | function (f : Function)
  /-- a class whose objects are records with these parameters, each with its default if it has one;
  without parameters the host constructs the objects -/
  | classRef (origin : Origin) (name : String) (parameters : Option (List (String × Option Value)))

namespace Value

instance : Inhabited Value := ⟨.void⟩

/-- a vector of two floats -/
def point (x y : Single) : Value := .vector [.float x, .float y]

def typeName : Value → String
  | .void => "void"
  | .float _ => "float"
  | .string _ => "string"
  | .vector _ => "vector"
  | .record typeName _ => typeName
  | .body _ => "Body"
  | .function _ => "function"
  | .classRef .. => "class"

def isVoid : Value → Bool
  | .void => true
  | _ => false

def isFunction : Value → Bool
  | .function _ => true
  | _ => false

def float? : Value → Option Single
  | .float x => some x
  | _ => none

def string? : Value → Option String
  | .string text => some text
  | _ => none

def point? : Value → Option (Single × Single)
  | .vector [.float x, .float y] => some (x, y)
  | _ => none

def floats? : Value → Option (List Single)
  | .vector items => items.mapM float?
  | _ => none

end Value

namespace Body

/-- the members of a body; its methods come to be where they are taken -/
def members (b : Body) (origin : Origin) : List (String × Value) :=
  [("position", .point b.x b.y), ("rotation", .float b.rotation),
   ("pos", .function ⟨origin, .position b⟩), ("moved", .function ⟨origin, .moved b⟩)]

/-- equality of bodies, by their numbers -/
def same (a b : Body) : Bool := a.x.same b.x && a.y.same b.y && a.rotation.same b.rotation

end Body

namespace Value

/-- the members of an object in order; other values have none -/
def members (origin : Origin) : Value → List (String × Value)
  | .record _ fields => fields
  | .body b => b.members origin
  | _ => []

end Value

end Dataflow
