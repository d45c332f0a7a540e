import Dataflow.Scope
import Dataflow.Settings.Number

/-!
# Settings of a run

What a run binds around a diagram: plain values, record classes and bodies, with the type that a
returned value has to have.

* `Literal`               a plain value;
* `Settings`, `standard`  the settings, and those that hold when nothing is written;
* `Settings.environment`  the bindings of a run.

The built-in functions are bound first, then plain values, classes and bodies.  A name that comes
again has its last meaning.
-/

namespace Dataflow

/-- a plain value -/
inductive Literal where
  | float (x : Figure)
  | string (text : String)
  | vector (items : List Literal)

namespace Literal

instance : Inhabited Literal := ⟨.vector []⟩

mutual

def value : Literal → Value
  | .float x => .float x.value
  | .string text => .string text
  | .vector items => .vector (values items)

def values : List Literal → List Value
  | [] => []
  | l :: rest => value l :: values rest

end

mutual

/-- equality, floats being compared as numbers -/
def same : Literal → Literal → Bool
  | .float x, .float y => x.same y
  | .string a, .string b => a == b
  | .vector a, .vector b => sameItems a b
  | _, _ => false

def sameItems : List Literal → List Literal → Bool
  | [], [] => true
  | l :: rest, m :: rest' => same l m && sameItems rest rest'
  | _, _ => false

end

end Literal

/-- a record class: its parameters, each with its default if it has one -/
structure ClassSetting where
  name : String
  parameters : List (String × Option Literal)

namespace ClassSetting

/-- the class as a value that the host binds -/
def value (c : ClassSetting) (origin : Origin) : Value :=
  .classRef origin c.name
    (some (c.parameters.map fun (name, default) => (name, default.map Literal.value)))

end ClassSetting

/-- a body: where it is and how it is turned -/
structure BodySetting where
  x : Figure
  y : Figure
  /-- in degrees -/
  rotation : Figure
deriving DecidableEq

namespace BodySetting

def body (b : BodySetting) : Body := ⟨b.x.value, b.y.value, b.rotation.value⟩

def same (a b : BodySetting) : Bool := a.body.same b.body

end BodySetting

/-- what a run is told -/
structure Settings where
  /-- of the form in which settings are written -/
  version : Nat
  /-- the type that a returned value has to have, if any -/
  expected : Option String
  bindings : List (String × Literal)
  classes : List ClassSetting
  bodies : List (String × BodySetting)
  /-- how long a watched file has to be quiet, in milliseconds -/
  debounce : Nat

namespace Settings

/-- the version written now, and the latest one that can be read -/
def currentVersion : Nat := 1

def standard : Settings := ⟨currentVersion, none, [], [], [], 250⟩

/-- the functions that are always bound -/
def builtIns : List (String × Value) :=
  [("sqrt", .function ⟨.bound 0, .sqrt⟩), ("length", .function ⟨.bound 1, .length⟩)]

/-- how many origins the bindings take, from zero on -/
def originCount (s : Settings) : Nat := builtIns.length + s.classes.length

/-- equality of lists of named things -/
def sameTable {α : Type} (same : α → α → Bool) (a b : List (String × α)) : Bool :=
  Named.names a == Named.names b && (a.zip b).all fun (s, t) => same s.2 t.2

/-- equality of values that may be left out -/
def sameOption {α : Type} (same : α → α → Bool) : Option α → Option α → Bool
  | some a, some b => same a b
  | none, none => true
  | _, _ => false

/-- equality of settings, floats being compared as numbers -/
def same (s t : Settings) : Bool :=
  s.version == t.version && s.expected == t.expected
    && sameTable Literal.same s.bindings t.bindings
    && sameTable (sameTable (sameOption Literal.same))
      (s.classes.map fun c => (c.name, c.parameters))
      (t.classes.map fun c => (c.name, c.parameters))
    && sameTable BodySetting.same s.bodies t.bodies && s.debounce == t.debounce

/-- everything bound, in order -/
def bound (s : Settings) : List (String × Value) :=
  builtIns
    ++ s.bindings.map (fun (name, l) => (name, l.value))
    ++ s.classes.zipIdx.map (fun (c, i) => (c.name, c.value (.bound (builtIns.length + i))))
    ++ s.bodies.map (fun (name, b) => (name, .body b.body))

def environment (s : Settings) : Environment :=
  s.bound.foldl (fun env (name, v) => env.bind name v) .empty

end Settings

end Dataflow
