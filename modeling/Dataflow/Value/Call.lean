import Dataflow.Expression.Machine
import Dataflow.Value.Text

/-!
# Calls and construction

* `Host`             what the host adds to the language: functions and constructors known by name;
* `Value.call`       calls a function or constructs an object of a class;
* `Value.construct`  an object of a record class from named arguments.

Construction takes named arguments only.  The arguments are looked at in the order of the call, so
of two mistakes the first one is reported.
-/

namespace Dataflow

/-- the arguments of a call: the positional ones in order, and the named ones in order -/
structure Arguments where
  positional : List Value
  named : List (String × Value)

/-- functions and constructors of the host, known by name, that answer by their arguments alone -/
structure Host where
  call : String → Arguments → Except Fault Value
  construct : String → List (String × Value) → Except Fault Value

/-- a host that adds nothing -/
def Host.none : Host where
  call name _ := .error (.unknownIdentifier name)
  construct name _ := .error (.unknownIdentifier name)

namespace Arguments

/-- adds a named argument; a name may be given once -/
def name (args : List (String × Value)) (name : String) (v : Value) :
    Except Fault (List (String × Value)) :=
  match Named.get? args name with
  | some _ => .error (.duplicateArgument name)
  | none => .ok (args ++ [(name, v)])

/-- the arguments of a construction, which have to be named -/
def onlyNamed (className : String) :
    List (ArgumentForm × Value) → List (String × Value) → Except Fault (List (String × Value))
  | [], args => .ok args
  | (.positional, _) :: _, _ => .error (.positionalConstruction className)
  | (.named n, v) :: rest, args =>
    match name args n v with
    | .ok args => onlyNamed className rest args
    | .error fault => .error fault

/-- the arguments of a function call -/
def collect : List (ArgumentForm × Value) → Arguments → Except Fault Arguments
  | [], args => .ok args
  | (.positional, v) :: rest, args =>
    collect rest { args with positional := args.positional ++ [v] }
  | (.named n, v) :: rest, args =>
    match name args.named n v with
    | .ok named => collect rest { args with named }
    | .error fault => .error fault

/-- for a function that takes positional arguments only -/
def onlyPositional (args : Arguments) (run : List Value → Except Fault Value) :
    Except Fault Value :=
  if args.named.isEmpty then run args.positional else .error .namedArgumentsNotAccepted

end Arguments

namespace Routine

def squareRoot : List Value → Except Fault Value
  | [v] =>
    match v.float? with
    | none => .error (.host s!"sqrt expects a float, got {v.typeName}")
    | some x =>
      if x.isBelowZero then .error (.host s!"sqrt of negative number {x.text}")
      else .ok (.float x.sqrt)
  | args => .error (.wrongArgumentCount 1 args.length)

/-- the squares are added from left to right onto a negative zero, so nothing has length `-0` -/
def vectorLength : List Value → Except Fault Value
  | [v] =>
    match v.floats? with
    | none => .error (.host s!"length expects a vector of floats, got {v.text}")
    | some xs => .ok (.float (xs.foldl (fun sum x => sum.add (x.mul x)) (Binary.zero true)).sqrt)
  | args => .error (.wrongArgumentCount 1 args.length)

def whereabouts (b : Body) : List Value → Except Fault Value
  | [] => .ok (.point b.x b.y)
  | args => .error (.wrongArgumentCount 0 args.length)

def movedBy (b : Body) : List Value → Except Fault Value
  | [dx, dy] =>
    match dx.float?, dy.float? with
    | some dx, some dy => .ok (.body { b with x := b.x.add dx, y := b.y.add dy })
    | _, _ => .error (.host "moved expects float offsets")
  | args => .error (.wrongArgumentCount 2 args.length)

def run (host : Host) (r : Routine) (args : Arguments) : Except Fault Value :=
  match r with
  | .sqrt => args.onlyPositional squareRoot
  | .length => args.onlyPositional vectorLength
  | .position b => args.onlyPositional (whereabouts b)
  | .moved b => args.onlyPositional (movedBy b)
  | .host name => host.call name args

end Routine

namespace Value

/-- what a parameter gets: the argument, or else the default -/
def parameterValue (className : String) (args : List (String × Value))
    (parameter : String × Option Value) : Except Fault (String × Value) :=
  match Named.get? args parameter.1, parameter.2 with
  | some v, _ => .ok (parameter.1, v)
  | none, some v => .ok (parameter.1, v)
  | none, none => .error (.missingParameter className parameter.1)

/-- an object of a record class; every argument has to be a parameter, and every parameter has to
get a value -/
def construct (className : String) (parameters : List (String × Option Value))
    (args : List (String × Value)) : Except Fault Value :=
  match (Named.names args).find? fun name => (Named.get? parameters name).isNone with
  | some name => .error (.unknownParameter className name)
  | none => (parameters.mapM (parameterValue className args)).map (.record className)

def call (host : Host) (callee : Value) (forms : List ArgumentForm) (values : List Value) :
    Except Fault Value :=
  match callee with
  | .classRef _ name parameters =>
    match Arguments.onlyNamed name (forms.zip values) [] with
    | .error fault => .error fault
    | .ok args =>
      match parameters with
      | some parameters => construct name parameters args
      | none => host.construct name args
  | .function f =>
    match Arguments.collect (forms.zip values) ⟨[], []⟩ with
    | .error fault => .error fault
    | .ok args => f.routine.run host args
  | other => .error (.notCallable other.typeName)

end Value

end Dataflow
