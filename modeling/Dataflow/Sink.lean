import Dataflow.Log
import Dataflow.Value.Call

/-!
# Where statements take effect

* `Sink σ`        what a host does with shown and returned values, over a state `σ`;
* `Collector`     the state of the standard host: it keeps shown values and the returned value;
* `collecting`    the sink over it.

A collector that expects a type refuses every return of another one.
-/

namespace Dataflow

/-- receives the effects of statements -/
structure Sink (σ : Type) where
  /-- a shown value -/
  display : Value → σ → σ
  /-- a returned value; refusing it fails the statement that returns it -/
  accept : Value → σ → Except Fault Unit × σ
  /-- a remark on what was computed -/
  remark : String → σ → σ

/-- what the standard host keeps -/
structure Collector where
  /-- the type that a return has to have, if any -/
  expected : Option String
  /-- shown values in order -/
  shown : Array Value
  returned : Option Value
  log : Array LogLine

namespace Collector

/-- nothing seen yet -/
def expecting (typeName : Option String) : Collector := ⟨typeName, #[], none, #[]⟩

def say (c : Collector) (level : Level) (message : String) : Collector :=
  { c with log := c.log.push ⟨level, message⟩ }

/-- whether a return of this value is allowed -/
def allows (c : Collector) (v : Value) : Except Fault Unit :=
  match c.expected with
  | some typeName =>
    if v.typeName = typeName then .ok () else .error (.returnTypeMismatch typeName v.typeName)
  | none => .ok ()

/-- keeps a value as the returned one, in place of an earlier one -/
def keep (c : Collector) (v : Value) : Collector :=
  let kept := { c with returned := some v }
  match c.returned with
  | some previous =>
    kept.say .warn ("More than one return executed; discarding " ++ previous.text)
  | none => kept

/-- forgets shown values and the returned value -/
def reset (c : Collector) : Collector := { c with shown := #[], returned := none }

/-- the returned value, which is given away -/
def take (c : Collector) : Option Value × Collector := (c.returned, { c with returned := none })

/-- the log so far, and a collector whose log is empty -/
def drain (c : Collector) : List LogLine × Collector := (c.log.toList, { c with log := #[] })

end Collector

def Sink.collecting : Sink Collector where
  display v c := { c.say .info ("show: " ++ v.text) with shown := c.shown.push v }
  accept v c :=
    match c.allows v with
    | .ok () => (.ok (), c.keep v)
    | .error fault => (.error fault, c)
  remark message c := c.say .debug message

end Dataflow
