import Dataflow.Value.Call
import Dataflow.Value.Same

/-!
# Names in scope

The bindings of the host live in an `Environment`, layers in which inner bindings hide outer ones.
An assignment never changes them: it opens a `Scope` with a single binding, kept among the `Scopes`
of an evaluation, whose lookups go on at its parent scope and in the end at the host's bindings.

* `Environment.get?`, `bind`, `child`   a name in the layers, a binding in the innermost one, one
                                        more layer;
* `Root`                                an environment with the host that its functions belong to;
* `Scopes.push`, `get?`                 a new scope, whose number is how many there were, and a
                                        scope by number;
* `Scopes.find?`                        a name from a scope outwards.
-/

namespace Dataflow

/-- layers of bindings, the innermost first -/
structure Environment where
  layers : List (List (String × Value))

namespace Environment

/-- one layer without bindings -/
def empty : Environment := ⟨[[]]⟩

def child (env : Environment) : Environment := ⟨[] :: env.layers⟩

/-- binds a name in the innermost layer, in place of what it was bound to there -/
def bind (env : Environment) (name : String) (v : Value) : Environment :=
  match env.layers with
  | [] => ⟨[[(name, v)]]⟩
  | layer :: outer => ⟨Named.put name v layer :: outer⟩

def get? (env : Environment) (name : String) : Option Value :=
  env.layers.findSome? fun layer => Named.get? layer name

def contains (env : Environment) (name : String) : Bool := (env.get? name).isSome

/-- the names of the innermost layer -/
def names (env : Environment) : List String := Named.names (env.layers.headD [])

theorem get?_empty (name : String) : empty.get? name = none := rfl

theorem get?_child (env : Environment) (name : String) : env.child.get? name = env.get? name := by
  rfl

theorem get?_bind_self (env : Environment) (name : String) (v : Value) :
    (env.bind name v).get? name = some v := by
  unfold bind get?
  split <;> simp [Named.get?_put_self, Named.get?_cons]

theorem get?_bind_of_ne {name other : String} (h : name ≠ other) (env : Environment) (v : Value) :
    (env.bind name v).get? other = env.get? other := by
  obtain ⟨layers⟩ := env
  cases layers with
  | nil => simp [bind, get?, Named.get?_cons, Named.get?_nil, h]
  | cons layer outer =>
    simp only [bind, get?, List.findSome?_cons, Named.get?_put_of_ne h]

end Environment

/-- where an evaluation starts -/
structure Root where
  environment : Environment
  host : Host

/-- an assignment: one binding, and the scope around it, the host's bindings for `none` -/
structure Scope where
  name : String
  value : Value
  parent : Option Nat

/-- the scopes of an evaluation by number -/
structure Scopes where
  all : Array Scope

namespace Scopes

def empty : Scopes := ⟨#[]⟩

def size (scopes : Scopes) : Nat := scopes.all.size

def get? (scopes : Scopes) (id : Nat) : Option Scope := scopes.all[id]?

/-- opens a scope; its number is how many there were -/
def push (scopes : Scopes) (scope : Scope) : Scopes := ⟨scopes.all.push scope⟩

/-- follows parents for so many steps -/
def findWithin (scopes : Scopes) (env : Environment) (name : String) :
    Nat → Option Nat → Option Value
  | _, none => env.get? name
  | 0, some _ => none
  | steps + 1, some id =>
    match scopes.get? id with
    | none => none
    | some scope =>
      if scope.name = name then some scope.value
      else findWithin scopes env name steps scope.parent

/-- what a name stands for from a scope outwards; a scope that does not exist ends the search.  More
steps than there are scopes would come to one of them again -/
def find? (scopes : Scopes) (env : Environment) (start : Option Nat) (name : String) :
    Option Value :=
  scopes.findWithin env name scopes.size start

/-- equality as a host sees it -/
def same (a b : Scopes) : Bool :=
  a.size == b.size && (a.all.toList.zip b.all.toList).all fun (s, t) =>
    s.name == t.name && s.value.same t.value && s.parent == t.parent

theorem size_push (scopes : Scopes) (scope : Scope) : (scopes.push scope).size = scopes.size + 1 :=
  Array.size_push scope

theorem get?_push_size (scopes : Scopes) (scope : Scope) :
    (scopes.push scope).get? scopes.size = some scope := by
  simp [get?, push, size]

theorem find?_none (scopes : Scopes) (env : Environment) (name : String) :
    scopes.find? env none name = env.get? name := by
  simp [find?, findWithin]

end Scopes

end Dataflow
