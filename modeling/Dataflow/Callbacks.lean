import Dataflow.Statement.Run

/-!
# Callbacks with a state of their own

The functions and constructors that a host adds may keep a state from call to call: they may count
how often they are called, or draw from a stream.  A `Host` cannot; it is what is left of callbacks
whose answers depend on the arguments alone.

* `Query`                 what a call asks of the host;
* `Callbacks τ`           answers queries over a state `τ`, which outlives a failure;
* `Callbacks.Pure`        the answers depend on the arguments alone;
* `Callbacks.frozen`      the host that callbacks are in one state;
* `Callbacks.ofHost`      a host as callbacks that keep nothing;
* `Value.query?`, `Value.callOver`   what a call asks, and a call that moves the state;
* `Statement.runOver`     runs a statement over the state of the callbacks.
-/

namespace Dataflow

variable {σ τ : Type}

/-- what a call asks of the host -/
inductive Query where
  | call (name : String) (args : Arguments)
  | construct (className : String) (args : List (String × Value))

def Host.answer (host : Host) : Query → Except Fault Value
  | .call name args => host.call name args
  | .construct className args => host.construct className args

/-- the functions and constructors of a host, over a state that they share -/
structure Callbacks (τ : Type) where
  answer : Query → τ → Except Fault Value × τ

namespace Callbacks

/-- the answers depend on the arguments alone -/
def Pure (cb : Callbacks τ) : Prop := ∀ query t t', (cb.answer query t).1 = (cb.answer query t').1

/-- the host that callbacks are as long as their state stays -/
def frozen (cb : Callbacks τ) (t : τ) : Host where
  call name args := (cb.answer (.call name args) t).1
  construct className args := (cb.answer (.construct className args) t).1

/-- callbacks that keep nothing -/
def ofHost (host : Host) : Callbacks Unit where
  answer query _ := (host.answer query, ())

end Callbacks

namespace Value

/-- what a call asks of the host, if it comes to that; built-in functions and record classes ask
nothing -/
def query? (callee : Value) (forms : List ArgumentForm) (values : List Value) : Option Query :=
  match callee with
  | .classRef _ name none =>
    (Arguments.onlyNamed name (forms.zip values) []).toOption.map (.construct name)
  | .function ⟨_, .host name⟩ =>
    (Arguments.collect (forms.zip values) ⟨[], []⟩).toOption.map (.call name)
  | _ => none

def callOver (cb : Callbacks τ) (callee : Value) (forms : List ArgumentForm) (values : List Value)
    (t : τ) : Except Fault Value × τ :=
  match callee.query? forms values with
  | some query => cb.answer query t
  | none => (callee.call .none forms values, t)

end Value

/-- the stack machine over values, with the state of the callbacks beside the stack -/
def Machine.evaluatingOver (cb : Callbacks τ) (env : Environment) (scopes : Scopes)
    (scope : Option Nat) (site : Site) : Machine (Stack × τ) where
  step op s :=
    match op with
    | .call forms =>
      let below := s.1.drop forms.length
      let (result, t) := below.top.callOver cb forms (s.1.topMost forms.length) s.2
      let (outcome, stack) := leave (below.drop 1) result
      (outcome, stack, t)
    | op =>
      let (outcome, stack) := (evaluating ⟨env, .none⟩ scopes scope site).step op s.1
      (outcome, stack, s.2)

def Statement.runOver (cb : Callbacks τ) (env : Environment) (sink : Sink σ) (site : Site)
    (text : String) (s : Session σ) (t : τ) : Except Fault Value × Session σ × τ :=
  match drive (.evaluatingOver cb env s.scopes s.scope site) text (.start s.feed, t) with
  | (.ok form, stack, t) =>
    let (outcome, s) := conclude sink form stack.top { s with feed := stack.feed }
    (outcome, s, t)
  | (.error fault, stack, t) => (.error fault, { s with feed := stack.feed }, t)

end Dataflow
