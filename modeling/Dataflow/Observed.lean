import Dataflow.Evaluation

/-!
# Observed diagrams

Observers are attached to a diagram by its identity, a number that copies of a diagram share.  They
hear of edits and of new results, in the order in which they were attached.

* `Observed.observe`, `unobserve`     attaches an observer, which gets a handle of its own, and
                                      detaches one;
* `Observed.observers`, `state?`      who is attached to an identity, and its latest results;
* `Observed.notify`                   who hears that a diagram has changed;
* `Observed.setText`                  an edit, and who hears of it: nobody if it fails;
* `Observed.evaluate`                 a pass, and who hears of it; what nobody observes is not
                                      evaluated.

An identity is kept as long as an observer is attached to it.
-/

namespace Dataflow

/-- an observed identity -/
structure Watch where
  identity : Nat
  /-- the handles of the observers in the order in which they were attached -/
  observers : List Nat
  /-- the results of the latest pass -/
  state : Results

/-- the observed identities; every identity is there once, and every one has an observer -/
structure Observed where
  watches : List Watch
  /-- the handle of the next observer; there are `Observed.handleCount` of them -/
  next : Nat

namespace Observed

/-- how many observers can be attached in the life of a registry: handles have 64 bits -/
def handleCount : Nat := UInt64.size

def empty : Observed := ⟨[], 0⟩

def watch? (o : Observed) (identity : Nat) : Option Watch :=
  o.watches.find? (·.identity == identity)

def observers (o : Observed) (identity : Nat) : List Nat :=
  ((o.watch? identity).map Watch.observers).getD []

def isObserved (o : Observed) (identity : Nat) : Bool := (o.watch? identity).isSome

def state? (o : Observed) (identity : Nat) : Option Results :=
  (o.watch? identity).map Watch.state

/-- changes what is kept of an identity -/
def modify (identity : Nat) (change : Watch → Watch) : List Watch → List Watch
  | [] => []
  | w :: rest =>
    if w.identity = identity then change w :: rest else w :: modify identity change rest

/-- attaches an observer; the result has its handle -/
def observe (o : Observed) (identity : Nat) : Nat × Observed :=
  let watches :=
    if o.isObserved identity then
      modify identity (fun w => { w with observers := w.observers ++ [o.next] }) o.watches
    else ⟨identity, [o.next], .empty⟩ :: o.watches
  (o.next, ⟨watches, o.next + 1⟩)

/-- detaches an observer, if it is attached to this identity -/
def unobserve? (o : Observed) (identity handle : Nat) : Option Observed :=
  if handle ∈ o.observers identity then
    let watches :=
      modify identity (fun w => { w with observers := w.observers.erase handle }) o.watches
    some { o with watches := watches.filter (·.observers != []) }
  else none

/-- the observers that hear that a diagram with this identity has changed -/
def notify (o : Observed) (identity : Nat) : List Nat := o.observers identity

/-- another text for a node of a diagram with this identity; the result has the observers that hear
of it -/
def setText (o : Observed) (identity : Nat) (d : Diagram) (slot : Nat) (text : String) :
    Except EditFault (Diagram × List Nat) :=
  (d.setText slot text).map fun d => (d, o.notify identity)

/-- a pass over an observed diagram -/
structure Pass (σ : Type) where
  results : Results
  /-- the observers that hear of the results -/
  told : List Nat
  observed : Observed
  host : σ

/-- evaluates a diagram with this identity if it is observed -/
def evaluate? {σ : Type} (o : Observed) (identity : Nat) (d : Diagram) (root : Root)
    (sink : Sink σ) (pass : Nat) (host : σ) : Option (Pass σ) :=
  (o.watch? identity).map fun w =>
    let (results, host) := d.evaluate root sink pass w.state host
    ⟨results, w.observers,
     { o with watches := modify identity ({ · with state := results }) o.watches }, host⟩

end Observed

end Dataflow
