import Dataflow.Value.Basic

/-!
# Inputs of a node

A `Feed` hands out the input values of a node one after the other.

* `Feed.take`        the next value, if there is one;
* `Feed.seek`        makes an input the next one;
* `Feed.remaining`   how many values are still to come.
-/

namespace Dataflow

/-- input values and the index of the next one -/
structure Feed where
  values : Array Value
  next : Nat

namespace Feed

def ofList (values : List Value) : Feed := ⟨values.toArray, 0⟩

/-- the next value; a feed that has run dry stays as it is -/
def take (feed : Feed) : Option (Value × Feed) :=
  feed.values[feed.next]?.map fun v => (v, { feed with next := feed.next + 1 })

def seek (feed : Feed) (index : Nat) : Feed := { feed with next := index }

def remaining (feed : Feed) : Nat := feed.values.size - feed.next

end Feed

end Dataflow
