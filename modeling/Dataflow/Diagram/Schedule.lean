import Dataflow.Diagram

/-!
# The order of an evaluation

`Diagram.schedule` lists the existing nodes so that every node comes after the nodes it reads from,
and says of each whether it is CYCLIC: it lies on a cycle of wires, or a wire leads from a cyclic
node to it.

The list is that of a depth-first walk over the wires, from inputs to sources, that begins at every
existing node in ascending order.  A node enters the list when the walk leaves it.  The walk keeps
the nodes it is inside of as a list of frames, so a long chain of wires costs no call depth.  Wires
from empty or missing slots are passed over.

The walk ends: a turn opens a node that was untouched, or else takes an input or a frame off the
list, and no node becomes untouched again.
-/

namespace Dataflow

/-- how far the walk has come with a slot -/
inductive Progress where
  | untouched
  /-- the walk is inside of the node -/
  | opened
  | closed (cyclic : Bool)
deriving DecidableEq, Repr

/-- a node that the walk is inside of, the inputs it has not followed yet, and whether a cycle was
met -/
structure Frame where
  slot : Nat
  pending : List (Option Source)
  cyclic : Bool

/-- an entry of the schedule -/
structure Turn where
  slot : Nat
  cyclic : Bool
deriving DecidableEq, Repr

namespace Frame

/-- what is left to do in the frames: every input and every frame counts for one -/
def size : List Frame → Nat
  | [] => 0
  | frame :: below => frame.pending.length + 1 + size below

/-- a node that reads from a cyclic one is cyclic -/
def passOn (cyclic : Bool) : List Frame → List Frame
  | [] => []
  | frame :: below => { frame with cyclic := frame.cyclic || cyclic } :: below

theorem size_passOn (cyclic : Bool) (frames : List Frame) :
    size (passOn cyclic frames) = size frames := by
  cases frames <;> rfl

end Frame

namespace Progress

/-- the slots that the walk has not come to -/
def untouchedCount (progress : Array Progress) : Nat := progress.count .untouched

theorem untouchedCount_set_le (progress : Array Progress) (slot : Nat) {p : Progress}
    (hp : p ≠ .untouched) :
    untouchedCount (progress.setIfInBounds slot p) ≤ untouchedCount progress := by
  have hp' : (p == .untouched) = false := beq_eq_false_iff_ne.mpr hp
  by_cases h : slot < progress.size
  · simp only [untouchedCount, Array.setIfInBounds, h, dite_true, Array.count_set, hp',
      Bool.false_eq_true, if_false, Nat.add_zero, Nat.sub_le]
  · simp only [untouchedCount, Array.setIfInBounds, h, dite_false, Nat.le_refl]

theorem untouchedCount_set_lt {progress : Array Progress} {slot : Nat} {p : Progress}
    (hp : p ≠ .untouched) (h : progress[slot]? = some .untouched) :
    untouchedCount (progress.setIfInBounds slot p) < untouchedCount progress := by
  obtain ⟨hlt, hget⟩ := Array.getElem?_eq_some_iff.mp h
  have hp' : (p == .untouched) = false := beq_eq_false_iff_ne.mpr hp
  have hpos : 0 < progress.count .untouched :=
    Array.count_pos_iff.mpr (hget ▸ Array.getElem_mem hlt)
  simp only [untouchedCount, Array.setIfInBounds, hlt, dite_true, Array.count_set, hget, hp',
    beq_self_eq_true, if_true, Bool.false_eq_true, if_false, Nat.add_zero]
  exact Nat.sub_lt hpos Nat.one_pos

end Progress

namespace Diagram

/-- the first measure does not grow and the second one shrinks -/
theorem lex_of_le {a b c e : Nat} (h : a ≤ b) (h' : c < e) :
    Prod.Lex (· < ·) (· < ·) (a, c) (b, e) := by
  rcases Nat.lt_or_eq_of_le h with h | rfl
  · exact Prod.Lex.left _ _ h
  · exact Prod.Lex.right _ h'

/-- the walk from the frames on -/
def walk (d : Diagram) (progress : Array Progress) (order : Array Turn) :
    List Frame → Array Progress × Array Turn
  | [] => (progress, order)
  | ⟨slot, [], cyclic⟩ :: below =>
    walk d (progress.setIfInBounds slot (.closed cyclic)) (order.push ⟨slot, cyclic⟩)
      (Frame.passOn cyclic below)
  | ⟨slot, none :: pending, cyclic⟩ :: below =>
    walk d progress order (⟨slot, pending, cyclic⟩ :: below)
  | ⟨slot, some source :: pending, cyclic⟩ :: below =>
    match d.node? source.node with
    | none => walk d progress order (⟨slot, pending, cyclic⟩ :: below)
    | some n =>
      match _h : progress[source.node]? with
      | some .untouched =>
        walk d (progress.setIfInBounds source.node .opened) order
          (⟨source.node, n.inputs, false⟩ :: ⟨slot, pending, cyclic⟩ :: below)
      | some .opened => walk d progress order (⟨slot, pending, true⟩ :: below)
      | some (.closed c) => walk d progress order (⟨slot, pending, cyclic || c⟩ :: below)
      | none => walk d progress order (⟨slot, pending, cyclic⟩ :: below)
termination_by frames => (Progress.untouchedCount progress, Frame.size frames)
decreasing_by
  · exact lex_of_le (Progress.untouchedCount_set_le _ _ (by simp))
      (by rw [Frame.size_passOn, Frame.size]; omega)
  · exact lex_of_le (Nat.le_refl _) (by simp [Frame.size])
  · exact lex_of_le (Nat.le_refl _) (by simp [Frame.size])
  · exact Prod.Lex.left _ _ (Progress.untouchedCount_set_lt (by simp) _h)
  · exact lex_of_le (Nat.le_refl _) (by simp [Frame.size])
  · exact lex_of_le (Nat.le_refl _) (by simp [Frame.size])
  · exact lex_of_le (Nat.le_refl _) (by simp [Frame.size])

/-- the walk from a node, unless it was come to before -/
def walkFrom (d : Diagram) (state : Array Progress × Array Turn) (start : Nat × Node) :
    Array Progress × Array Turn :=
  match state.1[start.1]? with
  | some .untouched =>
    d.walk (state.1.setIfInBounds start.1 .opened) state.2 [⟨start.1, start.2.inputs, false⟩]
  | _ => state

/-- the existing nodes in the order of their evaluation -/
def schedule (d : Diagram) : List Turn :=
  (d.existing.foldl d.walkFrom (Array.replicate d.slotCount .untouched, #[])).2.toList

end Diagram

end Dataflow
