import Dataflow.Proofs.Shape
import Dataflow.Proofs.Slots
import Dataflow.Saved.Load

/-!
# What the operations build

* `Node.Built`, `Diagram.Built`   the nodes and diagrams that the public operations make, in any
                                  order, edits that fail leaving a diagram as it was;
* `Node.Built.shaped`, `Diagram.Built.allShaped`   all of them have the shape of their texts.
-/

namespace Dataflow

mutual

/-- the nodes that the operations make -/
inductive Node.Built : Node → Prop where
  | ofText (text : String) : Node.Built (.ofText text)
  | setText {n : Node} (h : Node.Built n) (text : String) : Node.Built (n.setText text)
  | moveTo {n : Node} (h : Node.Built n) (x y : Single) : Node.Built (n.moveTo x y)
  | keepOutput {n n' : Node} {index : Nat} (h : Node.Built n)
    (hk : n.keepOutput? index = some n') : Node.Built n'
  | refit {n : Node} (h : Node.Built n) : Node.Built n.refit
  /-- a copy of a node in a diagram, or a node that was deleted from it -/
  | taken {d : Diagram} {slot : Nat} {n : Node} (h : Diagram.Built d)
    (hn : d.node? slot = some n) : Node.Built n

/-- the diagrams that the operations make -/
inductive Diagram.Built : Diagram → Prop where
  | empty : Diagram.Built .empty
  | add {d : Diagram} (h : Diagram.Built d) (text : String) : Diagram.Built (d.add text)
  | push {d : Diagram} {n : Node} (h : Diagram.Built d) (hn : Node.Built n) :
    Diagram.Built (d.push n)
  | place {d : Diagram} {n : Node} (h : Diagram.Built d) (slot : Nat) (hn : Node.Built n) :
    Diagram.Built (d.place slot n)
  | delete {d d' : Diagram} {slot : Nat} {n : Node} (h : Diagram.Built d)
    (hd : d.delete slot = .ok (n, d')) : Diagram.Built d'
  | connect {d d' : Diagram} {source : Source} {slot input : Nat} (h : Diagram.Built d)
    (hd : d.connect source slot input = .ok d') : Diagram.Built d'
  | disconnect {d d' : Diagram} {source : Option Source} {slot input : Nat} (h : Diagram.Built d)
    (hd : d.disconnect slot input = .ok (source, d')) : Diagram.Built d'
  | setText {d d' : Diagram} {slot : Nat} {text : String} (h : Diagram.Built d)
    (hd : d.setText slot text = .ok d') : Diagram.Built d'
  | move {d d' : Diagram} {slot : Nat} {x y : Single} (h : Diagram.Built d)
    (hd : d.move slot x y = .ok d') : Diagram.Built d'
  | prune {d : Diagram} (h : Diagram.Built d) : Diagram.Built d.prune
  | load {text : String} {d : Diagram} (hd : (Saved.load text).result = .ok d) : Diagram.Built d

end

namespace Diagram

/-- every node has the shape of its text -/
def AllShaped (d : Diagram) : Prop := ∀ slot n, d.node? slot = some n → n.Shaped

namespace AllShaped

variable {d : Diagram}

theorem empty : AllShaped .empty := by
  intro slot n hn
  rw [node?_empty] at hn
  cases hn

theorem push (h : d.AllShaped) {n : Node} (hn : n.Shaped) : (d.push n).AllShaped := by
  intro slot m hm
  rw [node?_push] at hm
  split at hm
  · obtain rfl := Option.some.inj hm
    exact hn
  · exact h slot m hm

theorem place (h : d.AllShaped) {n : Node} (slot : Nat) (hn : n.Shaped) :
    (d.place slot n).AllShaped := by
  intro other m hm
  rw [node?_place] at hm
  split at hm
  · obtain rfl := Option.some.inj hm
    exact hn
  · exact h other m hm

theorem modify (h : d.AllShaped) (slot : Nat) {change : Node → Node}
    (hchange : ∀ n, n.Shaped → (change n).Shaped) : (d.modify slot change).AllShaped := by
  intro other m hm
  rw [node?_modify] at hm
  split at hm
  · obtain ⟨n, hn, rfl⟩ := Option.map_eq_some_iff.mp hm
    exact hchange n (h other n hn)
  · exact h other m hm

theorem emptied (h : d.AllShaped) (slot : Nat) :
    (Diagram.mk (d.slots.setIfInBounds slot none)).AllShaped := by
  intro other m hm
  rw [node?_emptied] at hm
  split at hm
  · cases hm
  · exact h other m hm

theorem mapInputs (h : d.AllShaped) (change : Option Source → Option Source) :
    (d.mapNodes (·.mapInputs change)).AllShaped := by
  intro slot m hm
  rw [node?_mapNodes] at hm
  obtain ⟨n, hn, rfl⟩ := Option.map_eq_some_iff.mp hm
  exact (h slot n hn).withInputs (List.length_map change)

theorem wire (h : d.AllShaped) (slot input : Nat) (source : Option Source) :
    (d.wire slot input source).AllShaped :=
  h.modify slot fun _ hn => hn.withInputs List.length_set

end AllShaped

end Diagram

/-! ## loading -/

namespace Saved

/-- what keeping an output keeps, keeping some of them keeps -/
theorem holdOutputs_keeps {P : Node → Prop}
    (hP : ∀ n index n', P n → n.keepOutput? index = some n' → P n') {n : Node} (h : P n)
    (log : List LogLine) (held : List (Nat × Nat)) : P (holdOutputs n log held).1 := by
  induction held generalizing n log with
  | nil => exact h
  | cons first rest ih =>
    obtain ⟨line, index⟩ := first
    rw [holdOutputs]
    split
    · next n' hk => exact ih (hP n index n' h hk) log
    · exact ih h _

theorem shaped_holdOutputs {n : Node} (h : n.Shaped) (log : List LogLine) (held : List (Nat × Nat)) :
    (holdOutputs n log held).1.Shaped :=
  holdOutputs_keeps (fun _ _ _ h hk => h.keepOutput hk) h log held

theorem allShaped_place {draft : Draft} (h : draft.diagram.AllShaped) (line slot : Nat)
    (n : NodeDraft) : (draft.place line slot n).diagram.AllShaped :=
  h.place slot (shaped_holdOutputs ((Node.Shaped.ofText _).moveTo _ _) _ _)

theorem allShaped_readNodes (entries : List Entry) {draft draft' : Draft}
    (h : draft.diagram.AllShaped) {fault : Option LoadFault}
    (hread : Draft.readNodes entries draft = (fault, draft')) : draft'.diagram.AllShaped := by
  induction entries generalizing draft with
  | nil =>
    obtain ⟨-, rfl⟩ := Prod.mk.inj hread
    exact h
  | cons e rest ih =>
    rw [Draft.readNodes] at hread
    split at hread
    · exact ih (allShaped_place h _ _ _) hread
    · obtain ⟨-, rfl⟩ := Prod.mk.inj hread
      exact h

theorem allShaped_connectAll {d : Diagram} (h : d.AllShaped) (log : List LogLine)
    (connections : List (Nat × ConnectionDraft)) : (connectAll d log connections).1.AllShaped := by
  induction connections generalizing d log with
  | nil => exact h
  | cons first rest ih =>
    obtain ⟨slot, c⟩ := first
    rw [connectAll]
    split
    · exact ih (h.wire _ _ _) log
    · exact ih h _

/-- a loaded diagram has the shapes of its texts -/
theorem allShaped_load {text : String} {d : Diagram} (h : (load text).result = .ok d) :
    d.AllShaped := by
  unfold load at h
  split at h
  · next block _ =>
    unfold build at h
    split at h
    · cases h
    · next draft hread =>
      obtain rfl := Except.ok.inj h
      exact Diagram.AllShaped.mapInputs
        (allShaped_connectAll (allShaped_readNodes _ .empty hread) _ _) _
  · cases h

end Saved

mutual

/-- a built node has the shape of its text -/
theorem Node.Built.shaped : ∀ {n : Node}, n.Built → n.Shaped
  | _, .ofText text => .ofText text
  | _, .setText _ text => .setText _ text
  | _, .moveTo h x y => h.shaped.moveTo x y
  | _, .keepOutput h hk => h.shaped.keepOutput hk
  | _, .refit h => h.shaped.refit
  | _, .taken h hn => h.allShaped _ _ hn

/-- in a built diagram every node has the shape of its text -/
theorem Diagram.Built.allShaped : ∀ {d : Diagram}, d.Built → d.AllShaped
  | _, .empty => .empty
  | _, .add h text => h.allShaped.push (.ofText text)
  | _, .push h hn => h.allShaped.push hn.shaped
  | _, .place h slot hn => h.allShaped.place slot hn.shaped
  | _, .delete h hd => by
    obtain ⟨-, rfl⟩ := Diagram.delete_ok hd
    exact (h.allShaped.emptied _).mapInputs _
  | _, .connect h hd => by
    obtain ⟨-, rfl⟩ := Diagram.connect_ok hd
    exact h.allShaped.wire _ _ _
  | _, .disconnect h hd => by
    obtain ⟨-, rfl⟩ := Diagram.disconnect_ok hd
    exact h.allShaped.wire _ _ _
  | _, .setText h hd => by
    obtain rfl := Diagram.setText_ok hd
    exact (h.allShaped.modify _ fun n _ => .setText n _).mapInputs _
  | _, .move h hd => by
    obtain rfl := Diagram.move_ok hd
    exact h.allShaped.modify _ fun _ hn => hn.moveTo _ _
  | _, .prune h => h.allShaped.mapInputs _
  | _, .load hd => Saved.allShaped_load hd

end

end Dataflow
