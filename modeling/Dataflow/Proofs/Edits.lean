import Dataflow.Proofs.Slots
import Dataflow.Saved.Load

/-!
# Edits leave no wire without its output

* `Edit`, `Diagram.edit`    the operations on a diagram, apart from `place`; one that fails leaves the
                            diagram as it was;
* `Desk.run`                a host at work on several diagrams, which it knows by number;
* `Diagram.Grounded`        every wire comes from an output that exists;
* `Diagram.Pruned`          a diagram without the wires that do not;
* `Desk.run_grounded`       all diagrams of a host are grounded, and pruning grounds any other one.

Outputs come and go behind the wires: a text has fewer statements, a statement becomes an
assignment, a node is deleted.  Every edit therefore ends with wires that were looked at against the
outputs as they are then (`Grounded.edit`).  Only `place` puts a node over another one without
looking.
-/

namespace Dataflow

/-- an operation on a diagram -/
inductive Edit where
  | add (text : String)
  /-- adds a new node at a position -/
  | push (text : String) (x y : Single)
  | delete (slot : Nat)
  | connect (source : Source) (slot input : Nat)
  | disconnect (slot input : Nat)
  | setText (slot : Nat) (text : String)
  | move (slot : Nat) (x y : Single)
  | prune
  /-- a saved diagram in place of this one -/
  | load (saved : String)

namespace Diagram

/-- the diagram in the result of an operation; if it failed, the one that was there before -/
def after {ε α : Type} (d : Diagram) (result : Except ε α) (next : α → Diagram) : Diagram :=
  match result with
  | .ok a => next a
  | .error _ => d

def edit (d : Diagram) : Edit → Diagram
  | .add text => d.add text
  | .push text x y => d.push ((Node.ofText text).moveTo x y)
  | .delete slot => d.after (d.delete slot) Prod.snd
  | .connect source slot input => d.after (d.connect source slot input) id
  | .disconnect slot input => d.after (d.disconnect slot input) Prod.snd
  | .setText slot text => d.after (d.setText slot text) id
  | .move slot x y => d.after (d.move slot x y) id
  | .prune => d.prune
  | .load saved => d.after (Saved.load saved).result id

/-- an output that exists -/
def Offers (d : Diagram) (source : Source) : Prop :=
  ∃ n, d.node? source.node = some n ∧ source.output < n.outputs.length

/-- every wire comes from an output that exists -/
def Grounded (d : Diagram) : Prop :=
  ∀ slot n, d.node? slot = some n → ∀ source, some source ∈ n.inputs → d.Offers source

/-- the same diagram, but for the wires that come from no output -/
structure Pruned (d e : Diagram) : Prop where
  slots : e.slotCount = d.slotCount
  empty : ∀ slot, d.node? slot = none → e.node? slot = none
  node : ∀ slot n, d.node? slot = some n → ∃ inputs,
    e.node? slot = some { n with inputs := inputs } ∧ inputs.length = n.inputs.length ∧
    ∀ (i : Nat) source, inputs[i]? = some (some source) ↔
      n.inputs[i]? = some (some source) ∧ d.Offers source

end Diagram

/-- a step of a host: it makes diagrams, copies them, gives one the nodes of another one, and edits
them -/
inductive Desk.Step where
  | create
  | clone (number : Nat)
  | replace (number other : Nat)
  | edit (number : Nat) (e : Edit)

namespace Desk

/-- what a step makes of the diagrams; a number that is not there changes nothing -/
def step (desk : List Diagram) : Step → List Diagram
  | .create => desk ++ [.empty]
  | .clone number => desk ++ desk[number]?.toList
  | .replace number other =>
    match desk[other]? with
    | some d => desk.set number d
    | none => desk
  | .edit number e => desk.modify number (·.edit e)

/-- the diagrams after some steps, with none to begin with -/
def run (steps : List Step) : List Diagram := steps.foldl step []

end Desk

namespace Diagram

variable {d e : Diagram} {slot : Nat} {n : Node} {source : Source}

/-! ## outputs that stay -/

theorem offers_congr
    (h : ∀ slot, (d.node? slot).map Node.outputs = (e.node? slot).map Node.outputs) :
    d.Offers source ↔ e.Offers source := by
  unfold Offers
  rw [← hasOutput_iff, ← hasOutput_iff, hasOutput_congr h]

theorem offers_mapInputs (change : Option Source → Option Source) :
    (d.mapNodes (·.mapInputs change)).Offers source ↔ d.Offers source := by
  refine offers_congr fun other => ?_
  rw [node?_mapNodes, Option.map_map]
  rfl

theorem Offers.push (h : d.Offers source) (n : Node) : (d.push n).Offers source := by
  obtain ⟨feeder, hfeeder, houtput⟩ := h
  have hlt : source.node < d.slotCount := lt_slotCount_of_node? (by rw [hfeeder]; rfl)
  refine ⟨feeder, ?_, houtput⟩
  rw [node?_push, if_neg (Nat.ne_of_lt hlt), hfeeder]

theorem Offers.emptied (h : d.Offers source) (hne : source.node ≠ slot) :
    (Diagram.mk (d.slots.setIfInBounds slot none)).Offers source := by
  obtain ⟨feeder, hfeeder, houtput⟩ := h
  exact ⟨feeder, by rw [node?_emptied, if_neg hne, hfeeder], houtput⟩

/-! ## edits -/

theorem not_mem_inputs_ofText (text : String) : some source ∉ (Node.ofText text).inputs := by
  simp [Node.ofText, Node.setText, Node.refit, Node.resize]

theorem grounded_empty : Grounded .empty := by
  intro slot n hn
  rw [node?_empty] at hn
  cases hn

namespace Grounded

/-- a new node has no wires yet -/
theorem push (h : d.Grounded) (hn : ∀ source, some source ∉ n.inputs) : (d.push n).Grounded := by
  intro slot m hm source hsource
  rw [node?_push] at hm
  split at hm
  · obtain rfl := Option.some.inj hm
    exact absurd hsource (hn source)
  · exact (h slot m hm source hsource).push n

/-- the wires from an emptied slot are dropped -/
theorem delete (h : d.Grounded) (slot : Nat) :
    ((Diagram.mk (d.slots.setIfInBounds slot none)).mapNodes
      (·.mapInputs (unwire slot))).Grounded := by
  intro other m hm source hsource
  rw [node?_mapNodes] at hm
  obtain ⟨n, hn, rfl⟩ := Option.map_eq_some_iff.mp hm
  rw [node?_emptied] at hn
  split at hn
  · cases hn
  · obtain ⟨before, hbefore, hunwire⟩ := List.mem_map.mp hsource
    -- a wire that is left comes from another slot
    obtain ⟨rfl, hne⟩ : before = some source ∧ source.node ≠ slot := by
      cases before with
      | none => cases hunwire
      | some before =>
        simp only [unwire] at hunwire
        split at hunwire
        · cases hunwire
        · next hne =>
          obtain rfl := Option.some.inj hunwire
          exact ⟨rfl, hne⟩
    exact (offers_mapInputs _).mpr ((h other n hn source hbefore).emptied hne)

theorem wire (h : d.Grounded) (slot input : Nat) {source : Option Source}
    (hsource : ∀ s, source = some s → d.Offers s) : (d.wire slot input source).Grounded := by
  intro other m hm s hs
  have hoffers : (d.wire slot input source).Offers s ↔ d.Offers s := by
    unfold Offers
    rw [← hasOutput_iff, ← hasOutput_iff, hasOutput_wire]
  rw [hoffers]
  rw [node?_wire] at hm
  split at hm
  · obtain ⟨n, hn, rfl⟩ := Option.map_eq_some_iff.mp hm
    rcases List.mem_or_eq_of_mem_set hs with hold | hnew
    · exact h other n hn s hold
    · exact hsource s hnew.symm
  · exact h other m hm s hs

theorem move (h : d.Grounded) (slot : Nat) (x y : Single) :
    (d.modify slot (·.moveTo x y)).Grounded := by
  intro other m hm s hs
  have hoffers : (d.modify slot (·.moveTo x y)).Offers s ↔ d.Offers s := by
    refine offers_congr fun other => ?_
    rw [node?_modify]
    split
    · rw [Option.map_map]
      rfl
    · rfl
  rw [hoffers]
  rw [node?_modify] at hm
  split at hm
  · obtain ⟨n, hn, rfl⟩ := Option.map_eq_some_iff.mp hm
    exact h other n hn s hs
  · exact h other m hm s hs

end Grounded

/-! ## pruning -/

theorem valid?_eq_some {input : Option Source} :
    d.valid? input = some source ↔ input = some source ∧ d.Offers source := by
  unfold Offers
  rw [← hasOutput_iff]
  cases input with
  | none => simp [valid?]
  | some before =>
    simp only [valid?, Option.ite_none_right_eq_some, Option.some.injEq]
    constructor
    · rintro ⟨hvalid, rfl⟩
      exact ⟨rfl, hvalid⟩
    · rintro ⟨rfl, hvalid⟩
      exact ⟨hvalid, rfl⟩

/-- pruning grounds every diagram -/
theorem grounded_prune (d : Diagram) : d.prune.Grounded := by
  intro slot m hm source hsource
  rw [prune, node?_mapNodes] at hm
  obtain ⟨n, hn, rfl⟩ := Option.map_eq_some_iff.mp hm
  obtain ⟨before, -, hvalid⟩ := List.mem_map.mp hsource
  exact (offers_mapInputs _).mpr (valid?_eq_some.mp hvalid).2

/-- pruning drops the wires that come from no output, and nothing else -/
theorem pruned_prune (d : Diagram) : d.Pruned d.prune := by
  refine ⟨Array.size_map, fun slot hnone => ?_, fun slot n hn => ?_⟩
  · rw [prune, node?_mapNodes, hnone]
    rfl
  · refine ⟨n.inputs.map d.valid?, ?_, List.length_map _, fun i source => ?_⟩
    · rw [prune, node?_mapNodes, hn]
      rfl
    · rw [List.getElem?_map, Option.map_eq_some_iff]
      constructor
      · rintro ⟨input, hinput, hvalid⟩
        obtain ⟨rfl, hoffers⟩ := valid?_eq_some.mp hvalid
        exact ⟨hinput, hoffers⟩
      · rintro ⟨hinput, hoffers⟩
        exact ⟨some source, hinput, valid?_eq_some.mpr ⟨rfl, hoffers⟩⟩

end Diagram

namespace Saved

theorem grounded_load {text : String} {d : Diagram} (h : (load text).result = .ok d) :
    d.Grounded := by
  unfold load at h
  split at h
  · unfold build at h
    split at h
    · cases h
    · obtain rfl := Except.ok.inj h
      exact Diagram.grounded_prune _
  · cases h

end Saved

/-! ## hosts -/

namespace Diagram

variable {d : Diagram} {slot : Nat} {n : Node}

theorem Grounded.after {ε α : Type} (h : d.Grounded) {result : Except ε α} {next : α → Diagram}
    (hresult : ∀ a, result = .ok a → (next a).Grounded) : (d.after result next).Grounded := by
  cases result with
  | ok a => exact hresult a rfl
  | error _ => exact h

theorem Grounded.edit (h : d.Grounded) (e : Edit) : (d.edit e).Grounded := by
  cases e with
  | add text => exact h.push fun _ => not_mem_inputs_ofText text
  | push text x y => exact h.push fun _ => not_mem_inputs_ofText text
  | delete slot =>
    refine h.after fun (n, d') hd => ?_
    obtain ⟨-, rfl⟩ := delete_ok hd
    exact h.delete slot
  | connect source slot input =>
    refine h.after fun d' hd => ?_
    obtain ⟨hallows, rfl⟩ := connect_ok hd
    exact h.wire slot input fun s hs => Option.some.inj hs ▸ hasOutput_iff.mp (allows_ok hallows)
  | disconnect slot input =>
    refine h.after fun (source, d') hd => ?_
    obtain ⟨-, rfl⟩ := disconnect_ok hd
    exact h.wire slot input nofun
  | setText slot text =>
    refine h.after fun d' hd => ?_
    obtain rfl := setText_ok hd
    exact grounded_prune _
  | move slot x y =>
    refine h.after fun d' hd => ?_
    obtain rfl := move_ok hd
    exact h.move slot x y
  | prune => exact grounded_prune d
  | load saved => exact h.after fun d' hd => Saved.grounded_load hd

/-- a node without wires may be put into a slot just where it has all the outputs that the wires
from there come from -/
theorem Grounded.place_iff (h : d.Grounded) (hn : ∀ source, some source ∉ n.inputs) :
    (d.place slot n).Grounded ↔ ∀ other m, other ≠ slot → d.node? other = some m →
      ∀ source, some source ∈ m.inputs → source.node = slot → source.output < n.outputs.length := by
  have hself : (d.place slot n).node? slot = some n := by rw [node?_place, if_pos rfl]
  constructor
  · intro hplaced other m hne hm source hsource hslot
    have hother : (d.place slot n).node? other = some m := by rw [node?_place, if_neg hne, hm]
    obtain ⟨feeder, hfeeder, houtput⟩ := hplaced other m hother source hsource
    rw [hslot, hself] at hfeeder
    obtain rfl := Option.some.inj hfeeder
    exact houtput
  · intro houtputs other m hm source hsource
    rw [node?_place] at hm
    split at hm
    · obtain rfl := Option.some.inj hm
      exact absurd hsource (hn source)
    · next hne =>
      by_cases hslot : source.node = slot
      · exact ⟨n, by rw [hslot, hself], houtputs other m hne hm source hsource hslot⟩
      · obtain ⟨feeder, hfeeder, houtput⟩ := h other m hm source hsource
        exact ⟨feeder, by rw [node?_place, if_neg hslot, hfeeder], houtput⟩

end Diagram

namespace Desk

open Diagram

theorem grounded_step {desk : List Diagram} (h : ∀ d ∈ desk, d.Grounded) (s : Step) :
    ∀ d ∈ step desk s, d.Grounded := by
  cases s with
  | create =>
    intro d hd
    rcases List.mem_append.mp hd with hd | hd
    · exact h d hd
    · obtain rfl := List.mem_singleton.mp hd
      exact grounded_empty
  | clone number =>
    intro d hd
    rcases List.mem_append.mp hd with hd | hd
    · exact h d hd
    · exact h d (List.mem_of_getElem? (Option.mem_toList.mp hd))
  | replace number other =>
    simp only [step]
    split
    · next hother =>
      intro d hd
      rcases List.mem_or_eq_of_mem_set hd with hd | rfl
      · exact h d hd
      · exact h d (List.mem_of_getElem? hother)
    · exact h
  | edit number e =>
    intro d hd
    obtain ⟨i, hi⟩ := List.mem_iff_getElem?.mp hd
    simp only [step, List.getElem?_modify, Option.map_eq_map, Option.map_eq_some_iff] at hi
    obtain ⟨before, hbefore, rfl⟩ := hi
    have hground := h before (List.mem_of_getElem? hbefore)
    split
    · exact hground.edit e
    · exact hground

theorem grounded_foldl_step (steps : List Step) {desk : List Diagram}
    (h : ∀ d ∈ desk, d.Grounded) : ∀ d ∈ steps.foldl step desk, d.Grounded := by
  induction steps generalizing desk with
  | nil => exact h
  | cons s rest ih => exact ih (grounded_step h s)

theorem grounded_run (steps : List Step) : ∀ d ∈ run steps, d.Grounded :=
  grounded_foldl_step steps (List.forall_mem_nil _)

/-- a node without outputs in place of one that is read from -/
theorem exists_place_not_grounded :
    ∃ steps, ∃ d ∈ run steps, ∃ slot text, ¬ (d.place slot (.ofText text)).Grounded := by
  let wired : Diagram := ((Diagram.empty.add "1").add "$").wire 1 0 (some ⟨0, 0⟩)
  let steps : List Step :=
    [.create, .edit 0 (.add "1"), .edit 0 (.add "$"), .edit 0 (.connect ⟨0, 0⟩ 1 0)]
  have hwired : wired ∈ run steps := List.mem_singleton.mpr rfl
  refine ⟨steps, wired, hwired, 0, "", fun hplaced => ?_⟩
  have hreader : wired.node? 1 = some { Node.ofText "$" with inputs := [some ⟨0, 0⟩] } := by
    decide +kernel
  have houtputs := ((grounded_run steps wired hwired).place_iff fun _ =>
    not_mem_inputs_ofText "").mp hplaced
  have hlt := houtputs 1 _ (by decide) hreader ⟨0, 0⟩ List.mem_cons_self rfl
  have hnone : (Node.ofText "").outputs = [] := by decide +kernel
  rw [hnone] at hlt
  exact Nat.not_lt_zero 0 hlt

/-- **No wire is left without its output**, whatever a host does with its diagrams, edits that fail
included.  Putting another node into a slot may leave one; pruning then drops the wires that come
from no output, and nothing else, whatever the diagram. -/
theorem run_grounded :
    (∀ steps, ∀ d ∈ run steps, d.Grounded) ∧
    (∃ steps, ∃ d ∈ run steps, ∃ slot text, ¬ (d.place slot (.ofText text)).Grounded) ∧
    ∀ d : Diagram, d.prune.Grounded ∧ d.Pruned d.prune :=
  ⟨grounded_run, exists_place_not_grounded, fun d => ⟨grounded_prune d, pruned_prune d⟩⟩

end Desk

end Dataflow
