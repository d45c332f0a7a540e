import Mathlib.Data.Set.Insert
import Mathlib.Logic.Function.Basic
import Dataflow.Proofs.Coherence
import Dataflow.Proofs.Reload

/-!
# Edits of a diagram seen as a graph

A diagram is seen as a partial map from slots to boxes of text and a set of wires between them.

* `Diagram.graph`        the boxes and the wires of a diagram, from which its nodes are known
                         (`node?_eq_of_graph`);
* `Operation`, `Diagram.perform`   the operations, with the slot that a new node gets;
* `Graph.Allows`, `Graph.after`    which operations a graph allows, and what is to become of it;
* `Diagram.next_graph`   an operation does to the graph what it says, or nothing at all.

An input keeps its wire by position, so after a change of text a wire is lost for one of two
reasons: its input is beyond the last `$`, or its output is beyond the last output
(`graph_setText`).
-/

namespace Dataflow

/-- a wire from an output of a node to an input of the node in a slot -/
structure Wire where
  source : Source
  slot : Nat
  input : Nat
deriving DecidableEq, Repr

/-- boxes of text in slots, and wires between them -/
structure Graph where
  /-- nodes without their wires -/
  box : Nat → Option Node
  wires : Set Wire

/-- an operation on a diagram that is not put in its place as a whole -/
inductive Operation where
  | add (text : String)
  | push (n : Node)
  | place (slot : Nat) (n : Node)
  | delete (slot : Nat)
  | connect (source : Source) (slot input : Nat)
  | disconnect (slot input : Nat)
  | setText (slot : Nat) (text : String)
  | move (slot : Nat) (x y : Single)
  | prune

/-- a node that is put into the diagram has no wires -/
def Operation.Unwired : Operation → Prop
  | .push n | .place _ n => ∀ source, some source ∉ n.inputs
  | _ => True

namespace Graph

def HasOutput (g : Graph) (source : Source) : Prop :=
  ∃ n, g.box source.node = some n ∧ source.output < n.outputs.length

def HasInput (g : Graph) (slot input : Nat) : Prop :=
  ∃ n, g.box slot = some n ∧ input < n.inputs.length

/-- whether an operation finds what it is about -/
def Allows (g : Graph) : Operation → Prop
  | .delete slot | .setText slot _ | .move slot _ _ => ∃ n, g.box slot = some n
  | .connect source slot input => g.HasOutput source ∧ g.HasInput slot input
  | .disconnect slot input => g.HasInput slot input
  | _ => True

/-- another box in a slot, or none -/
def put (g : Graph) (slot : Nat) (held : Option Node) : Nat → Option Node :=
  Function.update g.box slot (held.map Node.unwired)

/-- what an operation is to make of a graph; a new node gets a fresh slot -/
def after (g : Graph) (fresh : Nat) : Operation → Graph
  | .add text => ⟨g.put fresh (some (.ofText text)), g.wires⟩
  | .push n => ⟨g.put fresh (some n), g.wires⟩
  | .place slot n => ⟨g.put slot (some n), {w ∈ g.wires | w.slot ≠ slot}⟩
  | .delete slot => ⟨g.put slot none, {w ∈ g.wires | w.source.node ≠ slot ∧ w.slot ≠ slot}⟩
  | .connect source slot input =>
    ⟨g.box, insert ⟨source, slot, input⟩ {w ∈ g.wires | ¬ (w.slot = slot ∧ w.input = input)}⟩
  | .disconnect slot input => ⟨g.box, {w ∈ g.wires | ¬ (w.slot = slot ∧ w.input = input)}⟩
  | .setText slot text =>
    let edited := (g.box slot).map (·.setText text)
    let outputs := (edited.map fun n => n.outputs.length).getD 0
    ⟨g.put slot edited, {w ∈ g.wires |
      ¬ (w.slot = slot ∧ text.toList.count '$' ≤ w.input) ∧
      ¬ (w.source.node = slot ∧ outputs ≤ w.source.output)}⟩
  | .move slot x y => ⟨g.put slot ((g.box slot).map (·.moveTo x y)), g.wires⟩
  | .prune => g

end Graph

namespace Diagram

/-- the boxes and the wires of a diagram -/
def graph (d : Diagram) : Graph where
  box slot := (d.node? slot).map Node.unwired
  wires := {w | ∃ n, d.node? w.slot = some n ∧ n.inputs[w.input]? = some (some w.source)}

/-- the diagram after an operation, and the slot of a new node -/
def perform (d : Diagram) : Operation → Except EditFault (Option Nat × Diagram)
  | .add text => .ok (some d.slotCount, d.add text)
  | .push n => .ok (some d.slotCount, d.push n)
  | .place slot n => .ok (none, d.place slot n)
  | .delete slot => (d.delete slot).map fun r => (none, r.2)
  | .connect source slot input => (d.connect source slot input).map fun d' => (none, d')
  | .disconnect slot input => (d.disconnect slot input).map fun r => (none, r.2)
  | .setText slot text => (d.setText slot text).map fun d' => (none, d')
  | .move slot x y => (d.move slot x y).map fun d' => (none, d')
  | .prune => .ok (none, d.prune)

/-- the diagram after an operation that may have failed -/
def next (d : Diagram) (op : Operation) : Diagram := d.after (d.perform op) Prod.snd

/-- the diagram after some operations, those that fail left out -/
def afterAll (d : Diagram) (ops : List Operation) : Diagram := ops.foldl next d

end Diagram

/-! ## inputs of a text -/

namespace Text

variable {c : Char}

theorem count_dropReturn (hc : c ≠ '\r') (line : List Char) :
    (dropReturn line).count c = line.count c := by
  unfold dropReturn
  split
  · next hlast =>
    obtain ⟨front, rfl⟩ := List.getLast?_eq_some_iff.mp hlast
    have hreturn : List.count c ['\r'] = 0 := List.count_eq_zero.mpr (by simpa using hc)
    rw [List.dropLast_concat, List.count_append, hreturn, Nat.add_zero]
  · rfl

theorem count_cutLines (hc : c ≠ '\n') (text : List Char) :
    ((cutLines text).map (List.count c)).sum = text.count c := by
  induction text with
  | nil => rfl
  | cons first rest ih =>
    rw [cutLines]
    split
    · next hfirst =>
      have hne : first ≠ c := fun h => hc (h ▸ hfirst)
      rw [List.map_cons, List.sum_cons, ih, List.count_nil, Nat.zero_add, List.count_cons_of_ne hne]
    · split
      · next hnil => exact absurd hnil (cutLines_ne_nil rest)
      · next line lines heq =>
        rw [heq, List.map_cons, List.sum_cons] at ih
        rw [List.map_cons, List.sum_cons, List.count_cons, List.count_cons, ← ih]
        omega

/-- lines have the characters of the text, but for newlines and carriage returns -/
theorem count_splitLines (hn : c ≠ '\n') (hr : c ≠ '\r') (text : String) :
    ((splitLines text).map fun line => line.toList.count c).sum = text.toList.count c := by
  rw [splitLines, List.map_map, ← count_cutLines hn]
  refine congrArg List.sum (List.map_congr_left fun line _ => ?_)
  show (String.ofList (dropReturn line)).toList.count c = _
  rw [String.toList_ofList, count_dropReturn hr]

end Text

namespace Node

variable {n : Node} {source : Source}

/-- inputs are known from their number and their wires -/
theorem inputs_ext {inputs inputs' : List (Option Source)}
    (hlength : inputs.length = inputs'.length)
    (h : ∀ (i : Nat) source,
      inputs[i]? = some (some source) ↔ inputs'[i]? = some (some source)) : inputs = inputs' := by
  refine List.ext_getElem hlength fun i hi hi' => ?_
  have hsource := h i
  rw [List.getElem?_eq_getElem hi, List.getElem?_eq_getElem hi'] at hsource
  cases hheld : inputs[i] with
  | some source =>
    have heq := (hsource source).mp (congrArg some hheld)
    exact (Option.some.inj heq).symm
  | none =>
    cases hheld' : inputs'[i] with
    | none => rfl
    | some source =>
      have heq := (hsource source).mpr (congrArg some hheld')
      rw [hheld] at heq
      cases heq

theorem unwired_mapInputs (n : Node) (change : Option Source → Option Source) :
    (n.mapInputs change).unwired = n.unwired := by
  rw [unwired, mapInputs, List.length_map]
  rfl

theorem unwired_moveTo (n : Node) (x y : Single) :
    (n.unwired.moveTo x y).unwired = (n.moveTo x y).unwired := by
  simp only [unwired, moveTo, List.length_replicate]

theorem total_setText (n : Node) (text : String) :
    Line.total (n.setText text).lines = text.toList.count '$' := by
  show Line.total ((Text.splitLines text).map lineOf) = _
  rw [total_eq_sum, List.map_map]
  exact Text.count_splitLines (by decide) (by decide) text

/-- an input keeps its wire as long as there is a `$` for it -/
theorem getElem?_resize {inputs : List (Option Source)} {count i : Nat} :
    (resize inputs count)[i]? = some (some source) ↔
      i < count ∧ inputs[i]? = some (some source) := by
  rw [resize, List.getElem?_append]
  split
  · next hlt =>
    have hcount : i < count := by
      rw [List.length_take] at hlt
      omega
    rw [List.getElem?_take, if_pos hcount]
    exact (and_iff_right hcount).symm
  · next hge =>
    constructor
    · intro h
      cases List.eq_of_mem_replicate (List.mem_of_getElem? h)
    · rintro ⟨hcount, h⟩
      have hlt := (List.getElem?_eq_some_iff.mp h).1
      rw [List.length_take] at hge
      omega

theorem getElem?_setText {text : String} {i : Nat} :
    (n.setText text).inputs[i]? = some (some source) ↔
      i < text.toList.count '$' ∧ n.inputs[i]? = some (some source) := by
  rw [← n.total_setText text]
  exact getElem?_resize

theorem unwired_setText (n : Node) (text : String) :
    (n.unwired.setText text).unwired = (n.setText text).unwired := by
  have hlength : ∀ m : Node, (m.setText text).inputs.length = text.toList.count '$' := by
    intro m
    rw [← m.total_setText text]
    exact length_resize _ _
  have hreplicate : ∀ m : Node, (m.setText text).unwired =
      { m.setText text with inputs := List.replicate (text.toList.count '$') none } := by
    intro m
    rw [unwired, hlength]
  rw [hreplicate, hreplicate]
  rfl

end Node

/-! ## what an operation does to the graph -/

namespace Diagram

variable {d d' : Diagram} {slot input : Nat} {n : Node} {source : Source}

theorem mem_wires {w : Wire} : w ∈ d.graph.wires ↔
    ∃ n, d.node? w.slot = some n ∧ n.inputs[w.input]? = some (some w.source) := Iff.rfl

theorem box_eq_some {m : Node} :
    d.graph.box slot = some m ↔ ∃ n, d.node? slot = some n ∧ n.unwired = m :=
  Option.map_eq_some_iff

/-- boxes and wires are all there is to a diagram -/
theorem node?_eq_of_graph (h : d.graph = d'.graph) (slot : Nat) : d.node? slot = d'.node? slot := by
  have hbox : d.graph.box slot = d'.graph.box slot := by rw [h]
  have hwires : ∀ w, w ∈ d.graph.wires ↔ w ∈ d'.graph.wires := fun w => by rw [h]
  cases hn : d.node? slot with
  | none =>
    simp only [graph, hn, Option.map_none] at hbox
    exact (Option.map_eq_none_iff.mp hbox.symm).symm
  | some n =>
    obtain ⟨n', hn', hunwired⟩ := box_eq_some.mp (hbox.symm.trans (box_eq_some.mpr ⟨n, hn, rfl⟩))
    rw [hn']
    have hlength : n.inputs.length = n'.inputs.length := by
      have hboth := congrArg (fun m : Node => m.inputs.length) hunwired
      simpa [Node.unwired] using hboth.symm
    -- the inputs are read off the wires
    have hinputs : n.inputs = n'.inputs := by
      refine Node.inputs_ext hlength fun i source => ?_
      have hwire := hwires ⟨source, slot, i⟩
      simpa [mem_wires, hn, hn'] using hwire
    obtain ⟨x, y, lines, statements, inputs, outputs⟩ := n
    obtain ⟨x', y', lines', statements', inputs', outputs'⟩ := n'
    obtain rfl : inputs = inputs' := hinputs
    cases hunwired
    rfl

theorem graph_eq {box : Nat → Option Node} {wires : Set Wire}
    (hbox : ∀ slot, d.graph.box slot = box slot)
    (hwires : ∀ w, w ∈ d.graph.wires ↔ w ∈ wires) : d.graph = ⟨box, wires⟩ := by
  have hboth : d.graph.box = box ∧ d.graph.wires = wires := ⟨funext hbox, Set.ext hwires⟩
  rw [← hboth.1, ← hboth.2]

theorem box_put {held : Option Node} {other : Nat} : d.graph.put slot held other =
    if other = slot then held.map Node.unwired else (d.node? other).map Node.unwired := by
  rw [Graph.put, Function.update_apply]
  rfl

theorem box_mapInputs (change : Option Source → Option Source) :
    (d.mapNodes (·.mapInputs change)).graph.box = d.graph.box := by
  funext slot
  simp only [graph, node?_mapNodes, Option.map_map]
  refine congrFun (congrArg Option.map (funext fun n => ?_)) _
  exact n.unwired_mapInputs change

theorem mem_wires_mapInputs {change : Option Source → Option Source} {w : Wire} :
    w ∈ (d.mapNodes (·.mapInputs change)).graph.wires ↔ ∃ n, d.node? w.slot = some n ∧
      ∃ before, n.inputs[w.input]? = some before ∧ change before = some w.source := by
  simp only [mem_wires, node?_mapNodes, Option.map_eq_some_iff, exists_exists_and_eq_and,
    Node.mapInputs, List.getElem?_map]

theorem unwire_eq_some {held : Option Source} :
    unwire slot held = some source ↔ held = some source ∧ source.node ≠ slot := by
  cases held with
  | none => simp [unwire]
  | some before =>
    simp only [unwire, Option.ite_none_left_eq_some, Option.some.injEq]
    constructor
    · rintro ⟨hne, rfl⟩
      exact ⟨rfl, hne⟩
    · rintro ⟨rfl, hne⟩
      exact ⟨hne, rfl⟩

theorem wires_prune : d.prune.graph.wires = {w ∈ d.graph.wires | d.Offers w.source} := by
  ext w
  rw [prune, mem_wires_mapInputs]
  constructor
  · rintro ⟨n, hn, before, hbefore, hvalid⟩
    obtain ⟨rfl, hoffers⟩ := valid?_eq_some.mp hvalid
    exact ⟨⟨n, hn, hbefore⟩, hoffers⟩
  · rintro ⟨⟨n, hn, hget⟩, hoffers⟩
    exact ⟨n, hn, some w.source, hget, valid?_eq_some.mpr ⟨rfl, hoffers⟩⟩

theorem Grounded.offers (h : d.Grounded) {w : Wire} (hw : w ∈ d.graph.wires) :
    d.Offers w.source := by
  obtain ⟨n, hn, hget⟩ := hw
  exact h w.slot n hn w.source (List.mem_of_getElem? hget)

/-- nothing is pruned where every wire has its output -/
theorem Grounded.graph_prune (h : d.Grounded) : d.prune.graph = d.graph := by
  refine graph_eq (congrFun (box_mapInputs _)) fun w => ?_
  rw [wires_prune]
  exact ⟨And.left, fun hw => ⟨hw, h.offers hw⟩⟩

theorem graph_push (hn : ∀ source, some source ∉ n.inputs) :
    (d.push n).graph = ⟨d.graph.put d.slotCount (some n), d.graph.wires⟩ := by
  refine graph_eq (fun other => ?_) fun w => ?_
  · rw [box_put]
    simp only [graph, node?_push]
    split <;> rfl
  · simp only [mem_wires, node?_push]
    split
    · next hslot =>
      -- neither the new node nor the empty slot has wires
      rw [hslot, node?_eq_none_of_ge (Nat.le_refl d.slotCount)]
      constructor
      · rintro ⟨m, hm, hget⟩
        obtain rfl := Option.some.inj hm
        exact absurd (List.mem_of_getElem? hget) (hn w.source)
      · rintro ⟨m, hm, -⟩
        cases hm
    · rfl

theorem graph_place (hn : ∀ source, some source ∉ n.inputs) :
    (d.place slot n).graph =
      ⟨d.graph.put slot (some n), {w ∈ d.graph.wires | w.slot ≠ slot}⟩ := by
  refine graph_eq (fun other => ?_) fun w => ?_
  · rw [box_put]
    simp only [graph, node?_place]
    split <;> rfl
  · rw [mem_wires, node?_place]
    split
    · next hslot =>
      constructor
      · rintro ⟨m, hm, hget⟩
        obtain rfl := Option.some.inj hm
        exact absurd (List.mem_of_getElem? hget) (hn w.source)
      · rintro ⟨-, hne⟩
        exact absurd hslot hne
    · next hne => exact (and_iff_left hne).symm

theorem graph_delete (h : d.delete slot = .ok (n, d')) :
    d'.graph = ⟨d.graph.put slot none,
      {w ∈ d.graph.wires | w.source.node ≠ slot ∧ w.slot ≠ slot}⟩ := by
  obtain ⟨-, rfl⟩ := delete_ok h
  refine graph_eq (fun other => ?_) fun w => ?_
  · rw [box_mapInputs, box_put]
    simp only [graph, node?_emptied]
    split <;> rfl
  · rw [mem_wires_mapInputs, node?_emptied]
    split
    · next hslot =>
      constructor
      · rintro ⟨m, hm, -⟩
        cases hm
      · rintro ⟨-, -, hne⟩
        exact absurd hslot hne
    · next hne =>
      constructor
      · rintro ⟨m, hm, before, hbefore, hunwire⟩
        obtain ⟨rfl, hsource⟩ := unwire_eq_some.mp hunwire
        exact ⟨⟨m, hm, hbefore⟩, hsource, hne⟩
      · rintro ⟨⟨m, hm, hget⟩, hsource, -⟩
        exact ⟨m, hm, some w.source, hget, unwire_eq_some.mpr ⟨rfl, hsource⟩⟩

theorem getInput_ok {held : Option Source} (h : d.getInput slot input = .ok held) :
    ∃ n, d.node? slot = some n ∧ n.inputs[input]? = some held := by
  obtain ⟨n, hn, hinput⟩ := except_bind_ok h
  split at hinput
  · next found hfound =>
    obtain rfl := Except.ok.inj hinput
    exact ⟨n, getNode_ok hn, hfound⟩
  · cases hinput

theorem allows_iff : d.allows source slot input = .ok () ↔ d.Fits (slot, input, source) := by
  refine ⟨fun h => ⟨allows_ok h, ?_⟩, Fits.allows⟩
  obtain ⟨feeder, -, hfeeder⟩ := except_bind_ok h
  dsimp only at hfeeder
  split at hfeeder
  · cases hfeeder
  · obtain ⟨held, hinput, -⟩ := except_bind_ok hfeeder
    obtain ⟨n, hn, hget⟩ := getInput_ok hinput
    exact ⟨n, hn, (List.getElem?_eq_some_iff.mp hget).1⟩

/-- an edit of a node that succeeds has found it -/
theorem exists_node_of_bind {α : Type} {f : Node → Except EditFault α} {a : α}
    (h : d.getNode slot >>= f = .ok a) : ∃ n, d.node? slot = some n := by
  obtain ⟨n, hn, -⟩ := except_bind_ok h
  exact ⟨n, getNode_ok hn⟩

theorem box_wire (held : Option Source) : (d.wire slot input held).graph.box = d.graph.box := by
  funext other
  simp only [graph, node?_wire]
  split
  · rw [Option.map_map]
    refine congrFun (congrArg Option.map (funext fun n => ?_)) _
    show Node.unwired { n with inputs := n.inputs.set input held } = n.unwired
    rw [Node.unwired, Node.unwired, List.length_set]
  · rfl

theorem mem_wires_wire {held : Option Source} {w : Wire} (hslot : d.node? slot = some n)
    (hinput : input < n.inputs.length) : w ∈ (d.wire slot input held).graph.wires ↔
      (w.slot = slot ∧ w.input = input) ∧ held = some w.source ∨
      ¬ (w.slot = slot ∧ w.input = input) ∧ w ∈ d.graph.wires := by
  obtain ⟨source, other, i⟩ := w
  simp only [mem_wires, node?_wire]
  by_cases hother : other = slot
  · subst hother
    rw [if_pos rfl, hslot]
    by_cases hi : i = input
    · subst hi
      simp [List.getElem?_set_self hinput]
    · simp [List.getElem?_set_ne (Ne.symm hi), hi]
  · simp [hother]

theorem graph_connect (hslot : d.node? slot = some n) (hinput : input < n.inputs.length) :
    (d.wire slot input (some source)).graph = ⟨d.graph.box,
      insert ⟨source, slot, input⟩ {w ∈ d.graph.wires | ¬ (w.slot = slot ∧ w.input = input)}⟩ := by
  refine graph_eq (congrFun (box_wire _)) fun w => ?_
  rw [mem_wires_wire hslot hinput, Set.mem_insert_iff]
  refine or_congr ?_ and_comm
  constructor
  · rintro ⟨⟨rfl, rfl⟩, hsource⟩
    rw [Option.some.inj hsource]
  · rintro rfl
    exact ⟨⟨rfl, rfl⟩, rfl⟩

theorem graph_disconnect (hslot : d.node? slot = some n) (hinput : input < n.inputs.length) :
    (d.wire slot input none).graph = ⟨d.graph.box,
      {w ∈ d.graph.wires | ¬ (w.slot = slot ∧ w.input = input)}⟩ := by
  refine graph_eq (congrFun (box_wire _)) fun w => ?_
  rw [mem_wires_wire hslot hinput]
  constructor
  · rintro (⟨-, hnone⟩ | ⟨hw, hmem⟩)
    · cases hnone
    · exact ⟨hmem, hw⟩
  · rintro ⟨hmem, hw⟩
    exact .inr ⟨hw, hmem⟩

theorem graph_move (x y : Single) (hslot : d.node? slot = some n) :
    (d.modify slot (·.moveTo x y)).graph =
      ⟨d.graph.put slot (some (n.moveTo x y)), d.graph.wires⟩ := by
  refine graph_eq (fun other => ?_) fun w => ?_
  · rw [box_put]
    simp only [graph, node?_modify]
    split
    · next hother => rw [hother, hslot, Option.map_some, Option.map_some]
    · rfl
  · simp only [mem_wires, node?_modify]
    split
    · simp only [Option.map_eq_some_iff, exists_exists_and_eq_and]
      rfl
    · rfl

theorem mem_wires_modify_setText {text : String} {w : Wire} :
    w ∈ (d.modify slot (·.setText text)).graph.wires ↔
      w ∈ d.graph.wires ∧ ¬ (w.slot = slot ∧ text.toList.count '$' ≤ w.input) := by
  simp only [mem_wires, node?_modify]
  split
  · next hslot =>
    simp only [Option.map_eq_some_iff, exists_exists_and_eq_and, Node.getElem?_setText]
    constructor
    · rintro ⟨n, hn, hlt, hget⟩
      exact ⟨⟨n, hn, hget⟩, fun hw => absurd hlt (Nat.not_lt.mpr hw.2)⟩
    · rintro ⟨⟨n, hn, hget⟩, hw⟩
      exact ⟨n, hn, Nat.lt_of_not_le fun hle => hw ⟨hslot, hle⟩, hget⟩
  · next hslot => exact (and_iff_left fun hw => hslot hw.1).symm

theorem offers_modify_setText {text : String} (hslot : d.node? slot = some n)
    (h : d.Offers source) : (d.modify slot (·.setText text)).Offers source ↔
      ¬ (source.node = slot ∧ (n.setText text).outputs.length ≤ source.output) := by
  unfold Offers
  rw [node?_modify]
  split
  · next hnode =>
    rw [hnode, hslot, Option.map_some]
    simp only [Option.some.injEq, exists_eq_left', true_and, Nat.not_le]
  · next hnode => exact iff_of_true h fun hw => hnode hw.1

/-- a wire is lost with its input or with its output -/
theorem graph_setText (h : d.Grounded) (text : String) (hslot : d.node? slot = some n) :
    (d.modify slot (·.setText text)).prune.graph =
      ⟨d.graph.put slot (some (n.setText text)), {w ∈ d.graph.wires |
        ¬ (w.slot = slot ∧ text.toList.count '$' ≤ w.input) ∧
        ¬ (w.source.node = slot ∧ (n.setText text).outputs.length ≤ w.source.output)}⟩ := by
  refine graph_eq (fun other => ?_) fun w => ?_
  · rw [prune, box_mapInputs, box_put]
    simp only [graph, node?_modify]
    split
    · next hother => rw [hother, hslot, Option.map_some, Option.map_some]
    · rfl
  · rw [wires_prune]
    constructor
    · rintro ⟨hmodified, hoffers⟩
      obtain ⟨hmem, hinput⟩ := mem_wires_modify_setText.mp hmodified
      exact ⟨hmem, hinput, (offers_modify_setText hslot (h.offers hmem)).mp hoffers⟩
    · rintro ⟨hmem, hinput, houtput⟩
      exact ⟨mem_wires_modify_setText.mpr ⟨hmem, hinput⟩,
        (offers_modify_setText hslot (h.offers hmem)).mpr houtput⟩

theorem graph_perform {op : Operation} (hd : d.Grounded) (hop : op.Unwired) {index : Option Nat}
    (h : d.perform op = .ok (index, d')) : d'.graph = d.graph.after d.slotCount op := by
  have hbox : ∀ {slot n}, d.node? slot = some n → d.graph.box slot = some n.unwired := by
    intro slot n hn
    exact box_eq_some.mpr ⟨n, hn, rfl⟩
  cases op with
  | add text =>
    obtain ⟨-, rfl⟩ := Prod.mk.inj (Except.ok.inj h)
    exact graph_push fun _ => not_mem_inputs_ofText text
  | push n =>
    obtain ⟨-, rfl⟩ := Prod.mk.inj (Except.ok.inj h)
    exact graph_push hop
  | place slot n =>
    obtain ⟨-, rfl⟩ := Prod.mk.inj (Except.ok.inj h)
    exact graph_place hop
  | delete slot =>
    obtain ⟨⟨n, rest⟩, hdelete, heq⟩ := except_map_ok h
    obtain ⟨-, rfl⟩ := Prod.mk.inj heq
    exact graph_delete hdelete
  | connect source slot input =>
    obtain ⟨_, hconnect, heq⟩ := except_map_ok h
    obtain ⟨-, rfl⟩ := Prod.mk.inj heq
    obtain ⟨hallows, rfl⟩ := connect_ok hconnect
    obtain ⟨-, n, hn, hinput⟩ := allows_iff.mp hallows
    exact graph_connect hn hinput
  | disconnect slot input =>
    obtain ⟨⟨held, _⟩, hdisconnect, heq⟩ := except_map_ok h
    obtain ⟨-, rfl⟩ := Prod.mk.inj heq
    obtain ⟨hinput, rfl⟩ := disconnect_ok hdisconnect
    obtain ⟨n, hn, hget⟩ := getInput_ok hinput
    exact graph_disconnect hn (List.getElem?_eq_some_iff.mp hget).1
  | setText slot text =>
    obtain ⟨_, hsetText, heq⟩ := except_map_ok h
    obtain ⟨-, rfl⟩ := Prod.mk.inj heq
    obtain ⟨n, hn⟩ := exists_node_of_bind hsetText
    obtain rfl := setText_ok hsetText
    rw [graph_setText hd text hn]
    simp only [Graph.after, Graph.put, hbox hn, Option.map_some, Option.getD_some,
      Node.unwired_setText]
    rfl
  | move slot x y =>
    obtain ⟨_, hmove, heq⟩ := except_map_ok h
    obtain ⟨-, rfl⟩ := Prod.mk.inj heq
    obtain ⟨n, hn⟩ := exists_node_of_bind hmove
    obtain rfl := move_ok hmove
    rw [graph_move x y hn]
    simp only [Graph.after, Graph.put, hbox hn, Option.map_some, Node.unwired_moveTo]
  | prune =>
    obtain ⟨-, rfl⟩ := Prod.mk.inj (Except.ok.inj h)
    exact hd.graph_prune

/-! ## which operations succeed -/

theorem exists_box_iff : (∃ m, d.graph.box slot = some m) ↔ ∃ n, d.node? slot = some n := by
  simp only [box_eq_some, ↓existsAndEq, and_true]

theorem hasInput_iff : d.graph.HasInput slot input ↔
    ∃ n, d.node? slot = some n ∧ input < n.inputs.length := by
  simp only [Graph.HasInput, box_eq_some, ↓existsAndEq, and_true, Node.unwired,
    List.length_replicate]

theorem fits_iff : d.Fits (slot, input, source) ↔
    d.graph.HasOutput source ∧ d.graph.HasInput slot input := by
  rw [hasInput_iff, Fits, hasOutput_iff]
  simp only [Graph.HasOutput, box_eq_some, ↓existsAndEq, and_true, Node.unwired]

/-- a node is found where there is one -/
theorem getNode_iff : (∃ n, d.getNode slot = .ok n) ↔ ∃ n, d.node? slot = some n := by
  unfold getNode
  split
  · next n hn => simp [hn]
  · next hn => simp [hn]

theorem getInput_iff : (∃ held, d.getInput slot input = .ok held) ↔
    d.graph.HasInput slot input := by
  rw [hasInput_iff]
  constructor
  · rintro ⟨held, h⟩
    obtain ⟨n, hn, hget⟩ := getInput_ok h
    exact ⟨n, hn, (List.getElem?_eq_some_iff.mp hget).1⟩
  · rintro ⟨n, hn, hlt⟩
    refine ⟨n.inputs[input], ?_⟩
    simp [getInput, getNode, hn, List.getElem?_eq_getElem hlt, bind, Except.bind, pure, Except.pure]

/-- the results of an operation that only has to find what it is about -/
theorem exists_ok_bind {ε α β : Type} {r : Except ε α} {f : α → β} :
    (∃ b, (r >>= fun a => pure (f a)) = .ok b) ↔ ∃ a, r = .ok a := by
  cases r with
  | error fault => exact ⟨nofun, nofun⟩
  | ok a => exact ⟨fun _ => ⟨a, rfl⟩, fun _ => ⟨f a, rfl⟩⟩

theorem exists_ok_map {ε α β : Type} {r : Except ε α} {f : α → β} :
    (∃ b, r.map f = .ok b) ↔ ∃ a, r = .ok a := exists_ok_bind

theorem exists_perform_iff {op : Operation} :
    (∃ r, d.perform op = .ok r) ↔ d.graph.Allows op := by
  have hslot : ∀ slot, (∃ n, d.getNode slot = .ok n) ↔ ∃ m, d.graph.box slot = some m := by
    intro slot
    rw [getNode_iff, exists_box_iff]
  cases op with
  | delete slot => exact exists_ok_map.trans (exists_ok_bind.trans (hslot slot))
  | setText slot text => exact exists_ok_map.trans (exists_ok_bind.trans (hslot slot))
  | move slot x y => exact exists_ok_map.trans (exists_ok_bind.trans (hslot slot))
  | connect source slot input =>
    refine exists_ok_map.trans (exists_ok_bind.trans ?_)
    rw [Graph.Allows, ← fits_iff, ← allows_iff]
    exact ⟨fun ⟨_, h⟩ => h, fun h => ⟨(), h⟩⟩
  | disconnect slot input => exact exists_ok_map.trans (exists_ok_bind.trans getInput_iff)
  | _ => exact ⟨fun _ => trivial, fun _ => ⟨_, rfl⟩⟩

/-! ## slots of new nodes -/

theorem next_of_ok {op : Operation} {index : Option Nat} (h : d.perform op = .ok (index, d')) :
    d.next op = d' := by rw [next, h]; rfl

theorem next_of_error {op : Operation} {fault : EditFault} (h : d.perform op = .error fault) :
    d.next op = d := by rw [next, h]; rfl

theorem slotCount_modify (change : Node → Node) :
    (d.modify slot change).slotCount = d.slotCount := Array.size_modify

theorem slotCount_mapNodes (change : Node → Node) :
    (d.mapNodes change).slotCount = d.slotCount := Array.size_map

theorem slotCount_place : d.slotCount ≤ (d.place slot n).slotCount := by
  simp only [slotCount, place, Array.size_setIfInBounds, Array.size_append]
  omega

theorem slotCount_push : (d.push n).slotCount = d.slotCount + 1 := Array.size_push _

/-- no slot is ever given up -/
theorem slotCount_perform {op : Operation} {index : Option Nat}
    (h : d.perform op = .ok (index, d')) : d.slotCount ≤ d'.slotCount := by
  cases op with
  | add text =>
    obtain ⟨-, rfl⟩ := Prod.mk.inj (Except.ok.inj h)
    exact Nat.le_trans (Nat.le_succ _) (Nat.le_of_eq slotCount_push.symm)
  | push n =>
    obtain ⟨-, rfl⟩ := Prod.mk.inj (Except.ok.inj h)
    exact Nat.le_trans (Nat.le_succ _) (Nat.le_of_eq slotCount_push.symm)
  | place slot n =>
    obtain ⟨-, rfl⟩ := Prod.mk.inj (Except.ok.inj h)
    exact slotCount_place
  | delete slot =>
    obtain ⟨⟨n, rest⟩, hdelete, heq⟩ := except_map_ok h
    obtain ⟨-, rfl⟩ := Prod.mk.inj heq
    obtain ⟨-, rfl⟩ := delete_ok hdelete
    rw [slotCount_mapNodes]
    exact Nat.le_of_eq Array.size_setIfInBounds.symm
  | connect source slot input =>
    obtain ⟨_, hconnect, heq⟩ := except_map_ok h
    obtain ⟨-, rfl⟩ := Prod.mk.inj heq
    obtain ⟨-, rfl⟩ := connect_ok hconnect
    exact Nat.le_of_eq (slotCount_modify _).symm
  | disconnect slot input =>
    obtain ⟨⟨held, _⟩, hdisconnect, heq⟩ := except_map_ok h
    obtain ⟨-, rfl⟩ := Prod.mk.inj heq
    obtain ⟨-, rfl⟩ := disconnect_ok hdisconnect
    exact Nat.le_of_eq (slotCount_modify _).symm
  | setText slot text =>
    obtain ⟨_, hsetText, heq⟩ := except_map_ok h
    obtain ⟨-, rfl⟩ := Prod.mk.inj heq
    obtain rfl := setText_ok hsetText
    rw [prune, slotCount_mapNodes, slotCount_modify]
  | move slot x y =>
    obtain ⟨_, hmove, heq⟩ := except_map_ok h
    obtain ⟨-, rfl⟩ := Prod.mk.inj heq
    obtain rfl := move_ok hmove
    exact Nat.le_of_eq (slotCount_modify _).symm
  | prune =>
    obtain ⟨-, rfl⟩ := Prod.mk.inj (Except.ok.inj h)
    exact Nat.le_of_eq (slotCount_mapNodes _).symm

theorem slotCount_next (op : Operation) : d.slotCount ≤ (d.next op).slotCount := by
  cases h : d.perform op with
  | ok r =>
    rw [next_of_ok h]
    exact slotCount_perform h
  | error fault => rw [next_of_error h]

theorem slotCount_afterAll (ops : List Operation) : d.slotCount ≤ (d.afterAll ops).slotCount := by
  induction ops generalizing d with
  | nil => exact Nat.le_refl _
  | cons op ops ih => exact Nat.le_trans (slotCount_next op) ih

theorem index_perform {op : Operation} {index : Nat} (h : d.perform op = .ok (some index, d')) :
    index = d.slotCount := by
  have hnone : ∀ {ε α : Type} {r : Except ε α} {f : α → Diagram},
      r.map (fun a => ((none : Option Nat), f a)) = .ok (some index, d') → index = d.slotCount := by
    intro ε α r f hr
    obtain ⟨a, -, heq⟩ := except_map_ok hr
    cases heq
  cases op with
  | add text => exact (Option.some.inj (Prod.mk.inj (Except.ok.inj h)).1).symm
  | push n => exact (Option.some.inj (Prod.mk.inj (Except.ok.inj h)).1).symm
  | place slot n => cases (Prod.mk.inj (Except.ok.inj h)).1
  | prune => cases (Prod.mk.inj (Except.ok.inj h)).1
  | _ => exact hnone h

/-- a new node gets a slot beyond all that were ever occupied -/
theorem lt_index_of_afterAll {ops before later : List Operation} {op : Operation} {index : Nat}
    (hops : ops = before ++ later) (h : (d.afterAll ops).perform op = .ok (some index, d'))
    (hslot : ((d.afterAll before).node? slot).isSome) : slot < index := by
  have hlt : slot < (d.afterAll before).slotCount := lt_slotCount_of_node? hslot
  have hrun : d.afterAll ops = (d.afterAll before).afterAll later := by
    rw [hops, afterAll, List.foldl_append]
    rfl
  have hle : (d.afterAll before).slotCount ≤ (d.afterAll ops).slotCount :=
    hrun ▸ slotCount_afterAll later
  rw [index_perform h]
  exact Nat.lt_of_lt_of_le hlt hle

/-- **Edits do to the graph what they say.**  Where no wire is left without its output, an operation
succeeds just if it finds what it is about; then it puts the boxes and the wires of `Graph.after` in
the place of those before, and a new node gets a slot beyond all slots that were occupied at any
time of a run that led to the diagram.  If the operation fails, nothing changes. -/
theorem next_graph {op : Operation} (hd : d.Grounded) (hop : op.Unwired) :
    (d.graph.Allows op → ∃ index, d.perform op = .ok (index, d.next op) ∧
      (d.next op).graph = d.graph.after d.slotCount op ∧
      ∀ new, index = some new → new = d.slotCount ∧
        ∀ start before later, d = afterAll start (before ++ later) →
          ∀ slot, ((start.afterAll before).node? slot).isSome → slot < new) ∧
    (¬ d.graph.Allows op → ∃ fault, d.perform op = .error fault ∧ d.next op = d) := by
  constructor
  · intro hallows
    obtain ⟨⟨index, d'⟩, hperform⟩ := exists_perform_iff.mpr hallows
    obtain rfl := next_of_ok hperform
    refine ⟨index, hperform, graph_perform hd hop hperform, ?_⟩
    rintro new rfl
    refine ⟨index_perform hperform, fun start before later hrun slot hslot => ?_⟩
    exact lt_index_of_afterAll rfl (hrun ▸ hperform) hslot
  · intro hallows
    cases hperform : d.perform op with
    | ok r => exact absurd (exists_perform_iff.mp ⟨r, hperform⟩) hallows
    | error fault => exact ⟨fault, rfl, next_of_error hperform⟩

/-- a node that reads its own second output, which its new text lacks -/
theorem next_graph_loop :
    let box : Node := ⟨.zero false, .zero false, [⟨"1", 0⟩, ⟨"$", 1⟩], [⟨1, true⟩, ⟨1, true⟩],
      [some ⟨0, 1⟩], [0, 1]⟩
    let reader : Node := ⟨.zero false, .zero false, [⟨"$ + $", 2⟩], [⟨1, true⟩],
      [some ⟨0, 0⟩, some ⟨0, 1⟩], [0]⟩
    let d : Diagram := ⟨#[some box, some reader]⟩
    let op : Operation := .setText 0 "$"
    d.Grounded ∧ op.Unwired ∧ (∃ index, d.perform op = .ok (index, d.next op) ∧
      (d.next op).graph = d.graph.after d.slotCount op) ∧
      (d.next op).node? 1 = some { reader with inputs := [some ⟨0, 0⟩, none] } := by
  intro box reader d op
  have hslots : d.prune.slots = d.slots := by decide +kernel
  have hprune : d.prune = d := congrArg Diagram.mk hslots
  have hgrounded : d.Grounded := hprune ▸ grounded_prune d
  have hunwired : op.Unwired := trivial
  have hallows : d.graph.Allows op := ⟨box.unwired, rfl⟩
  obtain ⟨index, hperform, hgraph, -⟩ := (next_graph hgrounded hunwired).1 hallows
  exact ⟨hgrounded, hunwired, ⟨index, hperform, hgraph⟩, by decide +kernel⟩

end Diagram

end Dataflow
