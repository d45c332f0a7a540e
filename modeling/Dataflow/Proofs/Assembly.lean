import Dataflow.Proofs.Contents
import Dataflow.Proofs.Graph

/-!
# What the node blocks of a diagram amount to

Loading puts one node after the other into its slot and makes the connections afterwards.  What comes
out is said here slot by slot.

* `valuesAt`        what is said about a slot, in its order;
* `lastSource`      where an input takes its value from: the last connection that can be made;
* `Assembled`       the diagram of some drafts: in every slot is the node that was said last, and
                    the connections are those of all drafts of the slot;
* `build_eq_ok_iff` a block is built just if all its nodes can be read, and what is built is
                    assembled from them.

The connections of a draft are made in the node of its slot, whether or not that node is its own.
-/

namespace Dataflow

namespace Diagram

variable {d d' : Diagram} {slot input : Nat} {n : Node} {source : Source}

/-- the slots, the boxes and the wires are all there is to a diagram -/
theorem eq_of_graph (hcount : d.slotCount = d'.slotCount) (h : d.graph = d'.graph) : d = d' := by
  have hslots : d.slots = d'.slots := by
    refine Array.ext hcount fun i hi hi' => ?_
    have hnode := node?_eq_of_graph h i
    rwa [node?, node?, Array.getElem?_eq_getElem hi, Array.getElem?_eq_getElem hi'] at hnode
  obtain ⟨slots⟩ := d
  exact congrArg Diagram.mk hslots

/-- which wires fit is known from the boxes -/
theorem fits_congr (h : d.graph.box = d'.graph.box) :
    d.Fits (slot, input, source) ↔ d'.Fits (slot, input, source) := by
  rw [fits_iff, fits_iff, Graph.HasOutput, Graph.HasOutput, Graph.HasInput, Graph.HasInput, h]

theorem slotCount_place_le_iff {count : Nat} :
    (d.place slot n).slotCount ≤ count ↔ d.slotCount ≤ count ∧ slot < count := by
  simp only [slotCount, place, Array.size_setIfInBounds, Array.size_append, Array.size_replicate]
  omega

end Diagram

namespace Saved

open Diagram

/-! ## what is said about a slot -/

section

variable {α : Type} {key : Nat} {pairs : List (Nat × α)}

/-- the values that are paired with a key -/
def valuesAt (key : Nat) (pairs : List (Nat × α)) : List α :=
  (pairs.filter (·.1 == key)).map Prod.snd

theorem valuesAt_append (pairs pairs' : List (Nat × α)) :
    valuesAt key (pairs ++ pairs') = valuesAt key pairs ++ valuesAt key pairs' := by
  rw [valuesAt, List.filter_append, List.map_append]
  rfl

theorem valuesAt_cons_self (a : α) : valuesAt key ((key, a) :: pairs) = a :: valuesAt key pairs := by
  rw [valuesAt, List.filter_cons_of_pos (by simp), List.map_cons]
  rfl

theorem valuesAt_cons_of_ne {other : Nat} (h : other ≠ key) (a : α) :
    valuesAt key ((other, a) :: pairs) = valuesAt key pairs := by
  rw [valuesAt, List.filter_cons_of_neg (by simpa using h)]
  rfl

/-- values that all have one key -/
theorem valuesAt_map_mk (other : Nat) (values : List α) :
    valuesAt key (values.map fun a => (other, a)) = if other = key then values else [] := by
  induction values with
  | nil => exact (ite_self _).symm
  | cons a values ih =>
    rw [List.map_cons]
    by_cases h : other = key
    · subst h
      rw [valuesAt_cons_self, ih, if_pos rfl, if_pos rfl]
    · rw [valuesAt_cons_of_ne h, ih, if_neg h, if_neg h]

end

/-! ## sources -/

/-- where an input takes its value from by a connection, if it can be made -/
def sourceOf (d : Diagram) (slot input : Nat) (c : ConnectionDraft) : Option Source :=
  match readConnection d slot c with
  | .ok (source, target) => if target = input then some source else none
  | .error _ => none

/-- where an input takes its value from: the last of some connections that can be made -/
def lastSource (d : Diagram) (slot input : Nat) (cs : List ConnectionDraft) : Option Source :=
  (cs.filterMap (sourceOf d slot input)).getLast?

section

variable {d d' : Diagram} {slot input : Nat} {source : Source} {c : ConnectionDraft}

/-- a connection is made if it is complete and both its ends exist; the number of a node is that of
its slot plus one -/
theorem readConnection_eq_ok_iff : readConnection d slot c = .ok (source, input) ↔
    c.input = some input ∧ c.sourceId = some (source.node + 1) ∧ c.output = some source.output ∧
      d.Fits (slot, input, source) := by
  constructor
  · intro h
    unfold readConnection at h
    split at h
    · next target id output htarget hid houtput =>
      split at h
      · cases h
      · next hzero =>
        dsimp only at h
        split at h
        · next hallows =>
          obtain ⟨rfl, rfl⟩ := Prod.mk.inj (Except.ok.inj h)
          refine ⟨htarget, ?_, houtput, allows_iff.mp hallows⟩
          rw [hid, Nat.sub_add_cancel (Nat.pos_of_ne_zero hzero)]
        · cases h
    · cases h
  · rintro ⟨hinput, hid, houtput, hfits⟩
    simp [readConnection, hinput, hid, houtput, hfits.allows]

theorem sourceOf_eq_some_iff :
    sourceOf d slot input c = some source ↔ readConnection d slot c = .ok (source, input) := by
  unfold sourceOf
  cases readConnection d slot c with
  | error message => exact iff_of_false nofun nofun
  | ok made =>
    obtain ⟨source', target⟩ := made
    by_cases h : target = input
    · simp [h]
    · simp [h]

theorem sourceOf_congr (h : d.graph.box = d'.graph.box) : sourceOf d = sourceOf d' := by
  funext slot input c
  refine Option.ext fun source => ?_
  rw [sourceOf_eq_some_iff, sourceOf_eq_some_iff, readConnection_eq_ok_iff,
    readConnection_eq_ok_iff, fits_congr h]

theorem lastSource_congr (h : d.graph.box = d'.graph.box) : lastSource d = lastSource d' := by
  funext slot input cs
  rw [lastSource, sourceOf_congr h]
  rfl

theorem lastSource_append (cs cs' : List ConnectionDraft) :
    lastSource d slot input (cs ++ cs') =
      (lastSource d slot input cs').or (lastSource d slot input cs) := by
  rw [lastSource, List.filterMap_append, List.getLast?_append]
  rfl

theorem lastSource_singleton : lastSource d slot input [c] = sourceOf d slot input c := by
  rw [lastSource, List.filterMap_cons]
  cases sourceOf d slot input c <;> rfl

theorem lastSource_cons (cs : List ConnectionDraft) :
    lastSource d slot input (c :: cs) =
      (lastSource d slot input cs).or (sourceOf d slot input c) := by
  rw [← List.singleton_append, lastSource_append, lastSource_singleton]

theorem exists_of_lastSource {cs : List ConnectionDraft}
    (h : lastSource d slot input cs = some source) :
    ∃ c ∈ cs, readConnection d slot c = .ok (source, input) := by
  obtain ⟨c, hc, hsource⟩ := List.mem_filterMap.mp (List.mem_of_getLast? h)
  exact ⟨c, hc, sourceOf_eq_some_iff.mp hsource⟩

theorem lastSource_eq_none_iff {cs : List ConnectionDraft} :
    lastSource d slot input cs = none ↔
      ∀ c ∈ cs, ∀ source, readConnection d slot c ≠ .ok (source, input) := by
  rw [lastSource, List.getLast?_eq_none_iff, List.filterMap_eq_nil_iff]
  refine forall₂_congr fun c _ => ?_
  rw [Option.eq_none_iff_forall_ne_some]
  exact forall_congr' fun source => not_congr sourceOf_eq_some_iff

end

/-! ## assembled diagrams -/

namespace NodeDraft

/-- the node that a draft describes, without its wires -/
def node (n : NodeDraft) : Node :=
  (holdOutputs ((Node.ofText (Text.joinLines n.lines.reverse)).moveTo n.x n.y) []
    n.held.reverse).1

/-- the connections in the order in which they are said -/
def wiring (n : NodeDraft) : List ConnectionDraft := n.connections.reverse

theorem not_mem_inputs_node (n : NodeDraft) (source : Source) : some source ∉ n.node.inputs := by
  have hkeep : ∀ (m : Node) index m', some source ∉ m.inputs → m.keepOutput? index = some m' →
      some source ∉ m'.inputs := by
    intro m index m' hm hk hmem
    obtain ⟨-, rfl⟩ := Node.keepOutput?_some hk
    obtain ⟨i, hi⟩ := List.mem_iff_getElem?.mp hmem
    exact hm (List.mem_of_getElem? (Node.getElem?_resize.mp hi).2)
  have hplain : some source ∉
      ((Node.ofText (Text.joinLines n.lines.reverse)).moveTo n.x n.y).inputs :=
    not_mem_inputs_ofText _
  exact holdOutputs_keeps (P := fun m => some source ∉ m.inputs) hkeep hplain [] n.held.reverse

end NodeDraft

/-- the diagram of some drafts with their slots -/
structure Assembled (drafts : List (Nat × NodeDraft)) (d : Diagram) : Prop where
  /-- there are as many slots as are needed -/
  slots : ∀ count, d.slotCount ≤ count ↔ ∀ p ∈ drafts, p.1 < count
  /-- a slot has the node that was said last -/
  box : ∀ slot, d.graph.box slot = (valuesAt slot drafts).getLast?.map fun n => n.node.unwired
  /-- an input has the wire of the last connection that can be made, in any draft of its slot -/
  wires : ∀ w, w ∈ d.graph.wires ↔ lastSource d w.slot w.input
    ((valuesAt w.slot drafts).flatMap NodeDraft.wiring) = some w.source

theorem Assembled.unique {drafts : List (Nat × NodeDraft)} {d d' : Diagram}
    (h : Assembled drafts d) (h' : Assembled drafts d') : d = d' := by
  have hbox : d.graph.box = d'.graph.box := funext fun slot => by rw [h.box, h'.box]
  have hwires : d.graph.wires = d'.graph.wires := by
    ext w
    rw [h.wires, h'.wires, lastSource_congr hbox]
  refine eq_of_graph (Nat.le_antisymm ?_ ?_) ?_
  · exact (h.slots _).mpr ((h'.slots _).mp (Nat.le_refl _))
  · exact (h'.slots _).mpr ((h.slots _).mp (Nat.le_refl _))
  · show Graph.mk d.graph.box d.graph.wires = Graph.mk d'.graph.box d'.graph.wires
    rw [hbox, hwires]

/-! ## nodes -/

def put (d : Diagram) (p : Nat × NodeDraft) : Diagram := d.place p.1 p.2.node

theorem slotCount_foldl_put (drafts : List (Nat × NodeDraft)) (d : Diagram) (count : Nat) :
    (drafts.foldl put d).slotCount ≤ count ↔
      d.slotCount ≤ count ∧ ∀ p ∈ drafts, p.1 < count := by
  induction drafts generalizing d with
  | nil => simp
  | cons p drafts ih =>
    rw [List.foldl_cons, ih, put, slotCount_place_le_iff, List.forall_mem_cons, and_assoc]

theorem box_foldl_put (drafts : List (Nat × NodeDraft)) (d : Diagram) (slot : Nat) :
    (drafts.foldl put d).graph.box slot =
      ((valuesAt slot drafts).getLast?.map fun n => n.node.unwired).or (d.graph.box slot) := by
  induction drafts generalizing d with
  | nil => rfl
  | cons p drafts ih =>
    obtain ⟨other, n⟩ := p
    rw [List.foldl_cons, ih, put, graph_place n.not_mem_inputs_node]
    show Option.or _ (d.graph.put other (some n.node) slot) = _
    rw [box_put]
    by_cases h : other = slot
    · subst h
      rw [valuesAt_cons_self, List.getLast?_cons, if_pos rfl]
      cases (valuesAt other drafts).getLast? <;> rfl
    · rw [valuesAt_cons_of_ne h, if_neg (Ne.symm h)]
      rfl

/-- nodes are put in their slots without wires -/
theorem wires_foldl_put (drafts : List (Nat × NodeDraft)) (d : Diagram) :
    (drafts.foldl put d).graph.wires ⊆ d.graph.wires := by
  induction drafts generalizing d with
  | nil => exact fun w hw => hw
  | cons p drafts ih =>
    rw [List.foldl_cons]
    intro w hw
    have hplaced := ih _ hw
    rw [put, graph_place p.2.not_mem_inputs_node] at hplaced
    exact hplaced.1

/-! ## connections -/

/-- what making some connections does to a diagram -/
structure Connected (d : Diagram) (cs : List (Nat × ConnectionDraft)) (d' : Diagram) : Prop where
  grounded : d'.Grounded
  slots : d'.slotCount = d.slotCount
  box : d'.graph.box = d.graph.box
  wires : ∀ w, w ∈ d'.graph.wires ↔
    lastSource d w.slot w.input (valuesAt w.slot cs) = some w.source ∨
      lastSource d w.slot w.input (valuesAt w.slot cs) = none ∧ w ∈ d.graph.wires

theorem connected_connectAll {d : Diagram} (h : d.Grounded) (log : List LogLine)
    (cs : List (Nat × ConnectionDraft)) : Connected d cs (connectAll d log cs).1 := by
  induction cs generalizing d log with
  | nil => exact ⟨h, rfl, rfl, fun w => by simp [connectAll, valuesAt, lastSource]⟩
  | cons first rest ih =>
    obtain ⟨slot, c⟩ := first
    rw [connectAll]
    split
    · next source input hread =>
      -- the wire that is made here gives way to later ones
      obtain ⟨-, -, -, hfits⟩ := readConnection_eq_ok_iff.mp hread
      obtain ⟨hoffers, n, hn, hlt⟩ := hfits
      have hgrounded : (d.wire slot input (some source)).Grounded := by
        refine h.wire slot input fun s hs => ?_
        obtain rfl := Option.some.inj hs
        exact hasOutput_iff.mp hoffers
      have hrest := ih hgrounded log
      have hbox : (d.wire slot input (some source)).graph.box = d.graph.box := box_wire (some source)
      refine ⟨hrest.grounded, hrest.slots.trans (slotCount_modify _), hrest.box.trans hbox,
        fun w => ?_⟩
      rw [hrest.wires, lastSource_congr hbox, mem_wires_wire hn hlt]
      by_cases hslot : slot = w.slot
      · subst hslot
        rw [valuesAt_cons_self, lastSource_cons]
        cases lastSource d w.slot w.input (valuesAt w.slot rest) with
        | some later => simp
        | none =>
          have hsource : sourceOf d w.slot w.input c =
              if w.input = input then some source else none := by
            rw [sourceOf, hread]
            exact if_congr eq_comm rfl rfl
          rw [hsource]
          by_cases hinput : w.input = input <;> simp [hinput]
      · rw [valuesAt_cons_of_ne hslot]
        simp [Ne.symm hslot]
    · next message hread =>
      have hrest := ih h (log ++ [⟨.warn, message⟩])
      refine ⟨hrest.grounded, hrest.slots, hrest.box, fun w => ?_⟩
      rw [hrest.wires]
      by_cases hslot : slot = w.slot
      · subst hslot
        have hnone : sourceOf d w.slot w.input c = none := by rw [sourceOf, hread]
        rw [valuesAt_cons_self, lastSource_cons, hnone, Option.or_none]
      · rw [valuesAt_cons_of_ne hslot]

/-! ## blocks -/

/-- the drafts of the entries that can be read -/
def draftsOf (es : List Entry) : List (Nat × NodeDraft) :=
  es.filterMap fun e => (readNode e).toOption

/-- drafts are put in place one after the other, and their connections are kept -/
theorem readNodes_eq {es : List Entry} {draft draft' : Draft}
    (h : Draft.readNodes es draft = (none, draft')) :
    draft'.diagram = (draftsOf es).foldl put draft.diagram ∧
      draft'.connections.reverse = draft.connections.reverse ++
        (draftsOf es).flatMap fun p => p.2.wiring.map fun c => (p.1, c) := by
  induction es generalizing draft with
  | nil =>
    obtain ⟨-, rfl⟩ := Prod.mk.inj h
    exact ⟨rfl, (List.append_nil _).symm⟩
  | cons e rest ih =>
    rw [Draft.readNodes] at h
    cases hread : readNode e with
    | error fault =>
      rw [hread] at h
      cases h
    | ok p =>
      obtain ⟨slot, n⟩ := p
      rw [hread] at h
      obtain ⟨hdiagram, hconnections⟩ := ih h
      have hdrafts : draftsOf (e :: rest) = (slot, n) :: draftsOf rest := by
        rw [draftsOf, List.filterMap_cons, hread]
        rfl
      have hnode : (draft.place e.line slot n).diagram = put draft.diagram (slot, n) :=
        congrArg (draft.diagram.place slot) (fst_holdOutputs_congr rfl _ draft.log [])
      rw [hdrafts, hdiagram, hconnections, hnode]
      refine ⟨rfl, ?_⟩
      show (n.connections.map _ ++ draft.connections).reverse ++ _ = _
      rw [List.reverse_append, ← List.map_reverse, List.append_assoc, List.flatMap_cons]
      rfl

theorem valuesAt_wiring (slot : Nat) (drafts : List (Nat × NodeDraft)) :
    valuesAt slot (drafts.flatMap fun p => p.2.wiring.map fun c => (p.1, c)) =
      (valuesAt slot drafts).flatMap NodeDraft.wiring := by
  induction drafts with
  | nil => rfl
  | cons p drafts ih =>
    obtain ⟨other, n⟩ := p
    rw [List.flatMap_cons, valuesAt_append, ih, valuesAt_map_mk]
    by_cases h : other = slot
    · subst h
      rw [if_pos rfl, valuesAt_cons_self, List.flatMap_cons]
    · rw [if_neg h, valuesAt_cons_of_ne h, List.nil_append]

/-- what is built when all nodes have been read -/
theorem assembled_of_readNodes {nodes : List Entry} {draft : Draft}
    (h : Draft.readNodes nodes .empty = (none, draft)) : Assembled (draftsOf nodes)
      (connectAll draft.diagram draft.log draft.connections.reverse).1.prune := by
  obtain ⟨hdiagram, hconnections⟩ := readNodes_eq h
  have hwires : draft.diagram.graph.wires = ∅ := by
    rw [hdiagram]
    refine Set.eq_empty_of_subset_empty fun w hw => ?_
    obtain ⟨n, hn, -⟩ := wires_foldl_put (draftsOf nodes) .empty hw
    rw [node?_empty] at hn
    cases hn
  have hgrounded : draft.diagram.Grounded := by
    intro slot n hn source hsource
    obtain ⟨i, hi⟩ := List.mem_iff_getElem?.mp hsource
    have hmem : ⟨source, slot, i⟩ ∈ draft.diagram.graph.wires := ⟨n, hn, hi⟩
    rw [hwires] at hmem
    exact hmem.elim
  have hconnected := connected_connectAll hgrounded draft.log draft.connections.reverse
  generalize (connectAll draft.diagram draft.log draft.connections.reverse).1 = made at *
  -- nothing is left to prune
  have hgraph := hconnected.grounded.graph_prune
  have hbox : made.prune.graph.box = draft.diagram.graph.box := by
    rw [hgraph, hconnected.box]
  refine ⟨fun count => ?_, fun slot => ?_, fun w => ?_⟩
  · rw [prune, slotCount_mapNodes, hconnected.slots, hdiagram, slotCount_foldl_put]
    exact and_iff_right (Nat.zero_le count)
  · have hempty : Draft.empty.diagram.graph.box slot = none := by
      show (Diagram.empty.node? slot).map Node.unwired = none
      rw [node?_empty]
      rfl
    rw [hbox, hdiagram, box_foldl_put, hempty, Option.or_none]
  · have hvalues := valuesAt_wiring w.slot (draftsOf nodes)
    rw [hgraph, hconnected.wires, hconnections, hwires, lastSource_congr (d := made.prune) hbox,
      ← hvalues]
    exact or_iff_left fun h => h.2.elim

/-- **A block is built just if all its nodes can be read**, and it is assembled from them. -/
theorem build_eq_ok_iff {block : List Entry} {d : Diagram} :
    (build block).result = .ok d ↔
      (∀ e ∈ block.filter (·.tag == "node"), ∃ p, readNode e = .ok p) ∧
        Assembled (draftsOf (block.filter (·.tag == "node"))) d := by
  generalize hnodes : block.filter (·.tag == "node") = nodes
  rw [← fst_readNodes_eq_none nodes .empty]
  cases hread : Draft.readNodes nodes .empty with
  | mk fault draft =>
  cases fault with
  | some fault =>
    have hbuild : (build block).result = .error fault := by rw [build, hnodes, hread]
    rw [hbuild]
    refine iff_of_false (fun h => ?_) fun h => ?_
    · cases h
    · cases h.1
  | none =>
    have hbuild : (build block).result =
        .ok (connectAll draft.diagram draft.log draft.connections.reverse).1.prune := by
      rw [build, hnodes, hread]
    have hassembled := assembled_of_readNodes hread
    rw [hbuild]
    constructor
    · intro h
      obtain rfl := Except.ok.inj h
      exact ⟨rfl, hassembled⟩
    · rintro ⟨-, h⟩
      exact congrArg Except.ok (hassembled.unique h)

/-! ## items -/

/-- what a node of a block is read as -/
def Item.node? (item : Item) : Option (Nat × NodeDraft) :=
  if item.tag = "node" then (readNode item.entry).toOption else none

/-- the number that a node gives itself -/
def Item.nodeId? (item : Item) : Option Nat := if item.tag = "node" then item.draft.id else none

/-- an item that can be read if it is a node -/
def Item.Sound (item : Item) : Prop := item.tag = "node" → ∃ p, readNode item.entry = .ok p

variable {item : Item} {items block : List Item}

theorem Item.node?_eq_some_iff {p : Nat × NodeDraft} :
    item.node? = some p ↔ item.tag = "node" ∧ readNode item.entry = .ok p := by
  rw [node?, Option.ite_none_right_eq_some, toOption_eq_some_iff]

/-- the number of a node that can be read is that of its slot plus one -/
theorem Item.Sound.nodeId?_eq (h : item.Sound) :
    item.nodeId? = item.node?.map fun p => p.1 + 1 := by
  rw [nodeId?, node?]
  split
  · next htag =>
    obtain ⟨p, hp⟩ := h htag
    rw [hp]
    cases item with
    | scalar tag value => cases hp
    | block tag inner =>
      rw [Item.entry, Item.entries_eq_map] at hp
      obtain ⟨-, hn, hid⟩ := readNode_eq_ok_iff.mp hp
      rw [hn] at hid
      exact hid
  · rfl

theorem filterMap_nodeId? (h : ∀ item ∈ items, item.Sound) :
    items.filterMap Item.nodeId? = (items.filterMap Item.node?).map fun p => p.1 + 1 := by
  rw [List.map_filterMap]
  exact List.filterMap_congr fun item hitem => (h item hitem).nodeId?_eq

theorem build_items_eq_ok_iff {d : Diagram} : (build (block.map Item.entry)).result = .ok d ↔
    (∀ item ∈ block, item.Sound) ∧ Assembled (block.filterMap Item.node?) d := by
  have htag : (fun e : Entry => e.tag == "node") ∘ Item.entry = (·.tag == "node") :=
    funext fun item => by rw [Function.comp_apply, Item.tag_entry]
  have hdrafts : draftsOf ((block.filter (·.tag == "node")).map Item.entry) =
      block.filterMap Item.node? := by
    rw [draftsOf, List.filterMap_map, List.filterMap_filter]
    refine List.filterMap_congr fun item _ => ?_
    simp [Item.node?]
  rw [build_eq_ok_iff, List.filter_map, htag, hdrafts, List.forall_mem_map]
  refine and_congr_left fun _ => forall_congr' fun item => ?_
  rw [List.mem_filter, and_imp, beq_iff_eq]
  rfl

/-- a block is built if its nodes can be read -/
theorem exists_build_items (h : ∀ item ∈ block, item.Sound) :
    ∃ d, (build (block.map Item.entry)).result = .ok d := by
  refine isOk_build_iff.mpr fun e he => ?_
  obtain ⟨hmem, htag⟩ := List.mem_filter.mp he
  obtain ⟨item, hitem, rfl⟩ := List.mem_map.mp hmem
  exact h item hitem (item.tag_entry ▸ beq_iff_eq.mp htag)

end Saved

end Dataflow
