import Dataflow.Proofs.Built
import Dataflow.Proofs.Written

/-!
# Saving and loading

* `Diagram.wireAll`           makes wires one after the other;
* `Diagram.Filled`            some slots are filled and all others left alone;
* `Saved.readNodes_items`     the nodes that were written are placed, unwired, and their wires kept
                              for later;
* `Saved.connectAll_eq`       connections that are allowed are made without a remark;
* `Saved.exists_block`        what was saved is read as the entries of its nodes;
* `Diagram.Storable`          what a diagram has to be to be stored without loss;
* `Saved.load_save`           loading what was saved gives an equal diagram.
-/

namespace Dataflow

/-! ## wires of a node -/

namespace Node

/-- stores the sources of some inputs -/
def setAll (inputs : List (Option Source)) (wires : List (Nat × Source)) : List (Option Source) :=
  wires.foldl (fun inputs wire => inputs.set wire.1 (some wire.2)) inputs

/-- the inputs before are left alone, those from here on are restored -/
theorem setAll_zipIdx (before inputs : List (Option Source)) :
    setAll (before ++ List.replicate inputs.length none)
      ((inputs.zipIdx before.length).filterMap fun (source, input) =>
        source.map fun s => (input, s)) = before ++ inputs := by
  induction inputs generalizing before with
  | nil => rfl
  | cons source inputs ih =>
    have hnext := ih (before ++ [source])
    rw [List.length_append, List.length_singleton, List.append_assoc, List.append_assoc,
      List.singleton_append, List.singleton_append] at hnext
    rw [List.zipIdx_cons, List.length_cons, List.replicate_succ]
    cases source with
    | none => exact hnext
    | some s =>
      show setAll ((before ++ none :: List.replicate inputs.length none).set before.length (some s))
        _ = _
      rw [List.set_append_right _ _ (Nat.le_refl _), Nat.sub_self, List.set_cons_zero]
      exact hnext

/-- the wires of a node restore its inputs -/
theorem setAll_wires (n : Node) : setAll n.unwired.inputs n.wires = n.inputs :=
  setAll_zipIdx [] n.inputs

theorem mem_wires {n : Node} {wire : Nat × Source} :
    wire ∈ n.wires ↔ n.inputs[wire.1]? = some (some wire.2) := by
  obtain ⟨input, source⟩ := wire
  simp only [wires, List.mem_filterMap, Prod.exists, List.mem_zipIdx_iff_getElem?,
    Option.map_eq_some_iff, Prod.mk.injEq]
  constructor
  · rintro ⟨_, _, hget, s, rfl, rfl, rfl⟩
    exact hget
  · intro hget
    exact ⟨some source, input, hget, source, rfl, rfl, rfl⟩

end Node

/-! ## wires of a diagram -/

namespace Diagram

variable {d e : Diagram}

/-- makes wires one after the other -/
def wireAll (d : Diagram) (wires : List (Nat × Nat × Source)) : Diagram :=
  wires.foldl (fun d wire => d.wire wire.1 wire.2.1 (some wire.2.2)) d

theorem wireAll_append (d : Diagram) (wires more : List (Nat × Nat × Source)) :
    d.wireAll (wires ++ more) = (d.wireAll wires).wireAll more := List.foldl_append

/-- the wires of one node -/
theorem node?_wireAll (d : Diagram) (slot : Nat) (wires : List (Nat × Source)) (other : Nat) :
    (d.wireAll (wires.map fun wire => (slot, wire))).node? other =
      if other = slot then (d.node? other).map fun n => { n with inputs := Node.setAll n.inputs wires }
      else d.node? other := by
  induction wires generalizing d with
  | nil =>
    split
    · exact Option.map_id'.symm
    · rfl
  | cons wire wires ih =>
    show ((d.wire slot wire.1 (some wire.2)).wireAll
      (wires.map fun wire => (slot, wire))).node? other = _
    rw [ih, node?_wire]
    by_cases h : other = slot
    · rw [if_pos h, if_pos h, if_pos h, Option.map_map]
      rfl
    · rw [if_neg h, if_neg h, if_neg h]

/-- the listed nodes are in their slots, each changed, and the other slots are as they were -/
structure Filled (change : Node → Node) (before : Diagram) (nodes : List (Nat × Node))
    (d : Diagram) : Prop where
  inside : ∀ node ∈ nodes, d.node? node.1 = some (change node.2)
  outside : ∀ slot, (∀ node ∈ nodes, node.1 ≠ slot) → d.node? slot = before.node? slot

namespace Filled

variable {change : Node → Node} {before middle : Diagram} {rest : List (Nat × Node)}

theorem nil (change : Node → Node) (d : Diagram) : Filled change d [] d :=
  ⟨fun _ hnode => absurd hnode List.not_mem_nil, fun _ _ => rfl⟩

/-- one slot is filled first, and then others -/
theorem cons {first : Nat × Node} (hfirst : ∀ slot, middle.node? slot =
      if slot = first.1 then some (change first.2) else before.node? slot)
    (hlt : ∀ node ∈ rest, first.1 < node.1) (hrest : Filled change middle rest d) :
    Filled change before (first :: rest) d := by
  refine ⟨List.forall_mem_cons.mpr ⟨?_, hrest.inside⟩, fun slot hne => ?_⟩
  · rw [hrest.outside first.1 fun node hmem => Nat.ne_of_gt (hlt node hmem), hfirst, if_pos rfl]
  · obtain ⟨hslot, hne⟩ := List.forall_mem_cons.mp hne
    rw [hrest.outside slot hne, hfirst, if_neg (Ne.symm hslot)]

/-- the occupied slots of a diagram are filled -/
theorem node?_eq (h : Filled change before d.existing e)
    (hempty : ∀ slot, d.node? slot = none → before.node? slot = none) (slot : Nat) :
    e.node? slot = (d.node? slot).map change := by
  cases hn : d.node? slot with
  | none =>
    have habsent : ∀ node ∈ d.existing, node.1 ≠ slot := by
      rintro ⟨other, n⟩ hnode rfl
      rw [mem_existing.mp hnode] at hn
      cases hn
    rw [h.outside slot habsent, hempty slot hn]
    rfl
  | some n => exact h.inside (slot, n) (mem_existing.mpr hn)

end Filled

/-- the wires of all nodes, with the slots they lead to -/
def wiresOf (nodes : List (Nat × Node)) : List (Nat × Nat × Source) :=
  nodes.flatMap fun node => node.2.wires.map fun wire => (node.1, wire)

/-- their wires restore unwired nodes -/
theorem filled_wireAll {d : Diagram} {nodes : List (Nat × Node)}
    (hdistinct : nodes.Pairwise fun a b => a.1 < b.1)
    (hunwired : ∀ node ∈ nodes, d.node? node.1 = some node.2.unwired) :
    Filled id d nodes (d.wireAll (wiresOf nodes)) := by
  induction nodes generalizing d with
  | nil => exact .nil id d
  | cons first rest ih =>
    obtain ⟨slot, n⟩ := first
    obtain ⟨hlt, hrest⟩ := List.pairwise_cons.mp hdistinct
    obtain ⟨hfirst, hunwired⟩ := List.forall_mem_cons.mp hunwired
    have hwires : wiresOf ((slot, n) :: rest) =
        n.wires.map (fun wire => (slot, wire)) ++ wiresOf rest := List.flatMap_cons
    have hnode : ∀ other, (d.wireAll (n.wires.map fun wire => (slot, wire))).node? other =
        if other = slot then some n else d.node? other := by
      intro other
      rw [node?_wireAll]
      split
      · next heq =>
        rw [heq, hfirst, Option.map_some, Node.setAll_wires]
        rfl
      · rfl
    rw [hwires, wireAll_append]
    refine .cons hnode hlt (ih hrest fun node hmem => ?_)
    rw [hnode, if_neg (Nat.ne_of_gt (hlt node hmem))]
    exact hunwired node hmem

/-! ## wires that may be made -/

/-- a wire from an output that exists to an input that exists -/
def Fits (d : Diagram) (wire : Nat × Nat × Source) : Prop :=
  d.hasOutput wire.2.2 = true ∧ ∃ n, d.node? wire.1 = some n ∧ wire.2.1 < n.inputs.length

theorem Fits.allows {slot input : Nat} {source : Source} (h : d.Fits (slot, input, source)) :
    d.allows source slot input = .ok () := by
  obtain ⟨hsource, n, hn, hinput⟩ := h
  unfold hasOutput at hsource
  cases hfeeder : d.node? source.node with
  | none => simp [hfeeder] at hsource
  | some feeder =>
    have houtput : source.output < feeder.outputs.length := by simpa [hfeeder] using hsource
    have hlt : ¬ feeder.outputs.length ≤ source.output := Nat.not_le.mpr houtput
    have hget : n.inputs[input]? = some n.inputs[input] := List.getElem?_eq_getElem hinput
    simp [Diagram.allows, getNode, getInput, hfeeder, hlt, hn, hget, bind, Except.bind, pure,
      Except.pure]

/-- wires do not spoil other wires -/
theorem Fits.wire {wire : Nat × Nat × Source} (h : d.Fits wire) (slot input : Nat)
    (source : Option Source) : (d.wire slot input source).Fits wire := by
  obtain ⟨hsource, n, hn, hinput⟩ := h
  refine ⟨by rw [hasOutput_wire]; exact hsource, ?_⟩
  rw [node?_wire, hn]
  split
  · exact ⟨_, rfl, by rw [List.length_set]; exact hinput⟩
  · exact ⟨n, rfl, hinput⟩

end Diagram

namespace Saved

open Diagram

/-- a connection to be made says what a wire is -/
def WireOf (wire : Nat × Nat × Source) (connection : Nat × ConnectionDraft) : Prop :=
  connection.1 = wire.1 ∧ connection.2.Of wire.2

/-- connections that are allowed are made without a remark -/
theorem connectAll_eq {d : Diagram} {wires : List (Nat × Nat × Source)}
    {connections : List (Nat × ConnectionDraft)} (hof : List.Forall₂ WireOf wires connections)
    (hfits : ∀ wire ∈ wires, d.Fits wire) (log : List LogLine) :
    connectAll d log connections = (d.wireAll wires, log) := by
  induction hof generalizing d with
  | nil => rfl
  | @cons wire connection wires connections hfirst _ ih =>
    obtain ⟨slot, input, source⟩ := wire
    obtain ⟨slot', line, input', sourceId, output⟩ := connection
    obtain ⟨hslot, hinput, hid, houtput⟩ := hfirst
    dsimp only at hslot hinput hid houtput
    subst hslot hinput hid houtput
    obtain ⟨hfirst, hrest⟩ := List.forall_mem_cons.mp hfits
    have hread : readConnection d slot' ⟨line, some input, some (source.node + 1),
        some source.output⟩ = .ok (source, input) := by
      simp [readConnection, hfirst.allows]
    rw [connectAll, hread]
    exact ih fun wire hmem => (hrest wire hmem).wire _ _ _

/-- placing a draft that says what a node is -/
theorem place_of {draft : Draft} {node : Nat × Node} {n : NodeDraft} (hw : Writable node)
    (hof : n.Of node) (hfree : draft.diagram.node? node.1 = none) (line : Nat) :
    draft.place line node.1 n = ⟨draft.diagram.place node.1 node.2.unwired,
      n.connections.map (fun c => (node.1, c)) ++ draft.connections, draft.log⟩ := by
  have hheld := holdOutputs_rebuild hw.shaped hw.lines draft.log n.held.reverse hof.held
  rw [← hof.lines, ← hof.x, ← hof.y] at hheld
  simp only [Draft.place, hheld, hfree, Option.isSome_none, Bool.false_eq_true, if_false]

/-- the nodes that were written are placed, unwired, and their wires are kept for later -/
theorem readNodes_items {es : List Entry} {nodes : List (Nat × Node)} {draft : Draft}
    (hw : ∀ node ∈ nodes, Writable node) (hdistinct : nodes.Pairwise fun a b => a.1 < b.1)
    (hfree : ∀ node ∈ nodes, draft.diagram.node? node.1 = none)
    (h : es.map Entry.bare = nodes.map nodeItem) :
    ∃ d connections, Draft.readNodes es draft =
        (none, ⟨d, connections.reverse ++ draft.connections, draft.log⟩) ∧
      List.Forall₂ WireOf (wiresOf nodes) connections ∧
      Filled Node.unwired draft.diagram nodes d := by
  induction nodes generalizing es draft with
  | nil =>
    obtain rfl := List.map_eq_nil_iff.mp h
    exact ⟨draft.diagram, [], rfl, .nil, .nil _ _⟩
  | cons first rest ih =>
    obtain ⟨e, es, rfl, he, hes⟩ := List.map_eq_cons_iff.mp h
    obtain ⟨hlt, hrest⟩ := List.pairwise_cons.mp hdistinct
    obtain ⟨hfirst, hw⟩ := List.forall_mem_cons.mp hw
    obtain ⟨hempty, hfree⟩ := List.forall_mem_cons.mp hfree
    obtain ⟨n, hof, hread⟩ := readNode_item hfirst.numbered (isNumberText_single hfirst.x)
      (isNumberText_single hfirst.y) he
    have hplace := place_of hfirst hof hempty e.line
    have hnode : ∀ slot, (draft.place e.line first.1 n).diagram.node? slot =
        if slot = first.1 then some first.2.unwired else draft.diagram.node? slot := by
      intro slot
      rw [hplace]
      exact node?_place _ _ _ _
    have hfree' : ∀ node ∈ rest,
        (draft.place e.line first.1 n).diagram.node? node.1 = none := by
      intro node hmem
      rw [hnode, if_neg (Nat.ne_of_gt (hlt node hmem))]
      exact hfree node hmem
    obtain ⟨d, connections, hreads, hwires, hfilled⟩ := ih hw hrest hfree' hes
    refine ⟨d, n.connections.reverse.map (fun c => (first.1, c)) ++ connections, ?_, ?_,
      .cons hnode hlt hfilled⟩
    · rw [Draft.readNodes, hread]
      show Draft.readNodes es (draft.place e.line first.1 n) = _
      rw [hreads, hplace]
      simp
    · refine List.rel_append ?_ hwires
      refine List.forall₂_map_left_iff.mpr (List.forall₂_map_right_iff.mpr ?_)
      exact hof.connections.imp fun wire c hc => ⟨rfl, hc⟩

end Saved

/-! ## the round trip -/

/-- what a diagram has to be to be stored without loss -/
structure Diagram.Storable (d : Diagram) : Prop where
  built : d.Built
  /-- every wire comes from an output that exists -/
  wired : ∀ slot n, d.node? slot = some n → ∀ source, some source ∈ n.inputs →
    d.hasOutput source = true
  slots : ∀ slot n, d.node? slot = some n → slot < Saved.maxNodeId
  positions : ∀ slot n, d.node? slot = some n → n.x.isFinite = true ∧ n.y.isFinite = true
  /-- no line ends in a carriage return -/
  lines : ∀ slot n, d.node? slot = some n → ∀ line ∈ n.lines,
    line.text.toList.getLast? ≠ some '\r'
  /-- a length has 64 bits on every machine that holds the node -/
  counts : ∀ slot n, d.node? slot = some n → n.lines.length ≤ 2 ^ 64 ∧ n.inputs.length ≤ 2 ^ 64

theorem Node.same_self {n : Node} (hx : n.x.isFinite = true) (hy : n.y.isFinite = true) :
    n.same n = true := by
  have hnan : ∀ x : Single, x.isFinite = true → x ≠ .nan := by
    rintro x hx rfl
    cases hx
  simp [Node.same, Binary.same_self (hnan _ hx), Binary.same_self (hnan _ hy)]

namespace Diagram

variable {d e : Diagram} {slot : Nat} {n : Node}

/-- the nodes of a diagram that can be stored can be read back -/
theorem Storable.writable (h : d.Storable) (hn : d.node? slot = some n) :
    Saved.Writable (slot, n) := by
  have hshaped := h.built.allShaped slot n hn
  obtain ⟨hlines, hinputs⟩ := h.counts slot n hn
  refine ⟨hshaped, h.slots slot n hn, (h.positions slot n hn).1, (h.positions slot n hn).2,
    h.lines slot n hn, fun index hindex => ?_, fun wire hwire => ?_⟩
  · obtain ⟨s, text, hs, -⟩ := (Node.mem_heldOutputs index).mp hindex
    obtain ⟨hlt, -⟩ := List.getElem?_eq_some_iff.mp hs
    exact Nat.lt_of_lt_of_le hlt (Nat.le_trans hshaped.length_statements_le hlines)
  · have hget := Node.mem_wires.mp hwire
    obtain ⟨hinput, -⟩ := List.getElem?_eq_some_iff.mp hget
    obtain ⟨m, hm, houtput⟩ :=
      hasOutput_iff.mp (h.wired slot n hn _ (List.mem_of_getElem? hget))
    have hslot := h.slots _ m hm
    have hfeeder := h.built.allShaped _ m hm
    have houtputs : m.outputs.length ≤ 2 ^ 64 :=
      calc m.outputs.length ≤ m.statements.length := hfeeder.length_outputs_le
        _ ≤ m.lines.length := hfeeder.length_statements_le
        _ ≤ 2 ^ 64 := (h.counts _ m hm).1
    unfold Saved.maxNodeId at hslot
    refine ⟨Nat.lt_of_lt_of_le hinput hinputs, ?_, Nat.lt_of_lt_of_le houtput houtputs⟩
    omega

/-- a diagram is equal to one with the same occupied slots -/
theorem Storable.same (h : d.Storable) (he : e.existing = d.existing) : d.same e = true := by
  unfold Diagram.same
  rw [he]
  simp only [beq_self_eq_true, Bool.true_and, List.all_eq_true]
  intro pair hpair
  obtain ⟨node, hnode, rfl⟩ : ∃ node ∈ d.existing, pair = (node, node) := by
    obtain ⟨i, hi⟩ := List.mem_iff_getElem?.mp hpair
    obtain ⟨hfst, hsnd⟩ := List.getElem?_zip_eq_some.mp hi
    refine ⟨pair.1, List.mem_of_getElem? hfst, Prod.ext rfl ?_⟩
    rw [hfst] at hsnd
    exact (Option.some.inj hsnd).symm
  obtain ⟨slot, n⟩ := node
  obtain ⟨hx, hy⟩ := h.positions slot n (mem_existing.mp hnode)
  simp [Node.same_self hx hy]

/-- wires that come from outputs that exist are not dropped -/
theorem node?_prune (h : ∀ slot n, d.node? slot = some n → ∀ source, some source ∈ n.inputs →
    d.hasOutput source = true) (slot : Nat) : d.prune.node? slot = d.node? slot := by
  rw [prune, node?_mapNodes]
  cases hn : d.node? slot with
  | none => rfl
  | some n =>
    have hinputs : n.inputs.map d.valid? = n.inputs := by
      refine (List.map_congr_left fun source hsource => ?_).trans (List.map_id _)
      cases source with
      | none => rfl
      | some source => exact if_pos (h slot n hn source hsource)
    rw [Option.map_some, Node.mapInputs, hinputs]

/-- the wires of a diagram fit it, and also its unwired nodes -/
theorem Storable.fits (h : d.Storable)
    (he : ∀ slot, e.node? slot = (d.node? slot).map Node.unwired) :
    ∀ wire ∈ wiresOf d.existing, e.Fits wire := by
  intro wire hwire
  obtain ⟨⟨slot, n⟩, hnode, hwire⟩ := List.mem_flatMap.mp hwire
  obtain ⟨⟨input, source⟩, hmem, rfl⟩ := List.mem_map.mp hwire
  have hn := mem_existing.mp hnode
  have hget := Node.mem_wires.mp hmem
  obtain ⟨hinput, -⟩ := List.getElem?_eq_some_iff.mp hget
  have houtputs : e.hasOutput = d.hasOutput := by
    refine hasOutput_congr fun slot => ?_
    rw [he, Option.map_map]
    rfl
  refine ⟨?_, n.unwired, by rw [he, hn]; rfl, ?_⟩
  · rw [houtputs]
    exact h.wired slot n hn source (List.mem_of_getElem? hget)
  · show input < (List.replicate n.inputs.length none).length
    rw [List.length_replicate]
    exact hinput

end Diagram

namespace Saved

open Diagram

/-- the saved form of a diagram is read as the entries of its nodes -/
theorem exists_block (d : Diagram) : ∃ block : List Entry,
    block.map Entry.bare = d.existing.map nodeItem ∧ load (save d) = build block := by
  have hgood : Item.AllGood [diagramItem d] := by
    refine ⟨⟨by decide +kernel, (Item.allGood_iff _).mpr fun item hitem => ?_⟩, trivial⟩
    obtain ⟨node, -, rfl⟩ := List.mem_map.mp hitem
    exact good_node node
  obtain ⟨es, hes, hread⟩ := entries_texts hgood
  obtain ⟨e, es, rfl, he, hnil⟩ := List.map_eq_cons_iff.mp hes
  obtain rfl := List.map_eq_nil_iff.mp hnil
  obtain ⟨line, block, rfl, hblock⟩ := Entry.eq_of_bare_block he
  refine ⟨block, hblock, ?_⟩
  rw [load, save_eq, hread]
  rfl

/-- all entries of a saved diagram are nodes -/
theorem filter_items {nodes : List (Nat × Node)} {block : List Entry}
    (hblock : block.map Entry.bare = nodes.map nodeItem) :
    block.filter (·.tag == "node") = block := by
  refine List.filter_eq_self.mpr fun e he => ?_
  have hbare : e.bare ∈ nodes.map nodeItem := hblock ▸ List.mem_map_of_mem he
  obtain ⟨node, -, hnode⟩ := List.mem_map.mp hbare
  obtain ⟨line, es, rfl, -⟩ := Entry.eq_of_bare_block hnode.symm
  rfl

/-- the entries of a saved diagram give its nodes back -/
theorem build_items {d : Diagram} (h : d.Storable) {block : List Entry}
    (hblock : block.map Entry.bare = d.existing.map nodeItem) :
    ∃ d', build block = ⟨.ok d', []⟩ ∧ ∀ slot, d'.node? slot = d.node? slot := by
  have hwritable : ∀ node ∈ d.existing, Writable node := fun node hnode =>
    h.writable (mem_existing.mp hnode)
  have hfree : ∀ node ∈ d.existing, Draft.empty.diagram.node? node.1 = none := fun node _ =>
    node?_empty node.1
  obtain ⟨e, connections, hread, hwires, hfilled⟩ :=
    readNodes_items hwritable d.pairwise_existing hfree hblock
  have he := hfilled.node?_eq fun slot _ => node?_empty slot
  have hwired : ∀ slot, (e.wireAll (wiresOf d.existing)).node? slot = d.node? slot := by
    intro slot
    rw [(filled_wireAll d.pairwise_existing hfilled.inside).node?_eq fun slot hnone => by
      rw [he, hnone]; rfl]
    exact Option.map_id'
  have hvalid : (e.wireAll (wiresOf d.existing)).hasOutput = d.hasOutput :=
    hasOutput_congr fun slot => by rw [hwired]
  refine ⟨(e.wireAll (wiresOf d.existing)).prune, ?_, fun slot => ?_⟩
  · have hconnect : connectAll e [] connections = (e.wireAll (wiresOf d.existing), []) :=
      connectAll_eq hwires (h.fits he) []
    rw [build, filter_items hblock, hread]
    simp [Draft.empty, hconnect]
  · rw [node?_prune, hwired]
    intro slot n hn
    rw [hvalid]
    rw [hwired] at hn
    exact h.wired slot n hn

/-- **Loading what was saved** gives an equal diagram, without a remark, and that one is saved as
the same text. -/
theorem load_save {d : Diagram} (h : d.Storable) :
    ∃ d', load (save d) = ⟨.ok d', []⟩ ∧ d'.existing = d.existing ∧ d.same d' = true ∧
      save d' = save d := by
  obtain ⟨block, hblock, hload⟩ := exists_block d
  obtain ⟨d', hbuild, hnodes⟩ := build_items h hblock
  have hexisting := existing_congr hnodes
  refine ⟨d', hload.trans hbuild, hexisting, h.same hexisting, ?_⟩
  rw [save, save, hexisting]

/-- a node that holds an output -/
def unfinished : Node := ⟨.zero false, .zero false, [⟨"y =", 0⟩], [⟨1, true⟩], [], [0]⟩

/-- a node that reads from slot 1 -/
def reader : Node := ⟨.zero false, .zero false, [⟨"$ + 1", 1⟩], [⟨1, true⟩], [some ⟨1, 0⟩], [0]⟩

/-- a wire from a held output, behind an empty slot -/
def heldWire : Diagram := ⟨#[none, some unfinished, some reader]⟩

theorem built_heldWire : heldWire.Built := by
  let added : Diagram := ((Diagram.empty.add "x").add "5").add "$ + 1"
  let wired : Diagram := added.wire 2 0 (some ⟨1, 0⟩)
  let typed : Diagram := (wired.modify 1 (·.setText "y =")).prune
  have hconnect : added.connect ⟨1, 0⟩ 2 0 = .ok wired := rfl
  have htype : wired.setText 1 "y =" = .ok typed := rfl
  have hnode : typed.node? 0 = some (.ofText "x") := by decide +kernel
  have hdelete : typed.delete 0 = .ok (.ofText "x",
      (Diagram.mk (typed.slots.setIfInBounds 0 none)).mapNodes (·.mapInputs (unwire 0))) := by
    simp only [delete, getNode, hnode]
    rfl
  have hslots : ((Diagram.mk (typed.slots.setIfInBounds 0 none)).mapNodes
      (·.mapInputs (unwire 0))).slots = heldWire.slots := by decide +kernel
  have hbuilt : added.Built := ((Diagram.Built.empty.add "x").add "5").add "$ + 1"
  have hdeleted := ((hbuilt.connect hconnect).setText htype).delete hdelete
  rw [show heldWire = ⟨heldWire.slots⟩ from rfl, ← hslots]
  exact hdeleted

theorem storable_heldWire : heldWire.Storable := by
  have hnodes : ∀ slot n, heldWire.node? slot = some n →
      (slot, n) = (1, unfinished) ∨ (slot, n) = (2, reader) := by
    intro slot n hn
    have hmem : (slot, n) ∈ [(1, unfinished), (2, reader)] := mem_existing.mpr hn
    simpa using hmem
  refine ⟨built_heldWire, ?_, ?_, ?_, ?_, ?_⟩
  all_goals
    intro slot n hn
    obtain h | h := hnodes slot n hn
    all_goals
      obtain ⟨rfl, rfl⟩ := Prod.mk.inj h
  · simp [unfinished]
  · simp only [reader, List.mem_singleton, Option.some.injEq]
    rintro source rfl
    rfl
  all_goals decide +kernel

/-- the held output and the wire from it come back -/
theorem load_save_heldWire : heldWire.Storable ∧
    ∃ d', load (save heldWire) = ⟨.ok d', []⟩ ∧ d'.existing = heldWire.existing ∧
      heldWire.same d' = true ∧ save d' = save heldWire :=
  ⟨storable_heldWire, load_save storable_heldWire⟩

end Saved

end Dataflow
