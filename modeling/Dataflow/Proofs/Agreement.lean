import Dataflow.Proofs.Alone

/-!
# A pass over two diagrams that agree on a part

What a pass gives for a node is settled by the node and by the nodes that it reads from, directly or
through others.  So two diagrams that hold the same nodes in a set of slots that has the sources of
its nodes get the same results there, whatever else they hold.

* `Node.Matches`            nodes that are equal but for their places;
* `Diagram.Closed`          a set of slots with the sources of its nodes;
* `Diagram.AgreeOn`         diagrams with the same nodes in a set of slots;
* `Diagram.exists_turn`     what a pass leaves behind for a node that it runs;
* `Diagram.evaluate_agree`  the results of two passes on such a set.
-/

namespace Dataflow

open Relation

/-! ## nodes but for their places -/

/-- nodes that are equal but for their places -/
structure Node.Matches (a b : Node) : Prop where
  lines : a.lines = b.lines
  statements : a.statements = b.statements
  inputs : a.inputs = b.inputs
  outputs : a.outputs = b.outputs

namespace Node.Matches

variable {a b : Node}

theorem symm (h : a.Matches b) : b.Matches a :=
  ⟨h.lines.symm, h.statements.symm, h.inputs.symm, h.outputs.symm⟩

/-- nodes that are equal as a host sees it -/
theorem of_same (h : a.same b = true) : a.Matches b := by
  simp only [same, Bool.and_eq_true, beq_iff_eq] at h
  obtain ⟨⟨⟨⟨_, hlines⟩, hstatements⟩, hinputs⟩, houtputs⟩ := h
  exact ⟨hlines, hstatements, hinputs, houtputs⟩

/-- a node is run alike in all places -/
theorem runNode_eq {σ : Type} (h : a.Matches b) (root : Root) (sink : Sink σ) (pass slot : Nat)
    (inputs : List Value) (scopes : Scopes) (host : σ) :
    runNode root sink pass slot a inputs scopes host =
      runNode root sink pass slot b inputs scopes host := by
  have hpieces : a.statementLines = b.statementLines := by
    rw [statementLines, statementLines, h.lines, h.statements]
  rw [runNode, runNode, hpieces, h.statements]

theorem cyclic_eq (h : a.Matches b) : NodeResult.cyclic a = NodeResult.cyclic b := by
  rw [NodeResult.cyclic, NodeResult.cyclic, h.lines, h.outputs]

end Node.Matches

namespace Diagram

/-! ## parts of diagrams -/

/-- a set of slots with the sources of its nodes -/
def Closed (d : Diagram) (slots : Set Nat) : Prop :=
  ∀ slot ∈ slots, ∀ n, d.node? slot = some n → ∀ source, some source ∈ n.inputs →
    source.node ∈ slots

/-- diagrams with the same nodes in a set of slots, but for the places of the nodes -/
def AgreeOn (slots : Set Nat) (d d' : Diagram) : Prop :=
  ∀ slot ∈ slots, Option.Rel Node.Matches (d.node? slot) (d'.node? slot)

section
variable {d d' : Diagram} {slots : Set Nat}

theorem AgreeOn.node (h : AgreeOn slots d d') {slot : Nat} (hslot : slot ∈ slots) {n : Node}
    (hn : d.node? slot = some n) : ∃ n', d'.node? slot = some n' ∧ n.Matches n' := by
  have hrel := h slot hslot
  rw [hn] at hrel
  generalize d'.node? slot = held at hrel
  cases hrel with
  | some hmatches => exact ⟨_, rfl, hmatches⟩

theorem AgreeOn.none (h : AgreeOn slots d d') {slot : Nat} (hslot : slot ∈ slots)
    (hn : d.node? slot = none) : d'.node? slot = none := by
  have hrel := h slot hslot
  rw [hn] at hrel
  generalize d'.node? slot = held at hrel
  cases hrel with
  | none => rfl

theorem AgreeOn.symm (h : AgreeOn slots d d') : AgreeOn slots d' d := by
  intro slot hslot
  have hrel := h slot hslot
  generalize d.node? slot = held, d'.node? slot = held' at hrel ⊢
  cases hrel with
  | none => exact .none
  | some hmatches => exact .some hmatches.symm

/-- it has the sources of its nodes in the other diagram too -/
theorem Closed.congr (hclosed : d.Closed slots) (h : AgreeOn slots d d') : d'.Closed slots := by
  intro slot hslot n' hn' source hsource
  obtain ⟨n, hn, hmatches⟩ := h.symm.node hslot hn'
  exact hclosed slot hslot n hn source (hmatches.inputs ▸ hsource)

theorem Closed.reads (hclosed : d.Closed slots) {slot feeder : Nat} (hslot : slot ∈ slots)
    (hreads : d.Reads slot feeder) : feeder ∈ slots := by
  obtain ⟨n, source, hn, hsource, rfl, _⟩ := hreads
  exact hclosed slot hslot n hn source hsource

/-- wires from within the set are the same -/
theorem AgreeOn.reads (h : AgreeOn slots d d') (hclosed : d.Closed slots) {slot feeder : Nat}
    (hslot : slot ∈ slots) (hreads : d.Reads slot feeder) : d'.Reads slot feeder := by
  have hfeeder := hclosed.reads hslot hreads
  obtain ⟨n, source, hn, hsource, hnode, hsome⟩ := hreads
  obtain ⟨n', hn', hmatches⟩ := h.node hslot hn
  obtain ⟨m, hm⟩ := Option.isSome_iff_exists.mp hsome
  obtain ⟨m', hm', _⟩ := h.node hfeeder hm
  exact ⟨n', source, hn', hmatches.inputs ▸ hsource, hnode, by rw [hm']; rfl⟩

/-- so are paths of wires, which do not leave the set -/
theorem AgreeOn.path (h : AgreeOn slots d d') (hclosed : d.Closed slots) {slot target : Nat}
    (hslot : slot ∈ slots) (hpath : ReflTransGen d.Reads slot target) :
    target ∈ slots ∧ ReflTransGen d'.Reads slot target := by
  induction hpath with
  | refl => exact ⟨hslot, .refl⟩
  | tail _ hreads ih =>
    obtain ⟨hmid, hto⟩ := ih
    exact ⟨hclosed.reads hmid hreads, hto.tail (h.reads hclosed hmid hreads)⟩

/-- a node of the set that reaches a cycle in one diagram does so in the other -/
theorem AgreeOn.reachesCycle (h : AgreeOn slots d d') (hclosed : d.Closed slots) {slot : Nat}
    (hslot : slot ∈ slots) (hc : d.ReachesCycle slot) : d'.ReachesCycle slot := by
  obtain ⟨turn, hto, hturn⟩ := hc
  obtain ⟨hmem, hto'⟩ := h.path hclosed hslot hto
  obtain ⟨next, hreads, hback⟩ := TransGen.head'_iff.mp hturn
  have hnext := hclosed.reads hmem hreads
  have hreads' := h.reads hclosed hmem hreads
  obtain ⟨_, hback'⟩ := h.path hclosed hnext hback
  exact ⟨turn, hto', TransGen.head' hreads' hback'⟩

end

/-! ## what a pass leaves behind -/

section
variable {σ : Type} {d : Diagram} {root : Root} {sink : Sink σ} {pass : Nat}

/-- an input that is wired to an empty slot is worth nothing -/
theorem inputValue_evaluate_of_none (earlier : Results) (host : σ) {source : Source}
    (hn : d.node? source.node = none) :
    (d.evaluate root sink pass earlier host).1.inputValue (some source) = .void := by
  rw [Results.inputValue, Results.output?, nodes_evaluate_of_none earlier host hn]
  split <;> rfl

/-- the result of a node that is run is what its statements give in some state of the pass, on what
its inputs are worth in the end -/
theorem exists_turn (earlier : Results) (host : σ) {slot : Nat} {n : Node}
    (hn : d.node? slot = some n) (hc : ¬ d.ReachesCycle slot) :
    let r := (d.evaluate root sink pass earlier host).1
    ∃ before : List Nat,
      let state := before.foldl (d.runSlot root sink pass) (d.marked, host)
      r.nodes[slot]? = some
        (runNode root sink pass slot n (n.inputs.map r.inputValue) state.1.scopes state.2).1 := by
  intro r
  have hmem : slot ∈ d.runOrder := mem_runOrder.mpr ⟨by rw [hn]; rfl, hc⟩
  obtain ⟨before, after, hsplit⟩ := List.append_of_mem hmem
  refine ⟨before, ?_⟩
  intro state
  have hr : r = ((slot :: after).foldl (d.runSlot root sink pass) state).1 := by
    show (d.evaluate root sink pass earlier host).1 = _
    rw [evaluate_eq, hsplit, List.foldl_append]
  -- the sources were run before, so the rest of the pass does not touch them
  have hinputs : n.inputs.map r.inputValue = n.inputs.map state.1.inputValue := by
    rw [hr]
    exact inputValues_congr fun source hsource =>
      nodes_foldl_runSlot (d.inRunOrder.source_not_mem hsplit hn hsource)
  have hafter : slot ∉ after := by
    have hnodup : (before ++ slot :: after).Nodup := hsplit ▸ d.inRunOrder.nodup
    exact (List.nodup_cons.mp (List.nodup_append.mp hnodup).2.1).1
  have hlt : slot < state.1.nodes.size := by
    rw [size_foldl_runSlot, d.marked_spec.size]
    exact lt_slotCount_of_node? (by rw [hn]; rfl)
  rw [hinputs, hr, List.foldl_cons, nodes_foldl_runSlot hafter]
  simp [runSlot, hn, hlt]

/-- with the standard host it is what they give alone, whatever was run before -/
theorem result_alone (root : Root) (pass : Nat) (expected : Option String) (earlier : Results)
    {slot : Nat} {n : Node} (hn : d.node? slot = some n) (hc : ¬ d.ReachesCycle slot) :
    let r := (d.evaluate root .collecting pass earlier (.expecting expected)).1
    r.nodes[slot]? = some
      (runNode root .collecting pass slot n (n.inputs.map r.inputValue) .empty
        (.expecting expected)).1 := by
  intro r
  obtain ⟨before, hresult⟩ :=
    @exists_turn _ _ root .collecting pass earlier (.expecting expected) _ _ hn hc
  have hkeeps := Sink.collecting_keeps expected
  have hstart : Collector.Expect expected (.expecting expected) (.expecting expected) := ⟨rfl, rfl⟩
  obtain ⟨_, hstate⟩ := @foldl_runSlot_keeps _ d root _ pass _ hkeeps before
    (d.marked, .expecting expected) _ hstart
  have halone : Collector.Expect expected _ (.expecting expected) := ⟨hstate.1, rfl⟩
  rw [hresult, (runNode_alike hkeeps _ halone).1]

end

/-! ## two passes -/

section
variable {d d' : Diagram} {slots : Set Nat}

/-- where the sources of a node of the set have the same results, its inputs are worth the same;
empty slots have no results to agree on, and are worth nothing in both diagrams -/
theorem AgreeOn.inputValues {σ : Type} {root : Root} {sink : Sink σ} {pass : Nat}
    {earlier earlier' : Results} {host : σ} (hagree : AgreeOn slots d d')
    (hclosed : d.Closed slots) {slot : Nat} (hslot : slot ∈ slots) {n : Node}
    (hn : d.node? slot = some n)
    (hsources : ∀ feeder, d.Reads slot feeder →
      (d.evaluate root sink pass earlier host).1.nodes[feeder]? =
        (d'.evaluate root sink pass earlier' host).1.nodes[feeder]?) :
    n.inputs.map (d.evaluate root sink pass earlier host).1.inputValue =
      n.inputs.map (d'.evaluate root sink pass earlier' host).1.inputValue := by
  refine List.map_congr_left fun input hmem => ?_
  cases input with
  | none => rfl
  | some source =>
    cases hfeeder : d.node? source.node with
    | some feeder =>
      have hreads : d.Reads slot source.node := ⟨n, source, hn, hmem, rfl, by rw [hfeeder]; rfl⟩
      refine Results.inputValue_congr ?_
      rintro _ ⟨⟩
      exact hsources source.node hreads
    | none =>
      have hfeeder' := hagree.none (hclosed slot hslot n hn source hmem) hfeeder
      rw [inputValue_evaluate_of_none earlier host hfeeder,
        inputValue_evaluate_of_none earlier' host hfeeder']

/-- **A pass is local.**  Where two diagrams hold the same nodes in a set of slots that has the
sources of its nodes, two passes that expect the same type give these nodes the same results,
whatever else the diagrams hold and whatever results there were before. -/
theorem evaluate_agree (hclosed : d.Closed slots) (hagree : AgreeOn slots d d') (root : Root)
    (pass : Nat) (expected : Option String) (earlier earlier' : Results) :
    ∀ slot ∈ slots, (d.node? slot).isSome → ∃ result,
      (d.evaluate root .collecting pass earlier (.expecting expected)).1.nodes[slot]?
        = some result ∧
      (d'.evaluate root .collecting pass earlier' (.expecting expected)).1.nodes[slot]?
        = some result := by
  intro slot hslot hsome
  by_cases hc : d.ReachesCycle slot
  · obtain ⟨n, hn⟩ := Option.isSome_iff_exists.mp hsome
    obtain ⟨n', hn', hmatches⟩ := hagree.node hslot hn
    have hc' := hagree.reachesCycle hclosed hslot hc
    refine ⟨.cyclic n, nodes_evaluate_of_cyclic earlier _ hn hc, ?_⟩
    rw [nodes_evaluate_of_cyclic earlier' _ hn' hc', hmatches.cyclic_eq]
  · -- along the wires, sources first
    have hacc := acc_of_not_reachesCycle hc
    induction hacc with
    | intro slot _ ih =>
      obtain ⟨n, hn⟩ := Option.isSome_iff_exists.mp hsome
      obtain ⟨n', hn', hmatches⟩ := hagree.node hslot hn
      have hc' : ¬ d'.ReachesCycle slot := fun hcycle =>
        hc (hagree.symm.reachesCycle (hclosed.congr hagree) hslot hcycle)
      have hinputs := hagree.inputValues hclosed hslot hn fun feeder hreads => by
        obtain ⟨result, hresult, hresult'⟩ := ih feeder hreads (hclosed.reads hslot hreads)
          hreads.isSome fun hcycle => hc (.of_reads hreads hcycle)
        exact hresult.trans hresult'.symm
      refine ⟨_, result_alone root pass expected earlier hn hc, ?_⟩
      rw [result_alone root pass expected earlier' hn' hc', hinputs, hmatches.runNode_eq,
        hmatches.inputs]

/-- the other diagram has a loop that reads from the set, and comes first -/
theorem evaluate_agree_loop :
    let one (x : Single) : Node := ⟨x, .zero false, [⟨"1", 0⟩], [⟨1, true⟩], [], [0]⟩
    let reader : Node :=
      ⟨.zero false, .zero false, [⟨"-$", 1⟩], [⟨1, true⟩], [some ⟨1, 0⟩], [0]⟩
    let loop : Node :=
      ⟨.zero false, .zero false, [⟨"$+$", 2⟩], [⟨1, true⟩], [some ⟨0, 0⟩, some ⟨2, 0⟩], [0]⟩
    let d : Diagram := ⟨#[none, some (one (.zero false)), some reader]⟩
    let d' : Diagram := ⟨#[some loop, some (one (.zero true)), some reader]⟩
    d.Closed {1, 2} ∧ AgreeOn {1, 2} d d' ∧
      ∃ result,
        (d.evaluate ⟨.empty, .none⟩ .collecting 0 .empty (.expecting none)).1.nodes[2]?
          = some result ∧
        (d'.evaluate ⟨.empty, .none⟩ .collecting 0 .empty (.expecting none)).1.nodes[2]?
          = some result := by
  intro one reader loop d d'
  have hone : d.node? 1 = some (one (.zero false)) := rfl
  have hreader : d.node? 2 = some reader := rfl
  have hclosed : d.Closed {1, 2} := by
    rintro slot (rfl | rfl) n hn source hsource
    · obtain rfl := Option.some.inj (hone.symm.trans hn)
      cases hsource
    · obtain rfl := Option.some.inj (hreader.symm.trans hn)
      obtain rfl := Option.some.inj (List.mem_singleton.mp hsource)
      exact .inl rfl
  have hagree : AgreeOn {1, 2} d d' := by
    rintro slot (rfl | rfl)
    · exact .some (.of_same (by decide))
    · exact .some (.of_same (by decide))
  exact ⟨hclosed, hagree, evaluate_agree hclosed hagree _ _ _ _ _ 2 (.inr rfl) rfl⟩

end

end Diagram

end Dataflow
