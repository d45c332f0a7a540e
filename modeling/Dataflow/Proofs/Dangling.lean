import Dataflow.Proofs.Agreement
import Dataflow.Proofs.Edits
import Dataflow.Proofs.Guarded

/-!
# Dangling wires are harmless

A wire dangles when there is no output where it comes from: its slot lies behind the last one, the
slot is empty, or the node in it has fewer outputs.

* `Diagram.inputValue_of_not_offers`   an input with such a wire is worth nothing;
* `Diagram.nodes_prune`                dropping such wires changes no result of a node;
* `Diagram.evaluate_prune`             nor does it change a pass, and no pass leaves its tables.

A wire to a node that exists counts for the order of the runs, whether the output exists or not.  So
the two passes may run the nodes in different orders, and give different numbers to their scopes;
what they have in common is said of one node after the other, along the wires.
-/

namespace Dataflow.Diagram

open Relation

variable {σ : Type} {d : Diagram} {slot feeder : Nat} {n : Node}

/-- an input that is wired to no output is worth nothing in the end -/
theorem inputValue_of_not_offers (h : d.AllShaped) {root : Root} {sink : Sink σ} {pass : Nat}
    (earlier : Results) (host : σ) {source : Source} (hoffers : ¬ d.Offers source) :
    (d.evaluate root sink pass earlier host).1.inputValue (some source) = .void := by
  cases hn : d.node? source.node with
  | none => exact inputValue_evaluate_of_none earlier host hn
  | some n =>
    obtain ⟨r, hr, hfits⟩ := exists_fits hn (h _ n hn) root sink pass earlier host
    have hge : n.outputs.length ≤ source.output :=
      Nat.le_of_not_lt fun hlt => hoffers ⟨n, hn, hlt⟩
    have hnone : r.outputs[source.output]? = none :=
      List.getElem?_eq_none (hfits.outputs ▸ hge)
    rw [Results.inputValue, Results.output?, hr, Option.bind_some, hnone]
    rfl

theorem node?_prune_eq (hn : d.node? slot = some n) :
    d.prune.node? slot = some (n.mapInputs d.valid?) := by
  rw [prune, node?_mapNodes, hn]
  rfl

theorem Reads.of_prune (h : d.prune.Reads slot feeder) : d.Reads slot feeder := by
  obtain ⟨m, source, hm, hmem, hnode, hsome⟩ := h
  rw [prune, node?_mapNodes] at hm hsome
  obtain ⟨n, hn, rfl⟩ := Option.map_eq_some_iff.mp hm
  obtain ⟨input, hinput, hvalid⟩ := List.mem_map.mp hmem
  obtain ⟨rfl, -⟩ := valid?_eq_some.mp hvalid
  exact ⟨n, source, hn, hinput, hnode, by simpa using hsome⟩

/-- where no cycle of wires is, no node reaches one -/
theorem not_reachesCycle_of_acyclic (hacyclic : ∀ slot, ¬ TransGen d.Reads slot slot) (slot : Nat) :
    ¬ d.ReachesCycle slot :=
  fun ⟨turn, _, hturn⟩ => hacyclic turn hturn

theorem acyclic_prune (hacyclic : ∀ slot, ¬ TransGen d.Reads slot slot) (slot : Nat) :
    ¬ TransGen d.prune.Reads slot slot := by
  have hreads : d.prune.Reads ≤ d.Reads := fun _ _ => Reads.of_prune
  exact fun hcycle => hacyclic slot (TransGen.mono hreads _ _ hcycle)

/-- where the sources of a node have the same results in both passes, the wires that stay carry the
same values, and those that are dropped carried nothing -/
theorem inputValues_prune (h : d.AllShaped) {root : Root} {sink : Sink σ} {pass : Nat}
    {earlier earlier' : Results} {host : σ} (hn : d.node? slot = some n)
    (hsources : ∀ feeder, d.Reads slot feeder →
      (d.prune.evaluate root sink pass earlier' host).1.nodes[feeder]? =
        (d.evaluate root sink pass earlier host).1.nodes[feeder]?) :
    (n.mapInputs d.valid?).inputs.map (d.prune.evaluate root sink pass earlier' host).1.inputValue =
      n.inputs.map (d.evaluate root sink pass earlier host).1.inputValue := by
  rw [Node.mapInputs, List.map_map]
  refine List.map_congr_left fun input hmem => ?_
  rw [Function.comp_apply]
  cases input with
  | none => rfl
  | some source =>
    by_cases hoffers : d.Offers source
    · have hvalid : d.valid? (some source) = some source := valid?_eq_some.mpr ⟨rfl, hoffers⟩
      obtain ⟨m, hm, -⟩ := hoffers
      have hreads : d.Reads slot source.node := ⟨n, source, hn, hmem, rfl, by rw [hm]; rfl⟩
      rw [hvalid]
      refine Results.inputValue_congr ?_
      rintro _ ⟨⟩
      exact hsources source.node hreads
    · have hvalid : d.valid? (some source) = none := by
        rw [Option.eq_none_iff_forall_ne_some]
        intro other hother
        obtain ⟨hsame, hoffers'⟩ := valid?_eq_some.mp hother
        exact hoffers (Option.some.inj hsame ▸ hoffers')
      rw [hvalid, inputValue_of_not_offers h earlier host hoffers]
      rfl

/-- dropping the wires that dangle changes no result of a node, by induction along the wires -/
theorem nodes_prune (h : d.AllShaped) (hacyclic : ∀ slot, ¬ TransGen d.Reads slot slot)
    (root : Root) (pass : Nat) (expected : Option String) (earlier earlier' : Results)
    (slot : Nat) :
    (d.prune.evaluate root .collecting pass earlier' (.expecting expected)).1.nodes[slot]? =
      (d.evaluate root .collecting pass earlier (.expecting expected)).1.nodes[slot]? := by
  have hacc := acc_of_not_reachesCycle (not_reachesCycle_of_acyclic hacyclic slot)
  induction hacc with
  | intro slot _ ih =>
    cases hn : d.node? slot with
    | none =>
      have hn' : d.prune.node? slot = none := (pruned_prune d).empty slot hn
      rw [nodes_evaluate_of_none earlier' _ hn', nodes_evaluate_of_none earlier _ hn,
        (pruned_prune d).slots]
    | some n =>
      have hinputs := inputValues_prune h hn ih
      rw [result_alone root pass expected earlier' (node?_prune_eq hn)
          (not_reachesCycle_of_acyclic (acyclic_prune hacyclic) slot),
        result_alone root pass expected earlier hn (not_reachesCycle_of_acyclic hacyclic slot),
        hinputs]
      rfl

/-- **Dangling wires are harmless.**  Let the operations have built a diagram, whatever wires the
nodes brought along that were put into its slots, and let no wires between its nodes form a cycle.
Then a pass over it and a pass over it without the wires that dangle give every slot the same
result; and no pass over any diagram that the operations build uses an index outside of a table. -/
theorem evaluate_prune (hd : d.Built) (hacyclic : ∀ slot, ¬ TransGen d.Reads slot slot)
    (root : Root) (pass : Nat) (expected : Option String) (earlier earlier' : Results) :
    (d.prune.evaluate root .collecting pass earlier' (.expecting expected)).1.nodes =
      (d.evaluate root .collecting pass earlier (.expecting expected)).1.nodes ∧
    ∀ e : Diagram, e.Built → ∀ (σ : Type) (root : Root) (sink : Sink σ) pass earlier host,
      e.guardedEvaluate root sink pass earlier host =
        some (e.evaluate root sink pass earlier host) := by
  refine ⟨Array.ext_getElem? fun slot => ?_, fun e he σ root sink pass earlier host => ?_⟩
  · exact nodes_prune hd.allShaped hacyclic root pass expected earlier earlier' slot
  · exact guardedEvaluate_eq he.allShaped root sink pass earlier host

/-- a node with three inputs, wired where it comes from -/
def wiredReader : Node :=
  { Node.ofText "[$, $, $]" with inputs := [some ⟨1, 1⟩, some ⟨2, 0⟩, some ⟨5, 0⟩] }

/-- the same node elsewhere: in slot 1 there are too few outputs, slot 2 is empty, and slot 5 lies
behind the last one -/
def danglingWires : Diagram :=
  ((Diagram.empty.place 0 wiredReader).place 1 (.ofText "1")).place 3 (.ofText "2")

theorem built_danglingWires : danglingWires.Built := by
  let added : Diagram :=
    (((((Diagram.empty.add "[$, $, $]").add "1\n2").add "3").add "").add "").add "4"
  let first : Diagram := added.wire 0 0 (some ⟨1, 1⟩)
  let second : Diagram := first.wire 0 1 (some ⟨2, 0⟩)
  let third : Diagram := second.wire 0 2 (some ⟨5, 0⟩)
  have hfirst : added.connect ⟨1, 1⟩ 0 0 = .ok first := rfl
  have hsecond : first.connect ⟨2, 0⟩ 0 1 = .ok second := rfl
  have hthird : second.connect ⟨5, 0⟩ 0 2 = .ok third := rfl
  have hreader : third.node? 0 = some wiredReader := rfl
  have hadded : added.Built := (((((Diagram.Built.empty.add _).add _).add _).add _).add _).add _
  have hwired : third.Built := ((hadded.connect hfirst).connect hsecond).connect hthird
  have hthree : wiredReader.Built := .taken hwired hreader
  exact ((Diagram.Built.empty.place 0 hthree).place 1 (.ofText "1")).place 3 (.ofText "2")

/-- its wires lead to later slots -/
theorem lt_of_reads_danglingWires {slot feeder : Nat} (h : danglingWires.Reads slot feeder) :
    slot < feeder := by
  obtain ⟨n, source, hn, hmem, rfl, -⟩ := h
  simp only [danglingWires, node?_place, node?_empty] at hn
  split at hn
  · obtain rfl := Option.some.inj hn
    exact absurd hmem (not_mem_inputs_ofText "2")
  · split at hn
    · obtain rfl := Option.some.inj hn
      exact absurd hmem (not_mem_inputs_ofText "1")
    · split at hn
      · next hslot =>
        obtain rfl := Option.some.inj hn
        simp only [wiredReader, List.mem_cons, Option.some.injEq, List.not_mem_nil,
          or_false] at hmem
        rcases hmem with rfl | rfl | rfl
        all_goals
          rw [hslot]
          decide
      · cases hn

theorem acyclic_danglingWires (slot : Nat) : ¬ TransGen danglingWires.Reads slot slot := by
  intro hcycle
  have hreads : danglingWires.Reads ≤ (· < ·) := fun _ _ => lt_of_reads_danglingWires
  have hlt := TransGen.mono hreads _ _ hcycle
  rw [transGen_eq_self] at hlt
  exact Nat.lt_irrefl slot hlt

theorem evaluate_prune_danglingWires :
    let root : Root := ⟨.empty, .none⟩
    danglingWires.Built ∧ (∀ slot, ¬ TransGen danglingWires.Reads slot slot) ∧
      (danglingWires.prune.evaluate root .collecting 0 .empty (.expecting none)).1.nodes =
        (danglingWires.evaluate root .collecting 0 .empty (.expecting none)).1.nodes :=
  ⟨built_danglingWires, acyclic_danglingWires,
    (evaluate_prune built_danglingWires acyclic_danglingWires _ 0 none .empty .empty).1⟩

example : (danglingWires.prune.node? 0).map Node.inputs = some [none, none, none] := by
  decide +kernel

end Dataflow.Diagram
