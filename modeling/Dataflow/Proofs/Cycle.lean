import Dataflow.Diagram
import Mathlib.Logic.Relation

/-!
# Cycles of wires

* `Diagram.Reads`          a node has an input wired to a node that exists;
* `Diagram.ReachesCycle`   following wires from the inputs of a node one comes to a node from which
                           a cycle of wires leads back to itself.

A node reaches a cycle when it reads from one that does (`ReachesCycle.of_reads`), and a node whose
wires end, whichever way they are followed, reaches none (`not_reachesCycle_of_acc`).
-/

namespace Dataflow.Diagram

open Relation

variable {d : Diagram}

/-- a node reads from another one: one of its inputs is wired to it, and both exist -/
def Reads (d : Diagram) (slot feeder : Nat) : Prop :=
  ∃ n source, d.node? slot = some n ∧ some source ∈ n.inputs ∧ source.node = feeder ∧
    (d.node? feeder).isSome

/-- following wires from a node one comes to a cycle of wires -/
def ReachesCycle (d : Diagram) (slot : Nat) : Prop :=
  ∃ turn, ReflTransGen d.Reads slot turn ∧ TransGen d.Reads turn turn

theorem Reads.isSome {slot feeder : Nat} (h : d.Reads slot feeder) : (d.node? feeder).isSome := by
  obtain ⟨_, _, _, _, _, h⟩ := h
  exact h

theorem reads_iff {slot feeder : Nat} {n : Node} (hn : d.node? slot = some n) :
    d.Reads slot feeder ↔
      (∃ source, some source ∈ n.inputs ∧ source.node = feeder) ∧ (d.node? feeder).isSome := by
  constructor
  · rintro ⟨m, source, hm, hmem, heq, hsome⟩
    obtain rfl : n = m := Option.some.inj (hn.symm.trans hm)
    exact ⟨⟨source, hmem, heq⟩, hsome⟩
  · rintro ⟨⟨source, hmem, heq⟩, hsome⟩
    exact ⟨n, source, hn, hmem, heq, hsome⟩

theorem ReachesCycle.of_reads {slot feeder : Nat} (h : d.Reads slot feeder)
    (hc : d.ReachesCycle feeder) : d.ReachesCycle slot := by
  obtain ⟨turn, hto, hturn⟩ := hc
  exact ⟨turn, ReflTransGen.head h hto, hturn⟩

/-- a node on a cycle of wires, or one that reaches a cycle, reads from one that does -/
theorem ReachesCycle.exists_reads {slot : Nat} (hc : d.ReachesCycle slot) :
    ∃ feeder, d.Reads slot feeder ∧ d.ReachesCycle feeder := by
  obtain ⟨turn, hto, hturn⟩ := hc
  rcases ReflTransGen.cases_head hto with rfl | ⟨feeder, h, hrest⟩
  · obtain ⟨feeder, h, hback⟩ := TransGen.head'_iff.mp hturn
    exact ⟨feeder, h, slot, hback, hturn⟩
  · exact ⟨feeder, h, turn, hrest, hturn⟩

theorem not_reachesCycle_of_none {slot : Nat} (hn : d.node? slot = none) :
    ¬ d.ReachesCycle slot := by
  intro hc
  obtain ⟨feeder, ⟨n, source, hsome, _⟩, _⟩ := hc.exists_reads
  rw [hn] at hsome
  cases hsome

theorem not_reachesCycle_of_acc {slot : Nat} (h : Acc (fun feeder slot => d.Reads slot feeder) slot) :
    ¬ d.ReachesCycle slot := by
  induction h with
  | intro slot _ ih =>
    intro hc
    obtain ⟨feeder, hreads, hfrom⟩ := hc.exists_reads
    exact ih feeder hreads hfrom

end Dataflow.Diagram
