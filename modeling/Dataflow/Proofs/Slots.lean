import Dataflow.Diagram

/-!
# Diagrams as maps from slots to nodes

* `Diagram.node?_push`, `node?_place`, `node?_modify`, …   what every change does to a slot;
* `Diagram.hasOutput_iff`, `hasOutput_congr`   the outputs that wires may come from;
* `Diagram.delete_ok`, `connect_ok`, …   what an edit that succeeded has done;
* `Diagram.mem_existing`   the occupied slots are those with a node;
* `Diagram.pairwise_existing`   the occupied slots are in ascending order;
* `Diagram.existing_congr`   diagrams with the same nodes have the same occupied slots.
-/

namespace Dataflow.Diagram

variable {d e : Diagram} {slot other : Nat} {n : Node}

theorem node?_mk (slots : Array (Option Node)) (slot : Nat) :
    (Diagram.mk slots).node? slot = slots[slot]?.join := rfl

theorem node?_push (d : Diagram) (n : Node) (slot : Nat) :
    (d.push n).node? slot = if slot = d.slotCount then some n else d.node? slot := by
  rw [push, node?_mk, Array.getElem?_push]
  show (if slot = d.slotCount then some (some n) else d.slots[slot]?).join = _
  by_cases h : slot = d.slotCount
  · rw [if_pos h, if_pos h]
    rfl
  · rw [if_neg h, if_neg h]
    rfl

theorem node?_eq_none_of_ge (h : d.slotCount ≤ slot) : d.node? slot = none := by
  rw [node?, Array.getElem?_eq_none h]
  rfl

theorem node?_place (d : Diagram) (slot : Nat) (n : Node) (other : Nat) :
    (d.place slot n).node? other = if other = slot then some n else d.node? other := by
  have hsize : slot < (d.slots ++ Array.replicate (slot + 1 - d.slots.size) none).size := by
    rw [Array.size_append, Array.size_replicate]
    omega
  rw [place, node?_mk]
  by_cases h : other = slot
  · obtain rfl := h
    rw [if_pos rfl, Array.getElem?_setIfInBounds_self_of_lt hsize]
    rfl
  · rw [if_neg h, Array.getElem?_setIfInBounds_ne (Ne.symm h), Array.getElem?_append]
    split
    · rfl
    · next hge =>
      have hnone : d.node? other = none := node?_eq_none_of_ge (Nat.not_lt.mp hge)
      rw [hnone, Array.getElem?_replicate]
      split <;> rfl

theorem node?_mapNodes (d : Diagram) (change : Node → Node) (slot : Nat) :
    (d.mapNodes change).node? slot = (d.node? slot).map change := by
  rw [mapNodes, node?_mk, node?, Array.getElem?_map]
  cases d.slots[slot]? with
  | none => rfl
  | some held => cases held <;> rfl

theorem node?_modify (d : Diagram) (slot : Nat) (change : Node → Node) (other : Nat) :
    (d.modify slot change).node? other =
      if other = slot then (d.node? other).map change else d.node? other := by
  rw [modify, node?_mk, node?, Array.getElem?_modify]
  by_cases h : other = slot
  · rw [if_pos h.symm, if_pos h]
    cases d.slots[other]? with
    | none => rfl
    | some held => cases held <;> rfl
  · rw [if_neg (Ne.symm h), if_neg h]

theorem node?_emptied (d : Diagram) (slot other : Nat) :
    (Diagram.mk (d.slots.setIfInBounds slot none)).node? other =
      if other = slot then none else d.node? other := by
  rw [node?_mk]
  by_cases h : other = slot
  · obtain rfl := h
    rw [if_pos rfl, Array.getElem?_setIfInBounds]
    simp only [if_true]
    split <;> rfl
  · rw [if_neg h, Array.getElem?_setIfInBounds_ne (Ne.symm h)]
    rfl

theorem node?_wire (d : Diagram) (slot input : Nat) (source : Option Source) (other : Nat) :
    (d.wire slot input source).node? other =
      if other = slot then (d.node? other).map fun n => { n with inputs := n.inputs.set input source }
      else d.node? other := node?_modify d slot _ other

/-! ## outputs -/

theorem hasOutput_iff {source : Source} : d.hasOutput source = true ↔
    ∃ n, d.node? source.node = some n ∧ source.output < n.outputs.length := by
  unfold hasOutput
  cases d.node? source.node <;> simp

/-- a change that keeps all outputs keeps the sources that exist -/
theorem hasOutput_congr
    (h : ∀ slot, (d.node? slot).map Node.outputs = (e.node? slot).map Node.outputs) :
    d.hasOutput = e.hasOutput := by
  funext source
  have hmap : ∀ d : Diagram, d.hasOutput source =
      (((d.node? source.node).map Node.outputs).map fun outputs =>
        decide (source.output < outputs.length)).getD false := by
    intro d
    unfold hasOutput
    cases d.node? source.node <;> rfl
  rw [hmap d, hmap e, h]

theorem hasOutput_wire (d : Diagram) (slot input : Nat) (source : Option Source) :
    (d.wire slot input source).hasOutput = d.hasOutput := by
  refine hasOutput_congr fun other => ?_
  rw [node?_wire]
  split
  · rw [Option.map_map]
    rfl
  · rfl

/-! ## edits that succeed -/

theorem getNode_ok {d : Diagram} {slot : Nat} {n : Node} (h : d.getNode slot = .ok n) :
    d.node? slot = some n := by
  unfold getNode at h
  split at h
  · next hn =>
    obtain rfl := Except.ok.inj h
    exact hn
  · cases h

theorem delete_ok {d d' : Diagram} {slot : Nat} {n : Node} (h : d.delete slot = .ok (n, d')) :
    d.node? slot = some n ∧
      d' = (Diagram.mk (d.slots.setIfInBounds slot none)).mapNodes (·.mapInputs (unwire slot)) := by
  unfold delete at h
  cases hn : d.getNode slot with
  | error fault =>
    rw [hn] at h
    cases h
  | ok m =>
    rw [hn] at h
    obtain ⟨rfl, rfl⟩ := Prod.mk.inj (Except.ok.inj h)
    exact ⟨getNode_ok hn, rfl⟩

theorem connect_ok {d d' : Diagram} {source : Source} {slot input : Nat}
    (h : d.connect source slot input = .ok d') :
    d.allows source slot input = .ok () ∧ d' = d.wire slot input (some source) := by
  unfold connect at h
  cases hallows : d.allows source slot input with
  | error fault =>
    rw [hallows] at h
    cases h
  | ok _ =>
    rw [hallows] at h
    exact ⟨rfl, (Except.ok.inj h).symm⟩

theorem allows_ok {d : Diagram} {source : Source} {slot input : Nat}
    (h : d.allows source slot input = .ok ()) : d.hasOutput source = true := by
  unfold allows at h
  cases hfeeder : d.getNode source.node with
  | error fault =>
    rw [hfeeder] at h
    cases h
  | ok feeder =>
    refine hasOutput_iff.mpr ⟨feeder, getNode_ok hfeeder, Nat.lt_of_not_le fun hle => ?_⟩
    rw [hfeeder] at h
    simp only [bind, Except.bind, if_pos hle] at h
    cases h

theorem disconnect_ok {d d' : Diagram} {source : Option Source} {slot input : Nat}
    (h : d.disconnect slot input = .ok (source, d')) :
    d.getInput slot input = .ok source ∧ d' = d.wire slot input none := by
  unfold disconnect at h
  cases hinput : d.getInput slot input with
  | error fault =>
    rw [hinput] at h
    cases h
  | ok found =>
    rw [hinput] at h
    obtain ⟨rfl, rfl⟩ := Prod.mk.inj (Except.ok.inj h)
    exact ⟨rfl, rfl⟩

theorem setText_ok {d d' : Diagram} {slot : Nat} {text : String}
    (h : d.setText slot text = .ok d') : d' = (d.modify slot (·.setText text)).prune := by
  unfold setText at h
  cases hn : d.getNode slot with
  | error fault =>
    rw [hn] at h
    cases h
  | ok m =>
    rw [hn] at h
    exact (Except.ok.inj h).symm

theorem move_ok {d d' : Diagram} {slot : Nat} {x y : Single} (h : d.move slot x y = .ok d') :
    d' = d.modify slot (·.moveTo x y) := by
  unfold move at h
  cases hn : d.getNode slot with
  | error fault =>
    rw [hn] at h
    cases h
  | ok m =>
    rw [hn] at h
    exact (Except.ok.inj h).symm

/-! ## occupied slots -/

theorem lt_slotCount_of_node? {slot : Nat} (h : (d.node? slot).isSome) : slot < d.slotCount := by
  rcases Nat.lt_or_ge slot d.slotCount with hlt | hge
  · exact hlt
  · have hnone : d.slots[slot]? = none := Array.getElem?_eq_none hge
    simp [node?, hnone] at h

/-- the existing slots are listed with their nodes -/
theorem mem_existing {slot : Nat} {n : Node} :
    (slot, n) ∈ d.existing ↔ d.node? slot = some n := by
  simp only [existing, List.mem_filterMap, Option.map_eq_some_iff, Prod.mk.injEq, Prod.exists,
    List.mem_zipIdx_iff_getElem?, Array.getElem?_toList, node?, Option.join_eq_some_iff]
  constructor
  · rintro ⟨held, at_, hget, m, rfl, rfl, rfl⟩
    exact hget
  · intro hget
    exact ⟨some n, slot, hget, n, rfl, rfl, rfl⟩

theorem pairwise_zipIdx {α : Type} (items : List α) :
    items.zipIdx.Pairwise fun a b => a.2 < b.2 := by
  refine List.pairwise_map.mp ?_
  rw [List.zipIdx_map_snd]
  exact List.pairwise_lt_range'

/-- the occupied slots are in ascending order -/
theorem pairwise_existing (d : Diagram) : d.existing.Pairwise fun a b => a.1 < b.1 := by
  refine List.pairwise_filterMap.mpr ((pairwise_zipIdx d.slots.toList).imp ?_)
  rintro ⟨held, slot⟩ ⟨held', slot'⟩ hlt a ha b hb
  obtain ⟨n, -, rfl⟩ := Option.map_eq_some_iff.mp ha
  obtain ⟨n', -, rfl⟩ := Option.map_eq_some_iff.mp hb
  exact hlt

/-- diagrams with the same nodes in the same slots have the same occupied slots -/
theorem existing_congr (h : ∀ slot, d.node? slot = e.node? slot) : d.existing = e.existing := by
  have hnodup : ∀ d : Diagram, d.existing.Nodup := by
    intro d
    refine d.pairwise_existing.imp ?_
    rintro a _ hlt rfl
    exact Nat.lt_irrefl _ hlt
  refine List.Perm.eq_of_pairwise ?_ d.pairwise_existing e.pairwise_existing
    ((List.perm_ext_iff_of_nodup (hnodup d) (hnodup e)).mpr ?_)
  · intro a b _ _ hlt hgt
    exact absurd hgt (Nat.lt_asymm hlt)
  · rintro ⟨slot, n⟩
    rw [mem_existing, mem_existing, h slot]

end Dataflow.Diagram
