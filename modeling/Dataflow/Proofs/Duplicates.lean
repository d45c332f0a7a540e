import Dataflow.Proofs.Assembly

/-!
# Nodes with the same number

A node takes the place of an earlier one with its number.

* `withoutReplaced`, `replaced`   the items of a block that are left, and the nodes that are not;
* `leftover`                      the connections that replaced nodes say, for the slot they had;
* `load_withoutReplaced`          what becomes of a diagram when the replaced nodes are taken out of
                                  its text: its nodes stay, and of its wires those that come from
                                  leftovers are lost.

A leftover is made in the node that took the place, so that a text and the same without its replaced
nodes may load as different diagrams (`load_withoutReplaced_ne`).
-/

namespace Dataflow.Saved

/-- a node with whose number a later one begins anew -/
def Item.isReplaced (item : Item) (later : List Item) : Bool :=
  item.nodeId?.isSome && later.any fun other => other.nodeId? == item.nodeId?

/-- of the nodes with one number only the last -/
def withoutReplaced : List Item → List Item
  | [] => []
  | item :: later =>
    if item.isReplaced later then withoutReplaced later else item :: withoutReplaced later

/-- the nodes whose place a later one takes -/
def replaced : List Item → List Item
  | [] => []
  | item :: later => if item.isReplaced later then item :: replaced later else replaced later

/-- the connections that the replaced nodes of a slot say -/
def leftover (block : List Item) (slot : Nat) : List ConnectionDraft :=
  (valuesAt slot ((replaced block).filterMap Item.node?)).flatMap NodeDraft.wiring

section

variable {α : Type} {key : Nat} {pairs : List (Nat × α)}

theorem valuesAt_eq_nil_iff : valuesAt key pairs = [] ↔ ∀ p ∈ pairs, p.1 ≠ key := by
  rw [valuesAt, List.map_eq_nil_iff, List.filter_eq_nil_iff]
  exact forall₂_congr fun p _ => by rw [beq_iff_eq]

/-- all keys are below a bound if those with values are -/
theorem forall_lt_iff {bound : Nat} :
    (∀ p ∈ pairs, p.1 < bound) ↔ ∀ key, valuesAt key pairs ≠ [] → key < bound := by
  constructor
  · intro h key hkey
    by_contra hge
    refine hkey (valuesAt_eq_nil_iff.mpr fun p hp heq => hge ?_)
    rw [← heq]
    exact h p hp
  · intro h p hp
    exact h p.1 fun hnil => valuesAt_eq_nil_iff.mp hnil p hp rfl

end

variable {item : Item} {items block later : List Item}

theorem withoutReplaced_subset (block : List Item) : withoutReplaced block ⊆ block := by
  induction block with
  | nil => exact List.Subset.refl []
  | cons item later ih =>
    rw [withoutReplaced]
    split
    · exact List.subset_cons_of_subset item ih
    · exact List.cons_subset_cons item ih

/-- a node is replaced if there is a later one for its slot -/
theorem isReplaced_iff {slot : Nat} {n : NodeDraft} (hitem : item.Sound)
    (hlater : ∀ other ∈ later, other.Sound) (hnode : item.node? = some (slot, n)) :
    item.isReplaced later = true ↔ valuesAt slot (later.filterMap Item.node?) ≠ [] := by
  have hid : item.nodeId? = some (slot + 1) := by
    rw [hitem.nodeId?_eq, hnode]
    rfl
  rw [Item.isReplaced, hid, Option.isSome_some, Bool.true_and, List.any_eq_true, Ne,
    valuesAt_eq_nil_iff]
  push Not
  constructor
  · rintro ⟨other, hother, hsame⟩
    rw [beq_iff_eq, (hlater other hother).nodeId?_eq] at hsame
    obtain ⟨p, hp, hslot⟩ := Option.map_eq_some_iff.mp hsame
    exact ⟨p, List.mem_filterMap.mpr ⟨other, hother, hp⟩, Nat.succ_injective hslot⟩
  · rintro ⟨p, hp, hslot⟩
    obtain ⟨other, hother, hp⟩ := List.mem_filterMap.mp hp
    refine ⟨other, hother, beq_iff_eq.mpr ?_⟩
    rw [(hlater other hother).nodeId?_eq, hp, ← hslot]
    rfl

/-- what is said about a slot is what replaced nodes say and then what the node says that is left;
one is left where there was any -/
theorem valuesAt_replaced (h : ∀ item ∈ block, item.Sound) (slot : Nat) :
    valuesAt slot (block.filterMap Item.node?) =
        valuesAt slot ((replaced block).filterMap Item.node?) ++
          valuesAt slot ((withoutReplaced block).filterMap Item.node?) ∧
      (valuesAt slot ((withoutReplaced block).filterMap Item.node?) = [] →
        valuesAt slot (block.filterMap Item.node?) = []) := by
  induction block with
  | nil => exact ⟨rfl, id⟩
  | cons item later ih =>
    obtain ⟨hitem, hlater⟩ := List.forall_mem_cons.mp h
    obtain ⟨hvalues, hleft⟩ := ih hlater
    cases hnode : item.node? with
    | none =>
      have hnot : item.isReplaced later = false := by
        rw [Item.isReplaced, hitem.nodeId?_eq, hnode]
        rfl
      rw [replaced, withoutReplaced, hnot, if_neg Bool.false_ne_true, if_neg Bool.false_ne_true,
        List.filterMap_cons_none hnode, List.filterMap_cons_none hnode]
      exact ⟨hvalues, hleft⟩
    | some p =>
      obtain ⟨own, n⟩ := p
      have hreplaced := isReplaced_iff hitem hlater hnode
      rw [replaced, withoutReplaced, List.filterMap_cons_some hnode]
      by_cases hr : item.isReplaced later = true
      · rw [if_pos hr, if_pos hr, List.filterMap_cons_some hnode]
        by_cases hown : own = slot
        · subst hown
          rw [valuesAt_cons_self, valuesAt_cons_self, hvalues]
          exact ⟨rfl, fun hnil => absurd (hleft hnil) (hreplaced.mp hr)⟩
        · rw [valuesAt_cons_of_ne hown, valuesAt_cons_of_ne hown]
          exact ⟨hvalues, hleft⟩
      · rw [if_neg hr, if_neg hr, List.filterMap_cons_some hnode]
        by_cases hown : own = slot
        · subst hown
          -- nothing later is for this slot
          have hnil : valuesAt own (later.filterMap Item.node?) = [] := by
            by_contra hne
            exact hr (hreplaced.mpr hne)
          rw [hnil] at hvalues
          obtain ⟨hfront, hback⟩ := List.append_eq_nil_iff.mp hvalues.symm
          rw [valuesAt_cons_self, valuesAt_cons_self, hnil, hfront, hback]
          exact ⟨rfl, nofun⟩
        · rw [valuesAt_cons_of_ne hown, valuesAt_cons_of_ne hown]
          exact ⟨hvalues, hleft⟩

variable {d d' : Diagram}

/-- the diagram of a block and that of the nodes that are left in it -/
structure Overwritten (block : List Item) (d d' : Diagram) : Prop where
  slots : d.slotCount = d'.slotCount
  box : d.graph.box = d'.graph.box
  /-- a leftover makes a wire where the node that is left makes none -/
  wires : ∀ w, w ∈ d.graph.wires ↔ w ∈ d'.graph.wires ∨
    (∀ source, ⟨source, w.slot, w.input⟩ ∉ d'.graph.wires) ∧
      lastSource d' w.slot w.input (leftover block w.slot) = some w.source

theorem overwritten_of_assembled (h : ∀ item ∈ block, item.Sound)
    (hd : Assembled (block.filterMap Item.node?) d)
    (hd' : Assembled ((withoutReplaced block).filterMap Item.node?) d') :
    Overwritten block d d' := by
  have hvalues := valuesAt_replaced h
  have hbox : d.graph.box = d'.graph.box := by
    funext slot
    obtain ⟨hsplit, hleft⟩ := hvalues slot
    rw [hd.box, hd'.box]
    cases hlast : (valuesAt slot ((withoutReplaced block).filterMap Item.node?)).getLast? with
    | none =>
      rw [hleft (List.getLast?_eq_none_iff.mp hlast)]
      rfl
    | some n => rw [hsplit, List.getLast?_append, hlast, Option.some_or]
  refine ⟨?_, hbox, fun w => ?_⟩
  · have hbound : ∀ count, d.slotCount ≤ count ↔ d'.slotCount ≤ count := by
      intro count
      rw [hd.slots, hd'.slots, forall_lt_iff, forall_lt_iff]
      refine forall_congr' fun slot => imp_congr_left (not_congr ⟨fun hnil => ?_, (hvalues slot).2⟩)
      rw [(hvalues slot).1] at hnil
      exact (List.append_eq_nil_iff.mp hnil).2
    exact Nat.le_antisymm ((hbound _).mpr (Nat.le_refl _)) ((hbound _).mp (Nat.le_refl _))
  · have hwires : ∀ source, ⟨source, w.slot, w.input⟩ ∈ d'.graph.wires ↔ lastSource d' w.slot w.input
        ((valuesAt w.slot ((withoutReplaced block).filterMap Item.node?)).flatMap
          NodeDraft.wiring) = some source := fun source => hd'.wires ⟨source, w.slot, w.input⟩
    simp only [hwires]
    rw [hd.wires, (hvalues w.slot).1, List.flatMap_append, lastSource_append,
      lastSource_congr hbox]
    cases lastSource d' w.slot w.input
      ((valuesAt w.slot ((withoutReplaced block).filterMap Item.node?)).flatMap
        NodeDraft.wiring) with
    | none => simp [leftover]
    | some source => simp

/-- nothing is lost if every leftover that can be made leads to an input that has a wire anyhow -/
theorem Overwritten.eq_iff (h : Overwritten block d d') : d = d' ↔
    ∀ slot, ∀ c ∈ leftover block slot, ∀ source input,
      readConnection d' slot c = .ok (source, input) →
      ∃ source', ⟨source', slot, input⟩ ∈ d'.graph.wires := by
  constructor
  · rintro rfl slot c hc source input hread
    by_contra hnone
    push Not at hnone
    cases hlast : lastSource d slot input (leftover block slot) with
    | none => exact lastSource_eq_none_iff.mp hlast c hc source hread
    | some last => exact hnone last ((h.wires ⟨last, slot, input⟩).mpr (.inr ⟨hnone, hlast⟩))
  · intro hall
    have hwires : d.graph.wires = d'.graph.wires := by
      ext w
      rw [h.wires]
      refine or_iff_left fun ⟨hnone, hlast⟩ => ?_
      obtain ⟨c, hc, hread⟩ := exists_of_lastSource hlast
      obtain ⟨source, hmem⟩ := hall w.slot c hc w.source w.input hread
      exact hnone source hmem
    refine Diagram.eq_of_graph h.slots ?_
    show Graph.mk d.graph.box d.graph.wires = Graph.mk d'.graph.box d'.graph.wires
    rw [h.box, hwires]

/-- **A later node takes the place of an earlier one, but not of its connections.**  Let a text load.
What it spells loads without the replaced nodes too, and it has the same slots and nodes.  Its wires
are those that the nodes that are left say; the text had besides, at the inputs without such a wire,
what the replaced nodes of the slot said last.  So the diagrams are equal just if every leftover that
can be made leads to an input that has a wire anyhow. -/
theorem load_withoutReplaced {text : String} {placed placed' : List Placed}
    {before block after : List Item} (htext : lexemes text = .ok placed)
    (hitems : Spelling (placed.map Placed.lexeme) (before ++ .block "diagram" block :: after))
    (hfirst : ∀ item ∈ before, item.tag ≠ "diagram") (hload : (load text).result = .ok d)
    (hitems' : Spelling (placed'.map Placed.lexeme)
      (before ++ .block "diagram" (withoutReplaced block) :: after)) :
    ∃ d', (loadPlaced placed').result = .ok d' ∧
      (∀ text', lexemes text' = .ok placed' → load text' = loadPlaced placed') ∧
      Overwritten block d d' ∧
      (d = d' ↔ ∀ slot, ∀ c ∈ leftover block slot, ∀ source input,
        readConnection d' slot c = .ok (source, input) →
        ∃ source', ⟨source', slot, input⟩ ∈ d'.graph.wires) := by
  rw [load_eq htext, loadPlaced_eq_ok_iff hitems hfirst, build_items_eq_ok_iff] at hload
  obtain ⟨hsound, hassembled⟩ := hload
  obtain ⟨d', hbuild⟩ := exists_build_items fun item hitem =>
    hsound item (withoutReplaced_subset block hitem)
  have hassembled' := (build_items_eq_ok_iff.mp hbuild).2
  have hoverwritten := overwritten_of_assembled hsound hassembled hassembled'
  exact ⟨d', (loadPlaced_eq_ok_iff hitems' hfirst).mpr hbuild, fun text' => load_eq, hoverwritten,
    hoverwritten.eq_iff⟩

/-- a node with a wire and another one with its number -/
def twice : List Item :=
  [.block "node" [.scalar "id" (.number "2"), .scalar "line" (.string "5")],
   .block "node" [.scalar "id" (.number "1"), .scalar "line" (.string "$"),
     .block "connection" [.scalar "input_index" (.number "0"),
       .scalar "source_node_id" (.number "2"), .scalar "source_output_index" (.number "0")]],
   .block "node" [.scalar "id" (.number "1"), .scalar "line" (.string "$")]]

def twiceText : String :=
  "diagram \x7b node \x7b id: 2 line: \"5\" \x7d node \x7b id: 1 line: \"$\" connection \x7b " ++
  "input_index: 0 source_node_id: 2 source_output_index: 0 \x7d \x7d " ++
  "node \x7b id: 1 line: \"$\" \x7d \x7d"

/-- the same without the node that has the wire -/
def onceText : String :=
  "diagram \x7b node \x7b id: 2 line: \"5\" \x7d node \x7b id: 1 line: \"$\" \x7d \x7d"

theorem lexemes_twiceText : lexemes twiceText = .ok (Item.onLine 1 [.block "diagram" twice]) := by
  decide +kernel

theorem lexemes_onceText :
    lexemes onceText = .ok (Item.onLine 1 [.block "diagram" (withoutReplaced twice)]) := by
  decide +kernel

/-- the input of the node with the number 1 -/
theorem inputs_twiceText : (load twiceText).result.map (fun d => (d.node? 0).map Node.inputs) =
    .ok (some [some ⟨1, 0⟩]) := by decide +kernel

theorem inputs_onceText : (load onceText).result.map (fun d => (d.node? 0).map Node.inputs) =
    .ok (some [none]) := by decide +kernel

/-- the node that is left has the place of the other one -/
theorem load_withoutReplaced_twice : ∃ d d', (load twiceText).result = .ok d ∧
    (load onceText).result = .ok d' ∧ Overwritten twice d d' := by
  have htwice : Item.AllGood twice := by
    simp only [Item.AllGood, Item.Good, twice]
    decide +kernel
  have honce : Item.AllGood (withoutReplaced twice) := (Item.allGood_iff _).mpr fun item hitem =>
    (Item.allGood_iff twice).mp htwice item (withoutReplaced_subset twice hitem)
  obtain ⟨d, hload, -⟩ := except_map_ok inputs_twiceText
  obtain ⟨d', hload', htexts, hoverwritten, -⟩ := load_withoutReplaced lexemes_twiceText
    (spelling_diagram htwice 1) (List.forall_mem_nil _) hload (spelling_diagram honce 1)
  exact ⟨d, d', hload, htexts _ lexemes_onceText ▸ hload', hoverwritten⟩

/-- and its wire -/
theorem load_withoutReplaced_ne : ∃ d d', (load twiceText).result = .ok d ∧
    (load onceText).result = .ok d' ∧ d ≠ d' := by
  obtain ⟨d, hload, hwired⟩ := except_map_ok inputs_twiceText
  obtain ⟨d', hload', hunwired⟩ := except_map_ok inputs_onceText
  refine ⟨d, d', hload, hload', fun heq => ?_⟩
  rw [heq, hunwired] at hwired
  cases hwired

end Dataflow.Saved
