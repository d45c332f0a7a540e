import Dataflow.Proofs.Edits
import Dataflow.Proofs.RoundTrip

/-!
# Which diagrams can be loaded again

A text that can be loaded gives a diagram whose numbers all fit where they are read, whatever the
text looked like; only a coordinate may be one that is not written as a number.

* `foldlM_keeps`, `foldlM_fails`   what every step keeps, and a step that fails whatever came before;
* `Diagram.AllNumbered`      the numbers of all nodes fit where they are read;
* `Saved.allNumbered_load`   so it is in every diagram that was loaded;
* `Saved.load_save_iff`      such a diagram can be loaded again just if no coordinate is `NaN` or `inf`;
* `Saved.load_save_of_load_iff`   so it is with every text that can be loaded.
-/

namespace Dataflow

section
variable {α β ε : Type}

theorem except_map_ok {f : α → β} {r : Except ε α} {b : β} (h : r.map f = .ok b) :
    ∃ a, r = .ok a ∧ f a = b := by
  cases r with
  | error fault => cases h
  | ok a => exact ⟨a, rfl, Except.ok.inj h⟩

theorem except_bind_ok {f : α → Except ε β} {r : Except ε α} {b : β} (h : r >>= f = .ok b) :
    ∃ a, r = .ok a ∧ f a = .ok b := by
  cases r with
  | error fault => cases h
  | ok a => exact ⟨a, rfl, h⟩

variable {f : β → α → Except ε β} {l : List α} {b b' : β}

theorem foldlM_keeps {P : β → Prop} (hf : ∀ b a b', P b → f b a = .ok b' → P b') (hb : P b)
    (h : l.foldlM f b = .ok b') : P b' := by
  induction l generalizing b with
  | nil =>
    obtain rfl := Except.ok.inj h
    exact hb
  | cons a l ih =>
    rw [List.foldlM_cons] at h
    obtain ⟨next, hstep, hrest⟩ := except_bind_ok h
    exact ih (hf b a next hb hstep) hrest

theorem foldlM_fails {a : α} (ha : a ∈ l) (hf : ∀ b, ∃ fault, f b a = .error fault) (b : β) :
    ∃ fault, l.foldlM f b = .error fault := by
  induction l generalizing b with
  | nil => cases ha
  | cons first l ih =>
    rw [List.foldlM_cons]
    rcases List.mem_cons.mp ha with rfl | ha
    · obtain ⟨fault, hfault⟩ := hf b
      exact ⟨fault, by rw [hfault]; rfl⟩
    · cases hstep : f b first with
      | error fault => exact ⟨fault, rfl⟩
      | ok next => exact ih ha next

end

/-! ## numbers that were read -/

namespace Saved

variable {e : Entry}

theorem readIndex?_lt {text : String} {n : Nat} (h : readIndex? text = some n) : n < 2 ^ 64 := by
  simp only [readIndex?, Option.ite_none_right_eq_some] at h
  obtain ⟨-, hlt, hn⟩ := h
  obtain rfl := Option.some.inj hn
  exact hlt

theorem asIndex_lt {n : Nat} (h : e.asIndex = .ok n) : n < 2 ^ 64 := by
  unfold Entry.asIndex Entry.asNumber at h
  split at h
  · split at h
    · next hread =>
      obtain rfl := Except.ok.inj h
      exact readIndex?_lt hread
    · cases h
  · cases h

theorem asNodeId_ok {id : Nat} (h : e.asNodeId = .ok id) : id ≠ 0 ∧ id ≤ maxNodeId := by
  obtain ⟨n, -, hcheck⟩ := except_bind_ok h
  split at hcheck
  · cases hcheck
  · next hgood =>
    obtain rfl := Except.ok.inj hcheck
    omega

/-- what was read in a `connection` block fits into 64 bits -/
structure ConnectionDraft.Small (c : ConnectionDraft) : Prop where
  input : ∀ n, c.input = some n → n < 2 ^ 64
  sourceId : ∀ n, c.sourceId = some n → n < 2 ^ 64
  output : ∀ n, c.output = some n → n < 2 ^ 64

theorem ConnectionDraft.small_empty (line : Nat) : Small ⟨line, none, none, none⟩ :=
  ⟨nofun, nofun, nofun⟩

theorem ConnectionDraft.Small.readField {c c' : ConnectionDraft} (h : c.Small)
    (hread : c.readField e = .ok c') : c'.Small := by
  have hindex : ∀ n, e.asIndex = .ok n → ∀ m, some n = some m → m < 2 ^ 64 := by
    intro n hn m hm
    obtain rfl := Option.some.inj hm
    exact asIndex_lt hn
  unfold ConnectionDraft.readField at hread
  split at hread
  · obtain ⟨n, hn, rfl⟩ := except_map_ok hread
    exact ⟨hindex n hn, h.sourceId, h.output⟩
  · obtain ⟨n, hn, rfl⟩ := except_map_ok hread
    exact ⟨h.input, hindex n hn, h.output⟩
  · obtain ⟨n, hn, rfl⟩ := except_map_ok hread
    exact ⟨h.input, h.sourceId, hindex n hn⟩
  · obtain rfl := Except.ok.inj hread
    exact h

/-- what was read in a `node` block fits where it belongs -/
structure NodeDraft.Small (n : NodeDraft) : Prop where
  id : ∀ id, n.id = some id → id ≠ 0 ∧ id ≤ maxNodeId
  held : ∀ index ∈ n.held.map Prod.snd, index < 2 ^ 64
  connections : ∀ c ∈ n.connections, c.Small

theorem NodeDraft.small_empty : NodeDraft.empty.Small :=
  ⟨nofun, nofun, nofun⟩

theorem NodeDraft.Small.readAxis {n n' : NodeDraft} (h : n.Small) (hread : n.readAxis e = .ok n') :
    n'.Small := by
  unfold NodeDraft.readAxis at hread
  split at hread
  · obtain ⟨x, -, rfl⟩ := except_map_ok hread
    exact ⟨h.id, h.held, h.connections⟩
  · obtain ⟨y, -, rfl⟩ := except_map_ok hread
    exact ⟨h.id, h.held, h.connections⟩
  · obtain rfl := Except.ok.inj hread
    exact h

theorem NodeDraft.Small.readField {n n' : NodeDraft} (h : n.Small)
    (hread : n.readField e = .ok n') : n'.Small := by
  unfold NodeDraft.readField at hread
  split at hread
  · obtain ⟨id, hid, rfl⟩ := except_map_ok hread
    refine ⟨fun id' hid' => ?_, h.held, h.connections⟩
    obtain rfl := Option.some.inj hid'
    exact asNodeId_ok hid
  · obtain ⟨block, -, hblock⟩ := except_bind_ok hread
    exact foldlM_keeps (fun n e n' => NodeDraft.Small.readAxis) h hblock
  · obtain ⟨text, -, rfl⟩ := except_map_ok hread
    exact ⟨h.id, h.held, h.connections⟩
  · obtain ⟨index, hindex, rfl⟩ := except_map_ok hread
    exact ⟨h.id, List.forall_mem_cons.mpr ⟨asIndex_lt hindex, h.held⟩, h.connections⟩
  · obtain ⟨block, -, hblock⟩ := except_bind_ok hread
    obtain ⟨c, hc, hlast⟩ := except_bind_ok hblock
    obtain rfl := Except.ok.inj hlast
    have hsmall : c.Small := foldlM_keeps (fun c e c' => ConnectionDraft.Small.readField)
      (ConnectionDraft.small_empty e.line) hc
    exact ⟨h.id, h.held, List.forall_mem_cons.mpr ⟨hsmall, h.connections⟩⟩
  · obtain rfl := Except.ok.inj hread
    exact h

theorem readNode_small {slot : Nat} {n : NodeDraft} (h : readNode e = .ok (slot, n)) :
    slot < maxNodeId ∧ n.Small := by
  obtain ⟨block, -, hblock⟩ := except_bind_ok h
  obtain ⟨draft, hdraft, hlast⟩ := except_bind_ok hblock
  have hsmall : draft.Small := foldlM_keeps (fun n e n' => NodeDraft.Small.readField)
    NodeDraft.small_empty hdraft
  split at hlast
  · next id hid =>
    obtain ⟨rfl, rfl⟩ := Prod.mk.inj (Except.ok.inj hlast)
    obtain ⟨hzero, hle⟩ := hsmall.id id hid
    exact ⟨by omega, hsmall⟩
  · cases hlast

end Saved

/-! ## diagrams that were loaded -/

namespace Node

/-- a node of a text holds no output -/
theorem heldOutputs_ofText (text : String) (x y : Single) :
    ((Node.ofText text).moveTo x y).heldOutputs = [] := by
  have hshaped : ((Node.ofText text).moveTo x y).Shaped := (Shaped.ofText text).moveTo x y
  have htexts := statementTexts_of_groups hshaped.groups
  rw [List.eq_nil_iff_forall_not_mem]
  intro i hi
  obtain ⟨s, piece, hs, hpiece, hout, hyields⟩ := (mem_heldOutputs i).mp hi
  rw [htexts, List.getElem?_map] at hpiece
  rw [Saved.ofText_eq rfl] at hs hpiece
  simp only [map_text_lineOf] at hs hpiece
  rw [getElem?_regroup_nil] at hs
  obtain ⟨group, hgroup, rfl⟩ := Option.map_eq_some_iff.mp hpiece
  rw [hgroup] at hs
  obtain rfl := Option.some.inj hs
  exact absurd (hyields.symm.trans hout) Bool.false_ne_true

theorem mem_heldOutputs_holdOutput {n : Node} {index i : Nat}
    (h : i ∈ (n.holdOutput index).heldOutputs) : i = index ∨ i ∈ n.heldOutputs := by
  obtain ⟨s, text, hs, htext, hout, hyields⟩ := (mem_heldOutputs i).mp h
  rw [statementTexts_holdOutput] at htext
  have hstatements : (n.holdOutput index).statements = hold n.statements index := rfl
  rw [hstatements, getElem?_hold] at hs
  obtain ⟨old, hold, rfl⟩ := Option.map_eq_some_iff.mp hs
  by_cases hi : i = index
  · exact .inl hi
  · rw [if_neg hi] at hout
    exact .inr ((mem_heldOutputs i).mpr ⟨old, text, hold, htext, hout, hyields⟩)

theorem not_mem_inputs_refit {n : Node} (h : ∀ source, some source ∉ n.inputs) :
    ∀ source, some source ∉ n.refit.inputs := by
  intro source hmem
  rcases List.mem_append.mp hmem with hmem | hmem
  · exact h source (List.mem_of_mem_take hmem)
  · cases List.eq_of_mem_replicate hmem

end Node

namespace Diagram

/-- the numbers of all nodes fit where they are read -/
def AllNumbered (d : Diagram) : Prop :=
  ∀ slot n, d.node? slot = some n → Saved.Numbered (slot, n)

variable {d : Diagram}

theorem AllNumbered.wire (h : d.AllNumbered) {slot input : Nat} {source : Source}
    (hsmall : Saved.SmallWire (input, source)) : (d.wire slot input (some source)).AllNumbered := by
  intro other m hm
  rw [node?_wire] at hm
  split at hm
  · obtain ⟨n, hn, rfl⟩ := Option.map_eq_some_iff.mp hm
    have hnumbered := h other n hn
    refine ⟨hnumbered.id, hnumbered.held, fun wire hwire => ?_⟩
    have hget : (n.inputs.set input (some source))[wire.1]? = some (some wire.2) :=
      Node.mem_wires.mp hwire
    by_cases hinput : input = wire.1
    · rw [List.getElem?_set, if_pos hinput] at hget
      split at hget
      · obtain rfl := Option.some.inj (Option.some.inj hget)
        rw [hinput] at hsmall
        exact hsmall
      · cases hget
    · rw [List.getElem?_set_ne hinput] at hget
      exact hnumbered.wires wire (Node.mem_wires.mpr hget)
  · exact h other m hm

theorem AllNumbered.prune (h : d.AllNumbered) : d.prune.AllNumbered := by
  intro slot m hm
  rw [Diagram.prune, node?_mapNodes] at hm
  obtain ⟨n, hn, rfl⟩ := Option.map_eq_some_iff.mp hm
  have hnumbered := h slot n hn
  refine ⟨hnumbered.id, hnumbered.held, fun wire hwire => hnumbered.wires wire ?_⟩
  have hget : (n.inputs.map d.valid?)[wire.1]? = some (some wire.2) := Node.mem_wires.mp hwire
  rw [List.getElem?_map] at hget
  obtain ⟨source, hsource, hvalid⟩ := Option.map_eq_some_iff.mp hget
  obtain ⟨rfl, -⟩ := valid?_eq_some.mp hvalid
  exact Node.mem_wires.mpr hsource

end Diagram

namespace Saved

open Diagram

theorem heldOutputs_holdOutputs (n : Node) (log : List LogLine) (held : List (Nat × Nat)) {i : Nat}
    (h : i ∈ (holdOutputs n log held).1.heldOutputs) :
    i ∈ n.heldOutputs ∨ i ∈ held.map Prod.snd := by
  induction held generalizing n log with
  | nil => exact .inl h
  | cons first rest ih =>
    obtain ⟨line, index⟩ := first
    rw [List.map_cons, List.mem_cons]
    rw [holdOutputs] at h
    split at h
    · next n' hk =>
      obtain ⟨-, rfl⟩ := Node.keepOutput?_some hk
      rcases ih _ _ h with hi | hi
      · rcases Node.mem_heldOutputs_holdOutput hi with hi | hi
        · exact .inr (.inl hi)
        · exact .inl hi
      · exact .inr (.inr hi)
    · rcases ih _ _ h with hi | hi
      · exact .inl hi
      · exact .inr (.inr hi)

theorem inputs_holdOutputs (n : Node) (log : List LogLine) (held : List (Nat × Nat))
    (h : ∀ source, some source ∉ n.inputs) :
    ∀ source, some source ∉ (holdOutputs n log held).1.inputs := by
  refine holdOutputs_keeps (P := fun n => ∀ source, some source ∉ n.inputs) ?_ h log held
  intro n index n' h hk
  obtain ⟨-, rfl⟩ := Node.keepOutput?_some hk
  exact Node.not_mem_inputs_refit h

/-- the numbers of a draft fit where they are read -/
structure Draft.Numbered (draft : Draft) : Prop where
  nodes : draft.diagram.AllNumbered
  connections : ∀ c ∈ draft.connections, c.2.Small

theorem Draft.Numbered.place {draft : Draft} (h : draft.Numbered) (line : Nat) {slot : Nat}
    {n : NodeDraft} (hslot : slot < maxNodeId) (hn : n.Small) :
    (draft.place line slot n).Numbered := by
  refine ⟨fun other m hm => ?_, fun c hc => ?_⟩
  · simp only [Draft.place] at hm
    rw [node?_place] at hm
    split at hm
    · next heq =>
      obtain rfl := Option.some.inj hm
      refine ⟨heq ▸ hslot, fun i hi => ?_, fun wire hwire => ?_⟩
      · have hmem := heldOutputs_holdOutputs _ _ _ hi
        rw [Node.heldOutputs_ofText, List.map_reverse, List.mem_reverse] at hmem
        rcases hmem with hmem | hmem
        · cases hmem
        · exact hn.held i hmem
      · have hplain : ∀ source, some source ∉
            ((Node.ofText (Text.joinLines n.lines.reverse)).moveTo n.x n.y).inputs :=
          fun _ => not_mem_inputs_ofText _
        have hget := Node.mem_wires.mp hwire
        exact absurd (List.mem_of_getElem? hget) (inputs_holdOutputs _ _ _ hplain wire.2)
    · exact h.nodes other m hm
  · rcases List.mem_append.mp hc with hc | hc
    · obtain ⟨written, hwritten, rfl⟩ := List.mem_map.mp hc
      exact hn.connections written hwritten
    · exact h.connections c hc

theorem Draft.Numbered.readNodes (es : List Entry) {draft draft' : Draft} (h : draft.Numbered)
    {fault : Option LoadFault} (hread : Draft.readNodes es draft = (fault, draft')) :
    draft'.Numbered := by
  induction es generalizing draft with
  | nil =>
    obtain ⟨-, rfl⟩ := Prod.mk.inj hread
    exact h
  | cons e rest ih =>
    rw [Draft.readNodes] at hread
    split at hread
    · next slot n hnode =>
      obtain ⟨hslot, hn⟩ := readNode_small hnode
      exact ih (h.place e.line hslot hn) hread
    · obtain ⟨-, rfl⟩ := Prod.mk.inj hread
      exact h

theorem readConnection_small {d : Diagram} {slot : Nat} {c : ConnectionDraft} {source : Source}
    {input : Nat} (hc : c.Small) (h : readConnection d slot c = .ok (source, input)) :
    SmallWire (input, source) := by
  unfold readConnection at h
  split at h
  · next input' id output hinput hid houtput =>
    split at h
    · cases h
    · next hzero =>
      dsimp only at h
      split at h
      · obtain ⟨rfl, rfl⟩ := Prod.mk.inj (Except.ok.inj h)
        have hsource := hc.sourceId id hid
        refine ⟨hc.input _ hinput, ?_, hc.output _ houtput⟩
        show id - 1 + 1 < 2 ^ 64
        omega
      · cases h
  · cases h

theorem allNumbered_connectAll {d : Diagram} (h : d.AllNumbered) (log : List LogLine)
    {connections : List (Nat × ConnectionDraft)} (hsmall : ∀ c ∈ connections, c.2.Small) :
    (connectAll d log connections).1.AllNumbered := by
  induction connections generalizing d log with
  | nil => exact h
  | cons first rest ih =>
    obtain ⟨slot, c⟩ := first
    obtain ⟨hc, hrest⟩ := List.forall_mem_cons.mp hsmall
    rw [connectAll]
    split
    · next source input hread => exact ih (h.wire (readConnection_small hc hread)) _ hrest
    · exact ih h _ hrest

/-- the numbers of a diagram that was loaded fit where they are read -/
theorem allNumbered_load {text : String} {d : Diagram} (h : (load text).result = .ok d) :
    d.AllNumbered := by
  unfold load at h
  split at h
  · next block _ =>
    unfold build at h
    split at h
    · cases h
    · next draft hread =>
      obtain rfl := Except.ok.inj h
      have hempty : Draft.empty.Numbered := by
        refine ⟨fun slot n hn => ?_, fun _ hc => by cases hc⟩
        rw [show Draft.empty.diagram = .empty from rfl, node?_empty] at hn
        cases hn
      have hdraft : draft.Numbered := Draft.Numbered.readNodes _ hempty hread
      refine AllNumbered.prune (allNumbered_connectAll hdraft.nodes _ fun c hc => ?_)
      exact hdraft.connections c (List.mem_reverse.mp hc)
  · cases h

/-! ## loading again -/

/-- both coordinates of a node are written as numbers -/
def Pinned (n : Node) : Prop := isNumberText n.x.text = true ∧ isNumberText n.y.text = true

instance (n : Node) : Decidable (Pinned n) := inferInstanceAs (Decidable (_ ∧ _))

theorem pinned_iff {n : Node} : Pinned n ↔
    n.x ≠ .nan ∧ n.x ≠ .infinity false ∧ n.y ≠ .nan ∧ n.y ≠ .infinity false := by
  rw [Pinned, isNumberText_iff, isNumberText_iff, and_assoc]

variable {e : Entry}

theorem readAxis_fails {tag : String} {x : Single} (htag : tag = "x" ∨ tag = "y")
    (h : e.bare = .scalar tag (coordinate x)) (hx : ¬ isNumberText x.text = true) (n : NodeDraft) :
    ∃ fault, n.readAxis e = .error fault := by
  obtain ⟨hread, hsingle⟩ := asSingle_item h
  rw [if_neg hx] at hsingle
  refine ⟨e.wrongContent, ?_⟩
  rcases htag with rfl | rfl
  · rw [NodeDraft.readAxis, hread, hsingle]
    rfl
  · rw [NodeDraft.readAxis, hread, hsingle]
    rfl

/-- a node with a coordinate that is written as a word cannot be read back -/
theorem readNode_fails {slot : Nat} {n : Node} (hpinned : ¬ Pinned n)
    (h : e.bare = nodeItem (slot, n)) : ∃ fault, readNode e = .error fault := by
  obtain ⟨line, es, rfl, hes⟩ := Entry.eq_of_bare_block h
  obtain ⟨id, es, rfl, -, hes⟩ := List.map_eq_cons_iff.mp hes
  obtain ⟨position, es, rfl, hposition, -⟩ := List.map_eq_cons_iff.mp hes
  obtain ⟨line', axes, rfl, haxes⟩ := Entry.eq_of_bare_block hposition
  obtain ⟨ex, axes, rfl, hex, haxes⟩ := List.map_eq_cons_iff.mp haxes
  obtain ⟨ey, axes, rfl, hey, haxes⟩ := List.map_eq_cons_iff.mp haxes
  obtain rfl := List.map_eq_nil_iff.mp haxes
  have hposition : ∀ d, ∃ fault,
      NodeDraft.readField d (.block "position" line' [ex, ey]) = .error fault := by
    intro d
    show ∃ fault, [ex, ey].foldlM NodeDraft.readAxis d = .error fault
    by_cases hx : isNumberText n.x.text = true
    · have hy : ¬ isNumberText n.y.text = true := fun hy => hpinned ⟨hx, hy⟩
      exact foldlM_fails (List.mem_cons_of_mem ex List.mem_cons_self)
        (readAxis_fails (.inr rfl) hey hy) d
    · exact foldlM_fails List.mem_cons_self (readAxis_fails (.inl rfl) hex hx) d
  obtain ⟨fault, hfault⟩ := foldlM_fails (List.mem_cons_of_mem id List.mem_cons_self) hposition
    NodeDraft.empty
  refine ⟨fault, ?_⟩
  simp only [readNode, Entry.asBlock, bind, Except.bind]
  rw [hfault]

/-- all nodes are read, or one of them is at fault -/
theorem fst_readNodes_eq_none (es : List Entry) (draft : Draft) :
    (Draft.readNodes es draft).1 = none ↔ ∀ e ∈ es, ∃ node, readNode e = .ok node := by
  induction es generalizing draft with
  | nil => exact iff_of_true rfl nofun
  | cons e rest ih =>
    rw [Draft.readNodes, List.forall_mem_cons]
    cases readNode e with
    | error fault => simp
    | ok node => simpa using ih _

theorem isOk_build_iff {block : List Entry} : (∃ d, (build block).result = .ok d) ↔
    ∀ e ∈ block.filter (·.tag == "node"), ∃ node, readNode e = .ok node := by
  rw [build, ← fst_readNodes_eq_none _ .empty]
  cases Draft.readNodes (block.filter (·.tag == "node")) .empty with
  | mk fault draft => cases fault <;> simp

/-- **A diagram can be loaded again just if no coordinate is written `NaN` or `inf`.** -/
theorem load_save_iff {d : Diagram} (h : d.AllNumbered) :
    (∃ d', (load (save d)).result = .ok d') ↔ ∀ slot n, d.node? slot = some n → Pinned n := by
  obtain ⟨block, hblock, hload⟩ := exists_block d
  rw [hload, isOk_build_iff, filter_items hblock]
  constructor
  · intro hread slot n hn
    have hmem : nodeItem (slot, n) ∈ block.map Entry.bare :=
      hblock ▸ List.mem_map_of_mem (mem_existing.mpr hn)
    obtain ⟨e, he, hbare⟩ := List.mem_map.mp hmem
    obtain ⟨node, hnode⟩ := hread e he
    by_contra hpinned
    obtain ⟨fault, hfault⟩ := readNode_fails hpinned hbare
    rw [hnode] at hfault
    cases hfault
  · intro hpinned e he
    have hmem : e.bare ∈ d.existing.map nodeItem := hblock ▸ List.mem_map_of_mem he
    obtain ⟨node, hnode, hbare⟩ := List.mem_map.mp hmem
    have hn : d.node? node.1 = some node.2 := mem_existing.mp hnode
    have hpin : Pinned node.2 := hpinned node.1 node.2 hn
    obtain ⟨draft, -, hread⟩ := readNode_item (h node.1 node.2 hn) hpin.1 hpin.2 hbare.symm
    exact ⟨(node.1, draft), hread⟩

/-- **What can be loaded can be loaded again once it is saved**, just if no coordinate of it is
`NaN` or positive infinity; a negative infinity does no harm. -/
theorem load_save_of_load_iff {text : String} {d : Diagram} (h : (load text).result = .ok d) :
    (∃ d', (load (save d)).result = .ok d') ↔ ∀ slot n, d.node? slot = some n →
      n.x ≠ .nan ∧ n.x ≠ .infinity false ∧ n.y ≠ .nan ∧ n.y ≠ .infinity false := by
  rw [load_save_iff (allNumbered_load h)]
  exact forall₃_congr fun _ _ _ => pinned_iff

/-- a text with one node, far to the right or to the left -/
def lonely (x : String) : String :=
  "diagram \x7b node \x7b id: 1 position \x7b x: " ++ x ++ " \x7d line: \"\" \x7d \x7d"

/-- the diagram of such a text -/
def lonelyAt (x : Single) : Diagram := ⟨#[some { Node.ofText "" with x := x }]⟩

/-- a diagram is known by its slots -/
theorem load_of_slots {text : String} {d : Diagram}
    (h : (load text).result.map Diagram.slots = .ok d.slots) : (load text).result = .ok d := by
  obtain ⟨d', hd', hslots⟩ := except_map_ok h
  rw [hd']
  exact congrArg (fun slots => Except.ok (Diagram.mk slots)) hslots

/-- too far to the left does no harm -/
theorem load_save_left : (load (lonely "-1e39")).result = .ok (lonelyAt (.infinity true)) ∧
    ∃ d', (load (save (lonelyAt (.infinity true)))).result = .ok d' := by
  have hload : (load (lonely "-1e39")).result = .ok (lonelyAt (.infinity true)) :=
    load_of_slots (by decide +kernel)
  refine ⟨hload, (load_save_of_load_iff hload).mpr fun slot n hn => ?_⟩
  have hmem : (slot, n) ∈ [(0, { Node.ofText "" with x := .infinity true })] := mem_existing.mpr hn
  obtain ⟨-, rfl⟩ := Prod.mk.inj (List.mem_singleton.mp hmem)
  decide +kernel

/-- too far to the right is written `inf`, which is not read as a number -/
theorem load_save_right : (load (lonely "1e39")).result = .ok (lonelyAt (.infinity false)) ∧
    (load (save (lonelyAt (.infinity false)))).result = .error (.wrongContent 5 "x") := by
  refine ⟨load_of_slots (by decide +kernel), ?_⟩
  have hslots : (load (save (lonelyAt (.infinity false)))).result.map Diagram.slots =
      .error (.wrongContent 5 "x") := by decide +kernel
  cases hload : (load (save (lonelyAt (.infinity false)))).result with
  | error fault =>
    rw [hload] at hslots
    cases hslots
    rfl
  | ok d =>
    rw [hload] at hslots
    cases hslots

end Saved

end Dataflow
