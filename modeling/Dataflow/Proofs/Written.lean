import Mathlib.Data.List.Forall2
import Dataflow.Proofs.Decimal
import Dataflow.Proofs.Item
import Dataflow.Proofs.Rebuild

/-!
# A saved diagram as entries

* `nodeItem`, `diagramItem`   what is written of a node and of a diagram;
* `save_eq`                   the saved form is their text;
* `NodeDraft.Of`              a draft says what a node is, but for the lines of the text;
* `readNode_item`             reading what is written of a node gives such a draft.
-/

namespace Dataflow

/-- the inputs that are wired, with their sources, in ascending order -/
def Node.wires (n : Node) : List (Nat × Source) :=
  n.inputs.zipIdx.filterMap fun (source, input) => source.map fun s => (input, s)

namespace Saved

def indexItem (tag : String) (n : Nat) : Item := .scalar tag (.number (toString n))

def connectionItem (wire : Nat × Source) : Item :=
  .block "connection" [indexItem "input_index" wire.1,
    indexItem "source_node_id" (wire.2.node + 1), indexItem "source_output_index" wire.2.output]

def lineItem (line : Line) : Item := .scalar "line" (.string line.text)

/-- what a number is cut into once it is written: `NaN` and `inf` make words -/
def coordinate (x : Single) : Lexeme :=
  if isNumberText x.text then .number x.text else .word x.text

def positionItem (x y : Single) : Item :=
  .block "position" [.scalar "x" (coordinate x), .scalar "y" (coordinate y)]

def nodeItem (node : Nat × Node) : Item :=
  .block "node" (indexItem "id" (node.1 + 1) :: positionItem node.2.x node.2.y ::
    (node.2.lines.map lineItem ++ node.2.heldOutputs.map (indexItem "sticky_output")
      ++ node.2.wires.map connectionItem))

def diagramItem (d : Diagram) : Item := .block "diagram" (d.existing.map nodeItem)

/-! ## the text of a diagram -/

theorem join_cons (s : String) (l : List String) : String.join (s :: l) = s ++ String.join l := by
  have hfoldl : ∀ (l : List String) (a : String),
      l.foldl (fun r s => r ++ s) a = a ++ l.foldl (fun r s => r ++ s) "" := by
    intro l
    induction l with
    | nil => simp
    | cons t l ih =>
      intro a
      rw [List.foldl_cons, List.foldl_cons, ih, ih ("" ++ t), String.empty_append,
        String.append_assoc]
  rw [String.join, List.foldl_cons, hfoldl, String.empty_append, String.join]

theorem texts_append (depth : Nat) (items more : List Item) :
    Item.texts depth (items ++ more) = Item.texts depth items ++ Item.texts depth more := by
  induction items with
  | nil => simp [Item.texts]
  | cons item items ih => rw [List.cons_append, Item.texts, Item.texts, ih, String.append_assoc]

theorem join_map {α : Type} (depth : Nat) {text : α → String} {item : α → Item}
    (h : ∀ a, text a = (item a).text depth) (l : List α) :
    String.join (l.map text) = Item.texts depth (l.map item) := by
  induction l with
  | nil => rfl
  | cons a l ih => rw [List.map_cons, join_cons, ih, List.map_cons, Item.texts, h]

theorem join_connectionText (inputs : List (Option Source × Nat)) :
    String.join (inputs.map fun (source, input) => connectionText source input) =
      Item.texts 2 ((inputs.filterMap fun (source, input) => source.map fun s => (input, s)).map
        connectionItem) := by
  induction inputs with
  | nil => rfl
  | cons first rest ih =>
    obtain ⟨source, input⟩ := first
    rw [List.map_cons, join_cons, ih]
    cases source with
    | none => simp [connectionText]
    | some source =>
      simp [connectionText, connectionItem, indexItem, Item.texts, Item.text, Lexeme.written,
        String.append_assoc]

theorem written_coordinate (x : Single) : (coordinate x).written = x.text := by
  unfold coordinate
  split <;> rfl

theorem nodeText_eq (node : Nat × Node) : nodeText node.1 node.2 = (nodeItem node).text 1 := by
  obtain ⟨slot, n⟩ := node
  have hline : ∀ line : Line, valueText 2 "line" (Text.quote line.text) = (lineItem line).text 2 :=
    fun _ => rfl
  have hindex : ∀ index : Nat, valueText 2 "sticky_output" (toString index) =
      (indexItem "sticky_output" index).text 2 := fun _ => rfl
  have hlines : String.join (n.lines.map fun line => valueText 2 "line" (Text.quote line.text)) =
      Item.texts 2 (n.lines.map lineItem) := join_map 2 hline _
  have hheld : String.join (n.heldOutputs.map fun s => valueText 2 "sticky_output" (toString s)) =
      Item.texts 2 (n.heldOutputs.map (indexItem "sticky_output")) := join_map 2 hindex _
  rw [nodeText, join_connectionText, hlines, hheld]
  simp only [nodeItem, Item.text, Item.texts, texts_append, Node.wires, indexItem, positionItem,
    written_coordinate]
  simp only [Lexeme.written, String.append_assoc, String.append_empty]

/-- the saved form is the text of one item -/
theorem save_eq (d : Diagram) : save d = Item.texts 0 [diagramItem d] := by
  have hnodes : String.join (d.existing.map fun node => nodeText node.1 node.2) =
      Item.texts 1 (d.existing.map nodeItem) := join_map 1 nodeText_eq _
  show blockText 0 "diagram" (String.join (d.existing.map fun node => nodeText node.1 node.2)) = _
  rw [hnodes]
  simp [diagramItem, Item.texts, Item.text]

/-! ## what is written can be read -/

theorem isNumberText_toString (n : Nat) : isNumberText (toString n) = true := by
  have hdigits : ∀ c ∈ Nat.toDigits 10 n, c.isDigit = true :=
    fun c hc => Nat.isDigit_of_mem_toDigits (by decide) (by decide) hc
  obtain ⟨c, rest, hcons⟩ := List.exists_cons_of_ne_nil (Nat.toDigits_ne_nil (n := n) (b := 10))
  rw [hcons] at hdigits
  obtain ⟨hc, hrest⟩ := List.forall_mem_cons.mp hdigits
  have hlist : (toString n).toList = c :: rest := by
    rw [Nat.toString_eq_ofList_toDigits, String.toList_ofList, hcons]
  simp only [isNumberText, hlist, isNumberStart, hc, Bool.true_or, Bool.true_and, List.all_eq_true]
  intro u hu
  simp [isNumberPart, Char.isAlphanum, hrest u hu]

theorem isNumberText_single {x : Single} (h : x.isFinite = true) :
    isNumberText x.text = true := by
  obtain ⟨c, rest, hcons, hc, hrest⟩ := x.chars_spec h
  have hlist : x.text.toList = c :: rest := by rw [Binary.text, String.toList_ofList, hcons]
  simp only [isNumberText, hlist, Bool.and_eq_true, List.all_eq_true]
  refine ⟨?_, fun u hu => ?_⟩
  · rcases hc with hc | rfl
    · simp [isNumberStart, hc]
    · rfl
  · rcases hrest u hu with hu | rfl
    · simp [isNumberPart, Char.isAlphanum, hu]
    · rfl

/-- a number is written as a number unless it is written `NaN` or `inf` -/
theorem isNumberText_iff {x : Single} :
    isNumberText x.text = true ↔ x ≠ .nan ∧ x ≠ .infinity false := by
  cases hfinite : x.isFinite with
  | true =>
    refine iff_of_true (isNumberText_single hfinite) ⟨?_, ?_⟩
    · rintro rfl
      cases hfinite
    · rintro rfl
      simp [Binary.infinity, Binary.isFinite] at hfinite
  | false =>
    cases x with
    | nan => decide +kernel
    | signed negative rank hle =>
      have htop : rank = Format.single.top := by
        have hge : ¬ rank < Format.single.top := by simpa [Binary.isFinite] using hfinite
        omega
      subst htop
      show isNumberText (Binary.infinity negative : Single).text = true ↔
        (Binary.infinity negative : Single) ≠ .nan ∧
          (Binary.infinity negative : Single) ≠ .infinity false
      cases negative <;> decide +kernel

theorem isValue_coordinate (x : Single) : (coordinate x).isValue = true := by
  unfold coordinate
  split
  · next h => exact h
  · next h =>
    have hword : x = .nan ∨ x = .infinity false := by
      rw [isNumberText_iff] at h
      tauto
    rcases hword with rfl | rfl <;> decide +kernel

theorem good_index {tag : String} (ht : isTag tag = true) (n : Nat) : (indexItem tag n).Good :=
  ⟨ht, isNumberText_toString n⟩

theorem good_connection (wire : Nat × Source) : (connectionItem wire).Good := by
  refine ⟨by decide +kernel, good_index ?_ _, good_index ?_ _, good_index ?_ _, trivial⟩
  · decide +kernel
  · decide +kernel
  · decide +kernel

theorem good_node (node : Nat × Node) : (nodeItem node).Good := by
  refine ⟨by decide +kernel, good_index (by decide +kernel) _, ⟨by decide +kernel,
    ⟨by decide +kernel, isValue_coordinate _⟩, ⟨by decide +kernel, isValue_coordinate _⟩,
    trivial⟩, ?_⟩
  rw [Item.allGood_iff]
  intro item hitem
  rcases List.mem_append.mp hitem with hitem | hitem
  · rcases List.mem_append.mp hitem with hitem | hitem
    · obtain ⟨line, -, rfl⟩ := List.mem_map.mp hitem
      exact ⟨by decide +kernel, rfl⟩
    · obtain ⟨index, -, rfl⟩ := List.mem_map.mp hitem
      exact good_index (by decide +kernel) index
  · obtain ⟨wire, -, rfl⟩ := List.mem_map.mp hitem
    exact good_connection wire

/-! ## reading fields -/

/-- numbers below `2 ^ 64` are read back as indices -/
theorem readIndex?_toString {n : Nat} (h : n < 2 ^ 64) : readIndex? (toString n) = some n := by
  have hdigits : ∀ c ∈ Nat.toDigits 10 n, c.isDigit = true :=
    fun c hc => Nat.isDigit_of_mem_toDigits (by decide) (by decide) hc
  have hlist : (toString n).toList = Nat.toDigits 10 n := by
    rw [Nat.toString_eq_ofList_toDigits, String.toList_ofList]
  have hplus : ∀ rest, Nat.toDigits 10 n ≠ '+' :: rest := by
    intro rest heq
    have hc := hdigits '+' (heq ▸ List.mem_cons_self)
    cases hc
  unfold readIndex?
  rw [hlist]
  dsimp only
  split
  · next digits rest heq => exact absurd heq (hplus rest)
  · rw [if_pos ⟨Nat.toDigits_ne_nil, List.all_eq_true.mpr hdigits⟩, Numeral.digitsValue_toDigits]
    exact if_pos h

variable {e : Entry}

theorem asIndex_item {tag : String} {n : Nat} (h : e.bare = indexItem tag n) (hn : n < 2 ^ 64) :
    e.tag = tag ∧ e.asIndex = .ok n := by
  obtain ⟨line, rfl⟩ := Entry.eq_of_bare_scalar h
  refine ⟨rfl, ?_⟩
  simp only [Entry.asIndex, Entry.asNumber, readIndex?_toString hn]

/-- a coordinate is read back if it is written as a number -/
theorem asSingle_item {tag : String} {x : Single} (h : e.bare = .scalar tag (coordinate x)) :
    e.tag = tag ∧
      e.asSingle = if isNumberText x.text then .ok x else .error e.wrongContent := by
  obtain ⟨line, rfl⟩ := Entry.eq_of_bare_scalar h
  refine ⟨rfl, ?_⟩
  have hread : Binary.read? x.text.toList = some x := by
    rw [Binary.text, String.toList_ofList]
    cases hfinite : x.isFinite with
    | true => exact x.read?_chars hfinite
    | false => exact x.read?_chars_of_not_finite hfinite
  unfold coordinate
  split
  · simp only [Entry.asSingle, Entry.asNumber, hread]
  · rfl

/-- a draft of a connection says what a wire is -/
def ConnectionDraft.Of (wire : Nat × Source) (c : ConnectionDraft) : Prop :=
  c.input = some wire.1 ∧ c.sourceId = some (wire.2.node + 1) ∧ c.output = some wire.2.output

/-- the numbers of a wire fit into 64 bits -/
def SmallWire (wire : Nat × Source) : Prop :=
  wire.1 < 2 ^ 64 ∧ wire.2.node + 1 < 2 ^ 64 ∧ wire.2.output < 2 ^ 64

theorem readFields_connection {es : List Entry} {wire : Nat × Source} (hsmall : SmallWire wire)
    (h : es.map Entry.bare = [indexItem "input_index" wire.1,
      indexItem "source_node_id" (wire.2.node + 1),
      indexItem "source_output_index" wire.2.output]) (line : Nat) :
    ∃ c, c.Of wire ∧ es.foldlM ConnectionDraft.readField ⟨line, none, none, none⟩ = .ok c := by
  obtain ⟨input, es, rfl, hinput, hes⟩ := List.map_eq_cons_iff.mp h
  obtain ⟨node, es, rfl, hnode, hes⟩ := List.map_eq_cons_iff.mp hes
  obtain ⟨output, es, rfl, houtput, hes⟩ := List.map_eq_cons_iff.mp hes
  obtain rfl := List.map_eq_nil_iff.mp hes
  obtain ⟨htag, hread⟩ := asIndex_item hinput hsmall.1
  obtain ⟨htag', hread'⟩ := asIndex_item hnode hsmall.2.1
  obtain ⟨htag'', hread''⟩ := asIndex_item houtput hsmall.2.2
  refine ⟨⟨line, some wire.1, some (wire.2.node + 1), some wire.2.output⟩, ⟨rfl, rfl, rfl⟩, ?_⟩
  simp [ConnectionDraft.readField, htag, hread, htag', hread', htag'', hread'', Except.map, bind,
    Except.bind, pure, Except.pure]

namespace NodeDraft

variable {es : List Entry}

theorem readField_id {slot : Nat} (h : e.bare = indexItem "id" (slot + 1)) (hid : slot < maxNodeId)
    (d : NodeDraft) : readField d e = .ok { d with id := some (slot + 1) } := by
  unfold maxNodeId at hid
  obtain ⟨htag, hread⟩ := asIndex_item h (by omega)
  have hgood : ¬ (slot + 1 = 0 ∨ maxNodeId < slot + 1) := by
    unfold maxNodeId
    omega
  have hreadId : e.asNodeId = .ok (slot + 1) := by
    simp only [Entry.asNodeId, hread, bind, Except.bind, hgood, if_false, pure, Except.pure]
  simp [readField, htag, hreadId, Except.map]

theorem readField_position {x y : Single} (h : e.bare = positionItem x y)
    (hx : isNumberText x.text = true) (hy : isNumberText y.text = true) (d : NodeDraft) :
    readField d e = .ok { d with x := x, y := y } := by
  obtain ⟨line, es, rfl, hes⟩ := Entry.eq_of_bare_block h
  obtain ⟨ex, es, rfl, hex, hes⟩ := List.map_eq_cons_iff.mp hes
  obtain ⟨ey, es, rfl, hey, hes⟩ := List.map_eq_cons_iff.mp hes
  obtain rfl := List.map_eq_nil_iff.mp hes
  obtain ⟨htag, hread⟩ := asSingle_item hex
  obtain ⟨htag', hread'⟩ := asSingle_item hey
  rw [if_pos hx] at hread
  rw [if_pos hy] at hread'
  have haxis : ∀ d, readAxis d ex = .ok { d with x := x } := by
    intro d
    simp [readAxis, htag, hread, Except.map]
  have haxis' : ∀ d, readAxis d ey = .ok { d with y := y } := by
    intro d
    simp [readAxis, htag', hread', Except.map]
  show [ex, ey].foldlM readAxis d = _
  simp [haxis, haxis', bind, Except.bind, pure, Except.pure]

theorem readFields_lines {lines : List Line} (h : es.map Entry.bare = lines.map lineItem)
    (d : NodeDraft) :
    es.foldlM readField d = .ok { d with lines := (lines.map Line.text).reverse ++ d.lines } := by
  induction lines generalizing es d with
  | nil =>
    obtain rfl := List.map_eq_nil_iff.mp h
    rfl
  | cons line lines ih =>
    obtain ⟨e, es, rfl, he, hes⟩ := List.map_eq_cons_iff.mp h
    obtain ⟨at', rfl⟩ := Entry.eq_of_bare_scalar he
    have hread : readField d (.scalar "line" at' (.string line.text)) =
        .ok { d with lines := line.text :: d.lines } := rfl
    rw [List.foldlM_cons, hread]
    show es.foldlM readField { d with lines := line.text :: d.lines } = _
    rw [ih hes]
    simp

theorem readFields_held {indices : List Nat} (hsmall : ∀ index ∈ indices, index < 2 ^ 64)
    (h : es.map Entry.bare = indices.map (indexItem "sticky_output")) (d : NodeDraft) :
    ∃ held : List (Nat × Nat), held.map Prod.snd = indices ∧
      es.foldlM readField d = .ok { d with held := held.reverse ++ d.held } := by
  induction indices generalizing es d with
  | nil =>
    obtain rfl := List.map_eq_nil_iff.mp h
    exact ⟨[], rfl, rfl⟩
  | cons index indices ih =>
    obtain ⟨e, es, rfl, he, hes⟩ := List.map_eq_cons_iff.mp h
    obtain ⟨hindex, hindices⟩ := List.forall_mem_cons.mp hsmall
    obtain ⟨htag, hread⟩ := asIndex_item he hindex
    obtain ⟨held, hheld, hfold⟩ := ih hindices hes { d with held := (e.line, index) :: d.held }
    refine ⟨(e.line, index) :: held, by rw [List.map_cons, hheld], ?_⟩
    have hfield : readField d e = .ok { d with held := (e.line, index) :: d.held } := by
      simp [readField, htag, hread, Except.map]
    rw [List.foldlM_cons, hfield]
    show es.foldlM readField { d with held := (e.line, index) :: d.held } = _
    rw [hfold]
    simp

theorem readFields_connections {wires : List (Nat × Source)}
    (hsmall : ∀ wire ∈ wires, SmallWire wire) (h : es.map Entry.bare = wires.map connectionItem) (d : NodeDraft) :
    ∃ cs : List ConnectionDraft, List.Forall₂ ConnectionDraft.Of wires cs ∧
      es.foldlM readField d = .ok { d with connections := cs.reverse ++ d.connections } := by
  induction wires generalizing es d with
  | nil =>
    obtain rfl := List.map_eq_nil_iff.mp h
    exact ⟨[], .nil, rfl⟩
  | cons wire wires ih =>
    obtain ⟨e, es, rfl, he, hes⟩ := List.map_eq_cons_iff.mp h
    obtain ⟨hwire, hwires⟩ := List.forall_mem_cons.mp hsmall
    obtain ⟨at', fields, rfl, hfields⟩ := Entry.eq_of_bare_block he
    obtain ⟨c, hc, hread⟩ := readFields_connection hwire hfields at'
    obtain ⟨cs, hcs, hfold⟩ := ih hwires hes { d with connections := c :: d.connections }
    refine ⟨c :: cs, .cons hc hcs, ?_⟩
    have hfield : readField d (.block "connection" at' fields) =
        .ok { d with connections := c :: d.connections } := by
      simp [readField, Entry.tag, Entry.asBlock, Entry.line, hread, bind, Except.bind, pure,
        Except.pure]
    rw [List.foldlM_cons, hfield]
    show es.foldlM readField { d with connections := c :: d.connections } = _
    rw [hfold]
    simp

/-- a draft says what a node is, but for the lines of the text -/
structure Of (node : Nat × Node) (d : NodeDraft) : Prop where
  x : d.x = node.2.x
  y : d.y = node.2.y
  lines : d.lines.reverse = node.2.lines.map Line.text
  held : d.held.reverse.map Prod.snd = node.2.heldOutputs
  connections : List.Forall₂ ConnectionDraft.Of node.2.wires d.connections.reverse

end NodeDraft

/-- the numbers of a node fit where they are read -/
structure Numbered (node : Nat × Node) : Prop where
  id : node.1 < maxNodeId
  held : ∀ index ∈ node.2.heldOutputs, index < 2 ^ 64
  wires : ∀ wire ∈ node.2.wires, SmallWire wire

/-- what a node has to be to be read back -/
structure Writable (node : Nat × Node) : Prop where
  shaped : node.2.Shaped
  id : node.1 < maxNodeId
  x : node.2.x.isFinite = true
  y : node.2.y.isFinite = true
  lines : ∀ line ∈ node.2.lines, line.text.toList.getLast? ≠ some '\r'
  held : ∀ index ∈ node.2.heldOutputs, index < 2 ^ 64
  wires : ∀ wire ∈ node.2.wires, SmallWire wire

theorem Writable.numbered {node : Nat × Node} (h : Writable node) : Numbered node :=
  ⟨h.id, h.held, h.wires⟩

/-- reading what is written of a node gives a draft that says what it is -/
theorem readNode_item {e : Entry} {node : Nat × Node} (hw : Numbered node)
    (hx : isNumberText node.2.x.text = true) (hy : isNumberText node.2.y.text = true)
    (h : e.bare = nodeItem node) : ∃ d, d.Of node ∧ readNode e = .ok (node.1, d) := by
  obtain ⟨slot, n⟩ := node
  obtain ⟨line, es, rfl, hes⟩ := Entry.eq_of_bare_block h
  obtain ⟨id, es, rfl, hid, hes⟩ := List.map_eq_cons_iff.mp hes
  obtain ⟨position, es, rfl, hposition, hes⟩ := List.map_eq_cons_iff.mp hes
  obtain ⟨es, connections, rfl, hes, hconnections⟩ := List.map_eq_append_iff.mp hes
  obtain ⟨lines, held, rfl, hlines, hheld⟩ := List.map_eq_append_iff.mp hes
  obtain ⟨indices, hindices, hreadHeld⟩ := NodeDraft.readFields_held hw.held hheld
    ⟨some (slot + 1), n.x, n.y, (n.lines.map Line.text).reverse, [], []⟩
  obtain ⟨cs, hcs, hreadConnections⟩ := NodeDraft.readFields_connections hw.wires hconnections
    ⟨some (slot + 1), n.x, n.y, (n.lines.map Line.text).reverse, indices.reverse, []⟩
  have hreadId := NodeDraft.readField_id hid hw.id .empty
  have hreadPosition := NodeDraft.readField_position hposition hx hy
    { NodeDraft.empty with id := some (slot + 1) }
  have hreadLines := NodeDraft.readFields_lines hlines ⟨some (slot + 1), n.x, n.y, [], [], []⟩
  rw [List.append_nil] at hreadLines hreadHeld hreadConnections
  have hfields : (id :: position :: (lines ++ held ++ connections)).foldlM NodeDraft.readField
      .empty = .ok ⟨some (slot + 1), n.x, n.y, (n.lines.map Line.text).reverse, indices.reverse,
        cs.reverse⟩ := by
    rw [List.foldlM_cons, hreadId]
    show (position :: (lines ++ held ++ connections)).foldlM NodeDraft.readField
      { NodeDraft.empty with id := some (slot + 1) } = _
    rw [List.foldlM_cons, hreadPosition]
    show (lines ++ held ++ connections).foldlM NodeDraft.readField
      ⟨some (slot + 1), n.x, n.y, [], [], []⟩ = _
    rw [List.foldlM_append, List.foldlM_append, hreadLines]
    show held.foldlM NodeDraft.readField _ >>= _ = _
    rw [hreadHeld]
    exact hreadConnections
  refine ⟨_, ?_, by simp only [readNode, Entry.asBlock, bind, Except.bind, hfields]; rfl⟩
  refine ⟨rfl, rfl, List.reverse_reverse _, ?_, ?_⟩
  · rw [List.reverse_reverse, hindices]
  · rw [List.reverse_reverse]
    exact hcs

end Saved

end Dataflow
