import Mathlib.Data.List.Nodup
import Dataflow.Proofs.Assembly

/-!
# The order of a saved text

* `Shuffled`           lists that differ in the order between members with different keys only;
* `NodeReordered`      the fields of a node in another order, those with the same tag in theirs, and
                       so for the entries of its positions and connections;
* `DiagramReordered`   the nodes in any order, with their fields reordered;
* `load_reordered`     a text with nodes of different numbers loads as before when it is reordered.
-/

namespace Dataflow

section

variable {α β κ : Type} [DecidableEq κ] {key : α → κ} {xs ys : List α}

/-- the same list but for the order between members with different keys -/
def Shuffled (key : α → κ) (xs ys : List α) : Prop :=
  ∀ k, xs.filter (key · == k) = ys.filter (key · == k)

theorem Shuffled.mem_iff (h : Shuffled key xs ys) {x : α} : x ∈ xs ↔ x ∈ ys := by
  have hmem : ∀ zs : List α, x ∈ zs ↔ x ∈ zs.filter (key · == key x) := by
    intro zs
    rw [List.mem_filter]
    exact (and_iff_left (by simp)).symm
  rw [hmem xs, hmem ys, h]

theorem Shuffled.map {f : α → β} {key' : β → κ} (hkey : ∀ x, key' (f x) = key x)
    (h : Shuffled key xs ys) : Shuffled key' (xs.map f) (ys.map f) := by
  intro k
  have hcomp : (key' · == k) ∘ f = (key · == k) := funext fun x => by
    rw [Function.comp_apply, hkey]
  rw [List.filter_map, List.filter_map, hcomp, h]

/-- neighbours with different keys change places -/
theorem Shuffled.swap {a b : α} (h : key a ≠ key b) (l : List α) :
    Shuffled key (a :: b :: l) (b :: a :: l) := by
  intro k
  by_cases ha : key a = k
  · have hb : key b ≠ k := fun hb => h (ha.trans hb.symm)
    simp [ha, hb]
  · simp [List.filter_cons, ha]

/-- where every key stands once, any order is as good -/
theorem Shuffled.of_perm (h : xs.Perm ys) (hnodup : (xs.map key).Nodup) : Shuffled key xs ys := by
  intro k
  have hperm := h.filter (key · == k)
  have hkeys : (xs.filter (key · == k)).map key =
      List.replicate (xs.filter (key · == k)).length k := by
    refine List.eq_replicate_iff.mpr ⟨List.length_map _, fun found hfound => ?_⟩
    obtain ⟨x, hx, rfl⟩ := List.mem_map.mp hfound
    exact beq_iff_eq.mp (List.mem_filter.mp hx).2
  have hsub : ((xs.filter (key · == k)).map key).Nodup := hnodup.sublist (List.filter_sublist.map key)
  rw [hkeys, List.nodup_replicate] at hsub
  generalize xs.filter (key · == k) = found at hperm hsub
  match found, hsub with
  | [], _ => exact (List.nil_perm.mp hperm).symm
  | [x], _ => exact List.singleton_perm.mp hperm

end

namespace Saved

/-- the same item, or blocks with one of the tags whose items are related -/
inductive Item.Within (tags : List String) (R : List Item → List Item → Prop) :
    Item → Item → Prop where
  | same {item : Item} : Within tags R item item
  | block {tag : String} {inner inner' : List Item} : tag ∈ tags → R inner inner' →
    Within tags R (.block tag inner) (.block tag inner')

/-- fields with different tags in another order, and so in positions and connections -/
def NodeReordered (items items' : List Item) : Prop :=
  ∃ mid, Shuffled Item.tag items mid ∧
    List.Forall₂ (Item.Within ["position", "connection"] (Shuffled Item.tag)) mid items'

/-- blocks in any order, with the fields of nodes reordered -/
def DiagramReordered (items items' : List Item) : Prop :=
  ∃ mid, items.Perm mid ∧ List.Forall₂ (Item.Within ["node"] NodeReordered) mid items'

/-! ## fields -/

section

variable {α : Type} {tag : String} {read : Entry → Except LoadFault α} {e e' : Entry}
  {es es' : List Entry}

theorem gather_shuffled (h : Shuffled Entry.tag es es') : gather tag read es = gather tag read es' := by
  rw [gather, h tag]
  rfl

/-- fields that a node cannot tell apart -/
structure Entry.Same (e e' : Entry) : Prop where
  tag : e.tag = e'.tag
  id : e.asNodeId = e'.asNodeId
  axis : ∀ tag, e.axis tag = e'.axis tag
  text : e.asString = e'.asString
  held : e.held = e'.held
  connection : e.connection = e'.connection
  readable : e.Readable ↔ e'.Readable

theorem gather_same (h : List.Forall₂ Entry.Same es es')
    (hread : ∀ e e', e.Same e' → read e = read e') : gather tag read es = gather tag read es' := by
  induction h with
  | nil => rfl
  | @cons e e' es es' he _ ih =>
    have hfirst : gather tag read [e] = gather tag read [e'] := by
      simp only [gather, List.filter_cons, he.tag, List.filter_nil]
      split
      · rw [List.filterMap_cons, List.filterMap_cons, hread e e' he]
      · rfl
    rw [← List.singleton_append, gather_append, ih, hfirst, ← gather_append]
    rfl

theorem describe_shuffled (h : Shuffled Entry.tag es es') : describe es = describe es' := by
  simp only [describe, gather_shuffled h]

theorem describe_same (h : List.Forall₂ Entry.Same es es') : describe es = describe es' := by
  have haxis : ∀ tag, gather "position" (Entry.axis tag) es =
      gather "position" (Entry.axis tag) es' := fun tag => gather_same h fun _ _ he => he.axis tag
  have hid : gather "id" Entry.asNodeId es = gather "id" Entry.asNodeId es' :=
    gather_same h fun _ _ he => he.id
  have htext : gather "line" Entry.asString es = gather "line" Entry.asString es' :=
    gather_same h fun _ _ he => he.text
  have hheld : gather "sticky_output" Entry.held es = gather "sticky_output" Entry.held es' :=
    gather_same h fun _ _ he => he.held
  have hconnection : gather "connection" Entry.connection es =
      gather "connection" Entry.connection es' := gather_same h fun _ _ he => he.connection
  rw [describe, describe, hid, haxis, haxis, htext, hheld, hconnection]

theorem describeConnection_shuffled (h : Shuffled Entry.tag es es') (line : Nat) :
    describeConnection line es = describeConnection line es' := by
  simp only [describeConnection, gather_shuffled h]

/-- whether entries can be read does not depend on their order -/
theorem isOk_foldlM_shuffled {f : α → Entry → Except LoadFault α}
    (hf : ∀ a b e, (f a e).isOk = (f b e).isOk) (h : Shuffled Entry.tag es es') (a : α) :
    (es.foldlM f a).isOk = (es'.foldlM f a).isOk := by
  rw [isOk_foldlM hf es a a, isOk_foldlM hf es' a a, Bool.eq_iff_iff, List.all_eq_true,
    List.all_eq_true]
  exact forall_congr' fun e => imp_congr_left h.mem_iff

/-- a position or a connection with its entries in another order -/
theorem same_block (htag : tag ∈ ["position", "connection"]) (h : Shuffled Entry.tag es es') :
    Entry.Same (.block tag 0 es) (.block tag 0 es') where
  tag := rfl
  id := rfl
  axis axis := congrArg Except.ok (gather_shuffled h)
  text := rfl
  held := rfl
  connection := congrArg Except.ok (describeConnection_shuffled h 0)
  readable := by
    rcases List.mem_cons.mp htag with rfl | htag
    · show (es.foldlM NodeDraft.readAxis .empty).isOk = true ↔
        (es'.foldlM NodeDraft.readAxis .empty).isOk = true
      rw [isOk_foldlM_shuffled NodeDraft.isOk_readAxis h]
    · obtain rfl := List.mem_singleton.mp htag
      show ((es.foldlM ConnectionDraft.readField _).map _).isOk = true ↔
        ((es'.foldlM ConnectionDraft.readField _).map _).isOk = true
      rw [isOk_map, isOk_map, isOk_foldlM_shuffled ConnectionDraft.isOk_readField h]
      exact Iff.rfl

end

/-! ## nodes -/

variable {item item' : Item} {items items' block block' : List Item}

theorem same_of_within (h : Item.Within ["position", "connection"] (Shuffled Item.tag) item item') :
    Entry.Same item.entry item'.entry := by
  cases h with
  | same => exact ⟨rfl, rfl, fun _ => rfl, rfl, rfl, rfl, Iff.rfl⟩
  | block htag hinner =>
    rw [Item.entry, Item.entry, Item.entries_eq_map, Item.entries_eq_map]
    exact same_block htag (hinner.map Item.tag_entry)

/-- the fields of a node in another order say the same -/
theorem NodeReordered.describe_eq (h : NodeReordered items items') :
    describe (items.map Item.entry) = describe (items'.map Item.entry) ∧
      ((∀ e ∈ items.map Item.entry, e.Readable) ↔ ∀ e ∈ items'.map Item.entry, e.Readable) := by
  obtain ⟨mid, hshuffled, hwithin⟩ := h
  have hentries : Shuffled Entry.tag (items.map Item.entry) (mid.map Item.entry) :=
    hshuffled.map Item.tag_entry
  have hsame : List.Forall₂ Entry.Same (mid.map Item.entry) (items'.map Item.entry) := by
    rw [List.forall₂_map_left_iff, List.forall₂_map_right_iff]
    exact hwithin.imp fun _ _ => same_of_within
  refine ⟨(describe_shuffled hentries).trans (describe_same hsame), ?_⟩
  have hmid : (∀ e ∈ items.map Item.entry, e.Readable) ↔ ∀ e ∈ mid.map Item.entry, e.Readable :=
    forall_congr' fun e => imp_congr_left hentries.mem_iff
  rw [hmid]
  clear hentries hmid hshuffled hwithin
  generalize mid.map Item.entry = es at hsame
  generalize items'.map Item.entry = es' at hsame
  induction hsame with
  | nil => exact iff_of_true nofun nofun
  | cons he _ ih =>
    rw [List.forall_mem_cons, List.forall_mem_cons]
    exact and_congr he.readable ih

theorem Item.Within.tag_eq {tags : List String} {R : List Item → List Item → Prop}
    (h : Item.Within tags R item item') : item.tag = item'.tag := by
  cases h <;> rfl

theorem readNode_within (h : Item.Within ["node"] NodeReordered item item')
    {p : Nat × NodeDraft} : readNode item.entry = .ok p ↔ readNode item'.entry = .ok p := by
  cases h with
  | same => rfl
  | block _ hinner =>
    obtain ⟨slot, n⟩ := p
    obtain ⟨hdescribe, hreadable⟩ := hinner.describe_eq
    rw [Item.entry, Item.entry, Item.entries_eq_map, Item.entries_eq_map, readNode_eq_ok_iff,
      readNode_eq_ok_iff, hdescribe, hreadable]

theorem node?_within (h : Item.Within ["node"] NodeReordered item item') :
    item.node? = item'.node? := by
  refine Option.ext fun p => ?_
  rw [Item.node?_eq_some_iff, Item.node?_eq_some_iff, h.tag_eq, readNode_within h]

/-- the nodes of a block in another order can be read as before, in another order -/
theorem DiagramReordered.nodes_perm (h : DiagramReordered block block') :
    ((∀ item ∈ block, item.Sound) → ∀ item ∈ block', item.Sound) ∧
      (block.filterMap Item.node?).Perm (block'.filterMap Item.node?) := by
  obtain ⟨mid, hperm, hwithin⟩ := h
  have hmid : ((∀ item ∈ mid, item.Sound) → ∀ item ∈ block', item.Sound) ∧
      mid.filterMap Item.node? = block'.filterMap Item.node? := by
    clear hperm
    induction hwithin with
    | nil => exact ⟨id, rfl⟩
    | @cons item item' _ _ hitem _ ih =>
      refine ⟨fun hsound => ?_, by rw [List.filterMap_cons, List.filterMap_cons, node?_within hitem,
        ih.2]⟩
      obtain ⟨hfirst, hrest⟩ := List.forall_mem_cons.mp hsound
      refine List.forall_mem_cons.mpr ⟨fun htag => ?_, ih.1 hrest⟩
      obtain ⟨p, hp⟩ := hfirst (hitem.tag_eq.trans htag)
      exact ⟨p, (readNode_within hitem).mp hp⟩
  refine ⟨fun hsound => hmid.1 fun item hitem => hsound item (hperm.mem_iff.mpr hitem), ?_⟩
  rw [← hmid.2]
  exact hperm.filterMap _

theorem Assembled.shuffled {drafts drafts' : List (Nat × NodeDraft)} {d : Diagram}
    (h : Assembled drafts d) (hdrafts : Shuffled Prod.fst drafts drafts') :
    Assembled drafts' d := by
  have hvalues : ∀ slot, valuesAt slot drafts' = valuesAt slot drafts := by
    intro slot
    rw [valuesAt, ← hdrafts slot]
    rfl
  refine ⟨fun count => ?_, fun slot => ?_, fun w => ?_⟩
  · rw [h.slots]
    exact forall_congr' fun p => imp_congr_left hdrafts.mem_iff
  · rw [h.box, hvalues]
  · rw [h.wires, hvalues]

/-- nodes with different numbers may stand in any order -/
theorem build_reordered {d : Diagram} (hids : (block.filterMap Item.nodeId?).Nodup)
    (h : DiagramReordered block block') (hbuild : (build (block.map Item.entry)).result = .ok d) :
    (build (block'.map Item.entry)).result = .ok d := by
  rw [build_items_eq_ok_iff] at hbuild ⊢
  obtain ⟨hsound, hassembled⟩ := hbuild
  obtain ⟨hsound', hperm⟩ := h.nodes_perm
  have hslots : ((block.filterMap Item.node?).map Prod.fst).Nodup := by
    rw [filterMap_nodeId? hsound] at hids
    refine List.Nodup.of_map (· + 1) ?_
    rwa [List.map_map]
  exact ⟨hsound' hsound, hassembled.shuffled (.of_perm hperm hslots)⟩

/-- **The order of a saved text does not matter.**  Let a text load, and let the nodes of its diagram
have different numbers.  If the nodes are put in another order, and in them, and in their positions
and connections, entries with different tags, then what is spelled loads as the same diagram.
Whatever text has these lexemes loads so. -/
theorem load_reordered {text : String} {placed placed' : List Placed}
    {before block block' after : List Item} {d : Diagram} (htext : lexemes text = .ok placed)
    (hitems : Spelling (placed.map Placed.lexeme) (before ++ .block "diagram" block :: after))
    (hfirst : ∀ item ∈ before, item.tag ≠ "diagram") (hload : (load text).result = .ok d)
    (hids : (block.filterMap Item.nodeId?).Nodup)
    (hreordered : DiagramReordered block block')
    (hitems' : Spelling (placed'.map Placed.lexeme) (before ++ .block "diagram" block' :: after)) :
    (loadPlaced placed').result = .ok d ∧
      ∀ text', lexemes text' = .ok placed' → load text' = loadPlaced placed' := by
  refine ⟨?_, fun text' htext' => load_eq htext'⟩
  rw [load_eq htext, loadPlaced_eq_ok_iff hitems hfirst] at hload
  exact (loadPlaced_eq_ok_iff hitems' hfirst).mpr (build_reordered hids hreordered hload)

/-- a node, and one that has its value -/
def pair : List Item :=
  [.block "node" [.scalar "id" (.number "1"), .scalar "line" (.string "5")],
   .block "node" [.scalar "id" (.number "2"), .scalar "line" (.string "$"),
     .block "connection" [.scalar "input_index" (.number "0"),
       .scalar "source_node_id" (.number "1"), .scalar "source_output_index" (.number "0")]]]

def pairText : String :=
  "diagram \x7b node \x7b id: 1 line: \"5\" \x7d node \x7b id: 2 line: \"$\" connection \x7b " ++
  "input_index: 0 source_node_id: 1 source_output_index: 0 \x7d \x7d \x7d"

/-- the nodes have changed places, and in one of them the line and the ends of the connection -/
def pair' : List Item :=
  [.block "node" [.scalar "line" (.string "$"), .scalar "id" (.number "2"),
     .block "connection" [.scalar "source_node_id" (.number "1"),
       .scalar "input_index" (.number "0"), .scalar "source_output_index" (.number "0")]],
   .block "node" [.scalar "id" (.number "1"), .scalar "line" (.string "5")]]

def pairText' : String :=
  "diagram \x7b node \x7b line: \"$\" id: 2 connection \x7b source_node_id: 1 input_index: 0 " ++
  "source_output_index: 0 \x7d \x7d node \x7b id: 1 line: \"5\" \x7d \x7d"

theorem lexemes_pairText : lexemes pairText = .ok (Item.onLine 1 [.block "diagram" pair]) := by
  decide +kernel

theorem lexemes_pairText' : lexemes pairText' = .ok (Item.onLine 1 [.block "diagram" pair']) := by
  decide +kernel

theorem diagramReordered_pair : DiagramReordered pair pair' := by
  have hconnection : Shuffled Item.tag
      [.scalar "input_index" (.number "0"), .scalar "source_node_id" (.number "1"),
        .scalar "source_output_index" (.number "0")]
      [.scalar "source_node_id" (.number "1"), .scalar "input_index" (.number "0"),
        .scalar "source_output_index" (.number "0")] := .swap (by decide) _
  refine ⟨_, .swap _ _ _, .cons (.block (by decide) ?_) (.cons .same .nil)⟩
  exact ⟨_, .swap (by decide) _,
    .cons .same (.cons .same (.cons (.block (by decide) hconnection) .nil))⟩

/-- both texts load as one diagram -/
theorem load_reordered_pair : ∃ d, d.slotCount = 2 ∧ (load pairText).result = .ok d ∧
    (load pairText').result = .ok d := by
  have hgood : Item.AllGood pair ∧ Item.AllGood pair' := by
    simp only [Item.AllGood, Item.Good, pair, pair']
    decide +kernel
  have hids : (pair.filterMap Item.nodeId?).Nodup := by decide +kernel
  obtain ⟨d, hload, hcount⟩ : ∃ d, (load pairText).result = .ok d ∧ d.slotCount = 2 :=
    except_map_ok (f := Diagram.slotCount) (by decide +kernel)
  obtain ⟨hload', htexts⟩ := load_reordered lexemes_pairText (spelling_diagram hgood.1 1)
    (List.forall_mem_nil _) hload hids diagramReordered_pair (spelling_diagram hgood.2 1)
  exact ⟨d, hcount, hload, htexts _ lexemes_pairText' ▸ hload'⟩

end Saved

end Dataflow
