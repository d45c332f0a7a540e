import Mathlib.Data.List.Induction
import Dataflow.Proofs.Extension

/-!
# What the blocks of a saved text say

Reading a block goes through its entries one after the other.  What comes out is said here by tag,
without the order in which entries with different tags stand.

* `gather`               the values of the entries with one tag, in their order;
* `describeConnection`, `describe`   what a `connection` and a `node` block say;
* `readNode_eq_ok_iff`   a `node` block is read just if every entry in it can be read and one is its
                         number, and it is read as what it says;
* `loadPlaced_eq_ok_iff` what a text loads as does not depend on the lines it is written on.
-/

namespace Dataflow.Saved

section

variable {α β ε : Type}

/-- the values of the entries with a tag -/
def gather (tag : String) (read : Entry → Except LoadFault α) (es : List Entry) : List α :=
  (es.filter (·.tag == tag)).filterMap fun e => (read e).toOption

variable {tag : String} {read : Entry → Except LoadFault α} {e : Entry}

theorem gather_append (es es' : List Entry) :
    gather tag read (es ++ es') = gather tag read es ++ gather tag read es' := by
  rw [gather, List.filter_append, List.filterMap_append]
  rfl

theorem gather_of_ok {a : α} (htag : e.tag = tag) (h : read e = .ok a) :
    gather tag read [e] = [a] := by
  rw [gather, List.filter_cons_of_pos (by simpa using htag), List.filter_nil]
  simp [h, Except.toOption]

theorem gather_of_ne (htag : e.tag ≠ tag) : gather tag read [e] = [] := by
  rw [gather, List.filter_cons_of_neg (by simpa using htag)]
  rfl

theorem toOption_eq_some_iff {r : Except ε α} {a : α} : r.toOption = some a ↔ r = .ok a := by
  cases r with
  | error fault => exact iff_of_false nofun nofun
  | ok b => exact ⟨fun h => congrArg Except.ok (Option.some.inj h), fun h => by rw [h]; rfl⟩

theorem exists_of_mem_gather {es : List Entry} {a : α} (h : a ∈ gather tag read es) :
    ∃ e ∈ es, read e = .ok a := by
  obtain ⟨e, he, hread⟩ := List.mem_filterMap.mp h
  exact ⟨e, List.mem_of_mem_filter he, toOption_eq_some_iff.mp hread⟩

/-- a fold is known from the step that it takes last -/
theorem foldlM_eq {f : β → α → Except ε β} {g : List α → β}
    (hstep : ∀ l a b, f (g l) a = .ok b → b = g (l ++ [a])) {l : List α} {b : β}
    (h : l.foldlM f (g []) = .ok b) : b = g l := by
  induction l using List.reverseRecOn generalizing b with
  | nil => exact (Except.ok.inj h).symm
  | append_singleton l a ih =>
    rw [List.foldlM_append] at h
    obtain ⟨c, hfront, hlast⟩ := except_bind_ok h
    obtain rfl := ih hfront
    rw [List.foldlM_cons] at hlast
    obtain ⟨b', hb, hnil⟩ := except_bind_ok hlast
    obtain rfl := Except.ok.inj hnil
    exact hstep l a b' hb

/-- steps that succeed or fail wherever they are taken -/
theorem isOk_foldlM {f : β → α → Except ε β} (hf : ∀ b c a, (f b a).isOk = (f c a).isOk)
    (l : List α) (b c : β) : (l.foldlM f b).isOk = l.all fun a => (f c a).isOk := by
  induction l generalizing b with
  | nil => rfl
  | cons a l ih =>
    rw [List.foldlM_cons, List.all_cons, ← hf b c a]
    cases f b a with
    | error fault => rfl
    | ok next => exact ih next

theorem isOk_iff {r : Except ε α} : r.isOk = true ↔ ∃ a, r = .ok a := by
  cases r with
  | error fault => exact iff_of_false Bool.false_ne_true nofun
  | ok a => exact iff_of_true rfl ⟨a, rfl⟩

theorem isOk_map (f : α → β) (r : Except ε α) : (r.map f).isOk = r.isOk := by
  cases r <;> rfl

end

/-! ## what blocks say -/

/-- what a `connection` block says: the last value of each field -/
def describeConnection (line : Nat) (es : List Entry) : ConnectionDraft where
  line := line
  input := (gather "input_index" Entry.asIndex es).getLast?
  sourceId := (gather "source_node_id" Entry.asIndex es).getLast?
  output := (gather "source_output_index" Entry.asIndex es).getLast?

namespace Entry

/-- the values of a coordinate in a `position` block -/
def axis (tag : String) (e : Entry) : Except LoadFault (List Single) :=
  e.asBlock.map (gather tag asSingle)

def held (e : Entry) : Except LoadFault (Nat × Nat) := e.asIndex.map fun index => (e.line, index)

def connection (e : Entry) : Except LoadFault ConnectionDraft :=
  e.asBlock.map (describeConnection e.line)

end Entry

/-- what a `node` block says: its last number and coordinates, and all else in the order in which it
is said -/
def describe (es : List Entry) : NodeDraft where
  id := (gather "id" Entry.asNodeId es).getLast?
  x := (gather "position" (Entry.axis "x") es).flatten.getLast?.getD (.zero false)
  y := (gather "position" (Entry.axis "y") es).flatten.getLast?.getD (.zero false)
  lines := (gather "line" Entry.asString es).reverse
  held := (gather "sticky_output" Entry.held es).reverse
  connections := (gather "connection" Entry.connection es).reverse

variable {line : Nat} {es : List Entry} {e : Entry}

theorem describeConnection_step {c : ConnectionDraft}
    (h : (describeConnection line es).readField e = .ok c) :
    c = describeConnection line (es ++ [e]) := by
  unfold ConnectionDraft.readField at h
  split at h
  · next htag =>
    obtain ⟨n, hn, rfl⟩ := except_map_ok h
    simp [describeConnection, gather_append, gather_of_ok htag hn, gather_of_ne, htag]
  · next htag =>
    obtain ⟨n, hn, rfl⟩ := except_map_ok h
    simp [describeConnection, gather_append, gather_of_ok htag hn, gather_of_ne, htag]
  · next htag =>
    obtain ⟨n, hn, rfl⟩ := except_map_ok h
    simp [describeConnection, gather_append, gather_of_ok htag hn, gather_of_ne, htag]
  · next hinput hid houtput =>
    obtain rfl := Except.ok.inj h
    simp [describeConnection, gather_append, gather_of_ne hinput, gather_of_ne hid,
      gather_of_ne houtput]

theorem foldlM_readConnection {c : ConnectionDraft}
    (h : es.foldlM ConnectionDraft.readField ⟨line, none, none, none⟩ = .ok c) :
    c = describeConnection line es :=
  foldlM_eq (fun _ _ _ => describeConnection_step) h

namespace NodeDraft

variable {n m : NodeDraft}

/-- a node with the coordinates of a `position` block, if it has any -/
def withAxes (n : NodeDraft) (es : List Entry) : NodeDraft :=
  { n with
    x := (gather "x" Entry.asSingle es).getLast?.getD n.x
    y := (gather "y" Entry.asSingle es).getLast?.getD n.y }

theorem withAxes_step (h : (n.withAxes es).readAxis e = .ok m) : m = n.withAxes (es ++ [e]) := by
  unfold readAxis at h
  split at h
  · next htag =>
    obtain ⟨x, hx, rfl⟩ := except_map_ok h
    simp [withAxes, gather_append, gather_of_ok htag hx, gather_of_ne, htag]
  · next htag =>
    obtain ⟨y, hy, rfl⟩ := except_map_ok h
    simp [withAxes, gather_append, gather_of_ok htag hy, gather_of_ne, htag]
  · next hx hy =>
    obtain rfl := Except.ok.inj h
    simp [withAxes, gather_append, gather_of_ne hx, gather_of_ne hy]

theorem foldlM_readAxis (h : es.foldlM readAxis n = .ok m) : m = n.withAxes es :=
  foldlM_eq (g := n.withAxes) (fun _ _ _ => withAxes_step) h

theorem describe_step (h : (describe es).readField e = .ok n) : n = describe (es ++ [e]) := by
  unfold readField at h
  split at h
  · next htag =>
    obtain ⟨id, hid, rfl⟩ := except_map_ok h
    simp [describe, gather_append, gather_of_ok htag hid, gather_of_ne, htag]
  · next htag =>
    obtain ⟨inner, hinner, hfold⟩ := except_bind_ok h
    obtain rfl := foldlM_readAxis hfold
    have haxis : ∀ tag, e.axis tag = .ok (gather tag Entry.asSingle inner) := by
      intro tag
      rw [Entry.axis, hinner]
      rfl
    simp [describe, withAxes, gather_append, gather_of_ok htag (haxis _), gather_of_ne, htag,
      List.getLast?_append, Option.getD_or]
  · next htag =>
    obtain ⟨text, htext, rfl⟩ := except_map_ok h
    simp [describe, gather_append, gather_of_ok htag htext, gather_of_ne, htag]
  · next htag =>
    obtain ⟨index, hindex, rfl⟩ := except_map_ok h
    have hheld : e.held = .ok (e.line, index) := by
      rw [Entry.held, hindex]
      rfl
    simp [describe, gather_append, gather_of_ok htag hheld, gather_of_ne, htag]
  · next htag =>
    obtain ⟨inner, hinner, hfold⟩ := except_bind_ok h
    obtain ⟨c, hc, hn⟩ := except_bind_ok hfold
    obtain rfl := Except.ok.inj hn
    obtain rfl := foldlM_readConnection hc
    have hconnection : e.connection = .ok (describeConnection e.line inner) := by
      rw [Entry.connection, hinner]
      rfl
    simp [describe, gather_append, gather_of_ok htag hconnection, gather_of_ne, htag]
  · next hid hposition hline hheld hconnection =>
    obtain rfl := Except.ok.inj h
    simp [describe, gather_append, gather_of_ne hid, gather_of_ne hposition, gather_of_ne hline,
      gather_of_ne hheld, gather_of_ne hconnection]

/-! ## what can be read -/

theorem isOk_readAxis (n m : NodeDraft) (e : Entry) :
    (n.readAxis e).isOk = (m.readAxis e).isOk := by
  unfold readAxis
  split
  · rw [isOk_map, isOk_map]
  · rw [isOk_map, isOk_map]
  · rfl

/-- whether an entry can be read does not depend on the entries before it -/
theorem isOk_readField (n m : NodeDraft) (e : Entry) :
    (n.readField e).isOk = (m.readField e).isOk := by
  unfold readField
  split
  · rw [isOk_map, isOk_map]
  · cases e.asBlock with
    | error fault => rfl
    | ok inner =>
      show (inner.foldlM readAxis n).isOk = (inner.foldlM readAxis m).isOk
      rw [isOk_foldlM isOk_readAxis inner n m, isOk_foldlM isOk_readAxis inner m m]
  · rw [isOk_map, isOk_map]
  · rw [isOk_map, isOk_map]
  · cases e.asBlock with
    | error fault => rfl
    | ok inner =>
      show ((inner.foldlM ConnectionDraft.readField _).map _).isOk =
        ((inner.foldlM ConnectionDraft.readField _).map _).isOk
      rw [isOk_map, isOk_map]
  · rfl

end NodeDraft

theorem ConnectionDraft.isOk_readField (c c' : ConnectionDraft) (e : Entry) :
    (c.readField e).isOk = (c'.readField e).isOk := by
  unfold readField
  split
  · rw [isOk_map, isOk_map]
  · rw [isOk_map, isOk_map]
  · rw [isOk_map, isOk_map]
  · rfl

/-- an entry that can be read in a `node` block -/
def Entry.Readable (e : Entry) : Prop := (NodeDraft.empty.readField e).isOk = true

theorem describe_id {id : Nat} (h : (describe es).id = some id) : id ≠ 0 ∧ id ≤ maxNodeId := by
  obtain ⟨e, -, hid⟩ := exists_of_mem_gather (List.mem_of_getLast? h)
  exact asNodeId_ok hid

/-- **A `node` block is read as what it says**, if every entry in it can be read and one of them is
its number. -/
theorem readNode_eq_ok_iff {tag : String} {slot : Nat} {n : NodeDraft} :
    readNode (.block tag line es) = .ok (slot, n) ↔
      (∀ e ∈ es, e.Readable) ∧ n = describe es ∧ n.id = some (slot + 1) := by
  have hall : (es.foldlM NodeDraft.readField .empty).isOk = true ↔ ∀ e ∈ es, e.Readable := by
    rw [isOk_foldlM NodeDraft.isOk_readField es .empty .empty, List.all_eq_true]
    rfl
  constructor
  · intro h
    obtain ⟨m, hm, hid⟩ := except_bind_ok (f := fun n : NodeDraft => _) h
    have hdescribe : m = describe es := foldlM_eq (fun _ _ _ => NodeDraft.describe_step) hm
    split at hid
    · next id hsome =>
      obtain ⟨rfl, rfl⟩ := Prod.mk.inj (Except.ok.inj hid)
      refine ⟨hall.mp (isOk_iff.mpr ⟨m, hm⟩), hdescribe, ?_⟩
      have hnumber := describe_id (hdescribe ▸ hsome)
      rw [hsome, Nat.sub_add_cancel (by omega)]
    · cases hid
  · rintro ⟨hreadable, rfl, hid⟩
    obtain ⟨m, hm⟩ := isOk_iff.mp (hall.mpr hreadable)
    obtain rfl : m = describe es := foldlM_eq (fun _ _ _ => NodeDraft.describe_step) hm
    simp only [readNode, Entry.asBlock, bind, Except.bind, hm, hid]
    rfl

/-! ## items -/

mutual

/-- the entry of an item, on a line with the number zero -/
def Item.entry : Item → Entry
  | .scalar tag value => .scalar tag 0 value
  | .block tag items => .block tag 0 (Item.entries items)

def Item.entries : List Item → List Entry
  | [] => []
  | item :: rest => item.entry :: Item.entries rest

end

theorem Item.entries_eq_map (items : List Item) : Item.entries items = items.map Item.entry := by
  induction items with
  | nil => rfl
  | cons item rest ih => rw [Item.entries, ih, List.map_cons]

mutual

theorem Item.bare_entry : ∀ item : Item, item.entry.bare = item
  | .scalar _ _ => rfl
  | .block tag items => congrArg (Item.block tag) (Item.bares_entries items)

theorem Item.bares_entries : ∀ items : List Item, Entry.bares (Item.entries items) = items
  | [] => rfl
  | item :: rest => congrArg₂ List.cons (Item.bare_entry item) (Item.bares_entries rest)

end

theorem Item.tag_entry (item : Item) : item.entry.tag = item.tag := by
  cases item <;> rfl

theorem Item.map_bare_entry (items : List Item) :
    (items.map Item.entry).map Entry.bare = items := by
  rw [← Item.entries_eq_map, ← Entry.bares_eq_map, Item.bares_entries]

/-- what a `node` block says, or nothing -/
def Item.draft : Item → NodeDraft
  | .scalar _ _ => .empty
  | .block _ items => describe (items.map Item.entry)

theorem Alike.eq_ok_iff {α : Type} {r r' : Except LoadFault α} (h : Alike Eq r r') {a : α} :
    r = .ok a ↔ r' = .ok a := by
  cases r with
  | ok b =>
    cases r' with
    | ok b' =>
      obtain rfl : b = b' := h
      rfl
    | error fault => cases h
  | error fault =>
    cases r' with
    | ok b => cases h
    | error fault' => exact iff_of_false nofun nofun

/-- **A text loads as the first `diagram` block that it spells**, on whatever lines. -/
theorem loadPlaced_eq_ok_iff {placed : List Placed} {before block after : List Item}
    (h : Spelling (placed.map Placed.lexeme) (before ++ .block "diagram" block :: after))
    (hbefore : ∀ item ∈ before, item.tag ≠ "diagram") {d : Diagram} :
    (loadPlaced placed).result = .ok d ↔ (build (block.map Item.entry)).result = .ok d := by
  obtain ⟨es, hes, hbare⟩ := entries_eq_ok_iff.mpr h
  generalize hitems : before ++ .block "diagram" block :: after = items at hbare
  have hextends : Extends .top (es.map Entry.bare) ((items.map Item.entry).map Entry.bare) := by
    rw [Item.map_bare_entry, hbare]
    exact .refl .top items
  have hskip : before.find? ((·.tag == "diagram") ∘ Item.entry) = none := by
    refine List.find?_eq_none.mpr fun item hitem => ?_
    simpa [Item.tag_entry] using hbefore item hitem
  have hfind : (items.map Item.entry).find? (·.tag == "diagram") =
      some (.block "diagram" 0 (block.map Item.entry)) := by
    rw [← hitems, List.find?_map, List.find?_append, hskip, ← Item.entries_eq_map]
    rfl
  have hload : loadEntries (items.map Item.entry) = build (block.map Item.entry) := by
    rw [loadEntries, diagramBlock, hfind]
    rfl
  rw [loadPlaced_eq hes, ← hload]
  exact (loadEntries_alike hextends.allAlike).eq_ok_iff

end Dataflow.Saved
