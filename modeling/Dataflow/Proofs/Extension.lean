import Dataflow.Proofs.Spelling

/-!
# Entries with unknown tags are passed over

A saved text may have entries that a later version wrote.  Put between the entries of a block, they
change nothing.

* `Level`            the blocks that are read, and the tags that are known there;
* `Extends`          items, and the same with more entries of unknown tags in blocks that are read;
* `Inserted`         lexemes, and the same with those of such an entry between two entries;
* `Alike`            two outcomes that are related, or two faults that differ in their lines only;
* `load_inserted`    the lexemes with an entry put in load as those without it.

What stands inside an entry with an unknown tag is at the level `unread`, where no tag is known.
-/

namespace Dataflow.Saved

/-- a block that is read, or one that is not -/
inductive Level where
  | top
  | diagram
  | node
  | position
  | connection
  | unread
deriving DecidableEq, Repr

namespace Level

/-- the tags that the reader looks for -/
def known : Level → List String
  | .top => ["diagram"]
  | .diagram => ["node"]
  | .node => ["id", "position", "line", "sticky_output", "connection"]
  | .position => ["x", "y"]
  | .connection => ["input_index", "source_node_id", "source_output_index"]
  | .unread => []

/-- the level of what a block holds -/
def inside : Level → String → Level
  | .top, "diagram" => .diagram
  | .diagram, "node" => .node
  | .node, "position" => .position
  | .node, "connection" => .connection
  | _, _ => .unread

end Level

def Item.tag : Item → String
  | .scalar tag _ => tag
  | .block tag _ => tag

/-- items, and the same with more of them, at a level where their tags are unknown -/
inductive Extends : Level → List Item → List Item → Prop where
  | nil {level : Level} : Extends level [] []
  | more {level : Level} {item : Item} {items items' : List Item} : item.tag ∉ level.known →
    Extends level items items' → Extends level items (item :: items')
  | scalar {level : Level} {tag : String} {value : Lexeme} {items items' : List Item} :
    Extends level items items' →
    Extends level (.scalar tag value :: items) (.scalar tag value :: items')
  | block {level : Level} {tag : String} {inner inner' items items' : List Item} :
    Extends (level.inside tag) inner inner' → Extends level items items' →
    Extends level (.block tag inner :: items) (.block tag inner' :: items')

/-- lexemes that spell items, and the same with those of one more item at a level where its tag is
unknown -/
inductive Inserted : Level → List Lexeme → List Lexeme → Prop where
  | here {level : Level} {front back more : List Lexeme} {before after : List Item} {item : Item} :
    Spelling front before → Spelling back after → Spelling more [item] → item.tag ∉ level.known →
    Inserted level (front ++ back) (front ++ (more ++ back))
  | inside {level : Level} {front back opening ls ls' : List Lexeme} {before after : List Item}
      {tag : String} : Spelling front before → Spelling back after → IsOpening opening →
    Inserted (level.inside tag) ls ls' →
    Inserted level (front ++ .word tag :: (opening ++ (ls ++ .closeBrace :: back)))
      (front ++ .word tag :: (opening ++ (ls' ++ .closeBrace :: back)))

/-! ## insertions -/

section

variable {level : Level} {items items' more more' : List Item}

theorem Extends.refl (level : Level) : ∀ items : List Item, Extends level items items
  | [] => .nil
  | .scalar _ _ :: items => .scalar (refl level items)
  | .block tag inner :: items => .block (refl (level.inside tag) inner) (refl level items)

theorem Extends.append (h : Extends level items items') (h' : Extends level more more') :
    Extends level (items ++ more) (items' ++ more') := by
  induction h with
  | nil => exact h'
  | more hunknown _ ih => exact .more hunknown (ih h')
  | scalar _ ih => exact .scalar (ih h')
  | block hinner _ _ ih => exact .block hinner (ih h')

end

/-- an insertion into spelled lexemes extends what they spell -/
theorem Inserted.extends {level : Level} {ls ls' : List Lexeme} (h : Inserted level ls ls') :
    ∃ items items', Spelling ls items ∧ Spelling ls' items' ∧ Extends level items items' := by
  induction h with
  | @here level _ _ _ before after item hfront hback hmore hunknown =>
    refine ⟨before ++ after, before ++ (item :: after), hfront.append hback,
      hfront.append (hmore.append hback), ?_⟩
    exact (Extends.refl level before).append (.more hunknown (Extends.refl level after))
  | @inside level _ _ _ _ _ before after tag hfront hback hopening _ ih =>
    obtain ⟨inner, inner', hls, hls', hinner⟩ := ih
    refine ⟨before ++ .block tag inner :: after, before ++ .block tag inner' :: after,
      hfront.append (.block hopening hls hback), hfront.append (.block hopening hls' hback), ?_⟩
    exact (Extends.refl level before).append
      (.block hinner (Extends.refl level after))

/-! ## outcomes but for lines -/

/-- a fault without its line -/
def LoadFault.unplaced : LoadFault → LoadFault
  | .unexpectedCharacter _ c => .unexpectedCharacter 0 c
  | .unexpectedLexeme _ found missing => .unexpectedLexeme 0 found missing
  | .unterminatedString _ => .unterminatedString 0
  | .unexpectedEnd => .unexpectedEnd
  | .invalidNumber _ text => .invalidNumber 0 text
  | .invalidNodeId _ id => .invalidNodeId 0 id
  | .missingNodeId _ => .missingNodeId 0
  | .wrongContent _ tag => .wrongContent 0 tag
  | .missingDiagram => .missingDiagram

/-- two values that are related, or two faults that differ in their lines only -/
def Alike {α β : Type} (R : α → β → Prop) : Except LoadFault α → Except LoadFault β → Prop
  | .ok a, .ok b => R a b
  | .error fault, .error fault' => fault.unplaced = fault'.unplaced
  | _, _ => False

section

variable {α β γ δ : Type} {R : α → β → Prop} {S : γ → δ → Prop} {r : Except LoadFault α}
  {r' : Except LoadFault β}

theorem Alike.bind {f : α → Except LoadFault γ} {f' : β → Except LoadFault δ} (h : Alike R r r')
    (hf : ∀ a b, R a b → Alike S (f a) (f' b)) : Alike S (r >>= f) (r' >>= f') := by
  cases r with
  | ok a =>
    cases r' with
    | ok b => exact hf a b h
    | error fault => cases h
  | error fault =>
    cases r' with
    | ok b => cases h
    | error fault' => exact h

theorem Alike.map {f : α → γ} {f' : β → δ} (h : Alike R r r')
    (hf : ∀ a b, R a b → S (f a) (f' b)) : Alike S (r.map f) (r'.map f') := by
  cases r with
  | ok a =>
    cases r' with
    | ok b => exact hf a b h
    | error fault => cases h
  | error fault =>
    cases r' with
    | ok b => cases h
    | error fault' => exact h

end

/-! ## entries but for lines and unknown entries -/

/-- the same value under the same tag, or more of a block under the same tag -/
def Entry.Alike (level : Level) : Entry → Entry → Prop
  | .scalar tag _ value, .scalar tag' _ value' => tag = tag' ∧ value = value'
  | .block tag _ es, .block tag' _ es' =>
    tag = tag' ∧ Extends (level.inside tag) (es.map bare) (es'.map bare)
  | _, _ => False

theorem Entry.tag_bare (e : Entry) : e.bare.tag = e.tag := by cases e <;> rfl

/-- entries, and the same with more of them whose tags are unknown -/
inductive AllAlike (level : Level) : List Entry → List Entry → Prop where
  | nil : AllAlike level [] []
  | more {e : Entry} {es es' : List Entry} : e.tag ∉ level.known → AllAlike level es es' →
    AllAlike level es (e :: es')
  | cons {e e' : Entry} {es es' : List Entry} : Entry.Alike level e e' →
    AllAlike level es es' → AllAlike level (e :: es) (e' :: es')

theorem Extends.allAlike {level : Level} {es es' : List Entry}
    (h : Extends level (es.map Entry.bare) (es'.map Entry.bare)) : AllAlike level es es' := by
  generalize hes : es.map Entry.bare = items at h
  generalize hes' : es'.map Entry.bare = items' at h
  induction h generalizing es es' with
  | nil =>
    obtain rfl := List.map_eq_nil_iff.mp hes
    obtain rfl := List.map_eq_nil_iff.mp hes'
    exact .nil
  | more htag _ ih =>
    obtain ⟨e, rest, rfl, rfl, hrest⟩ := List.map_eq_cons_iff.mp hes'
    exact .more (e.tag_bare ▸ htag) (ih hes hrest)
  | scalar _ ih =>
    obtain ⟨e, rest, rfl, he, hrest⟩ := List.map_eq_cons_iff.mp hes
    obtain ⟨e', rest', rfl, he', hrest'⟩ := List.map_eq_cons_iff.mp hes'
    obtain ⟨line, rfl⟩ := Entry.eq_of_bare_scalar he
    obtain ⟨line', rfl⟩ := Entry.eq_of_bare_scalar he'
    exact .cons (And.intro rfl rfl) (ih hrest hrest')
  | block hinner _ _ ih =>
    obtain ⟨e, rest, rfl, he, hrest⟩ := List.map_eq_cons_iff.mp hes
    obtain ⟨e', rest', rfl, he', hrest'⟩ := List.map_eq_cons_iff.mp hes'
    obtain ⟨line, inner, rfl, rfl⟩ := Entry.eq_of_bare_block he
    obtain ⟨line', inner', rfl, rfl⟩ := Entry.eq_of_bare_block he'
    exact .cons (And.intro rfl hinner) (ih hrest hrest')

namespace Entry

variable {level : Level} {e e' : Entry}

theorem Alike.tag_eq (h : Alike level e e') : e.tag = e'.tag := by
  cases e with
  | scalar tag line value =>
    cases e' with
    | scalar tag' line' value' => exact h.1
    | block tag' line' es' => cases h
  | block tag line es =>
    cases e' with
    | scalar tag' line' value' => cases h
    | block tag' line' es' => exact h.1

theorem Alike.asBlock (h : Alike level e e') :
    Saved.Alike (AllAlike (level.inside e.tag)) e.asBlock e'.asBlock := by
  cases e with
  | scalar tag line value =>
    cases e' with
    | scalar tag' line' value' => exact congrArg (LoadFault.wrongContent 0) h.1
    | block tag' line' es' => cases h
  | block tag line es =>
    cases e' with
    | scalar tag' line' value' => cases h
    | block tag' line' es' => exact Extends.allAlike h.2

theorem Alike.asString (h : Alike level e e') : Saved.Alike Eq e.asString e'.asString := by
  cases e with
  | scalar tag line value =>
    cases e' with
    | scalar tag' line' value' =>
      obtain ⟨rfl, rfl⟩ := h
      cases value <;> rfl
    | block tag' line' es' => cases h
  | block tag line es =>
    cases e' with
    | scalar tag' line' value' => cases h
    | block tag' line' es' => exact congrArg (LoadFault.wrongContent 0) h.1

theorem Alike.asNumber {α : Type} (read? : String → Option α) (h : Alike level e e') :
    Saved.Alike Eq (e.asNumber read?) (e'.asNumber read?) := by
  cases e with
  | scalar tag line value =>
    cases e' with
    | scalar tag' line' value' =>
      obtain ⟨rfl, rfl⟩ := h
      cases value with
      | number text =>
        simp only [Entry.asNumber]
        cases read? text <;> rfl
      | _ => rfl
    | block tag' line' es' => cases h
  | block tag line es =>
    cases e' with
    | scalar tag' line' value' => cases h
    | block tag' line' es' => exact congrArg (LoadFault.wrongContent 0) h.1

theorem Alike.asNodeId (h : Alike level e e') : Saved.Alike Eq e.asNodeId e'.asNodeId := by
  refine (h.asNumber readIndex?).bind ?_
  rintro id _ rfl
  split
  · rfl
  · rfl

end Entry

/-- steps that pass over unknown tags and cannot tell alike entries apart -/
theorem foldlM_alike {α : Type} {level : Level} {R : α → α → Prop}
    {f : α → Entry → Except LoadFault α}
    (hunknown : ∀ a e, e.tag ∉ level.known → f a e = .ok a)
    (hknown : ∀ a a' e e', R a a' → Entry.Alike level e e' → Alike R (f a e) (f a' e'))
    {es es' : List Entry} (h : AllAlike level es es') {a a' : α} (ha : R a a') :
    Alike R (es.foldlM f a) (es'.foldlM f a') := by
  induction h generalizing a a' with
  | nil => exact ha
  | @more e _ _ htag _ ih =>
    rw [List.foldlM_cons, hunknown a' e htag]
    exact ih ha
  | @cons e e' _ _ he _ ih =>
    rw [List.foldlM_cons, List.foldlM_cons]
    exact (hknown a a' e e' ha he).bind fun _ _ => ih

/-! ## blocks -/

def ConnectionDraft.unplaced (c : ConnectionDraft) : ConnectionDraft := { c with line := 0 }

theorem ConnectionDraft.readField_alike {c c' : ConnectionDraft} {e e' : Entry}
    (hc : c.unplaced = c'.unplaced) (he : Entry.Alike .connection e e') :
    Alike (fun c c' => c.unplaced = c'.unplaced) (c.readField e) (c'.readField e') := by
  have hindex := he.asNumber readIndex?
  unfold readField
  rw [← he.tag_eq]
  split
  · refine hindex.map ?_
    rintro n _ rfl
    exact congrArg (fun c : ConnectionDraft => { c with input := some n }) hc
  · refine hindex.map ?_
    rintro n _ rfl
    exact congrArg (fun c : ConnectionDraft => { c with sourceId := some n }) hc
  · refine hindex.map ?_
    rintro n _ rfl
    exact congrArg (fun c : ConnectionDraft => { c with output := some n }) hc
  · exact hc

theorem ConnectionDraft.readField_unknown {c : ConnectionDraft} {e : Entry}
    (h : e.tag ∉ Level.connection.known) : c.readField e = .ok c := by
  unfold readField
  simp only [Level.known, List.mem_cons, List.not_mem_nil, not_or] at h
  split <;> simp_all

namespace NodeDraft

/-- two `node` blocks that say the same -/
structure Alike (n n' : NodeDraft) : Prop where
  id : n.id = n'.id
  x : n.x = n'.x
  y : n.y = n'.y
  lines : n.lines = n'.lines
  held : n.held.map Prod.snd = n'.held.map Prod.snd
  connections :
    n.connections.map ConnectionDraft.unplaced = n'.connections.map ConnectionDraft.unplaced

theorem Alike.refl (n : NodeDraft) : n.Alike n := ⟨rfl, rfl, rfl, rfl, rfl, rfl⟩

variable {n n' : NodeDraft} {e e' : Entry}

theorem readAxis_alike (hn : n.Alike n') (he : Entry.Alike .position e e') :
    Saved.Alike Alike (n.readAxis e) (n'.readAxis e') := by
  have hsingle : Saved.Alike Eq e.asSingle e'.asSingle := he.asNumber _
  unfold readAxis
  rw [← he.tag_eq]
  split
  · exact hsingle.map fun x x' hx => { hn with x := hx }
  · exact hsingle.map fun y y' hy => { hn with y := hy }
  · exact hn

theorem readAxis_unknown (h : e.tag ∉ Level.position.known) : n.readAxis e = .ok n := by
  unfold readAxis
  simp only [Level.known, List.mem_cons, List.not_mem_nil, not_or] at h
  split <;> simp_all

theorem readField_alike (hn : n.Alike n') (he : Entry.Alike .node e e') :
    Saved.Alike Alike (n.readField e) (n'.readField e') := by
  have hblock := he.asBlock
  unfold readField
  rw [← he.tag_eq]
  split
  · exact he.asNodeId.map fun id id' hid => { hn with id := congrArg some hid }
  · next htag =>
    rw [htag] at hblock
    refine hblock.bind fun es es' hes => ?_
    exact foldlM_alike (fun _ _ => readAxis_unknown) (fun _ _ _ _ => readAxis_alike) hes hn
  · exact he.asString.map fun text text' htext =>
      { hn with lines := by rw [htext, hn.lines] }
  · exact (he.asNumber readIndex?).map fun index index' hindex =>
      { hn with held := by rw [List.map_cons, List.map_cons, hn.held, hindex] }
  · next htag =>
    rw [htag] at hblock
    refine hblock.bind fun es es' hes => ?_
    have hstart : ConnectionDraft.unplaced ⟨e.line, none, none, none⟩ =
        ConnectionDraft.unplaced ⟨e'.line, none, none, none⟩ := rfl
    refine (foldlM_alike (fun _ _ => ConnectionDraft.readField_unknown)
      (fun _ _ _ _ => ConnectionDraft.readField_alike) hes hstart).bind
      fun c c' hc => ?_
    exact { hn with connections := by rw [List.map_cons, List.map_cons, hn.connections, hc] }
  · exact hn

theorem readField_unknown (h : e.tag ∉ Level.node.known) : n.readField e = .ok n := by
  unfold readField
  simp only [Level.known, List.mem_cons, List.not_mem_nil, not_or] at h
  split <;> simp_all

end NodeDraft

theorem readNode_alike {e e' : Entry} (he : Entry.Alike .diagram e e') (htag : e.tag = "node") :
    Alike (fun r r' => r.1 = r'.1 ∧ r.2.Alike r'.2) (readNode e) (readNode e') := by
  have hblock := he.asBlock
  rw [htag] at hblock
  refine hblock.bind fun es es' hes => ?_
  refine (foldlM_alike (fun _ _ => NodeDraft.readField_unknown)
    (fun _ _ _ _ => NodeDraft.readField_alike) hes (.refl _)).bind fun n n' hn => ?_
  rw [← hn.id]
  split
  · exact ⟨rfl, hn⟩
  · rfl

/-! ## the diagram -/

theorem fst_holdOutputs_congr {held held' : List (Nat × Nat)}
    (h : held.map Prod.snd = held'.map Prod.snd) (n : Node) (log log' : List LogLine) :
    (holdOutputs n log held).1 = (holdOutputs n log' held').1 := by
  induction held generalizing held' n log log' with
  | nil =>
    obtain rfl := List.map_eq_nil_iff.mp h.symm
    rfl
  | cons first rest ih =>
    obtain ⟨first', rest', rfl, hfirst, hrest⟩ := List.map_eq_cons_iff.mp h.symm
    obtain ⟨line, index⟩ := first
    obtain ⟨line', index'⟩ := first'
    obtain rfl : index' = index := hfirst
    rw [holdOutputs, holdOutputs]
    split
    · exact ih hrest.symm _ _ _
    · exact ih hrest.symm _ _ _

/-- the same diagram, and the same connections to be made -/
structure Draft.Alike (draft draft' : Draft) : Prop where
  diagram : draft.diagram = draft'.diagram
  connections : draft.connections.map (Prod.map id ConnectionDraft.unplaced) =
    draft'.connections.map (Prod.map id ConnectionDraft.unplaced)

theorem Draft.Alike.place {draft draft' : Draft} (h : draft.Alike draft') {n n' : NodeDraft}
    (hn : n.Alike n') (line line' slot : Nat) :
    (draft.place line slot n).Alike (draft'.place line' slot n') where
  diagram := by
    have hheld : n.held.reverse.map Prod.snd = n'.held.reverse.map Prod.snd := by
      rw [List.map_reverse, List.map_reverse, hn.held]
    show draft.diagram.place slot _ = draft'.diagram.place slot _
    rw [h.diagram, hn.lines, hn.x, hn.y, fst_holdOutputs_congr hheld _ draft.log draft'.log]
  connections := by
    show List.map _ (n.connections.map _ ++ _) = List.map _ (n'.connections.map _ ++ _)
    have hpairs : ∀ cs : List ConnectionDraft,
        (cs.map fun c => (slot, c)).map (Prod.map id ConnectionDraft.unplaced) =
          (cs.map ConnectionDraft.unplaced).map fun c => (slot, c) := by
      intro cs
      rw [List.map_map, List.map_map]
      rfl
    rw [List.map_append, List.map_append, h.connections, hpairs, hpairs, hn.connections]

theorem readNodes_alike {es es' : List Entry} (h : AllAlike .diagram es es')
    {draft draft' : Draft} (hdraft : draft.Alike draft') :
    let r := Draft.readNodes (es.filter (·.tag == "node")) draft
    let r' := Draft.readNodes (es'.filter (·.tag == "node")) draft'
    r.1.map LoadFault.unplaced = r'.1.map LoadFault.unplaced ∧ r.2.Alike r'.2 := by
  induction h generalizing draft draft' with
  | nil => exact ⟨rfl, hdraft⟩
  | more htag _ ih =>
    rw [List.filter_cons_of_neg (by simpa [Level.known] using htag)]
    exact ih hdraft
  | @cons e e' _ _ he _ ih =>
    by_cases htag : e.tag = "node"
    · have htag' : e'.tag = "node" := he.tag_eq ▸ htag
      rw [List.filter_cons_of_pos (by simp [htag]), List.filter_cons_of_pos (by simp [htag'])]
      have hnode := readNode_alike he htag
      unfold Draft.readNodes
      revert hnode
      cases readNode e with
      | ok r =>
        cases readNode e' with
        | ok r' =>
          rintro ⟨hslot, hn⟩
          obtain ⟨slot, n⟩ := r
          obtain ⟨slot', n'⟩ := r'
          obtain rfl : slot = slot' := hslot
          exact ih (hdraft.place hn _ _ slot)
        | error fault => exact False.elim
      | error fault =>
        cases readNode e' with
        | ok r' => exact False.elim
        | error fault' => exact fun hfault => ⟨congrArg some hfault, hdraft⟩
    · have htag' : e'.tag ≠ "node" := he.tag_eq ▸ htag
      rw [List.filter_cons_of_neg (by simpa using htag),
        List.filter_cons_of_neg (by simpa using htag')]
      exact ih hdraft

theorem readConnection_alike {d : Diagram} {slot : Nat} {c c' : ConnectionDraft}
    (h : c.unplaced = c'.unplaced) :
    (readConnection d slot c).toOption = (readConnection d slot c').toOption := by
  obtain ⟨line, input, sourceId, output⟩ := c
  obtain ⟨line', input', sourceId', output'⟩ := c'
  obtain ⟨-, rfl, rfl, rfl⟩ := ConnectionDraft.mk.inj h
  unfold readConnection
  cases input with
  | none => rfl
  | some input =>
    cases sourceId with
    | none => rfl
    | some id =>
      cases output with
      | none => rfl
      | some output =>
        dsimp only
        split
        · rfl
        · cases d.allows ⟨id - 1, output⟩ slot input <;> rfl

theorem fst_connectAll_congr {cs cs' : List (Nat × ConnectionDraft)}
    (h : cs.map (Prod.map id ConnectionDraft.unplaced) =
      cs'.map (Prod.map id ConnectionDraft.unplaced)) (d : Diagram) (log log' : List LogLine) :
    (connectAll d log cs).1 = (connectAll d log' cs').1 := by
  induction cs generalizing cs' d log log' with
  | nil =>
    obtain rfl := List.map_eq_nil_iff.mp h.symm
    rfl
  | cons first rest ih =>
    obtain ⟨first', rest', rfl, hfirst, hrest⟩ := List.map_eq_cons_iff.mp h.symm
    obtain ⟨slot, c⟩ := first
    obtain ⟨slot', c'⟩ := first'
    obtain ⟨hslot, hc⟩ := Prod.mk.inj hfirst
    obtain rfl : slot' = slot := hslot
    have hread : (readConnection d slot' c).toOption = (readConnection d slot' c').toOption :=
      readConnection_alike hc.symm
    rw [connectAll, connectAll]
    cases hwired : readConnection d slot' c with
    | ok wired =>
      cases hwired' : readConnection d slot' c' with
      | ok wired' =>
        rw [hwired, hwired'] at hread
        obtain rfl := Option.some.inj hread
        exact ih hrest.symm _ _ _
      | error message =>
        rw [hwired, hwired'] at hread
        cases hread
    | error message =>
      cases hwired' : readConnection d slot' c' with
      | ok wired =>
        rw [hwired, hwired'] at hread
        cases hread
      | error message' => exact ih hrest.symm _ _ _

theorem build_alike {es es' : List Entry} (h : AllAlike .diagram es es') :
    Alike Eq (build es).result (build es').result := by
  have hempty : Draft.empty.Alike .empty := ⟨rfl, rfl⟩
  obtain ⟨hfault, hdraft⟩ := readNodes_alike h hempty
  unfold build
  revert hfault hdraft
  rcases Draft.readNodes (es.filter (·.tag == "node")) .empty with ⟨_ | fault, draft⟩
  · rcases Draft.readNodes (es'.filter (·.tag == "node")) .empty with ⟨_ | fault', draft'⟩
    · intro _ hdraft
      have hconnections : draft.connections.reverse.map (Prod.map id ConnectionDraft.unplaced) =
          draft'.connections.reverse.map (Prod.map id ConnectionDraft.unplaced) := by
        rw [List.map_reverse, List.map_reverse, hdraft.connections]
      show (connectAll draft.diagram draft.log draft.connections.reverse).1.prune =
        (connectAll draft'.diagram draft'.log draft'.connections.reverse).1.prune
      rw [hdraft.diagram, fst_connectAll_congr hconnections _ draft.log draft'.log]
    · exact nofun
  · rcases Draft.readNodes (es'.filter (·.tag == "node")) .empty with ⟨_ | fault', draft'⟩
    · exact nofun
    · exact fun hfault _ => Option.some.inj hfault

theorem diagramBlock_alike {es es' : List Entry} (h : AllAlike .top es es') :
    Alike (AllAlike .diagram) (diagramBlock es) (diagramBlock es') := by
  unfold diagramBlock
  induction h with
  | nil => rfl
  | more htag _ ih =>
    rw [List.find?_cons_of_neg (by simpa [Level.known] using htag)]
    exact ih
  | @cons e e' _ _ he _ ih =>
    by_cases htag : e.tag = "diagram"
    · have htag' : e'.tag = "diagram" := he.tag_eq ▸ htag
      rw [List.find?_cons_of_pos (by simp [htag]), List.find?_cons_of_pos (by simp [htag'])]
      have hblock := he.asBlock
      rwa [htag] at hblock
    · have htag' : e'.tag ≠ "diagram" := he.tag_eq ▸ htag
      rw [List.find?_cons_of_neg (by simpa using htag),
        List.find?_cons_of_neg (by simpa using htag')]
      exact ih

/-- loads a text from its lexemes -/
def loadPlaced (placed : List Placed) : Loaded :=
  match entries placed >>= diagramBlock with
  | .ok block => build block
  | .error fault => ⟨.error fault, []⟩

theorem load_eq {text : String} {placed : List Placed} (h : lexemes text = .ok placed) :
    load text = loadPlaced placed := by
  rw [load, h]
  rfl

/-- loads a text from its entries -/
def loadEntries (es : List Entry) : Loaded :=
  match diagramBlock es with
  | .ok block => build block
  | .error fault => ⟨.error fault, []⟩

theorem loadPlaced_eq {es : List Entry} {placed : List Placed} (h : entries placed = .ok es) :
    loadPlaced placed = loadEntries es := by
  rw [loadPlaced, h]
  rfl

theorem loadEntries_alike {es es' : List Entry} (h : AllAlike .top es es') :
    Alike Eq (loadEntries es).result (loadEntries es').result := by
  have hblock := diagramBlock_alike h
  unfold loadEntries
  revert hblock
  cases diagramBlock es with
  | ok block =>
    cases diagramBlock es' with
    | ok block' => exact build_alike
    | error fault => exact False.elim
  | error fault =>
    cases diagramBlock es' with
    | ok block' => exact False.elim
    | error fault' => exact id

theorem loadPlaced_alike {es es' : List Entry} {placed placed' : List Placed}
    (hes : entries placed = .ok es) (hes' : entries placed' = .ok es') (h : AllAlike .top es es') :
    Alike Eq (loadPlaced placed).result (loadPlaced placed').result := by
  rw [loadPlaced_eq hes, loadPlaced_eq hes']
  exact loadEntries_alike h

/-- **What is unknown is passed over.**  If the lexemes of a text spell entries, and those of an
entry with a tag that is unknown there are put between two entries of the text, of its diagrams,
nodes, positions or connections, then the outcome is the same diagram, or the same fault but for its
line.  Whatever text has these lexemes has this outcome. -/
theorem load_inserted {text : String} {placed placed' : List Placed}
    (htext : lexemes text = .ok placed)
    (h : Inserted .top (placed.map Placed.lexeme) (placed'.map Placed.lexeme)) :
    Alike Eq (load text).result (loadPlaced placed').result ∧
      ∀ text', lexemes text' = .ok placed' → load text' = loadPlaced placed' := by
  obtain ⟨items, items', hls, hls', hitems⟩ := h.extends
  obtain ⟨es, hes, rfl⟩ := entries_eq_ok_iff.mpr hls
  obtain ⟨es', hes', rfl⟩ := entries_eq_ok_iff.mpr hls'
  rw [load_eq htext]
  exact ⟨loadPlaced_alike hes hes' hitems.allAlike, fun text' htext' => load_eq htext'⟩

/-- a block in front of a node, with nodes and numbers of its own -/
theorem load_inserted_group :
    let text := "diagram \x7b node \x7b id: 1 \x7d \x7d"
    let text' := "diagram \x7b group: \x7b id: 9 node \x7b \x7d \x7d node \x7b id: 1 \x7d \x7d"
    let node : List Lexeme :=
      [.word "node", .openBrace, .word "id", .colon, .number "1", .closeBrace]
    let group : List Lexeme :=
      [.word "group", .colon, .openBrace, .word "id", .colon, .number "9",
        .word "node", .openBrace, .closeBrace, .closeBrace]
    let ls : List Lexeme := .word "diagram" :: .openBrace :: (node ++ [.closeBrace])
    let ls' : List Lexeme := .word "diagram" :: .openBrace :: (group ++ node ++ [.closeBrace])
    lexemes text = .ok (ls.map (Placed.mk · 1)) ∧ lexemes text' = .ok (ls'.map (Placed.mk · 1)) ∧
      Inserted .top ls ls' ∧ Alike Eq (load text).result (load text').result := by
  intro text text' node group ls ls'
  have htext : lexemes text = .ok (ls.map (Placed.mk · 1)) := by decide +kernel
  have htext' : lexemes text' = .ok (ls'.map (Placed.mk · 1)) := by decide +kernel
  have hnode : Spelling node [.block "node" [.scalar "id" (.number "1")]] :=
    .block (.inl rfl) (.scalar rfl .nil) .nil
  have hgroup : Spelling group
      [.block "group" [.scalar "id" (.number "9"), .block "node" []]] :=
    .block (.inr rfl) (.scalar rfl (.block (.inl rfl) .nil .nil)) .nil
  have hhere : Inserted (Level.top.inside "diagram") ([] ++ node) ([] ++ (group ++ node)) :=
    .here .nil hnode hgroup (by decide)
  have hinserted : Inserted .top ls ls' := .inside .nil .nil (.inl rfl) hhere
  have hmap : ∀ ls : List Lexeme, (ls.map (Placed.mk · 1)).map Placed.lexeme = ls := by
    intro ls
    rw [List.map_map]
    exact List.map_id ls
  obtain ⟨halike, hload⟩ := load_inserted htext ((hmap ls).symm ▸ (hmap ls').symm ▸ hinserted)
  exact ⟨htext, htext', hinserted, hload text' htext' ▸ halike⟩

end Dataflow.Saved
