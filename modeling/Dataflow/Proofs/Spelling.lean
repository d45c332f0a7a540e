import Dataflow.Proofs.Item
import Dataflow.Proofs.Reload

/-!
# The lexemes that spell entries

* `Spelling ls items`      the lexemes spell the items: `tag: value`, `tag { ... }` or
                           `tag: { ... }`, one after the other;
* `entries_eq_ok_iff`      a list of lexemes is read just if it spells something, and it is read as
                           that.

The reader keeps the open blocks on a stack, so what it has read is a spelling that breaks off
(`Cursor.Reached`).
-/

namespace Dataflow.Saved

def Lexeme.isScalar : Lexeme → Bool
  | .word _ | .number _ | .string _ => true
  | _ => false

/-- what stands between the tag of a block and its entries -/
def IsOpening (ls : List Lexeme) : Prop := ls = [.openBrace] ∨ ls = [.colon, .openBrace]

/-- lexemes that spell items -/
inductive Spelling : List Lexeme → List Item → Prop where
  | nil : Spelling [] []
  | scalar {tag : String} {value : Lexeme} {ls : List Lexeme} {items : List Item} :
    value.isScalar = true → Spelling ls items →
    Spelling ([.word tag, .colon, value] ++ ls) (.scalar tag value :: items)
  | block {tag : String} {opening inside ls : List Lexeme} {inner items : List Item} :
    IsOpening opening → Spelling inside inner → Spelling ls items →
    Spelling (.word tag :: (opening ++ (inside ++ .closeBrace :: ls)))
      (.block tag inner :: items)

section

variable {ls ls' : List Lexeme} {items items' : List Item}

theorem Spelling.append (h : Spelling ls items) (h' : Spelling ls' items') :
    Spelling (ls ++ ls') (items ++ items') := by
  induction h with
  | nil => exact h'
  | scalar hvalue _ ih =>
    rw [List.append_assoc]
    exact .scalar hvalue ih
  | block hopening hinside _ _ ih =>
    simp only [List.cons_append, List.append_assoc]
    exact .block hopening hinside ih

end

/-! ## what is spelled is read -/

section

variable {outer : List OpenBlock} {before : List Entry} {tag : String} {line : Nat}

theorem step_word {p : Placed} (hp : p.lexeme = .word tag) :
    Cursor.step ⟨outer, before, .tag⟩ p = .ok ⟨outer, before, .content tag p.line⟩ := by
  simp [Cursor.step, hp]

theorem step_scalar {p : Placed} (hp : p.lexeme.isScalar = true) :
    Cursor.step ⟨outer, before, .value tag line⟩ p =
      .ok ⟨outer, .scalar tag line p.lexeme :: before, .tag⟩ := by
  obtain ⟨lexeme, at'⟩ := p
  cases lexeme with
  | word text => rfl
  | number text => rfl
  | string text => rfl
  | _ => cases hp

theorem step_colon {p : Placed} (hp : p.lexeme = .colon) :
    Cursor.step ⟨outer, before, .content tag line⟩ p = .ok ⟨outer, before, .value tag line⟩ := by
  simp [Cursor.step, hp]

theorem foldlM_opening {placed : List Placed} (h : IsOpening (placed.map Placed.lexeme)) :
    placed.foldlM Cursor.step ⟨outer, before, .content tag line⟩ =
      .ok ⟨⟨tag, line, before⟩ :: outer, [], .tag⟩ := by
  obtain h | h := h
  · obtain ⟨p, rest, rfl, hp, hrest⟩ := List.map_eq_cons_iff.mp h
    obtain rfl := List.map_eq_nil_iff.mp hrest
    rw [List.foldlM_cons]
    simp [Cursor.step, hp, Cursor.enter, bind, Except.bind, pure, Except.pure]
  · obtain ⟨p, rest, rfl, hp, hrest⟩ := List.map_eq_cons_iff.mp h
    obtain ⟨q, rest, rfl, hq, hrest⟩ := List.map_eq_cons_iff.mp hrest
    obtain rfl := List.map_eq_nil_iff.mp hrest
    rw [List.foldlM_cons, step_colon hp]
    simp [Cursor.step, hq, Cursor.enter, bind, Except.bind, pure, Except.pure]

end

/-- lexemes that spell items are read as them, whatever was read before -/
theorem Spelling.read {ls : List Lexeme} {items : List Item} (h : Spelling ls items)
    (placed : List Placed) (outer : List OpenBlock) (before : List Entry)
    (hplaced : placed.map Placed.lexeme = ls) : Item.Read items placed outer before := by
  induction h generalizing placed outer before with
  | nil =>
    obtain rfl := List.map_eq_nil_iff.mp hplaced
    exact ⟨[], rfl, rfl⟩
  | @scalar tag value _ _ hvalue _ ih =>
    obtain ⟨p, tail, rfl, hp, htail⟩ := List.map_eq_cons_iff.mp hplaced
    obtain ⟨q, tail, rfl, hq, hlast⟩ := List.map_eq_cons_iff.mp htail
    obtain ⟨u, placed, rfl, hu, hrest⟩ := List.map_eq_cons_iff.mp hlast
    obtain ⟨es, hes, hread⟩ := ih placed outer (.scalar tag p.line u.lexeme :: before) hrest
    refine ⟨.scalar tag p.line u.lexeme :: es, by rw [List.map_cons, hes, Entry.bare, hu], ?_⟩
    rw [List.foldlM_cons, step_word hp]
    show List.foldlM Cursor.step _ (q :: u :: placed) = _
    rw [List.foldlM_cons, step_colon hq]
    show List.foldlM Cursor.step _ (u :: placed) = _
    rw [List.foldlM_cons, step_scalar (hu ▸ hvalue)]
    show List.foldlM Cursor.step _ placed = _
    rw [hread, List.reverse_cons, List.append_assoc]
    rfl
  | @block tag _ _ _ _ _ hopening _ _ ihinside ih =>
    obtain ⟨p, tail, rfl, hp, htail⟩ := List.map_eq_cons_iff.mp hplaced
    obtain ⟨opening, tail, rfl, ho, hblock⟩ := List.map_eq_append_iff.mp htail
    obtain ⟨inside, tail, rfl, hinside, hclosed⟩ := List.map_eq_append_iff.mp hblock
    obtain ⟨u, placed, rfl, hu, hrest⟩ := List.map_eq_cons_iff.mp hclosed
    obtain ⟨inner, hinner, hread⟩ := ihinside inside (⟨tag, p.line, before⟩ :: outer) [] hinside
    obtain ⟨es, hes, hreadRest⟩ := ih placed outer (.block tag p.line inner :: before) hrest
    refine ⟨.block tag p.line inner :: es, ?_, ?_⟩
    · rw [List.map_cons, hes, Entry.bare, Entry.bares_eq_map, hinner]
    have hclose : Cursor.step ⟨⟨tag, p.line, before⟩ :: outer, inner.reverse ++ [], .tag⟩ u =
        .ok ⟨outer, .block tag p.line inner :: before, .tag⟩ := by
      simp [Cursor.step, hu]
    rw [List.foldlM_cons, step_word hp]
    show List.foldlM Cursor.step _ (opening ++ (inside ++ u :: placed)) = _
    rw [List.foldlM_append, foldlM_opening (ho ▸ hopening)]
    show List.foldlM Cursor.step _ (inside ++ u :: placed) = _
    rw [List.foldlM_append, hread]
    show List.foldlM Cursor.step _ (u :: placed) = _
    rw [List.foldlM_cons, hclose]
    show List.foldlM Cursor.step _ placed = _
    rw [hreadRest, List.reverse_cons, List.append_assoc]
    rfl

/-! ## what is read was spelled -/

/-- the lexemes that lead to a stack of open blocks and the entries in the innermost one -/
inductive Opened : List OpenBlock → List Entry → List Lexeme → Prop where
  | top {es : List Entry} {ls : List Lexeme} : Spelling ls (es.reverse.map Entry.bare) →
    Opened [] es ls
  | block {outer : List OpenBlock} {b : OpenBlock} {es : List Entry}
      {ls opening inside : List Lexeme} : Opened outer b.before ls → IsOpening opening →
    Spelling inside (es.reverse.map Entry.bare) →
    Opened (b :: outer) es (ls ++ .word b.tag :: (opening ++ inside))

/-- the lexemes that lead to a cursor -/
def Cursor.Reached (c : Cursor) (ls : List Lexeme) : Prop :=
  ∃ front, Opened c.outer c.entries front ∧
    match c.phase with
    | .tag => ls = front
    | .content tag _ => ls = front ++ [.word tag]
    | .value tag _ => ls = front ++ [.word tag, .colon]

theorem Opened.more {outer : List OpenBlock} {es : List Entry} {e : Entry}
    {ls ls' : List Lexeme} (h : Opened outer es ls) (h' : Spelling ls' [e.bare]) :
    Opened outer (e :: es) (ls ++ ls') := by
  have hmap : (e :: es).reverse.map Entry.bare = es.reverse.map Entry.bare ++ [e.bare] := by
    rw [List.reverse_cons, List.map_append, List.map_singleton]
  cases h with
  | top hls => exact .top (hmap ▸ hls.append h')
  | block houter hopening hinside =>
    rw [List.append_assoc, List.cons_append, List.append_assoc]
    exact .block houter hopening (hmap ▸ hinside.append h')

/-- what a lexeme does to a cursor, by what may come next -/
inductive Cursor.Takes : Cursor → Lexeme → Cursor → Prop where
  | tag {outer : List OpenBlock} {es : List Entry} {tag : String} {line : Nat} :
    Takes ⟨outer, es, .tag⟩ (.word tag) ⟨outer, es, .content tag line⟩
  | close {b : OpenBlock} {outer : List OpenBlock} {es : List Entry} :
    Takes ⟨b :: outer, es, .tag⟩ .closeBrace
      ⟨outer, .block b.tag b.line es.reverse :: b.before, .tag⟩
  | colon {outer : List OpenBlock} {es : List Entry} {tag : String} {line : Nat} :
    Takes ⟨outer, es, .content tag line⟩ .colon ⟨outer, es, .value tag line⟩
  | plain {outer : List OpenBlock} {es : List Entry} {tag : String} {line : Nat} :
    Takes ⟨outer, es, .content tag line⟩ .openBrace ⟨⟨tag, line, es⟩ :: outer, [], .tag⟩
  | block {outer : List OpenBlock} {es : List Entry} {tag : String} {line : Nat} :
    Takes ⟨outer, es, .value tag line⟩ .openBrace ⟨⟨tag, line, es⟩ :: outer, [], .tag⟩
  | scalar {outer : List OpenBlock} {es : List Entry} {tag : String} {line : Nat}
      {value : Lexeme} : value.isScalar = true →
    Takes ⟨outer, es, .value tag line⟩ value ⟨outer, .scalar tag line value :: es, .tag⟩

theorem Cursor.takes_of_step {c c' : Cursor} {p : Placed} (h : c.step p = .ok c') :
    c.Takes p.lexeme c' := by
  obtain ⟨outer, es, phase⟩ := c
  obtain ⟨lexeme, line⟩ := p
  cases phase with
  | tag =>
    cases lexeme with
    | word tag =>
      cases h
      exact .tag
    | closeBrace =>
      cases outer with
      | nil => cases h
      | cons b outer =>
        cases h
        exact .close
    | _ => cases outer <;> cases h
  | content tag at' =>
    cases lexeme with
    | openBrace =>
      cases h
      exact .plain
    | colon =>
      cases h
      exact .colon
    | _ => cases h
  | value tag at' =>
    cases lexeme with
    | openBrace =>
      cases h
      exact .block
    | word text =>
      cases h
      exact .scalar rfl
    | number text =>
      cases h
      exact .scalar rfl
    | string text =>
      cases h
      exact .scalar rfl
    | _ => cases h

theorem Cursor.Reached.step {c c' : Cursor} {ls : List Lexeme} {lexeme : Lexeme}
    (h : c.Reached ls) (htakes : c.Takes lexeme c') : c'.Reached (ls ++ [lexeme]) := by
  obtain ⟨front, hopened, hls⟩ := h
  cases htakes with
  | tag =>
    obtain rfl : ls = front := hls
    exact ⟨ls, hopened, rfl⟩
  | colon =>
    obtain rfl := hls
    exact ⟨front, hopened, List.append_assoc ..⟩
  | plain =>
    obtain rfl := hls
    exact ⟨_, .block hopened (.inl rfl) .nil, List.append_assoc ..⟩
  | block =>
    obtain rfl := hls
    exact ⟨_, .block hopened (.inr rfl) .nil, List.append_assoc ..⟩
  | scalar hvalue =>
    obtain rfl := hls
    exact ⟨_, hopened.more (.scalar hvalue .nil), List.append_assoc ..⟩
  | @close b outer es =>
    obtain rfl : ls = front := hls
    cases hopened with
    | @block _ _ _ _ opening inside houter hopening hinside =>
      have hblock : Spelling (.word b.tag :: (opening ++ (inside ++ [.closeBrace])))
          [(Entry.block b.tag b.line es.reverse).bare] := by
        rw [Entry.bare, Entry.bares_eq_map]
        exact .block hopening hinside .nil
      refine ⟨_, houter.more hblock, ?_⟩
      simp

theorem Cursor.reached_foldlM {c c' : Cursor} {ls : List Lexeme} (h : c.Reached ls)
    {placed : List Placed} (hread : placed.foldlM Cursor.step c = .ok c') :
    c'.Reached (ls ++ placed.map Placed.lexeme) := by
  induction placed generalizing c ls with
  | nil =>
    obtain rfl := Except.ok.inj hread
    rwa [List.map_nil, List.append_nil]
  | cons p placed ih =>
    rw [List.foldlM_cons] at hread
    obtain ⟨next, hstep, hrest⟩ := except_bind_ok hread
    have hreached := ih (h.step (takes_of_step hstep)) hrest
    rwa [List.append_assoc] at hreached

/-- **What the reader takes is what is spelled**, and nothing else. -/
theorem entries_eq_ok_iff {placed : List Placed} {items : List Item} :
    (∃ es, entries placed = .ok es ∧ es.map Entry.bare = items) ↔
      Spelling (placed.map Placed.lexeme) items := by
  constructor
  · rintro ⟨es, hentries, rfl⟩
    obtain ⟨⟨outer, found, phase⟩, hread, hclose⟩ := except_bind_ok hentries
    have hstart : Cursor.start.Reached [] := ⟨[], .top .nil, rfl⟩
    obtain ⟨front, hopened, hls⟩ := Cursor.reached_foldlM hstart hread
    unfold Cursor.close at hclose
    split at hclose
    · next houter hphase =>
      obtain rfl := Except.ok.inj hclose
      obtain rfl : outer = [] := houter
      obtain rfl : phase = .tag := hphase
      cases hopened with
      | top hspelling =>
        rw [List.nil_append] at hls
        exact hls ▸ hspelling
    · cases hclose
  · intro h
    obtain ⟨es, hes, hread⟩ := h.read placed [] [] rfl
    refine ⟨es, ?_, hes⟩
    rw [entries, Cursor.start, hread]
    simp [Cursor.close, bind, Except.bind]

/-- items as they are written, but on one line -/
def Item.onLine (line : Nat) (items : List Item) : List Placed :=
  (listLexemes items).map fun lexeme => ⟨lexeme, line⟩

theorem spelling_onLine {items : List Item} (h : Item.AllGood items) (line : Nat) :
    Spelling ((Item.onLine line items).map Placed.lexeme) items := by
  have hmap : (Item.onLine line items).map Placed.lexeme = Item.listLexemes items := by
    rw [Item.onLine, List.map_map]
    exact List.map_id _
  obtain ⟨es, hes, hread⟩ := Item.readAll items _ [] [] h hmap
  refine entries_eq_ok_iff.mp ⟨es, ?_, hes⟩
  rw [entries, Cursor.start, hread]
  simp [Cursor.close, bind, Except.bind]

/-- a `diagram` block and nothing else -/
theorem spelling_diagram {block : List Item} (h : Item.AllGood block) (line : Nat) :
    Spelling ((Item.onLine line [.block "diagram" block]).map Placed.lexeme)
      ([] ++ .block "diagram" block :: []) := by
  have hdiagram : Item.AllGood [.block "diagram" block] := ⟨⟨by decide +kernel, h⟩, trivial⟩
  exact spelling_onLine hdiagram line

end Dataflow.Saved
