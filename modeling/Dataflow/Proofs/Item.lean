import Dataflow.Proofs.Scanning
import Dataflow.Saved.Entry
import Dataflow.Saved.Save

/-!
# Written entries are read back

An item is an entry without its line.

* `Item.text`              an item as it is written, one entry a line;
* `Item.lexemes`           the lexemes that spell it;
* `Spells text lexemes`    wherever the text stands, it is cut into these lexemes;
* `Item.Good`              tags are words and values are words, numbers or strings;
* `Item.spells`, `Item.reads`   a good item is cut into its lexemes, and these are read as it.
-/

namespace Dataflow.Saved

/-- an entry without its line -/
inductive Item where
  | scalar (tag : String) (value : Lexeme)
  | block (tag : String) (items : List Item)

/-- a value as it is written -/
def Lexeme.written : Lexeme → String
  | .word text | .number text => text
  | .string text => Text.quote text
  | .openBrace => "\x7b"
  | .closeBrace => "\x7d"
  | .colon => ":"

/-- a word: it begins like nothing else does -/
def isTag (tag : String) : Bool :=
  match tag.toList with
  | [] => false
  | c :: rest =>
    Text.isWordStart c && !isNumberStart c && !Text.isBlank c && c != '\n' && c != '#' && c != '"'
      && (single? c).isNone && rest.all Text.isWordPart

/-- a number as it is written -/
def isNumberText (text : String) : Bool :=
  match text.toList with
  | [] => false
  | c :: rest => isNumberStart c && rest.all isNumberPart

/-- a value that can be read back -/
def Lexeme.isValue : Lexeme → Bool
  | .word text => isTag text
  | .number text => isNumberText text
  | .string _ => true
  | _ => false

namespace Item

mutual

def text (depth : Nat) : Item → String
  | .scalar tag value => valueText depth tag value.written
  | .block tag items => blockText depth tag (texts (depth + 1) items)

def texts (depth : Nat) : List Item → String
  | [] => ""
  | item :: rest => item.text depth ++ texts depth rest

end

mutual

def lexemes : Item → List Lexeme
  | .scalar tag value => [.word tag, .colon, value]
  | .block tag items => .word tag :: .openBrace :: (listLexemes items ++ [.closeBrace])

def listLexemes : List Item → List Lexeme
  | [] => []
  | item :: rest => item.lexemes ++ listLexemes rest

end

mutual

/-- tags are words and values can be read back -/
def Good : Item → Prop
  | .scalar tag value => isTag tag = true ∧ value.isValue = true
  | .block tag items => isTag tag = true ∧ AllGood items

def AllGood : List Item → Prop
  | [] => True
  | item :: rest => item.Good ∧ AllGood rest

end

theorem allGood_iff (items : List Item) : AllGood items ↔ ∀ item ∈ items, item.Good := by
  induction items with
  | nil => simp [AllGood]
  | cons item items ih => simp [AllGood, ih]

end Item

/-! ## cutting into lexemes -/

section

variable {line : Nat} {c : Char} {rest : List Char}

theorem lexFrom_newline : lexFrom line ('\n' :: rest) = lexFrom (line + 1) rest := by
  rw [lexFrom, if_pos rfl]

theorem lexFrom_blank (h : Text.isBlank c = true) (hn : c ≠ '\n') :
    lexFrom line (c :: rest) = lexFrom line rest := by
  rw [lexFrom, if_neg hn, if_pos h]

theorem lexFrom_quote {text after : List Char} (h : Text.readQuoted? rest = some (text, after)) :
    lexFrom line ('"' :: rest) = cons line (.string (String.ofList text)) (lexFrom line after) := by
  rw [lexFrom, if_neg (by decide), if_neg (by decide), if_neg (by decide), if_pos rfl]
  split
  · next heq =>
    rw [h] at heq
    cases heq
    rfl
  · next heq =>
    rw [h] at heq
    cases heq

theorem lexFrom_single {lexeme : Lexeme} (h : single? c = some lexeme) :
    lexFrom line (c :: rest) = cons line lexeme (lexFrom line rest) := by
  have hc : c = '\x7b' ∨ c = '\x7d' ∨ c = ':' := by
    unfold single? at h
    by_cases h₁ : c = '\x7b'
    · exact .inl h₁
    by_cases h₂ : c = '\x7d'
    · exact .inr (.inl h₂)
    by_cases h₃ : c = ':'
    · exact .inr (.inr h₃)
    · simp [h₁, h₂, h₃] at h
  have hother : c ≠ '\n' ∧ Text.isBlank c = false ∧ c ≠ '#' ∧ c ≠ '"' := by
    rcases hc with rfl | rfl | rfl <;> decide
  obtain ⟨hn, hb, hh, hq⟩ := hother
  rw [lexFrom, if_neg hn, if_neg (by simp [hb]), if_neg hh, if_neg hq]
  simp only [h]

/-- the characters that begin a number begin nothing else -/
theorem isNumberStart_spec (h : isNumberStart c = true) :
    c ≠ '\n' ∧ Text.isBlank c = false ∧ c ≠ '#' ∧ c ≠ '"' ∧ single? c = none := by
  have hdigit : c.isDigit = true ∨ c = '-' ∨ c = '+' ∨ c = '.' := by
    simpa [isNumberStart, or_assoc] using h
  rcases hdigit with hdigit | rfl | rfl | rfl
  · obtain ⟨hlow, hhigh⟩ := Char.isDigit_iff_toNat.mp hdigit
    have hne : ∀ u : Char, u.isDigit = false → c ≠ u := by
      rintro u hu rfl
      rw [hdigit] at hu
      cases hu
    refine ⟨hne _ rfl, ?_, hne _ rfl, hne _ rfl, ?_⟩
    · have hzero : '0'.toNat = 48 := rfl
      have hnine : '9'.toNat = 57 := rfl
      rw [hzero] at hlow
      rw [hnine] at hhigh
      simp [Text.isBlank, Text.inRanges, Text.blankRanges]
      omega
    · unfold single?
      rw [if_neg (hne _ rfl), if_neg (hne _ rfl), if_neg (hne _ rfl)]
  · decide
  · decide
  · decide

theorem lexFrom_number {text : String} {after : List Char} (h : isNumberText text = true)
    (hafter : ∀ u ∈ after.head?, isNumberPart u = false) :
    lexFrom line (text.toList ++ after) = cons line (.number text) (lexFrom line after) := by
  unfold isNumberText at h
  split at h
  · cases h
  · next first more heq =>
    obtain ⟨hfirst, hmore⟩ := Bool.and_eq_true_iff.mp h
    obtain ⟨hn, hb, hh, hq, hs⟩ := isNumberStart_spec hfirst
    obtain ⟨htake, hdrop⟩ := Text.cut_run (List.all_eq_true.mp hmore) hafter
    rw [heq, List.cons_append, lexFrom, if_neg hn, if_neg (by simp [hb]), if_neg hh, if_neg hq]
    simp only [hs, hfirst, if_true, htake, hdrop]
    rw [← heq, String.ofList_toList]

theorem lexFrom_word {tag : String} {after : List Char} (h : isTag tag = true)
    (hafter : ∀ u ∈ after.head?, Text.isWordPart u = false) :
    lexFrom line (tag.toList ++ after) = cons line (.word tag) (lexFrom line after) := by
  unfold isTag at h
  split at h
  · cases h
  · next first more heq =>
    simp only [Bool.and_eq_true, Bool.not_eq_true', bne_iff_ne, Option.isNone_iff_eq_none] at h
    obtain ⟨⟨⟨⟨⟨⟨⟨hword, hnumber⟩, hb⟩, hn⟩, hh⟩, hq⟩, hs⟩, hmore⟩ := h
    obtain ⟨htake, hdrop⟩ := Text.cut_run (List.all_eq_true.mp hmore) hafter
    rw [heq, List.cons_append, lexFrom, if_neg hn, if_neg (by simp [hb]), if_neg hh, if_neg hq]
    simp only [hs, hnumber, hword, Bool.false_eq_true, if_false, if_true, htake, hdrop]
    rw [← heq, String.ofList_toList]

end

/-- wherever the text stands, it is cut into the lexemes -/
def Spells (text : List Char) (ls : List Lexeme) : Prop :=
  ∀ line, ∃ (line' : Nat) (placed : List Placed), placed.map Placed.lexeme = ls ∧
    ∀ rest, lexFrom line (text ++ rest) = (lexFrom line' rest).map (placed ++ ·)

namespace Spells

variable {text more : List Char} {ls ls' : List Lexeme} {c : Char}

theorem nil : Spells [] [] := by
  intro line
  refine ⟨line, [], rfl, fun rest => ?_⟩
  rw [List.nil_append]
  cases lexFrom line rest <;> rfl

theorem append (h : Spells text ls) (h' : Spells more ls') : Spells (text ++ more) (ls ++ ls') := by
  intro line
  obtain ⟨line₁, placed, hplaced, hlex⟩ := h line
  obtain ⟨line₂, placed', hplaced', hlex'⟩ := h' line₁
  refine ⟨line₂, placed ++ placed', by rw [List.map_append, hplaced, hplaced'], fun rest => ?_⟩
  rw [List.append_assoc, hlex, hlex']
  cases lexFrom line₂ rest with
  | error fault => rfl
  | ok later => exact congrArg Except.ok (List.append_assoc placed placed' later).symm

/-- a lexeme in front of others, if what stands behind it does not carry it on -/
theorem lexeme (text : List Char) {lexeme : Lexeme}
    (hlex : ∀ line rest, lexFrom line (text ++ (more ++ rest)) =
      cons line lexeme (lexFrom line (more ++ rest)))
    (h : Spells more ls) : Spells (text ++ more) (lexeme :: ls) := by
  intro line
  obtain ⟨line', placed, hplaced, hmore⟩ := h line
  refine ⟨line', ⟨lexeme, line⟩ :: placed, by rw [List.map_cons, hplaced], fun rest => ?_⟩
  rw [List.append_assoc, hlex, hmore]
  cases lexFrom line' rest with
  | error fault => rfl
  | ok later => rfl

theorem blank (hb : Text.isBlank c = true) (hn : c ≠ '\n') (h : Spells text ls) :
    Spells (c :: text) ls := by
  intro line
  obtain ⟨line', placed, hplaced, hlex⟩ := h line
  refine ⟨line', placed, hplaced, fun rest => ?_⟩
  rw [List.cons_append, lexFrom_blank hb hn, hlex]

theorem newline : Spells ['\n'] [] := by
  intro line
  refine ⟨line + 1, [], rfl, fun rest => ?_⟩
  rw [List.singleton_append, lexFrom_newline]
  cases lexFrom (line + 1) rest <;> rfl

theorem indent (n : Nat) (h : Spells text ls) : Spells (List.replicate n ' ' ++ text) ls := by
  induction n with
  | zero => exact h
  | succ n ih => exact ih.blank (by decide) (by decide)

theorem single {lexeme : Lexeme} (hc : single? c = some lexeme) (h : Spells text ls) :
    Spells (c :: text) (lexeme :: ls) :=
  h.lexeme [c] fun _ _ => lexFrom_single hc

theorem word {tag : String} (ht : isTag tag = true) (hc : Text.isWordPart c = false)
    (h : Spells (c :: text) ls) : Spells (tag.toList ++ c :: text) (.word tag :: ls) :=
  h.lexeme tag.toList fun _ _ => lexFrom_word ht fun _ hu => Option.some.inj hu ▸ hc

theorem number {digits : String} (hd : isNumberText digits = true) (hc : isNumberPart c = false)
    (h : Spells (c :: text) ls) : Spells (digits.toList ++ c :: text) (.number digits :: ls) :=
  h.lexeme digits.toList fun _ _ => lexFrom_number hd fun _ hu => Option.some.inj hu ▸ hc

theorem string (value : String) (h : Spells text ls) :
    Spells ((Text.quote value).toList ++ text) (.string value :: ls) := by
  refine h.lexeme _ fun line rest => ?_
  have hquote : (Text.quote value).toList ++ (text ++ rest) =
      '"' :: (value.toList.flatMap Text.escape ++ '"' :: (text ++ rest)) := by
    simp [Text.quote]
  rw [hquote, lexFrom_quote (Text.readQuoted?_escaped value.toList (text ++ rest)),
    String.ofList_toList]

end Spells

theorem spells_value {tag : String} {value : Lexeme} (depth : Nat) (ht : isTag tag = true)
    (hv : value.isValue = true) :
    Spells (valueText depth tag value.written).toList [.word tag, .colon, value] := by
  have htext : (valueText depth tag value.written).toList = List.replicate (2 * depth) ' ' ++
      (tag.toList ++ ':' :: ' ' :: (value.written.toList ++ ['\n'])) := by
    simp [valueText, entryLine]
  have hvalue : Spells (value.written.toList ++ ['\n']) [value] := by
    cases value with
    | word text => exact Spells.newline.word hv (by decide +kernel)
    | number digits => exact Spells.newline.number hv (by decide)
    | string text => exact Spells.newline.string text
    | _ => cases hv
  rw [htext]
  have hcolon : Spells (':' :: ' ' :: (value.written.toList ++ ['\n'])) [.colon, value] :=
    (hvalue.blank (by decide) (by decide)).single rfl
  exact (hcolon.word ht (by decide +kernel)).indent _

theorem spells_block {tag inside : String} {ls : List Lexeme} (depth : Nat) (ht : isTag tag = true)
    (h : Spells inside.toList ls) :
    Spells (blockText depth tag inside).toList (.word tag :: .openBrace :: (ls ++ [.closeBrace])) := by
  have htext : (blockText depth tag inside).toList = List.replicate (2 * depth) ' ' ++
      (tag.toList ++ ' ' :: '\x7b' :: '\n' :: (inside.toList ++
        (List.replicate (2 * depth) ' ' ++ ['\x7d', '\n']))) := by
    simp [blockText, entryLine]
  have hclose : Spells (List.replicate (2 * depth) ' ' ++ ['\x7d', '\n']) [.closeBrace] :=
    (Spells.newline.single rfl).indent _
  have hinside : Spells ('\n' :: (inside.toList ++
      (List.replicate (2 * depth) ' ' ++ ['\x7d', '\n']))) (ls ++ [.closeBrace]) :=
    Spells.newline.append (h.append hclose)
  have hopen := (hinside.single (c := '\x7b') rfl).blank (c := ' ') (by decide) (by decide)
  rw [htext]
  exact (hopen.word ht (by decide +kernel)).indent _

mutual

theorem Item.spells (depth : Nat) : ∀ item : Item, item.Good →
    Spells (item.text depth).toList item.lexemes
  | .scalar _ _, ⟨ht, hv⟩ => spells_value depth ht hv
  | .block _ items, ⟨ht, hitems⟩ => spells_block depth ht (Item.spells_texts (depth + 1) items hitems)

theorem Item.spells_texts (depth : Nat) : ∀ items : List Item, AllGood items →
    Spells (texts depth items).toList (listLexemes items)
  | [], _ => .nil
  | item :: rest, ⟨h, hrest⟩ => by
    rw [texts, String.toList_append]
    exact (Item.spells depth item h).append (Item.spells_texts depth rest hrest)

end

/-! ## reading lexemes -/

namespace Entry

mutual

/-- an entry without its line -/
def bare : Entry → Item
  | .scalar tag _ value => .scalar tag value
  | .block tag _ entries => .block tag (bares entries)

def bares : List Entry → List Item
  | [] => []
  | e :: rest => e.bare :: bares rest

end

theorem bares_eq_map (entries : List Entry) : bares entries = entries.map bare := by
  induction entries with
  | nil => rfl
  | cons e entries ih => rw [bares, ih, List.map_cons]

/-- an entry that is a value but for its line -/
theorem eq_of_bare_scalar {e : Entry} {tag : String} {value : Lexeme}
    (h : e.bare = .scalar tag value) : ∃ line, e = .scalar tag line value := by
  cases e with
  | scalar tag' line value' =>
    obtain ⟨rfl, rfl⟩ := Item.scalar.inj h
    exact ⟨line, rfl⟩
  | block tag' line entries => cases h

/-- an entry that is a block but for its lines -/
theorem eq_of_bare_block {e : Entry} {tag : String} {items : List Item}
    (h : e.bare = .block tag items) :
    ∃ line entries, e = .block tag line entries ∧ entries.map bare = items := by
  cases e with
  | scalar tag' line value => cases h
  | block tag' line entries =>
    obtain ⟨rfl, hitems⟩ := Item.block.inj h
    exact ⟨line, entries, rfl, (bares_eq_map entries).symm.trans hitems⟩

end Entry

/-- a value in front of a tag ends an entry -/
theorem step_value {outer : List OpenBlock} {before : List Entry} {tag : String} {line : Nat}
    {p : Placed} (hv : p.lexeme.isValue = true) :
    Cursor.step ⟨outer, before, .value tag line⟩ p =
      .ok ⟨outer, .scalar tag line p.lexeme :: before, .tag⟩ := by
  obtain ⟨lexeme, at'⟩ := p
  cases lexeme with
  | word text => rfl
  | number text => rfl
  | string text => rfl
  | _ => cases hv

/-- the lexemes of the items are read as them, whatever was read before -/
def Item.Read (items : List Item) (placed : List Placed) (outer : List OpenBlock)
    (before : List Entry) : Prop :=
  ∃ es : List Entry, es.map Entry.bare = items ∧
    placed.foldlM Cursor.step ⟨outer, before, .tag⟩ = .ok ⟨outer, es.reverse ++ before, .tag⟩

mutual

theorem Item.read : ∀ (item : Item) (placed : List Placed) (outer : List OpenBlock)
    (before : List Entry), item.Good → placed.map Placed.lexeme = item.lexemes →
    Item.Read [item] placed outer before
  | .scalar tag value, placed, outer, before, ⟨_, hv⟩, hplaced => by
    obtain ⟨p, placed, rfl, hp, hplaced⟩ := List.map_eq_cons_iff.mp hplaced
    obtain ⟨q, placed, rfl, hq, hplaced⟩ := List.map_eq_cons_iff.mp hplaced
    obtain ⟨u, last, rfl, rfl, hlast⟩ := List.map_eq_cons_iff.mp hplaced
    obtain rfl := List.map_eq_nil_iff.mp hlast
    refine ⟨[.scalar tag p.line u.lexeme], rfl, ?_⟩
    have htag : Cursor.step ⟨outer, before, .tag⟩ p = .ok ⟨outer, before, .content tag p.line⟩ := by
      simp [Cursor.step, hp]
    have hcolon : Cursor.step ⟨outer, before, .content tag p.line⟩ q =
        .ok ⟨outer, before, .value tag p.line⟩ := by
      simp [Cursor.step, hq]
    rw [List.foldlM_cons, htag]
    show List.foldlM Cursor.step _ [q, u] = _
    rw [List.foldlM_cons, hcolon]
    show List.foldlM Cursor.step _ [u] = _
    rw [List.foldlM_cons, step_value hv]
    rfl
  | .block tag items, placed, outer, before, ⟨_, hitems⟩, hplaced => by
    obtain ⟨p, placed, rfl, hp, hplaced⟩ := List.map_eq_cons_iff.mp hplaced
    obtain ⟨q, placed, rfl, hq, hplaced⟩ := List.map_eq_cons_iff.mp hplaced
    obtain ⟨inside, last, rfl, hinside, hlast⟩ := List.map_eq_append_iff.mp hplaced
    obtain ⟨u, last, rfl, hu, hlast⟩ := List.map_eq_cons_iff.mp hlast
    obtain rfl := List.map_eq_nil_iff.mp hlast
    obtain ⟨es, hes, hread⟩ :=
      Item.readAll items inside (⟨tag, p.line, before⟩ :: outer) [] hitems hinside
    refine ⟨[.block tag p.line es], by rw [List.map_singleton, Entry.bare, Entry.bares_eq_map, hes], ?_⟩
    have htag : Cursor.step ⟨outer, before, .tag⟩ p = .ok ⟨outer, before, .content tag p.line⟩ := by
      simp [Cursor.step, hp]
    have hopen : Cursor.step ⟨outer, before, .content tag p.line⟩ q =
        .ok ⟨⟨tag, p.line, before⟩ :: outer, [], .tag⟩ := by
      simp [Cursor.step, hq, Cursor.enter]
    have hclose : Cursor.step ⟨⟨tag, p.line, before⟩ :: outer, es.reverse ++ [], .tag⟩ u =
        .ok ⟨outer, .block tag p.line es :: before, .tag⟩ := by
      simp [Cursor.step, hu]
    rw [List.foldlM_cons, htag]
    show List.foldlM Cursor.step _ (q :: (inside ++ [u])) = _
    rw [List.foldlM_cons, hopen]
    show List.foldlM Cursor.step _ (inside ++ [u]) = _
    rw [List.foldlM_append, hread]
    show List.foldlM Cursor.step _ [u] = _
    rw [List.foldlM_cons, hclose]
    rfl

theorem Item.readAll : ∀ (items : List Item) (placed : List Placed) (outer : List OpenBlock)
    (before : List Entry), AllGood items → placed.map Placed.lexeme = listLexemes items →
    Item.Read items placed outer before
  | [], placed, outer, before, _, hplaced => by
    obtain rfl := List.map_eq_nil_iff.mp hplaced
    exact ⟨[], rfl, rfl⟩
  | item :: items, placed, outer, before, ⟨h, hitems⟩, hplaced => by
    obtain ⟨first, others, rfl, hfirst, hothers⟩ := List.map_eq_append_iff.mp hplaced
    obtain ⟨es, hes, hread⟩ := Item.read item first outer before h hfirst
    obtain ⟨es', hes', hread'⟩ := Item.readAll items others outer (es.reverse ++ before) hitems hothers
    refine ⟨es ++ es', by rw [List.map_append, hes, hes']; rfl, ?_⟩
    rw [List.foldlM_append, hread]
    show List.foldlM Cursor.step _ others = _
    rw [hread', List.reverse_append, List.append_assoc]

end

/-- **Written entries are read back**, but for their lines. -/
theorem entries_texts {items : List Item} (h : Item.AllGood items) :
    ∃ es : List Entry, es.map Entry.bare = items ∧
      (lexemes (Item.texts 0 items) >>= entries) = .ok es := by
  obtain ⟨line', placed, hplaced, hlex⟩ := Item.spells_texts 0 items h 1
  obtain ⟨es, hes, hread⟩ := Item.readAll items placed [] [] h hplaced
  refine ⟨es, hes, ?_⟩
  have hlexemes : lexemes (Item.texts 0 items) = .ok placed := by
    have hrest := hlex []
    rw [List.append_nil] at hrest
    rw [lexemes, hrest]
    simp [lexFrom, Except.map]
  rw [hlexemes]
  show entries placed = _
  rw [entries, Cursor.start, hread]
  simp [Cursor.close, bind, Except.bind]

end Dataflow.Saved
