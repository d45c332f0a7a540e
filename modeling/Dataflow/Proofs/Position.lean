import Mathlib.Algebra.GroupWithZero.Nat
import Dataflow.Proofs.Extension
import Dataflow.Proofs.Layout

/-!
# The lines that lexemes and faults are given

The line of a lexeme is one more than the newlines in front of it, but for those that stand behind a
backslash inside a string.

* `Laid.count_textOf`        the newlines in front of a part;
* `Laid.getElem?_placedFrom`   a lexeme among those of a text, and its line;
* `OnLines`                  an outcome that is as it should be, or a fault at one of some lines;
* `Entry.On`, `Cursor.On`    entries with their lines among these; one lexeme keeps them there
                             (`Cursor.On.step`), and so do all (`onLines_entries`);
* `onLines_load`             a fault of the reader is at the line of a lexeme;
* `lexemes_line`             the lines of the lexemes and faults of a text.
-/

namespace Dataflow.Saved

/-! ## lexemes -/

section

variable {text after : List Char} {part : Part} {parts front back : List Part}

theorem isWordPart_newline : Text.isWordPart '\n' = false := by decide +kernel

theorem count_newline_word {text : String} (h : isTag text = true) :
    text.toList.count '\n' = 0 := by
  rw [List.count_eq_zero]
  unfold isTag at h
  split at h
  · cases h
  · next c rest htext =>
    simp only [Bool.and_eq_true, List.all_eq_true, bne_iff_ne] at h
    obtain ⟨⟨⟨⟨⟨⟨⟨-, -⟩, -⟩, hne⟩, -⟩, -⟩, -⟩, hrest⟩ := h
    rw [htext, List.mem_cons, not_or]
    refine ⟨hne.symm, fun hmem => ?_⟩
    have hpart := hrest _ hmem
    rw [isWordPart_newline] at hpart
    cases hpart

theorem count_newline_number {text : String} (h : isNumberText text = true) :
    text.toList.count '\n' = 0 := by
  rw [List.count_eq_zero]
  unfold isNumberText at h
  split at h
  · cases h
  · next c rest htext =>
    simp only [Bool.and_eq_true, List.all_eq_true] at h
    obtain ⟨hstart, hrest⟩ := h
    rw [htext, List.mem_cons, not_or]
    exact ⟨fun heq => absurd (heq ▸ hstart) (by decide),
      fun hmem => absurd (hrest _ hmem) (by decide)⟩

/-- a newline of a part separates lexemes or stands in a string -/
theorem Part.Fits.count_text (h : part.Fits after) :
    part.text.count '\n' = part.breaks + part.folded := by
  cases part with
  | blank c => simp [Part.text, Part.breaks, Part.folded, List.count_singleton]
  | remark hidden =>
    have hnone : hidden.count '\n' = 0 := List.count_eq_zero.mpr h.1
    rw [Part.text, List.count_cons_of_ne (by decide), hnone]
    rfl
  | spelled lexeme written =>
    obtain ⟨hwritten, -⟩ := h
    cases lexeme with
    | word text => rw [Part.text, hwritten.2, count_newline_word hwritten.1]; rfl
    | number text => rw [Part.text, hwritten.2, count_newline_number hwritten.1]; rfl
    | string text => exact (Nat.zero_add _).symm
    | openBrace => rw [Part.text, show written = _ from hwritten]; rfl
    | closeBrace => rw [Part.text, show written = _ from hwritten]; rfl
    | colon => rw [Part.text, show written = _ from hwritten]; rfl

theorem Laid.count_textOf (h : Laid (front ++ back)) :
    (textOf front).count '\n' = (front.map Part.breaks).sum + (front.map Part.folded).sum := by
  induction front with
  | nil => rfl
  | cons part front ih =>
    rw [textOf_cons, List.count_append, h.1.count_text, ih h.2, List.map_cons, List.map_cons,
      List.sum_cons, List.sum_cons]
    omega

theorem placedFrom_append (line : Nat) (front back : List Part) :
    placedFrom line (front ++ back) =
      placedFrom line front ++ placedFrom (line + (front.map Part.breaks).sum) back := by
  induction front generalizing line with
  | nil => rfl
  | cons part front ih =>
    rw [List.map_cons, List.sum_cons, ← Nat.add_assoc]
    cases part with
    | blank c => exact ih _
    | remark hidden => exact ih _
    | spelled lexeme written => exact congrArg _ (ih line)

theorem map_lexeme_placedFrom (line : Nat) (parts : List Part) :
    (placedFrom line parts).map Placed.lexeme = parts.filterMap Part.lexeme? := by
  induction parts generalizing line with
  | nil => rfl
  | cons part parts ih =>
    cases part with
    | blank c => exact ih _
    | remark hidden => exact ih _
    | spelled lexeme written => exact congrArg _ (ih line)

/-- a lexeme is as many places behind the first one as there are lexemes in front of it, and its
line is counted from the newlines that separate these -/
theorem getElem?_placedFrom (line : Nat) (front back : List Part) (lexeme : Lexeme)
    (written : List Char) :
    (placedFrom line (front ++ .spelled lexeme written :: back))[
        (front.filterMap Part.lexeme?).length]? =
      some ⟨lexeme, line + (front.map Part.breaks).sum⟩ := by
  have hlength : (placedFrom line front).length = (front.filterMap Part.lexeme?).length := by
    rw [← map_lexeme_placedFrom line front, List.length_map]
  rw [placedFrom_append, ← hlength, List.getElem?_append_right (Nat.le_refl _), Nat.sub_self]
  rfl

end

/-! ## outcomes with their lines -/

/-- the line that a fault is reported at -/
def LoadFault.line? : LoadFault → Option Nat
  | .unexpectedCharacter line _ => some line
  | .unexpectedLexeme line _ _ => some line
  | .unterminatedString line => some line
  | .unexpectedEnd => none
  | .invalidNumber line _ => some line
  | .invalidNodeId line _ => some line
  | .missingNodeId line => some line
  | .wrongContent line _ => some line
  | .missingDiagram => none

/-- an outcome with some property, or a fault at one of these lines or at none -/
def OnLines {α : Type} (L : Nat → Prop) (P : α → Prop) : Except LoadFault α → Prop
  | .ok a => P a
  | .error fault => ∀ line ∈ fault.line?, L line

section

variable {α β : Type} {L : Nat → Prop} {P : α → Prop} {Q : β → Prop} {r : Except LoadFault α}

theorem OnLines.bind {f : α → Except LoadFault β} (h : OnLines L P r)
    (hf : ∀ a, P a → OnLines L Q (f a)) : OnLines L Q (r >>= f) := by
  cases r with
  | ok a => exact hf a h
  | error fault => exact h

theorem OnLines.map (f : α → β) (h : OnLines L P r) : OnLines L (fun _ => True) (r.map f) := by
  cases r with
  | ok a => trivial
  | error fault => exact h

theorem onLines_error {fault : LoadFault} {line : Nat} (hline : fault.line? = some line)
    (h : L line) : OnLines L P (.error fault) := by
  intro found hfound
  rw [hline] at hfound
  exact Option.some.inj hfound ▸ h

theorem onLines_foldlM {f : α → β → Except LoadFault α} {items : List β}
    (hf : ∀ a, ∀ item ∈ items, P a → OnLines L P (f a item)) (a : α) (ha : P a) :
    OnLines L P (items.foldlM f a) := by
  induction items generalizing a with
  | nil => exact ha
  | cons item items ih =>
    rw [List.foldlM_cons]
    refine (hf a item List.mem_cons_self ha).bind fun b hb => ?_
    exact ih (fun a item hitem => hf a item (List.mem_cons_of_mem _ hitem)) b hb

end

/-! ## entries -/

variable {L : Nat → Prop}

/-- an entry whose lines are all among these -/
inductive Entry.On (L : Nat → Prop) : Entry → Prop where
  | scalar {tag : String} {line : Nat} {value : Lexeme} (hline : L line) :
    Entry.On L (.scalar tag line value)
  | block {tag : String} {line : Nat} {entries : List Entry} (hline : L line)
    (h : ∀ e ∈ entries, Entry.On L e) : Entry.On L (.block tag line entries)

theorem Entry.On.line {e : Entry} (h : e.On L) : L e.line := by
  cases h with
  | scalar hline => exact hline
  | block hline _ => exact hline

/-- the line of a tag whose content is still to come -/
def Phase.line? : Phase → Option Nat
  | .tag => none
  | .content _ line => some line
  | .value _ line => some line

/-- all lines that were read so far are among these -/
structure Cursor.On (L : Nat → Prop) (c : Cursor) : Prop where
  outer : ∀ b ∈ c.outer, L b.line ∧ ∀ e ∈ b.before, e.On L
  entries : ∀ e ∈ c.entries, e.On L
  phase : ∀ line ∈ c.phase.line?, L line

theorem Cursor.on_start : Cursor.start.On L := ⟨nofun, nofun, nofun⟩

theorem Cursor.On.enter {c : Cursor} (h : c.On L) (tag : String) {line : Nat} (hline : L line) :
    (c.enter tag line).On L where
  outer := List.forall_mem_cons.mpr ⟨⟨hline, h.entries⟩, h.outer⟩
  entries := nofun
  phase := nofun

/-- **one lexeme**: what is read keeps to the lines, and so does the fault that it may meet -/
theorem Cursor.On.step {c : Cursor} (h : c.On L) {p : Placed} (hp : L p.line) :
    OnLines L (Cursor.On L) (c.step p) := by
  obtain ⟨outer, entries, phase⟩ := c
  obtain ⟨lexeme, line⟩ := p
  have hunexpected : ∀ found missing,
      OnLines L (Cursor.On L) (.error (.unexpectedLexeme line found missing)) :=
    fun _ _ => onLines_error rfl hp
  cases phase with
  | tag =>
    cases lexeme with
    | word tag => exact ⟨h.outer, h.entries, fun _ hl => Option.some.inj hl ▸ hp⟩
    | closeBrace =>
      cases outer with
      | nil => exact hunexpected _ _
      | cons b outer =>
        obtain ⟨⟨hb, hbefore⟩, houter⟩ := List.forall_mem_cons.mp h.outer
        have hblock : (Entry.block b.tag b.line entries.reverse).On L :=
          .block hb fun e he => h.entries e (List.mem_reverse.mp he)
        exact ⟨houter, List.forall_mem_cons.mpr ⟨hblock, hbefore⟩, nofun⟩
    | _ => exact hunexpected _ _
  | content tag tagLine =>
    have htag : L tagLine := h.phase tagLine rfl
    have hmax : L (max line tagLine) := by
      rcases Nat.le_total line tagLine with hle | hle
      · exact (Nat.max_eq_right hle).symm ▸ htag
      · exact (Nat.max_eq_left hle).symm ▸ hp
    cases lexeme with
    | openBrace => exact h.enter tag htag
    | colon => exact ⟨h.outer, h.entries, fun _ hl => Option.some.inj hl ▸ htag⟩
    | _ => exact onLines_error rfl hmax
  | value tag tagLine =>
    have htag : L tagLine := h.phase tagLine rfl
    have hscalar : ∀ value, (Cursor.mk outer (.scalar tag tagLine value :: entries) .tag).On L :=
      fun value => ⟨h.outer, List.forall_mem_cons.mpr ⟨.scalar htag, h.entries⟩, nofun⟩
    cases lexeme with
    | openBrace => exact h.enter tag htag
    | closeBrace => exact hunexpected _ _
    | colon => exact hunexpected _ _
    | _ => exact hscalar _

/-- **all lexemes**: the entries keep to the lines of the lexemes -/
theorem onLines_entries {placed : List Placed} (h : ∀ p ∈ placed, L p.line) :
    OnLines L (fun es => ∀ e ∈ es, e.On L) (entries placed) := by
  have hrun : OnLines L (Cursor.On L) (placed.foldlM Cursor.step .start) :=
    onLines_foldlM (fun _ p hp hc => hc.step (h p hp)) _ Cursor.on_start
  refine hrun.bind fun c hc => ?_
  unfold Cursor.close
  split
  · exact fun e he => hc.entries e (List.mem_reverse.mp he)
  · exact nofun

/-! ## what entries say -/

section

variable {e : Entry} {block : List Entry}

theorem Entry.On.wrongContent {α : Type} {P : α → Prop} (h : e.On L) :
    OnLines L P (.error e.wrongContent) :=
  onLines_error rfl h.line

theorem Entry.On.asBlock (h : e.On L) : OnLines L (fun es => ∀ e ∈ es, e.On L) e.asBlock := by
  cases h with
  | scalar hline => exact onLines_error rfl hline
  | block hline hes => exact hes

theorem Entry.On.asString (h : e.On L) : OnLines L (fun _ => True) e.asString := by
  unfold Entry.asString
  split
  · trivial
  · exact h.wrongContent

theorem Entry.On.asNumber {α : Type} (read? : String → Option α) (h : e.On L) :
    OnLines L (fun _ => True) (e.asNumber read?) := by
  unfold Entry.asNumber
  split
  · split
    · trivial
    · exact onLines_error rfl h.line
  · exact h.wrongContent

theorem Entry.On.asNodeId (h : e.On L) : OnLines L (fun _ => True) e.asNodeId := by
  refine (h.asNumber readIndex?).bind fun id _ => ?_
  split
  · exact onLines_error rfl h.line
  · trivial

theorem Entry.On.readConnectionField (h : e.On L) (c : ConnectionDraft) :
    OnLines L (fun _ => True) (c.readField e) := by
  unfold ConnectionDraft.readField
  split
  · exact (h.asNumber readIndex?).map _
  · exact (h.asNumber readIndex?).map _
  · exact (h.asNumber readIndex?).map _
  · trivial

theorem Entry.On.readAxis (h : e.On L) (n : NodeDraft) :
    OnLines L (fun _ => True) (n.readAxis e) := by
  unfold NodeDraft.readAxis
  split
  · exact (h.asNumber _).map _
  · exact (h.asNumber _).map _
  · trivial

theorem Entry.On.readField (h : e.On L) (n : NodeDraft) :
    OnLines L (fun _ => True) (n.readField e) := by
  unfold NodeDraft.readField
  split
  · exact h.asNodeId.map _
  · exact h.asBlock.bind fun _ hes =>
      onLines_foldlM (fun n e he _ => (hes e he).readAxis n) n trivial
  · exact h.asString.map _
  · exact (h.asNumber readIndex?).map _
  · refine h.asBlock.bind fun _ hes => ?_
    have hfields := onLines_foldlM (P := fun _ => True)
      (fun c e he _ => (hes e he).readConnectionField c) ⟨e.line, none, none, none⟩ trivial
    exact hfields.bind fun _ _ => trivial
  · trivial

theorem Entry.On.readNode (h : e.On L) : OnLines L (fun _ => True) (readNode e) := by
  refine h.asBlock.bind fun _ hes => ?_
  have hfields := onLines_foldlM (P := fun _ => True)
    (fun n e he _ => (hes e he).readField n) .empty trivial
  refine hfields.bind fun n _ => ?_
  split
  · trivial
  · exact onLines_error rfl h.line

theorem line?_readNodes (h : ∀ e ∈ block, e.On L) (draft : Draft) :
    ∀ fault ∈ (Draft.readNodes block draft).1, ∀ line ∈ fault.line?, L line := by
  induction block generalizing draft with
  | nil => exact nofun
  | cons e rest ih =>
    obtain ⟨he, hrest⟩ := List.forall_mem_cons.mp h
    have hnode := he.readNode
    unfold Draft.readNodes
    revert hnode
    cases readNode e with
    | ok r => exact fun _ => ih hrest _
    | error fault => exact fun hfault found hfound => Option.some.inj hfound ▸ hfault

theorem onLines_build (h : ∀ e ∈ block, e.On L) :
    OnLines L (fun _ => True) (build block).result := by
  have hfilter : ∀ e ∈ block.filter (·.tag == "node"), e.On L := fun e he =>
    h e (List.mem_of_mem_filter he)
  have hnodes := line?_readNodes hfilter .empty
  unfold build
  revert hnodes
  rcases Draft.readNodes (block.filter (·.tag == "node")) .empty with ⟨_ | fault, draft⟩
  · exact fun _ => trivial
  · exact fun hnodes => hnodes fault rfl

theorem onLines_diagramBlock (h : ∀ e ∈ block, e.On L) :
    OnLines L (fun es => ∀ e ∈ es, e.On L) (diagramBlock block) := by
  unfold diagramBlock
  split
  · next e hfind => exact (h e (List.mem_of_find?_eq_some hfind)).asBlock
  · exact nofun

/-- a fault that is met once a text is cut into lexemes is at the line of one of them -/
theorem onLines_loadPlaced {placed : List Placed} (h : ∀ p ∈ placed, L p.line) :
    OnLines L (fun _ => True) (loadPlaced placed).result := by
  have hblock := (onLines_entries h).bind fun _ hes => onLines_diagramBlock hes
  unfold loadPlaced
  revert hblock
  cases entries placed >>= diagramBlock with
  | ok block => exact onLines_build
  | error fault => exact id

end

/-- **The line of a lexeme** is one more than the newlines in front of it, less those that stand
behind a backslash inside a string; so it is the line that the lexeme begins on just if no string in
front of it has such a newline.  The line of a fault is that of a lexeme. -/
theorem lexemes_line {text : String} {placed : List Placed} (h : lexemes text = .ok placed) :
    (∃ parts, Laid parts ∧ textOf parts = text.toList) ∧
    (∀ parts, Laid parts → textOf parts = text.toList →
      placed.map Placed.lexeme = parts.filterMap Part.lexeme? ∧
      ∀ front lexeme written back, parts = front ++ .spelled lexeme written :: back →
        ∃ line, placed[(front.filterMap Part.lexeme?).length]? = some ⟨lexeme, line⟩ ∧
          line + (front.map Part.folded).sum = 1 + (textOf front).count '\n' ∧
          (line = 1 + (textOf front).count '\n' ↔ ∀ part ∈ front, part.folded = 0)) ∧
    ∀ fault, (load text).result = .error fault →
      ∀ line ∈ fault.line?, ∃ p ∈ placed, p.line = line := by
  refine ⟨?_, fun parts hlaid htext => ?_, fun fault hfault line hline => ?_⟩
  · obtain ⟨parts, hlaid, htext, -⟩ := lexFrom_eq_ok_iff.mp h
    exact ⟨parts, hlaid, htext⟩
  · obtain rfl : placed = placedFrom 1 parts := by
      have hread := lexFrom_textOf 1 hlaid
      rw [htext] at hread
      exact Except.ok.inj (h.symm.trans hread)
    refine ⟨map_lexeme_placedFrom 1 parts, ?_⟩
    rintro front lexeme written back rfl
    have hcount := hlaid.count_textOf
    have hnone : (front.map Part.folded).sum = 0 ↔ ∀ part ∈ front, part.folded = 0 := by
      rw [List.sum_eq_zero_iff_forall_eq_nat, List.forall_mem_map]
    refine ⟨_, getElem?_placedFrom 1 front back lexeme written, ?_, ?_⟩
    · omega
    · rw [← hnone]
      omega
  · have hlines : OnLines (fun line => ∃ p ∈ placed, p.line = line) (fun _ => True)
        (loadPlaced placed).result := onLines_loadPlaced fun p hp => ⟨p, hp, rfl⟩
    rw [← load_eq h, hfault] at hlines
    exact hlines line hline

/-- a remark and a newline in front of a brace that does not belong there -/
theorem lexemes_line_remark :
    let text := "# a\nb: \x7d"
    let placed : List Placed := [⟨.word "b", 2⟩, ⟨.colon, 2⟩, ⟨.closeBrace, 2⟩]
    let front : List Part := [.remark [' ', 'a'], .blank '\n', .spelled (.word "b") ['b'],
      .spelled .colon [':'], .blank ' ']
    lexemes text = .ok placed ∧
      (∃ line, placed[2]? = some ⟨.closeBrace, line⟩ ∧ line = 1 + (textOf front).count '\n') ∧
      (load text).result = .error (.unexpectedLexeme 2 .closeBrace .value) ∧
      ∃ p ∈ placed, p.line = 2 := by
  intro text placed front
  have hplaced : lexemes text = .ok placed := by decide +kernel
  have hload : (load text).result = .error (.unexpectedLexeme 2 .closeBrace .value) := by
    rw [load_eq hplaced]
    rfl
  have hblank : Text.isBlank ' ' = true := rfl
  have hend : Text.isWordPart ':' = false := by decide +kernel
  have hcolon : ∀ c ∈ some ':', Text.isWordPart c = false := fun _ hc =>
    Option.mem_some_iff.mp hc ▸ hend
  have hnewline : ∀ c ∈ some '\n', c = '\n' := fun _ hc => (Option.mem_some_iff.mp hc).symm
  have hlaid : Laid (front ++ [.spelled .closeBrace ['\x7d']]) :=
    ⟨⟨by decide, hnewline⟩, Text.isBlank_newline, ⟨⟨by decide +kernel, rfl⟩, hcolon⟩,
      ⟨rfl, trivial⟩, hblank, ⟨rfl, trivial⟩, trivial⟩
  obtain ⟨-, hlexemes, hfault⟩ := lexemes_line hplaced
  obtain ⟨line, hline, -, hplain⟩ := (hlexemes _ hlaid (by decide +kernel)).2 front _ _ [] rfl
  exact ⟨hplaced, ⟨line, hline, hplain.mpr (by decide)⟩, hload, hfault _ hload 2 rfl⟩

/-- a newline behind a backslash, in front of a colon that does not belong there: the colon begins
on the second line, and is said to be on the first one -/
theorem lexemes_line_folded :
    let text := "a: \"b\\\nc\" :"
    let placed : List Placed := [⟨.word "a", 1⟩, ⟨.colon, 1⟩, ⟨.string "b\nc", 1⟩, ⟨.colon, 1⟩]
    let front : List Part := [.spelled (.word "a") ['a'], .spelled .colon [':'], .blank ' ',
      .spelled (.string "b\nc") ['"', 'b', '\\', '\n', 'c', '"'], .blank ' ']
    Laid (front ++ [.spelled .colon [':']]) ∧
      textOf (front ++ [.spelled .colon [':']]) = text.toList ∧ lexemes text = .ok placed ∧
      placed[3]? = some ⟨.colon, 1⟩ ∧ 1 + (textOf front).count '\n' = 2 ∧
      (load text).result = .error (.unexpectedLexeme 1 .colon .tag) := by
  intro text placed front
  have hplaced : lexemes text = .ok placed := by decide +kernel
  have hliteral : Text.Literal ['b', '\\', '\n', 'c', '"'] "b\nc".toList :=
    .plain (by decide) (by decide) (by decide)
      (.escaped '\n' (.plain (by decide) (by decide) (by decide) .close))
  have hblank : Text.isBlank ' ' = true := rfl
  have hend : Text.isWordPart ':' = false := by decide +kernel
  have hcolon : ∀ c ∈ some ':', Text.isWordPart c = false := fun _ hc =>
    Option.mem_some_iff.mp hc ▸ hend
  have hlaid : Laid (front ++ [.spelled .colon [':']]) :=
    ⟨⟨⟨by decide +kernel, rfl⟩, hcolon⟩, ⟨rfl, trivial⟩, hblank,
      ⟨⟨_, hliteral, rfl⟩, trivial⟩, hblank, ⟨rfl, trivial⟩, trivial⟩
  refine ⟨hlaid, by decide +kernel, hplaced, rfl, rfl, ?_⟩
  rw [load_eq hplaced]
  rfl

end Dataflow.Saved
