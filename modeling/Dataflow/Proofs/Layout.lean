import Dataflow.Proofs.Item

/-!
# How a saved text is laid out

A saved text is made of white space, remarks and the spellings of lexemes.

* `Text.Literal`            a string as it stands behind its opening quote: a newline can only stand
                            there behind a backslash;
* `Part`, `textOf`          a part of a text, and the text of some parts;
* `Laid`                    parts of which each fits in front of those behind it;
* `placedFrom`              the lexemes among some parts, with the line that is counted for each;
* `lexFrom_eq_ok_iff`       a text is cut into lexemes just if it is laid out, and the lexemes are
                            those of its parts.
-/

namespace Dataflow

/-! ## strings -/

namespace Text

/-- what stands behind an opening quote, up to the closing one, and the text that it stands for -/
inductive Literal : List Char → List Char → Prop where
  | close : Literal ['"'] []
  | plain {c : Char} {written text : List Char} (hq : c ≠ '"') (hb : c ≠ '\\') (hn : c ≠ '\n')
    (h : Literal written text) : Literal (c :: written) (c :: text)
  | escaped (c : Char) {written text : List Char} (h : Literal written text) :
    Literal ('\\' :: c :: written) (unescape c :: text)

theorem Literal.readQuoted? {written value : List Char} (h : Literal written value)
    (rest : List Char) : readQuoted? (written ++ rest) = some (value, rest) := by
  induction h with
  | close => exact readQuoted?_quote rest
  | plain hq hb hn h ih =>
    rw [List.cons_append, readQuoted?_plain _ hq hb hn, ih]
    rfl
  | escaped c h ih =>
    rw [List.cons_append, List.cons_append, readQuoted?_backslash, ih]
    rfl

theorem exists_literal {text value rest : List Char} (h : readQuoted? text = some (value, rest)) :
    ∃ written, Literal written value ∧ text = written ++ rest := by
  fun_induction readQuoted? text generalizing value with
  | case1 => cases h
  | case2 => cases h; exact ⟨_, .close, rfl⟩
  | case3 => cases h
  | case4 => cases h; exact ⟨_, .close, rfl⟩
  | case5 => cases h
  | case6 next tail _ _ ih =>
    obtain ⟨⟨a, b⟩, hab, heq⟩ := Option.map_eq_some_iff.mp h
    cases heq
    obtain ⟨written, hwritten, rfl⟩ := ih hab
    exact ⟨_, .escaped next hwritten, rfl⟩
  | case7 c next tail hq hn hb ih =>
    obtain ⟨⟨a, b⟩, hab, heq⟩ := Option.map_eq_some_iff.mp h
    cases heq
    obtain ⟨written, hwritten, htail⟩ := ih hab
    exact ⟨_, .plain hq hb hn hwritten, by rw [htail, List.cons_append]⟩

end Text

namespace Saved

/-! ## parts -/

/-- a piece of a saved text -/
inductive Part where
  /-- white space, newlines among it -/
  | blank (c : Char)
  /-- what a `#` hides, up to the end of the line -/
  | remark (hidden : List Char)
  /-- a lexeme with its spelling -/
  | spelled (lexeme : Lexeme) (written : List Char)

namespace Part

def text : Part → List Char
  | .blank c => [c]
  | .remark hidden => '#' :: hidden
  | .spelled _ written => written

def lexeme? : Part → Option Lexeme
  | .spelled lexeme _ => some lexeme
  | _ => none

/-- a newline that separates lexemes -/
def breaks : Part → Nat
  | .blank c => if c = '\n' then 1 else 0
  | _ => 0

/-- the newlines inside a string -/
def folded : Part → Nat
  | .spelled (.string _) written => written.count '\n'
  | _ => 0

end Part

/-- the lexeme is spelled like this -/
def Lexeme.WrittenAs (written : List Char) : Lexeme → Prop
  | .word text => isTag text = true ∧ written = text.toList
  | .number text => isNumberText text = true ∧ written = text.toList
  | .string text => ∃ literal, Text.Literal literal text.toList ∧ written = '"' :: literal
  | .openBrace => written = ['\x7b']
  | .closeBrace => written = ['\x7d']
  | .colon => written = [':']

/-- a text behind the lexeme that does not carry it on -/
def Lexeme.Stops (after : List Char) : Lexeme → Prop
  | .word _ => ∀ c ∈ after.head?, Text.isWordPart c = false
  | .number _ => ∀ c ∈ after.head?, isNumberPart c = false
  | _ => True

/-- the part can stand in front of a text -/
def Part.Fits (after : List Char) : Part → Prop
  | .blank c => Text.isBlank c = true
  | .remark hidden => '\n' ∉ hidden ∧ ∀ c ∈ after.head?, c = '\n'
  | .spelled lexeme written => lexeme.WrittenAs written ∧ lexeme.Stops after

def textOf (parts : List Part) : List Char := parts.flatMap Part.text

/-- every part can stand in front of those behind it -/
def Laid : List Part → Prop
  | [] => True
  | part :: rest => part.Fits (textOf rest) ∧ Laid rest

/-- the lexemes among the parts, with the lines that are counted for them -/
def placedFrom (line : Nat) : List Part → List Placed
  | [] => []
  | .spelled lexeme _ :: rest => ⟨lexeme, line⟩ :: placedFrom line rest
  | part :: rest => placedFrom (line + part.breaks) rest

variable {line : Nat} {text after : List Char} {parts : List Part}

theorem textOf_cons (part : Part) (rest : List Part) :
    textOf (part :: rest) = part.text ++ textOf rest := List.flatMap_cons

theorem placedFrom_blank {c : Char} (hn : c ≠ '\n') (rest : List Part) :
    placedFrom line (.blank c :: rest) = placedFrom line rest := by
  show placedFrom (line + (Part.blank c).breaks) rest = _
  rw [Part.breaks, if_neg hn, Nat.add_zero]

/-! ## from parts to lexemes -/

theorem lexFrom_remark :
    lexFrom line ('#' :: after) = lexFrom line (after.dropWhile (· != '\n')) := by
  rw [lexFrom, if_neg (by decide), if_neg (by decide), if_pos rfl]

theorem lexFrom_lexeme {lexeme : Lexeme} {written : List Char} (hwritten : lexeme.WrittenAs written)
    (hstops : lexeme.Stops after) :
    lexFrom line (written ++ after) = cons line lexeme (lexFrom line after) := by
  cases lexeme with
  | word text =>
    obtain ⟨htag, rfl⟩ := hwritten
    exact lexFrom_word htag hstops
  | number text =>
    obtain ⟨hnumber, rfl⟩ := hwritten
    exact lexFrom_number hnumber hstops
  | string text =>
    obtain ⟨literal, hliteral, rfl⟩ := hwritten
    rw [List.cons_append, lexFrom_quote (hliteral.readQuoted? after), String.ofList_toList]
  | openBrace =>
    obtain rfl := hwritten
    exact lexFrom_single rfl
  | closeBrace =>
    obtain rfl := hwritten
    exact lexFrom_single rfl
  | colon =>
    obtain rfl := hwritten
    exact lexFrom_single rfl

theorem lexFrom_textOf (line : Nat) {parts : List Part} (h : Laid parts) :
    lexFrom line (textOf parts) = .ok (placedFrom line parts) := by
  induction parts generalizing line with
  | nil => rw [textOf, List.flatMap_nil, lexFrom, placedFrom]
  | cons part rest ih =>
    obtain ⟨hfits, hrest⟩ := h
    rw [textOf_cons]
    cases part with
    | blank c =>
      by_cases hn : c = '\n'
      · obtain rfl := hn
        exact lexFrom_newline.trans (ih (line + 1) hrest)
      · have hblank : Text.isBlank c = true := hfits
        rw [placedFrom_blank hn, ← ih line hrest]
        exact lexFrom_blank hblank hn
    | remark hidden =>
      obtain ⟨hhidden, hend⟩ : '\n' ∉ hidden ∧ ∀ c ∈ (textOf rest).head?, c = '\n' := hfits
      have hplain : ∀ c ∈ hidden, (c != '\n') = true := fun c hc =>
        bne_iff_ne.mpr fun heq => hhidden (heq ▸ hc)
      have hstop : ∀ c ∈ (textOf rest).head?, (c != '\n') = false := fun c hc => by
        rw [hend c hc]
        rfl
      have hdrop := (Text.cut_run hplain hstop).2
      rw [Part.text, List.cons_append, lexFrom_remark, hdrop]
      exact ih line hrest
    | spelled lexeme written =>
      rw [Part.text, lexFrom_lexeme hfits.1 hfits.2, ih line hrest]
      rfl

/-! ## from lexemes to parts -/

theorem cons_eq_ok {lexeme : Lexeme} {later : Except LoadFault (List Placed)} {placed : List Placed}
    (h : cons line lexeme later = .ok placed) :
    ∃ rest, later = .ok rest ∧ placed = ⟨lexeme, line⟩ :: rest := by
  cases later with
  | error fault => cases h
  | ok rest => exact ⟨rest, rfl, (Except.ok.inj h).symm⟩

theorem written_of_single? {c : Char} {lexeme : Lexeme} (h : single? c = some lexeme) :
    lexeme.WrittenAs [c] ∧ lexeme.Stops after := by
  unfold single? at h
  split at h
  · next hc =>
    obtain rfl := Option.some.inj h
    exact ⟨hc ▸ rfl, trivial⟩
  · split at h
    · next hc =>
      obtain rfl := Option.some.inj h
      exact ⟨hc ▸ rfl, trivial⟩
    · split at h
      · next hc =>
        obtain rfl := Option.some.inj h
        exact ⟨hc ▸ rfl, trivial⟩
      · cases h

/-- the text is laid out in parts with these lexemes among them -/
def LaidOut (line : Nat) (text : List Char) (placed : List Placed) : Prop :=
  ∃ parts, Laid parts ∧ textOf parts = text ∧ placedFrom line parts = placed

namespace LaidOut

variable {placed : List Placed} {c : Char}

theorem newline (h : LaidOut (line + 1) text placed) : LaidOut line ('\n' :: text) placed := by
  obtain ⟨parts, hlaid, rfl, rfl⟩ := h
  exact ⟨.blank '\n' :: parts, ⟨Text.isBlank_newline, hlaid⟩, rfl, rfl⟩

theorem blank (hb : Text.isBlank c = true) (hn : c ≠ '\n') (h : LaidOut line text placed) :
    LaidOut line (c :: text) placed := by
  obtain ⟨parts, hlaid, rfl, rfl⟩ := h
  exact ⟨.blank c :: parts, ⟨hb, hlaid⟩, rfl, placedFrom_blank hn parts⟩

theorem remark (h : LaidOut line (text.dropWhile (· != '\n')) placed) :
    LaidOut line ('#' :: text) placed := by
  obtain ⟨parts, hlaid, htext, rfl⟩ := h
  refine ⟨.remark (text.takeWhile (· != '\n')) :: parts, ⟨⟨fun hmem => ?_, fun c hc => ?_⟩, hlaid⟩,
    ?_, rfl⟩
  · exact absurd (List.mem_takeWhile_imp hmem) (by decide)
  · rw [htext] at hc
    simpa using Text.head?_dropWhile (· != '\n') text c hc
  · rw [textOf_cons, htext, Part.text, List.cons_append, List.takeWhile_append_dropWhile]

theorem spelled (lexeme : Lexeme) {written : List Char} (hwritten : lexeme.WrittenAs written)
    (hstops : lexeme.Stops text) (h : LaidOut line text placed) :
    LaidOut line (written ++ text) (⟨lexeme, line⟩ :: placed) := by
  obtain ⟨parts, hlaid, rfl, rfl⟩ := h
  exact ⟨.spelled lexeme written :: parts, ⟨⟨hwritten, hstops⟩, hlaid⟩, textOf_cons _ _, rfl⟩

end LaidOut

/-- a text that is cut into lexemes is laid out -/
theorem laidOut_of_lexFrom (line : Nat) (text : List Char) (placed : List Placed)
    (h : lexFrom line text = .ok placed) : LaidOut line text placed := by
  fun_induction lexFrom line text generalizing placed with
  | case1 =>
    obtain rfl := Except.ok.inj h
    exact ⟨[], trivial, rfl, rfl⟩
  | case2 line rest ih => exact (ih placed h).newline
  | case3 line c rest hn hb ih => exact (ih placed h).blank hb hn
  | case4 line rest _ _ ih => exact (ih placed h).remark
  | case5 line rest value after hread _ _ _ ih =>
    obtain ⟨later, hlater, rfl⟩ := cons_eq_ok h
    obtain ⟨literal, hliteral, rfl⟩ := Text.exists_literal hread
    have hwritten : (Lexeme.string (String.ofList value)).WrittenAs ('"' :: literal) :=
      ⟨literal, by rwa [String.toList_ofList], rfl⟩
    exact (ih later hlater).spelled _ hwritten trivial
  | case6 => cases h
  | case7 line c rest _ _ _ _ lexeme hsingle ih =>
    obtain ⟨later, hlater, rfl⟩ := cons_eq_ok h
    obtain ⟨hwritten, hstops⟩ := written_of_single? hsingle
    exact (ih later hlater).spelled _ hwritten hstops
  | case8 line c rest _ _ _ _ _ hstart ih =>
    obtain ⟨later, hlater, rfl⟩ := cons_eq_ok h
    have hnumber : isNumberText (String.ofList (c :: rest.takeWhile isNumberPart)) = true := by
      rw [isNumberText, String.toList_ofList]
      exact Bool.and_eq_true_iff.mpr ⟨hstart, List.all_takeWhile⟩
    have hspelled := (ih later hlater).spelled
      (.number (String.ofList (c :: rest.takeWhile isNumberPart)))
      ⟨hnumber, rfl⟩ (Text.head?_dropWhile isNumberPart rest)
    rwa [String.toList_ofList, List.cons_append, List.takeWhile_append_dropWhile] at hspelled
  | case9 line c rest hn hb hh hq hsingle hnumber hstart ih =>
    obtain ⟨later, hlater, rfl⟩ := cons_eq_ok h
    have htag : isTag (String.ofList (c :: rest.takeWhile Text.isWordPart)) = true := by
      rw [isTag, String.toList_ofList]
      simp [hstart, hnumber, hb, hn, hh, hq, hsingle, List.all_takeWhile]
    have hspelled := (ih later hlater).spelled
      (.word (String.ofList (c :: rest.takeWhile Text.isWordPart)))
      ⟨htag, rfl⟩ (Text.head?_dropWhile Text.isWordPart rest)
    rwa [String.toList_ofList, List.cons_append, List.takeWhile_append_dropWhile] at hspelled
  | case10 => cases h

/-- **A text is cut into lexemes just if it is laid out**, and the lexemes are those of its
parts. -/
theorem lexFrom_eq_ok_iff {placed : List Placed} :
    lexFrom line text = .ok placed ↔ LaidOut line text placed := by
  constructor
  · exact laidOut_of_lexFrom line text placed
  · rintro ⟨parts, hlaid, rfl, rfl⟩
    exact lexFrom_textOf line hlaid

end Saved

end Dataflow
