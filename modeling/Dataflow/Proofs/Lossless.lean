import Dataflow.Proofs.Scanning

/-!
# A scan loses nothing

* `Text.Maximal`            a word at its place in a text that no longer word of its kind contains;
* `Token.Stands`            a token as it stands in a text;
* `Token.Spelled`           a text made of the spellings of tokens and white space;
* `Token.scanChars_eq_ok_iff`   the tokens of a text are those that it is spelled with;
* `Token.scanChars_joined`  the spellings of tokens with spaces between them;
* `Token.Outside`           a place outside of literals, which go from one quote to the next;
* `Token.StuckAt`, `Token.scanChars_eq_error_iff`   where a scan fails, and that it does so nowhere
                            else.

For the soundness of `Spelled` a scan carries on that no number and no name goes across the place
that it has come to (`Token.Cut`); for the failures, that what lies behind it is complete
(`Token.Sealed`).
-/

namespace Dataflow

/-! ## maximal words -/

namespace Text

/-- a word of some kind with a text around it, in which no longer word of the kind contains it -/
def Maximal (P : List Char → Prop) (before word after : List Char) : Prop :=
  P word ∧ ∀ left right, left <:+ before → right <+: after → P (left ++ word ++ right) →
    left = [] ∧ right = []

theorem IsNumber.left {left right : List Char} (h : IsNumber (left ++ right)) (hne : left ≠ []) :
    IsNumber left :=
  ⟨hne, fun c hc => h.2 c (List.mem_append_left right hc)⟩

theorem IsName.left {left right : List Char} (h : IsName (left ++ right)) (hne : left ≠ []) :
    IsName left := by
  obtain ⟨c, rest, heq, hstart, hrest⟩ := h
  cases left with
  | nil => exact absurd rfl hne
  | cons u more =>
    obtain ⟨rfl, rfl⟩ := List.cons.inj heq
    exact ⟨u, more, rfl, hstart, fun v hv => hrest v (List.mem_append_left right hv)⟩

theorem IsName.ne_nil {word : List Char} (h : IsName word) : word ≠ [] := by
  obtain ⟨c, rest, rfl, -⟩ := h
  exact List.cons_ne_nil c rest

theorem IsNumber.not_isName {word : List Char} (h : ∀ c ∈ word, c.isDigit = true) :
    ¬ IsName word := by
  intro ⟨c, rest, heq, hstart, _⟩
  have hdigit := h c (heq ▸ List.mem_cons_self)
  rw [isDigit_of_isNameStart hstart] at hdigit
  cases hdigit

variable {P : List Char → Prop} {q : Char → Bool} {before word after : List Char}

/-- a word that cannot go on to either side is maximal -/
theorem Maximal.of_not (hP : ∀ w, P w → ∀ c ∈ w, q c = true)
    (hleft : ∀ left right, P (left ++ right) → left ≠ [] → P left) (hword : P word)
    (hbefore : ∀ left, left <:+ before → ¬ P left) (hafter : ∀ c ∈ after.head?, q c = false) :
    Maximal P before word after := by
  refine ⟨hword, fun left right hl hr h => ⟨?_, ?_⟩⟩
  · by_contra hne
    rw [List.append_assoc] at h
    exact hbefore left hl (hleft left _ h hne)
  · cases right with
    | nil => rfl
    | cons c more =>
      obtain ⟨rest, rfl⟩ := hr
      have htrue := hP _ h c (List.mem_append_right _ List.mem_cons_self)
      rw [hafter c rfl] at htrue
      cases htrue

/-- behind a maximal word there is nothing to carry it on -/
theorem Maximal.head?_after (h : Maximal P before word after)
    (hgrow : ∀ c, q c = true → P (word ++ [c])) : ∀ c ∈ after.head?, q c = false := by
  intro c hc
  by_contra htrue
  obtain ⟨rest, rfl⟩ := List.head?_eq_some_iff.mp hc
  obtain ⟨-, hnil⟩ := h.2 [] [c] (List.nil_suffix) ⟨rest, rfl⟩ (hgrow c (by simpa using htrue))
  cases hnil

end Text

namespace Token

variable {before after text front back : List Char} {body tokens : List Token} {t : Token}
  {fault : Fault}

/-! ## spellings -/

/-- a token as it stands in a text: a number is a maximal run of digits, a name a maximal name, and
a string goes from its quote up to the next one -/
def Stands (before : List Char) (t : Token) (after : List Char) : Prop :=
  match t with
  | .number digits => Text.Maximal Text.IsNumber before digits.toList after
  | .name text => Text.Maximal Text.IsName before text.toList after
  | .string text => '"' ∉ text.toList
  | .mark _ => True
  | .finish => False

/-- a text is made of the spellings of some tokens in order, with any white space around them;
another text stands in front of it -/
inductive Spelled : List Char → List Token → List Char → Prop where
  | nil {before : List Char} : Spelled before [] []
  | blank {before text : List Char} {body : List Token} {c : Char} (hc : Text.isBlank c = true)
      (h : Spelled (before ++ [c]) body text) : Spelled before body (c :: text)
  | token {before after : List Char} {body : List Token} {t : Token} (ht : Stands before t after)
      (h : Spelled (before ++ t.shown.toList) body after) :
      Spelled before (t :: body) (t.shown.toList ++ after)

theorem Stands.proper (h : Stands before t after) : Proper t := by
  cases t with
  | number digits => exact h.1
  | name text => exact h.1
  | string text => exact h
  | mark m => trivial
  | finish => exact h

theorem Stands.stops (h : Stands before t after) : Stops t after := by
  cases t with
  | number digits =>
    refine h.head?_after fun c hc =>
      ⟨List.append_ne_nil_of_right_ne_nil _ (List.cons_ne_nil c []), ?_⟩
    exact List.forall_mem_append.mpr ⟨h.1.2, List.forall_mem_singleton.mpr hc⟩
  | name text =>
    obtain ⟨u, rest, hword, hstart, hrest⟩ := h.1
    refine h.head?_after fun c hc => ⟨u, rest ++ [c], ?_, hstart, ?_⟩
    · rw [hword, List.cons_append]
    · exact List.forall_mem_append.mpr ⟨hrest, List.forall_mem_singleton.mpr hc⟩
  | string text => trivial
  | mark m => trivial
  | finish => trivial

/-- a text is scanned as it is spelled -/
theorem Spelled.scanChars (h : Spelled before body text) :
    Token.scanChars text = .ok (body ++ [.finish]) := by
  induction h with
  | nil => exact scanChars_nil
  | blank hc _ ih => rw [scanChars_blank hc, ih]
  | token ht _ ih =>
    rw [scanChars_shown ht.proper ht.stops, ih]
    rfl

theorem Spelled.proper (h : Spelled before body text) : ∀ t ∈ body, Proper t := by
  induction h with
  | nil => exact List.forall_mem_nil _
  | blank _ _ ih => exact ih
  | token ht _ ih => exact List.forall_mem_cons.mpr ⟨ht.proper, ih⟩

/-- no number and no name goes on from a text into the one behind it -/
structure Cut (before after : List Char) : Prop where
  number : ∀ c ∈ after.head?, c.isDigit = true → ∀ left, left <:+ before → ¬ Text.IsNumber left
  name : ∀ c ∈ after.head?, Text.isNamePart c = true → ∀ left, left <:+ before → ¬ Text.IsName left

namespace Cut

theorem nil : Cut [] after := by
  constructor
  · intro c _ _ left hleft h
    exact h.1 (List.suffix_nil.mp hleft)
  · intro c _ _ left hleft h
    exact h.ne_nil (List.suffix_nil.mp hleft)

theorem of_stop (h : ∀ c ∈ after.head?, Text.isNamePart c = false) : Cut before after := by
  constructor
  · intro c hc hdigit
    have hpart := Text.isNamePart_of_isDigit hdigit
    rw [h c hc] at hpart
    cases hpart
  · intro c hc hpart
    rw [h c hc] at hpart
    cases hpart

theorem of_last {u : Char} (hu : Text.isNamePart u = false) : Cut (before ++ [u]) after := by
  -- a word at the end of the text would have its last character
  have hword : ∀ left, left <:+ before ++ [u] → left ≠ [] →
      ¬ ∀ c ∈ left, Text.isNamePart c = true := by
    intro left hleft hne hparts
    rcases List.suffix_concat_iff.mp hleft with hnil | ⟨front, rfl, -⟩
    · exact hne hnil
    · have hpart := hparts u (List.mem_append_right _ List.mem_cons_self)
      rw [hu] at hpart
      cases hpart
  constructor
  · intro c _ _ left hleft h
    exact hword left hleft h.1 fun v hv => Text.isNamePart_of_isDigit (h.2 v hv)
  · intro c _ _ left hleft h
    exact hword left hleft h.ne_nil h.parts

/-- behind a number the text may go on with a letter, so it has to be said what stands before -/
theorem number_append {word : List Char} (hword : Text.IsNumber word)
    (hafter : ∀ c ∈ after.head?, c.isDigit = false) (h : Cut before (word ++ after)) :
    Cut (before ++ word) after := by
  obtain ⟨hne, hdigits⟩ := hword
  constructor
  · intro c hc hdigit
    rw [hafter c hc] at hdigit
    cases hdigit
  · intro c _ _ left hleft hname
    obtain ⟨front, hfront⟩ := hleft
    rcases List.append_eq_append_iff.mp hfront with ⟨more, rfl, rfl⟩ | ⟨more, -, rfl⟩
    · cases hmore : more with
      | nil =>
        rw [hmore] at hname
        exact Text.IsNumber.not_isName hdigits hname
      | cons u rest =>
        obtain ⟨d, others, rfl⟩ := List.exists_cons_of_ne_nil hne
        have hd : Text.isNamePart d = true :=
          Text.isNamePart_of_isDigit (hdigits d List.mem_cons_self)
        refine h.name d rfl hd more (List.suffix_append _ _) (hname.left ?_)
        rw [hmore]
        exact List.cons_ne_nil u rest
    · exact Text.IsNumber.not_isName (fun c hc => hdigits c (List.mem_append_right _ hc)) hname

theorem shown (ht : Proper t) (hafter : Stops t after) (h : Cut before (t.shown.toList ++ after)) :
    Cut (before ++ t.shown.toList) after := by
  cases t with
  | number digits => exact h.number_append ht hafter
  | name text => exact of_stop hafter
  | string text =>
    rw [toList_shown_string, ← List.cons_append, ← List.append_assoc]
    exact of_last (by decide)
  | mark m =>
    rw [toList_shown_mark]
    exact of_last (Text.kind_of_mark m).2.1
  | finish => exact absurd rfl ht.ne_finish

theorem stands (ht : Proper t) (hafter : Stops t after) (h : Cut before (t.shown.toList ++ after)) :
    Stands before t after := by
  cases t with
  | number digits =>
    obtain ⟨d, others, hword⟩ := List.exists_cons_of_ne_nil ht.1
    have hshown : (Token.number digits).shown.toList = d :: others := hword
    rw [hshown] at h
    have hd : d.isDigit = true := ht.2 d (hword ▸ List.mem_cons_self)
    exact .of_not (fun w hw => hw.2) (fun _ _ hw hne => hw.left hne) ht (h.number d rfl hd) hafter
  | name text =>
    obtain ⟨u, rest, hword, hstart, -⟩ := id ht
    have hshown : (Token.name text).shown.toList = u :: rest := hword
    rw [hshown] at h
    have hu : Text.isNamePart u = true := Text.isNamePart_of_isNameStart hstart
    exact .of_not (fun w hw => hw.parts) (fun _ _ hw hne => hw.left hne) ht (h.name u rfl hu) hafter
  | string text => exact ht
  | mark m => trivial
  | finish => exact ht

end Cut

/-- a text is spelled as it is scanned -/
theorem spelled_of_scanChars (text : List Char) : ∀ before tokens, Cut before text →
    scanChars text = .ok tokens →
    ∃ body, tokens = body ++ [.finish] ∧ Spelled before body text := by
  induction text using scan_induction with
  | nil =>
    intro before tokens _ h
    rw [scanChars_nil] at h
    exact ⟨[], (Except.ok.inj h).symm, .nil⟩
  | blank c rest hblank ih =>
    intro before tokens _ h
    rw [scanChars_blank hblank] at h
    obtain ⟨body, hbody, hrest⟩ :=
      ih (before ++ [c]) tokens (.of_last (Text.isNamePart_of_isBlank hblank)) h
    exact ⟨body, hbody, .blank hblank hrest⟩
  | token t after ht hafter ih =>
    intro before tokens hcut h
    rw [scanChars_shown ht hafter] at h
    obtain ⟨later, hlater, rfl⟩ := cons_ok h
    obtain ⟨body, rfl, hrest⟩ := ih (before ++ t.shown.toList) later (hcut.shown ht hafter) hlater
    exact ⟨t :: body, rfl, .token (hcut.stands ht hafter) hrest⟩
  | unclosed rest hquote =>
    intro before tokens _ h
    rw [scanChars_unclosed hquote] at h
    cases h
  | unexpected c rest hblank hbegins =>
    intro before tokens _ h
    rw [scanChars_unexpected hblank hbegins] at h
    cases h

/-- **A text is scanned into the tokens that it is spelled with.** -/
theorem scanChars_eq_ok_iff :
    scanChars text = .ok tokens ↔ ∃ body, tokens = body ++ [.finish] ∧ Spelled [] body text := by
  constructor
  · exact spelled_of_scanChars text [] tokens .nil
  · intro ⟨body, hbody, h⟩
    rw [hbody]
    exact h.scanChars

/-! ## spellings with spaces between them -/

theorem stops_space (t : Token) (after : List Char) : Stops t (' ' :: after) := by
  have hdigit : Char.isDigit ' ' = false := rfl
  have hpart : Text.isNamePart ' ' = false := rfl
  cases t with
  | number digits =>
    intro c hc
    cases hc
    exact hdigit
  | name text =>
    intro c hc
    cases hc
    exact hpart
  | _ => trivial

theorem stops_nil (t : Token) : Stops t [] := by
  cases t with
  | number digits =>
    intro c hc
    cases hc
  | name text =>
    intro c hc
    cases hc
  | _ => trivial

theorem scanChars_joined (h : ∀ t ∈ body, Proper t) :
    scanChars ([' '].intercalate (body.map fun t => t.shown.toList)) = .ok (body ++ [.finish]) := by
  induction body with
  | nil => exact scanChars_nil
  | cons t rest ih =>
    obtain ⟨ht, hrest⟩ := List.forall_mem_cons.mp h
    cases rest with
    | nil =>
      rw [List.map_singleton, List.intercalate_singleton,
        ← List.append_nil t.shown.toList, scanChars_shown ht (stops_nil t), scanChars_nil]
      rfl
    | cons u more =>
      rw [List.map_cons, List.intercalate_cons_of_ne_nil (by simp), List.append_assoc,
        List.singleton_append, scanChars_shown ht (stops_space t _), scanChars_blank rfl, ih hrest]
      rfl

/-! ## failures -/

/-- the place behind a text is outside of literals, which go from one quote to the next -/
def Outside (front : List Char) : Prop := front.count '"' % 2 = 0

/-- outside of literals there is only white space and what tokens begin with -/
def Clean (text : List Char) : Prop :=
  ∀ front c back, text = front ++ c :: back → Outside front → Text.isBlank c = true ∨ Begins c

/-- a scan has come to a quote that is not closed, or to a character that is neither white space nor
the beginning of a token -/
def StuckAt (front : List Char) (c : Char) (back : List Char) (fault : Fault) : Prop :=
  Outside front ∧ Clean front ∧
    (c = '"' ∧ '"' ∉ back ∧ fault = .unterminatedString ∨
      Text.isBlank c = false ∧ ¬ Begins c ∧ fault = .unexpectedCharacter c)

/-- what a scan passes over -/
structure Sealed (piece : List Char) : Prop where
  outside : Outside piece
  clean : Clean piece

theorem Outside.append (h : Outside front) (h' : Outside back) : Outside (front ++ back) := by
  unfold Outside at h h' ⊢
  rw [List.count_append]
  omega

theorem Outside.of_append (h : Outside front) (h' : Outside (front ++ back)) : Outside back := by
  unfold Outside at h h' ⊢
  rw [List.count_append] at h'
  omega

theorem Sealed.clean_append (h : Sealed front) (h' : Clean back) : Clean (front ++ back) := by
  intro first c last heq houtside
  rcases List.append_eq_append_iff.mp heq with ⟨more, rfl, hback⟩ | ⟨more, hfront, hlast⟩
  · exact h' more c last hback (h.outside.of_append houtside)
  · cases more with
    | nil => exact h' [] c last hlast.symm rfl
    | cons u rest =>
      obtain ⟨rfl, -⟩ := List.cons.inj hlast
      exact h.clean first _ rest hfront houtside

namespace Sealed

theorem nil : Sealed [] := by
  refine ⟨rfl, fun front c back heq => ?_⟩
  simp at heq

theorem append (h : Sealed front) (h' : Sealed back) : Sealed (front ++ back) :=
  ⟨h.outside.append h'.outside, h.clean_append h'.clean⟩

theorem of_plain (hquote : '"' ∉ text) (h : ∀ c ∈ text, Text.isBlank c = true ∨ Begins c) :
    Sealed text := by
  refine ⟨?_, fun front c back heq _ => h c ?_⟩
  · rw [Outside, List.count_eq_zero_of_not_mem hquote]
  · rw [heq]
    exact List.mem_append_right _ List.mem_cons_self

/-- only the first quote of a literal is outside -/
theorem literal (hquote : '"' ∉ text) : Sealed ('"' :: (text ++ ['"'])) := by
  constructor
  · rw [Outside, List.count_cons_self, List.count_append, List.count_eq_zero_of_not_mem hquote]
    rfl
  · intro front c back heq houtside
    cases front with
    | nil =>
      obtain ⟨rfl, -⟩ := List.cons.inj heq
      exact .inr begins_quote
    | cons u more =>
      obtain ⟨rfl, htext⟩ := List.cons.inj heq
      have hmore : '"' ∉ more := by
        rcases List.append_eq_append_iff.mp htext with ⟨last, rfl, hlast⟩ | ⟨last, rfl, -⟩
        · cases last with
          | nil =>
            rw [List.append_nil]
            exact hquote
          | cons v rest => simp at hlast
        · exact fun hmem => hquote (List.mem_append_left _ hmem)
      rw [Outside, List.count_cons_self, List.count_eq_zero_of_not_mem hmore] at houtside
      cases houtside

theorem of_parts (h : ∀ c ∈ text, Text.isNamePart c = true) : Sealed text := by
  apply of_plain
  · intro hmem
    cases h _ hmem
  · intro c hc
    exact .inr (begins_of_isNamePart (h c hc))

theorem shown (ht : Proper t) : Sealed t.shown.toList := by
  cases t with
  | number digits => exact of_parts fun c hc => Text.isNamePart_of_isDigit (ht.2 c hc)
  | name text => exact of_parts (Text.IsName.parts ht)
  | string text =>
    rw [toList_shown_string]
    exact literal ht
  | mark m =>
    rw [toList_shown_mark]
    apply of_plain
    · intro hmem
      exact (Text.kind_of_mark m).2.2 (List.mem_singleton.mp hmem).symm
    · intro c hc
      obtain rfl := List.mem_singleton.mp hc
      exact .inr (begins_mark m)
  | finish => exact absurd rfl ht.ne_finish

theorem blank {c : Char} (hblank : Text.isBlank c = true) : Sealed [c] := by
  apply of_plain
  · intro hmem
    obtain rfl := List.mem_singleton.mp hmem
    cases hblank
  · intro u hu
    obtain rfl := List.mem_singleton.mp hu
    exact .inl hblank

end Sealed

/-- a scan gets stuck somewhere in a text -/
def Stuck (text : List Char) (fault : Fault) : Prop :=
  ∃ front c back, text = front ++ c :: back ∧ StuckAt front c back fault

theorem Stuck.append (hfront : Sealed front) (h : Stuck back fault) :
    Stuck (front ++ back) fault := by
  obtain ⟨first, c, last, rfl, houtside, hclean, hstuck⟩ := h
  refine ⟨front ++ first, c, last, ?_, hfront.outside.append houtside, hfront.clean_append hclean,
    hstuck⟩
  rw [List.append_assoc]

/-- a scan passes over a text or gets stuck in it -/
theorem scanChars_stuck (text : List Char) :
    (∀ tokens, scanChars text = .ok tokens → Sealed text) ∧
      ∀ fault, scanChars text = .error fault → Stuck text fault := by
  have hpiece : ∀ {piece rest : List Char}, Sealed piece →
      ((∀ tokens, scanChars rest = .ok tokens → Sealed rest) ∧
        ∀ fault, scanChars rest = .error fault → Stuck rest fault) →
      (∀ tokens, scanChars rest = .ok tokens → Sealed (piece ++ rest)) ∧
        ∀ fault, scanChars rest = .error fault → Stuck (piece ++ rest) fault := by
    intro piece rest hpiece ih
    exact ⟨fun tokens h => hpiece.append (ih.1 tokens h),
      fun fault h => (ih.2 fault h).append hpiece⟩
  induction text using scan_induction with
  | nil =>
    refine ⟨fun _ _ => .nil, fun fault h => ?_⟩
    rw [scanChars_nil] at h
    cases h
  | blank c rest hblank ih =>
    rw [scanChars_blank hblank]
    exact hpiece (.blank hblank) ih
  | token t after ht hafter ih =>
    obtain ⟨hok, herror⟩ := hpiece (.shown ht) ih
    rw [scanChars_shown ht hafter]
    constructor
    · intro tokens h
      obtain ⟨later, hlater, -⟩ := cons_ok h
      exact hok later hlater
    · intro fault h
      cases hlater : scanChars after with
      | ok later =>
        rw [hlater] at h
        cases h
      | error fault' =>
        rw [hlater] at h
        obtain rfl := Except.error.inj h
        exact herror _ hlater
  | unclosed rest hquote =>
    rw [scanChars_unclosed hquote]
    refine ⟨fun tokens h => ?_, fun fault h => ?_⟩
    · cases h
    · exact ⟨[], '"', rest, rfl, Sealed.nil.outside, Sealed.nil.clean,
        .inl ⟨rfl, hquote, (Except.error.inj h).symm⟩⟩
  | unexpected c rest hblank hbegins =>
    rw [scanChars_unexpected hblank hbegins]
    refine ⟨fun tokens h => ?_, fun fault h => ?_⟩
    · cases h
    · exact ⟨[], c, rest, rfl, Sealed.nil.outside, Sealed.nil.clean,
        .inr ⟨hblank, hbegins, (Except.error.inj h).symm⟩⟩

/-- a place behind it that is outside of literals: so it was not a quote that is not closed -/
theorem StuckAt.not_begins {c : Char} (h : StuckAt front c back fault) {middle last : List Char}
    (hback : back = middle ++ last) (houtside : Outside (front ++ c :: middle)) :
    Text.isBlank c = false ∧ ¬ Begins c := by
  obtain ⟨hfront, -, ⟨rfl, hquote, -⟩ | ⟨hblank, hbegins, -⟩⟩ := h
  · have hmiddle : '"' ∉ middle := fun hmem => hquote (hback ▸ List.mem_append_left last hmem)
    have hcount := hfront.of_append houtside
    rw [Outside, List.count_cons_self, List.count_eq_zero_of_not_mem hmiddle] at hcount
    cases hcount
  · exact ⟨hblank, hbegins⟩

theorem Sealed.not_stuck (h : Sealed text) : ¬ Stuck text fault := by
  intro ⟨front, c, back, htext, hstuck⟩
  obtain ⟨hblank, hbegins⟩ :=
    hstuck.not_begins (List.append_nil back).symm (htext ▸ h.outside)
  rcases h.clean front c back htext hstuck.1 with hc | hc
  · rw [hblank] at hc
    cases hc
  · exact hbegins hc

/-- of two places where a scan gets stuck none comes first -/
theorem StuckAt.unique {front' back' : List Char} {c c' : Char} {fault' : Fault}
    (h : StuckAt front c back fault) (h' : StuckAt front' c' back' fault') {more : List Char}
    (hfront : front' = front ++ more) (hback : c :: back = more ++ c' :: back') :
    fault = fault' := by
  cases more with
  | cons u middle =>
    obtain ⟨rfl, hmiddle⟩ := List.cons.inj hback
    obtain ⟨hblank, hbegins⟩ := h.not_begins hmiddle (hfront ▸ h'.1)
    rcases h'.2.1 front c middle hfront h.1 with hc | hc
    · rw [hblank] at hc
      cases hc
    · exact absurd hc hbegins
  | nil =>
    obtain ⟨rfl, rfl⟩ := List.cons.inj hback
    obtain ⟨-, -, ⟨rfl, -, rfl⟩ | ⟨-, hbegins, rfl⟩⟩ := h
    · obtain ⟨-, -, ⟨-, -, rfl⟩ | ⟨-, hbegins, -⟩⟩ := h'
      · rfl
      · exact absurd begins_quote hbegins
    · obtain ⟨-, -, ⟨rfl, -, -⟩ | ⟨-, -, rfl⟩⟩ := h'
      · exact absurd begins_quote hbegins
      · rfl

theorem Stuck.unique {fault' : Fault} (h : Stuck text fault) (h' : Stuck text fault') :
    fault = fault' := by
  obtain ⟨front, c, back, rfl, hstuck⟩ := h
  obtain ⟨front', c', back', heq, hstuck'⟩ := h'
  rcases List.append_eq_append_iff.mp heq with ⟨more, hfront, hback⟩ | ⟨more, hfront, hback⟩
  · exact hstuck.unique hstuck' hfront hback
  · exact (hstuck'.unique hstuck hfront hback).symm

/-- **A scan fails where it gets stuck**, and with the fault of that place. -/
theorem scanChars_eq_error_iff : scanChars text = .error fault ↔ Stuck text fault := by
  obtain ⟨hok, herror⟩ := scanChars_stuck text
  constructor
  · exact herror fault
  · intro h
    cases hscan : scanChars text with
    | ok tokens => exact absurd h (hok tokens hscan).not_stuck
    | error fault' => rw [h.unique (herror fault' hscan)]

/-- **A scan loses nothing.**  The tokens of a text are those that it is spelled with, each standing
in it as a whole, with nothing but white space between them, and one end behind them; their
spellings with single spaces between them are scanned into the same tokens.  A scan fails just if it
comes, outside of literals, to a quote that is not closed or to a character that is neither white
space nor the beginning of a token, and the first such place gives the fault. -/
theorem scan_lossless (text : String) :
    (∀ tokens, scan text = .ok tokens ↔
      ∃ body, tokens = body ++ [.finish] ∧ Spelled [] body text.toList) ∧
    (∀ body, scan text = .ok (body ++ [.finish]) →
      .finish ∉ body ∧ scan (" ".intercalate (body.map shown)) = .ok (body ++ [.finish])) ∧
    ∀ fault, scan text = .error fault ↔
      ∃ front c back, text.toList = front ++ c :: back ∧ StuckAt front c back fault := by
  refine ⟨fun tokens => scanChars_eq_ok_iff, fun body h => ?_, fun fault => scanChars_eq_error_iff⟩
  obtain ⟨body', hbody, hspelled⟩ := scanChars_eq_ok_iff.mp h
  obtain rfl := List.append_cancel_right hbody
  have hjoined : (" ".intercalate (body.map shown)).toList =
      [' '].intercalate (body.map fun t => t.shown.toList) := by
    rw [String.toList_intercalate, List.map_map]
    rfl
  refine ⟨fun hmem => (hspelled.proper _ hmem).ne_finish rfl, ?_⟩
  rw [scan, hjoined]
  exact scanChars_joined hspelled.proper

/-- tokens without space between them, a literal with a newline and a bracket, and one that is not
closed -/
theorem scan_lossless_unspaced :
    let text := "x=\"é\n]\"2y"
    let body := [.name "x", .mark .equals, .string "é\n]", .number "2", .name "y"]
    scan text = .ok (body ++ [.finish]) ∧ Spelled [] body text.toList ∧
      scan (" ".intercalate (body.map shown)) = .ok (body ++ [.finish]) ∧
      scan "x=\"é" = .error .unterminatedString ∧
      ∃ front c back, "x=\"é".toList = front ++ c :: back ∧
        StuckAt front c back .unterminatedString := by
  intro text body
  have hscan : scan text = .ok (body ++ [.finish]) := by decide +kernel
  have hopen : scan "x=\"é" = .error .unterminatedString := by decide +kernel
  obtain ⟨hspelled, hagain, -⟩ := scan_lossless text
  obtain ⟨body', hbody, hbody'⟩ := (hspelled _).mp hscan
  obtain rfl := List.append_cancel_right hbody
  exact ⟨hscan, hbody', (hagain _ hscan).2, hopen, ((scan_lossless "x=\"é").2.2 _).mp hopen⟩

end Token

end Dataflow
