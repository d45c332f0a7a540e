import Mathlib.Data.List.TakeWhile
import Dataflow.Token.Scan

/-!
# One token after the other

* `Text.IsNumber`, `Text.IsName`   runs of digits, and names;
* `Token.Proper`                   a token that a scan can make;
* `Token.Stops`                    a text behind a token that does not carry it on;
* `Token.Begins`                   a character that some token begins with;
* `Token.scan_induction`           what can stand in front of a text, and `scanChars_blank`,
                                   `scanChars_shown`, `scanChars_unclosed`, `scanChars_unexpected`
                                   what a scan makes of it;
* `Token.scanChars_ok_cons`        where the first token of a text stands.
-/

namespace Dataflow

/-! ## kinds of characters -/

namespace Text

variable {c : Char}

/-- the code points of what a name begins with -/
theorem toNat_of_isNameStart (h : isNameStart c = true) : 65 ≤ c.toNat ∧ c.toNat ≤ 122 := by
  have hcode : c.val.toNat = c.toNat := rfl
  have hkinds : (decide (65 ≤ c.val ∧ c.val ≤ 90) || (decide (97 ≤ c.val) && decide (c.val ≤ 122))
      || c == '_') = true := h
  simp only [Bool.or_eq_true, Bool.and_eq_true, decide_eq_true_eq, beq_iff_eq,
    UInt32.le_iff_toNat_le, hcode] at hkinds
  rcases hkinds with (hupper | hlower) | rfl
  · have hupper : 65 ≤ c.toNat ∧ c.toNat ≤ 90 := hupper
    omega
  · have hlower : 97 ≤ c.toNat ∧ c.toNat ≤ 122 := hlower
    omega
  · decide

theorem toNat_of_isDigit (h : c.isDigit = true) : 48 ≤ c.toNat ∧ c.toNat ≤ 57 :=
  Char.isDigit_iff_toNat.mp h

theorem isNamePart_iff : isNamePart c = true ↔ c.isDigit = true ∨ isNameStart c = true := by
  simp only [isNamePart, isNameStart, Char.isAlphanum, Bool.or_eq_true]
  constructor
  · rintro ((halpha | hdigit) | hmark)
    · exact .inr (.inl halpha)
    · exact .inl hdigit
    · exact .inr (.inr hmark)
  · rintro (hdigit | halpha | hmark)
    · exact .inl (.inr hdigit)
    · exact .inl (.inl halpha)
    · exact .inr hmark

theorem isNamePart_of_isDigit (h : c.isDigit = true) : isNamePart c = true :=
  isNamePart_iff.mpr (.inl h)

theorem isBlank_of_isNamePart (h : isNamePart c = true) : isBlank c = false := by
  have hcode : 48 ≤ c.toNat ∧ c.toNat ≤ 122 := by
    rcases isNamePart_iff.mp h with hdigit | hstart
    · have hrange := toNat_of_isDigit hdigit
      omega
    · have hrange := toNat_of_isNameStart hstart
      omega
  simp [isBlank, inRanges, blankRanges]
  omega

theorem isNamePart_of_isBlank (h : isBlank c = true) : isNamePart c = false := by
  by_contra hpart
  rw [isBlank_of_isNamePart (by simpa using hpart)] at h
  cases h

theorem isDigit_of_isNameStart (h : isNameStart c = true) : c.isDigit = false := by
  cases hdigit : c.isDigit with
  | false => rfl
  | true =>
    have hlow := toNat_of_isNameStart h
    have hhigh := toNat_of_isDigit hdigit
    omega

/-- what a mark is made of belongs to no other token -/
theorem kind_of_mark (m : Mark) :
    isBlank m.char = false ∧ isNamePart m.char = false ∧ m.char ≠ '"' := by
  cases m <;> decide

/-- a run of decimal digits -/
def IsNumber (word : List Char) : Prop := word ≠ [] ∧ ∀ c ∈ word, c.isDigit = true

/-- a letter or underscore with letters, digits and underscores behind it -/
def IsName (word : List Char) : Prop :=
  ∃ c rest, word = c :: rest ∧ isNameStart c = true ∧ ∀ u ∈ rest, isNamePart u = true

theorem IsName.parts {word : List Char} (h : IsName word) : ∀ c ∈ word, isNamePart c = true := by
  obtain ⟨c, rest, rfl, hstart, hrest⟩ := h
  exact List.forall_mem_cons.mpr ⟨isNamePart_of_isNameStart hstart, hrest⟩

/-- a run in front of a text that does not carry it on -/
theorem cut_run {p : Char → Bool} {word after : List Char} (h : ∀ c ∈ word, p c = true)
    (hafter : ∀ c ∈ after.head?, p c = false) :
    (word ++ after).takeWhile p = word ∧ (word ++ after).dropWhile p = after := by
  rw [List.takeWhile_append_of_pos h, List.dropWhile_append_of_pos h]
  cases after with
  | nil => exact ⟨List.append_nil word, rfl⟩
  | cons c rest =>
    have hc : ¬ p c = true := by simp [hafter c rfl]
    rw [List.takeWhile_cons_of_neg hc, List.dropWhile_cons_of_neg hc, List.append_nil]
    exact ⟨rfl, rfl⟩

theorem head?_dropWhile (p : Char → Bool) (text : List Char) :
    ∀ c ∈ (text.dropWhile p).head?, p c = false := by
  intro c hc
  have hnot := List.head?_dropWhile_not p text
  rw [hc] at hnot
  exact hnot

/-- the white space in front of a text -/
theorem exists_trimStart (text : List Char) :
    ∃ gap, text = gap ++ trimStart text ∧ ∀ c ∈ gap, isBlank c = true :=
  ⟨text.takeWhile isBlank, List.takeWhile_append_dropWhile.symm,
    fun _ hc => List.mem_takeWhile_imp hc⟩

end Text

/-! ## single tokens -/

namespace Token

variable {c : Char} {rest after : List Char} {tokens : List Token} {t : Token}

/-- a token that a scan can make: a run of digits, a name, a string without quotes, or a mark -/
def Proper : Token → Prop
  | .number digits => Text.IsNumber digits.toList
  | .name text => Text.IsName text.toList
  | .string text => '"' ∉ text.toList
  | .mark _ => True
  | .finish => False

/-- a text behind a token that does not carry it on -/
def Stops (t : Token) (after : List Char) : Prop :=
  match t with
  | .number _ => ∀ c ∈ after.head?, c.isDigit = false
  | .name _ => ∀ c ∈ after.head?, Text.isNamePart c = false
  | _ => True

theorem Proper.ne_finish (h : Proper t) : t ≠ .finish := by
  intro heq
  rw [heq] at h
  exact h

theorem toList_shown_mark (m : Mark) : (Token.mark m).shown.toList = [m.char] :=
  String.toList_singleton m.char

theorem toList_shown_string (text : String) :
    (Token.string text).shown.toList = '"' :: (text.toList ++ ['"']) := by
  simp [shown]

theorem Proper.shown_ne_nil (h : Proper t) : t.shown.toList ≠ [] := by
  cases t with
  | number digits => exact h.1
  | name text =>
    obtain ⟨c, rest, hword, -⟩ := h
    show text.toList ≠ []
    rw [hword]
    exact List.cons_ne_nil _ _
  | string text =>
    rw [toList_shown_string]
    exact List.cons_ne_nil _ _
  | mark m =>
    rw [toList_shown_mark]
    exact List.cons_ne_nil _ _
  | finish => exact absurd rfl h.ne_finish

/-- a character that some token begins with -/
def Begins (c : Char) : Prop := ∃ t, Proper t ∧ t.shown.toList.head? = some c

theorem begins_quote : Begins '"' := ⟨.string "", List.not_mem_nil, rfl⟩

theorem begins_mark (m : Mark) : Begins m.char := by
  refine ⟨.mark m, trivial, ?_⟩
  rw [toList_shown_mark]
  rfl

theorem begins_iff : Begins c ↔
    c.isDigit = true ∨ Text.isNameStart c = true ∨ c = '"' ∨ ∃ m : Mark, m.char = c := by
  constructor
  · intro ⟨t, ht, hhead⟩
    cases t with
    | number digits => exact .inl (ht.2 c (List.mem_of_mem_head? hhead))
    | name text =>
      obtain ⟨u, rest, hword, hstart, -⟩ := ht
      have hu : (text.toList).head? = some c := hhead
      rw [hword] at hu
      cases hu
      exact .inr (.inl hstart)
    | string text =>
      rw [toList_shown_string] at hhead
      cases hhead
      exact .inr (.inr (.inl rfl))
    | mark m =>
      rw [toList_shown_mark] at hhead
      cases hhead
      exact .inr (.inr (.inr ⟨m, rfl⟩))
    | finish => exact absurd rfl ht.ne_finish
  · rintro (hdigit | hstart | rfl | ⟨m, rfl⟩)
    · refine ⟨.number (String.ofList [c]), ?_, ?_⟩
      · show Text.IsNumber (String.ofList [c]).toList
        rw [String.toList_ofList]
        exact ⟨List.cons_ne_nil _ _, List.forall_mem_singleton.mpr hdigit⟩
      · show (String.ofList [c]).toList.head? = some c
        rw [String.toList_ofList]
        rfl
    · refine ⟨.name (String.ofList [c]), ?_, ?_⟩
      · show Text.IsName (String.ofList [c]).toList
        rw [String.toList_ofList]
        exact ⟨c, [], rfl, hstart, List.forall_mem_nil _⟩
      · show (String.ofList [c]).toList.head? = some c
        rw [String.toList_ofList]
        rfl
    · exact begins_quote
    · exact begins_mark m

theorem begins_of_isNamePart (h : Text.isNamePart c = true) : Begins c := by
  apply begins_iff.mpr
  rcases Text.isNamePart_iff.mp h with hdigit | hstart
  · exact .inl hdigit
  · exact .inr (.inl hstart)

/-! ## scanning them off -/

theorem cons_ok {x : Except Fault (List Token)} (h : cons t x = .ok tokens) :
    ∃ rest, x = .ok rest ∧ tokens = t :: rest := by
  cases x with
  | error fault => cases h
  | ok rest => exact ⟨rest, rfl, (Except.ok.inj h).symm⟩

theorem scanChars_blank (h : Text.isBlank c = true) (rest : List Char) :
    scanChars (c :: rest) = scanChars rest := by
  rw [scanChars, if_pos h]

theorem scanChars_gap {gap : List Char} (h : ∀ c ∈ gap, Text.isBlank c = true) (text : List Char) :
    scanChars (gap ++ text) = scanChars text := by
  induction gap with
  | nil => rfl
  | cons c rest ih =>
    obtain ⟨hc, hrest⟩ := List.forall_mem_cons.mp h
    rw [List.cons_append, scanChars_blank hc, ih hrest]

theorem scanChars_of_isBlankText {text : List Char} (h : Text.isBlankText text = true) :
    scanChars text = .ok [.finish] := by
  rw [← List.append_nil text, scanChars_gap (Text.isBlankText_iff.mp h), scanChars_nil]

theorem scanChars_trimStart (text : List Char) :
    scanChars (Text.trimStart text) = scanChars text := by
  obtain ⟨gap, htext, hgap⟩ := Text.exists_trimStart text
  rw [← scanChars_gap hgap, ← htext]

theorem scanChars_mark (m : Mark) (rest : List Char) :
    scanChars (m.char :: rest) = cons (.mark m) (scanChars rest) := by
  obtain ⟨hblank, hpart, hquote⟩ := Text.kind_of_mark m
  have hdigit : ¬ m.char.isDigit = true := fun h => by
    rw [Text.isNamePart_of_isDigit h] at hpart
    cases hpart
  have hname : ¬ Text.isNameStart m.char = true := fun h => by
    rw [Text.isNamePart_of_isNameStart h] at hpart
    cases hpart
  rw [scanChars, if_neg (by simp [hblank]), if_neg hdigit, if_neg hname, if_neg hquote,
    Mark.ofChar?_char]

/-- a literal goes up to the next quote -/
theorem scanChars_quote (rest : List Char) :
    scanChars ('"' :: rest) =
      match rest.dropWhile (· != '"') with
      | [] => .error .unterminatedString
      | _ :: after =>
        cons (.string (String.ofList (rest.takeWhile (· != '"')))) (scanChars after) := by
  have hblank : ¬ Text.isBlank '"' = true := by decide
  have hdigit : ¬ Char.isDigit '"' = true := by decide
  have hname : ¬ Text.isNameStart '"' = true := by decide
  rw [scanChars, if_neg hblank, if_neg hdigit, if_neg hname, if_pos rfl]
  split <;> next heq => rw [heq]

theorem scanChars_unclosed (h : '"' ∉ rest) :
    scanChars ('"' :: rest) = .error .unterminatedString := by
  have hdrop : rest.dropWhile (· != '"') = [] := by
    rw [List.dropWhile_eq_nil_iff]
    intro c hc
    rw [bne_iff_ne]
    exact fun heq => h (heq ▸ hc)
  rw [scanChars_quote, hdrop]

theorem scanChars_unexpected (hblank : Text.isBlank c = false) (h : ¬ Begins c) :
    scanChars (c :: rest) = .error (.unexpectedCharacter c) := by
  rw [begins_iff, not_or, not_or, not_or, not_exists] at h
  obtain ⟨hdigit, hname, hquote, hmark⟩ := h
  have hnone : Mark.ofChar? c = none := by
    cases hm : Mark.ofChar? c with
    | none => rfl
    | some m => exact absurd (Mark.char_of_ofChar? hm) (hmark m)
  rw [scanChars, if_neg (by simp [hblank]), if_neg hdigit, if_neg hname, if_neg hquote, hnone]

/-- **A token in front of a text is scanned off**, if the text does not carry it on. -/
theorem scanChars_shown (ht : Proper t) (hafter : Stops t after) :
    scanChars (t.shown.toList ++ after) = cons t (scanChars after) := by
  cases t with
  | number digits =>
    obtain ⟨hne, hdigits⟩ := ht
    show scanChars (digits.toList ++ after) = _
    cases hword : digits.toList with
    | nil => exact absurd hword hne
    | cons c more =>
      rw [hword] at hdigits
      obtain ⟨hc, hmore⟩ := List.forall_mem_cons.mp hdigits
      have hblank : ¬ Text.isBlank c = true := by
        rw [Text.isBlank_of_isNamePart (Text.isNamePart_of_isDigit hc)]
        exact Bool.false_ne_true
      obtain ⟨htake, hdrop⟩ := Text.cut_run hmore hafter
      rw [List.cons_append, scanChars, if_neg hblank, if_pos hc, htake, hdrop, ← hword,
        String.ofList_toList]
  | name text =>
    obtain ⟨c, more, hword, hc, hmore⟩ := ht
    show scanChars (text.toList ++ after) = _
    have hblank : ¬ Text.isBlank c = true := by
      rw [Text.isBlank_of_isNamePart (Text.isNamePart_of_isNameStart hc)]
      exact Bool.false_ne_true
    have hdigit : ¬ c.isDigit = true := by
      rw [Text.isDigit_of_isNameStart hc]
      exact Bool.false_ne_true
    obtain ⟨htake, hdrop⟩ := Text.cut_run hmore hafter
    rw [hword, List.cons_append, scanChars, if_neg hblank, if_neg hdigit, if_pos hc, htake, hdrop,
      ← hword, String.ofList_toList]
  | string text =>
    have hplain : ∀ c ∈ text.toList, (c != '"') = true := fun c hc => by
      simp only [bne_iff_ne]
      exact fun heq => ht (heq ▸ hc)
    have hstop : ∀ c ∈ ('"' :: after).head?, (c != '"') = false := by
      rintro _ ⟨⟩
      rfl
    obtain ⟨htake, hdrop⟩ := Text.cut_run hplain hstop
    rw [toList_shown_string, List.cons_append, List.append_assoc, List.singleton_append,
      scanChars_quote, htake, hdrop, String.ofList_toList]
  | mark m =>
    rw [toList_shown_mark]
    exact scanChars_mark m after
  | finish => exact absurd rfl ht.ne_finish

/-- a text that does not begin with white space: it has a token in front, or a literal that is not
closed, or a character that begins no token -/
theorem exists_front (hblank : Text.isBlank c = false) (rest : List Char) :
    (∃ t after, c :: rest = t.shown.toList ++ after ∧ Proper t ∧ Stops t after) ∨
      c = '"' ∧ '"' ∉ rest ∨ ¬ Begins c := by
  have hrun : ∀ p : Char → Bool, ∀ u ∈ rest.takeWhile p, p u = true := fun p u hu =>
    List.mem_takeWhile_imp hu
  have hword : ∀ p : Char → Bool,
      c :: rest = (String.ofList (c :: rest.takeWhile p)).toList ++ rest.dropWhile p := by
    intro p
    rw [String.toList_ofList, List.cons_append, List.takeWhile_append_dropWhile]
  by_cases hbegins : Begins c
  · rcases begins_iff.mp hbegins with hdigit | hname | rfl | ⟨m, rfl⟩
    · refine .inl ⟨.number _, _, hword Char.isDigit, ?_, Text.head?_dropWhile _ _⟩
      show Text.IsNumber (String.ofList _).toList
      rw [String.toList_ofList]
      exact ⟨List.cons_ne_nil _ _, List.forall_mem_cons.mpr ⟨hdigit, hrun _⟩⟩
    · refine .inl ⟨.name _, _, hword Text.isNamePart, ?_, Text.head?_dropWhile _ _⟩
      show Text.IsName (String.ofList _).toList
      rw [String.toList_ofList]
      exact ⟨c, _, rfl, hname, hrun _⟩
    · by_cases hquote : '"' ∈ rest
      · obtain ⟨literal, after, rfl, hliteral⟩ := List.eq_append_cons_of_mem hquote
        refine .inl ⟨.string (String.ofList literal), after, ?_, ?_, trivial⟩
        · rw [toList_shown_string, String.toList_ofList, List.cons_append, List.append_assoc,
            List.singleton_append]
        · show '"' ∉ (String.ofList literal).toList
          rwa [String.toList_ofList]
      · exact .inr (.inl ⟨rfl, hquote⟩)
    · refine .inl ⟨.mark m, rest, ?_, trivial, trivial⟩
      rw [toList_shown_mark, List.singleton_append]
  · exact .inr (.inr hbegins)

/-- **What stands in front of a text**, one case for each way in which a scan goes on or ends. -/
theorem scan_induction {P : List Char → Prop} (nil : P [])
    (blank : ∀ c rest, Text.isBlank c = true → P rest → P (c :: rest))
    (token : ∀ t after, Proper t → Stops t after → P after → P (t.shown.toList ++ after))
    (unclosed : ∀ rest, '"' ∉ rest → P ('"' :: rest))
    (unexpected : ∀ c rest, Text.isBlank c = false → ¬ Begins c → P (c :: rest))
    (text : List Char) : P text := by
  induction hlength : text.length using Nat.strong_induction_on generalizing text with
  | _ n ih =>
    cases text with
    | nil => exact nil
    | cons c rest =>
      cases hblank : Text.isBlank c with
      | true =>
        have hlt : rest.length < n := by
          rw [← hlength]
          exact Nat.lt_succ_self _
        exact blank c rest hblank (ih rest.length hlt rest rfl)
      | false =>
        rcases exists_front hblank rest with ⟨t, after, htext, ht, hafter⟩ | ⟨rfl, hquote⟩ | hbegins
        · have hlt : after.length < n := by
            have hpos := List.length_pos_iff.mpr ht.shown_ne_nil
            rw [← hlength, htext, List.length_append]
            omega
          rw [htext]
          exact token t after ht hafter (ih after.length hlt after rfl)
        · exact unclosed rest hquote
        · exact unexpected c rest hblank hbegins

/-- the first token of a text stands behind the white space in front -/
theorem scanChars_ok_cons {text : List Char} (h : scanChars text = .ok (t :: tokens))
    (hne : t ≠ .finish) :
    ∃ after, Text.trimStart text = t.shown.toList ++ after ∧ Proper t ∧ Stops t after ∧
      scanChars after = .ok tokens := by
  rw [← scanChars_trimStart] at h
  cases htrim : Text.trimStart text with
  | nil =>
    rw [htrim, scanChars_nil] at h
    cases h
    exact absurd rfl hne
  | cons c rest =>
    have hblank : Text.isBlank c = false := Text.head?_dropWhile Text.isBlank text c (by
      show (Text.trimStart text).head? = some c
      rw [htrim]
      rfl)
    rw [htrim] at h
    rcases exists_front hblank rest with ⟨t', after, htext, ht, hafter⟩ | ⟨rfl, hquote⟩ | hbegins
    · rw [htext, scanChars_shown ht hafter] at h
      obtain ⟨later, hlater, heq⟩ := cons_ok h
      obtain ⟨rfl, rfl⟩ := List.cons.inj heq
      exact ⟨after, htext, ht, hafter, hlater⟩
    · rw [scanChars_unclosed hquote] at h
      cases h
    · rw [scanChars_unexpected hblank hbegins] at h
      cases h

end Token

end Dataflow
