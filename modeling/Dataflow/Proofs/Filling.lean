import Mathlib.Data.List.Basic
import Dataflow.Expression.Machine
import Dataflow.Proofs.Scanning

/-!
# Literals in place of `$`

The `$` of a text, its tokens and the operations that ask for an input are holes, which can be
filled with an empty string literal.

* `fill`                         fills the marked holes of a list, and leaves the others;
* `getElem?_fill`                what has become of an item;
* `Token.scanChars_fill`         in a text without quotes the tokens are filled as the text is;
* `Token.count_scanChars_le`     a text has at least as many `$` as its tokens.
-/

namespace Dataflow

/-! ## holes -/

/-- passes over so many marks -/
def shift (n : Nat) (marked : Nat → Bool) : Nat → Bool := fun i => marked (n + i)

theorem shift_zero (marked : Nat → Bool) : shift 0 marked = marked := by
  funext i
  rw [shift, Nat.zero_add]

theorem shift_shift (m n : Nat) (marked : Nat → Bool) :
    shift n (shift m marked) = shift (m + n) marked := by
  funext i
  rw [shift, shift, shift, Nat.add_assoc]

section
variable {α : Type} [DecidableEq α] {hole : α} {filling : List α} {marked : Nat → Bool}
  {xs ys : List α}

/-- puts the filling in place of the marked holes, which are counted from the front -/
def fill (hole : α) (filling : List α) (marked : Nat → Bool) : List α → List α
  | [] => []
  | a :: rest =>
    if a = hole then
      (if marked 0 then filling else [hole]) ++ fill hole filling (shift 1 marked) rest
    else a :: fill hole filling marked rest

theorem fill_hole :
    fill hole filling marked (hole :: xs) =
      (if marked 0 then filling else [hole]) ++ fill hole filling (shift 1 marked) xs := by
  rw [fill, if_pos rfl]

theorem fill_of_ne {a : α} (h : a ≠ hole) :
    fill hole filling marked (a :: xs) = a :: fill hole filling marked xs := by
  rw [fill, if_neg h]

theorem fill_append :
    fill hole filling marked (xs ++ ys) =
      fill hole filling marked xs ++ fill hole filling (shift (xs.count hole) marked) ys := by
  induction xs generalizing marked with
  | nil =>
    rw [List.nil_append, List.count_nil, shift_zero]
    rfl
  | cons a rest ih =>
    rw [List.cons_append]
    by_cases ha : a = hole
    · subst ha
      have hcount : (a :: rest).count a = 1 + rest.count a := by
        rw [List.count_cons_self, Nat.add_comm]
      rw [fill_hole, fill_hole, ih, shift_shift, hcount, List.append_assoc]
    · rw [fill_of_ne ha, fill_of_ne ha, ih, List.count_cons_of_ne ha, List.cons_append]

/-- nothing changes in front of the first mark -/
theorem fill_of_unmarked (h : ∀ i < xs.count hole, marked i = false) :
    fill hole filling marked xs = xs := by
  induction xs generalizing marked with
  | nil => rfl
  | cons a rest ih =>
    by_cases ha : a = hole
    · subst ha
      rw [List.count_cons_self] at h
      have hfirst : marked 0 = false := h 0 (Nat.succ_pos _)
      have hrest : fill a filling (shift 1 marked) rest = rest :=
        ih fun i hi => h (1 + i) (by omega)
      rw [fill_hole, hrest, hfirst, if_neg Bool.false_ne_true, List.singleton_append]
    · rw [List.count_cons_of_ne ha] at h
      rw [fill_of_ne ha, ih h]

/-- one hole alone -/
theorem fill_one (front back : List α) :
    fill hole filling (· == front.count hole) (front ++ hole :: back) =
      front ++ filling ++ back := by
  have hfront : fill hole filling (· == front.count hole) front = front :=
    fill_of_unmarked fun i hi => beq_false_of_ne (Nat.ne_of_lt hi)
  have hback : fill hole filling (shift 1 (shift (front.count hole) (· == front.count hole))) back
      = back := by
    refine fill_of_unmarked fun i _ => beq_false_of_ne ?_
    omega
  have hmark : shift (front.count hole) (· == front.count hole) 0 = true := beq_self_eq_true _
  rw [fill_append, fill_hole, hfront, hback, hmark, if_pos rfl, List.append_assoc]

/-- an item of a list whose marked holes are filled with one item each -/
theorem getElem?_fill {b : α} (index : Nat) :
    (fill hole [b] marked xs)[index]? = xs[index]?.map fun a =>
      if a = hole ∧ marked ((xs.take index).count hole) = true then b else a := by
  induction xs generalizing marked index with
  | nil => rfl
  | cons a rest ih =>
    by_cases ha : a = hole
    · subst ha
      cases index with
      | zero =>
        rw [fill_hole]
        cases hmark : marked 0 <;> simp [hmark]
      | succ index =>
        have hcount : ((a :: rest).take (index + 1)).count a = 1 + (rest.take index).count a := by
          rw [List.take_succ_cons, List.count_cons_self, Nat.add_comm]
        have hrest : (fill a [b] (shift 1 marked) rest)[index]? = rest[index]?.map fun x =>
            if x = a ∧ marked (1 + (rest.take index).count a) = true then b else x := ih index
        rw [fill_hole, List.getElem?_cons_succ, hcount]
        split <;> exact hrest
    · rw [fill_of_ne ha]
      cases index with
      | zero => simp [ha]
      | succ index =>
        rw [List.getElem?_cons_succ, List.getElem?_cons_succ, ih, List.take_succ_cons,
          List.count_cons_of_ne ha]

end

/-- an empty string literal in place of each marked `$` of a text -/
def Text.fill (marked : Nat → Bool) (text : List Char) : List Char :=
  Dataflow.fill '$' ['"', '"'] marked text

def Token.fill (marked : Nat → Bool) (tokens : List Token) : List Token :=
  Dataflow.fill (.mark .dollar) [.string ""] marked tokens

def Op.fill (marked : Nat → Bool) (ops : List Op) : List Op :=
  Dataflow.fill .input [.string ""] marked ops

section
variable {marked : Nat → Bool}

theorem Text.fill_dollar (text : List Char) :
    fill marked ('$' :: text) =
      (if marked 0 then ['"', '"'] else ['$']) ++ fill (shift 1 marked) text := fill_hole

theorem Text.fill_cons {c : Char} (h : c ≠ '$') (text : List Char) :
    fill marked (c :: text) = c :: fill marked text := fill_of_ne h

theorem Token.fill_dollar (tokens : List Token) :
    fill marked (.mark .dollar :: tokens) =
      (if marked 0 then .string "" else .mark .dollar) :: fill (shift 1 marked) tokens := by
  rw [fill, fill_hole]
  cases marked 0 <;> rfl

theorem Token.fill_cons {t : Token} (h : t ≠ .mark .dollar) (tokens : List Token) :
    fill marked (t :: tokens) = t :: fill marked tokens := fill_of_ne h

theorem Op.fill_nil : fill marked [] = [] := rfl

theorem Op.fill_input : fill marked [.input] = [if marked 0 then .string "" else .input] := by
  rw [fill, fill_hole]
  cases marked 0 <;> rfl

theorem Op.fill_singleton {op : Op} (h : op ≠ .input) : fill marked [op] = [op] := fill_of_ne h

theorem Op.fill_append (first second : List Op) :
    fill marked (first ++ second) =
      fill marked first ++ fill (shift (first.count .input) marked) second :=
  Dataflow.fill_append

end

/-! ## tokens -/

namespace Text

variable {marked : Nat → Bool}

theorem fill_append_of_not_mem {text : List Char} (h : '$' ∉ text) (more : List Char) :
    fill marked (text ++ more) = text ++ fill marked more := by
  have htext : fill marked text = text :=
    fill_of_unmarked fun i hi => by
      rw [List.count_eq_zero_of_not_mem h] at hi
      cases hi
  have hboth : fill marked (text ++ more) =
      fill marked text ++ fill (shift (text.count '$') marked) more := fill_append
  rw [hboth, htext, List.count_eq_zero_of_not_mem h, shift_zero]

/-- a filled text begins as before, or with a literal -/
theorem head?_fill {text : List Char} {c : Char} (h : c ∈ (fill marked text).head?) :
    c ∈ text.head? ∨ c = '"' := by
  cases text with
  | nil => exact .inl h
  | cons u rest =>
    by_cases hu : u = '$'
    · subst hu
      rw [fill_dollar] at h
      cases hmark : marked 0 with
      | false =>
        rw [hmark] at h
        exact .inl h
      | true =>
        rw [hmark] at h
        exact .inr (Option.some.inj h).symm
    · rw [fill_cons hu] at h
      exact .inl h

end Text

namespace Token

variable {marked : Nat → Bool} {t : Token}

theorem map_fill_cons (ht : t ≠ .mark .dollar) (tokens : Except Fault (List Token)) :
    (cons t tokens).map (fill marked) = cons t (tokens.map (fill marked)) := by
  cases tokens with
  | error fault => rfl
  | ok tokens => exact congrArg Except.ok (fill_cons ht tokens)

theorem map_fill_cons_dollar (tokens : Except Fault (List Token)) :
    (cons (.mark .dollar) tokens).map (fill marked) =
      cons (if marked 0 then .string "" else .mark .dollar)
        (tokens.map (fill (shift 1 marked))) := by
  cases tokens with
  | error fault => rfl
  | ok tokens => exact congrArg Except.ok (fill_dollar tokens)

/-- outside of literals only the one token is spelled with a `$` -/
theorem Proper.eq_dollar (h : Proper t) (hquote : '"' ∉ t.shown.toList)
    (hdollar : '$' ∈ t.shown.toList) : t = .mark .dollar := by
  cases t with
  | number digits => cases h.2 _ hdollar
  | name text => cases Text.IsName.parts h _ hdollar
  | string text =>
    rw [toList_shown_string] at hquote
    exact absurd List.mem_cons_self hquote
  | mark m =>
    rw [toList_shown_mark] at hdollar
    have hm : Mark.ofChar? m.char = some m := Mark.ofChar?_char m
    rw [← List.mem_singleton.mp hdollar] at hm
    rw [← Option.some.inj hm]
  | finish => exact absurd rfl h.ne_finish

theorem Stops.fill {after : List Char} (h : Stops t after) : Stops t (Text.fill marked after) := by
  cases t with
  | number digits =>
    intro c hc
    rcases Text.head?_fill hc with hc | rfl
    · exact h c hc
    · rfl
  | name text =>
    intro c hc
    rcases Text.head?_fill hc with hc | rfl
    · exact h c hc
    · rfl
  | _ => trivial

/-- a text without quotes: a literal in place of a `$` changes the one token -/
theorem scanChars_fill {text : List Char} (h : '"' ∉ text) :
    scanChars (Text.fill marked text) = (scanChars text).map (fill marked) := by
  induction text using scan_induction generalizing marked with
  | nil =>
    rw [scanChars_nil]
    exact scanChars_nil
  | blank c rest hblank ih =>
    have hc : c ≠ '$' := by
      rintro rfl
      cases hblank
    rw [Text.fill_cons hc, scanChars_blank hblank, scanChars_blank hblank]
    exact ih (List.not_mem_of_not_mem_cons h)
  | token t after ht hafter ih =>
    have hshown : '"' ∉ t.shown.toList := fun hmem => h (List.mem_append_left _ hmem)
    have hlater : '"' ∉ after := fun hmem => h (List.mem_append_right _ hmem)
    rw [scanChars_shown ht hafter]
    by_cases hdollar : t = .mark .dollar
    · subst hdollar
      rw [toList_shown_mark, map_fill_cons_dollar, ← ih hlater]
      refine (congrArg scanChars (Text.fill_dollar after)).trans ?_
      cases marked 0
      · exact scanChars_mark .dollar _
      · exact scanChars_shown (t := .string "") List.not_mem_nil trivial
    · have hplain : '$' ∉ t.shown.toList := fun hmem => hdollar (ht.eq_dollar hshown hmem)
      rw [Text.fill_append_of_not_mem hplain, scanChars_shown ht hafter.fill, ih hlater,
        map_fill_cons hdollar]
  | unclosed rest => exact absurd List.mem_cons_self h
  | unexpected c rest hblank hbegins =>
    have hc : c ≠ '$' := by
      rintro rfl
      exact hbegins (begins_mark .dollar)
    rw [Text.fill_cons hc, scanChars_unexpected hblank hbegins,
      scanChars_unexpected hblank hbegins]
    rfl

/-- a text has a `$` for each that is scanned -/
theorem count_scanChars_le {text : List Char} {tokens : List Token}
    (h : scanChars text = .ok tokens) : tokens.count (.mark .dollar) ≤ text.count '$' := by
  induction text using scan_induction generalizing tokens with
  | nil =>
    rw [scanChars_nil] at h
    cases h
    exact Nat.le_refl 0
  | blank c rest hblank ih =>
    rw [scanChars_blank hblank] at h
    exact Nat.le_trans (ih h) ((List.sublist_cons_self c rest).count_le '$')
  | token t after ht hafter ih =>
    rw [scanChars_shown ht hafter] at h
    obtain ⟨later, hlater, rfl⟩ := cons_ok h
    have hcount := ih hlater
    rw [List.count_append]
    by_cases hdollar : t = .mark .dollar
    · subst hdollar
      rw [List.count_cons_self, toList_shown_mark]
      have hone : [Mark.dollar.char].count '$' = 1 := rfl
      omega
    · rw [List.count_cons_of_ne hdollar]
      omega
  | unclosed rest hquote =>
    rw [scanChars_unclosed hquote] at h
    cases h
  | unexpected c rest hblank hbegins =>
    rw [scanChars_unexpected hblank hbegins] at h
    cases h

end Token

end Dataflow
