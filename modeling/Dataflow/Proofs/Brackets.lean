import Mathlib.Algebra.GroupWithZero.Nat
import Dataflow.Proofs.Accepted
import Dataflow.Proofs.Check
import Dataflow.Proofs.Scanning
import Dataflow.Proofs.Steady

/-!
# A complete line is a statement of its own

Lines are grouped by the brackets that are open at their ends.  The brackets are counted as
characters, while a statement that is read has brackets only where the grammar has them, and text
in its string literals.

* `Token.depthAfter`         the brackets of a token, a literal counted as the text that it is;
* `Token.depthAfter_scan`    a text opens what its tokens open;
* `Token.Shut`               tokens that leave nothing open but what their literals leave open;
* `Tree.Expr.shut`           so it is with every expression;
* `Statement.exists_yield`   a statement that is read has a tree between the tokens of its form;
* `Statement.group_eq_replicate`   lines that can be read each for itself are grouped each for
                             itself, unless a literal opens a bracket that it does not close.

The depth never falls below zero, so a closing bracket in a literal cannot open anything later, and
the brackets left open by a whole are at most those left open by its parts
(`Statement.depthAfter_le`).
-/

namespace Dataflow

open Parse Dataflow.Tree

/-! ## brackets of characters -/

namespace Statement

def brackets : List Char := ['(', '[', ')', ']']

theorem bracketStep_of_not_mem {c : Char} (h : c ∉ brackets) (depth : Nat) :
    bracketStep depth c = depth := by
  simp only [brackets, List.mem_cons, List.not_mem_nil, or_false, not_or] at h
  obtain ⟨hparen, hbracket, hparen', hbracket'⟩ := h
  rw [bracketStep, if_neg (not_or.mpr ⟨hparen, hbracket⟩), if_neg (not_or.mpr ⟨hparen', hbracket'⟩)]

/-- characters of a kind that no bracket has -/
theorem foldl_bracketStep_of_all {p : Char → Bool} (hp : brackets.all (! p ·) = true)
    {text : List Char} (h : ∀ c ∈ text, p c = true) (depth : Nat) :
    text.foldl bracketStep depth = depth := by
  induction text with
  | nil => rfl
  | cons c rest ih =>
    obtain ⟨hc, hrest⟩ := List.forall_mem_cons.mp h
    have hnot : c ∉ brackets := fun hmem => by
      have hfalse := List.all_eq_true.mp hp c hmem
      rw [hc] at hfalse
      cases hfalse
    rw [List.foldl_cons, bracketStep_of_not_mem hnot, ih hrest]

/-- brackets that are open before a character stay open unless it closes one -/
theorem bracketStep_add_le (depth more : Nat) (c : Char) :
    bracketStep (depth + more) c ≤ depth + bracketStep more c := by
  unfold bracketStep
  split
  · omega
  · split
    · omega
    · exact Nat.le_refl _

theorem bracketStep_mono {depth depth' : Nat} (h : depth ≤ depth') (c : Char) :
    bracketStep depth c ≤ bracketStep depth' c := by
  unfold bracketStep
  split
  · omega
  · split
    · omega
    · exact h

theorem foldl_bracketStep_mono (text : List Char) {depth depth' : Nat} (h : depth ≤ depth') :
    text.foldl bracketStep depth ≤ text.foldl bracketStep depth' := by
  induction text generalizing depth depth' with
  | nil => exact h
  | cons c rest ih => exact ih (bracketStep_mono h c)

/-- a text opens no more than it opens by itself -/
theorem depthAfter_le (depth : Nat) (text : String) :
    depthAfter depth text ≤ depth + depthAfter 0 text := by
  have hfrom : ∀ (cs : List Char) (more : Nat),
      cs.foldl bracketStep (depth + more) ≤ depth + cs.foldl bracketStep more := by
    intro cs
    induction cs with
    | nil => exact fun _ => Nat.le_refl _
    | cons c rest ih =>
      intro more
      rw [List.foldl_cons, List.foldl_cons]
      exact Nat.le_trans (foldl_bracketStep_mono rest (bracketStep_add_le depth more c))
        (ih (bracketStep more c))
  exact hfrom text.toList 0

theorem depthAfter_of_isBlank {text : String} (h : isBlank text = true) (depth : Nat) :
    depthAfter depth text = depth :=
  foldl_bracketStep_of_all (by decide) (Text.isBlankText_iff.mp h) depth

end Statement

/-! ## brackets of tokens -/

namespace Token

open Statement (bracketStep brackets foldl_bracketStep_of_all)

/-- open brackets after a token -/
def depthAfter (depth : Nat) : Token → Nat
  | .mark m => bracketStep depth m.char
  | .string text => Statement.depthAfter depth text
  | _ => depth

/-- a token opens what the characters of its spelling open -/
theorem foldl_bracketStep_shown {t : Token} (ht : Proper t) (depth : Nat) :
    t.shown.toList.foldl bracketStep depth = depthAfter depth t := by
  cases t with
  | number digits => exact foldl_bracketStep_of_all (by decide) ht.2 depth
  | name text => exact foldl_bracketStep_of_all (by decide) (Text.IsName.parts ht) depth
  | string text =>
    have hplain : ∀ depth, bracketStep depth '"' = depth :=
      Statement.bracketStep_of_not_mem (by decide)
    rw [toList_shown_string, List.foldl_cons, List.foldl_append, List.foldl_cons, hplain, hplain]
    rfl
  | mark m =>
    rw [toList_shown_mark]
    rfl
  | finish => exact absurd rfl ht.ne_finish

theorem foldl_bracketStep_scanChars {cs : List Char} {tokens : List Token}
    (h : scanChars cs = .ok tokens) (depth : Nat) :
    cs.foldl bracketStep depth = tokens.foldl depthAfter depth := by
  induction cs using scan_induction generalizing tokens depth with
  | nil =>
    rw [scanChars_nil] at h
    cases h
    rfl
  | blank c rest hblank ih =>
    have hstep : [c].foldl bracketStep depth = depth :=
      foldl_bracketStep_of_all (p := Text.isBlank) (by decide) (by simpa using hblank) depth
    rw [scanChars_blank hblank] at h
    rw [← ih h depth]
    exact congrArg (rest.foldl bracketStep) hstep
  | token t after ht hafter ih =>
    rw [scanChars_shown ht hafter] at h
    obtain ⟨later, hlater, rfl⟩ := cons_ok h
    rw [List.foldl_append, foldl_bracketStep_shown ht, ih hlater, List.foldl_cons]
  | unclosed rest hquote =>
    rw [scanChars_unclosed hquote] at h
    cases h
  | unexpected c rest hblank hbegins =>
    rw [scanChars_unexpected hblank hbegins] at h
    cases h

/-- a text opens what its tokens open -/
theorem depthAfter_scan {text : String} {tokens : List Token} (h : scan text = .ok tokens)
    (depth : Nat) : Statement.depthAfter depth text = tokens.foldl depthAfter depth :=
  foldl_bracketStep_scanChars h depth

/-- the brackets that a token opens in a literal and does not close there -/
def leftOpen : Token → Nat
  | .string text => Statement.depthAfter 0 text
  | _ => 0

/-- no more brackets are open behind the tokens than in front of them, but for those in literals -/
def Shut (tokens : List Token) : Prop :=
  ∀ depth, tokens.foldl depthAfter depth ≤ depth + (tokens.map leftOpen).sum

namespace Shut

variable {first second inner : List Token}

theorem nil : Shut [] := fun _ => Nat.le_refl _

theorem append (h : Shut first) (h' : Shut second) : Shut (first ++ second) := by
  intro depth
  have hfirst := h depth
  have hsecond := h' (first.foldl depthAfter depth)
  rw [List.foldl_append, List.map_append, List.sum_append]
  omega

theorem cons {t : Token} (ht : Shut [t]) (h : Shut second) : Shut (t :: second) := ht.append h

theorem string (text : String) : Shut [.string text] := by
  intro depth
  have hle := Statement.depthAfter_le depth text
  simpa [depthAfter, leftOpen] using hle

/-- a token without brackets -/
theorem plain {t : Token} (ht : ∀ depth, depthAfter depth t = depth) : Shut [t] := by
  intro depth
  rw [List.foldl_cons, List.foldl_nil, ht]
  exact Nat.le_add_right _ _

theorem number (digits : String) : Shut [.number digits] := plain fun _ => rfl

theorem name (text : String) : Shut [.name text] := plain fun _ => rfl

theorem mark {m : Mark} (hm : m.char ∉ brackets) : Shut [.mark m] :=
  plain fun depth => Statement.bracketStep_of_not_mem hm depth

/-- a pair of brackets around tokens -/
theorem wrap {m m' : Mark} (hopen : ∀ depth, bracketStep depth m.char = depth + 1)
    (hclose : ∀ depth, bracketStep depth m'.char = depth - 1) (h : Shut inner) :
    Shut (.mark m :: (inner ++ [.mark m'])) := by
  intro depth
  have hinner := h (depth + 1)
  have hsum : ((Token.mark m :: (inner ++ [.mark m'])).map leftOpen).sum =
      (inner.map leftOpen).sum := by
    simp [leftOpen]
  have hfold : (Token.mark m :: (inner ++ [.mark m'])).foldl depthAfter depth =
      inner.foldl depthAfter (depth + 1) - 1 := by
    rw [List.foldl_cons, List.foldl_append, ← hopen depth]
    exact hclose _
  rw [hsum, hfold]
  omega

theorem parens (h : Shut inner) : Shut (.mark .openParen :: (inner ++ [.mark .closeParen])) :=
  h.wrap (fun _ => rfl) (fun _ => rfl)

theorem vector (h : Shut inner) : Shut (.mark .openBracket :: (inner ++ [.mark .closeBracket])) :=
  h.wrap (fun _ => rfl) (fun _ => rfl)

end Shut

end Token

/-! ## brackets of expressions -/

namespace Tree

open Token (Shut)

theorem SumSign.shut (sign : SumSign) : Shut [sign.token] := by
  cases sign <;> exact .mark (by decide)

theorem ProductSign.shut (sign : ProductSign) : Shut [sign.token] := by
  cases sign <;> exact .mark (by decide)

mutual

/-- **An expression closes the brackets that it opens**, outside of its literals. -/
theorem Expr.shut : ∀ t : Expr, Shut t.yield
  | .product p => p.shut
  | .join left sign right => left.shut.append (.cons sign.shut right.shut)

theorem Product.shut : ∀ t : Product, Shut t.yield
  | .access a => a.shut
  | .join left sign right => left.shut.append (.cons sign.shut right.shut)

theorem Access.shut : ∀ t : Access, Shut t.yield
  | .primary p => p.shut
  | .member of name => of.shut.append (.cons (.mark (by decide)) (.name name))
  | .call callee arguments => callee.shut.append (Argument.shutAll arguments).parens

theorem Primary.shut : ∀ t : Primary, Shut t.yield
  | .parens inner => inner.shut.parens
  | .number digits => .number digits
  | .string text => .string text
  | .input => .mark (by decide)
  | .name text => .name text
  | .vector elements => (Expr.shutAll elements).vector

theorem Argument.shut : ∀ t : Argument, Shut t.yield
  | .positional value => value.shut
  | .named name value => .cons (.name name) (.cons (.mark (by decide)) value.shut)

theorem Expr.shutAll : ∀ ts : List Expr, Shut (Expr.yields ts)
  | [] => .nil
  | first :: rest => first.shut.append (Expr.shutMore rest)

theorem Expr.shutMore : ∀ ts : List Expr, Shut (Expr.moreYields ts)
  | [] => .nil
  | first :: rest => .cons (.mark (by decide)) (first.shut.append (Expr.shutMore rest))

theorem Argument.shutAll : ∀ ts : List Argument, Shut (Argument.yields ts)
  | [] => .nil
  | first :: rest => first.shut.append (Argument.shutMore rest)

theorem Argument.shutMore : ∀ ts : List Argument, Shut (Argument.moreYields ts)
  | [] => .nil
  | first :: rest => .cons (.mark (by decide)) (first.shut.append (Argument.shutMore rest))

end

end Tree

/-! ## brackets of statements -/

/-- the tokens that mark a form, in front of the expression -/
def Form.lead : Form → List Token
  | .display => [.name "show", .mark .openParen]
  | .result => [.name "return"]
  | .assignment name => [.name name, .mark .equals]
  | .expression => []

/-- the tokens of a form behind the expression -/
def Form.trail : Form → List Token
  | .display => [.mark .closeParen]
  | _ => []

namespace Statement

variable {σ : Type} {m : Machine σ} {tokens rest : List Token} {s s' : σ} {form : Form}

/-- the form of a statement has taken the tokens that mark it -/
theorem readForm_ok (h : readForm tokens s = (.ok (form, rest), s')) :
    tokens = form.lead ++ rest := by
  obtain ⟨first, _, _, hpeek, hnext⟩ := bind_ok h
  obtain ⟨hfirst, rfl, rfl⟩ := peek_ok hpeek
  obtain ⟨second, mid, s₁, hpeek, hform⟩ := bind_ok hnext
  obtain ⟨hsecond, rfl, rfl⟩ : second = tokens.tail.headD .finish ∧ tokens = mid ∧ s = s₁ := by
    cases hpeek
    exact ⟨rfl, rfl, rfl⟩
  split at hform
  · obtain ⟨ahead, rfl⟩ := eq_cons_cons hfirst.symm hsecond.symm (by simp) (by simp)
    cases hform
    rfl
  · obtain ⟨ahead, rfl⟩ := eq_cons hfirst.symm (by simp)
    cases hform
    rfl
  · obtain ⟨ahead, rfl⟩ := eq_cons_cons hfirst.symm hsecond.symm (by simp) (by simp)
    cases hform
    rfl
  · cases hform
    rfl

theorem ends_of_lead (h : Ends (form.lead ++ rest)) : Ends rest := by
  cases form with
  | display => exact (h.tail (by simp)).tail (by simp)
  | result => exact h.tail (by simp)
  | assignment name => exact (h.tail (by simp)).tail (by simp)
  | expression => exact h

/-- a statement that is read has the tokens of its form around a tree -/
theorem exists_yield (hends : Ends tokens) (h : read m tokens s = (.ok (form, rest), s')) :
    ∃ (t : Expr) (more : List Token),
      tokens = form.lead ++ (t.yield ++ form.trail) ++ .finish :: more := by
  obtain ⟨form', mid, s₁, hform, hnext⟩ := bind_ok h
  obtain rfl := readForm_ok hform
  obtain ⟨_, after, s₂, hread, hlast⟩ := bind_ok hnext
  obtain ⟨_, _, ⟨t, -, rfl, rfl⟩, rfl, -, hafter⟩ :=
    Expression.expression_reads _ _ _ (ends_of_lead hends) _ _ _ _ hread
  -- behind the trail there is the end
  have hend : ∀ {ahead : List Token} {s₃ : σ}, Ends ahead →
      (do finish; pure form' : Parse σ Form) ahead s₃ = (.ok (form, rest), s') →
      form' = form ∧ ∃ more, ahead = .finish :: more := by
    intro ahead s₃ hahead hlast
    obtain ⟨_, _, _, hfinish, hpure⟩ := bind_ok hlast
    obtain ⟨rfl, -, -⟩ := pure_ok hpure
    have hhead := finish_ok hfinish
    cases ahead with
    | nil => cases hahead
    | cons u more => exact ⟨rfl, more, congrArg (· :: more) hhead⟩
  refine ⟨t, ?_⟩
  split at hlast
  · next hdisplay =>
    obtain ⟨_, ahead, s₃, hclose, hlast⟩ := bind_ok hlast
    obtain ⟨rfl, rfl⟩ := closeParen_ok hclose
    obtain ⟨rfl, more, rfl⟩ := hend (hafter.tail (by simp)) hlast
    exact ⟨more, by simp [hdisplay, Form.trail]⟩
  · next hdisplay =>
    obtain ⟨rfl, more, rfl⟩ := hend hafter hlast
    have htrail : form'.trail = [] := by
      cases form' with
      | display => exact absurd rfl hdisplay
      | _ => rfl
    exact ⟨more, by rw [htrail, List.append_nil, List.append_assoc]⟩

open Token (Shut)

theorem shut_yield (form : Form) (t : Expr) : Shut (form.lead ++ (t.yield ++ form.trail)) := by
  cases form with
  | display => exact .cons (.name _) t.shut.parens
  | result => exact .cons (.name _) (t.shut.append .nil)
  | assignment name =>
    exact .cons (.name name) (.cons (.mark (by decide)) (t.shut.append .nil))
  | expression => exact t.shut.append .nil

/-- **A statement that can be read closes the brackets that it opens**, outside of its literals. -/
theorem shut_of_check {text : String} {n : Nat} (h : check text = .ok n) :
    ∃ tokens, Token.scan text = .ok tokens ∧ Shut tokens := by
  unfold check drive at h
  split at h
  · next hdrive =>
    split at hdrive
    · cases hdrive
    · next tokens hscan =>
      split at hdrive
      · next form rest s' hread =>
        refine ⟨tokens, hscan, ?_⟩
        obtain ⟨body, rfl, hbody⟩ := Token.scan_ok hscan
        have hends : Ends (body ++ [.finish]) := Ends.append body rfl
        obtain ⟨t, more, htokens⟩ := exists_yield hends hread
        obtain ⟨hyield, -, -⟩ := (List.append_cons_inj_of_notMem hbody (by simp)).mp htokens
        rw [hyield]
        exact (shut_yield form t).append (.plain fun _ => rfl)
      · cases hdrive
  · cases h

/-! ## lines -/

/-- the string literals of a text -/
def literals (text : String) : List String :=
  match Token.scan text with
  | .ok tokens => tokens.filterMap fun
    | .string literal => some literal
    | _ => none
  | .error _ => []

theorem mem_literals {text literal : String} {tokens : List Token}
    (hscan : Token.scan text = .ok tokens) (h : .string literal ∈ tokens) :
    literal ∈ literals text := by
  rw [literals, hscan]
  exact List.mem_filterMap.mpr ⟨_, h, rfl⟩

/-- nothing is open behind a line that is blank or can be read -/
theorem depthAfter_of_passes {line : String} (h : Passes line)
    (hclose : ∀ literal ∈ literals line, depthAfter 0 literal = 0) : depthAfter 0 line = 0 := by
  rcases h with hblank | ⟨n, hcheck⟩
  · exact depthAfter_of_isBlank hblank 0
  · obtain ⟨tokens, hscan, hshut⟩ := shut_of_check hcheck
    have hnone : (tokens.map Token.leftOpen).sum = 0 := by
      rw [List.sum_eq_zero_iff_forall_eq_nat, List.forall_mem_map]
      intro t ht
      cases t with
      | string literal => exact hclose literal (mem_literals hscan ht)
      | _ => rfl
    have hle := hshut 0
    rw [hnone, ← Token.depthAfter_scan hscan] at hle
    exact Nat.le_zero.mp hle

/-- **A complete line is a statement of its own.**  Lines that are blank or can be read, each for
itself, are grouped each for itself, unless a literal opens a bracket that it does not close. -/
theorem group_eq_replicate {lines : List String} (h : ∀ line ∈ lines, Passes line)
    (hclose : ∀ line ∈ lines, ∀ literal ∈ literals line, depthAfter 0 literal = 0) :
    group lines = List.replicate lines.length 1 := by
  rw [group]
  induction lines with
  | nil => rfl
  | cons line rest ih =>
    obtain ⟨hline, hrest⟩ := List.forall_mem_cons.mp h
    obtain ⟨hcloseLine, hcloseRest⟩ := List.forall_mem_cons.mp hclose
    have hdepth := depthAfter_of_passes hline hcloseLine
    rw [groupFrom, if_pos hdepth, ih hrest hcloseRest]
    rfl

/-- brackets in literals, closed there or never opened -/
theorem group_eq_replicate_closed :
    let lines := ["show(f(\"(a)\", [$])) ", " ", "x = [1, \")]\"]"]
    (∀ line ∈ lines, Passes line) ∧
      (∀ line ∈ lines, ∀ literal ∈ literals line, depthAfter 0 literal = 0) ∧
      group lines = [1, 1, 1] := by
  intro lines
  have hpasses : ∀ line ∈ lines, Passes line := by
    refine List.forall_mem_cons.mpr ⟨.inr ⟨1, by decide +kernel⟩, ?_⟩
    refine List.forall_mem_cons.mpr ⟨.inl (by decide +kernel), ?_⟩
    exact List.forall_mem_singleton.mpr (.inr ⟨0, by decide +kernel⟩)
  have hclose : ∀ line ∈ lines, ∀ literal ∈ literals line, depthAfter 0 literal = 0 := by
    decide +kernel
  exact ⟨hpasses, hclose, group_eq_replicate hpasses hclose⟩

/-- a bracket that is left open in a literal takes the next line into the statement, though both
lines can be read -/
theorem group_open_literal :
    check "\"(\"" = .ok 0 ∧ check "1" = .ok 0 ∧ group ["\"(\"", "1"] = [2] := by
  decide +kernel

end Statement

end Dataflow
