import Dataflow.Proofs.Complete

/-!
# A yield has one tree

Two trees with the same tokens are the same, also when tokens stand behind them that would not carry
them on (`Tree.Unique`, `Tree.unique`).

* `Postfix`         what an access can be followed by: a member or a call;
* `tails_unique`    tokens of a list of tails, each of which begins with a token of its own, come
                    from one list only.

A tree that grows to the left is its first operand with a list of tails (`exists_spine_access`,
`exists_spine_product`, `exists_spine_expr`), and these are compared from the left.
-/

namespace Dataflow.Tree

open Expression

/-! ## lists of tails -/

/-- Tails are told apart from the left: each begins with a token that does not stand behind the
whole list, and its end is found whatever stands behind it that may. -/
theorem tails_unique {τ : Type} {yield : τ → List Token} (begins : Token → Prop)
    (after : List Token → Prop)
    (hbegins : ∀ t rest, begins ((yield t ++ rest).headD .finish))
    (hafter : ∀ t rest, after (yield t ++ rest)) {rest rest' : List Token} (hrest : after rest)
    (hrest' : after rest') (hend : ¬ begins (rest.headD .finish))
    (hend' : ¬ begins (rest'.headD .finish)) (l l' : List τ)
    (hl : ∀ t ∈ l, ∀ t' rest rest', after rest → after rest' →
      yield t ++ rest = yield t' ++ rest' → t = t' ∧ rest = rest')
    (h : l.flatMap yield ++ rest = l'.flatMap yield ++ rest') : l = l' ∧ rest = rest' := by
  have hmore : ∀ (l : List τ) {rest}, after rest → after (l.flatMap yield ++ rest) := by
    intro l rest hrest
    cases l with
    | nil => exact hrest
    | cons t l =>
      rw [List.flatMap_cons, List.append_assoc]
      exact hafter t _
  induction l generalizing l' with
  | nil =>
    cases l' with
    | nil => exact ⟨rfl, h⟩
    | cons t' l' =>
      rw [List.flatMap_nil, List.nil_append, List.flatMap_cons, List.append_assoc] at h
      exact absurd (h ▸ hbegins t' _) hend
  | cons t l ih =>
    cases l' with
    | nil =>
      rw [List.flatMap_nil, List.nil_append, List.flatMap_cons, List.append_assoc] at h
      exact absurd (h ▸ hbegins t _) hend'
    | cons t' l' =>
      rw [List.flatMap_cons, List.flatMap_cons, List.append_assoc, List.append_assoc] at h
      obtain ⟨rfl, htails⟩ :=
        hl t List.mem_cons_self t' _ _ (hmore l hrest) (hmore l' hrest') h
      obtain ⟨rfl, rfl⟩ := ih l' (fun u hu => hl u (List.mem_cons_of_mem t hu)) htails
      exact ⟨rfl, rfl⟩

section

variable {T τ : Type} {apply : T → τ → T}

theorem yield_foldl {yield : T → List Token} {tail : τ → List Token}
    (h : ∀ a t, yield (apply a t) = yield a ++ tail t) (tails : List τ) (a : T) :
    yield (tails.foldl apply a) = yield a ++ tails.flatMap tail := by
  induction tails generalizing a with
  | nil => simp
  | cons t tails ih => rw [List.foldl_cons, ih, h, List.flatMap_cons, List.append_assoc]

theorem nesting_foldl {nesting : T → Nat} {tail : τ → Nat} {n : Nat}
    (h : ∀ a t, nesting (apply a t) = max (nesting a) (tail t)) (tails : List τ) (a : T)
    (hn : nesting (tails.foldl apply a) ≤ n) : nesting a ≤ n ∧ ∀ t ∈ tails, tail t ≤ n := by
  induction tails generalizing a with
  | nil => exact ⟨hn, by simp⟩
  | cons t tails ih =>
    obtain ⟨happly, htails⟩ := ih _ hn
    rw [h, Nat.max_le] at happly
    exact ⟨happly.1, List.forall_mem_cons.mpr ⟨happly.2, htails⟩⟩

end

/-! ## spines -/

/-- what can follow an access -/
inductive Postfix where
  | member (name : String)
  | call (arguments : List Argument)

namespace Postfix

def apply (a : Access) : Postfix → Access
  | .member name => .member a name
  | .call arguments => .call a arguments

def yield : Postfix → List Token
  | .member name => [.mark .dot, .name name]
  | .call arguments => .mark .openParen :: (Argument.yields arguments ++ [.mark .closeParen])

def nesting : Postfix → Nat
  | .member _ => 0
  | .call arguments => Argument.listNesting arguments

theorem yield_apply (a : Access) (t : Postfix) : (apply a t).yield = a.yield ++ t.yield := by
  cases t <;> rfl

theorem nesting_apply (a : Access) (t : Postfix) :
    (apply a t).nesting = max a.nesting t.nesting := by
  cases t with
  | member name => exact (Nat.max_zero _).symm
  | call arguments => rfl

end Postfix

def Product.extend (p : Product) (tail : ProductSign × Access) : Product :=
  .join p tail.1 tail.2

theorem Product.yield_extend (p : Product) (tail : ProductSign × Access) :
    (p.extend tail).yield = p.yield ++ tail.1.token :: tail.2.yield := rfl

theorem Product.nesting_extend (p : Product) (tail : ProductSign × Access) :
    (p.extend tail).nesting = max p.nesting tail.2.nesting := rfl

def Expr.extend (e : Expr) (tail : SumSign × Product) : Expr := .join e tail.1 tail.2

theorem Expr.yield_extend (e : Expr) (tail : SumSign × Product) :
    (e.extend tail).yield = e.yield ++ tail.1.token :: tail.2.yield := rfl

theorem Expr.nesting_extend (e : Expr) (tail : SumSign × Product) :
    (e.extend tail).nesting = max e.nesting tail.2.nesting := rfl

theorem exists_spine_access : ∀ a : Access, ∃ (p : Primary) (tails : List Postfix),
    a = tails.foldl Postfix.apply (.primary p)
  | .primary p => ⟨p, [], rfl⟩
  | .member of name => by
    obtain ⟨p, tails, heq⟩ := exists_spine_access of
    exact ⟨p, tails ++ [.member name], by rw [List.foldl_append, ← heq]; rfl⟩
  | .call callee arguments => by
    obtain ⟨p, tails, heq⟩ := exists_spine_access callee
    exact ⟨p, tails ++ [.call arguments], by rw [List.foldl_append, ← heq]; rfl⟩

theorem exists_spine_product : ∀ p : Product, ∃ (a : Access) (tails : List (ProductSign × Access)),
    p = tails.foldl Product.extend (.access a)
  | .access a => ⟨a, [], rfl⟩
  | .join left sign right => by
    obtain ⟨a, tails, heq⟩ := exists_spine_product left
    exact ⟨a, tails ++ [(sign, right)], by rw [List.foldl_append, ← heq]; rfl⟩

theorem exists_spine_expr : ∀ e : Expr, ∃ (p : Product) (tails : List (SumSign × Product)),
    e = tails.foldl Expr.extend (.product p)
  | .product p => ⟨p, [], rfl⟩
  | .join left sign right => by
    obtain ⟨p, tails, heq⟩ := exists_spine_expr left
    exact ⟨p, tails ++ [(sign, right)], by rw [List.foldl_append, ← heq]; rfl⟩

/-! ## lists between commas -/

/-- what may stand behind a whole argument -/
structure AfterArgument (rest : List Token) : Prop extends AfterExpr rest where
  equals : rest.headD .finish ≠ .mark .equals

theorem afterArgument_comma (rest : List Token) : AfterArgument (.mark .comma :: rest) :=
  ⟨afterExpr_comma rest, by simp⟩

theorem afterArgument_closeParen (rest : List Token) : AfterArgument (.mark .closeParen :: rest) :=
  ⟨afterExpr_closeParen rest, by simp⟩

theorem afterArgument_closeBracket (rest : List Token) :
    AfterArgument (.mark .closeBracket :: rest) :=
  ⟨afterExpr_closeBracket rest, by simp⟩

/-- the tokens of a list with commas between its items -/
def separated {τ : Type} (yield : τ → List Token) : List τ → List Token
  | [] => []
  | t :: l => yield t ++ l.flatMap fun u => .mark .comma :: yield u

theorem moreYields_expr (es : List Expr) :
    Expr.moreYields es = es.flatMap fun e => .mark .comma :: e.yield := by
  induction es with
  | nil => rfl
  | cons e es ih => rw [Expr.moreYields, ih, List.flatMap_cons, List.cons_append]

theorem moreYields_argument (as : List Argument) :
    Argument.moreYields as = as.flatMap fun a => .mark .comma :: a.yield := by
  induction as with
  | nil => rfl
  | cons a as ih => rw [Argument.moreYields, ih, List.flatMap_cons, List.cons_append]

theorem yields_expr (es : List Expr) : Expr.yields es = separated Expr.yield es := by
  cases es with
  | nil => rfl
  | cons e es => rw [Expr.yields, moreYields_expr, separated]

theorem yields_argument (as : List Argument) :
    Argument.yields as = separated Argument.yield as := by
  cases as with
  | nil => rfl
  | cons a as => rw [Argument.yields, moreYields_argument, separated]

/-- items that are told apart are told apart between commas, up to a closing mark that begins no
item -/
theorem separated_unique {τ : Type} {yield : τ → List Token} {close : Mark}
    {rest rest' : List Token} (hclose : ∀ rest, AfterArgument (.mark close :: rest))
    (hcomma : close ≠ .comma)
    (hopens : ∀ t rest, AfterArgument rest → (yield t ++ rest).headD .finish ≠ .mark close)
    (l l' : List τ)
    (hl : ∀ t ∈ l, ∀ t' rest rest', AfterArgument rest → AfterArgument rest' →
      yield t ++ rest = yield t' ++ rest' → t = t' ∧ rest = rest')
    (h : separated yield l ++ .mark close :: rest = separated yield l' ++ .mark close :: rest') :
    l = l' ∧ rest = rest' := by
  have hmore : ∀ (l : List τ) rest,
      AfterArgument ((l.flatMap fun u => .mark .comma :: yield u) ++ .mark close :: rest) := by
    intro l rest
    cases l with
    | nil => exact hclose rest
    | cons t l => exact afterArgument_comma _
  cases l with
  | nil =>
    cases l' with
    | nil => exact ⟨rfl, (List.cons.inj h).2⟩
    | cons t' l' =>
      rw [separated, separated, List.nil_append, List.append_assoc] at h
      exact absurd (h ▸ rfl) (hopens t' _ (hmore l' rest'))
  | cons t l =>
    cases l' with
    | nil =>
      rw [separated, separated, List.nil_append, List.append_assoc] at h
      exact absurd (h ▸ rfl) (hopens t _ (hmore l rest))
    | cons t' l' =>
      rw [separated, separated, List.append_assoc, List.append_assoc] at h
      obtain ⟨ht, hls⟩ := List.forall_mem_cons.mp hl
      obtain ⟨rfl, htails⟩ := ht t' _ _ (hmore l rest) (hmore l' rest') h
      have hitem : ∀ u ∈ l, ∀ u' after after', AfterArgument after → AfterArgument after' →
          .mark .comma :: yield u ++ after = .mark .comma :: yield u' ++ after' →
            u = u' ∧ after = after' :=
        fun u hu u' _ _ ha ha' heq => hls u hu u' _ _ ha ha' (List.cons.inj heq).2
      have hend : ∀ rest : List Token, ¬ (Token.mark close :: rest).headD .finish = .mark .comma :=
        fun _ heq => hcomma (Token.mark.inj heq)
      obtain ⟨rfl, hclosed⟩ := tails_unique (· = .mark .comma) AfterArgument
        (fun _ _ => rfl) (fun _ _ => afterArgument_comma _)
        (hclose rest) (hclose rest') (hend rest) (hend rest') l l' hitem htails
      exact ⟨rfl, (List.cons.inj hclosed).2⟩

/-! ## trees -/

/-- expressions with fewer levels are told apart from all others, up to where they end -/
def Unique (n : Nat) : Prop :=
  ∀ e e' : Expr, e.nesting < n → ∀ rest rest', AfterExpr rest → AfterExpr rest' →
    e.yield ++ rest = e'.yield ++ rest' → e = e' ∧ rest = rest'

section

variable {n : Nat} {rest rest' : List Token}

theorem Unique.argument (hu : Unique n) (a a' : Argument) (hn : a.value.nesting < n)
    (hrest : AfterArgument rest) (hrest' : AfterArgument rest')
    (h : a.yield ++ rest = a'.yield ++ rest') : a = a' ∧ rest = rest' := by
  cases a with
  | positional e =>
    cases a' with
    | positional e' =>
      obtain ⟨rfl, rfl⟩ := hu e e' hn _ _ hrest.toAfterExpr hrest'.toAfterExpr h
      exact ⟨rfl, rfl⟩
    | named name e' => exact absurd h ((opens_expr e hrest.equals).unnamed name _)
  | named name e =>
    cases a' with
    | positional e' => exact absurd h.symm ((opens_expr e' hrest'.equals).unnamed name _)
    | named name' e' =>
      obtain ⟨hname, hequals⟩ := List.cons.inj h
      obtain ⟨rfl, rfl⟩ := hu e e' hn _ _ hrest.toAfterExpr hrest'.toAfterExpr
        (List.cons.inj hequals).2
      exact ⟨by rw [Token.name.inj hname], rfl⟩

theorem Unique.arguments (hu : Unique n) (as as' : List Argument)
    (hn : ∀ a ∈ as, a.value.nesting < n)
    (h : Argument.yields as ++ .mark .closeParen :: rest
      = Argument.yields as' ++ .mark .closeParen :: rest') : as = as' ∧ rest = rest' := by
  rw [yields_argument, yields_argument] at h
  refine separated_unique afterArgument_closeParen (by simp) (fun a rest hrest => ?_) as as'
    (fun a ha a' _ _ hrest hrest' => hu.argument a a' (hn a ha) hrest hrest') h
  cases a with
  | positional e => exact (opens_expr e hrest.equals).paren
  | named name e => simp [Argument.yield]

theorem Unique.elements (hu : Unique n) (es es' : List Expr) (hn : ∀ e ∈ es, e.nesting < n)
    (h : Expr.yields es ++ .mark .closeBracket :: rest
      = Expr.yields es' ++ .mark .closeBracket :: rest') : es = es' ∧ rest = rest' := by
  rw [yields_expr, yields_expr] at h
  exact separated_unique afterArgument_closeBracket (by simp)
    (fun e _ hrest => (opens_expr e hrest.equals).bracket) es es'
    (fun e he e' _ _ hrest hrest' => hu e e' (hn e he) _ _ hrest.toAfterExpr hrest'.toAfterExpr) h

theorem Unique.primary (hu : Unique n) (p p' : Primary) (hn : p.nesting ≤ n)
    (h : p.yield ++ rest = p'.yield ++ rest') : p = p' ∧ rest = rest' := by
  cases p with
  | parens e =>
    cases p' with
    | parens e' =>
      simp only [Primary.yield, List.cons_append, List.append_assoc, List.nil_append] at h
      obtain ⟨rfl, hclosed⟩ := hu e e' hn _ _ (afterExpr_closeParen rest)
        (afterExpr_closeParen rest') (List.cons.inj h).2
      exact ⟨rfl, (List.cons.inj hclosed).2⟩
    | _ => cases h
  | vector es =>
    cases p' with
    | vector es' =>
      simp only [Primary.yield, List.cons_append, List.append_assoc, List.nil_append] at h
      obtain ⟨rfl, rfl⟩ :=
        hu.elements es es' (Expr.listNesting_le.mp hn) (List.cons.inj h).2
      exact ⟨rfl, rfl⟩
    | _ => cases h
  | _ =>
    cases p' <;> cases h
    exact ⟨rfl, rfl⟩

theorem Unique.postfix (hu : Unique n) (t t' : Postfix) (hn : t.nesting ≤ n)
    (h : t.yield ++ rest = t'.yield ++ rest') : t = t' ∧ rest = rest' := by
  cases t with
  | member name =>
    cases t' with
    | member name' => cases h; exact ⟨rfl, rfl⟩
    | call arguments' => cases h
  | call arguments =>
    cases t' with
    | member name' => cases h
    | call arguments' =>
      simp only [Postfix.yield, List.cons_append, List.append_assoc, List.nil_append] at h
      obtain ⟨rfl, rfl⟩ :=
        hu.arguments arguments arguments' (Argument.listNesting_le.mp hn) (List.cons.inj h).2
      exact ⟨rfl, rfl⟩

theorem Unique.access (hu : Unique n) (a a' : Access) (hn : a.nesting ≤ n)
    (hrest : AfterAccess rest) (hrest' : AfterAccess rest')
    (h : a.yield ++ rest = a'.yield ++ rest') : a = a' ∧ rest = rest' := by
  obtain ⟨p, tails, rfl⟩ := exists_spine_access a
  obtain ⟨p', tails', rfl⟩ := exists_spine_access a'
  obtain ⟨hp, htails⟩ := nesting_foldl Postfix.nesting_apply tails _ hn
  rw [yield_foldl Postfix.yield_apply, yield_foldl Postfix.yield_apply, List.append_assoc,
    List.append_assoc] at h
  obtain ⟨rfl, hrests⟩ := hu.primary p p' hp h
  have hbegins : ∀ (t : Postfix) rest, (t.yield ++ rest).headD .finish = .mark .dot ∨
      (t.yield ++ rest).headD .finish = .mark .openParen := by
    intro t rest
    cases t with
    | member name => exact .inl rfl
    | call arguments => exact .inr rfl
  obtain ⟨rfl, rfl⟩ := tails_unique (fun t => t = .mark .dot ∨ t = .mark .openParen)
    (fun _ => True) hbegins (fun _ _ => trivial) trivial trivial
    (not_or.mpr ⟨hrest.dot, hrest.paren⟩) (not_or.mpr ⟨hrest'.dot, hrest'.paren⟩) tails tails'
    (fun t ht t' _ _ _ _ => hu.postfix t t' (htails t ht)) hrests
  exact ⟨rfl, rfl⟩

theorem Unique.product (hu : Unique n) (p p' : Product) (hn : p.nesting ≤ n)
    (hrest : AfterProduct rest) (hrest' : AfterProduct rest')
    (h : p.yield ++ rest = p'.yield ++ rest') : p = p' ∧ rest = rest' := by
  obtain ⟨a, tails, rfl⟩ := exists_spine_product p
  obtain ⟨a', tails', rfl⟩ := exists_spine_product p'
  obtain ⟨ha, htails⟩ := nesting_foldl Product.nesting_extend tails _ hn
  rw [yield_foldl Product.yield_extend, yield_foldl Product.yield_extend, List.append_assoc,
    List.append_assoc] at h
  have hafter : ∀ (tails : List (ProductSign × Access)) {rest}, AfterAccess rest →
      AfterAccess (tails.flatMap (fun t => t.1.token :: t.2.yield) ++ rest) := by
    intro tails rest hrest
    cases tails with
    | nil => exact hrest
    | cons t tails => exact afterAccess_sign t.1 _
  obtain ⟨rfl, hrests⟩ := hu.access a a' ha (hafter tails hrest.toAfterAccess)
    (hafter tails' hrest'.toAfterAccess) h
  have htail : ∀ t ∈ tails, ∀ t' after after', AfterAccess after → AfterAccess after' →
      t.1.token :: t.2.yield ++ after = t'.1.token :: t'.2.yield ++ after' →
        t = t' ∧ after = after' := by
    rintro ⟨sign, a⟩ ht ⟨sign', a'⟩ after after' hafter hafter' heq
    obtain ⟨hsign, heq⟩ := List.cons.inj heq
    obtain ⟨rfl, rfl⟩ := hu.access a a' (htails _ ht) hafter hafter' heq
    obtain rfl := ProductSign.token_inj hsign
    exact ⟨rfl, rfl⟩
  obtain ⟨rfl, rfl⟩ := tails_unique (fun t => productSign? t ≠ none) AfterAccess
    (fun t _ => by simp [productSign?_token]) (fun t _ => afterAccess_sign t.1 _)
    hrest.toAfterAccess hrest'.toAfterAccess (not_not_intro hrest.productSign)
    (not_not_intro hrest'.productSign) tails tails' htail hrests
  exact ⟨rfl, rfl⟩

theorem Unique.expr (hu : Unique n) (e e' : Expr) (hn : e.nesting ≤ n)
    (hrest : AfterExpr rest) (hrest' : AfterExpr rest')
    (h : e.yield ++ rest = e'.yield ++ rest') : e = e' ∧ rest = rest' := by
  obtain ⟨p, tails, rfl⟩ := exists_spine_expr e
  obtain ⟨p', tails', rfl⟩ := exists_spine_expr e'
  obtain ⟨hp, htails⟩ := nesting_foldl Expr.nesting_extend tails _ hn
  rw [yield_foldl Expr.yield_extend, yield_foldl Expr.yield_extend, List.append_assoc,
    List.append_assoc] at h
  have hafter : ∀ (tails : List (SumSign × Product)) {rest}, AfterProduct rest →
      AfterProduct (tails.flatMap (fun t => t.1.token :: t.2.yield) ++ rest) := by
    intro tails rest hrest
    cases tails with
    | nil => exact hrest
    | cons t tails => exact afterProduct_sign t.1 _
  obtain ⟨rfl, hrests⟩ := hu.product p p' hp (hafter tails hrest.toAfterProduct)
    (hafter tails' hrest'.toAfterProduct) h
  have htail : ∀ t ∈ tails, ∀ t' after after', AfterProduct after → AfterProduct after' →
      t.1.token :: t.2.yield ++ after = t'.1.token :: t'.2.yield ++ after' →
        t = t' ∧ after = after' := by
    rintro ⟨sign, p⟩ ht ⟨sign', p'⟩ after after' hafter hafter' heq
    obtain ⟨hsign, heq⟩ := List.cons.inj heq
    obtain ⟨rfl, rfl⟩ := hu.product p p' (htails _ ht) hafter hafter' heq
    obtain rfl := SumSign.token_inj hsign
    exact ⟨rfl, rfl⟩
  obtain ⟨rfl, rfl⟩ := tails_unique (fun t => sumSign? t ≠ none) AfterProduct
    (fun t _ => by simp [sumSign?_token]) (fun t _ => afterProduct_sign t.1 _)
    hrest.toAfterProduct hrest'.toAfterProduct (not_not_intro hrest.sumSign)
    (not_not_intro hrest'.sumSign) tails tails' htail hrests
  exact ⟨rfl, rfl⟩

end

/-- **Trees are told apart by their tokens**, whatever stands behind these that may. -/
theorem unique (n : Nat) : Unique n := by
  induction n with
  | zero => exact fun _ _ h => absurd h (Nat.not_lt_zero _)
  | succ n ih =>
    intro e e' hn rest rest' hrest hrest' h
    exact ih.expr e e' (Nat.le_of_lt_succ hn) hrest hrest' h

theorem yield_injective {e e' : Expr} (h : e.yield = e'.yield) : e = e' := by
  have hafter : AfterExpr [] := afterExpr_finish rfl
  refine (unique (e.nesting + 1) e e' (Nat.lt_succ_self _) [] [] hafter hafter ?_).1
  rw [h]

end Dataflow.Tree
