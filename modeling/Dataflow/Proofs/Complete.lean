import Dataflow.Proofs.Sound

/-!
# What has a tree is read

A production on the yield of a tree hands on the operations of the tree, up to the first that the
machine refuses, and leaves what stands behind the yield (`Expression.expression_yield`).

* `AfterAccess`, `AfterProduct`, `AfterExpr`   what may stand behind a whole access, product or
                          expression: nothing that would carry it on;
* `Opens`                 how an expression begins: not with a closing mark, nor with the name of an
                          argument;
* `chainRest`, `accessRest`   the loops, free of the count of their turns (`chainRest_sign`,
                          `accessRest_member`, `accessRest_call`).

A tree grows to the left and a loop runs to the right, so a production is first shown to read a tree
and then to go on with its loop.
-/

namespace Dataflow

open Parse

namespace Parse

variable {σ β : Type} {m : Machine σ} {tokens tokens' rest : List Token} {s : σ}

/-- operations leave the tokens alone -/
theorem emitAll_bind {ops : List Op} {next next' : Unit → Parse σ β}
    (h : ∀ s, next () tokens s = next' () tokens' s) :
    (emitAll m ops >>= next) tokens s = (emitAll m ops >>= next') tokens' s := by
  rw [bind_eq, bind_eq]
  unfold emitAll
  cases m.run ops s with
  | mk result s₁ =>
    cases result with
    | ok _ => exact h s₁
    | error fault => rfl

theorem emitAll_bind_done {ops : List Op} {next : Unit → Parse σ Unit}
    (h : ∀ s, next () tokens s = (.ok ((), tokens'), s)) :
    (emitAll m ops >>= next) tokens s = emitAll m ops tokens' s := by
  have hdone : (emitAll m ops >>= next) tokens s = (emitAll m ops >>= pure) tokens' s :=
    emitAll_bind h
  rw [hdone, bind_pure]

theorem Ends.append (used : List Token) (h : Ends rest) : Ends (used ++ rest) := by
  unfold Ends at h ⊢
  rw [List.getLast?_append, h]
  rfl

theorem Ends.cons {t : Token} (h : Ends rest) : Ends (t :: rest) := h.append [t]

end Parse

namespace Expression

open Dataflow.Tree

/-- what may stand behind a whole access -/
structure AfterAccess (rest : List Token) : Prop where
  dot : rest.headD .finish ≠ .mark .dot
  paren : rest.headD .finish ≠ .mark .openParen

/-- what may stand behind a whole product -/
structure AfterProduct (rest : List Token) : Prop extends AfterAccess rest where
  productSign : productSign? (rest.headD .finish) = none

/-- what may stand behind a whole expression -/
structure AfterExpr (rest : List Token) : Prop extends AfterProduct rest where
  sumSign : sumSign? (rest.headD .finish) = none

theorem afterExpr_finish {rest : List Token} (h : rest.headD .finish = .finish) :
    AfterExpr rest := by
  refine ⟨⟨⟨?_, ?_⟩, ?_⟩, ?_⟩ <;> rw [h] <;> first | rfl | simp

theorem afterExpr_comma (rest : List Token) : AfterExpr (.mark .comma :: rest) :=
  ⟨⟨⟨by simp, by simp⟩, rfl⟩, rfl⟩

theorem afterExpr_closeParen (rest : List Token) : AfterExpr (.mark .closeParen :: rest) :=
  ⟨⟨⟨by simp, by simp⟩, rfl⟩, rfl⟩

theorem afterExpr_closeBracket (rest : List Token) : AfterExpr (.mark .closeBracket :: rest) :=
  ⟨⟨⟨by simp, by simp⟩, rfl⟩, rfl⟩

theorem afterProduct_sign (sign : SumSign) (rest : List Token) :
    AfterProduct (sign.token :: rest) := by
  cases sign <;> exact ⟨⟨by simp [SumSign.token], by simp [SumSign.token]⟩, rfl⟩

theorem afterAccess_sign (sign : ProductSign) (rest : List Token) :
    AfterAccess (sign.token :: rest) := by
  cases sign <;> exact ⟨by simp [ProductSign.token], by simp [ProductSign.token]⟩

theorem sumSign?_token (sign : SumSign) : sumSign? sign.token = some sign.sign := by
  cases sign <;> rfl

theorem productSign?_token (sign : ProductSign) : productSign? sign.token = some sign.sign := by
  cases sign <;> rfl

/-! ## how expressions begin -/

/-- tokens that an expression may begin with, and not a named argument -/
structure Opens (tokens : List Token) : Prop where
  paren : tokens.headD .finish ≠ .mark .closeParen
  bracket : tokens.headD .finish ≠ .mark .closeBracket
  unnamed : ∀ name rest, tokens ≠ .name name :: .mark .equals :: rest

theorem opens_primary (p : Primary) {rest : List Token}
    (h : rest.headD .finish ≠ .mark .equals) : Opens (p.yield ++ rest) := by
  cases p with
  | name text =>
    refine ⟨by simp [Primary.yield], by simp [Primary.yield], fun name after heq => h ?_⟩
    have hrest : rest = .mark .equals :: after := (List.cons.inj heq).2
    rw [hrest]
    rfl
  | _ => exact ⟨by simp [Primary.yield], by simp [Primary.yield], by simp [Primary.yield]⟩

theorem opens_access : ∀ (a : Access) {rest : List Token}, rest.headD .finish ≠ .mark .equals →
    Opens (a.yield ++ rest)
  | .primary p, _, h => opens_primary p h
  | .member of name, rest, _ => by
    rw [Access.yield, List.append_assoc]
    exact opens_access of (by simp)
  | .call callee arguments, rest, _ => by
    rw [Access.yield, List.append_assoc]
    exact opens_access callee (by simp)

theorem opens_product : ∀ (p : Product) {rest : List Token}, rest.headD .finish ≠ .mark .equals →
    Opens (p.yield ++ rest)
  | .access a, _, h => opens_access a h
  | .join left sign right, rest, _ => by
    rw [Product.yield, List.append_assoc]
    exact opens_product left (by cases sign <;> simp [ProductSign.token])

theorem opens_expr : ∀ (e : Expr) {rest : List Token}, rest.headD .finish ≠ .mark .equals →
    Opens (e.yield ++ rest)
  | .product p, _, h => opens_product p h
  | .join left sign right, rest, _ => by
    rw [Expr.yield, List.append_assoc]
    exact opens_expr left (by cases sign <;> simp [SumSign.token])

/-! ## loops -/

section

variable {σ : Type} {m : Machine σ} {inner operand : Parse σ Unit} {n : Nat} {s : σ}
  {sign? : Token → Option Sign} {tokens rest : List Token} {O : List Token → List Op → Prop}

/-- further operands, as many as there are -/
def chainRest (m : Machine σ) (sign? : Token → Option Sign) (operand : Parse σ Unit) :
    Parse σ Unit := do
  chainTail m sign? operand (← ahead)

/-- further members and calls, as many as there are -/
def accessRest (m : Machine σ) (inner : Parse σ Unit) : Parse σ Unit := do
  accessTail m inner (← ahead)

theorem chain_eq :
    chain m sign? operand = (do operand; chainRest m sign? operand) := rfl

theorem access_eq :
    access m inner = (do primary m inner; accessRest m inner) := rfl

/-- a turn that finds a sign -/
theorem chainTail_sign {t turn : Token} {turns : List Token} {sign : Sign}
    (hsign : sign? t = some sign) (hne : t ≠ .finish) :
    chainTail m sign? operand (turn :: turns) (t :: rest) s =
      (do operand; emit m (.binary sign); chainTail m sign? operand turns) rest s := by
  simp only [chainTail, bind_eq, peek, List.headD_cons, hsign, bump_of_ne hne]

/-- a turn that finds none -/
theorem chainTail_stop (turn : Token) (turns : List Token)
    (hsign : sign? (tokens.headD .finish) = none) :
    chainTail m sign? operand (turn :: turns) tokens s = (.ok ((), tokens), s) := by
  simp only [chainTail, bind_eq, peek, hsign, pure_eq]

/-- turns to spare make no difference -/
theorem chainTail_turns (hoperand : Reads m operand fun _ => O) (hfinish : sign? .finish = none)
    (turns turns' : List Token) (hends : Ends tokens) (h : tokens.length ≤ turns.length)
    (h' : tokens.length ≤ turns'.length) :
    chainTail m sign? operand turns tokens s = chainTail m sign? operand turns' tokens s := by
  induction turns generalizing turns' tokens s with
  | nil => exact absurd h (Nat.not_le.mpr hends.length_pos)
  | cons turn turns ih =>
    match tokens, turns' with
    | [], _ => cases hends
    | _ :: _, [] => cases h'
    | t :: rest, turn' :: turns' =>
      cases hsign : sign? t with
      | none => rw [chainTail_stop _ _ hsign, chainTail_stop _ _ hsign]
      | some sign =>
        have hne : t ≠ .finish := by
          rintro rfl
          rw [hfinish] at hsign
          cases hsign
        rw [chainTail_sign hsign hne, chainTail_sign hsign hne]
        refine bind_congr_right fun _ mid s₁ hread => bind_congr_right fun _ mid' s₂ hemit => ?_
        obtain ⟨used, _, _, rfl, _, hends'⟩ := hoperand _ (hends.tail hne) _ _ _ _ hread
        obtain ⟨rfl, _⟩ := emit_ok hemit
        simp only [List.length_cons, List.length_append] at h h'
        exact ih turns' hends' (by omega) (by omega)

/-- a loop that finds a sign reads an operand, applies the sign and goes on -/
theorem chainRest_sign {t : Token} {sign : Sign} (hoperand : Reads m operand fun _ => O)
    (hfinish : sign? .finish = none) (hsign : sign? t = some sign) (hends : Ends (t :: rest)) :
    chainRest m sign? operand (t :: rest) s =
      (do operand; emit m (.binary sign); chainRest m sign? operand) rest s := by
  have hne : t ≠ .finish := by
    rintro rfl
    rw [hfinish] at hsign
    cases hsign
  show chainTail m sign? operand (t :: rest) (t :: rest) s = _
  rw [chainTail_sign hsign hne]
  refine bind_congr_right fun _ mid s₁ hread => bind_congr_right fun _ mid' s₂ hemit => ?_
  obtain ⟨used, _, _, rfl, _, hends'⟩ := hoperand _ (hends.tail hne) _ _ _ _ hread
  obtain ⟨rfl, _⟩ := emit_ok hemit
  refine chainTail_turns hoperand hfinish _ _ hends' ?_ (Nat.le_refl _)
  simp

theorem chainRest_stop (hends : Ends tokens) (h : sign? (tokens.headD .finish) = none) :
    chainRest m sign? operand tokens s = (.ok ((), tokens), s) := by
  match tokens with
  | [] => cases hends
  | t :: rest => exact chainTail_stop t rest h

theorem memberName_name (name : String) :
    memberName m (.name name :: rest) s = emit m (.member name) rest s := rfl

/-- a turn that finds a member -/
theorem accessTail_dot {turn : Token} {turns : List Token} :
    accessTail m inner (turn :: turns) (.mark .dot :: rest) s =
      (do memberName m; accessTail m inner turns) rest s := by
  simp only [accessTail, bind_eq, eat_mark, if_true]

/-- a turn that finds a call -/
theorem accessTail_call {turn : Token} {turns : List Token} :
    accessTail m inner (turn :: turns) (.mark .openParen :: rest) s =
      (do
        let forms ← arguments inner
        closeParen
        emit m (.call forms)
        accessTail m inner turns) rest s := by
  have hdot : eat .dot (.mark .openParen :: rest) s = (.ok (false, .mark .openParen :: rest), s) :=
    eat_of_ne (by simp)
  simp only [accessTail, bind_eq, hdot, eat_mark, if_true, Bool.false_eq_true, if_false]

theorem accessTail_stop (turn : Token) (turns : List Token) (h : AfterAccess tokens) :
    accessTail m inner (turn :: turns) tokens s = (.ok ((), tokens), s) := by
  simp only [accessTail, bind_eq, eat_of_ne h.dot, eat_of_ne h.paren, Bool.false_eq_true, if_false,
    pure_eq]

/-- turns to spare make no difference -/
theorem accessTail_turns (hinner : Reads m inner (Inner n)) (turns turns' : List Token)
    (hends : Ends tokens) (h : tokens.length ≤ turns.length) (h' : tokens.length ≤ turns'.length) :
    accessTail m inner turns tokens s = accessTail m inner turns' tokens s := by
  induction turns generalizing turns' tokens s with
  | nil => exact absurd h (Nat.not_le.mpr hends.length_pos)
  | cons turn turns ih =>
    match tokens, turns' with
    | [], _ => cases hends
    | _ :: _, [] => cases h'
    | t :: rest, turn' :: turns' =>
      by_cases hdot : t = .mark .dot
      · obtain rfl := hdot
        rw [accessTail_dot, accessTail_dot]
        refine bind_congr_right fun _ mid s₁ hname => ?_
        obtain ⟨used, _, _, rfl, _, hends'⟩ :=
          memberName_reads _ (hends.tail (by simp)) _ _ _ _ hname
        simp only [List.length_cons, List.length_append] at h h'
        exact ih turns' hends' (by omega) (by omega)
      by_cases hparen : t = .mark .openParen
      · obtain rfl := hparen
        rw [accessTail_call, accessTail_call]
        refine bind_congr_right fun _ mid s₁ hargs => bind_congr_right fun _ mid' s₂ hclose =>
          bind_congr_right fun _ mid'' s₃ hemit => ?_
        obtain ⟨used, _, _, rfl, _, hends'⟩ :=
          arguments_reads hinner _ (hends.tail (by simp)) _ _ _ _ hargs
        obtain ⟨rfl, rfl⟩ := closeParen_ok hclose
        obtain ⟨rfl, _⟩ := emit_ok hemit
        simp only [List.length_cons, List.length_append] at h h'
        exact ih turns' (hends'.tail (by simp)) (by omega) (by omega)
      · have hafter : AfterAccess (t :: rest) := ⟨hdot, hparen⟩
        rw [accessTail_stop _ _ hafter, accessTail_stop _ _ hafter]

theorem accessRest_dot (hinner : Reads m inner (Inner n)) (hends : Ends (.mark .dot :: rest)) :
    accessRest m inner (.mark .dot :: rest) s =
      (do memberName m; accessRest m inner) rest s := by
  show accessTail m inner (.mark .dot :: rest) (.mark .dot :: rest) s = _
  rw [accessTail_dot]
  refine bind_congr_right fun _ mid s₁ hname => ?_
  obtain ⟨used, _, _, rfl, _, hends'⟩ := memberName_reads _ (hends.tail (by simp)) _ _ _ _ hname
  exact accessTail_turns hinner _ _ hends' (by simp) (Nat.le_refl _)

theorem accessRest_call (hinner : Reads m inner (Inner n))
    (hends : Ends (.mark .openParen :: rest)) :
    accessRest m inner (.mark .openParen :: rest) s =
      (do
        let forms ← arguments inner
        closeParen
        emit m (.call forms)
        accessRest m inner) rest s := by
  show accessTail m inner (.mark .openParen :: rest) (.mark .openParen :: rest) s = _
  rw [accessTail_call]
  refine bind_congr_right fun _ mid s₁ hargs => bind_congr_right fun _ mid' s₂ hclose =>
    bind_congr_right fun _ mid'' s₃ hemit => ?_
  obtain ⟨used, _, _, rfl, _, hends'⟩ :=
    arguments_reads hinner _ (hends.tail (by simp)) _ _ _ _ hargs
  obtain ⟨rfl, rfl⟩ := closeParen_ok hclose
  obtain ⟨rfl, _⟩ := emit_ok hemit
  refine accessTail_turns hinner _ _ (hends'.tail (by simp)) ?_ (Nat.le_refl _)
  simp only [List.length_append, List.length_cons]
  omega

theorem accessRest_stop (hends : Ends tokens) (h : AfterAccess tokens) :
    accessRest m inner tokens s = (.ok ((), tokens), s) := by
  match tokens with
  | [] => cases hends
  | t :: rest => exact accessTail_stop t rest h

/-! ## productions on yields -/

/-- the reader hands on the operations of the expressions with fewer levels -/
def Completes (m : Machine σ) (inner : Parse σ Unit) (n : Nat) : Prop :=
  ∀ e : Expr, e.nesting < n → ∀ rest s, Ends rest → AfterExpr rest →
    inner (e.yield ++ rest) s = emitAll m e.ops rest s

theorem elements_yield (hc : Completes m inner n) (hends : Ends rest) (e : Expr) (es : List Expr) :
    ∀ (turns : List Token) (s : σ), es.length < turns.length →
      (∀ x ∈ e :: es, x.nesting < n) →
      elements inner turns (Expr.yields (e :: es) ++ .mark .closeBracket :: rest) s =
        (do emitAll m (Expr.listOps (e :: es)); pure (es.length + 1)) rest s := by
  induction es generalizing e with
  | nil =>
    intro turns s hturns hn
    obtain ⟨turn, turns, rfl⟩ := List.exists_cons_of_length_pos hturns
    have hread := hc e (hn e List.mem_cons_self) (.mark .closeBracket :: rest) s hends.cons
      (afterExpr_closeBracket rest)
    simp only [Expr.yields, Expr.moreYields, Expr.listOps, List.append_nil]
    rw [elements, bind_congr_left _ hread]
    refine emitAll_bind fun s => ?_
    rw [bind_eq, eat_mark]
    rfl
  | cons e' es ih =>
    intro turns s hturns hn
    obtain ⟨turn, turns, rfl⟩ := List.exists_cons_of_length_pos (Nat.zero_lt_of_lt hturns)
    obtain ⟨he, hes⟩ := List.forall_mem_cons.mp hn
    have hends' : Ends (Expr.yields (e' :: es) ++ .mark .closeBracket :: rest) :=
      hends.cons.append _
    have hread := hc e he (.mark .comma :: (Expr.yields (e' :: es) ++ .mark .closeBracket :: rest))
      s hends'.cons (afterExpr_comma _)
    have htokens : Expr.yields (e :: e' :: es) ++ .mark .closeBracket :: rest = e.yield ++
        .mark .comma :: (Expr.yields (e' :: es) ++ .mark .closeBracket :: rest) := by
      simp [Expr.yields, Expr.moreYields]
    rw [htokens, elements, bind_congr_left _ hread, Expr.listOps, emitAll_append, bind_assoc]
    refine emitAll_bind fun s => ?_
    have hbracket : eat .closeBracket
        (.mark .comma :: (Expr.yields (e' :: es) ++ .mark .closeBracket :: rest)) s =
          (.ok (false, .mark .comma :: (Expr.yields (e' :: es) ++ .mark .closeBracket :: rest)), s) :=
      eat_of_ne (by simp)
    rw [bind_eq, hbracket]
    simp only [Bool.false_eq_true, if_false]
    rw [bind_eq, eat_mark]
    simp only [if_true]
    rw [bind_congr_left _ (ih e' turns s (Nat.lt_of_succ_lt_succ hturns) hes), bind_assoc]
    rfl

theorem argument_yield (hc : Completes m inner n) (a : Argument) (hn : a.value.nesting < n)
    (hends : Ends rest) (hafter : AfterExpr rest) (hequals : rest.headD .finish ≠ .mark .equals) :
    argument inner (a.yield ++ rest) s = (do emitAll m a.ops; pure a.form) rest s := by
  cases a with
  | positional e =>
    rw [Argument.yield, argument_positional (opens_expr e hequals).unnamed,
      bind_congr_left _ (hc e hn rest s hends hafter)]
    rfl
  | named name e =>
    rw [Argument.yield, List.cons_append, List.cons_append, argument_named,
      bind_congr_left _ (hc e hn rest s hends hafter)]
    rfl

theorem argumentList_yield (hc : Completes m inner n) (hends : Ends rest) (a : Argument)
    (as : List Argument) :
    ∀ (turns : List Token) (s : σ), as.length < turns.length →
      (∀ x ∈ a :: as, x.value.nesting < n) →
      argumentList inner turns (Argument.yields (a :: as) ++ .mark .closeParen :: rest) s =
        (do emitAll m (Argument.listOps (a :: as)); pure ((a :: as).map Argument.form))
          (.mark .closeParen :: rest) s := by
  induction as generalizing a with
  | nil =>
    intro turns s hturns hn
    obtain ⟨turn, turns, rfl⟩ := List.exists_cons_of_length_pos hturns
    have hread := argument_yield (s := s) hc a (hn a List.mem_cons_self) hends.cons
      (afterExpr_closeParen rest) (by simp)
    simp only [Argument.yields, Argument.moreYields, Argument.listOps, List.append_nil]
    rw [argumentList, bind_congr_left _ hread, bind_assoc]
    refine emitAll_bind fun s => ?_
    have hcomma : eat .comma (.mark .closeParen :: rest) s =
        (.ok (false, .mark .closeParen :: rest), s) := eat_of_ne (by simp)
    rw [pure_bind, bind_eq, hcomma]
    rfl
  | cons a' as ih =>
    intro turns s hturns hn
    obtain ⟨turn, turns, rfl⟩ := List.exists_cons_of_length_pos (Nat.zero_lt_of_lt hturns)
    obtain ⟨ha, has⟩ := List.forall_mem_cons.mp hn
    have hends' : Ends (Argument.yields (a' :: as) ++ .mark .closeParen :: rest) :=
      hends.cons.append _
    have hread := argument_yield (s := s) hc a ha hends'.cons (afterExpr_comma _) (by simp)
    have htokens : Argument.yields (a :: a' :: as) ++ .mark .closeParen :: rest = a.yield ++
        .mark .comma :: (Argument.yields (a' :: as) ++ .mark .closeParen :: rest) := by
      simp [Argument.yields, Argument.moreYields]
    rw [htokens, argumentList, bind_congr_left _ hread, Argument.listOps, emitAll_append,
      bind_assoc, bind_assoc]
    refine emitAll_bind fun s => ?_
    rw [pure_bind, bind_eq, eat_mark]
    simp only [if_true]
    rw [bind_congr_left _ (ih a' turns s (Nat.lt_of_succ_lt_succ hturns) has), bind_assoc]
    rfl

theorem arguments_yield (hc : Completes m inner n) (hends : Ends rest) (as : List Argument)
    (hn : ∀ a ∈ as, a.value.nesting < n) :
    arguments inner (Argument.yields as ++ .mark .closeParen :: rest) s =
      (do emitAll m (Argument.listOps as); pure (as.map Argument.form))
        (.mark .closeParen :: rest) s := by
  cases as with
  | nil => rfl
  | cons a as =>
    have hequals : (Argument.moreYields as ++ .mark .closeParen :: rest).headD .finish ≠
        .mark .equals := by
      cases as <;> simp [Argument.moreYields]
    have hopens : (Argument.yields (a :: as) ++ .mark .closeParen :: rest).headD .finish ≠
        .mark .closeParen := by
      rw [Argument.yields, List.append_assoc]
      cases a with
      | positional e => exact (opens_expr e hequals).paren
      | named name e => simp [Argument.yield]
    have hturns : as.length < (Argument.yields (a :: as) ++ .mark .closeParen :: rest).length := by
      have hle := Argument.length_le_moreYields as
      simp only [Argument.yields, List.length_append, List.length_cons]
      omega
    rw [← argumentList_yield hc hends a as _ s hturns hn, arguments, bind_eq]
    simp only [peek]
    rfl

theorem vector_yield (hc : Completes m inner n) (hends : Ends rest) (es : List Expr)
    (hn : ∀ e ∈ es, e.nesting < n) :
    vector m inner (Expr.yields es ++ .mark .closeBracket :: rest) s =
      emitAll m (Expr.listOps es ++ [.vector es.length]) rest s := by
  cases es with
  | nil =>
    show vector m inner (.mark .closeBracket :: rest) s = emitAll m [.vector 0] rest s
    rw [vector, bind_eq, eat_mark, emitAll_singleton]
    rfl
  | cons e es =>
    have hequals : (Expr.moreYields es ++ .mark .closeBracket :: rest).headD .finish ≠
        .mark .equals := by
      cases es <;> simp [Expr.moreYields]
    have hopens : (Expr.yields (e :: es) ++ .mark .closeBracket :: rest).headD .finish ≠
        .mark .closeBracket := by
      rw [Expr.yields, List.append_assoc]
      exact (opens_expr e hequals).bracket
    have hturns : es.length < (Expr.yields (e :: es) ++ .mark .closeBracket :: rest).length := by
      have hle := Expr.length_le_moreYields es
      simp only [Expr.yields, List.length_append, List.length_cons]
      omega
    rw [vector, bind_eq, eat_of_ne hopens]
    simp only [Bool.false_eq_true, if_false]
    show (elements inner (Expr.yields (e :: es) ++ .mark .closeBracket :: rest) >>= _) _ s = _
    rw [bind_congr_left _ (elements_yield hc hends e es _ s hturns hn), bind_assoc, pure_bind,
      emitAll_append, emitAll_singleton]
    rfl

theorem primary_yield (hc : Completes m inner n) (p : Primary) (hn : p.nesting ≤ n)
    (hends : Ends rest) : primary m inner (p.yield ++ rest) s = emitAll m p.ops rest s := by
  cases p with
  | parens e =>
    have htokens : (Primary.parens e).yield ++ rest =
        .mark .openParen :: (e.yield ++ .mark .closeParen :: rest) := by simp [Primary.yield]
    rw [htokens]
    show (do inner; closeParen) (e.yield ++ Token.mark .closeParen :: rest) s = _
    rw [bind_congr_left _ (hc e hn _ s hends.cons (afterExpr_closeParen rest)), Primary.ops]
    exact emitAll_bind_done fun s => closeParen_mark
  | vector es =>
    have htokens : (Primary.vector es).yield ++ rest =
        .mark .openBracket :: (Expr.yields es ++ .mark .closeBracket :: rest) := by
      simp [Primary.yield]
    rw [htokens, Primary.ops]
    exact vector_yield hc hends es (Expr.listNesting_le.mp hn)
  | number digits => rw [Primary.ops, emitAll_singleton]; rfl
  | string text => rw [Primary.ops, emitAll_singleton]; rfl
  | input => rw [Primary.ops, emitAll_singleton]; rfl
  | name text => rw [Primary.ops, emitAll_singleton]; rfl

/-- an access reads its tree and goes on -/
theorem access_yield (hinner : Reads m inner (Inner n)) (hc : Completes m inner n) :
    ∀ (a : Access) (rest : List Token) (s : σ), a.nesting ≤ n → Ends rest →
      access m inner (a.yield ++ rest) s =
        (do emitAll m a.ops; accessRest m inner) rest s
  | .primary p, rest, s, hn, hends => by
    rw [access_eq, Access.yield, Access.ops, bind_congr_left _ (primary_yield hc p hn hends)]
  | .member of name, rest, s, hn, hends => by
    have hends' : Ends (.mark .dot :: .name name :: rest) := hends.cons.cons
    rw [Access.yield, List.append_assoc, Access.ops, emitAll_append, bind_assoc]
    show access m inner (of.yield ++ .mark .dot :: .name name :: rest) s = _
    rw [access_yield hinner hc of _ s hn hends']
    refine emitAll_bind fun s => ?_
    rw [accessRest_dot hinner hends', emitAll_singleton]
    exact bind_congr_left _ (memberName_name name)
  | .call callee arguments, rest, s, hn, hends => by
    obtain ⟨hcallee, harguments⟩ := Nat.max_le.mp hn
    have hends' : Ends (.mark .openParen :: (Argument.yields arguments ++
        .mark .closeParen :: rest)) := (hends.cons.append _).cons
    have htokens : (Access.call callee arguments).yield ++ rest = callee.yield ++
        .mark .openParen :: (Argument.yields arguments ++ .mark .closeParen :: rest) := by
      simp [Access.yield]
    rw [htokens, access_yield hinner hc callee _ s hcallee hends', Access.ops, emitAll_append,
      emitAll_append, bind_assoc, bind_assoc]
    refine emitAll_bind fun s => ?_
    rw [accessRest_call hinner hends', bind_congr_left _ (arguments_yield hc hends arguments
      (Argument.listNesting_le.mp harguments)), bind_assoc]
    refine emitAll_bind fun s => ?_
    rw [pure_bind, bind_eq, closeParen_mark, emitAll_singleton]

theorem access_yield_whole (hinner : Reads m inner (Inner n)) (hc : Completes m inner n)
    (a : Access) (hn : a.nesting ≤ n) (hends : Ends rest) (hafter : AfterAccess rest) :
    access m inner (a.yield ++ rest) s = emitAll m a.ops rest s := by
  rw [access_yield hinner hc a rest s hn hends]
  exact emitAll_bind_done fun s => accessRest_stop hends hafter

/-- a product reads its tree and goes on -/
theorem product_yield (hinner : Reads m inner (Inner n)) (hc : Completes m inner n) :
    ∀ (p : Product) (rest : List Token) (s : σ), p.nesting ≤ n → Ends rest → AfterAccess rest →
      product m inner (p.yield ++ rest) s =
        (do emitAll m p.ops; chainRest m productSign? (access m inner)) rest s
  | .access a, rest, s, hn, hends, hafter => by
    rw [product, chain_eq, Product.yield, Product.ops,
      bind_congr_left _ (access_yield_whole hinner hc a hn hends hafter)]
  | .join left sign right, rest, s, hn, hends, hafter => by
    obtain ⟨hleft, hright⟩ := Nat.max_le.mp hn
    have hends' : Ends (sign.token :: (right.yield ++ rest)) := (hends.append _).cons
    rw [Product.yield, List.append_assoc, List.cons_append,
      product_yield hinner hc left _ s hleft hends' (afterAccess_sign sign _), Product.ops,
      emitAll_append, emitAll_append, bind_assoc, bind_assoc]
    refine emitAll_bind fun s => ?_
    rw [chainRest_sign (access_reads hinner) rfl (productSign?_token sign) hends',
      bind_congr_left _ (access_yield_whole hinner hc right hright hends hafter),
      emitAll_singleton]

theorem product_yield_whole (hinner : Reads m inner (Inner n)) (hc : Completes m inner n)
    (p : Product) (hn : p.nesting ≤ n) (hends : Ends rest) (hafter : AfterProduct rest) :
    product m inner (p.yield ++ rest) s = emitAll m p.ops rest s := by
  rw [product_yield hinner hc p rest s hn hends hafter.toAfterAccess]
  exact emitAll_bind_done fun s => chainRest_stop hends hafter.productSign

/-- a sum reads its tree and goes on -/
theorem sum_yield (hinner : Reads m inner (Inner n)) (hc : Completes m inner n) :
    ∀ (e : Expr) (rest : List Token) (s : σ), e.nesting ≤ n → Ends rest → AfterProduct rest →
      sum m inner (e.yield ++ rest) s =
        (do emitAll m e.ops; chainRest m sumSign? (product m inner)) rest s
  | .product p, rest, s, hn, hends, hafter => by
    rw [sum, chain_eq, Expr.yield, Expr.ops,
      bind_congr_left _ (product_yield_whole hinner hc p hn hends hafter)]
  | .join left sign right, rest, s, hn, hends, hafter => by
    obtain ⟨hleft, hright⟩ := Nat.max_le.mp hn
    have hends' : Ends (sign.token :: (right.yield ++ rest)) := (hends.append _).cons
    rw [Expr.yield, List.append_assoc, List.cons_append,
      sum_yield hinner hc left _ s hleft hends' (afterProduct_sign sign _), Expr.ops,
      emitAll_append, emitAll_append, bind_assoc, bind_assoc]
    refine emitAll_bind fun s => ?_
    rw [chainRest_sign (product_reads hinner) rfl (sumSign?_token sign) hends',
      bind_congr_left _ (product_yield_whole hinner hc right hright hends hafter),
      emitAll_singleton]

/-- **What has a tree of so many levels is read as an expression of so many levels.** -/
theorem expression_yield (m : Machine σ) (levels : Nat) :
    Completes m (expression m levels) levels := by
  induction levels with
  | zero => exact fun e h => absurd h (Nat.not_lt_zero _)
  | succ levels ih =>
    intro e hn rest s hends hafter
    show sum m (expression m levels) (e.yield ++ rest) s = _
    rw [sum_yield (expression_reads m levels) ih e rest s (Nat.le_of_lt_succ hn) hends
      hafter.toAfterProduct]
    exact emitAll_bind_done fun s => chainRest_stop hends hafter.sumSign

end

end Expression

end Dataflow
