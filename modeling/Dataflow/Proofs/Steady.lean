import Dataflow.Proofs.Filling
import Dataflow.Proofs.Replay

/-!
# Which `$` an operation reads

An operation that asks for an input does not say where in the text its `$` stands.  This is told by
an empty string literal in place of a `$`: the operation that now puts the literal on the stack is
the one that reads this `$` (`Statement.ReadBy`).

A reading step is STEADY when it goes the same way on tokens with filled holes: it passes over the
same tokens, and of the operations that it hands on those that ask for an input are filled as their
tokens are.

* `Parse.Follows`, `Parse.Steady`   a step that does on filled tokens what another one does, and one
                                    that does so itself;
* `Expression.steady_expression`, `Statement.steady_read`   the grammar is steady;
* `Statement.operations_fill`       the operations of a text are filled as the text is;
* `Statement.readBy_iff`            the `$` of a text are read from left to right.
-/

namespace Dataflow

/-! ## steps -/

namespace Parse

variable {α β γ δ : Type}

/-- how a step ends on tokens with so many `$` in them, and on the same tokens with marked ones
filled: it has handed on some operations, and the filled ones in the other run -/
inductive Answers (R : α → β → Prop) (marked : Nat → Bool) (dollars : Nat) (ops done done' : List Op) :
    Except Fault (α × List Token) × List Op → Except Fault (β × List Token) × List Op → Prop
  | ok {a : α} {b : β} {rest : List Token} (hab : R a b)
    (hcount : ops.count .input + rest.count (.mark .dollar) = dollars) :
    Answers R marked dollars ops done done' (.ok (a, rest), done ++ ops)
      (.ok (b, Token.fill (shift (ops.count .input) marked) rest), done' ++ Op.fill marked ops)
  | error {f g : Fault} (hcount : ops.count .input ≤ dollars) :
    Answers R marked dollars ops done done' (.error f, done ++ ops)
      (.error g, done' ++ Op.fill marked ops)

/-- the second step does on tokens with filled holes what the first does on the tokens -/
def FollowsOn (R : α → β → Prop) (p : Parse (List Op) α) (q : Parse (List Op) β)
    (tokens : List Token) : Prop :=
  ∀ marked done done', ∃ ops, Answers R marked (tokens.count (.mark .dollar)) ops done done'
    (p tokens done) (q (Token.fill marked tokens) done')

def Follows (R : α → β → Prop) (p : Parse (List Op) α) (q : Parse (List Op) β) : Prop :=
  ∀ tokens, FollowsOn R p q tokens

section
variable {R : α → β → Prop} {S : γ → δ → Prop} {p : Parse (List Op) α} {q : Parse (List Op) β}
  {f : α → Parse (List Op) γ} {g : β → Parse (List Op) δ} {tokens : List Token}

/-- a step that hands nothing on -/
theorem Answers.silent {marked : Nat → Bool} {dollars : Nat} {done done' : List Op} {a : α} {b : β}
    {rest : List Token} (hab : R a b) (hcount : rest.count (.mark .dollar) = dollars) :
    ∃ ops, Answers R marked dollars ops done done' (.ok (a, rest), done)
      (.ok (b, Token.fill marked rest), done') := by
  have hok : Answers R marked dollars [] done done' (.ok (a, rest), done ++ [])
      (.ok (b, Token.fill (shift (List.count Op.input []) marked) rest), done' ++ Op.fill marked []) :=
    .ok hab ((Nat.zero_add _).trans hcount)
  rw [List.count_nil, shift_zero, Op.fill_nil, List.append_nil, List.append_nil] at hok
  exact ⟨[], hok⟩

theorem follows_pure {a : α} {b : β} (h : R a b) : Follows R (pure a) (pure b) :=
  fun _ _ _ _ => Answers.silent h rfl

theorem follows_fail (f g : Fault) : Follows R (fail f) (fail g) := by
  intro tokens marked done done'
  have herror : Answers R marked (tokens.count (.mark .dollar)) [] done done'
      (.error f, done ++ []) (.error g, done' ++ Op.fill marked []) := .error (Nat.zero_le _)
  rw [Op.fill_nil, List.append_nil, List.append_nil] at herror
  exact ⟨[], herror⟩

theorem FollowsOn.bind (hp : FollowsOn R p q tokens)
    (hnext : ∀ a b, R a b → Follows S (f a) (g b)) : FollowsOn S (p >>= f) (q >>= g) tokens := by
  intro marked done done'
  obtain ⟨ops, hops⟩ := hp marked done done'
  rw [bind_eq, bind_eq]
  generalize p tokens done = x at hops ⊢
  generalize q (Token.fill marked tokens) done' = y at hops ⊢
  cases hops with
  | error hcount => exact ⟨ops, .error hcount⟩
  | @ok a b rest hab hcount =>
    obtain ⟨more, hmore⟩ := hnext a b hab rest (shift (ops.count .input) marked) (done ++ ops)
      (done' ++ Op.fill marked ops)
    refine ⟨ops ++ more, ?_⟩
    dsimp only
    generalize f a rest (done ++ ops) = x at hmore ⊢
    generalize g b _ _ = y at hmore ⊢
    cases hmore with
    | error hcount' =>
      rw [List.append_assoc, List.append_assoc, ← Op.fill_append]
      refine .error ?_
      rw [List.count_append]
      omega
    | ok hcd hcount' =>
      rw [List.append_assoc, List.append_assoc, ← Op.fill_append, shift_shift, ← List.count_append]
      refine .ok hcd ?_
      rw [List.count_append]
      omega

theorem Follows.bind (hp : Follows R p q) (hnext : ∀ a b, R a b → Follows S (f a) (g b)) :
    Follows S (p >>= f) (q >>= g) := fun tokens => (hp tokens).bind hnext

end

/-- a step that goes the same way on tokens with filled holes -/
def Steady (p : Parse (List Op) α) : Prop := Follows Eq p p

theorem Steady.bind {p : Parse (List Op) α} {f g : α → Parse (List Op) γ} {S : γ → γ → Prop}
    (hp : Steady p) (hnext : ∀ a, Follows S (f a) (g a)) : Follows S (p >>= f) (p >>= g) :=
  Follows.bind hp fun a _ hab => hab ▸ hnext a

theorem steady_pure (a : α) : Steady (pure a) := follows_pure rfl

theorem steady_fail (fault : Fault) : Steady (fail fault : Parse (List Op) α) :=
  follows_fail fault fault

theorem steady_emit {op : Op} (h : op ≠ .input) : Steady (emit .recording op) := by
  intro tokens marked done done'
  have hnone : [op].count .input = 0 := List.count_eq_zero.mpr (by simpa using Ne.symm h)
  have hok : Answers Eq marked (tokens.count (.mark .dollar)) [op] done done'
      (.ok ((), tokens), done ++ [op])
      (.ok ((), Token.fill (shift ([op].count .input) marked) tokens), done' ++ Op.fill marked [op]) :=
    .ok rfl (by rw [hnone, Nat.zero_add])
  rw [hnone, shift_zero, Op.fill_singleton h] at hok
  exact ⟨[op], hok⟩

/-- the one step that passes over a `$` -/
theorem answers_input {marked : Nat → Bool} {done done' : List Op} (rest : List Token) :
    ∃ ops, Answers Eq marked ((Token.mark .dollar :: rest).count (.mark .dollar)) ops done done'
      (.ok ((), rest), done ++ [.input])
      (.ok ((), Token.fill (shift 1 marked) rest),
        done' ++ [if marked 0 then .string "" else .input]) := by
  have hok : Answers Eq marked ((Token.mark .dollar :: rest).count (.mark .dollar)) [.input] done done'
      (.ok ((), rest), done ++ [.input])
      (.ok ((), Token.fill (shift 1 marked) rest), done' ++ Op.fill marked [.input]) :=
    .ok rfl (by rw [List.count_singleton_self, List.count_cons_self, Nat.add_comm])
  rw [Op.fill_input] at hok
  exact ⟨[.input], hok⟩

/-! ### steps that look at tokens -/

/-- a token, or what a hole is filled with -/
def Looks (t u : Token) : Prop := u = t ∨ t = .mark .dollar ∧ u = .string ""

theorem Looks.eq {t u : Token} (h : Looks t u) (ht : t ≠ .mark .dollar) : u = t :=
  h.resolve_right fun hdollar => ht hdollar.1

theorem Looks.eq_of_ne {t u : Token} (h : Looks t u) (hu : u ≠ .string "") : u = t :=
  h.resolve_right fun hdollar => hu hdollar.2

theorem looks_fill {marked : Nat → Bool} (tokens : List Token) :
    List.Forall₂ Looks tokens (Token.fill marked tokens) := by
  induction tokens generalizing marked with
  | nil => exact .nil
  | cons t rest ih =>
    by_cases ht : t = .mark .dollar
    · subst ht
      rw [Token.fill_dollar]
      refine .cons ?_ ih
      cases marked 0
      · exact .inl rfl
      · exact .inr ⟨rfl, rfl⟩
    · rw [Token.fill_cons ht]
      exact .cons (.inl rfl) ih

theorem looks_headD {tokens tokens' : List Token} (h : List.Forall₂ Looks tokens tokens') :
    Looks (tokens.headD .finish) (tokens'.headD .finish) := by
  cases h with
  | nil => exact .inl rfl
  | cons ht _ => exact ht

theorem looks_tail {tokens tokens' : List Token} (h : List.Forall₂ Looks tokens tokens') :
    List.Forall₂ Looks tokens.tail tokens'.tail := by
  cases h with
  | nil => exact .nil
  | cons _ hrest => exact hrest

section
variable {S : γ → δ → Prop} {f : Token → Parse (List Op) γ} {g : Token → Parse (List Op) δ}
  {tokens rest : List Token}

theorem FollowsOn.peek (h : ∀ u, Looks (tokens.headD .finish) u →
    FollowsOn S (f (tokens.headD .finish)) (g u) tokens) :
    FollowsOn S (peek >>= f) (peek >>= g) tokens :=
  fun marked => h _ (looks_headD (looks_fill tokens)) marked

theorem FollowsOn.peekSecond (h : ∀ u, Looks (tokens.tail.headD .finish) u →
    FollowsOn S (f (tokens.tail.headD .finish)) (g u) tokens) :
    FollowsOn S (peekSecond >>= f) (peekSecond >>= g) tokens :=
  fun marked => h _ (looks_headD (looks_tail (looks_fill tokens))) marked

theorem FollowsOn.bump {t : Token} (ht : t ≠ .finish) (hdollar : t ≠ .mark .dollar)
    (h : FollowsOn S (f t) (g t) rest) :
    FollowsOn S (Parse.bump >>= f) (Parse.bump >>= g) (t :: rest) := by
  intro marked done done'
  rw [List.count_cons_of_ne hdollar, Token.fill_cons hdollar, bind_eq, bind_eq, bump_of_ne ht,
    bump_of_ne ht]
  exact h marked done done'

theorem FollowsOn.bump_finish (h : FollowsOn S (f .finish) (g .finish) (.finish :: rest)) :
    FollowsOn S (Parse.bump >>= f) (Parse.bump >>= g) (.finish :: rest) := by
  intro marked done done'
  have hne : Token.finish ≠ .mark .dollar := nofun
  have hrest := h marked done done'
  rw [Token.fill_cons hne] at hrest ⊢
  exact hrest

end

theorem eq_cons {tokens : List Token} {t : Token} (h : tokens.headD .finish = t) (ht : t ≠ .finish) :
    ∃ rest, tokens = t :: rest := by
  cases tokens with
  | nil => exact absurd h.symm ht
  | cons u rest => exact ⟨rest, congrArg (· :: rest) h⟩

/-- two tokens ahead, neither of them the end -/
theorem eq_cons_cons {tokens : List Token} {t u : Token} (ht : tokens.headD .finish = t)
    (hu : tokens.tail.headD .finish = u) (ht' : t ≠ .finish) (hu' : u ≠ .finish) :
    ∃ rest, tokens = t :: u :: rest := by
  match tokens, ht, hu with
  | [], ht, _ => exact absurd ht.symm ht'
  | [_], _, hu => exact absurd hu.symm hu'
  | _ :: _ :: rest, rfl, rfl => exact ⟨rest, rfl⟩

theorem follows_ahead : Follows (List.Forall₂ Looks) ahead ahead :=
  fun tokens _ _ _ => Answers.silent (looks_fill tokens) rfl

theorem steady_eat {m : Mark} (h : m ≠ .dollar) : Steady (eat m) := by
  intro tokens marked done done'
  have hm : Token.mark m ≠ .mark .dollar := fun heq => h (Token.mark.inj heq)
  by_cases hhead : tokens.headD .finish = .mark m
  · cases tokens with
    | nil => cases hhead
    | cons t rest =>
      obtain rfl : t = .mark m := hhead
      rw [Token.fill_cons hm, eat_mark, eat_mark]
      exact Answers.silent rfl (List.count_cons_of_ne hm).symm
  · have hhead' : (Token.fill marked tokens).headD .finish ≠ .mark m := by
      rcases looks_headD (looks_fill tokens) with heq | ⟨-, heq⟩
      · rwa [heq]
      · rw [heq]
        exact nofun
    rw [eat_of_ne hhead, eat_of_ne hhead']
    exact Answers.silent rfl rfl

theorem steady_closeParen : Steady closeParen := by
  refine (steady_eat (by decide)).bind fun found => ?_
  cases found
  · exact steady_fail _
  · exact steady_pure ()

theorem steady_finish : Steady finish := by
  intro tokens
  refine .peek fun u hu => ?_
  by_cases hhead : tokens.headD .finish = .finish
  · rw [hhead] at hu ⊢
    obtain rfl := hu.eq nofun
    exact steady_pure () tokens
  · have hu' : u ≠ .finish := by
      rcases hu with rfl | ⟨-, rfl⟩
      · exact hhead
      · exact nofun
    generalize tokens.headD .finish = t at hhead
    cases t with
    | finish => exact absurd rfl hhead
    | _ =>
      cases u with
      | finish => exact absurd rfl hu'
      | _ => exact follows_fail _ _ tokens

end Parse

/-! ## the grammar -/

namespace Expression

open Parse

variable {inner operand : Parse (List Op) Unit} {sign? : Token → Option Sign}

/-- the signs of a precedence are marks, and the `$` is none of them -/
def SignMarks (sign? : Token → Option Sign) : Prop :=
  ∀ t, t = .mark .dollar ∨ (∀ m, t ≠ .mark m) → sign? t = none

theorem signMarks_sumSign : SignMarks sumSign? := by
  rintro t (rfl | ht)
  · rfl
  · unfold sumSign?
    split
    · exact absurd rfl (ht _)
    · exact absurd rfl (ht _)
    · rfl

theorem signMarks_productSign : SignMarks productSign? := by
  rintro t (rfl | ht)
  · rfl
  · unfold productSign?
    split
    · exact absurd rfl (ht _)
    · exact absurd rfl (ht _)
    · rfl

theorem SignMarks.looks (h : SignMarks sign?) {t u : Token} (hu : Looks t u) :
    sign? u = sign? t := by
  rcases hu with rfl | ⟨rfl, rfl⟩
  · rfl
  · have hdollar := h (.mark .dollar) (.inl rfl)
    have hstring := h (.string "") (.inr fun _ => nofun)
    rw [hdollar, hstring]

theorem SignMarks.of_some (h : SignMarks sign?) {tokens : List Token} {sign : Sign}
    (hsign : sign? (tokens.headD .finish) = some sign) :
    ∃ m rest, tokens = .mark m :: rest ∧ m ≠ .dollar := by
  have hmark : ¬ (tokens.headD .finish = .mark .dollar ∨ ∀ m, tokens.headD .finish ≠ .mark m) :=
    fun hnone => by
      rw [h _ hnone] at hsign
      cases hsign
  obtain ⟨hdollar, hnot⟩ := not_or.mp hmark
  obtain ⟨m, hm⟩ := not_forall_not.mp hnot
  cases tokens with
  | nil => cases hm
  | cons t rest =>
    obtain rfl : t = .mark m := hm
    exact ⟨m, rest, rfl, fun heq => hdollar (congrArg Token.mark heq)⟩

theorem follows_chainTail (hs : SignMarks sign?) (hoperand : Steady operand)
    {turns turns' : List Token} (h : List.Forall₂ Looks turns turns') :
    Follows Eq (chainTail .recording sign? operand turns)
      (chainTail .recording sign? operand turns') := by
  induction h with
  | nil => exact steady_pure ()
  | cons _ _ hlater =>
    intro tokens
    refine .peek fun u hu => ?_
    have hlooks := hs.looks hu
    cases hsign : sign? (tokens.headD .finish) with
    | none =>
      simp only [hlooks, hsign]
      exact steady_pure () tokens
    | some sign =>
      obtain ⟨m, rest, rfl, hm⟩ := hs.of_some hsign
      simp only [hlooks, hsign]
      refine .bump (by simp) (fun heq => hm (Token.mark.inj heq)) ?_
      have hemit : Steady (emit .recording (.binary sign)) := steady_emit (by simp)
      have hturn : Follows Eq _ _ := hoperand.bind fun _ => hemit.bind fun _ => hlater
      exact hturn rest

theorem steady_chain (hs : SignMarks sign?) (hoperand : Steady operand) :
    Steady (chain .recording sign? operand) :=
  hoperand.bind fun _ => follows_ahead.bind fun _ _ h => follows_chainTail hs hoperand h

theorem steady_memberName : Steady (memberName .recording) := by
  intro tokens
  cases tokens with
  | nil => exact fun marked => follows_fail _ _ [] marked
  | cons t rest =>
    by_cases ht : t = .mark .dollar
    · subst ht
      intro marked done done'
      rw [Token.fill_dollar]
      cases marked 0
      · exact follows_fail _ _ (.mark .dollar :: rest) marked done done'
      · exact follows_fail _ _ (.mark .dollar :: rest) marked done done'
    · cases t with
      | finish => exact FollowsOn.bump_finish (steady_fail .unexpectedEnd (.finish :: rest))
      | name name =>
        have hemit : Steady (emit .recording (.member name)) := steady_emit (by simp)
        exact .bump (by simp) ht (hemit rest)
      | _ => exact .bump (by simp) ht (steady_fail _ rest)

theorem steady_argument (hinner : Steady inner) : Steady (argument inner) := by
  intro tokens
  refine .peek fun u hu => ?_
  refine .peekSecond fun u' hu' => ?_
  have hplain : Steady (do inner; pure ArgumentForm.positional) := hinner.bind fun _ => steady_pure _
  have hnamed : ∀ name, Steady (do inner; pure (ArgumentForm.named name)) := fun name =>
    hinner.bind fun _ => steady_pure _
  split
  · next name hhead hsecond =>
    obtain ⟨rest, rfl⟩ := eq_cons_cons hhead hsecond (by simp) (by simp)
    obtain rfl := hu.eq (by simp)
    obtain rfl := hu'.eq (by simp)
    exact .bump (by simp) (by simp) (.bump (by simp) (by simp) (hnamed name rest))
  · next hnot =>
    split
    · next name =>
      exact absurd (hu'.eq_of_ne (by simp)).symm (hnot name (hu.eq_of_ne (by simp)).symm)
    · exact hplain tokens

theorem follows_argumentList (hinner : Steady inner) {turns turns' : List Token}
    (h : List.Forall₂ Looks turns turns') :
    Follows Eq (argumentList inner turns) (argumentList inner turns') := by
  induction h with
  | nil => exact steady_pure []
  | cons _ _ hlater =>
    refine (steady_argument hinner).bind fun form => (steady_eat (by decide)).bind fun found => ?_
    cases found with
    | true => exact Follows.bind hlater fun forms _ heq => heq ▸ steady_pure _
    | false => exact steady_pure [form]

theorem steady_arguments (hinner : Steady inner) : Steady (arguments inner) := by
  intro tokens
  refine .peek fun u hu => ?_
  have hlist : Steady (do argumentList inner (← ahead)) :=
    follows_ahead.bind fun _ _ h => follows_argumentList hinner h
  split
  · next hhead =>
    obtain rfl := hu.eq (by rw [hhead]; simp)
    rw [hhead]
    exact steady_pure [] tokens
  · next hnot =>
    split
    · exact absurd (hu.eq_of_ne (by simp)).symm hnot
    · exact hlist tokens

theorem follows_accessTail (hinner : Steady inner) {turns turns' : List Token}
    (h : List.Forall₂ Looks turns turns') :
    Follows Eq (accessTail .recording inner turns) (accessTail .recording inner turns') := by
  induction h with
  | nil => exact steady_pure ()
  | cons _ _ hlater =>
    refine (steady_eat (by decide)).bind fun dot => ?_
    cases dot with
    | true => exact steady_memberName.bind fun _ => hlater
    | false =>
      refine (steady_eat (by decide)).bind fun paren => ?_
      cases paren with
      | true =>
        have hemit : ∀ forms, Steady (emit .recording (.call forms)) := fun forms =>
          steady_emit (by simp)
        exact (steady_arguments hinner).bind fun forms => steady_closeParen.bind fun _ =>
          (hemit forms).bind fun _ => hlater
      | false => exact steady_pure ()

theorem follows_elements (hinner : Steady inner) {turns turns' : List Token}
    (h : List.Forall₂ Looks turns turns') :
    Follows Eq (elements inner turns) (elements inner turns') := by
  induction h with
  | nil => exact steady_pure 0
  | cons _ _ hlater =>
    refine hinner.bind fun _ => (steady_eat (by decide)).bind fun closed => ?_
    cases closed with
    | true => exact steady_pure 1
    | false =>
      refine (steady_eat (by decide)).bind fun comma => ?_
      cases comma with
      | true => exact Follows.bind hlater fun more _ heq => heq ▸ steady_pure _
      | false => exact steady_fail _

theorem steady_vector (hinner : Steady inner) : Steady (vector .recording inner) := by
  refine (steady_eat (by decide)).bind fun closed => ?_
  cases closed with
  | true => exact steady_emit (by simp)
  | false =>
    exact follows_ahead.bind fun _ _ h => Follows.bind (follows_elements hinner h)
      fun length _ heq => heq ▸ steady_emit (by simp)

/-- a `$` is passed over where its operation is handed on -/
theorem steady_primary (hinner : Steady inner) : Steady (primary .recording inner) := by
  intro tokens
  cases tokens with
  | nil => exact fun marked => follows_fail _ _ [] marked
  | cons t rest =>
    by_cases ht : t = .mark .dollar
    · subst ht
      intro marked done done'
      have hinput : ∃ ops, Answers Eq marked _ ops done done' _ _ := answers_input rest
      rw [Token.fill_dollar]
      cases hmark : marked 0 with
      | true =>
        rw [hmark] at hinput
        exact hinput
      | false =>
        rw [hmark] at hinput
        exact hinput
    · have hemit : ∀ op, op ≠ .input → FollowsOn Eq (emit .recording op) (emit .recording op) rest :=
        fun op hop => steady_emit hop rest
      cases t with
      | number digits => exact .bump (by simp) ht (hemit (.number digits) (by simp))
      | string text => exact .bump (by simp) ht (hemit (.string text) (by simp))
      | name text => exact .bump (by simp) ht (hemit (.name text) (by simp))
      | finish => exact FollowsOn.bump_finish (steady_fail .unexpectedEnd (.finish :: rest))
      | mark m =>
        refine .bump (by simp) ht ?_
        cases m with
        | openParen => exact (hinner.bind fun _ => steady_closeParen : Steady _) rest
        | dollar => exact absurd rfl ht
        | openBracket => exact steady_vector hinner rest
        | _ => exact steady_fail _ rest

theorem steady_access (hinner : Steady inner) : Steady (access .recording inner) :=
  (steady_primary hinner).bind fun _ => follows_ahead.bind fun _ _ h => follows_accessTail hinner h

theorem steady_sum (hinner : Steady inner) : Steady (sum .recording inner) :=
  steady_chain signMarks_sumSign (steady_chain signMarks_productSign (steady_access hinner))

theorem steady_expression (levels : Nat) : Steady (expression .recording levels) := by
  induction levels with
  | zero => exact steady_fail _
  | succ levels ih => exact steady_sum ih

end Expression

namespace Statement

open Parse

theorem steady_readForm : Steady readForm := by
  intro tokens
  refine .peek fun u hu => ?_
  refine .peekSecond fun u' hu' => ?_
  split
  · next hhead hsecond =>
    obtain ⟨rest, rfl⟩ := eq_cons_cons hhead hsecond (by simp) (by simp)
    obtain rfl := hu.eq (by simp)
    obtain rfl := hu'.eq (by simp)
    exact .bump (by simp) (by simp) (.bump (by simp) (by simp) (steady_pure _ rest))
  · next _ hhead =>
    obtain ⟨rest, rfl⟩ := eq_cons hhead (by simp)
    obtain rfl := hu.eq (by simp)
    exact .bump (by simp) (by simp) (steady_pure _ rest)
  · next name hreturn hhead hsecond =>
    obtain ⟨rest, rfl⟩ := eq_cons_cons hhead hsecond (by simp) (by simp)
    obtain rfl := hu.eq (by simp)
    obtain rfl := hu'.eq (by simp)
    have hassign : FollowsOn Eq (do let _ ← bump; let _ ← bump; pure (Form.assignment name))
        (do let _ ← bump; let _ ← bump; pure (Form.assignment name))
        (.name name :: .mark .equals :: rest) :=
      .bump (by simp) (by simp) (.bump (by simp) (by simp) (steady_pure _ rest))
    split
    · next h => cases h
    · next h => exact absurd (Token.name.inj h) hreturn
    · next h _ =>
      obtain rfl := Token.name.inj h
      exact hassign
    · next h => exact absurd rfl (h name rfl)
  · next hreturn hshow hequals =>
    split
    · exact absurd (hu'.eq_of_ne (by simp)).symm (hshow (hu.eq_of_ne (by simp)).symm)
    · exact absurd (hu.eq_of_ne (by simp)).symm hreturn
    · next name _ =>
      exact absurd (hu'.eq_of_ne (by simp)).symm (hequals name (hu.eq_of_ne (by simp)).symm)
    · exact steady_pure Form.expression tokens

theorem steady_read : Steady (read .recording) := by
  refine steady_readForm.bind fun form => (Expression.steady_expression _).bind fun _ => ?_
  have hend : Steady (do finish; pure form) := steady_finish.bind fun _ => steady_pure form
  split
  · exact steady_closeParen.bind fun _ => hend
  · exact hend

/-- what a text hands on to a machine, up to where it is not understood -/
def operations (text : String) : List Op := (drive .recording text []).2

theorem operations_of_error {text : String} {fault : Fault} (h : Token.scan text = .error fault) :
    operations text = [] := by
  rw [operations, drive, h]

theorem operations_of_ok {text : String} {tokens : List Token} (h : Token.scan text = .ok tokens) :
    operations text = (read .recording tokens []).2 := by
  rw [operations, drive, h]
  dsimp only
  generalize read .recording tokens [] = out
  obtain ⟨_ | _, _⟩ := out <;> rfl

/-- **The operations of a text change as the text does.** -/
theorem operations_fill {text : List Char} (h : '"' ∉ text) (marked : Nat → Bool) :
    operations (.ofList (Text.fill marked text)) = Op.fill marked (operations (.ofList text)) := by
  have hfilled : Token.scan (.ofList (Text.fill marked text)) =
      (Token.scan (.ofList text)).map (Token.fill marked) := by
    rw [Token.scan, Token.scan, String.toList_ofList, String.toList_ofList]
    exact Token.scanChars_fill h
  cases hscan : Token.scan (.ofList text) with
  | error fault =>
    rw [hscan] at hfilled
    rw [operations_of_error hscan, operations_of_error hfilled]
    rfl
  | ok tokens =>
    rw [hscan] at hfilled
    rw [operations_of_ok hscan, operations_of_ok hfilled]
    obtain ⟨ops, hops⟩ := steady_read tokens marked [] []
    generalize read .recording tokens [] = x at hops ⊢
    generalize read .recording (Token.fill marked tokens) [] = y at hops ⊢
    cases hops with
    | ok _ _ => rfl
    | error _ => rfl

/-- a text has a `$` for every input that it asks for, also where it stands in a literal -/
theorem count_operations_le (text : String) :
    (operations text).count .input ≤ text.toList.count '$' := by
  cases hscan : Token.scan text with
  | error fault =>
    rw [operations_of_error hscan]
    exact Nat.zero_le _
  | ok tokens =>
    have htokens := Token.count_scanChars_le hscan
    obtain ⟨ops, hops⟩ := steady_read tokens (fun _ => false) [] []
    rw [operations_of_ok hscan]
    refine Nat.le_trans ?_ htokens
    generalize read .recording tokens [] = x at hops ⊢
    generalize read .recording _ [] = y at hops
    cases hops with
    | ok _ hcount => exact Nat.le.intro hcount
    | error hcount => exact hcount

/-- which operation reads the `$` between two parts of a text: it asks for an input, and with an
empty literal in place of this `$` it puts the literal on the stack instead -/
def ReadBy (front back : List Char) (index : Nat) : Prop :=
  (operations (.ofList (front ++ '$' :: back)))[index]? = some .input ∧
  (operations (.ofList (front ++ '"' :: '"' :: back)))[index]? = some (.string "")

/-- **Every `$` is read in its turn**: by the operation that has as many others before it that ask
for an input as there are `$` in front of it. -/
theorem readBy_iff {front back : List Char} (h : '"' ∉ front ++ '$' :: back) {index : Nat} :
    ReadBy front back index ↔
      (operations (.ofList (front ++ '$' :: back)))[index]? = some .input ∧
      ((operations (.ofList (front ++ '$' :: back))).take index).count .input = front.count '$' := by
  have hone : Text.fill (· == front.count '$') (front ++ '$' :: back) = front ++ '"' :: '"' :: back :=
    (fill_one front back).trans (List.append_assoc _ _ _)
  have hfilled := operations_fill h (· == front.count '$')
  rw [hone] at hfilled
  rw [ReadBy, hfilled]
  refine and_congr_right fun hinput => ?_
  rw [Op.fill, getElem?_fill, hinput]
  simp

end Statement

end Dataflow
