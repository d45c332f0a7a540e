import Dataflow.Proofs.Reading
import Dataflow.Proofs.Tree

/-!
# What is read has a tree

A production that succeeds has taken the yield of a tree and has handed on the operations of that
tree (`Expression.expression_reads`).

* `Parse.Reads m p L`      whenever `p` succeeds, it takes tokens and hands on operations to `m` that
                           belong together by `L`;
* `Tree.Expr.Spells n` etc.   tokens and operations of a tree of a given nesting.

The loops of a production have read a part of a tree at every turn, so they are about what can be
added to any tree before them (`chainTail_reads`, `accessTail_reads`).
-/

namespace Dataflow

open Parse

namespace Parse

variable {σ α : Type}

/-- if the step succeeds on these tokens, those that it takes and the operations that it hands on
belong to its result -/
def ReadsFrom (m : Machine σ) (p : Parse σ α) (L : α → List Token → List Op → Prop)
    (tokens : List Token) : Prop :=
  ∀ s a rest s', p tokens s = (.ok (a, rest), s') →
    ∃ used ops, L a used ops ∧ tokens = used ++ rest ∧ m.run ops s = (.ok (), s') ∧ Ends rest

/-- the same on all tokens of a statement -/
def Reads (m : Machine σ) (p : Parse σ α) (L : α → List Token → List Op → Prop) : Prop :=
  ∀ tokens, Ends tokens → ReadsFrom m p L tokens

end Parse

namespace Tree

/-- tokens and operations of an expression with less than `n` expressions inside each other -/
def Expr.Spells (n : Nat) (used : List Token) (ops : List Op) : Prop :=
  ∃ t : Expr, t.nesting ≤ n ∧ t.yield = used ∧ t.ops = ops

def Product.Spells (n : Nat) (used : List Token) (ops : List Op) : Prop :=
  ∃ p : Product, p.nesting ≤ n ∧ p.yield = used ∧ p.ops = ops

def Access.Spells (n : Nat) (used : List Token) (ops : List Op) : Prop :=
  ∃ a : Access, a.nesting ≤ n ∧ a.yield = used ∧ a.ops = ops

def Primary.Spells (n : Nat) (used : List Token) (ops : List Op) : Prop :=
  ∃ p : Primary, p.nesting ≤ n ∧ p.yield = used ∧ p.ops = ops

end Tree

namespace Expression

open Dataflow.Tree

variable {σ : Type} {m : Machine σ} {inner operand : Parse σ Unit} {n : Nat}
  {sign? : Token → Option Sign} {tokens rest : List Token} {s : σ}

/-- what an inner reader reads: an expression of fewer levels -/
def Inner (n : Nat) (_ : Unit) (used : List Token) (ops : List Op) : Prop :=
  ∃ t : Expr, t.nesting < n ∧ t.yield = used ∧ t.ops = ops

theorem exists_sumSign {t : Token} {g : Sign} (h : sumSign? t = some g) :
    ∃ sign : SumSign, sign.token = t ∧ sign.sign = g := by
  unfold sumSign? at h
  split at h
  · exact ⟨.plus, rfl, Option.some.inj h⟩
  · exact ⟨.minus, rfl, Option.some.inj h⟩
  · cases h

theorem exists_productSign {t : Token} {g : Sign} (h : productSign? t = some g) :
    ∃ sign : ProductSign, sign.token = t ∧ sign.sign = g := by
  unfold productSign? at h
  split at h
  · exact ⟨.times, rfl, Option.some.inj h⟩
  · exact ⟨.over, rfl, Option.some.inj h⟩
  · cases h

/-! ## chains -/

/-- further operands can be added to whatever stands before them -/
theorem chainTail_reads {L O : List Token → List Op → Prop} (hoperand : Reads m operand fun _ => O)
    (hjoin : ∀ {t sign left ops right ops'}, sign? t = some sign → L left ops → O right ops' →
      L (left ++ t :: right) (ops ++ ops' ++ [.binary sign]))
    (hfinish : sign? .finish = none) (turns : List Token) :
    Reads m (chainTail m sign? operand turns) fun _ used ops =>
      ∀ left done, L left done → L (left ++ used) (done ++ ops) := by
  induction turns with
  | nil =>
    intro tokens hends s _ rest s' h
    obtain ⟨-, rfl, rfl⟩ := pure_ok h
    exact ⟨[], [], fun _ _ hleft => by simpa using hleft, rfl, rfl, hends⟩
  | cons turn turns ih =>
    intro tokens hends s _ rest s' h
    obtain ⟨_, _, _, hpeek, hturn⟩ := bind_ok h
    obtain ⟨rfl, rfl, rfl⟩ := peek_ok hpeek
    cases hsign : sign? (tokens.headD .finish) with
    | none =>
      simp only [hsign] at hturn
      obtain ⟨-, rfl, rfl⟩ := pure_ok hturn
      exact ⟨[], [], fun _ _ hleft => by simpa using hleft, rfl, rfl, hends⟩
    | some sign =>
      simp only [hsign] at hturn
      obtain ⟨t, _, _, hbump, hoperator⟩ := bind_ok hturn
      obtain ⟨rfl, rfl, htokens⟩ := bump_ok hbump
      -- the token ahead has a sign, so it is not the end
      have hne : tokens.headD .finish ≠ .finish := fun heq => by
        rw [heq, hfinish] at hsign
        cases hsign
      have hends₁ := Ends.tail (htokens hne ▸ hends) hne
      obtain ⟨_, _, _, hright, happly⟩ := bind_ok hoperator
      obtain ⟨right, ops, hO, rfl, hrun, hends₂⟩ := hoperand _ hends₁ _ _ _ _ hright
      obtain ⟨_, _, _, hemit, hmore⟩ := bind_ok happly
      obtain ⟨rfl, hrun'⟩ := emit_ok hemit
      obtain ⟨used, more, hL, rfl, hrun'', hends₃⟩ := ih _ hends₂ _ _ _ _ hmore
      refine ⟨tokens.headD .finish :: right ++ used, ops ++ [.binary sign] ++ more, ?_, ?_, ?_,
        hends₃⟩
      · intro left done hleft
        simpa using hL _ _ (hjoin hsign hleft hO)
      · simpa using htokens hne
      · rw [m.run_append_of_ok ((m.run_append_of_ok hrun).trans hrun'), hrun'']

theorem chain_reads {L O : List Token → List Op → Prop} (hoperand : Reads m operand fun _ => O)
    (hone : ∀ {used ops}, O used ops → L used ops)
    (hjoin : ∀ {t sign left ops right ops'}, sign? t = some sign → L left ops → O right ops' →
      L (left ++ t :: right) (ops ++ ops' ++ [.binary sign]))
    (hfinish : sign? .finish = none) : Reads m (chain m sign? operand) fun _ => L := by
  intro tokens hends s _ rest s' h
  obtain ⟨_, _, _, hfirst, htail⟩ := bind_ok h
  obtain ⟨first, ops, hO, rfl, hrun, hends₁⟩ := hoperand _ hends _ _ _ _ hfirst
  obtain ⟨turns, _, _, hahead, hloop⟩ := bind_ok htail
  obtain ⟨rfl, rfl, rfl⟩ := ahead_ok hahead
  obtain ⟨used, more, hL, rfl, hrun', hends₂⟩ :=
    chainTail_reads (L := L) hoperand hjoin hfinish _ _ hends₁ _ _ _ _ hloop
  refine ⟨first ++ used, ops ++ more, hL _ _ (hone hO), by simp, ?_, hends₂⟩
  rw [m.run_append_of_ok hrun, hrun']

/-! ## arguments and elements -/

/-- a name with an equals sign behind it names an argument -/
theorem argument_named (name : String) :
    argument inner (.name name :: .mark .equals :: rest) s =
      (do inner; pure (ArgumentForm.named name)) rest s := rfl

theorem argument_positional (h : ∀ name rest, tokens ≠ .name name :: .mark .equals :: rest) :
    argument inner tokens s = (do inner; pure ArgumentForm.positional) tokens s := by
  match tokens, h with
  | [], _ => rfl
  | [t], _ => cases t <;> rfl
  | t :: u :: rest, h =>
    cases t with
    | name name =>
      cases u with
      | mark k =>
        cases k with
        | equals => exact absurd rfl (h name rest)
        | _ => rfl
      | _ => rfl
    | _ => rfl

theorem argument_reads (hinner : Reads m inner (Inner n)) :
    Reads m (argument inner) fun form used ops =>
      ∃ a : Argument, a.form = form ∧ a.value.nesting < n ∧ a.yield = used ∧ a.ops = ops := by
  intro tokens hends s form rest s' h
  by_cases hnamed : ∃ name after, tokens = .name name :: .mark .equals :: after
  · obtain ⟨name, after, rfl⟩ := hnamed
    rw [argument_named] at h
    have hends₁ : Ends after := (hends.tail (by simp)).tail (by simp)
    obtain ⟨_, _, _, hvalue, hpure⟩ := bind_ok h
    obtain ⟨_, _, ⟨t, hn, rfl, rfl⟩, rfl, hrun, hends₂⟩ := hinner _ hends₁ _ _ _ _ hvalue
    obtain ⟨rfl, rfl, rfl⟩ := pure_ok hpure
    exact ⟨_, _, ⟨.named name t, rfl, hn, rfl, rfl⟩, by simp [Argument.yield],
      by simpa [Argument.ops] using hrun, hends₂⟩
  · rw [argument_positional fun name after heq => hnamed ⟨name, after, heq⟩] at h
    obtain ⟨_, _, _, hvalue, hpure⟩ := bind_ok h
    obtain ⟨_, _, ⟨t, hn, rfl, rfl⟩, rfl, hrun, hends₁⟩ := hinner _ hends _ _ _ _ hvalue
    obtain ⟨rfl, rfl, rfl⟩ := pure_ok hpure
    exact ⟨_, _, ⟨.positional t, rfl, hn, rfl, rfl⟩, by simp [Argument.yield],
      by simpa [Argument.ops] using hrun, hends₁⟩

/-- a list of arguments; the turns do not run out before the tokens do -/
theorem argumentList_reads (hinner : Reads m inner (Inner n)) (turns : List Token) :
    ∀ tokens, Ends tokens → tokens.length ≤ turns.length →
      ReadsFrom m (argumentList inner turns) (fun forms used ops =>
        ∃ as : List Argument, as ≠ [] ∧ as.map Argument.form = forms ∧
          (∀ a ∈ as, a.value.nesting < n) ∧ Argument.yields as = used ∧
          Argument.listOps as = ops) tokens := by
  induction turns with
  | nil =>
    intro tokens hends hlen
    have hpos := hends.length_pos
    exact absurd hlen (Nat.not_le.mpr hpos)
  | cons turn turns ih =>
    intro tokens hends hlen s forms rest s' h
    obtain ⟨form, _, _, hfirst, htail⟩ := bind_ok h
    obtain ⟨_, _, ⟨a, rfl, hn, rfl, rfl⟩, rfl, hrun, hends₁⟩ :=
      argument_reads hinner _ hends _ _ _ _ hfirst
    obtain ⟨found, _, _, heat, hmore⟩ := bind_ok htail
    obtain ⟨rfl, ⟨rfl, rfl⟩ | ⟨rfl, rfl⟩⟩ := eat_ok heat
    · obtain ⟨forms', _, _, hlist, hpure⟩ := bind_ok hmore
      have hends₂ := hends₁.tail (by simp)
      simp only [List.length_append, List.length_cons] at hlen
      have hlen' := Nat.le_of_succ_le_succ (Nat.le_trans (Nat.le_add_left _ _) hlen)
      obtain ⟨_, _, ⟨as, hne, rfl, hns, rfl, rfl⟩, rfl, hrun', hends₃⟩ :=
        ih _ hends₂ hlen' _ _ _ _ hlist
      obtain ⟨rfl, rfl, rfl⟩ := pure_ok hpure
      refine ⟨_, _, ⟨a :: as, by simp, rfl, ?_, rfl, rfl⟩, ?_, ?_, hends₃⟩
      · simpa using ⟨hn, hns⟩
      · simp [Argument.yields, Argument.moreYields_of_ne_nil hne]
      · rw [Argument.listOps, m.run_append_of_ok hrun, hrun']
    · obtain ⟨rfl, rfl, rfl⟩ := pure_ok hmore
      refine ⟨_, _, ⟨[a], by simp, rfl, by simpa using hn, rfl, rfl⟩, ?_, ?_, hends₁⟩
      · simp [Argument.yields, Argument.moreYields]
      · simpa [Argument.listOps] using hrun

theorem arguments_reads (hinner : Reads m inner (Inner n)) :
    Reads m (arguments inner) fun forms used ops =>
      ∃ as : List Argument, as.map Argument.form = forms ∧ (∀ a ∈ as, a.value.nesting < n) ∧
        Argument.yields as = used ∧ Argument.listOps as = ops := by
  intro tokens hends s forms rest s' h
  obtain ⟨_, _, _, hpeek, hmatch⟩ := bind_ok h
  obtain ⟨rfl, rfl, rfl⟩ := peek_ok hpeek
  by_cases hclose : tokens.headD .finish = .mark .closeParen
  · simp only [hclose] at hmatch
    obtain ⟨rfl, rfl, rfl⟩ := pure_ok hmatch
    exact ⟨[], [], ⟨[], rfl, by simp, rfl, rfl⟩, rfl, rfl, hends⟩
  · simp only at hmatch
    obtain ⟨_, _, _, hahead, hlist⟩ := bind_ok hmatch
    obtain ⟨rfl, rfl, rfl⟩ := ahead_ok hahead
    obtain ⟨_, _, ⟨as, -, hrest⟩, hread⟩ :=
      argumentList_reads hinner _ _ hends (Nat.le_refl _) _ _ _ _ hlist
    exact ⟨_, _, ⟨as, hrest⟩, hread⟩

/-- the elements of a vector; the turns do not run out before the tokens do -/
theorem elements_reads (hinner : Reads m inner (Inner n)) (turns : List Token) :
    ∀ tokens, Ends tokens → tokens.length ≤ turns.length →
      ReadsFrom m (elements inner turns) (fun length used ops =>
        ∃ es : List Expr, es ≠ [] ∧ es.length = length ∧ (∀ e ∈ es, e.nesting < n) ∧
          Expr.yields es ++ [.mark .closeBracket] = used ∧ Expr.listOps es = ops) tokens := by
  induction turns with
  | nil =>
    intro tokens hends hlen
    have hpos := hends.length_pos
    exact absurd hlen (Nat.not_le.mpr hpos)
  | cons turn turns ih =>
    intro tokens hends hlen s forms rest s' h
    obtain ⟨_, _, _, hfirst, htail⟩ := bind_ok h
    obtain ⟨_, _, ⟨e, hn, rfl, rfl⟩, rfl, hrun, hends₁⟩ := hinner _ hends _ _ _ _ hfirst
    obtain ⟨found, _, _, heat, hmore⟩ := bind_ok htail
    obtain ⟨rfl, ⟨rfl, rfl⟩ | ⟨rfl, rfl⟩⟩ := eat_ok heat
    · obtain ⟨rfl, rfl, rfl⟩ := pure_ok hmore
      refine ⟨_, _, ⟨[e], by simp, rfl, by simpa using hn, rfl, rfl⟩, ?_, ?_,
        hends₁.tail (by simp)⟩
      · simp [Expr.yields, Expr.moreYields]
      · simpa [Expr.listOps] using hrun
    · obtain ⟨found, _, _, heat', hmore'⟩ := bind_ok hmore
      obtain ⟨rfl, ⟨rfl, rfl⟩ | ⟨rfl, rfl⟩⟩ := eat_ok heat'
      · obtain ⟨more, _, _, hlist, hpure⟩ := bind_ok hmore'
        have hends₂ := hends₁.tail (by simp)
        simp only [List.length_append, List.length_cons] at hlen
        have hlen' := Nat.le_of_succ_le_succ (Nat.le_trans (Nat.le_add_left _ _) hlen)
        obtain ⟨_, _, ⟨es, hne, rfl, hns, rfl, rfl⟩, rfl, hrun', hends₃⟩ :=
          ih _ hends₂ hlen' _ _ _ _ hlist
        obtain ⟨rfl, rfl, rfl⟩ := pure_ok hpure
        refine ⟨_, _, ⟨e :: es, by simp, rfl, ?_, rfl, rfl⟩, ?_, ?_, hends₃⟩
        · simpa using ⟨hn, hns⟩
        · simp [Expr.yields, Expr.moreYields_of_ne_nil hne]
        · rw [Expr.listOps, m.run_append_of_ok hrun, hrun']
      · cases hmore'

/-! ## members and calls -/

theorem memberName_reads :
    Reads m (memberName m) fun _ used ops => ∃ name, used = [.name name] ∧ ops = [.member name] := by
  intro tokens hends s _ rest s' h
  obtain ⟨t, _, _, hbump, hmatch⟩ := bind_ok h
  obtain ⟨rfl, ht, htokens⟩ := bump_ok hbump
  cases t with
  | name name =>
    obtain ⟨rfl, hrun⟩ := emit_ok hmatch
    have heq := htokens (by simp)
    exact ⟨_, _, ⟨name, rfl, rfl⟩, heq, hrun, Ends.tail (heq ▸ hends) (by simp)⟩
  | finish => cases hmatch
  | _ => cases hmatch

/-- members and calls can be added to whatever stands before them -/
theorem accessTail_reads (hinner : Reads m inner (Inner n)) (turns : List Token) :
    Reads m (accessTail m inner turns) fun _ used ops =>
      ∀ left done, Access.Spells n left done → Access.Spells n (left ++ used) (done ++ ops) := by
  induction turns with
  | nil =>
    intro tokens hends s _ rest s' h
    obtain ⟨-, rfl, rfl⟩ := pure_ok h
    exact ⟨[], [], fun _ _ hleft => by simpa using hleft, rfl, rfl, hends⟩
  | cons turn turns ih =>
    intro tokens hends s _ rest s' h
    obtain ⟨found, _, _, heat, hturn⟩ := bind_ok h
    obtain ⟨rfl, ⟨rfl, rfl⟩ | ⟨rfl, rfl⟩⟩ := eat_ok heat
    · obtain ⟨_, _, _, hname, hmore⟩ := bind_ok hturn
      obtain ⟨_, _, ⟨name, rfl, rfl⟩, rfl, hrun, hends₁⟩ :=
        memberName_reads _ (hends.tail (by simp)) _ _ _ _ hname
      obtain ⟨used, ops, hL, rfl, hrun', hends₂⟩ := ih _ hends₁ _ _ _ _ hmore
      refine ⟨.mark .dot :: .name name :: used, .member name :: ops, ?_, by simp, ?_, hends₂⟩
      · rintro _ _ ⟨a, hn, rfl, rfl⟩
        have hmember : Access.Spells n (a.yield ++ [.mark .dot, .name name])
            (a.ops ++ [.member name]) :=
          ⟨.member a name, by simpa [Access.nesting] using hn, rfl, rfl⟩
        simpa using hL _ _ hmember
      · rw [← List.singleton_append, m.run_append_of_ok hrun, hrun']
    · obtain ⟨found, _, _, heat', hturn'⟩ := bind_ok hturn
      obtain ⟨rfl, ⟨rfl, rfl⟩ | ⟨rfl, rfl⟩⟩ := eat_ok heat'
      · obtain ⟨forms, _, _, hargs, hclosed⟩ := bind_ok hturn'
        obtain ⟨_, _, ⟨as, rfl, hns, rfl, rfl⟩, rfl, hrun, hends₁⟩ :=
          arguments_reads hinner _ (hends.tail (by simp)) _ _ _ _ hargs
        obtain ⟨_, _, _, hclose, happly⟩ := bind_ok hclosed
        obtain ⟨rfl, rfl⟩ := closeParen_ok hclose
        obtain ⟨_, _, _, hemit, hmore⟩ := bind_ok happly
        obtain ⟨rfl, hrun'⟩ := emit_ok hemit
        obtain ⟨used, ops, hL, rfl, hrun'', hends₂⟩ :=
          ih _ (hends₁.tail (by simp)) _ _ _ _ hmore
        refine ⟨.mark .openParen :: (Argument.yields as ++ .mark .closeParen :: used),
          Argument.listOps as ++ [.call (as.map Argument.form)] ++ ops, ?_, by simp, ?_, hends₂⟩
        · rintro _ _ ⟨a, hn, rfl, rfl⟩
          have hcall : Access.Spells n
              (a.yield ++ .mark .openParen :: (Argument.yields as ++ [.mark .closeParen]))
              (a.ops ++ Argument.listOps as ++ [.call (as.map Argument.form)]) :=
            ⟨.call a as, Nat.max_le.mpr ⟨hn, Argument.listNesting_le.mpr hns⟩, rfl, rfl⟩
          simpa using hL _ _ hcall
        · rw [m.run_append_of_ok ((m.run_append_of_ok hrun).trans hrun'), hrun'']
      · obtain ⟨-, rfl, rfl⟩ := pure_ok hturn'
        exact ⟨[], [], fun _ _ hleft => by simpa using hleft, rfl, rfl, hends⟩

theorem vector_reads (hinner : Reads m inner (Inner n)) :
    Reads m (vector m inner) fun _ used ops =>
      Primary.Spells n (.mark .openBracket :: used) ops := by
  intro tokens hends s _ rest s' h
  obtain ⟨found, _, _, heat, hmatch⟩ := bind_ok h
  obtain ⟨rfl, ⟨rfl, rfl⟩ | ⟨rfl, rfl⟩⟩ := eat_ok heat
  · obtain ⟨rfl, hrun⟩ := emit_ok hmatch
    exact ⟨[.mark .closeBracket], _, ⟨.vector [], Nat.zero_le _, rfl, rfl⟩, rfl, hrun,
      hends.tail (by simp)⟩
  · obtain ⟨_, _, _, hahead, hlist⟩ := bind_ok hmatch
    obtain ⟨rfl, rfl, rfl⟩ := ahead_ok hahead
    obtain ⟨length, _, _, helements, hemit⟩ := bind_ok hlist
    obtain ⟨_, _, ⟨es, -, rfl, hns, rfl, rfl⟩, rfl, hrun, hends₁⟩ :=
      elements_reads hinner _ _ hends (Nat.le_refl _) _ _ _ _ helements
    obtain ⟨rfl, hrun'⟩ := emit_ok hemit
    exact ⟨_, _, ⟨.vector es, Expr.listNesting_le.mpr hns, rfl, rfl⟩, rfl,
      (m.run_append_of_ok hrun).trans hrun', hends₁⟩

theorem primary_reads (hinner : Reads m inner (Inner n)) :
    Reads m (primary m inner) fun _ => Primary.Spells n := by
  intro tokens hends s _ rest s' h
  obtain ⟨t, _, _, hbump, hmatch⟩ := bind_ok h
  obtain ⟨rfl, ht, htokens⟩ := bump_ok hbump
  -- a token that is a primary by itself
  have hsingle : ∀ {op mid}, tokens = t :: mid → t ≠ .finish →
      Primary.Spells n [t] [op] → emit m op mid s = (.ok ((), rest), s') →
      ∃ used ops, Primary.Spells n used ops ∧ tokens = used ++ rest ∧
        m.run ops s = (.ok (), s') ∧ Ends rest := by
    intro op mid heq hne hspells hemit
    obtain ⟨rfl, hrun⟩ := emit_ok hemit
    exact ⟨_, _, hspells, heq, hrun, Ends.tail (heq ▸ hends) hne⟩
  cases t with
  | number digits =>
    exact hsingle (htokens (by simp)) (by simp) ⟨.number digits, Nat.zero_le _, rfl, rfl⟩ hmatch
  | string text =>
    exact hsingle (htokens (by simp)) (by simp) ⟨.string text, Nat.zero_le _, rfl, rfl⟩ hmatch
  | name text =>
    exact hsingle (htokens (by simp)) (by simp) ⟨.name text, Nat.zero_le _, rfl, rfl⟩ hmatch
  | finish => cases hmatch
  | mark k =>
    cases k with
    | dollar =>
      exact hsingle (htokens (by simp)) (by simp) ⟨.input, Nat.zero_le _, rfl, rfl⟩ hmatch
    | openParen =>
      obtain rfl := htokens (by simp)
      obtain ⟨_, _, _, hvalue, hclose⟩ := bind_ok hmatch
      obtain ⟨_, _, ⟨e, hn, rfl, rfl⟩, rfl, hrun, hends₁⟩ :=
        hinner _ (hends.tail (by simp)) _ _ _ _ hvalue
      obtain ⟨rfl, rfl⟩ := closeParen_ok hclose
      exact ⟨_, _, ⟨.parens e, hn, rfl, rfl⟩, by simp [Primary.yield], hrun, hends₁.tail (by simp)⟩
    | openBracket =>
      obtain rfl := htokens (by simp)
      obtain ⟨used, ops, hspells, rfl, hread⟩ :=
        vector_reads hinner _ (hends.tail (by simp)) _ _ _ _ hmatch
      exact ⟨_, _, hspells, rfl, hread⟩
    | _ => cases hmatch

/-! ## the levels -/

theorem access_reads (hinner : Reads m inner (Inner n)) :
    Reads m (access m inner) fun _ => Access.Spells n := by
  intro tokens hends s _ rest s' h
  obtain ⟨_, _, _, hfirst, htail⟩ := bind_ok h
  obtain ⟨_, _, ⟨p, hn, rfl, rfl⟩, rfl, hrun, hends₁⟩ :=
    primary_reads hinner _ hends _ _ _ _ hfirst
  obtain ⟨_, _, _, hahead, hloop⟩ := bind_ok htail
  obtain ⟨rfl, rfl, rfl⟩ := ahead_ok hahead
  obtain ⟨used, ops, hL, rfl, hrun', hends₂⟩ := accessTail_reads hinner _ _ hends₁ _ _ _ _ hloop
  exact ⟨_, _, hL _ _ ⟨.primary p, hn, rfl, rfl⟩, by simp [Access.yield],
    (m.run_append_of_ok hrun).trans hrun', hends₂⟩

theorem product_reads (hinner : Reads m inner (Inner n)) :
    Reads m (product m inner) fun _ => Product.Spells n := by
  refine chain_reads (access_reads hinner) ?_ ?_ rfl
  · rintro _ _ ⟨a, hn, rfl, rfl⟩
    exact ⟨.access a, hn, rfl, rfl⟩
  · rintro t sign _ _ _ _ hsign ⟨left, hl, rfl, rfl⟩ ⟨right, hr, rfl, rfl⟩
    obtain ⟨sign, rfl, rfl⟩ := exists_productSign hsign
    exact ⟨.join left sign right, Nat.max_le.mpr ⟨hl, hr⟩, rfl, rfl⟩

theorem sum_reads (hinner : Reads m inner (Inner n)) :
    Reads m (sum m inner) fun _ => Expr.Spells n := by
  refine chain_reads (product_reads hinner) ?_ ?_ rfl
  · rintro _ _ ⟨p, hn, rfl, rfl⟩
    exact ⟨.product p, hn, rfl, rfl⟩
  · rintro t sign _ _ _ _ hsign ⟨left, hl, rfl, rfl⟩ ⟨right, hr, rfl, rfl⟩
    obtain ⟨sign, rfl, rfl⟩ := exists_sumSign hsign
    exact ⟨.join left sign right, Nat.max_le.mpr ⟨hl, hr⟩, rfl, rfl⟩

/-- **What is read as an expression of so many levels has a tree of so many levels.** -/
theorem expression_reads (m : Machine σ) (levels : Nat) :
    Reads m (expression m levels) (Inner levels) := by
  induction levels with
  | zero =>
    intro tokens _ s _ rest s' h
    cases h
  | succ levels ih =>
    intro tokens hends s _ rest s' h
    obtain ⟨used, ops, ⟨t, hn, hyield, hops⟩, hread⟩ := sum_reads ih _ hends _ _ _ _ h
    exact ⟨used, ops, ⟨t, Nat.lt_succ_of_le hn, hyield, hops⟩, hread⟩

end Expression

end Dataflow
