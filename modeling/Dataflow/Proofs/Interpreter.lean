import Mathlib.Data.List.Basic
import Dataflow.Expression.Evaluate
import Dataflow.Proofs.Complete

/-!
# What a syntax tree is worth

`Tree.Expr.eval` computes the value of a tree by recursion on the tree: operands from left to right,
each before what is done with it, up to the first fault.  It draws inputs on its way and looks names
up in the scopes; there is no stack in it.

* `Context`               the bindings around an expression, and its place in the evaluation;
* `Course`, `Drawing`     what a computation draws on, kept when it fails;
* `Pushes c ops list i`   on any stack the operations leave the values that `i` gives, or fail as `i`
                          does, with the same inputs left;
* `Tree.Expr.pushes`      so do the operations of a tree, with the value of the tree;
* `Expression.evaluate_eq_eval`   a text with a tree evaluates to what the tree is worth.
-/

namespace Dataflow

/-- where an expression stands -/
structure Context where
  root : Root
  scopes : Scopes
  scope : Option Nat
  site : Site

/-- what a computation draws on: the inputs to come, and how often a member was taken -/
structure Course where
  feed : Feed
  accesses : Nat

/-- a computation that may fail; what it has drawn stays drawn -/
abbrev Drawing (α : Type) : Type := EStateM Fault Course α

namespace Drawing

/-- the next input -/
def input : Drawing Value := do
  match (← get).feed.take with
  | some (v, feed) =>
    modify ({ · with feed })
    pure v
  | none => throw .noMoreInputs

/-- what a name stands for, from the scope outwards -/
def name (c : Context) (name : String) : Drawing Value :=
  match c.scopes.find? c.root.environment c.scope name with
  | some v => pure v
  | none => throw (.unknownIdentifier name)

/-- a member of a value; every access is counted, since a method comes to be where it is taken -/
def member (c : Context) (v : Value) (name : String) : Drawing Value := do
  let accesses := (← get).accesses
  modify ({ · with accesses := accesses + 1 })
  ofExcept (v.memberOf (.fetched c.site accesses) name)

end Drawing

namespace Tree

mutual

def Expr.eval (c : Context) : Expr → Drawing Value
  | .product p => p.eval c
  | .join left sign right => do
    let x ← left.eval c
    let y ← right.eval c
    ofExcept (Value.apply sign.sign x y)

def Product.eval (c : Context) : Product → Drawing Value
  | .access a => a.eval c
  | .join left sign right => do
    let x ← left.eval c
    let y ← right.eval c
    ofExcept (Value.apply sign.sign x y)

def Access.eval (c : Context) : Access → Drawing Value
  | .primary p => p.eval c
  | .member of name => do
    let v ← of.eval c
    Drawing.member c v name
  | .call callee arguments => do
    let f ← callee.eval c
    let vs ← Argument.evalAll c arguments
    ofExcept (f.call c.root.host (arguments.map Argument.form) vs)

def Primary.eval (c : Context) : Primary → Drawing Value
  | .parens inner => inner.eval c
  | .number digits => pure (.float (Binary.ofDigits digits.toList))
  | .string text => pure (.string text)
  | .input => Drawing.input
  | .name text => Drawing.name c text
  | .vector elements => do
    let vs ← Expr.evalAll c elements
    pure (.vector vs)

def Argument.eval (c : Context) : Argument → Drawing Value
  | .positional value => value.eval c
  | .named _ value => value.eval c

def Expr.evalAll (c : Context) : List Expr → Drawing (List Value)
  | [] => pure []
  | first :: rest => do
    let v ← first.eval c
    let vs ← Expr.evalAll c rest
    pure (v :: vs)

def Argument.evalAll (c : Context) : List Argument → Drawing (List Value)
  | [] => pure []
  | first :: rest => do
    let v ← first.eval c
    let vs ← Argument.evalAll c rest
    pure (v :: vs)

end

end Tree

/-! ## the stack machine against a computation -/

namespace Context

/-- the machine at this place -/
def machine (c : Context) : Machine Stack := .evaluating c.root c.scopes c.scope c.site

end Context

namespace Stack

def course (s : Stack) : Course := ⟨s.feed, s.accesses⟩

end Stack

/-- a run of the machine ends as a computation does: with its values on top of those below, or with
its fault; and with the same inputs left -/
inductive Agrees {α : Type} (list : α → List Value) (below : List Value) :
    EStateM.Result Fault Course α → Except Fault Unit × Stack → Prop
  | ok (a : α) (e : Course) :
    Agrees list below (.ok a e) (.ok (), ⟨(list a).reverse ++ below, e.feed, e.accesses⟩)
  | error (fault : Fault) (e : Course) (left : List Value) :
    Agrees list below (.error fault e) (.error fault, ⟨left, e.feed, e.accesses⟩)

/-- a single value -/
def one (v : Value) : List Value := [v]

theorem Agrees.single {below : List Value} (v : Value) (e : Course) :
    Agrees one below (.ok v e) (.ok (), ⟨v :: below, e.feed, e.accesses⟩) := .ok v e

/-- on any stack the operations leave what the computation gives -/
def Pushes {α : Type} (c : Context) (ops : List Op) (list : α → List Value) (i : Drawing α) : Prop :=
  ∀ s : Stack, Agrees list s.values (i s.course) (c.machine.run ops s)

namespace Pushes

variable {α β : Type} {c : Context} {ops ops' : List Op} {list : α → List Value}
  {list' : β → List Value} {i : Drawing α} {j : Drawing β}

/-- one after the other -/
theorem andThen {γ : Type} {list'' : γ → List Value} {f : α → β → γ} (h : Pushes c ops list i)
    (h' : Pushes c ops' list' j) (hf : ∀ a b, list'' (f a b) = list a ++ list' b) :
    Pushes c (ops ++ ops') list'' (do let a ← i; let b ← j; pure (f a b)) := by
  intro s
  have hfirst := h s
  change Agrees _ _ ((i >>= fun a => j >>= fun b => pure (f a b)).run s.course) _
  simp only [EStateM.run_bind, EStateM.run_pure]
  change Agrees _ _ (i.run s.course) _ at hfirst
  generalize i.run s.course = first at hfirst
  generalize hrun : c.machine.run ops s = out at hfirst
  cases hfirst with
  | error fault e left =>
    rw [Machine.run_append_of_error hrun]
    exact .error fault e left
  | ok a e =>
    rw [Machine.run_append_of_ok hrun]
    -- the second computation begins on top of what the first has left
    have hsecond := h' ⟨(list a).reverse ++ s.values, e.feed, e.accesses⟩
    change Agrees _ _ (j.run e) _ at hsecond
    simp only
    generalize j.run e = second at hsecond
    generalize c.machine.run ops' _ = out' at hsecond
    cases hsecond with
    | error fault e left => exact .error fault e left
    | ok b e =>
      have hstack : (list' b).reverse ++ ((list a).reverse ++ s.values)
          = (list'' (f a b)).reverse ++ s.values := by
        rw [hf, List.reverse_append, List.append_assoc]
      rw [hstack]
      exact .ok (f a b) e

/-- an operation on what the operations before it have left -/
theorem operate {op : Op} {f : α → Drawing Value} (h : Pushes c ops list i)
    (hop : ∀ a below e e', i.run e' = .ok a e →
      Agrees one below ((f a).run e)
        (c.machine.step op ⟨(list a).reverse ++ below, e.feed, e.accesses⟩)) :
    Pushes c (ops ++ [op]) one (i >>= f) := by
  intro s
  have hfirst := h s
  change Agrees _ _ ((i >>= f).run _) _
  simp only [EStateM.run_bind]
  change Agrees _ _ (i.run s.course) _ at hfirst
  generalize hi : i.run s.course = first at hfirst
  generalize hrun : c.machine.run ops s = out at hfirst
  cases hfirst with
  | error fault e left =>
    rw [Machine.run_append_of_error hrun]
    exact .error fault e left
  | ok a e =>
    rw [Machine.run_append_of_ok hrun, Machine.run_singleton]
    exact hop a s.values e s.course hi

end Pushes

/-! ## single operations -/

namespace Context

variable {c : Context} {below : List Value}

/-- a result left on the stack -/
theorem agrees_leave (e : Course) (r : Except Fault Value) :
    Agrees one below ((ofExcept r : Drawing Value).run e)
      (Machine.leave ⟨below, e.feed, e.accesses⟩ r) := by
  cases r with
  | ok v => exact .single v e
  | error fault => exact .error fault e below

theorem pushes_value {op : Op} {v : Value}
    (h : ∀ s, c.machine.step op s = Machine.leave s (.ok v)) : Pushes c [op] one (pure v) := by
  intro s
  rw [Machine.run_singleton, h]
  exact agrees_leave s.course (.ok v)

theorem pushes_input : Pushes c [.input] one Drawing.input := by
  intro s
  rw [Machine.run_singleton]
  change Agrees one s.values (Drawing.input.run s.course) (c.machine.step .input s)
  simp only [Drawing.input, Context.machine, Machine.evaluating, EStateM.run_bind, EStateM.run_get]
  cases htake : s.feed.take with
  | none =>
    have hcourse : s.course.feed.take = none := htake
    simp only [hcourse]
    exact .error .noMoreInputs s.course s.values
  | some p =>
    have hcourse : s.course.feed.take = some p := htake
    simp only [hcourse]
    exact .single p.1 ⟨p.2, s.accesses⟩

theorem pushes_name (text : String) : Pushes c [.name text] one (Drawing.name c text) := by
  intro s
  rw [Machine.run_singleton]
  change Agrees one s.values ((Drawing.name c text).run s.course) (c.machine.step (.name text) s)
  simp only [Drawing.name, Context.machine, Machine.evaluating]
  cases c.scopes.find? c.root.environment c.scope text with
  | none => exact .error (.unknownIdentifier text) s.course s.values
  | some v => exact .single v s.course

theorem agrees_member (v : Value) (name : String) (e : Course) :
    Agrees one below ((Drawing.member c v name).run e)
      (c.machine.step (.member name) ⟨v :: below, e.feed, e.accesses⟩) :=
  agrees_leave ⟨e.feed, e.accesses + 1⟩ (v.memberOf (.fetched c.site e.accesses) name)

theorem agrees_binary (sign : Sign) (x y : Value) (e : Course) :
    Agrees one below ((ofExcept (Value.apply sign x y) : Drawing Value).run e)
      (c.machine.step (.binary sign) ⟨y :: x :: below, e.feed, e.accesses⟩) :=
  agrees_leave e (Value.apply sign x y)

theorem agrees_vector (vs : List Value) (e : Course) :
    Agrees one below ((pure (.vector vs) : Drawing Value).run e)
      (c.machine.step (.vector vs.length) ⟨vs.reverse ++ below, e.feed, e.accesses⟩) := by
  have htop : Stack.topMost ⟨vs.reverse ++ below, e.feed, e.accesses⟩ vs.length = vs := by
    simp [Stack.topMost]
  have hdrop : Stack.drop ⟨vs.reverse ++ below, e.feed, e.accesses⟩ vs.length
      = ⟨below, e.feed, e.accesses⟩ := by
    simp [Stack.drop]
  show Agrees _ _ _ (Machine.leave _ (.ok (.vector _)))
  rw [htop, hdrop]
  exact agrees_leave e (.ok (.vector vs))

theorem agrees_call (forms : List ArgumentForm) (callee : Value) (vs : List Value)
    (h : vs.length = forms.length) (e : Course) :
    Agrees one below ((ofExcept (callee.call c.root.host forms vs) : Drawing Value).run e)
      (c.machine.step (.call forms) ⟨vs.reverse ++ callee :: below, e.feed, e.accesses⟩) := by
  have htop : Stack.topMost ⟨vs.reverse ++ callee :: below, e.feed, e.accesses⟩ forms.length
      = vs := by
    simp [Stack.topMost, ← h]
  have hdrop : Stack.drop ⟨vs.reverse ++ callee :: below, e.feed, e.accesses⟩ forms.length
      = ⟨callee :: below, e.feed, e.accesses⟩ := by
    simp [Stack.drop, ← h]
  show Agrees _ _ _ (Machine.leave _ (Value.call _ _ _ _))
  rw [htop, hdrop]
  exact agrees_leave e (callee.call c.root.host forms vs)

end Context

/-! ## trees -/

namespace Tree

variable {c : Context}

theorem Expr.evalAll_eq_mapM (es : List Expr) : Expr.evalAll c es = es.mapM (Expr.eval c) := by
  induction es with
  | nil => rfl
  | cons first rest ih => rw [Expr.evalAll, ih, List.mapM_cons]

theorem Argument.evalAll_eq_mapM (as : List Argument) :
    Argument.evalAll c as = as.mapM (Argument.eval c) := by
  induction as with
  | nil => rfl
  | cons first rest ih => rw [Argument.evalAll, ih, List.mapM_cons]

/-- a value for every item -/
theorem length_mapM {α : Type} {f : α → Drawing Value} {items : List α} {e e' : Course}
    {vs : List Value} (h : (items.mapM f).run e = .ok vs e') : vs.length = items.length := by
  induction items generalizing e vs with
  | nil =>
    cases h
    rfl
  | cons first rest ih =>
    simp only [List.mapM_cons, EStateM.run_bind] at h
    split at h
    · split at h
      · next hrest =>
        cases h
        rw [List.length_cons, List.length_cons, ih hrest]
      · cases h
    · cases h

theorem pushes_join {ops ops' : List Op} {i j : Drawing Value} (sign : Sign)
    (hleft : Pushes c ops one i) (hright : Pushes c ops' one j) :
    Pushes c (ops ++ ops' ++ [.binary sign]) one
      (do let x ← i; let y ← j; ofExcept (Value.apply sign x y)) := by
  have hboth : Pushes c (ops ++ ops') (fun p : Value × Value => [p.1, p.2])
      (do let x ← i; let y ← j; pure (x, y)) := hleft.andThen hright fun _ _ => rfl
  have h : Pushes c (ops ++ ops' ++ [.binary sign]) one
      ((do let x ← i; let y ← j; pure (x, y)) >>= fun p => ofExcept (Value.apply sign p.1 p.2)) :=
    hboth.operate fun p below e _ _ => Context.agrees_binary sign p.1 p.2 e
  simpa only [bind_assoc, pure_bind] using h

theorem pushes_call {ops ops' : List Op} {i : Drawing Value} {j : Drawing (List Value)}
    (forms : List ArgumentForm) (hcallee : Pushes c ops one i) (harguments : Pushes c ops' id j)
    (hlength : ∀ e vs e', j.run e = .ok vs e' → vs.length = forms.length) :
    Pushes c (ops ++ ops' ++ [.call forms]) one
      (do let f ← i; let vs ← j; ofExcept (f.call c.root.host forms vs)) := by
  have hboth : Pushes c (ops ++ ops') (fun p : Value × List Value => p.1 :: p.2)
      (do let f ← i; let vs ← j; pure (f, vs)) := hcallee.andThen harguments fun _ _ => rfl
  have h : Pushes c (ops ++ ops' ++ [.call forms]) one
      ((do let f ← i; let vs ← j; pure (f, vs)) >>= fun p =>
        ofExcept (p.1.call c.root.host forms p.2)) :=
    hboth.operate fun p below e e' hp => ?_
  · simpa only [bind_assoc, pure_bind] using h
  · have hvs : p.2.length = forms.length := by
      simp only [EStateM.run_bind] at hp
      split at hp
      · split at hp
        · next hj =>
          cases hp
          exact hlength _ _ _ hj
        · cases hp
      · cases hp
    have hstack : (p.1 :: p.2).reverse ++ below = p.2.reverse ++ p.1 :: below := by simp
    rw [hstack]
    exact Context.agrees_call forms p.1 p.2 hvs e

mutual

/-- **The operations of a tree leave its value on the stack.** -/
theorem Expr.pushes : ∀ t : Expr, Pushes c t.ops one (t.eval c)
  | .product p => p.pushes
  | .join left sign right => pushes_join sign.sign left.pushes right.pushes

theorem Product.pushes : ∀ t : Product, Pushes c t.ops one (t.eval c)
  | .access a => a.pushes
  | .join left sign right => pushes_join sign.sign left.pushes right.pushes

theorem Access.pushes : ∀ t : Access, Pushes c t.ops one (t.eval c)
  | .primary p => p.pushes
  | .member of name => of.pushes.operate fun v below e _ _ => Context.agrees_member v name e
  | .call callee arguments =>
    pushes_call _ callee.pushes (Argument.pushesAll arguments) fun _ _ _ hvs => by
      rw [Argument.evalAll_eq_mapM] at hvs
      rw [length_mapM hvs, List.length_map]

theorem Primary.pushes : ∀ t : Primary, Pushes c t.ops one (t.eval c)
  | .parens inner => inner.pushes
  | .number digits => Context.pushes_value fun _ => rfl
  | .string text => Context.pushes_value fun _ => rfl
  | .input => Context.pushes_input
  | .name text => Context.pushes_name text
  | .vector elements => (Expr.pushesAll elements).operate fun vs below e _ hvs => by
    rw [Expr.evalAll_eq_mapM] at hvs
    rw [← length_mapM hvs]
    exact Context.agrees_vector vs e

theorem Argument.pushes : ∀ t : Argument, Pushes c t.ops one (t.eval c)
  | .positional value => value.pushes
  | .named _ value => value.pushes

theorem Expr.pushesAll : ∀ es : List Expr, Pushes c (Expr.listOps es) id (Expr.evalAll c es)
  | [] => fun s => .ok [] s.course
  | first :: rest => first.pushes.andThen (Expr.pushesAll rest) fun _ _ => rfl

theorem Argument.pushesAll :
    ∀ as : List Argument, Pushes c (Argument.listOps as) id (Argument.evalAll c as)
  | [] => fun s => .ok [] s.course
  | first :: rest => first.pushes.andThen (Argument.pushesAll rest) fun _ _ => rfl

end

end Tree

/-! ## texts -/

namespace Expression

open Parse Dataflow.Tree

/-- a text with a tree hands the operations of the tree to the machine, up to the first failure -/
theorem drive_yield {σ : Type} (m : Machine σ) {text : String} {t : Expr}
    (hlevels : t.levels ≤ maxNesting) (hscan : Token.scan text = .ok (t.yield ++ [.finish])) (s : σ) :
    drive m text s = m.run t.ops s := by
  have hread := expression_yield m maxNesting t hlevels [.finish] s rfl (afterExpr_finish rfl)
  have hcomplete : complete m (t.yield ++ [.finish]) s
      = (emitAll m t.ops >>= fun _ => finish) [.finish] s := bind_congr_left _ hread
  have hfinish : (emitAll m t.ops >>= fun _ => finish) [.finish] s = emitAll m t.ops [.finish] s :=
    emitAll_bind_done fun _ => rfl
  rw [drive, hscan]
  simp only [hcomplete, hfinish, emitAll]
  generalize m.run t.ops s = out
  obtain ⟨_ | _, _⟩ := out <;> rfl

/-- **A text evaluates to what its tree is worth.**  The value is that of the tree, or the fault is
the first that the tree meets from left to right; and the same inputs are left. -/
theorem evaluate_eq_eval {text : String} {t : Expr} (hlevels : t.levels ≤ 128)
    (hscan : Token.scan text = .ok (t.yield ++ [.finish])) (root : Root) (scopes : Scopes)
    (scope : Option Nat) (site : Site) (feed : Feed) :
    evaluate root scopes scope site text feed =
      match (t.eval ⟨root, scopes, scope, site⟩).run ⟨feed, 0⟩ with
      | .ok v e => (.ok v, e.feed)
      | .error fault e => (.error fault, e.feed) := by
  let c : Context := ⟨root, scopes, scope, site⟩
  have hpushes := t.pushes (c := c) (.start feed)
  change Agrees one _ ((t.eval c).run ⟨feed, 0⟩) _ at hpushes
  have hmachine : Machine.evaluating root scopes scope site = c.machine := rfl
  rw [evaluate, drive_yield _ hlevels hscan, hmachine]
  generalize (t.eval c).run ⟨feed, 0⟩ = value at hpushes ⊢
  generalize c.machine.run t.ops (.start feed) = out at hpushes ⊢
  cases hpushes with
  | ok v e => rfl
  | error fault e left => rfl

theorem evaluate_eq_eval_difference :
    Token.scan "[$.x,$-$]" = .ok [.mark .openBracket, .mark .dollar, .mark .dot, .name "x",
      .mark .comma, .mark .dollar, .mark .minus, .mark .dollar, .mark .closeBracket, .finish] ∧
    evaluate ⟨.empty, .none⟩ .empty none ⟨0, 0, 0⟩ "[$.x,$-$]"
        ⟨#[.point (.zero false) (.zero true), .string "a", .void, .void], 0⟩ =
      (.error (.invalidOperands .minus "string" "void"),
        ⟨#[.point (.zero false) (.zero true), .string "a", .void, .void], 3⟩) := by
  have hscan : Token.scan "[$.x,$-$]" = .ok [.mark .openBracket, .mark .dollar, .mark .dot,
      .name "x", .mark .comma, .mark .dollar, .mark .minus, .mark .dollar, .mark .closeBracket,
      .finish] := by decide +kernel
  let input : Access := .primary .input
  let t : Expr := .product (.access (.primary (.vector [.product (.access (.member input "x")),
    .join (.product (.access input)) .minus (.access input)])))
  refine ⟨hscan, ?_⟩
  rw [evaluate_eq_eval (t := t) (by decide) hscan]
  rfl

end Expression

end Dataflow
