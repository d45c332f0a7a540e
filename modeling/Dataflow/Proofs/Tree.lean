import Dataflow.Expression.Grammar

/-!
# Syntax trees of expressions

A tree for every production of the grammar; operands of one precedence group to the left.

* `Tree.Expr`, `Product`, `Access`, `Primary`, `Argument`   the trees;
* `yield`      the tokens of a tree, from left to right;
* `ops`        its operations in postorder: the operands of an operation, then the operation;
* `nesting`    how many expressions stand inside each other in it, itself not counted;
* `Expr.levels`   the same for an expression, itself counted.
-/

namespace Dataflow.Tree

/-- the signs that join products -/
inductive SumSign where
  | plus
  | minus
deriving DecidableEq, Repr

/-- the signs that join accesses -/
inductive ProductSign where
  | times
  | over
deriving DecidableEq, Repr

def SumSign.token : SumSign → Token
  | .plus => .mark .plus
  | .minus => .mark .minus

def SumSign.sign : SumSign → Sign
  | .plus => .plus
  | .minus => .minus

def ProductSign.token : ProductSign → Token
  | .times => .mark .star
  | .over => .mark .slash

def ProductSign.sign : ProductSign → Sign
  | .times => .times
  | .over => .over

theorem SumSign.token_inj {a b : SumSign} (h : a.token = b.token) : a = b := by
  cases a <;> cases b <;> first | rfl | cases h

theorem ProductSign.token_inj {a b : ProductSign} (h : a.token = b.token) : a = b := by
  cases a <;> cases b <;> first | rfl | cases h

mutual

inductive Expr where
  | product (p : Product)
  | join (left : Expr) (sign : SumSign) (right : Product)

inductive Product where
  | access (a : Access)
  | join (left : Product) (sign : ProductSign) (right : Access)

inductive Access where
  | primary (p : Primary)
  | member (of : Access) (name : String)
  | call (callee : Access) (arguments : List Argument)

inductive Primary where
  | parens (inner : Expr)
  | number (digits : String)
  | string (text : String)
  | input
  | name (text : String)
  | vector (elements : List Expr)

inductive Argument where
  | positional (value : Expr)
  | named (name : String) (value : Expr)

end

/-- how an argument is written -/
def Argument.form : Argument → ArgumentForm
  | .positional _ => .positional
  | .named name _ => .named name

/-! ## tokens -/

mutual

def Expr.yield : Expr → List Token
  | .product p => p.yield
  | .join left sign right => left.yield ++ sign.token :: right.yield

def Product.yield : Product → List Token
  | .access a => a.yield
  | .join left sign right => left.yield ++ sign.token :: right.yield

def Access.yield : Access → List Token
  | .primary p => p.yield
  | .member of name => of.yield ++ [.mark .dot, .name name]
  | .call callee arguments =>
    callee.yield ++ .mark .openParen :: (Argument.yields arguments ++ [.mark .closeParen])

def Primary.yield : Primary → List Token
  | .parens inner => .mark .openParen :: (inner.yield ++ [.mark .closeParen])
  | .number digits => [.number digits]
  | .string text => [.string text]
  | .input => [.mark .dollar]
  | .name text => [.name text]
  | .vector elements => .mark .openBracket :: (Expr.yields elements ++ [.mark .closeBracket])

def Argument.yield : Argument → List Token
  | .positional value => value.yield
  | .named name value => .name name :: .mark .equals :: value.yield

/-- elements with commas between them -/
def Expr.yields : List Expr → List Token
  | [] => []
  | first :: rest => first.yield ++ Expr.moreYields rest

/-- elements with a comma before each -/
def Expr.moreYields : List Expr → List Token
  | [] => []
  | first :: rest => .mark .comma :: (first.yield ++ Expr.moreYields rest)

/-- arguments with commas between them -/
def Argument.yields : List Argument → List Token
  | [] => []
  | first :: rest => first.yield ++ Argument.moreYields rest

/-- arguments with a comma before each -/
def Argument.moreYields : List Argument → List Token
  | [] => []
  | first :: rest => .mark .comma :: (first.yield ++ Argument.moreYields rest)

end

/-! ## operations -/

mutual

def Expr.ops : Expr → List Op
  | .product p => p.ops
  | .join left sign right => left.ops ++ right.ops ++ [.binary sign.sign]

def Product.ops : Product → List Op
  | .access a => a.ops
  | .join left sign right => left.ops ++ right.ops ++ [.binary sign.sign]

def Access.ops : Access → List Op
  | .primary p => p.ops
  | .member of name => of.ops ++ [.member name]
  | .call callee arguments =>
    callee.ops ++ Argument.listOps arguments ++ [.call (arguments.map Argument.form)]

def Primary.ops : Primary → List Op
  | .parens inner => inner.ops
  | .number digits => [.number digits]
  | .string text => [.string text]
  | .input => [.input]
  | .name text => [.name text]
  | .vector elements => Expr.listOps elements ++ [.vector elements.length]

def Argument.ops : Argument → List Op
  | .positional value => value.ops
  | .named _ value => value.ops

def Expr.listOps : List Expr → List Op
  | [] => []
  | first :: rest => first.ops ++ Expr.listOps rest

def Argument.listOps : List Argument → List Op
  | [] => []
  | first :: rest => first.ops ++ Argument.listOps rest

end

/-! ## levels -/

mutual

def Expr.nesting : Expr → Nat
  | .product p => p.nesting
  | .join left _ right => max left.nesting right.nesting

def Product.nesting : Product → Nat
  | .access a => a.nesting
  | .join left _ right => max left.nesting right.nesting

def Access.nesting : Access → Nat
  | .primary p => p.nesting
  | .member of _ => of.nesting
  | .call callee arguments => max callee.nesting (Argument.listNesting arguments)

def Primary.nesting : Primary → Nat
  | .parens inner => inner.nesting + 1
  | .number _ | .string _ | .input | .name _ => 0
  | .vector elements => Expr.listNesting elements

def Argument.nesting : Argument → Nat
  | .positional value => value.nesting + 1
  | .named _ value => value.nesting + 1

def Expr.listNesting : List Expr → Nat
  | [] => 0
  | first :: rest => max (first.nesting + 1) (Expr.listNesting rest)

def Argument.listNesting : List Argument → Nat
  | [] => 0
  | first :: rest => max first.nesting (Argument.listNesting rest)

end

/-- how many expressions stand inside each other, itself counted -/
def Expr.levels (t : Expr) : Nat := t.nesting + 1

/-- the expression of an argument -/
def Argument.value : Argument → Expr
  | .positional value => value
  | .named _ value => value

theorem Expr.listNesting_le {n : Nat} {es : List Expr} :
    Expr.listNesting es ≤ n ↔ ∀ e ∈ es, e.nesting < n := by
  induction es with
  | nil => simp [Expr.listNesting]
  | cons e es ih => rw [Expr.listNesting, Nat.max_le, ih, Nat.succ_le_iff, List.forall_mem_cons]

theorem Argument.nesting_eq (a : Argument) : a.nesting = a.value.nesting + 1 := by
  cases a <;> simp [Argument.nesting, Argument.value]

theorem Argument.listNesting_le {n : Nat} {as : List Argument} :
    Argument.listNesting as ≤ n ↔ ∀ a ∈ as, a.value.nesting < n := by
  induction as with
  | nil => simp [Argument.listNesting]
  | cons a as ih =>
    rw [Argument.listNesting, Nat.max_le, ih, a.nesting_eq, Nat.succ_le_iff, List.forall_mem_cons]

theorem Expr.moreYields_of_ne_nil {es : List Expr} (h : es ≠ []) :
    Expr.moreYields es = .mark .comma :: Expr.yields es := by
  cases es with
  | nil => exact absurd rfl h
  | cons e es => rfl

theorem Argument.moreYields_of_ne_nil {as : List Argument} (h : as ≠ []) :
    Argument.moreYields as = .mark .comma :: Argument.yields as := by
  cases as with
  | nil => exact absurd rfl h
  | cons a as => rfl

theorem Expr.length_le_moreYields (es : List Expr) : es.length ≤ (Expr.moreYields es).length := by
  induction es with
  | nil => exact Nat.zero_le _
  | cons e es ih =>
    simp only [Expr.moreYields, List.length_cons, List.length_append]
    omega

theorem Argument.length_le_moreYields (as : List Argument) :
    as.length ≤ (Argument.moreYields as).length := by
  induction as with
  | nil => exact Nat.zero_le _
  | cons a as ih =>
    simp only [Argument.moreYields, List.length_cons, List.length_append]
    omega

example : (Expr.product (.access (.primary (.parens (.product (.access (.primary .input))))))).yield
    = [.mark .openParen, .mark .dollar, .mark .closeParen] := by rfl

end Dataflow.Tree
