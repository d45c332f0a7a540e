import Dataflow.Binary.Format

/-!
# Binary floating numbers

`Binary f` holds the numbers of the format `f`: one `nan`, and signed magnitudes up to infinity,
with two zeros.  Every operation computes the exact result in natural numbers and rounds once
(`Format.nearest`).

* `Binary.add`, `sub`, `mul`, `div`, `sqrt`   the arithmetic;
* `Binary.same`                               equality of numbers: `nan` differs from itself and
                                              the two zeros are equal;
* `Binary.convert`                            the nearest number of another format.
-/

namespace Dataflow

/-- a number of a binary floating format -/
inductive Binary (f : Format) where
  | nan
  | signed (negative : Bool) (rank : Nat) (rank_le : rank ≤ f.top)
deriving DecidableEq

/-- 32-bit numbers -/
abbrev Single : Type := Binary Format.single

/-- 64-bit numbers -/
abbrev Double : Type := Binary Format.double

namespace Binary

variable {f : Format}

/-- zero with a sign -/
def zero (negative : Bool) : Binary f := .signed negative 0 (Nat.zero_le _)

/-- infinity with a sign -/
def infinity (negative : Bool) : Binary f := .signed negative f.top (Nat.le_refl _)

/-- the number nearest to `num / den` units -/
def ofRatio (negative : Bool) (num den : Nat) : Binary f :=
  .signed negative (f.nearest num den) (f.nearest_le_top num den)

instance : Inhabited (Binary f) := ⟨zero false⟩

/-- neither `nan` nor an infinity -/
def isFinite : Binary f → Bool
  | .nan => false
  | .signed _ rank _ => rank < f.top

/-- strictly below zero; false for `nan` and for both zeros -/
def isBelowZero : Binary f → Bool
  | .nan => false
  | .signed negative rank _ => negative && rank != 0

def same : Binary f → Binary f → Bool
  | .signed s a _, .signed t b _ => a == b && (s == t || a == 0)
  | _, _ => false

def neg : Binary f → Binary f
  | .nan => .nan
  | .signed s a h => .signed (!s) a h

/-- the sum; opposite infinities have none, and a sum that is exactly zero is positive unless both
terms are negative -/
def add : Binary f → Binary f → Binary f
  | .signed s a ha, .signed t b hb =>
    if a = f.top then if b = f.top ∧ s ≠ t then .nan else .signed s a ha
    else if b = f.top then .signed t b hb
    else
      let x := f.scaled a
      let y := f.scaled b
      if s = t then ofRatio s (x + y) 1
      else if y < x then ofRatio s (x - y) 1
      else if x < y then ofRatio t (y - x) 1
      else zero false
  | _, _ => .nan

def sub (x y : Binary f) : Binary f := x.add y.neg

/-- the product; zero times infinity has none -/
def mul : Binary f → Binary f → Binary f
  | .signed s a _, .signed t b _ =>
    let sign := s != t
    if a = f.top ∨ b = f.top then if a = 0 ∨ b = 0 then .nan else infinity sign
    else ofRatio sign (f.scaled a * f.scaled b) f.one
  | _, _ => .nan

/-- the quotient; zero over zero and infinity over infinity have none -/
def div : Binary f → Binary f → Binary f
  | .signed s a _, .signed t b _ =>
    let sign := s != t
    if a = f.top then if b = f.top then .nan else infinity sign
    else if b = f.top then zero sign
    else if b = 0 then if a = 0 then .nan else infinity sign
    else ofRatio sign (f.scaled a * f.one) (f.scaled b)
  | _, _ => .nan

/-- the largest natural number whose square is at most `n` -/
def floorRoot (n : Nat) : Nat :=
  if h : n = 0 then 0
  else
    let half := 2 * floorRoot (n / 4)
    if (half + 1) * (half + 1) ≤ n then half + 1 else half
termination_by n
decreasing_by exact Nat.div_lt_self (Nat.pos_of_ne_zero h) (by decide)

/-- the square root, each zero being its own; below zero there is none.  An inexact root is passed
on half a unit above its floor: neighbours of a root lie many units apart, so this decides no tie -/
def sqrt : Binary f → Binary f
  | .nan => .nan
  | .signed s a h =>
    if a = 0 then .signed s a h
    else if s then .nan
    else if a = f.top then .signed s a h
    else
      let square := f.scaled a * f.one
      let root := floorRoot square
      if root * root = square then ofRatio s root 1 else ofRatio s (2 * root + 1) 2

def convert (g : Format) : Binary f → Binary g
  | .nan => .nan
  | .signed s a _ =>
    if a = f.top then infinity s
    else ofRatio s (f.scaled a * g.one) f.one

theorem same_self {x : Binary f} (h : x ≠ .nan) : x.same x = true := by
  cases x with
  | nan => exact absurd rfl h
  | signed s a _ => simp [same]

theorem same_comm : ∀ x y : Binary f, x.same y = y.same x
  | .nan, .nan | .nan, .signed .. | .signed .., .nan => rfl
  | .signed s a _, .signed t b _ => by
    rw [Bool.eq_iff_iff]
    simp only [same, Bool.and_eq_true, Bool.or_eq_true, beq_iff_eq]
    constructor
    · rintro ⟨rfl, h⟩
      exact ⟨rfl, h.imp Eq.symm id⟩
    · rintro ⟨rfl, h⟩
      exact ⟨rfl, h.imp Eq.symm id⟩

end Binary

end Dataflow
