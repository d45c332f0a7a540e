import Dataflow.Binary.Basic

/-!
# Decimal text of binary numbers

* `Numeral.read?`      reads a written number: a sign, then `inf`, `infinity` or `nan` in any case,
                       or digits with an optional point and an optional exponent;
* `Format.ofDecimal`   the magnitude nearest to `digits * 10 ^ exponent`;
* `Format.shortest`    the fewest digits that read back as a magnitude;
* `Binary.text`        the written form: the shortest digits, laid out without an exponent.

Reading rounds the exact decimal value once.  `Format.shortest` walks over the powers of ten from
above and asks of the two neighbours of the magnitude at each power whether they read back; the
nearer of two hits is taken, the larger one in a tie.
-/

namespace Dataflow

/-- the number `digits * 10 ^ exponent` -/
structure Decimal where
  digits : Nat
  exponent : Int
deriving DecidableEq, Repr

/-- a written number -/
inductive Numeral where
  | nan
  | infinity (negative : Bool)
  | decimal (negative : Bool) (value : Decimal)
deriving DecidableEq, Repr

namespace Numeral

/-- the number that a run of digits spells -/
def digitsValue (digits : List Char) : Nat := Nat.ofDigitChars 10 digits 0

/-- splits off an optional sign; the flag is set by a minus -/
def readSign : List Char → Bool × List Char
  | '-' :: rest => (true, rest)
  | '+' :: rest => (false, rest)
  | rest => (false, rest)

/-- the exponent that ends a written number: nothing, or `e` with an optional sign and digits -/
def readExponent? : List Char → Option Int
  | [] => some 0
  | c :: rest =>
    if c = 'e' ∨ c = 'E' then
      let (negative, digits) := readSign rest
      if digits ≠ [] ∧ digits.all Char.isDigit then
        let size : Int := digitsValue digits
        some (if negative then -size else size)
      else none
    else none

/-- the digits after an optional point, and what follows them -/
def readFraction : List Char → List Char × List Char
  | '.' :: rest => (rest.takeWhile Char.isDigit, rest.dropWhile Char.isDigit)
  | rest => ([], rest)

/-- a decimal without its sign: at least one digit before or after the point -/
def readDecimal? (text : List Char) : Option Decimal :=
  let whole := text.takeWhile Char.isDigit
  let (fraction, rest) := readFraction (text.dropWhile Char.isDigit)
  if whole ++ fraction = [] then none
  else (readExponent? rest).map fun exponent =>
    ⟨digitsValue (whole ++ fraction), exponent - fraction.length⟩

/-- reads a written number; none of it may be left over -/
def read? (text : List Char) : Option Numeral :=
  let (negative, body) := readSign text
  let word := String.ofList (body.map Char.toLower)
  if word = "nan" then some .nan
  else if word = "inf" ∨ word = "infinity" then some (.infinity negative)
  else (readDecimal? body).map (.decimal negative)

end Numeral

namespace Format

/-- the rank nearest to a decimal.  Exponents far outside the format are answered without computing
their power of ten: `10 ^ e` exceeds every finite magnitude once `e` reaches the exponent range, and
`10 ^ e` exceeds `2 ^ (3 * e)` -/
def ofDecimal (f : Format) (d : Decimal) : Nat :=
  let up := d.exponent.toNat
  let down := (-d.exponent).toNat
  if d.digits = 0 then 0
  else if Nat.pow 2 (f.exponentBits - 1) ≤ up then f.top
  else if d.digits.log2 + f.unitBits + 3 ≤ 3 * down then 0
  else f.nearest (d.digits * Nat.pow 10 up * f.one) (Nat.pow 10 down)

theorem ofDecimal_le_top (f : Format) (d : Decimal) : f.ofDecimal d ≤ f.top := by
  simp only [ofDecimal]
  split
  · exact Nat.zero_le _
  · split
    · exact Nat.le_refl _
    · split
      · exact Nat.zero_le _
      · exact nearest_le_top _ _ _

/-- the multiple of `10 ^ exponent` next to a magnitude that reads back as it, if there is one -/
def gridPoint? (f : Format) (rank : Nat) (exponent : Int) : Option Decimal :=
  let num := f.scaled rank * Nat.pow 10 (-exponent).toNat
  let den := f.one * Nat.pow 10 exponent.toNat
  let below : Decimal := ⟨num / den, exponent⟩
  let above : Decimal := ⟨num / den + 1, exponent⟩
  if f.ofDecimal below = rank then
    if f.ofDecimal above = rank ∧ den ≤ 2 * (num % den) then some above else some below
  else if f.ofDecimal above = rank then some above
  else none

/-- a power of ten that is not below a positive magnitude, by the magnitude's leading bit -/
def startExponent (f : Format) (rank : Nat) : Int :=
  let bits : Int := (f.scaled rank).log2 + 1 - f.unitBits
  if 0 ≤ bits then bits.toNat / 3 + 1 else -((-bits).toNat * 3 / 10 : Nat)

/-- walks down the powers of ten to the first that has a decimal reading back; when the steps run
out the exact value is given, which reads back too -/
def shortestFrom (f : Format) (rank : Nat) : Nat → Int → Decimal
  | 0, _ => ⟨f.scaled rank * Nat.pow 5 f.unitBits, -f.unitBits⟩
  | steps + 1, exponent =>
    match f.gridPoint? rank exponent with
    | some d => d
    | none => shortestFrom f rank steps (exponent - 1)

/-- the fewest decimal digits that read back as a positive finite magnitude -/
def shortest (f : Format) (rank : Nat) : Decimal :=
  f.shortestFrom rank (f.fractionBits + 16) (f.startExponent rank)

end Format

namespace Decimal

/-- digits and a point only: no exponent, no fraction when it is empty -/
def plain (d : Decimal) : List Char :=
  let digits := Nat.toDigits 10 d.digits
  let places := (-d.exponent).toNat
  if places = 0 then digits ++ List.replicate d.exponent.toNat '0'
  else
    let padded := List.replicate (places + 1 - digits.length) '0' ++ digits
    padded.take (padded.length - places) ++ '.' :: padded.drop (padded.length - places)

end Decimal

namespace Binary

variable {f : Format}

def ofNumeral : Numeral → Binary f
  | .nan => .nan
  | .infinity negative => infinity negative
  | .decimal negative d => .signed negative (f.ofDecimal d) (f.ofDecimal_le_top d)

def read? (text : List Char) : Option (Binary f) := (Numeral.read? text).map ofNumeral

/-- the number that a run of digits spells -/
def ofDigits (digits : List Char) : Binary f :=
  ofNumeral (.decimal false ⟨Numeral.digitsValue digits, 0⟩)

/-- the whole number `n` -/
def ofNat (n : Nat) : Binary f := ofNumeral (.decimal false ⟨n, 0⟩)

/-- the written form of a number -/
def chars : Binary f → List Char
  | .nan => ['N', 'a', 'N']
  | .signed negative rank _ =>
    let magnitude :=
      if rank = f.top then ['i', 'n', 'f']
      else if rank = 0 then ['0']
      else (f.shortest rank).plain
    if negative then '-' :: magnitude else magnitude

def text (x : Binary f) : String := String.ofList x.chars

end Binary

end Dataflow
