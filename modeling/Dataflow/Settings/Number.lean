import Dataflow.Binary.Decimal

/-!
# Numbers in settings

* `Figure`              a number of settings;
* `Written.natural?`    whole numbers, in base 2, 8 or 16 after `0b`, `0o` or `0x`;
* `Written.figure?`     32-bit numbers, in decimal only;
* `Written.isNumber`    whether a text is a number of any kind.

Underscores may stand among digits, though not in front of them.  The name of a type may follow: it
has to be the type that is asked for, and in bases 8 and 16 there is none.
-/

namespace Dataflow

/-- a number of settings.  A minus in front of `NaN` is kept, although there is only one `nan` -/
inductive Figure where
  | number (x : Single)
  | minusNaN
deriving DecidableEq

namespace Figure

def value : Figure → Single
  | .number x => x
  | .minusNaN => .nan

/-- equality of the values as numbers -/
def same (a b : Figure) : Bool := a.value.same b.value

end Figure

namespace Written

/-- the value of a digit in a base up to 16 -/
def digitIn? (base : Nat) (c : Char) : Option Nat :=
  let n :=
    if c.isDigit then c.toNat - '0'.toNat
    else if 'a' ≤ c ∧ c ≤ 'f' then c.toNat - 'a'.toNat + 10
    else if 'A' ≤ c ∧ c ≤ 'F' then c.toNat - 'A'.toNat + 10
    else base
  if n < base then some n else none

/-- the number that digits in a base spell, without underscores -/
def plain? (base : Nat) (digits : List Char) : Option Nat :=
  digits.foldlM (fun n c => (digitIn? base c).map (base * n + ·)) 0

/-- the number that digits in a base spell, with underscores behind the first one -/
def digits? (base : Nat) (digits : List Char) : Option Nat :=
  match digits with
  | [] | '_' :: _ => none
  | _ => plain? base (digits.filter (· != '_'))

/-- a whole number without a sign -/
def unsigned? : List Char → Option Nat
  | '0' :: 'b' :: digits => digits? 2 digits
  | '0' :: 'o' :: digits => digits? 8 digits
  | '0' :: 'x' :: digits => digits? 16 digits
  | digits => digits? 10 digits

/-- splits off an optional sign; the flag is set by a minus -/
def splitSign : List Char → Bool × List Char
  | '-' :: rest => (true, rest)
  | '+' :: rest => (false, rest)
  | rest => (false, rest)

/-- drops the name of a type from the end of digits in base 2 or 10 -/
def dropType? (typeName : String) (text : List Char) : Option (List Char) :=
  let digits := text.takeWhile fun c => c == '_' || (digitIn? 16 c).isSome
  if text.drop digits.length = typeName.toList then some digits else none

/-- the integers from `-negative` to `positive` -/
structure Span where
  negative : Nat
  positive : Nat

namespace Span

/-- the integers without a sign, of the given width -/
def natural (bits : Nat) : Span := ⟨0, Nat.pow 2 bits - 1⟩

/-- the integers of the given width -/
def signed (bits : Nat) : Span := ⟨Nat.pow 2 (bits - 1), Nat.pow 2 (bits - 1) - 1⟩

def contains (s : Span) (minus : Bool) (n : Nat) : Bool :=
  if minus then n ≤ s.negative else n ≤ s.positive

end Span

/-- the digits of a whole number, which may have the name of its type behind them -/
def inType? (typeName : String) (span : Span) (text : List Char) : Option Nat := do
  let (minus, body) := splitSign text
  let n ← unsigned? ((dropType? typeName body).getD body)
  if span.contains minus n then some n else none

/-- a whole number of the given width; a minus is possible in front of zero -/
def natural? (bits : Nat) (text : List Char) : Option Nat :=
  inType? s!"u{bits}" (.natural bits) text

/-- the digits of a decimal without underscores, none of which may stand in front of a group of
digits -/
def joinDigits? : Bool → List Char → Option (List Char)
  | _, [] => some []
  | afterDigit, '_' :: rest => if afterDigit then joinDigits? true rest else none
  | afterDigit, c :: rest =>
    let afterDigit := c != '.' && (c.isDigit || c == 'e' || c == 'E' || afterDigit)
    (joinDigits? afterDigit rest).map (c :: ·)

/-- drops a text from the end, if it is there -/
def dropEnd (ending : String) (text : List Char) : List Char :=
  if ending.toList.isSuffixOf text then text.take (text.length - ending.length) else text

/-- a number in decimal, which may have the name of its type behind it; infinity and no number at
all are words -/
def decimal? (typeName : String) (text : List Char) : Option Figure :=
  let text := dropEnd typeName text
  match String.ofList text with
  | "inf" | "+inf" => some (.number (.infinity false))
  | "-inf" => some (.number (.infinity true))
  | "NaN" | "+NaN" => some (.number .nan)
  | "-NaN" => some .minusNaN
  | _ =>
    if text.all fun c => c.isDigit || "eE.+-_".toList.contains c then
      ((joinDigits? false text).bind Binary.read?).map .number
    else none

def figure? (text : List Char) : Option Figure := decimal? "f32" text

/-- the types of whole numbers and what they hold -/
def wholeTypes : List (String × Span) :=
  [8, 16, 32, 64].flatMap fun bits =>
    [(s!"i{bits}", .signed bits), (s!"u{bits}", .natural bits)]

/-- the whole numbers that some type holds -/
def anySpan : Span := ⟨Nat.pow 2 63, Nat.pow 2 64 - 1⟩

/-- a whole number of any type.  In decimal one that no type holds is a number all the same, as a
floating one -/
def isWhole (text : List Char) : Bool :=
  let (_, body) := splitSign text
  wholeTypes.any (fun (typeName, span) =>
      (dropType? typeName body).isSome && (inType? typeName span text).isSome)
    || (inType? "" anySpan text).isSome

def isNumber (text : List Char) : Bool :=
  isWhole text || (decimal? "f32" text).isSome || (decimal? "f64" text).isSome

end Written

end Dataflow
