import Dataflow.Settings.Reading

/-!
# Values that no setting asks for

A field with an unknown name may have any value that is well formed.

* `Switches`         what the head of a text switches on;
* `Reading.content`  looks ahead at what stands in `Some(...)` where variants are unwrapped;
* `Reading.height`   passes over a value; the result is how many levels it takes;
* `Reading.ignore`   passes over a value with at most so many levels.

A value without brackets takes no level, and neither does `()`.  `Some(...)` takes a single one.
Where variants are unwrapped, several items or fields in `Some(...)` are a group of their own.
The words of values (`Some`, `true`) may be names of fields.
-/

namespace Dataflow

/-- what the head of a text switches on -/
structure Switches where
  /-- an optional value may stand without `Some` around it -/
  implicitSome : Bool
  /-- named fields have to have the name of their type in front -/
  explicitNames : Bool
  /-- what stands in `Some` needs no brackets of its own -/
  unwrapped : Bool

namespace Reading

/-- how many levels may stand inside each other -/
def maxLevels : Nat := 128

/-- a bracket with entries of the given heights -/
def around (heights : List Nat) : Nat := heights.foldl (fun most h => max most (h + 2)) 1

/-- the greater height of a key and a value -/
def tallest (heights : Nat × Nat) : Nat := max heights.1 heights.2

/-- fields up to the closing parenthesis: any names, and values with the given reading -/
def fields (inner : Reading Nat) : Reading (List Nat) :=
  entries ")" (Prod.snd <$> pair identifier inner)

/-- what stands in parentheses up to the closing one: fields if the first entry is one, or else
items -/
def members (inner : Reading Nat) : Reading (List Nat) := do
  blanks
  if startsField (← get) then fields inner else entries ")" inner

/-! ## unwrapped variants -/

/-- what stands in `Some(...)` where variants are unwrapped -/
inductive Content where
  | nothing
  /-- one item, perhaps with a comma behind it -/
  | single
  | items
  | fields
deriving DecidableEq

/-- after an item: whether its comma is the last of the parentheses -/
def afterItem : Reading Content := do
  expect ","
  blanks
  return if (← peek) = some ')' then .single else .items

/-- finds out whether there is a comma between the parentheses, at most one character in every turn,
given how many brackets are open inside.  Commas and brackets in quotes do not count, and what comes
directly behind a quote is no comment -/
def searchComma : List Char → Nat → Reading Content
  | [], _ => failure
  | _ :: turns, depth => do
    blanks
    attempt character
    attempt string
    attempt bytes
    if depth = 0 ∧ (← peek) = some ',' then afterItem
    else
      let c ← next
      if ['(', '[', '\x7b'].contains c then searchComma turns (depth + 1)
      else if [')', ']', '\x7d'].contains c then
        if depth = 0 then return .single else searchComma turns (depth - 1)
      else searchComma turns depth

/-- finds out what stands between parentheses.  A name in front tells by what follows it -/
def content : Reading Content := do
  if (← peek) = some ')' then return .nothing
  if (← name?).isSome then
    blanks
    match ← peek with
    | some ':' => return .fields
    | some ',' => return ← afterItem
    | some ')' => return .single
    | _ => pure ()
  searchComma (← get) 0

/-- an optional value after its `Some` -/
def afterSome (s : Switches) (inner : Reading Nat) : Reading Nat := do
  blanks
  if ← eat "(" then
    blanks
    match ← if s.unwrapped then lookAhead content else pure .single with
    | .nothing =>
      expect ")"
      return 1
    | .single =>
      let h ← inner
      comma
      expect ")"
      return h + 1
    | .items => return around (← entries ")" inner) + 1
    | .fields => return around (← fields inner) + 1
  else if s.implicitSome then return (← inner) + 1
  else failure

/-- parentheses behind a name, which may be missing -/
def afterName (inner : Reading Nat) : Reading Nat := do
  blanks
  if ← eat "(" then return around (← members inner)
  return 0

/-- whether a character begins a number -/
def beginsNumber (c : Char) : Bool := c.isDigit || c == '+' || c == '-' || c == '.'

/-- a value that is told by its first character -/
def plainHeight (inner : Reading Nat) : Reading Nat := do
  let text ← get
  match text with
  | '(' :: _ => afterName inner
  | '[' :: rest =>
    set rest
    return around (← entries "]" inner)
  | '\x7b' :: rest =>
    set rest
    return around (← entries "\x7d" (tallest <$> pair inner inner))
  | '"' :: _ | 'r' :: _ =>
    let _ ← string
    return 0
  | 'b' :: '\'' :: _ =>
    byte
    return 0
  | 'b' :: _ =>
    bytes
    return 0
  | '\'' :: _ =>
    character
    return 0
  | c :: _ =>
    if beginsNumber c && Written.isNumber (← run) then return 0 else failure
  | [] => failure

/-- words that are values -/
def valueWords : List String :=
  ["true", "false", "None", "inf", "inff32", "inff64", "NaN", "NaNf32", "NaNf64"]

/-- passes over a value with at most so many values inside each other -/
def heightWithin (s : Switches) : Nat → Reading Nat
  | 0 => failure
  | fuel + 1 => do
    let inner := heightWithin s fuel
    if ← oneOf valueWords then return 0
    if ← keyword "Some" then return ← afterSome s inner
    if ← eat "()" then return 0
    match ← name? with
    | some _ => afterName inner
    | none => plainHeight inner

/-- passes over a value; the result is how many levels it takes.  Every value inside another one
takes a level, so none may have more than so many inside each other -/
def height (s : Switches) : Reading Nat := heightWithin s maxLevels

def ignore (s : Switches) (levels : Nat) : Reading Unit := do
  if levels < (← height s) then failure

end Reading

end Dataflow
