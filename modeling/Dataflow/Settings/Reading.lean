import Dataflow.Settings.Number
import Dataflow.Text.Identifier

/-!
# Reading settings

A `Reading α` takes characters from the front of a text and fails, without a reason, at the first
that does not fit.

* `blanks`                  passes over white space and comments;
* `identifier`, `keyword`   a name, and a given one;
* `string`, `character`, `byte`, `bytes`   quoted text;
* `run`                     what a number is taken from;
* `entries`, `gather`       what stands in brackets, with commas between.

Every bracket is a level, and so is every entry inside one.  `deeper` counts them down.
-/

namespace Dataflow

/-- takes characters from the front of a text -/
abbrev Reading := StateT (List Char) Option

namespace Reading

variable {α β σ : Type}

/-! ## characters -/

/-- the next character, left where it is -/
def peek : Reading (Option Char) := do return (← get).head?

/-- the next character, if there is one -/
def next : Reading Char := do
  match ← get with
  | c :: rest =>
    set rest
    return c
  | [] => failure

/-- passes over a text if it comes next -/
def eat (text : String) : Reading Bool := do
  match text.toList.isPrefixOf? (← get) with
  | some rest =>
    set rest
    return true
  | none => return false

def expect (text : String) : Reading Unit := do
  unless ← eat text do failure

/-- the longest run of characters of a kind -/
def takeWhile (kind : Char → Bool) : Reading (List Char) := do
  let text ← get
  set (text.dropWhile kind)
  return text.takeWhile kind

/-- reads, and leaves everything where it is -/
def lookAhead (reading : Reading α) : Reading α := do
  let text ← get
  let a ← reading
  set text
  return a

/-- passes over what a reading takes, or over nothing if it fails -/
def attempt (reading : Reading α) : Reading Unit := fun text =>
  match reading text with
  | some (_, rest) => some ((), rest)
  | none => some ((), text)

/-! ## white space and comments -/

/-- white space between values -/
def isSpace (c : Char) : Bool :=
  Text.inRanges
    [(0x9, 0xD), (0x20, 0x20), (0x85, 0x85), (0x200E, 0x200F), (0x2028, 0x2029)] c

/-- what follows a comment with so many openings left to close -/
def afterComment? : Nat → List Char → Option (List Char)
  | 0, rest => some rest
  | _ + 1, [] => none
  | depth + 1, '*' :: '/' :: rest => afterComment? depth rest
  | depth + 1, '/' :: '*' :: rest => afterComment? (depth + 2) rest
  | depth + 1, _ :: rest => afterComment? (depth + 1) rest

theorem length_afterComment? {depth : Nat} {text rest : List Char}
    (h : afterComment? depth text = some rest) : rest.length ≤ text.length := by
  fun_induction afterComment? depth text with
  | case1 => cases h; exact Nat.le_refl _
  | case2 => cases h
  | case3 _ _ ih => exact Nat.le_succ_of_le (Nat.le_succ_of_le (ih h))
  | case4 _ _ ih => exact Nat.le_succ_of_le (Nat.le_succ_of_le (ih h))
  | case5 _ _ _ _ _ ih => exact Nat.le_succ_of_le (ih h)

/-- passes over white space and comments; a comment that is not closed stays where it is -/
def skipBlanks (text : List Char) : List Char :=
  match _h : text.dropWhile isSpace with
  | '/' :: '/' :: rest => skipBlanks (rest.dropWhile (· != '\n'))
  | '/' :: '*' :: rest =>
    match _h' : afterComment? 1 rest with
    | some after => skipBlanks after
    | none => '/' :: '*' :: rest
  | rest => rest
termination_by text.length
decreasing_by
  · have := (List.dropWhile_suffix isSpace (l := text)).length_le
    have := (List.dropWhile_suffix (· != '\n') (l := rest)).length_le
    simp only [_h, List.length_cons] at *
    omega
  · have := (List.dropWhile_suffix isSpace (l := text)).length_le
    have := length_afterComment? _h'
    simp only [_h, List.length_cons] at *
    omega

/-- passes over white space and comments; a slash that begins no comment is refused -/
def blanks : Reading Unit := do
  modify skipBlanks
  if (← peek) = some '/' then failure

/-- passes over a comma and what is blank around it -/
def comma : Reading Unit := do
  blanks
  let _ ← eat ","
  blanks

/-! ## names and numbers -/

/-- a character that may stand in a name after `r#` -/
def isRawPart (c : Char) : Bool := Text.isIdentifierPart c || c == '.' || c == '+' || c == '-'

/-- text that begins a string, a character or bytes although its first character is a letter -/
def startsQuote (text : List Char) : Bool :=
  ["r\"", "r#\"", "r##", "b\"", "b'", "br\"", "br#"].any fun mark => mark.toList.isPrefixOf text

/-- splits a name off the front of a text.  After `r#` it may have points and signs -/
def splitName? (text : List Char) : Option (List Char × List Char) :=
  if startsQuote text then none
  else match text with
    | 'r' :: '#' :: rest =>
      let name := rest.takeWhile isRawPart
      if name = [] then none else some (name, rest.drop name.length)
    | c :: rest =>
      if Text.isIdentifierStart c then
        let more := rest.takeWhile Text.isIdentifierPart
        some (c :: more, rest.drop more.length)
      else none
    | [] => none

def name? : Reading (Option String) := do
  match splitName? (← get) with
  | some (name, rest) =>
    set rest
    return some (String.ofList name)
  | none => return none

def identifier : Reading String := do
  match ← name? with
  | some name => return name
  | none => failure

def keyword (word : String) : Reading Bool := do
  match word.toList.isPrefixOf? (← get) with
  | some rest =>
    if rest.head?.any Text.isIdentifierPart then return false
    set rest
    return true
  | none => return false

/-- passes over one of some words -/
def oneOf : List String → Reading Bool
  | [] => return false
  | word :: rest => do if ← keyword word then return true else oneOf rest

def run : Reading (List Char) := takeWhile isRawPart

/-! ## quoted text -/

/-- what stands after a backslash: a byte, or a character by its code point -/
inductive Escape where
  | byte (b : UInt8)
  | unicode (c : Char)

/-- two digits in base 16 -/
def hexByte : Reading UInt8 := do
  let high ← next
  let low ← next
  return UInt8.ofNat (← Written.plain? 16 [high, low])

/-- a code point in braces, of one to six digits in base 16 -/
def codePoint : Reading Char := do
  expect "\x7b"
  let digits ← takeWhile (· != '\x7d')
  expect "\x7d"
  if digits.isEmpty || 6 < digits.length then failure
  let n ← Written.plain? 16 digits
  if Nat.isValidChar n then return Char.ofNat n else failure

def escape : Reading Escape := do
  match ← next with
  | 'n' => return .byte 10
  | 'r' => return .byte 13
  | 't' => return .byte 9
  | '0' => return .byte 0
  | 'x' => return .byte (← hexByte)
  | 'u' => return .unicode (← codePoint)
  | c => if c = '\'' ∨ c = '"' ∨ c = '\\' then return .byte (UInt8.ofNat c.toNat) else failure

/-- the character whose UTF-8 bytes are given.  Of the first byte the bits below its leading ones
count, of the others six bits -/
def charOfBytes? : List UInt8 → Option Char
  | [] => none
  | first :: rest =>
    let lead := first.toNat % Nat.pow 2 (6 - rest.length)
    let c := Char.ofNat (rest.foldl (fun n b => 64 * n + b.toNat % 64) lead)
    if String.utf8EncodeChar c = first :: rest then some c else none

/-- goes on with escaped bytes, at most so many, until they are a character -/
def charFrom : Nat → List UInt8 → Reading Char
  | 0, _ => failure
  | more + 1, bytes => do
    expect "\\x"
    let bytes := bytes ++ [← hexByte]
    match charOfBytes? bytes with
    | some c => return c
    | none => charFrom more bytes

/-- a character of a string after its backslash.  Bytes that are no ASCII have to form a character
together with the escaped bytes behind them -/
def escaped : Reading Char := do
  match ← escape with
  | .unicode c => return c
  | .byte b => if b < 128 then return Char.ofNat b.toNat else charFrom 3 [b]

/-- the characters up to a closing quote, at most one in every turn, given how to read what follows
a backslash -/
def quotedFrom (escaped : Reading α) (plain : Char → α) : List Char → Reading (List α)
  | [] => failure
  | _ :: turns => do
    match ← next with
    | '"' => return []
    | '\\' =>
      let a ← escaped
      return a :: (← quotedFrom escaped plain turns)
    | c => return plain c :: (← quotedFrom escaped plain turns)

/-- the characters up to a quote with the given marks behind it, and what follows -/
def rawFrom? (closing : List Char) : List Char → Option (List Char × List Char)
  | [] => none
  | c :: rest =>
    match closing.isPrefixOf? (c :: rest) with
    | some after => some ([], after)
    | none => (rawFrom? closing rest).map fun (text, after) => (c :: text, after)

/-- a text between quotes with equally many `#` around them, in which nothing is escaped -/
def raw : Reading String := do
  let marks ← takeWhile (· == '#')
  expect "\""
  let (text, after) ← rawFrom? ('"' :: marks) (← get)
  set after
  return String.ofList text

def string : Reading String := do
  if ← eat "\"" then return String.ofList (← quotedFrom escaped id (← get))
  expect "r"
  raw

def bytes : Reading Unit := do
  expect "b"
  if ← eat "\"" then
    let _ ← quotedFrom escape .unicode (← get)
  else
    expect "r"
    let _ ← raw

/-- a character, which nothing is made of; an escaped byte has to be ASCII -/
def character : Reading Unit := do
  expect "'"
  if (← next) = '\\' then
    match ← escape with
    | .unicode _ => pure ()
    | .byte b => if 128 ≤ b then failure
  expect "'"

def byte : Reading Unit := do
  expect "b'"
  let c ← next
  if c = '\\' then
    match ← escape with
    | .unicode _ => failure
    | .byte _ => pure ()
  else if 128 ≤ c.toNat then failure
  expect "'"

/-! ## entries in brackets -/

/-- entries with commas between them and perhaps one behind them, and the closing bracket.  An entry
takes at least one character, so the characters ahead bound the loop -/
def gatherFrom (closing : String) (entry : σ → Reading σ) : List Char → σ → Reading σ
  | [], _ => failure
  | _ :: turns, s => do
    blanks
    if ← eat closing then return s
    let s ← entry s
    blanks
    if ← eat "," then gatherFrom closing entry turns s
    else
      expect closing
      return s

def gather (closing : String) (entry : σ → Reading σ) (s : σ) : Reading σ := do
  gatherFrom closing entry (← get) s

def entries (closing : String) (entry : Reading α) : Reading (List α) :=
  List.reverse <$> gather closing (fun found => (· :: found) <$> entry) []

/-- the colon between a name and what it stands for -/
def colon : Reading Unit := do
  blanks
  expect ":"
  blanks

/-- two parts with a colon between them -/
def pair (first : Reading α) (second : Reading β) : Reading (α × β) := do
  let a ← first
  colon
  return (a, ← second)

/-- whether a name with a colon comes next -/
def startsField (text : List Char) : Bool :=
  match splitName? text with
  | some (_, rest) => (skipBlanks rest).head? = some ':'
  | none => false

/-- reads one level further in -/
def deeper (levels : Nat) (inner : Nat → Reading α) : Reading α :=
  match levels with
  | 0 => failure
  | levels + 1 => inner levels

end Reading

end Dataflow
