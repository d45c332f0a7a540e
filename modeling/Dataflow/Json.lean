/-!
# JSON text

* `Json`          the values that reports are made of;
* `Json.pretty`   the text, one member or element a line, every level indented by two more blanks.

In strings a quote, a backslash and the control characters below the space are escaped, those with a
letter of their own by it and the others by four hexadecimal digits.
-/

namespace Dataflow

/-- a JSON value; numbers are natural, and members keep their order -/
inductive Json where
  | null
  | number (n : Nat)
  | string (text : String)
  | array (items : List Json)
  | object (members : List (String × Json))

namespace Json

/-- two hexadecimal digits -/
def hexByte (n : Nat) : List Char := [Nat.digitChar (n / 16), Nat.digitChar (n % 16)]

/-- a character of a string -/
def escape (c : Char) : List Char :=
  if c = '"' then ['\\', '"']
  else if c = '\\' then ['\\', '\\']
  else if c = '\n' then ['\\', 'n']
  else if c = '\r' then ['\\', 'r']
  else if c = '\t' then ['\\', 't']
  else if c = '\x08' then ['\\', 'b']
  else if c = '\x0c' then ['\\', 'f']
  else if c.toNat < 0x20 then ['\\', 'u', '0', '0'] ++ hexByte c.toNat
  else [c]

def quote (text : String) : String :=
  "\"" ++ String.ofList (text.toList.flatMap escape) ++ "\""

/-- the line break in front of a line at a depth -/
def newline (depth : Nat) : String := "\n" ++ String.ofList (List.replicate (2 * depth) ' ')

/-- brackets around parts that stand on lines of their own -/
def enclose (opening closing : String) (depth : Nat) (parts : List String) : String :=
  if parts = [] then opening ++ closing
  else
    opening ++ newline (depth + 1) ++ ("," ++ newline (depth + 1)).intercalate parts
      ++ newline depth ++ closing

mutual

/-- the text of a value that stands at a depth -/
def textAt (depth : Nat) : Json → String
  | .null => "null"
  | .number n => toString n
  | .string text => quote text
  | .array items => enclose "[" "]" depth (itemTexts (depth + 1) items)
  | .object members => enclose "\x7b" "\x7d" depth (memberTexts (depth + 1) members)

def itemTexts (depth : Nat) : List Json → List String
  | [] => []
  | item :: rest => textAt depth item :: itemTexts depth rest

def memberTexts (depth : Nat) : List (String × Json) → List String
  | [] => []
  | (name, item) :: rest => (quote name ++ ": " ++ textAt depth item) :: memberTexts depth rest

end

def pretty (j : Json) : String := textAt 0 j

end Json

end Dataflow
