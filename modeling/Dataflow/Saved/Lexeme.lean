import Dataflow.Text.Letter
import Dataflow.Text.Quoted

/-!
# Lexemes of the saved form

* `Lexeme`      words, numbers, strings, braces and colons;
* `Placed`      a lexeme with the line it stands on;
* `LoadFault`   why a saved text cannot be loaded;
* `lexemes`     cuts a text into lexemes.

White space separates lexemes, and a `#` hides the rest of its line.  A number begins with a digit,
a sign or a point and goes on through ASCII letters and digits, signs and points; whether it is one
is found out where it is used.
-/

namespace Dataflow.Saved

inductive Lexeme where
  | word (text : String)
  | number (text : String)
  /-- a quoted string, without its quotes and escapes -/
  | string (text : String)
  | openBrace
  | closeBrace
  | colon
deriving DecidableEq, Repr

/-- a lexeme as messages show it -/
def Lexeme.shown : Lexeme → String
  | .word text | .number text => "'" ++ text ++ "'"
  | .string text => Text.quote text
  | .openBrace => "'\x7b'"
  | .closeBrace => "'\x7d'"
  | .colon => "':'"

/-- a lexeme and its line, the first line being 1 -/
structure Placed where
  lexeme : Lexeme
  line : Nat
deriving DecidableEq, Repr

/-- what a saved text asks for where it found something else -/
inductive Missing where
  | tag
  | value
  | colonOrBlock
deriving DecidableEq, Repr

def Missing.text : Missing → String
  | .tag => "a tag"
  | .value => "a value"
  | .colonOrBlock => "':' or '\x7b'"

/-- why a saved text cannot be loaded -/
inductive LoadFault where
  | unexpectedCharacter (line : Nat) (c : Char)
  | unexpectedLexeme (line : Nat) (found : Lexeme) (missing : Missing)
  | unterminatedString (line : Nat)
  | unexpectedEnd
  | invalidNumber (line : Nat) (text : String)
  /-- zero, or above the largest node number -/
  | invalidNodeId (line : Nat) (id : Nat)
  | missingNodeId (line : Nat)
  /-- a block where a value belongs, or the reverse -/
  | wrongContent (line : Nat) (tag : String)
  | missingDiagram
deriving DecidableEq, Repr

namespace LoadFault

def message : LoadFault → String
  | .unexpectedCharacter line c => s!"line {line}: unexpected '{c}', expected {Missing.tag.text}"
  | .unexpectedLexeme line found missing =>
    s!"line {line}: unexpected {found.shown}, expected {missing.text}"
  | .unterminatedString line => s!"line {line}: unterminated string"
  | .unexpectedEnd => "unexpected end of file"
  | .invalidNumber line text => s!"line {line}: invalid number '{text}'"
  | .invalidNodeId line id => s!"line {line}: invalid node id {id}"
  | .missingNodeId line => s!"line {line}: node has no id"
  | .wrongContent line tag => s!"line {line}: '{tag}' has the wrong kind of value"
  | .missingDiagram => "no diagram block found"

end LoadFault

def isNumberStart (c : Char) : Bool := c.isDigit || c == '-' || c == '+' || c == '.'

def isNumberPart (c : Char) : Bool := c.isAlphanum || c == '-' || c == '+' || c == '.'

/-- the lexemes that are a single character -/
def single? (c : Char) : Option Lexeme :=
  if c = '\x7b' then some .openBrace
  else if c = '\x7d' then some .closeBrace
  else if c = ':' then some .colon
  else none

/-- puts a lexeme in front of what the rest of the text gives -/
def cons (line : Nat) (lexeme : Lexeme) (later : Except LoadFault (List Placed)) :
    Except LoadFault (List Placed) :=
  later.map (⟨lexeme, line⟩ :: ·)

/-- the lexemes of a text that begins on the given line.  A newline counts where it separates
lexemes; one that follows a backslash inside a string does not -/
def lexFrom (line : Nat) : List Char → Except LoadFault (List Placed)
  | [] => .ok []
  | c :: rest =>
    if c = '\n' then lexFrom (line + 1) rest
    else if Text.isBlank c then lexFrom line rest
    else if c = '#' then lexFrom line (rest.dropWhile (· != '\n'))
    else if c = '"' then
      match _h : Text.readQuoted? rest with
      | some (text, rest) => cons line (.string (String.ofList text)) (lexFrom line rest)
      | none => .error (.unterminatedString line)
    else match single? c with
      | some lexeme => cons line lexeme (lexFrom line rest)
      | none =>
        if isNumberStart c then
          cons line (.number (String.ofList (c :: rest.takeWhile isNumberPart)))
            (lexFrom line (rest.dropWhile isNumberPart))
        else if Text.isWordStart c then
          cons line (.word (String.ofList (c :: rest.takeWhile Text.isWordPart)))
            (lexFrom line (rest.dropWhile Text.isWordPart))
        else .error (.unexpectedCharacter line c)
termination_by text => text.length
decreasing_by
  all_goals simp only [List.length_cons]
  · exact Nat.lt_succ_self _
  · exact Nat.lt_succ_self _
  · exact Nat.lt_succ_of_le (List.dropWhile_suffix _).length_le
  · exact Nat.lt_succ_of_lt (Text.length_readQuoted? _h)
  · exact Nat.lt_succ_self _
  · exact Nat.lt_succ_of_le (List.dropWhile_suffix _).length_le
  · exact Nat.lt_succ_of_le (List.dropWhile_suffix _).length_le

def lexemes (text : String) : Except LoadFault (List Placed) := lexFrom 1 text.toList

end Dataflow.Saved
