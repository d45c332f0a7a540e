/-!
# Tokens of the expression language

* `Mark`          the single-character tokens;
* `Token`         what a statement is made of, `finish` being the end of it;
* `Token.shown`   a token as messages show it.
-/

namespace Dataflow

/-- the single-character tokens -/
inductive Mark where
  | dollar
  | openParen
  | closeParen
  | openBracket
  | closeBracket
  | comma
  | dot
  | plus
  | minus
  | star
  | slash
  | equals
deriving DecidableEq, Repr

namespace Mark

def char : Mark → Char
  | .dollar => '$'
  | .openParen => '('
  | .closeParen => ')'
  | .openBracket => '['
  | .closeBracket => ']'
  | .comma => ','
  | .dot => '.'
  | .plus => '+'
  | .minus => '-'
  | .star => '*'
  | .slash => '/'
  | .equals => '='

def ofChar? : Char → Option Mark
  | '$' => some .dollar
  | '(' => some .openParen
  | ')' => some .closeParen
  | '[' => some .openBracket
  | ']' => some .closeBracket
  | ',' => some .comma
  | '.' => some .dot
  | '+' => some .plus
  | '-' => some .minus
  | '*' => some .star
  | '/' => some .slash
  | '=' => some .equals
  | _ => none

theorem ofChar?_char (m : Mark) : ofChar? m.char = some m := by cases m <;> rfl

theorem char_of_ofChar? {c : Char} {m : Mark} (h : ofChar? c = some m) : m.char = c := by
  unfold ofChar? at h
  split at h <;> first | (obtain rfl := Option.some.inj h; rfl) | cases h

end Mark

/-- a token of a statement -/
inductive Token where
  /-- an unsigned run of decimal digits -/
  | number (digits : String)
  | name (text : String)
  /-- a string literal, without its quotes -/
  | string (text : String)
  | mark (m : Mark)
  /-- the end of the statement -/
  | finish
deriving DecidableEq, Repr

namespace Token

/-- the source text; of a string literal what stands between the quotes -/
def text : Token → String
  | .number digits => digits
  | .name text => text
  | .string text => text
  | .mark m => m.char.toString
  | .finish => ""

def shown : Token → String
  | .string text => "\"" ++ text ++ "\""
  | .finish => "end of input"
  | t => t.text

end Token

end Dataflow
