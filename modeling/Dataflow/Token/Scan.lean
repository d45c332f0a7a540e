import Dataflow.Fault
import Dataflow.Text.Blank
import Dataflow.Text.Name

/-!
# Tokens of a statement text

`Token.scan` cuts a text into tokens: the longest run of digits, the longest name, a string up to
the next quote, or a single mark; white space, newlines included, separates tokens and is dropped.
The list ends with `finish`.  The scan fails at a quote that is not closed and at a character that
begins no token.
-/

namespace Dataflow.Token

/-- puts a token in front of what the rest of the text gives -/
def cons (t : Token) (tokens : Except Fault (List Token)) : Except Fault (List Token) :=
  tokens.map (t :: ·)

def scanChars : List Char → Except Fault (List Token)
  | [] => .ok [.finish]
  | c :: rest =>
    if Text.isBlank c then scanChars rest
    else if c.isDigit then
      cons (.number (String.ofList (c :: rest.takeWhile Char.isDigit)))
        (scanChars (rest.dropWhile Char.isDigit))
    else if Text.isNameStart c then
      cons (.name (String.ofList (c :: rest.takeWhile Text.isNamePart)))
        (scanChars (rest.dropWhile Text.isNamePart))
    else if c = '"' then
      match _h : rest.dropWhile (· != '"') with
      | [] => .error .unterminatedString
      | _ :: after =>
        cons (.string (String.ofList (rest.takeWhile (· != '"')))) (scanChars after)
    else match Mark.ofChar? c with
      | some m => cons (.mark m) (scanChars rest)
      | none => .error (.unexpectedCharacter c)
termination_by text => text.length
decreasing_by
  all_goals simp only [List.length_cons]
  · exact Nat.lt_succ_self _
  · exact Nat.lt_succ_of_le (List.dropWhile_suffix _).length_le
  · exact Nat.lt_succ_of_le (List.dropWhile_suffix _).length_le
  · have h := (List.dropWhile_suffix (· != '"') (l := rest)).length_le
    simp_all only [List.length_cons]
    omega
  · exact Nat.lt_succ_self _

/-- the tokens of a statement text -/
def scan (text : String) : Except Fault (List Token) := scanChars text.toList

theorem scanChars_nil : scanChars [] = .ok [.finish] := by simp [scanChars]

end Dataflow.Token
