import Dataflow.Token

/-!
# Faults of statements

What can go wrong with a statement, from its text to its effect on the host.

* `Fault`           the causes;
* `Fault.kind`      malformed text, a text that cannot be evaluated, a refusal by the host, a cycle;
* `Fault.message`   the diagnostic shown against the lines of the statement.
-/

namespace Dataflow

/-- the arithmetic operators -/
inductive Sign where
  | plus
  | minus
  | times
  | over
deriving DecidableEq, Repr

def Sign.char : Sign → Char
  | .plus => '+'
  | .minus => '-'
  | .times => '*'
  | .over => '/'

/-- what the grammar asks for where it found something else -/
inductive Wanted where
  | expression
  | memberName
deriving DecidableEq, Repr

def Wanted.text : Wanted → String
  | .expression => "an expression"
  | .memberName => "a member name"

/-- why a statement failed -/
inductive Fault where
  | unexpectedToken (found : Token) (wanted : Wanted)
  | missingCloseParen
  | missingCloseBracket
  | unexpectedEnd
  | unterminatedString
  | unexpectedCharacter (c : Char)
  | nestingTooDeep (limit : Nat)
  | trailingInput (found : Token)
  | unknownIdentifier (name : String)
  | unknownMember (typeName member : String)
  | invalidOperands (sign : Sign) (left right : String)
  | vectorLengthMismatch (left right : Nat)
  | nonFloatVectorElement (sign : Sign)
  | missingParameter (className parameter : String)
  | unknownParameter (className parameter : String)
  | positionalConstruction (className : String)
  | duplicateArgument (name : String)
  | namedArgumentsNotAccepted
  | wrongArgumentCount (expected found : Nat)
  | notCallable (typeName : String)
  | noMoreInputs
  | inputRejected
  /-- a failure that a function of the host reports in its own words -/
  | host (message : String)
  | returnTypeMismatch (expected found : String)
  | returnNotAccepted
  | cyclicDependency
deriving DecidableEq, Repr

/-- the sort of a fault -/
inductive FaultKind where
  | parse
  | semantic
  | host
  | cycle
deriving DecidableEq, Repr

namespace Fault

def kind : Fault → FaultKind
  | .unexpectedToken .. | .missingCloseParen | .missingCloseBracket | .unexpectedEnd
  | .unterminatedString | .unexpectedCharacter _ | .nestingTooDeep _ | .trailingInput _ => .parse
  | .returnTypeMismatch .. | .returnNotAccepted => .host
  | .cyclicDependency => .cycle
  | _ => .semantic

def message : Fault → String
  | .unexpectedToken found wanted => s!"Unexpected '{found.shown}', expected {wanted.text}"
  | .missingCloseParen => "Missing ')'"
  | .missingCloseBracket => "Missing ']'"
  | .unexpectedEnd => "Unexpected end of input"
  | .unterminatedString => "Unterminated string literal"
  | .unexpectedCharacter c => s!"Unexpected character '{c}'"
  | .nestingTooDeep limit => s!"Expression nested deeper than {limit} levels"
  | .trailingInput found => s!"Unexpected '{found.shown}' after end of expression"
  | .unknownIdentifier name => s!"Unknown identifier '{name}'"
  | .unknownMember typeName member => s!"{typeName} has no member '{member}'"
  | .invalidOperands sign left right => s!"Cannot apply '{sign.char}' to {left} and {right}"
  | .vectorLengthMismatch left right => s!"Vector lengths differ ({left} vs {right})"
  | .nonFloatVectorElement sign => s!"Operator '{sign.char}' requires vectors of floats"
  | .missingParameter className parameter => s!"{className} requires parameter '{parameter}'"
  | .unknownParameter className parameter => s!"{className} has no parameter '{parameter}'"
  | .positionalConstruction className => s!"Arguments to {className} must be named"
  | .duplicateArgument name => s!"Duplicate argument '{name}'"
  | .namedArgumentsNotAccepted => "Function does not accept named arguments"
  | .wrongArgumentCount expected found => s!"Expected {expected} argument(s), got {found}"
  | .notCallable typeName => s!"Cannot call a value of type {typeName}"
  | .noMoreInputs => "No more inputs"
  | .inputRejected => "Inputs are not available here"
  | .host message => message
  | .returnTypeMismatch expected found => s!"Return type mismatch: expected {expected}, got {found}"
  | .returnNotAccepted => "Return is not accepted here"
  | .cyclicDependency => "Cyclic dependency detected"

end Fault

end Dataflow
