import Dataflow.Value.Basic

/-!
# The text of a value

`Value.text` is the form in which values are shown.  A string stands for itself, and between quotes
inside another value, with nothing escaped.  An object shows its type and its members other than
functions.
-/

namespace Dataflow.Value

/-- strings are quoted inside another value -/
def quoteInside : Value → String → String
  | .string _, text => "\"" ++ text ++ "\""
  | _, text => text

/-- a type name and the texts of its members -/
def objectText (typeName : String) (members : List String) : String :=
  if members = [] then typeName ++ " \x7b\x7d"
  else typeName ++ " \x7b " ++ ", ".intercalate members ++ " \x7d"

mutual

def text : Value → String
  | .void => "void"
  | .float x => x.text
  | .string text => text
  | .vector items => "[" ++ ", ".intercalate (itemTexts items) ++ "]"
  | .record typeName fields => objectText typeName (fieldTexts fields)
  | .body b =>
    objectText "Body"
      ["position: [" ++ b.x.text ++ ", " ++ b.y.text ++ "]", "rotation: " ++ b.rotation.text]
  | .function _ => "<function>"
  | .classRef _ name _ => "<class " ++ name ++ ">"

def itemTexts : List Value → List String
  | [] => []
  | v :: rest => quoteInside v v.text :: itemTexts rest

def fieldTexts : List (String × Value) → List String
  | [] => []
  | (name, v) :: rest =>
    if v.isFunction then fieldTexts rest
    else (name ++ ": " ++ quoteInside v v.text) :: fieldTexts rest

end

end Dataflow.Value
