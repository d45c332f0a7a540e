import Dataflow.Settings
import Dataflow.Settings.Term
import Dataflow.Text.Hidden

/-!
# Saving settings

* `Term.text`       the written form of a term: a list, a map or named fields have one entry a line
                    with a comma behind it, every level indented by four more blanks, while items in
                    parentheses stay on their line;
* `Settings.term`   settings as a term;
* `Settings.save`   the written form of settings.

In strings quotes and backslashes are escaped, and so is what does not show by itself.
-/

namespace Dataflow

namespace Term

/-- a character of a string -/
def escape (c : Char) : List Char :=
  if c = '"' then ['\\', '"']
  else if c = '\'' then ['\\', '\'']
  else if c = '\\' then ['\\', '\\']
  else if c = '\n' then ['\\', 'n']
  else if c = '\r' then ['\\', 'r']
  else if c = '\t' then ['\\', 't']
  else if c = '\x00' then ['\\', '0']
  else if Text.isHidden c then ['\\', 'u', '\x7b'] ++ Nat.toDigits 16 c.toNat ++ ['\x7d']
  else [c]

def quote (text : String) : String :=
  "\"" ++ String.ofList (text.toList.flatMap escape) ++ "\""

/-- brackets around entries that stand on lines of their own -/
def enclose (opening closing : String) (depth : Nat) (entries : List String) : String :=
  let indent (depth : Nat) : String := String.ofList (List.replicate (4 * depth) ' ')
  if entries = [] then opening ++ closing
  else
    opening ++ "\n" ++ String.join (entries.map fun entry => indent (depth + 1) ++ entry ++ ",\n")
      ++ indent depth ++ closing

mutual

/-- the text of a term that stands at a depth -/
def textAt (depth : Nat) : Term → String
  | .name text => text
  | .number text => text
  | .string text => quote text
  | .list items => enclose "[" "]" depth (itemTexts (depth + 1) items)
  | .map entries => enclose "\x7b" "\x7d" depth (entryTexts (depth + 1) entries)
  | .tuple label items =>
    label.getD "" ++ "(" ++ ", ".intercalate (itemTexts depth items) ++ ")"
  | .record label fields =>
    enclose (label.getD "" ++ "(") ")" depth (fieldTexts (depth + 1) fields)

def itemTexts (depth : Nat) : List Term → List String
  | [] => []
  | t :: rest => textAt depth t :: itemTexts depth rest

def entryTexts (depth : Nat) : List (Term × Term) → List String
  | [] => []
  | (key, t) :: rest => (textAt depth key ++ ": " ++ textAt depth t) :: entryTexts depth rest

def fieldTexts (depth : Nat) : List (String × Term) → List String
  | [] => []
  | (label, t) :: rest => (label ++ ": " ++ textAt depth t) :: fieldTexts depth rest

end

def text (t : Term) : String := textAt 0 t

/-- a number; one that is whole has a fraction of zero -/
def ofFigure : Figure → Term
  | .minusNaN => .number "-NaN"
  | .number x =>
    let chars := x.chars
    if x.isFinite && !chars.contains '.' then .number (String.ofList (chars ++ ['.', '0']))
    else .number (String.ofList chars)

def ofNat (n : Nat) : Term := .number (toString n)

/-- a value that may be left out -/
def ofOption {α : Type} (term : α → Term) : Option α → Term
  | none => .name "None"
  | some a => .tuple "Some" [term a]

/-- a map with strings for keys -/
def ofTable {α : Type} (term : α → Term) (entries : List (String × α)) : Term :=
  .map (entries.map fun (key, a) => (.string key, term a))

end Term

mutual

def Literal.term : Literal → Term
  | .float x => .tuple "Float" [.ofFigure x]
  | .string text => .tuple "String" [.string text]
  | .vector items => .tuple "Vector" [.list (Literal.terms items)]

def Literal.terms : List Literal → List Term
  | [] => []
  | l :: rest => Literal.term l :: Literal.terms rest

end

def ClassSetting.term (c : ClassSetting) : Term :=
  .record "ClassConfig"
    [("name", .string c.name), ("parameters", .ofTable (.ofOption Literal.term) c.parameters)]

def BodySetting.term (b : BodySetting) : Term :=
  .record "BodyConfig"
    [("position", .tuple none [.ofFigure b.x, .ofFigure b.y]), ("rotation", .ofFigure b.rotation)]

namespace Settings

def term (s : Settings) : Term :=
  .record "RunnerConfig"
    [("version", .ofNat s.version),
     ("expected_return_type", .ofOption .string s.expected),
     ("bindings", .ofTable Literal.term s.bindings),
     ("classes", .list (s.classes.map ClassSetting.term)),
     ("bodies", .ofTable BodySetting.term s.bodies),
     ("watch", .record "WatchConfig" [("debounce_ms", .ofNat s.debounce)])]

def save (s : Settings) : String := s.term.text

end Settings

end Dataflow
