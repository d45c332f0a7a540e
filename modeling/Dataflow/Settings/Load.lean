import Dataflow.Settings
import Dataflow.Settings.Ignored

/-!
# Loading settings

* `SettingsFault`       why settings cannot be used;
* `SettingsText.read?`  a whole text: switches (`#![enable(implicit_some)]`) and the settings;
* `Settings.loadBy`     reads settings from a text by some reader, `Settings.load` by this one.

Fields may come in any order, each at most once; those that are missing have their standard value
where there is one, and those that are unknown are passed over.  A key of a map that comes again has
its last value.

What may come next is told by what is asked for: `1` is a whole number or a float, and `NaN` is a
float or a name.  A reader that takes its levels as an argument counts its own brackets.
-/

namespace Dataflow

/-- why settings cannot be used -/
inductive SettingsFault where
  | malformed
  /-- of a version that is not known yet -/
  | newer (version : Nat)
deriving DecidableEq, Repr

def SettingsFault.message : SettingsFault → String
  | .malformed => "invalid config"
  | .newer version =>
    s!"config version {version} is newer than supported version {Settings.currentVersion}"

namespace SettingsText

open Reading

variable {α σ : Type}

/-! ## parts -/

/-- a whole number of the given width -/
def natural (bits : Nat) : Reading Nat := do Written.natural? bits (← run)

def figure : Reading Figure := do Written.figure? (← run)

/-- a value that may be left out -/
def optional (s : Switches) (levels : Nat) (item : Nat → Reading α) : Reading (Option α) := do
  if ← keyword "None" then return none
  let marked ← keyword "Some"
  if marked then blanks
  if ← pure marked <&&> eat "(" then
    blanks
    let a ← deeper levels item
    comma
    expect ")"
    return some a
  else if s.implicitSome then return some (← deeper levels item)
  else failure

def list (levels : Nat) (item : Nat → Reading α) : Reading (List α) := do
  expect "["
  deeper levels fun levels => entries "]" (deeper levels item)

/-- a map with strings for keys -/
def table (levels : Nat) (item : Nat → Reading α) : Reading (List (String × α)) := do
  expect "\x7b"
  let found ← deeper levels fun levels =>
    entries "\x7d" (pair (deeper levels fun _ => string) (deeper levels item))
  return Named.ofList found

/-- named fields, each of which makes something of a draft.  The name of the type may stand in front
of them -/
def record (s : Switches) (typeName : String) (levels : Nat)
    (field : σ → String → Nat → Reading σ) (draft : σ) : Reading σ := do
  if (← peek).any Text.isIdentifierPart then
    if (← identifier) ≠ typeName then failure
  else if s.explicitNames then failure
  blanks
  expect "("
  deeper levels fun levels =>
    gather ")" (fun draft => do
      let name ← deeper levels fun _ => identifier
      colon
      deeper levels (field draft name)) draft

/-- reads a field that was not there before -/
def once (before : Option α) (read : Reading α) : Reading (Option α) :=
  if before.isSome then failure else some <$> read

/-! ## values -/

/-- what a variant is made of, in parentheses -/
def payload (levels : Nat) (item : Nat → Reading α) : Reading α := do
  blanks
  expect "("
  blanks
  let a ← deeper levels item
  comma
  expect ")"
  return a

/-- a plain value, given how to read the items of a vector -/
def literalWith (levels : Nat) (items : Reading (List Literal)) : Reading Literal := do
  match ← deeper levels fun _ => identifier with
  | "Float" => return .float (← payload levels fun _ => figure)
  | "String" => return .string (← payload levels fun _ => string)
  | "Vector" => return .vector (← payload levels fun _ => items)
  | _ => failure

/-- a plain value: a level for the variant, one for what it is made of, and for a vector one for its
bracket and one for each item -/
def literal : Nat → Reading Literal
  | 0 => failure
  | levels + 4 => literalWith (levels + 3) (list (levels + 2) fun _ => literal levels)
  | levels + 1 => literalWith levels (list (levels - 1) fun _ => failure)

/-! ## structures -/

/-- a class that is being read -/
structure ClassDraft where
  name : Option String
  parameters : Option (List (String × Option Literal))

def classField (s : Switches) (draft : ClassDraft) (name : String) (levels : Nat) :
    Reading ClassDraft := do
  match name with
  | "name" => return { draft with name := ← once draft.name string }
  | "parameters" =>
    let read := table levels fun levels => optional s levels literal
    return { draft with parameters := ← once draft.parameters read }
  | _ =>
    ignore s levels
    return draft

def classSetting (s : Switches) (levels : Nat) : Reading ClassSetting := do
  let draft ← record s "ClassConfig" levels (classField s) ⟨none, none⟩
  return ⟨← draft.name, draft.parameters.getD []⟩

/-- a body that is being read -/
structure BodyDraft where
  position : Option (Figure × Figure)
  rotation : Option Figure

/-- two numbers in parentheses -/
def position (levels : Nat) : Reading (Figure × Figure) := do
  expect "("
  match ← deeper levels fun levels => entries ")" (deeper levels fun _ => figure) with
  | [x, y] => return (x, y)
  | _ => failure

def bodyField (s : Switches) (draft : BodyDraft) (name : String) (levels : Nat) :
    Reading BodyDraft := do
  match name with
  | "position" => return { draft with position := ← once draft.position (position levels) }
  | "rotation" => return { draft with rotation := ← once draft.rotation figure }
  | _ =>
    ignore s levels
    return draft

def bodySetting (s : Switches) (levels : Nat) : Reading BodySetting := do
  let draft ← record s "BodyConfig" levels (bodyField s) ⟨none, none⟩
  let (x, y) ← draft.position
  return ⟨x, y, draft.rotation.getD (.number (.zero false))⟩

def watchField (s : Switches) (draft : Option Nat) (name : String) (levels : Nat) :
    Reading (Option Nat) := do
  match name with
  | "debounce_ms" => once draft (natural 64)
  | _ =>
    ignore s levels
    return draft

/-- how long a watched file has to be quiet -/
def debounce (s : Switches) (levels : Nat) : Reading Nat := do
  return ← (← record s "WatchConfig" levels (watchField s) none)

/-- settings that are being read -/
structure Draft where
  version : Option Nat
  expected : Option (Option String)
  bindings : Option (List (String × Literal))
  classes : Option (List ClassSetting)
  bodies : Option (List (String × BodySetting))
  debounce : Option Nat

namespace Draft

def empty : Draft := ⟨none, none, none, none, none, none⟩

/-- what is missing is as in the standard settings -/
def settings (draft : Draft) : Settings :=
  let other := Settings.standard
  { version := draft.version.getD other.version
    expected := draft.expected.getD other.expected
    bindings := draft.bindings.getD other.bindings
    classes := draft.classes.getD other.classes
    bodies := draft.bodies.getD other.bodies
    debounce := draft.debounce.getD other.debounce }

end Draft

def field (s : Switches) (draft : Draft) (name : String) (levels : Nat) : Reading Draft := do
  match name with
  | "version" => return { draft with version := ← once draft.version (natural 32) }
  | "expected_return_type" =>
    let read := optional s levels fun _ => string
    return { draft with expected := ← once draft.expected read }
  | "bindings" => return { draft with bindings := ← once draft.bindings (table levels literal) }
  | "classes" =>
    let read := list levels (classSetting s)
    return { draft with classes := ← once draft.classes read }
  | "bodies" =>
    let read := table levels (bodySetting s)
    return { draft with bodies := ← once draft.bodies read }
  | "watch" => return { draft with debounce := ← once draft.debounce (debounce s levels) }
  | _ =>
    ignore s levels
    return draft

/-! ## whole texts -/

/-- steps with white space and comments after each of them -/
def expectAll : List String → Reading Unit
  | [] => return ()
  | text :: rest => do
    expect text
    blanks
    expectAll rest

/-- the names in a line of switches -/
def switchLine : Reading (List String) := do
  expectAll ["#", "!", "[", "enable", "("]
  let names ← entries ")" identifier
  blanks
  expectAll ["]"]
  if names.isEmpty then failure
  return names

/-- the lines of switches at the head of a text, at most one in every turn -/
def headFrom : List Char → Reading (List String)
  | [] => return []
  | _ :: turns => do
    if (← peek) = some '#' then return (← switchLine) ++ (← headFrom turns)
    return []

/-- the switches there are -/
def switchNames : List String :=
  ["implicit_some", "explicit_struct_names", "unwrap_newtypes", "unwrap_variant_newtypes"]

def switches : Reading Switches := do
  let names ← headFrom (← get)
  if names.any fun name => !switchNames.contains name then failure
  return ⟨names.contains "implicit_some", names.contains "explicit_struct_names",
    names.contains "unwrap_variant_newtypes"⟩

def reading : Reading Settings := do
  blanks
  let s ← switches
  let draft ← record s "RunnerConfig" maxLevels (field s) .empty
  blanks
  return draft.settings

def read? (text : String) : Option Settings :=
  match reading text.toList with
  | some (settings, []) => some settings
  | _ => none

end SettingsText

namespace Settings

/-- reads settings with a reader of their notation; those of a newer version are refused -/
def loadBy (read? : String → Option Settings) (text : String) : Except SettingsFault Settings :=
  match read? text with
  | none => .error .malformed
  | some s => if currentVersion < s.version then .error (.newer s.version) else .ok s

def load : String → Except SettingsFault Settings := loadBy SettingsText.read?

end Settings

end Dataflow
