/-!
# Commands

`Command.read?` reads the words of a command line.

    run FILE [--config PATH] [--expect TYPE] [--json]     check FILE
    fmt FILE [--write]                                    init-config [PATH]
    watch FILE [--config PATH] [--expect TYPE]            --version, --help

Options may stand before or behind the file, each at most once, their values as the next word or
after an equals sign.  After `--` every word is a file.  A word that begins with a minus is an
option, except a lone minus, and no value as a word of its own.  A path has at least one character.

The words are read from the left, and what asks for help or for the version ends the reading: words
behind it can no longer be wrong.  `-h` and `-V` may have anything behind them in their word.
-/

namespace Dataflow

/-- what is to be done -/
inductive Command where
  /-- evaluates a diagram once -/
  | run (file : String) (config expect : Option String) (json : Bool)
  /-- looks for malformed statements -/
  | check (file : String)
  /-- writes a diagram in its saved form, over the file or to the output -/
  | format (file : String) (overwrite : Bool)
  /-- evaluates a diagram again whenever its file changes -/
  | watch (file : String) (config expect : Option String)
  /-- writes the standard settings -/
  | writeSettings (path : String)
  | version
  | help
deriving DecidableEq, Repr

namespace Command

/-- the file with settings that is looked up next to a diagram -/
def settingsFile : String := "charmap.ron"

/-- the options of a command by what follows them -/
structure Options where
  /-- those with a path -/
  paths : List String
  /-- those with a text -/
  texts : List String
  /-- those with nothing -/
  plain : List String

/-- the words of a command -/
structure Words where
  file : Option String
  values : List (String × String)
  switches : List String

namespace Words

def none : Words := ⟨.none, [], []⟩

def setFile (w : Words) (path : String) : Option Words :=
  if path = "" ∨ w.file.isSome then .none else some { w with file := some path }

def setValue (w : Words) (name value : String) : Option Words :=
  if (w.values.lookup name).isSome then .none
  else some { w with values := (name, value) :: w.values }

def setSwitch (w : Words) (name : String) : Option Words :=
  if w.switches.contains name then .none else some { w with switches := name :: w.switches }

def value? (w : Words) (name : String) : Option String := w.values.lookup name

end Words

/-- whether a word asks for help -/
def isHelp (word : String) : Bool := word == "--help" || word.startsWith "-h"

/-- whether a word asks for the version -/
def isVersion (word : String) : Bool := word == "--version" || word.startsWith "-V"

/-- whether a word is an option -/
def isOption (word : String) : Bool := word.startsWith "-" && word != "-"

/-- splits a word at its first equals sign -/
def splitValue (word : String) : String × Option String :=
  let chars := word.toList
  let name := String.ofList (chars.takeWhile (· != '='))
  match chars.dropWhile (· != '=') with
  | [] => (name, none)
  | _ :: value => (name, some (String.ofList value))

/-- the words of a command, or `help` where that is asked for -/
inductive Asked where
  | words (w : Words)
  | help

/-- reads the words behind the name of a command -/
def readWords (o : Options) (w : Words) : List String → Option Asked
  | [] => some (.words w)
  | word :: rest =>
    if word = "--" then (rest.foldlM Words.setFile w).map .words
    else if isHelp word then some .help
    else if !isOption word then (w.setFile word).bind fun w => readWords o w rest
    else
      let (name, value?) := splitValue word
      if o.plain.contains name && value?.isNone then
        (w.setSwitch name).bind fun w => readWords o w rest
      else if o.texts.contains name || o.paths.contains name then
        match value?, rest with
        | some value, rest =>
          if value = "" ∧ o.paths.contains name then none
          else (w.setValue name value).bind fun w => readWords o w rest
        | none, value :: rest =>
          if isOption value ∨ value = "" ∧ o.paths.contains name then none
          else (w.setValue name value).bind fun w => readWords o w rest
        | none, [] => none
      else none

/-- the options of a command by name, and the command that its words ask for -/
def named? : String → Option (Options × (Words → Option Command))
  | "run" => some (⟨["--config"], ["--expect"], ["--json"]⟩, fun w => do
    return .run (← w.file) (w.value? "--config") (w.value? "--expect")
      (w.switches.contains "--json"))
  | "check" => some (⟨[], [], []⟩, fun w => do return .check (← w.file))
  | "fmt" => some (⟨[], [], ["--write"]⟩, fun w => do
    return .format (← w.file) (w.switches.contains "--write"))
  | "watch" => some (⟨["--config"], ["--expect"], []⟩, fun w => do
    return .watch (← w.file) (w.value? "--config") (w.value? "--expect"))
  | "init-config" => some (⟨[], [], []⟩, fun w => some (.writeSettings (w.file.getD settingsFile)))
  | _ => none

/-- reads the words of a command line -/
def read? : List String → Option Command
  | [] => none
  | word :: rest =>
    if isVersion word then some .version
    else if isHelp word then some .help
    else if word = "help" then
      match rest with
      | [] | ["help"] => some .help
      | [name] => (named? name).map fun _ => .help
      | _ => none
    else do
      let (options, command) ← named? word
      match ← readWords options .none rest with
      | .help => return .help
      | .words w => command w

end Command

end Dataflow
