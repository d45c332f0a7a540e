import Dataflow.Command
import Dataflow.Files
import Dataflow.Run
import Dataflow.Saved.Load
import Dataflow.Saved.Save
import Dataflow.Settings.Load
import Dataflow.Settings.Save

/-!
# Performing commands

* `Formats`           the notations that come from outside, of settings and of reports;
* `CommandFault`      what stops a command;
* `Outcome`           the exit code, the output and the log of a command;
* `Command.perform`   performs a command on the files of a monad.

Settings come from the file that the command names, or else from the settings file next to the
diagram, or else they are the standard ones.  They are read before the diagram, so of two bad files
the settings are reported.
-/

namespace Dataflow

/-- the notations of settings and of reports, which libraries read and write -/
structure Formats where
  readSettings : String → Option Settings
  writeSettings : Settings → String
  writeReport : Json → String

/-- those of the program -/
def Formats.standard : Formats := ⟨SettingsText.read?, Settings.save, Json.pretty⟩

/-- what stops a command -/
inductive CommandFault where
  | unreadable (path : String) (cause : FileFault)
  | unwritable (path : String) (cause : FileFault)
  | unloadable (path : String) (cause : Saved.LoadFault)
  | unusable (cause : SettingsFault)
deriving DecidableEq, Repr

def CommandFault.message : CommandFault → String
  | .unreadable path cause => s!"failed to read {path}: {cause.message}"
  | .unwritable path cause => s!"failed to write {path}: {cause.message}"
  | .unloadable path cause => s!"{path}: {cause.message}"
  | .unusable cause => cause.message

/-- what a command has said so far -/
structure Transcript where
  printed : String
  log : List LogLine

/-- the end of a command -/
structure Outcome where
  code : Nat
  printed : String
  /-- for a terminal, remarks aside -/
  log : List LogLine

/-- a part of a command -/
abbrev Work (m : Type → Type) : Type → Type := ExceptT CommandFault (StateT Transcript m)

namespace Work

variable {m : Type → Type} [Monad m]

def print (text : String) : Work m Unit :=
  modify fun t => { t with printed := t.printed ++ text }

def note (log : List LogLine) : Work m Unit := modify fun t => { t with log := t.log ++ log }

def say (level : Level) (message : String) : Work m Unit := note [⟨level, message⟩]

/-- reads a file -/
def read (files : Files m) (path : String) : Work m String := do
  match ← (files.read path : m _) with
  | .ok text => return text
  | .error cause => throw (.unreadable path cause)

def write (files : Files m) (path text : String) : Work m Unit := do
  match ← (files.write path text : m _) with
  | .ok () => return
  | .error cause => throw (.unwritable path cause)

def loadDiagram (files : Files m) (path : String) : Work m Diagram := do
  let loaded := Saved.load (← read files path)
  note loaded.log
  match loaded.result with
  | .ok d => return d
  | .error cause => throw (.unloadable path cause)

def loadSettings (formats : Formats) (files : Files m) (path : String) : Work m Settings := do
  match Settings.loadBy formats.readSettings (← read files path) with
  | .ok s => return s
  | .error cause => throw (.unusable cause)

/-- the settings for a diagram -/
def findSettings (formats : Formats) (files : Files m) (config : Option String)
    (diagram : String) : Work m Settings := do
  match config with
  | some path => loadSettings formats files path
  | none =>
    let path := Path.beside diagram Command.settingsFile
    if ← (files.isFile path : m _) then
      say .info s!"Using config {path}"
      loadSettings formats files path
    else return .standard

/-- a pass over a watched diagram -/
def watchPass (files : Files m) (s : Settings) (file : String) (expect : Option String)
    (number : Nat) : Work m Unit := do
  let r := (← loadDiagram files file).run s expect
  note r.log
  print s!"--- {file} (pass {number}) ---\n"
  print r.report.text
  if r.report.errorCount != 0 then say .warn s!"{r.report.errorCount} line(s) failed"

/-- what a piece of work comes to; the result of the work says whether it succeeded -/
def outcome (work : Work m Bool) : m Outcome := do
  let (result, t) ← work.run.run ⟨"", []⟩
  let (code, last) : Nat × List LogLine :=
    match result with
    | .ok true => (0, [])
    | .ok false => (1, [])
    | .error fault => (1, [⟨.error, fault.message⟩])
  let log := (t.log ++ last).filter (·.level != .debug)
  return ⟨code, t.printed, log.map LogLine.visible⟩

end Work

/-- the line that reports a malformed statement of a file -/
def Complaint.text (file : String) (c : Complaint) : String :=
  s!"{file}: node {c.id}, line {c.line}: {c.fault.message}\n"

namespace Command

open Work

variable {m : Type → Type} [Monad m]

/-- the name and the version of the program -/
def versionText : String := "charmap-diagram 0.1.0\n"

def helpText : String :=
  "Usage: charmap-diagram run FILE [--config PATH] [--expect TYPE] [--json]\n" ++
  "       charmap-diagram check FILE\n" ++
  "       charmap-diagram fmt FILE [--write]\n" ++
  "       charmap-diagram watch FILE [--config PATH] [--expect TYPE]\n" ++
  "       charmap-diagram init-config [PATH]\n"

/-- the work of a command -/
def work (formats : Formats) (files : Files m) : Command → Work m Bool
  | .run file config expect json => do
    let s ← findSettings formats files config file
    let r := (← loadDiagram files file).run s expect
    note r.log
    print (if json then formats.writeReport r.report.json ++ "\n" else r.report.text)
    if r.lacksValue then say .error "No value of the expected type was returned"
    return r.succeeds
  | .check file => do
    let d ← loadDiagram files file
    print (String.join (d.complaints.map (Complaint.text file)))
    if d.complaints.isEmpty then say .info s!"{file}: {d.nodeCount} node(s) ok"
    return d.complaints.isEmpty
  | .format file overwrite => do
    let text := Saved.save (← loadDiagram files file)
    if overwrite then
      write files file text
      say .info s!"Formatted {file}"
    else print text
    return true
  | .watch file config expect => do
    let s ← findSettings formats files config file
    watchPass files s file expect 1
    return true
  | .writeSettings path => do
    write files path (formats.writeSettings .standard)
    say .info s!"Wrote {path}"
    return true
  | .version => do
    print versionText
    return true
  | .help => do
    print helpText
    return true

def perform (formats : Formats) (files : Files m) (c : Command) : m Outcome :=
  (c.work formats files).outcome

/-- performs the words of a command line; words that are no command have exit code 2 -/
def performWords (formats : Formats) (files : Files m) (words : List String) : m Outcome :=
  match read? words with
  | some c => c.perform formats files
  | none => return ⟨2, "", []⟩

end Command

end Dataflow
