import Dataflow.Command.Perform

/-!
# The program

Reads the words of the command line, performs the command on the files of the system, writes the
output and the log, and goes on watching where that is asked for.
-/

namespace Dataflow

namespace Console

/-- whether a system error has a number; some operations report it with a minus -/
def hasNumber (code number : UInt32) : Bool := code == number || code == 0 - number

/-- the cause that a failed operation reports, by its number where the kind alone does not tell -/
def fault : IO.Error → FileFault
  | .noFileOrDirectory .. => .missing
  | .inappropriateType _ code _ => if hasNumber code 20 then .notFolder else .folder
  | .invalidArgument path code text =>
    if hasNumber code 36 then .nameTooLong
    else .other (toString (IO.Error.invalidArgument path code text))
  | e => .other (toString e)

/-- the files of the system -/
def files : Files IO where
  read path := do
    try
      match String.fromUTF8? (← IO.FS.readBinFile path) with
      | some text => return .ok text
      | none => return .error .notText
    catch e => return .error (fault e)
  isFile path := do
    try
      let _ ← IO.FS.readBinFile path
      return true
    catch _ => return false
  write path text := do
    try
      IO.FS.writeFile path text
      return .ok ()
    catch e => return .error (fault e)

/-- writes what a command has to say -/
def publish (o : Outcome) : IO Unit := do
  let output ← IO.getStdout
  output.putStr o.printed
  output.flush
  for line in o.log do
    IO.eprintln line.text

/-- waits until the text of a file is another one -/
partial def awaitChange (path : String) (pause : UInt32) (text : Except FileFault String) :
    IO (Except FileFault String) := do
  IO.sleep pause
  let now ← files.read path
  match now, text with
  | .ok new, .ok old => if new = old then awaitChange path pause text else return now
  | .ok _, .error _ => return now
  | .error _, _ => awaitChange path pause text

/-- a pass after every change of a file -/
partial def keepWatching (s : Settings) (path : String) (expect : Option String) (number : Nat)
    (text : Except FileFault String) : IO Unit := do
  let text ← awaitChange path s.debounce.toUInt32 text
  publish (← Work.outcome do
    Work.watchPass files s path expect number
    return true)
  keepWatching s path expect (number + 1) text

/-- performs a command and goes on watching -/
def perform (c : Command) : IO UInt32 := do
  let o ← c.perform .standard files
  publish o
  if o.code = 0 then
    match c with
    | .watch path config expect =>
      let (settings, _) ← ((Work.findSettings .standard files config path).run.run ⟨"", []⟩ : IO _)
      keepWatching (settings.toOption.getD .standard) path expect 2 (← files.read path)
    | _ => return 0
  return o.code.toUInt32

end Console

end Dataflow

open Dataflow in
/-- the command line -/
def main (words : List String) : IO UInt32 := do
  match Command.read? words with
  | some c => Console.perform c
  | none =>
    IO.eprint Command.helpText
    return 2
