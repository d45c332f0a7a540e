/-!
# Log lines

What an operation has to say beside its result, in the order in which it was said.

* `LogLine.text`     the line as it is written;
* `LogLine.visible`  the line for a terminal, without commands in it
                     (`isCommand_of_mem_visibleChar`).
-/

namespace Dataflow

/-- how grave a log line is -/
inductive Level where
  | debug
  | info
  | warn
  | error
deriving DecidableEq, Repr

def Level.text : Level → String
  | .debug => "DEBUG"
  | .info => "INFO"
  | .warn => "WARN"
  | .error => "ERROR"

structure LogLine where
  level : Level
  message : String
deriving DecidableEq, Repr

namespace LogLine

def text (line : LogLine) : String := line.level.text ++ " " ++ line.message

/-- the characters that begin or make a command of a terminal -/
def isCommand (c : Char) : Bool :=
  ['\x07', '\x08', '\x0c', '\x1b', '\x7f'].contains c || ('\u0080' ≤ c && c ≤ '\u009f')

/-- the digits of a number below 256 in base 16 -/
def hexByte (n : Nat) : List Char := [Nat.digitChar (n / 16), Nat.digitChar (n % 16)]

/-- what stands for a character: commands are written out by their code points, in braces where they
are no ASCII; all else is left alone -/
def visibleChar (c : Char) : List Char :=
  if !isCommand c then [c]
  else if c.toNat < 0x80 then '\\' :: 'x' :: hexByte c.toNat
  else ['\\', 'u', '\x7b'] ++ hexByte c.toNat ++ ['\x7d']

def visible (line : LogLine) : LogLine :=
  { line with message := String.ofList (line.message.toList.flatMap visibleChar) }

theorem isCommand_digitChar : ∀ d < 16, isCommand (Nat.digitChar d) = false := by decide

theorem isCommand_hexByte {n : Nat} (h : n < 256) {c : Char} (hc : c ∈ hexByte n) :
    isCommand c = false := by
  simp only [hexByte, List.mem_cons, List.not_mem_nil, or_false] at hc
  rcases hc with rfl | rfl
  · exact isCommand_digitChar _ (by omega)
  · exact isCommand_digitChar _ (by omega)

theorem toNat_lt_of_isCommand {c : Char} (h : isCommand c = true) : c.toNat < 256 := by
  simp only [isCommand, Bool.or_eq_true, Bool.and_eq_true, decide_eq_true_eq,
    List.contains_iff_mem, List.mem_cons, List.not_mem_nil, or_false] at h
  rcases h with (rfl | rfl | rfl | rfl | rfl) | ⟨_, h⟩
  · decide
  · decide
  · decide
  · decide
  · decide
  · exact Nat.lt_of_le_of_lt (UInt32.le_iff_toNat_le.mp h) (by decide)

/-- nothing that stands for a character is a command -/
theorem isCommand_of_mem_visibleChar {c d : Char} (h : d ∈ visibleChar c) :
    isCommand d = false := by
  unfold visibleChar at h
  split at h
  · next hc =>
    rw [List.mem_singleton.mp h]
    simpa using hc
  · next hc =>
    have hn := toNat_lt_of_isCommand (by simpa using hc)
    split at h
    · simp only [List.mem_cons] at h
      rcases h with rfl | rfl | h
      · decide
      · decide
      · exact isCommand_hexByte hn h
    · simp only [List.mem_append, List.mem_cons, List.not_mem_nil, or_false] at h
      rcases h with ((rfl | rfl | rfl) | h) | rfl
      · decide
      · decide
      · decide
      · exact isCommand_hexByte hn h
      · decide

end LogLine

end Dataflow
