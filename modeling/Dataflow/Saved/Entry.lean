import Dataflow.Saved.Lexeme

/-!
# Entries of the saved form

A saved text is a list of entries: a tag with a value (`tag: value`) or with a block of entries
(`tag { ... }`, also with a colon).

* `Entry`         an entry with the line of its tag;
* `Cursor.step`   takes one lexeme; a cursor holds the entries read so far in all open blocks;
* `entries`       reads all lexemes of a text.

A tag may be any word: what it means is decided later, so that entries unknown here are kept apart
and passed over as a whole.
-/

namespace Dataflow.Saved

/-- an entry; the line is that of its tag -/
inductive Entry where
  | scalar (tag : String) (line : Nat) (value : Lexeme)
  | block (tag : String) (line : Nat) (entries : List Entry)

namespace Entry

def tag : Entry → String
  | .scalar tag _ _ => tag
  | .block tag _ _ => tag

def line : Entry → Nat
  | .scalar _ line _ => line
  | .block _ line _ => line

end Entry

/-- an open block: its tag, and the entries before it in the block around it, the latest first -/
structure OpenBlock where
  tag : String
  line : Nat
  before : List Entry

/-- what may come next -/
inductive Phase where
  /-- a tag, or the end of a block -/
  | tag
  /-- a colon or a block -/
  | content (tag : String) (line : Nat)
  /-- a value or a block -/
  | value (tag : String) (line : Nat)

/-- the entries read so far, the latest first, and the blocks around them, the innermost first -/
structure Cursor where
  outer : List OpenBlock
  entries : List Entry
  phase : Phase

namespace Cursor

def start : Cursor := ⟨[], [], .tag⟩

/-- opens a block -/
def enter (c : Cursor) (tag : String) (line : Nat) : Cursor :=
  ⟨⟨tag, line, c.entries⟩ :: c.outer, [], .tag⟩

def step (c : Cursor) (p : Placed) : Except LoadFault Cursor :=
  match c.phase with
  | .tag =>
    match p.lexeme, c.outer with
    | .word tag, _ => .ok { c with phase := .content tag p.line }
    | .closeBrace, b :: outer =>
      .ok ⟨outer, .block b.tag b.line c.entries.reverse :: b.before, .tag⟩
    | found, _ => .error (.unexpectedLexeme p.line found .tag)
  | .content tag line =>
    match p.lexeme with
    | .openBrace => .ok (c.enter tag line)
    | .colon => .ok { c with phase := .value tag line }
    | found => .error (.unexpectedLexeme (max p.line line) found .colonOrBlock)
  | .value tag line =>
    match p.lexeme with
    | .openBrace => .ok (c.enter tag line)
    | .closeBrace => .error (.unexpectedLexeme p.line .closeBrace .value)
    | .colon => .error (.unexpectedLexeme p.line .colon .value)
    | value => .ok ⟨c.outer, .scalar tag line value :: c.entries, .tag⟩

/-- the entries, if no block or entry is left open -/
def close (c : Cursor) : Except LoadFault (List Entry) :=
  match c.outer, c.phase with
  | [], .tag => .ok c.entries.reverse
  | _, _ => .error .unexpectedEnd

end Cursor

def entries (lexemes : List Placed) : Except LoadFault (List Entry) := do
  let c ← lexemes.foldlM Cursor.step .start
  c.close

end Dataflow.Saved
