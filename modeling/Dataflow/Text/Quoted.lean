/-!
# Quoted strings

Between double quotes a quote, a backslash, a newline, a carriage return and a tab are written with
a backslash in front.

* `quote`         the written form;
* `readQuoted?`   reads up to the closing quote; what follows a backslash stands for itself
                  unless it is `n`, `r` or `t`, and a bare newline is not allowed;
* `readQuoted?_escaped`   reading gives back what was written.
-/

namespace Dataflow.Text

/-- a character between quotes -/
def escape (c : Char) : List Char :=
  if c = '"' then ['\\', '"']
  else if c = '\\' then ['\\', '\\']
  else if c = '\n' then ['\\', 'n']
  else if c = '\r' then ['\\', 'r']
  else if c = '\t' then ['\\', 't']
  else [c]

/-- what a character after a backslash stands for -/
def unescape (c : Char) : Char :=
  if c = 'n' then '\n' else if c = 'r' then '\r' else if c = 't' then '\t' else c

def quote (text : String) : String :=
  "\"" ++ String.ofList (text.toList.flatMap escape) ++ "\""

/-- reads on after an opening quote: the text up to the closing one, and what follows it -/
def readQuoted? : List Char → Option (List Char × List Char)
  | [] => none
  | [c] => if c = '"' then some ([], []) else none
  | c :: next :: rest =>
    if c = '"' then some ([], next :: rest)
    else if c = '\n' then none
    else if c = '\\' then (readQuoted? rest).map fun (text, rest) => (unescape next :: text, rest)
    else (readQuoted? (next :: rest)).map fun (text, rest) => (c :: text, rest)

theorem readQuoted?_quote (rest : List Char) : readQuoted? ('"' :: rest) = some ([], rest) := by
  cases rest <;> rfl

theorem readQuoted?_backslash (c : Char) (rest : List Char) :
    readQuoted? ('\\' :: c :: rest) =
      (readQuoted? rest).map fun (text, rest) => (unescape c :: text, rest) := rfl

theorem readQuoted?_plain {c : Char} (rest : List Char) (hq : c ≠ '"') (hb : c ≠ '\\')
    (hn : c ≠ '\n') :
    readQuoted? (c :: rest) = (readQuoted? rest).map fun (text, rest) => (c :: text, rest) := by
  cases rest with
  | nil => simp [readQuoted?, hq]
  | cons next rest => rw [readQuoted?, if_neg hq, if_neg hn, if_neg hb]

/-- one written character is read back in front of what the rest gives -/
theorem readQuoted?_escape (c : Char) (rest : List Char) :
    readQuoted? (escape c ++ rest) =
      (readQuoted? rest).map fun (text, rest) => (c :: text, rest) := by
  unfold escape
  split
  · next h => subst h; exact readQuoted?_backslash _ _
  · split
    · next h => subst h; exact readQuoted?_backslash _ _
    · split
      · next h => subst h; exact readQuoted?_backslash _ _
      · split
        · next h => subst h; exact readQuoted?_backslash _ _
        · split
          · next h => subst h; exact readQuoted?_backslash _ _
          · next hq hb hn _ _ => exact readQuoted?_plain _ hq hb hn

theorem readQuoted?_escaped (text rest : List Char) :
    readQuoted? (text.flatMap escape ++ '"' :: rest) = some (text, rest) := by
  induction text with
  | nil => exact readQuoted?_quote rest
  | cons c text ih =>
    rw [List.flatMap_cons, List.append_assoc, readQuoted?_escape, ih]
    rfl

theorem length_readQuoted? {text read rest : List Char} (h : readQuoted? text = some (read, rest)) :
    rest.length < text.length := by
  fun_induction readQuoted? text generalizing read with
  | case1 => cases h
  | case2 => cases h; simp
  | case3 => cases h
  | case4 => cases h; simp
  | case5 => cases h
  | case6 next tail _ _ ih =>
    obtain ⟨⟨a, b⟩, hab, heq⟩ := Option.map_eq_some_iff.mp h
    cases heq
    have := ih hab
    simp only [List.length_cons]
    omega
  | case7 c next tail _ _ _ ih =>
    obtain ⟨⟨a, b⟩, hab, heq⟩ := Option.map_eq_some_iff.mp h
    cases heq
    have := ih hab
    simp only [List.length_cons] at this ⊢
    omega

end Dataflow.Text
