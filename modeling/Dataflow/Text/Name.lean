/-!
# Names

A name is a letter or underscore followed by letters, digits and underscores, all of them ASCII.

* `isNameStart`, `isNamePart`   the characters of a name;
* `leadingName?`                splits the longest name off the front of a text.
-/

namespace Dataflow.Text

def isNameStart (c : Char) : Bool := c.isAlpha || c == '_'

def isNamePart (c : Char) : Bool := c.isAlphanum || c == '_'

def leadingName? : List Char → Option (List Char × List Char)
  | [] => none
  | c :: rest =>
    if isNameStart c then some (c :: rest.takeWhile isNamePart, rest.dropWhile isNamePart) else none

theorem isNamePart_of_isNameStart {c : Char} (h : isNameStart c = true) : isNamePart c = true := by
  simp only [isNameStart, isNamePart, Char.isAlphanum, Bool.or_eq_true] at h ⊢
  exact h.imp Or.inl id

theorem leadingName?_append {text name rest : List Char}
    (h : leadingName? text = some (name, rest)) : name ++ rest = text := by
  cases text with
  | nil => simp [leadingName?] at h
  | cons c cs =>
    simp only [leadingName?] at h
    split at h
    · obtain ⟨rfl, rfl⟩ := Prod.mk.inj (Option.some.inj h)
      simp [List.takeWhile_append_dropWhile]
    · cases h

end Dataflow.Text
