/-!
# White space

* `isBlank`       the characters with the Unicode property White_Space;
* `trimStart`     drops the white space in front;
* `isBlankText`   nothing but white space.
-/

namespace Dataflow.Text

/-- a character lies in one of the ranges, whose ends are code points and belong to them -/
def inRanges (ranges : List (Nat × Nat)) (c : Char) : Bool :=
  ranges.any fun (first, last) => first ≤ c.toNat && c.toNat ≤ last

/-- the code points with the property White_Space -/
def blankRanges : List (Nat × Nat) :=
  [(0x9, 0xD), (0x20, 0x20), (0x85, 0x85), (0xA0, 0xA0), (0x1680, 0x1680), (0x2000, 0x200A),
   (0x2028, 0x2029), (0x202F, 0x202F), (0x205F, 0x205F), (0x3000, 0x3000)]

def isBlank (c : Char) : Bool := inRanges blankRanges c

def trimStart (text : List Char) : List Char := text.dropWhile isBlank

def isBlankText (text : List Char) : Bool := text.all isBlank

theorem isBlank_newline : isBlank '\n' = true := rfl

theorem isBlankText_iff {text : List Char} :
    isBlankText text = true ↔ ∀ c ∈ text, isBlank c = true :=
  List.all_eq_true

end Dataflow.Text
