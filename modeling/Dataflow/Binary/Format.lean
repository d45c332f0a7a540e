/-!
# Binary floating formats: grids of magnitudes and rounding to the nearest

A binary format has finitely many magnitudes.  They are listed in ascending order, and a magnitude
is its RANK in that list:

* `Format.top`      the rank of infinity, the last one;
* `Format.scaled`   what a finite rank stands for, counted in the smallest positive magnitude
                    (`2 ^ -unitBits`), so that every finite magnitude is a natural number;
* `Format.nearest`  the rank nearest to a ratio of natural numbers in the same unit, a tie going
                    to the even rank.

Ranks below `2 ^ (fractionBits + 1)` are their own magnitude; after that every further block of
`2 ^ fractionBits` ranks doubles the distance between neighbours.  Since the fraction bits of a
magnitude are the low bits of its rank, the even rank is the one with the even fraction.
-/

namespace Dataflow

/-- the widths that fix a binary floating format -/
structure Format where
  /-- stored bits of the fraction -/
  fractionBits : Nat
  /-- bits of the exponent -/
  exponentBits : Nat
deriving DecidableEq, Repr

namespace Format

/-- 32 bits: 23 of the fraction and 8 of the exponent -/
def single : Format := ⟨23, 8⟩

/-- 64 bits: 52 of the fraction and 11 of the exponent -/
def double : Format := ⟨52, 11⟩

/-- the smallest positive magnitude is `2 ^ -unitBits` -/
def unitBits (f : Format) : Nat := Nat.pow 2 (f.exponentBits - 1) - 2 + f.fractionBits

/-- how many units make one -/
def one (f : Format) : Nat := Nat.pow 2 f.unitBits

/-- how many ranks have the same distance to their neighbours -/
def block (f : Format) : Nat := Nat.pow 2 f.fractionBits

def top (f : Format) : Nat := (Nat.pow 2 f.exponentBits - 1) * f.block

def scaled (f : Format) (rank : Nat) : Nat :=
  if rank < f.block then rank
  else (f.block + rank % f.block) * Nat.pow 2 (rank / f.block - 1)

/-- the rank nearest to `num / den` units; a tie goes to the even rank, and what lies beyond the
largest finite magnitude by half a step or more goes to infinity -/
def nearest (f : Format) (num den : Nat) : Nat :=
  let shift := (num / den).log2 - f.fractionBits
  let step := den * Nat.pow 2 shift
  let low := num / step
  let rest := num % step
  let rounded := if step < 2 * rest ∨ (2 * rest = step ∧ low % 2 = 1) then low + 1 else low
  min f.top (shift * f.block + rounded)

theorem nearest_le_top (f : Format) (num den : Nat) : f.nearest num den ≤ f.top :=
  Nat.min_le_left _ _

end Format

end Dataflow
