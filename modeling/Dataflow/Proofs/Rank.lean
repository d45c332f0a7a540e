import Mathlib.Algebra.Group.Nat.Defs
import Dataflow.Binary.Basic

/-!
# Magnitudes are their own nearest ranks

* `Format.nearest_scaled`   rounding a magnitude of the format changes nothing, whatever common
                            factor its ratio has.

A rank below `block` is its own magnitude.  Any other rank is `exponent * block + fraction`, and its
magnitude `(block + fraction) * 2 ^ (exponent - 1)` has its leading bit where rounding looks for it.
-/

namespace Dataflow.Format

variable {f : Format} {rank : Nat}

theorem block_pos (f : Format) : 0 < f.block := Nat.two_pow_pos f.fractionBits

theorem scaled_of_lt (h : rank < f.block) : f.scaled rank = rank := if_pos h

theorem scaled_of_ge (h : f.block ≤ rank) :
    f.scaled rank = (f.block + rank % f.block) * 2 ^ (rank / f.block - 1) :=
  if_neg (Nat.not_lt.mpr h)

/-- only the rank zero has no magnitude -/
theorem scaled_pos (h : 0 < rank) : 0 < f.scaled rank := by
  rcases Nat.lt_or_ge rank f.block with hlt | hge
  · rw [scaled_of_lt hlt]
    exact h
  · rw [scaled_of_ge hge]
    exact Nat.mul_pos (Nat.add_pos_left f.block_pos _) (Nat.two_pow_pos _)

/-- how far the bits of a magnitude stand above those of a fraction -/
theorem shift_scaled (f : Format) (rank : Nat) :
    (f.scaled rank).log2 - f.fractionBits = rank / f.block - 1 := by
  have hblock : f.block = 2 ^ f.fractionBits := rfl
  rcases Nat.lt_or_ge rank f.block with hlt | hge
  · rw [scaled_of_lt hlt, Nat.div_eq_of_lt hlt]
    rcases Nat.eq_zero_or_pos rank with rfl | hpos
    · simp
    · have hlog : rank.log2 < f.fractionBits :=
        (Nat.log2_lt (Nat.ne_of_gt hpos)).mpr (hblock ▸ hlt)
      omega
  · rw [scaled_of_ge hge]
    have hmod : rank % f.block < f.block := Nat.mod_lt _ f.block_pos
    generalize rank / f.block - 1 = shift
    have hlog : ((f.block + rank % f.block) * 2 ^ shift).log2 = f.fractionBits + shift := by
      have hne : (f.block + rank % f.block) * 2 ^ shift ≠ 0 :=
        Nat.ne_of_gt (Nat.mul_pos (Nat.add_pos_left f.block_pos _) (Nat.two_pow_pos _))
      rw [Nat.log2_eq_iff hne]
      constructor
      · rw [Nat.pow_add, ← hblock]
        exact Nat.mul_le_mul_right _ (Nat.le_add_right _ _)
      · rw [Nat.add_right_comm, Nat.pow_add, Nat.pow_succ, ← hblock]
        exact Nat.mul_lt_mul_of_pos_right (by omega) (Nat.two_pow_pos _)
    rw [hlog, Nat.add_sub_cancel_left]

/-- a magnitude in steps of its own grid -/
theorem scaled_eq (f : Format) (rank : Nat) : ∃ low,
    f.scaled rank = low * 2 ^ (rank / f.block - 1) ∧
      (rank / f.block - 1) * f.block + low = rank := by
  rcases Nat.lt_or_ge rank f.block with hlt | hge
  · refine ⟨rank, ?_, ?_⟩
    · rw [scaled_of_lt hlt, Nat.div_eq_of_lt hlt]
      simp
    · rw [Nat.div_eq_of_lt hlt]
      simp
  · refine ⟨f.block + rank % f.block, scaled_of_ge hge, ?_⟩
    have hdiv : 0 < rank / f.block := Nat.div_pos hge f.block_pos
    obtain ⟨e, he⟩ := Nat.exists_eq_succ_of_ne_zero (Nat.ne_of_gt hdiv)
    have hrank := Nat.div_add_mod' rank f.block
    rw [he, Nat.succ_mul] at hrank
    rw [he]
    simp only [Nat.succ_sub_one]
    omega

/-- **A magnitude is its own nearest rank.** -/
theorem nearest_scaled {k : Nat} (hk : 0 < k) (h : rank ≤ f.top) :
    f.nearest (f.scaled rank * k) k = rank := by
  obtain ⟨low, hscaled, hrank⟩ := f.scaled_eq rank
  have hshift := f.shift_scaled rank
  have hstep : f.scaled rank * k = low * (k * 2 ^ (rank / f.block - 1)) := by
    rw [hscaled, Nat.mul_assoc, Nat.mul_comm k]
  have hpos : 0 < k * 2 ^ (rank / f.block - 1) := Nat.mul_pos hk (Nat.two_pow_pos _)
  have hexact : ¬ (k * 2 ^ (rank / f.block - 1) < 2 * 0 ∨
      2 * 0 = k * 2 ^ (rank / f.block - 1) ∧ low % 2 = 1) := by
    omega
  unfold nearest
  simp only [Nat.pow_eq, Nat.mul_div_cancel _ hk, hshift]
  rw [hstep, Nat.mul_div_cancel _ hpos, Nat.mul_mod_left, if_neg hexact, hrank]
  exact Nat.min_eq_right h

end Dataflow.Format
