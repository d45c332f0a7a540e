import Dataflow.Binary.Decimal
import Dataflow.Proofs.Rank

/-!
# Written numbers read back

* `Format.ofDecimal_shortest`    the shortest digits of a magnitude read back as it;
* `Numeral.readDecimal?_plain`   digits and a point are read as the decimal that was written, up to
                                 trailing zeros;
* `Binary.read?_chars`, `read?_chars_of_not_finite`   a number is read back from its written form.
-/

namespace Dataflow

namespace Format

variable {f : Format} {rank : Nat}

theorem gridPoint?_some {exponent : Int} {d : Decimal} (h : f.gridPoint? rank exponent = some d) :
    f.ofDecimal d = rank := by
  unfold gridPoint? at h
  simp only at h
  split at h
  · next hbelow =>
    split at h
    · next habove =>
      obtain rfl := Option.some.inj h
      exact habove.1
    · obtain rfl := Option.some.inj h
      exact hbelow
  · split at h
    · next habove =>
      obtain rfl := Option.some.inj h
      exact habove
    · cases h

/-- the exact value of a magnitude reads back as it -/
theorem ofDecimal_exact (hpos : 0 < rank) (h : rank < f.top) :
    f.ofDecimal ⟨f.scaled rank * Nat.pow 5 f.unitBits, -f.unitBits⟩ = rank := by
  have hscaled := f.scaled_pos hpos
  have hdigits : f.scaled rank * 5 ^ f.unitBits ≠ 0 :=
    Nat.ne_of_gt (Nat.mul_pos hscaled (Nat.pow_pos (by decide)))
  -- five is at least four, so the digits have at least two bits for each place
  have hlog : 2 * f.unitBits ≤ (f.scaled rank * 5 ^ f.unitBits).log2 := by
    refine (Nat.le_log2 hdigits).mpr ?_
    calc 2 ^ (2 * f.unitBits) = 4 ^ f.unitBits := by rw [Nat.pow_mul]
      _ ≤ 5 ^ f.unitBits := Nat.pow_le_pow_left (by decide) _
      _ ≤ f.scaled rank * 5 ^ f.unitBits := Nat.le_mul_of_pos_left _ hscaled
  have hratio : f.scaled rank * 5 ^ f.unitBits * 10 ^ 0 * 2 ^ f.unitBits =
      f.scaled rank * 10 ^ f.unitBits := by
    rw [Nat.pow_zero, Nat.mul_one, Nat.mul_assoc, ← Nat.mul_pow]
  have hup : (-(f.unitBits : Int)).toNat = 0 := by omega
  have hdown : (- -(f.unitBits : Int)).toNat = f.unitBits := by omega
  have htwo : ¬ 2 ^ (f.exponentBits - 1) ≤ 0 := Nat.not_le.mpr (Nat.two_pow_pos _)
  have hfew : ¬ (f.scaled rank * 5 ^ f.unitBits).log2 + f.unitBits + 3 ≤ 3 * f.unitBits := by
    omega
  unfold ofDecimal one
  simp only [Nat.pow_eq, hup, hdown, if_neg hdigits, if_neg htwo, if_neg hfew, hratio]
  exact nearest_scaled (Nat.pow_pos (by decide)) (Nat.le_of_lt h)

theorem ofDecimal_shortestFrom (hpos : 0 < rank) (h : rank < f.top) (steps : Nat) (exponent : Int) :
    f.ofDecimal (f.shortestFrom rank steps exponent) = rank := by
  induction steps generalizing exponent with
  | zero => exact ofDecimal_exact hpos h
  | succ steps ih =>
    rw [shortestFrom]
    split
    · next hsome => exact gridPoint?_some hsome
    · exact ih _

/-- the shortest digits of a magnitude read back as it -/
theorem ofDecimal_shortest (hpos : 0 < rank) (h : rank < f.top) :
    f.ofDecimal (f.shortest rank) = rank :=
  ofDecimal_shortestFrom hpos h _ _

theorem ofDecimal_natCast {digits places : Nat} (hne : digits ≠ 0) :
    f.ofDecimal ⟨digits, places⟩ =
      if 2 ^ (f.exponentBits - 1) ≤ places then f.top
      else f.nearest (digits * 10 ^ places * f.one) 1 := by
  have hdown : (-(places : Int)).toNat = 0 := by omega
  have hmany : ¬ digits.log2 + f.unitBits + 3 ≤ 3 * 0 := by omega
  unfold ofDecimal
  simp only [Nat.pow_eq, Int.toNat_natCast, hdown, if_neg hne, if_neg hmany, Nat.pow_zero]

/-- digits with the zeros of their power of ten written out -/
theorem ofDecimal_trailing {digits places : Nat} (h : f.ofDecimal ⟨digits, places⟩ < f.top) :
    f.ofDecimal ⟨digits * 10 ^ places, 0⟩ = f.ofDecimal ⟨digits, places⟩ := by
  rcases Nat.eq_zero_or_pos digits with rfl | hpos
  · simp [ofDecimal]
  · have hne : digits ≠ 0 := Nat.ne_of_gt hpos
    have hne' : digits * 10 ^ places ≠ 0 :=
      Nat.ne_of_gt (Nat.mul_pos hpos (Nat.pow_pos (by decide)))
    have htwo : ¬ 2 ^ (f.exponentBits - 1) ≤ 0 := Nat.not_le.mpr (Nat.two_pow_pos _)
    have hwhole : f.ofDecimal ⟨digits * 10 ^ places, (0 : Nat)⟩ =
        f.nearest (digits * 10 ^ places * f.one) 1 := by
      rw [ofDecimal_natCast hne', if_neg htwo, Nat.pow_zero, Nat.mul_one]
    rw [ofDecimal_natCast hne] at h ⊢
    by_cases hup : 2 ^ (f.exponentBits - 1) ≤ places
    · rw [if_pos hup] at h
      exact absurd h (Nat.lt_irrefl _)
    · rw [if_neg hup]
      exact hwhole

end Format

namespace Numeral

theorem digitsValue_toDigits (n : Nat) : digitsValue (Nat.toDigits 10 n) = n :=
  Nat.ofDigitChars_ten_toDigits

/-- leading zeros do not count -/
theorem digitsValue_padded (zeros : Nat) (digits : List Char) :
    digitsValue (List.replicate zeros '0' ++ digits) = digitsValue digits := by
  rw [digitsValue, Nat.ofDigitChars_append, Nat.ofDigitChars_replicate_zero, Nat.mul_zero]
  rfl

/-- trailing zeros are powers of ten -/
theorem digitsValue_trailing (digits : List Char) (zeros : Nat) :
    digitsValue (digits ++ List.replicate zeros '0') = digitsValue digits * 10 ^ zeros := by
  rw [digitsValue, Nat.ofDigitChars_append, Nat.ofDigitChars_replicate_zero, Nat.mul_comm]
  rfl

theorem takeWhile_digits {digits : List Char} (rest : List Char) (h : ∀ c ∈ digits, c.isDigit = true)
    (hrest : ∀ c, rest.head? = some c → c.isDigit = false) :
    (digits ++ rest).takeWhile Char.isDigit = digits ∧
      (digits ++ rest).dropWhile Char.isDigit = rest := by
  have hnone : rest.takeWhile Char.isDigit = [] ∧ rest.dropWhile Char.isDigit = rest := by
    cases rest with
    | nil => exact ⟨rfl, rfl⟩
    | cons c rest =>
      have hc : ¬ c.isDigit = true := by simp [hrest c rfl]
      exact ⟨List.takeWhile_cons_of_neg hc, List.dropWhile_cons_of_neg hc⟩
  constructor
  · rw [List.takeWhile_append_of_pos h, hnone.1, List.append_nil]
  · rw [List.dropWhile_append_of_pos h, hnone.2]

/-- digits without a point -/
theorem readDecimal?_whole {digits : List Char} (h : ∀ c ∈ digits, c.isDigit = true)
    (hne : digits ≠ []) : readDecimal? digits = some ⟨digitsValue digits, 0⟩ := by
  obtain ⟨htake, hdrop⟩ := takeWhile_digits [] h (by simp)
  rw [List.append_nil] at htake hdrop
  unfold readDecimal?
  rw [htake, hdrop]
  simp [readFraction, readExponent?, hne]

/-- digits with a point -/
theorem readDecimal?_point {whole fraction : List Char} (hw : ∀ c ∈ whole, c.isDigit = true)
    (hf : ∀ c ∈ fraction, c.isDigit = true) (hne : whole ≠ []) :
    readDecimal? (whole ++ '.' :: fraction) =
      some ⟨digitsValue (whole ++ fraction), -fraction.length⟩ := by
  obtain ⟨htake, hdrop⟩ := takeWhile_digits ('.' :: fraction) hw (by simp)
  obtain ⟨htake', hdrop'⟩ := takeWhile_digits [] hf (by simp)
  rw [List.append_nil] at htake' hdrop'
  unfold readDecimal?
  rw [htake, hdrop]
  simp [readFraction, readExponent?, htake', hdrop', hne]

theorem isDigit_of_mem_digits {n : Nat} {c : Char} (hc : c ∈ Nat.toDigits 10 n) :
    c.isDigit = true := Nat.isDigit_of_mem_toDigits (by decide) (by decide) hc

theorem isDigit_of_mem_zeros {n : Nat} {c : Char} (hc : c ∈ List.replicate n '0') :
    c.isDigit = true := by
  rw [List.eq_of_mem_replicate hc]
  rfl

/-- digits and a point are read as the decimal that was written, up to trailing zeros -/
theorem readDecimal?_plain (d : Decimal) :
    readDecimal? d.plain =
      some (if d.exponent < 0 then d else ⟨d.digits * 10 ^ d.exponent.toNat, 0⟩) := by
  unfold Decimal.plain
  by_cases hneg : d.exponent < 0
  · have hplaces : (-d.exponent).toNat ≠ 0 := by omega
    simp only [if_neg hplaces, if_pos hneg]
    generalize hplaces' : (-d.exponent).toNat = places
    generalize hpadded : List.replicate (places + 1 - (Nat.toDigits 10 d.digits).length) '0' ++
      Nat.toDigits 10 d.digits = padded
    have hlen : places + 1 ≤ padded.length := by
      rw [← hpadded, List.length_append, List.length_replicate]
      omega
    have hall : ∀ c ∈ padded, c.isDigit = true := by
      intro c hc
      rw [← hpadded] at hc
      exact (List.mem_append.mp hc).elim isDigit_of_mem_zeros isDigit_of_mem_digits
    have hvalue : digitsValue padded = d.digits := by
      rw [← hpadded, digitsValue_padded, digitsValue_toDigits]
    have hwhole : padded.take (padded.length - places) ≠ [] := by
      intro hnil
      have hzero := congrArg List.length hnil
      rw [List.length_take, List.length_nil] at hzero
      omega
    rw [readDecimal?_point (fun c hc => hall c (List.mem_of_mem_take hc))
      (fun c hc => hall c (List.mem_of_mem_drop hc)) hwhole, List.take_append_drop, hvalue,
      List.length_drop]
    have hexponent : -((padded.length - (padded.length - places) : Nat) : Int) = d.exponent := by
      omega
    rw [hexponent]
  · have hplaces : (-d.exponent).toNat = 0 := by omega
    simp only [if_pos hplaces, if_neg hneg]
    rw [readDecimal?_whole, digitsValue_trailing, digitsValue_toDigits]
    · exact fun c hc => (List.mem_append.mp hc).elim isDigit_of_mem_digits isDigit_of_mem_zeros
    · simp [Nat.toDigits_ne_nil]

end Numeral

namespace Decimal

/-- the written form has digits and points only and begins with a digit -/
theorem plain_spec (d : Decimal) :
    (∀ c ∈ d.plain, c.isDigit = true ∨ c = '.') ∧
      ∃ c rest, d.plain = c :: rest ∧ c.isDigit = true := by
  -- a row of digits with a point behind the first of them or later, or without a point
  have hrow : ∀ (row : List Char) (k : Nat), (∀ c ∈ row, c.isDigit = true) → 0 < k → row ≠ [] →
      (∀ c ∈ row.take k ++ '.' :: row.drop k, c.isDigit = true ∨ c = '.') ∧
        ∃ c rest, row.take k ++ '.' :: row.drop k = c :: rest ∧ c.isDigit = true := by
    intro row k hrow hk hne
    obtain ⟨c, row, rfl⟩ := List.exists_cons_of_ne_nil hne
    obtain ⟨k, rfl⟩ := Nat.exists_eq_succ_of_ne_zero (Nat.ne_of_gt hk)
    refine ⟨fun x hx => ?_, c, row.take k ++ '.' :: row.drop k, rfl, hrow c List.mem_cons_self⟩
    rcases List.mem_append.mp hx with hx | hx
    · exact .inl (hrow x (List.mem_of_mem_take hx))
    · rcases List.mem_cons.mp hx with hx | hx
      · exact .inr hx
      · exact .inl (hrow x (List.mem_of_mem_drop hx))
  unfold plain
  by_cases hplaces : (-d.exponent).toNat = 0
  · simp only [if_pos hplaces]
    have hall : ∀ c ∈ Nat.toDigits 10 d.digits ++ List.replicate d.exponent.toNat '0',
        c.isDigit = true :=
      fun c hc => (List.mem_append.mp hc).elim
        Numeral.isDigit_of_mem_digits Numeral.isDigit_of_mem_zeros
    refine ⟨fun c hc => .inl (hall c hc), ?_⟩
    obtain ⟨c, rest, heq⟩ := List.exists_cons_of_ne_nil
      (show Nat.toDigits 10 d.digits ++ List.replicate d.exponent.toNat '0' ≠ [] by
        simp [Nat.toDigits_ne_nil])
    exact ⟨c, rest, heq, hall c (heq ▸ List.mem_cons_self)⟩
  · simp only [if_neg hplaces]
    apply hrow
    · exact fun c hc => (List.mem_append.mp hc).elim
        Numeral.isDigit_of_mem_zeros Numeral.isDigit_of_mem_digits
    · rw [List.length_append, List.length_replicate]
      omega
    · simp [Nat.toDigits_ne_nil]

end Decimal

namespace Binary

variable {f : Format}

theorem toLower_of_isDigit {c : Char} (h : c.isDigit = true) : c.toLower = c := by
  obtain ⟨_, hnine⟩ := Char.isDigit_iff_toNat.mp h
  have hupper : ¬ (c.val ≥ 'A'.val ∧ c.val ≤ 'Z'.val) := by
    rintro ⟨hA, _⟩
    have hA' : 'A'.toNat ≤ c.toNat := UInt32.le_iff_toNat_le.mp hA
    exact absurd (Nat.le_trans hA' hnine) (by decide)
  exact dif_neg hupper

/-- a text that begins with a digit is a decimal -/
theorem read?_digit {c : Char} (rest : List Char) (hc : c.isDigit = true) :
    Numeral.read? (c :: rest) = (Numeral.readDecimal? (c :: rest)).map (.decimal false) ∧
      Numeral.read? ('-' :: c :: rest) =
        (Numeral.readDecimal? (c :: rest)).map (.decimal true) := by
  have hsign : Numeral.readSign (c :: rest) = (false, c :: rest) := by
    unfold Numeral.readSign
    split
    · next heq =>
      obtain rfl := (List.cons.inj heq).1
      cases hc
    · next heq =>
      obtain rfl := (List.cons.inj heq).1
      cases hc
    · rfl
  have hword : ∀ word : String, (∀ x, word.toList.head? = some x → x.isDigit = false) →
      String.ofList ((c :: rest).map Char.toLower) ≠ word := by
    rintro word hword rfl
    rw [List.map_cons, toLower_of_isDigit hc, String.toList_ofList] at hword
    exact absurd (hword c rfl) (by simp [hc])
  have hnan := hword "nan" (by simp)
  have hinf := hword "inf" (by simp)
  have hinfinity := hword "infinity" (by simp)
  unfold Numeral.read?
  constructor
  · rw [hsign]
    simp only [if_neg hnan, hinf, hinfinity, or_self, if_false]
  · simp only [Numeral.readSign, if_neg hnan, hinf, hinfinity, or_self, if_false]

/-- the digits of a finite magnitude -/
def magnitude (f : Format) (rank : Nat) : List Char :=
  if rank = 0 then ['0'] else (f.shortest rank).plain

theorem chars_of_lt {negative : Bool} {rank : Nat} (hle : rank ≤ f.top) (h : rank < f.top) :
    (signed negative rank hle : Binary f).chars =
      if negative then '-' :: magnitude f rank else magnitude f rank := by
  simp only [chars, if_neg (Nat.ne_of_lt h), magnitude]

/-- the digits of a magnitude are digits and points, begin with a digit and read back as it -/
theorem magnitude_spec {rank : Nat} (h : rank < f.top) :
    (∀ c ∈ magnitude f rank, c.isDigit = true ∨ c = '.') ∧
      (∃ c rest, magnitude f rank = c :: rest ∧ c.isDigit = true) ∧
      ∃ d, Numeral.readDecimal? (magnitude f rank) = some d ∧ f.ofDecimal d = rank := by
  unfold magnitude
  rcases Nat.eq_zero_or_pos rank with rfl | hpos
  · exact ⟨by simp, ⟨'0', [], rfl, rfl⟩, ⟨0, 0⟩, rfl, by simp [Format.ofDecimal]⟩
  · rw [if_neg (Nat.ne_of_gt hpos)]
    obtain ⟨hall, hfirst⟩ := (f.shortest rank).plain_spec
    have hread := Format.ofDecimal_shortest hpos h
    refine ⟨hall, hfirst, _, Numeral.readDecimal?_plain _, ?_⟩
    generalize f.shortest rank = d at hread
    obtain ⟨digits, exponent⟩ := d
    by_cases hneg : exponent < 0
    · rw [if_pos hneg]
      exact hread
    · obtain ⟨places, rfl⟩ := Int.eq_ofNat_of_zero_le (Int.not_lt.mp hneg)
      rw [if_neg hneg]
      exact (Format.ofDecimal_trailing (hread ▸ h)).trans hread

/-- **A finite number is read back from its written form.** -/
theorem read?_chars (x : Binary f) (h : x.isFinite = true) : read? x.chars = some x := by
  cases x with
  | nan => cases h
  | signed negative rank hle =>
    have hlt : rank < f.top := by simpa [isFinite] using h
    obtain ⟨-, ⟨c, rest, hcons, hc⟩, d, hread, hd⟩ := magnitude_spec hlt
    obtain ⟨hplus, hminus⟩ := read?_digit rest hc
    rw [← hcons] at hplus hminus
    rw [chars_of_lt hle hlt, read?]
    have hsigned : (signed negative (f.ofDecimal d) (f.ofDecimal_le_top d) : Binary f)
        = signed negative rank hle := by
      congr
    cases negative with
    | false =>
      simp only [Bool.false_eq_true, if_false]
      rw [hplus, hread]
      exact congrArg some hsigned
    | true =>
      simp only [if_true]
      rw [hminus, hread]
      exact congrArg some hsigned

/-- and so are the others -/
theorem read?_chars_of_not_finite (x : Binary f) (h : x.isFinite = false) :
    read? x.chars = some x := by
  cases x with
  | nan => rfl
  | signed negative rank hle =>
    have htop : rank = f.top := by
      have hge : ¬ rank < f.top := by simpa [isFinite] using h
      omega
    subst htop
    simp only [chars, if_true]
    cases negative <;> rfl

/-- the written form of a finite number begins with a digit or a minus and goes on with digits and
points -/
theorem chars_spec (x : Binary f) (h : x.isFinite = true) :
    ∃ c rest, x.chars = c :: rest ∧ (c.isDigit = true ∨ c = '-') ∧
      ∀ u ∈ rest, u.isDigit = true ∨ u = '.' := by
  cases x with
  | nan => cases h
  | signed negative rank hle =>
    have hlt : rank < f.top := by simpa [isFinite] using h
    obtain ⟨hall, ⟨c, rest, hcons, hc⟩, -⟩ := magnitude_spec hlt
    rw [chars_of_lt hle hlt]
    cases negative with
    | false =>
      refine ⟨c, rest, hcons, .inl hc, fun u hu => hall u ?_⟩
      rw [hcons]
      exact List.mem_cons_of_mem c hu
    | true => exact ⟨'-', magnitude f rank, rfl, .inr rfl, hall⟩

end Binary

end Dataflow
