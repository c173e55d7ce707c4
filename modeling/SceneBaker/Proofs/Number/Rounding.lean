import SceneBaker.Proofs.Number.Exact

/-! # Rounded natural numbers

A natural number with more significant bits than a format has is rounded to those bits. What is stored
is then an exact natural number, at most the next power of two, so that storing it again changes
nothing.
-/

namespace SceneBaker.Number.Layout

variable {layout : Layout} {n : Nat}

/-- Rounding a quotient goes at most one up. -/
theorem roundQuotient_bounds (numerator denominator : Nat) :
    numerator / denominator ≤ roundQuotient numerator denominator ∧
      roundQuotient numerator denominator ≤ numerator / denominator + 1 := by
  rw [roundQuotient]
  split <;> omega

/-- The significand to which a number with bits to spare is rounded. It may round up to the next
power of two, but not beyond. -/
theorem roundQuotient_leading (positive : 0 < n) (spare : layout.fractionBits ≤ n.log2) :
    2 ^ layout.fractionBits ≤ roundQuotient n (2 ^ (n.log2 - layout.fractionBits)) ∧
      roundQuotient n (2 ^ (n.log2 - layout.fractionBits)) ≤ 2 ^ (layout.fractionBits + 1) := by
  obtain ⟨low, high⟩ := roundQuotient_bounds n (2 ^ (n.log2 - layout.fractionBits))
  have split : n.log2 = layout.fractionBits + (n.log2 - layout.fractionBits) := by omega
  have least : 2 ^ layout.fractionBits ≤ n / 2 ^ (n.log2 - layout.fractionBits) := by
    rw [Nat.le_div_iff_mul_le (by positivity), ← pow_add, ← split]
    exact Nat.log2_self_le positive.ne'
  have most : n / 2 ^ (n.log2 - layout.fractionBits) < 2 ^ (layout.fractionBits + 1) := by
    rw [Nat.div_lt_iff_lt_mul (by positivity), ← pow_add, Nat.add_right_comm, ← split]
    exact Nat.lt_log2_self
  omega

/-- A scaled significand is stored in the exponent field of its leading bit. -/
private theorem ofScaled_zero_scaled {significand places : Nat}
    (leading : 2 ^ layout.fractionBits ≤ significand)
    (fits : significand < 2 ^ (layout.fractionBits + 1))
    (reach : layout.Reaches (significand * 2 ^ places)) :
    layout.ofScaled (significand * 2 ^ places) 0 = min layout.infinity
      ((layout.fractionBits + places + 2 ^ (layout.exponentBits - 1) - 2) * 2 ^ layout.fractionBits +
        significand) := by
  have positive : 0 < significand := lt_of_lt_of_le (by positivity) leading
  have log : significand.log2 = layout.fractionBits :=
    (Nat.log2_eq_iff positive.ne').mpr ⟨leading, fits⟩
  have spare : layout.fractionBits - (layout.fractionBits + places) = 0 := by omega
  rw [ofScaled_zero (by positivity) reach, log2_mul_two_pow positive, log, spare, pow_zero, mul_one,
    Nat.add_sub_cancel_left, roundQuotient_of_dvd (by positivity) (Nat.dvd_mul_left ..),
    Nat.mul_div_cancel _ (by positivity)]

/-- A natural number is stored as an exact one, at most the next power of two. -/
theorem exists_exact_of_reaches (reach : layout.Reaches (2 * n)) :
    ∃ m, layout.Exact m ∧ m ≤ 2 ^ (n.log2 + 1) ∧ layout.ofScaled n 0 = layout.ofScaled m 0 := by
  rcases Nat.eq_zero_or_pos n with rfl | positive
  · exact ⟨0, exact_of_lt (by positivity), Nat.zero_le _, rfl⟩
  have double : (2 * n).log2 = n.log2 + 1 := by
    rw [Nat.mul_comm, ← pow_one 2, log2_mul_two_pow positive]
  have room : n.log2 + 1 + 1 < 2 ^ (layout.exponentBits - 1) := double ▸ reach
  rcases Nat.lt_or_ge layout.fractionBits n.log2 with spare | short
  case inr =>
    refine ⟨n, exact_of_lt ?_, Nat.lt_log2_self.le, rfl⟩
    exact Nat.lt_log2_self.trans_le (Nat.pow_le_pow_right two_pos (by omega))
  obtain ⟨places, split⟩ := Nat.exists_eq_add_of_le spare.le
  have whole : layout.fractionBits - n.log2 = 0 := by omega
  obtain ⟨leading, top⟩ := roundQuotient_leading positive spare.le
  have stored := ofScaled_zero positive (Nat.lt_of_succ_lt room)
  rw [whole, pow_zero, mul_one, split, Nat.add_sub_cancel_left] at stored
  rw [split, Nat.add_sub_cancel_left] at leading top
  generalize roundQuotient n (2 ^ places) = rounded at *
  rcases Nat.lt_or_eq_of_le top with fits | carried
  · have log : (rounded * 2 ^ places).log2 = n.log2 := by
      have positive : 0 < rounded := lt_of_lt_of_le (by positivity) leading
      rw [log2_mul_two_pow positive, (Nat.log2_eq_iff positive.ne').mpr ⟨leading, fits⟩, split]
    refine ⟨rounded * 2 ^ places, exact_scaled fits, ?_, ?_⟩
    · rw [← log]
      exact Nat.lt_log2_self.le
    · rw [stored, ofScaled_zero_scaled leading fits]
      change (rounded * 2 ^ places).log2 + 1 < _
      omega
  · -- The significand was rounded up to the next power of two and carries into the exponent.
    have power : 2 ^ layout.fractionBits * 2 ^ (places + 1) = 2 ^ (n.log2 + 1) := by
      rw [← pow_add, split, Nat.add_assoc]
    have fits : 2 ^ layout.fractionBits < 2 ^ (layout.fractionBits + 1) :=
      Nat.pow_lt_pow_right (by decide) (Nat.lt_succ_self _)
    refine ⟨2 ^ layout.fractionBits * 2 ^ (places + 1), exact_scaled fits, power.le, ?_⟩
    rw [stored, carried, ofScaled_zero_scaled le_rfl fits]
    · have step : layout.fractionBits + (places + 1) + 2 ^ (layout.exponentBits - 1) - 2 =
          layout.fractionBits + places + 2 ^ (layout.exponentBits - 1) - 2 + 1 := by omega
      rw [step, pow_succ]
      congr 1
      ring
    · change (2 ^ layout.fractionBits * 2 ^ (places + 1)).log2 + 1 < _
      rw [power, Nat.log2_two_pow]
      exact room

end SceneBaker.Number.Layout
