import SceneEditor.Proofs.Number.Rounding

namespace SceneEditor.Number

namespace Decimal

variable {n d : Nat}

def value (x : Decimal) : ℚ := x.digits * 10 ^ x.exponent

theorem snd_inUnits_pos (n : Nat) (hd : 0 < d) (k : Int) : 0 < (inUnits n d k).2 := by
  cases k with
  | ofNat k => exact Nat.mul_pos hd (Nat.pow_pos (by decide))
  | negSucc k => exact hd

theorem inUnits_div (n d : Nat) (k : Int) :
    ((inUnits n d k).1 : ℚ) / (inUnits n d k).2 = (n / d : ℚ) / 10 ^ k := by
  cases k with
  | ofNat k => simp [inUnits, div_div]
  | negSucc k => simp [inUnits, zpow_negSucc, div_mul_eq_mul_div]

theorem inUnits_eq_value (x : Decimal) : ((inUnits x.digits 1 (-x.exponent)).1 : ℚ) /
    (inUnits x.digits 1 (-x.exponent)).2 = x.value := by
  rw [inUnits_div, Nat.cast_one, div_one, zpow_neg, div_inv_eq_mul, value]

theorem two_zpow_le_value {x : Decimal} {k : Int} (hx : x.digits ≠ 0) (hk : 0 ≤ k)
    (h : k ≤ 3 * x.exponent) : (2 : ℚ) ^ k ≤ x.value := by
  obtain ⟨e, he⟩ : ∃ e : Nat, x.exponent = e := Int.eq_ofNat_of_zero_le (by omega)
  have hone : (1 : ℚ) ≤ x.digits := by exact_mod_cast Nat.one_le_iff_ne_zero.mpr hx
  calc (2 : ℚ) ^ k ≤ 2 ^ (3 * (e : Int)) := zpow_le_zpow_right₀ one_le_two (he ▸ h)
    _ = 8 ^ e := by rw [zpow_mul, zpow_natCast]; norm_num
    _ ≤ 10 ^ e := pow_le_pow_left₀ (by norm_num) (by norm_num) e
    _ = 1 * 10 ^ e := (one_mul _).symm
    _ ≤ x.digits * 10 ^ e := by gcongr
    _ = x.value := by rw [value, he, zpow_natCast]

theorem value_lt_two_zpow {x : Decimal} {k : Int} (hx : x.exponent ≤ 0)
    (h : x.digits.log2 + 1 + 3 * x.exponent ≤ k) : x.value < 2 ^ k := by
  obtain ⟨e, he⟩ : ∃ e : Nat, x.exponent = -e := ⟨x.exponent.natAbs, by omega⟩
  have hdigits : (x.digits : ℚ) < 2 ^ (x.digits.log2 + 1) := by exact_mod_cast Nat.lt_log2_self
  calc x.value = x.digits * (10 ^ e)⁻¹ := by rw [value, he, zpow_neg, zpow_natCast]
    _ < 2 ^ (x.digits.log2 + 1) * (10 ^ e)⁻¹ := by gcongr
    _ ≤ 2 ^ (x.digits.log2 + 1) * (8 ^ e)⁻¹ := by gcongr; norm_num
    _ = 2 ^ ((x.digits.log2 : Int) + 1 + 3 * x.exponent) := by
      rw [he, mul_neg, zpow_add₀ two_ne_zero, zpow_neg, zpow_mul, zpow_natCast]
      norm_cast
    _ ≤ 2 ^ k := zpow_le_zpow_right₀ one_le_two h

end Decimal

namespace Binary

variable {f : Format} {negative : Bool} {significand : Nat} {exponent : Int}

def withSign (negative : Bool) : Binary f → Binary f
  | nan => nan
  | infinity _ => infinity negative
  | finite _ significand exponent h => finite negative significand exponent h

theorem ofParts_eq_withSign (negative : Bool) (significand : Nat) (exponent : Int) :
    (ofParts negative significand exponent : Binary f) =
      (ofParts false significand exponent).withSign negative := by
  unfold ofParts
  split <;> rfl

theorem ofQuotient_eq_withSign (negative : Bool) (n d : Nat) :
    (ofQuotient negative n d : Binary f) = (ofQuotient false n d).withSign negative := by
  simp only [ofQuotient]
  split
  · rfl
  · split <;> exact ofParts_eq_withSign negative _ _

theorem ofDecimal_eq_ofQuotient (negative : Bool) (x : Decimal) :
    (ofDecimal negative x : Double) = ofQuotient negative
      (Decimal.inUnits x.digits 1 (-x.exponent)).1 (Decimal.inUnits x.digits 1 (-x.exponent)).2 := by
  have hpos := Decimal.snd_inUnits_pos x.digits Nat.one_pos (-x.exponent)
  have hvalue := x.inUnits_eq_value
  by_cases hx : x.digits = 0
  · have hzero : (Decimal.inUnits x.digits 1 (-x.exponent)).1 = 0 := by
      rw [hx]
      cases -x.exponent <;> simp [Decimal.inUnits]
    rw [ofDecimal, if_pos hx, hzero]
    rfl
  rw [ofDecimal, if_neg hx]
  split
  · next hbig =>
    refine (ofQuotient_of_le negative hpos ?_).symm
    rw [hvalue]
    exact Decimal.two_zpow_le_value hx (by decide) hbig
  · split
    · next hsmall =>
      have hleast : Format.double.least = -1074 := rfl
      refine (ofQuotient_of_lt negative hpos ?_).symm
      rw [hvalue]
      exact Decimal.value_lt_two_zpow (by omega) (by omega)
    · rfl

theorem ofDecimal_congr (negative : Bool) {x y : Decimal} (h : x.value = y.value) :
    (ofDecimal negative x : Double) = ofDecimal negative y := by
  rw [ofDecimal_eq_ofQuotient, ofDecimal_eq_ofQuotient]
  refine ofQuotient_congr negative (Decimal.snd_inUnits_pos _ Nat.one_pos _)
    (Decimal.snd_inUnits_pos _ Nat.one_pos _) ?_
  rw [Decimal.inUnits_eq_value, Decimal.inUnits_eq_value, h]

theorem ofDecimal_eq_withSign (negative : Bool) (x : Decimal) :
    (ofDecimal negative x : Double) = (ofDecimal false x).withSign negative := by
  rw [ofDecimal_eq_ofQuotient, ofQuotient_eq_withSign, ← ofDecimal_eq_ofQuotient]

theorem value_expansion (significand : Nat) (exponent : Int) :
    (expansion significand exponent).value = significand * 2 ^ exponent := by
  cases exponent with
  | ofNat k => simp [expansion, Decimal.value]
  | negSucc k =>
    have hten : (10 : ℚ) ^ (k + 1) = 5 ^ (k + 1) * 2 ^ (k + 1) := by rw [← mul_pow]; norm_num
    simp only [expansion, Decimal.value, zpow_negSucc, Nat.pow_eq, Nat.cast_mul, Nat.cast_pow,
      Nat.cast_ofNat, hten, mul_inv, mul_assoc]
    rw [mul_inv_cancel_left₀ (by positivity)]

theorem ofDecimal_expansion (h : Format.double.Canonical significand exponent)
    (hs : significand ≠ 0) :
    ofDecimal false (expansion significand exponent) = finite false significand exponent h := by
  rw [ofDecimal_eq_ofQuotient]
  exact ofQuotient_exact false h hs (Decimal.snd_inUnits_pos _ Nat.one_pos _)
    (by rw [Decimal.inUnits_eq_value, value_expansion])

theorem roundDiv_eq_or (n d : Nat) : roundDiv n d = n / d ∨ roundDiv n d = n / d + 1 := by
  simp only [roundDiv]
  split
  · exact .inl rfl
  · exact .inr rfl

theorem ofDecimal_numeral? {h : f.Canonical significand exponent} {count : Nat} {x : Decimal}
    (hx : numeral? significand exponent h count = some x) :
    ofDecimal false x = finite false significand exponent h := by
  simp only [numeral?] at hx
  split at hx
  · next hbelow habove =>
    obtain rfl := Option.some.inj hx
    rcases roundDiv_eq_or _ _ with hround | hround <;> rw [hround]
    · exact of_decide_eq_true hbelow
    · exact of_decide_eq_true habove
  · next hbelow _ =>
    obtain rfl := Option.some.inj hx
    exact of_decide_eq_true hbelow
  · next _ habove =>
    obtain rfl := Option.some.inj hx
    exact of_decide_eq_true habove
  · cases hx

theorem ofDecimal_shortest (negative : Bool) (h : Format.double.Canonical significand exponent)
    (hs : significand ≠ 0) : ofDecimal negative (shortest significand exponent h) =
      finite negative significand exponent h := by
  have hfalse : ofDecimal false (shortest significand exponent h) =
      finite false significand exponent h := by
    -- A candidate is chosen only if it reads back; the expansion, which is exact, always does.
    unfold shortest
    cases hfound : (List.range Format.double.precision).findSome?
      (fun k => numeral? significand exponent h (k + 1)) with
    | none => exact ofDecimal_expansion h hs
    | some x =>
      obtain ⟨k, _, hk⟩ := List.exists_of_findSome?_eq_some hfound
      exact ofDecimal_numeral? hk
  rw [ofDecimal_eq_withSign, hfalse]
  rfl

theorem digits_shortest_ne_zero (h : Format.double.Canonical significand exponent)
    (hs : significand ≠ 0) : (shortest significand exponent h).digits ≠ 0 := by
  intro hzero
  have hread := ofDecimal_shortest false h hs
  rw [ofDecimal, if_pos hzero, zero, finite.injEq] at hread
  exact hs hread.2.1.symm

end Binary

end SceneEditor.Number
