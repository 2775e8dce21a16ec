import Mathlib.Algebra.Order.Field.Power
import Mathlib.Algebra.Order.Floor.Semiring
import Mathlib.Data.Int.Log
import Mathlib.Data.Rat.Floor
import Mathlib.Tactic.Positivity
import Mathlib.Tactic.Ring
import SceneEditor.Number.Decimal

namespace SceneEditor.Number

variable {n d m c : Nat} {negative : Bool}

theorem snd_inUnits_pos (n : Nat) (hd : 0 < d) (k : Int) : 0 < (inUnits n d k).2 := by
  cases k with
  | ofNat k => exact Nat.mul_pos hd (Nat.two_pow_pos k)
  | negSucc k => exact hd

theorem inUnits_div (n d : Nat) (k : Int) :
    ((inUnits n d k).1 : ℚ) / (inUnits n d k).2 = (n / d : ℚ) / 2 ^ k := by
  cases k with
  | ofNat k => simp [inUnits, div_div]
  | negSucc k => simp [inUnits, zpow_negSucc, div_mul_eq_mul_div]

theorem roundDiv_mul_left {k : Nat} (hk : 0 < k) (n d : Nat) :
    roundDiv (k * n) (k * d) = roundDiv n d := by
  have htwice : 2 * (k * n % (k * d)) = k * (2 * (n % d)) := by
    rw [Nat.mul_mod_mul_left, Nat.mul_left_comm]
  simp only [roundDiv, Nat.mul_div_mul_left n d hk, htwice, Nat.mul_lt_mul_left hk,
    Nat.mul_right_inj (Nat.ne_of_gt hk)]

theorem roundDiv_congr (hd : 0 < d) (hc : 0 < c) (h : (n / d : ℚ) = m / c) :
    roundDiv n d = roundDiv m c := by
  have hcross : c * n = d * m := by
    rw [div_eq_div_iff (by positivity) (by positivity)] at h
    have hnat : n * c = m * d := by exact_mod_cast h
    rw [Nat.mul_comm c, hnat, Nat.mul_comm]
  rw [← roundDiv_mul_left hc n d, hcross, Nat.mul_comm c d, roundDiv_mul_left hd]

theorem roundDiv_of_div_eq (hd : 0 < d) (h : (n / d : ℚ) = m) : roundDiv n d = m := by
  have hone : (n / d : ℚ) = m / (1 : Nat) := by rw [h, Nat.cast_one, div_one]
  rw [roundDiv_congr hd Nat.one_pos hone]
  simp [roundDiv, Nat.mod_one]

theorem roundDiv_of_lt_half (hd : 0 < d) (h : (n / d : ℚ) < 1 / 2) : roundDiv n d = 0 := by
  have htwice : 2 * n < d := by
    rw [div_lt_div_iff₀ (by positivity) two_pos] at h
    have hnat : n * 2 < 1 * d := by exact_mod_cast h
    omega
  have hlt : n < d := by omega
  simp [roundDiv, Nat.div_eq_of_lt hlt, Nat.mod_eq_of_lt hlt, htwice]

theorem floorLog2_eq_log (hn : 0 < n) (hd : 0 < d) : floorLog2 n d = Int.log 2 (n / d : ℚ) := by
  -- The lengths of the two numbers tell the logarithm but for one, and the definition tries both.
  have hpos : (0 : ℚ) < n / d := by positivity
  have hnle : (2 ^ n.log2 : ℚ) ≤ n := by exact_mod_cast Nat.log2_self_le hn.ne'
  have hnlt : (n : ℚ) < 2 ^ (n.log2 + 1) := by exact_mod_cast Nat.lt_log2_self
  have hdle : (2 ^ d.log2 : ℚ) ≤ d := by exact_mod_cast Nat.log2_self_le hd.ne'
  have hdlt : (d : ℚ) < 2 ^ (d.log2 + 1) := by exact_mod_cast Nat.lt_log2_self
  have hbelow : Int.log 2 (n / d : ℚ) < (n.log2 : Int) - d.log2 + 1 := by
    rw [← Int.lt_zpow_iff_log_lt (by decide) hpos]
    calc (n / d : ℚ) < 2 ^ (n.log2 + 1) / 2 ^ d.log2 := by gcongr
      _ = (2 : ℚ) ^ ((n.log2 : Int) - d.log2 + 1) := by
        rw [← add_sub_right_comm, zpow_sub₀ two_ne_zero]
        norm_cast
  have habove : (n.log2 : Int) - d.log2 - 1 ≤ Int.log 2 (n / d : ℚ) := by
    rw [← Int.zpow_le_iff_le_log (by decide) hpos]
    calc ((2 : Nat) : ℚ) ^ ((n.log2 : Int) - d.log2 - 1) = 2 ^ n.log2 / 2 ^ (d.log2 + 1) := by
          rw [sub_sub, zpow_sub₀ (by norm_num)]
          norm_cast
      _ ≤ n / d := by gcongr
  have hstep (k : Int) : (inUnits n d k).2 ≤ (inUnits n d k).1 ↔ k ≤ Int.log 2 (n / d : ℚ) := by
    have hb : (0 : ℚ) < (inUnits n d k).2 := by exact_mod_cast snd_inUnits_pos n hd k
    calc (inUnits n d k).2 ≤ (inUnits n d k).1
        ↔ ((inUnits n d k).2 : ℚ) ≤ (inUnits n d k).1 := Nat.cast_le.symm
      _ ↔ (2 : ℚ) ^ k ≤ n / d := by
        rw [← one_le_div hb, inUnits_div, one_le_div (by positivity)]
      _ ↔ k ≤ Int.log 2 (n / d : ℚ) := by
        rw [← Int.zpow_le_iff_le_log (by decide) hpos, Nat.cast_ofNat]
  simp only [floorLog2, hstep]
  split <;> omega

namespace Binary

variable {f : Format} {significand : Nat} {exponent : Int}

theorem ofQuotient_eq (negative : Bool) (hn : 0 < n) (hd : 0 < d) {e : Int} {s : Nat}
    (he : e = max f.least (Int.log 2 (n / d : ℚ) - f.precision + 1))
    (hs : s = roundDiv (inUnits n d e).1 (inUnits n d e).2) :
    (ofQuotient negative n d : Binary f) =
      if s = Nat.pow 2 f.precision then ofParts negative (Nat.pow 2 (f.precision - 1)) (e + 1)
      else ofParts negative s e := by
  subst he hs
  simp only [ofQuotient, if_neg hn.ne', floorLog2_eq_log hn hd]

theorem ofQuotient_congr (negative : Bool) (hd : 0 < d) (hc : 0 < c) (h : (n / d : ℚ) = m / c) :
    (ofQuotient negative n d : Binary f) = ofQuotient negative m c := by
  rcases Nat.eq_zero_or_pos n with rfl | hn
  · have hm : m = 0 := by
      rw [Nat.cast_zero, zero_div, eq_comm, div_eq_zero_iff, Nat.cast_eq_zero,
        Nat.cast_eq_zero] at h
      exact h.resolve_right hc.ne'
    rw [hm]
    rfl
  · have hm : 0 < m := by
      have hpos : (0 : ℚ) < m / c := by
        rw [← h]
        positivity
      rw [div_pos_iff_of_pos_right (by positivity)] at hpos
      exact_mod_cast hpos
    rw [ofQuotient_eq negative hn hd rfl rfl, ofQuotient_eq negative hm hc rfl rfl, h]
    have hround (k : Int) : roundDiv (inUnits n d k).1 (inUnits n d k).2 =
        roundDiv (inUnits m c k).1 (inUnits m c k).2 :=
      roundDiv_congr (snd_inUnits_pos n hd k) (snd_inUnits_pos m hc k)
        (by rw [inUnits_div, inUnits_div, h])
    simp only [hround]

theorem log_mul_zpow {s : Nat} (hs : 0 < s) (e : Int) :
    Int.log 2 (s * 2 ^ e : ℚ) = s.log2 + e := by
  have hpos : (0 : ℚ) < s * 2 ^ e := by positivity
  have hle : (2 ^ s.log2 : ℚ) ≤ s := by exact_mod_cast Nat.log2_self_le hs.ne'
  have hlt : (s : ℚ) < 2 ^ (s.log2 + 1) := by exact_mod_cast Nat.lt_log2_self
  apply le_antisymm
  · apply Int.lt_add_one_iff.mp
    rw [← Int.lt_zpow_iff_log_lt (by decide) hpos]
    calc (s * 2 ^ e : ℚ) < 2 ^ (s.log2 + 1) * 2 ^ e := by gcongr
      _ = ((2 : Nat) : ℚ) ^ ((s.log2 : Int) + e + 1) := by
        rw [add_right_comm, zpow_add₀ (by norm_num)]
        norm_cast
  · rw [← Int.zpow_le_iff_le_log (by decide) hpos]
    calc ((2 : Nat) : ℚ) ^ ((s.log2 : Int) + e) = 2 ^ s.log2 * 2 ^ e := by
          rw [zpow_add₀ (by norm_num)]
          norm_cast
      _ ≤ s * 2 ^ e := by gcongr

theorem ofQuotient_exact (negative : Bool) (h : f.Canonical significand exponent)
    (hs : significand ≠ 0) (hd : 0 < d) (hv : (n / d : ℚ) = significand * 2 ^ exponent) :
    ofQuotient negative n d = finite negative significand exponent h := by
  obtain ⟨hlt, hleast, hgreatest, hfull⟩ := h
  have hpos : 0 < significand := Nat.pos_of_ne_zero hs
  have hn : 0 < n := by
    have hquotient : (0 : ℚ) < n / d := by
      rw [hv]
      positivity
    rw [div_pos_iff_of_pos_right (by positivity)] at hquotient
    exact_mod_cast hquotient
  have hlog : significand.log2 < f.precision := (Nat.log2_lt hs).mpr hlt
  have he : exponent = max f.least (Int.log 2 (n / d : ℚ) - f.precision + 1) := by
    rw [hv, log_mul_zpow hpos]
    rcases hfull with hleast | hfull
    · omega
    · have hlow : f.precision ≤ significand.log2 + 1 := by
        have hpow : 2 ^ f.precision < 2 ^ (significand.log2 + 2) := by
          have htop := @Nat.lt_log2_self significand
          calc 2 ^ f.precision ≤ 2 * significand := hfull
            _ < 2 * 2 ^ (significand.log2 + 1) := by omega
            _ = 2 ^ (significand.log2 + 2) := by rw [Nat.pow_succ 2 (significand.log2 + 1),
                Nat.mul_comm]
        have := (Nat.pow_lt_pow_iff_right (by decide)).mp hpow
        omega
      omega
  have hround : significand = roundDiv (inUnits n d exponent).1 (inUnits n d exponent).2 := by
    rw [roundDiv_of_div_eq (snd_inUnits_pos n hd exponent)]
    rw [inUnits_div, hv, mul_div_assoc, div_self (by positivity), mul_one]
  rw [ofQuotient_eq negative hn hd he hround, if_neg hlt.ne, ofParts,
    dif_pos ⟨hlt, hleast, hgreatest, hfull⟩]

theorem ofParts_of_greatest_lt (negative : Bool) (significand : Nat) (h : f.greatest < exponent) :
    (ofParts negative significand exponent : Binary f) = infinity negative :=
  dif_neg fun hc => absurd hc.2.2.1 (by omega)

theorem ofQuotient_of_le (negative : Bool) (hd : 0 < d)
    (h : (2 : ℚ) ^ (f.greatest + f.precision) ≤ n / d) :
    (ofQuotient negative n d : Binary f) = infinity negative := by
  have hpos : (0 : ℚ) < n / d := lt_of_lt_of_le (by positivity) h
  have hn : 0 < n := by
    rw [div_pos_iff_of_pos_right (by positivity)] at hpos
    exact_mod_cast hpos
  have hlog : f.greatest + f.precision ≤ Int.log 2 (n / d : ℚ) := by
    rw [← Int.zpow_le_iff_le_log (by decide) hpos]
    exact_mod_cast h
  rw [ofQuotient_eq negative hn hd rfl rfl, ofParts_of_greatest_lt negative _ (by omega),
    ofParts_of_greatest_lt negative _ (by omega), ite_self]

theorem ofQuotient_of_lt (negative : Bool) (hd : 0 < d) (h : (n / d : ℚ) < 2 ^ (f.least - 1)) :
    (ofQuotient negative n d : Binary f) = zero negative := by
  rcases Nat.eq_zero_or_pos n with rfl | hn
  · rfl
  have hlog : Int.log 2 (n / d : ℚ) < f.least - 1 := by
    rw [← Int.lt_zpow_iff_log_lt (by decide) (by positivity)]
    exact_mod_cast h
  have he : f.least = max f.least (Int.log 2 (n / d : ℚ) - f.precision + 1) := by omega
  have hround : 0 = roundDiv (inUnits n d f.least).1 (inUnits n d f.least).2 := by
    rw [roundDiv_of_lt_half (snd_inUnits_pos n hd f.least)]
    rw [inUnits_div, div_lt_iff₀ (by positivity)]
    calc (n / d : ℚ) < 2 ^ (f.least - 1) := h
      _ = 1 / 2 * 2 ^ f.least := by rw [zpow_sub_one₀ two_ne_zero]; ring
  have hfull : ¬ 0 = Nat.pow 2 f.precision := (Nat.two_pow_pos f.precision).ne
  rw [ofQuotient_eq negative hn hd he hround, if_neg hfull, ofParts,
    dif_pos f.canonical_zero]
  rfl

end Binary

end SceneEditor.Number
