import Mathlib.Algebra.Order.Floor.Semiring
import Mathlib.Algebra.Order.Monoid.WithTop
import SceneEditor.Proofs.Number.Nearest

namespace SceneEditor.Number

variable {q r : ℚ}

theorem le_of_nearest {a b : ℚ} (h : q < r) (ha : |a - q| ≤ |b - q|) (hb : |b - r| ≤ |a - r|) :
    a ≤ b := by
  by_contra hlt
  rw [not_le] at hlt
  rw [← sq_le_sq] at ha hb
  have hq : a + b ≤ 2 * q := by nlinarith
  have hr : 2 * r ≤ a + b := by nlinarith
  linarith

/-- A whole number to which no other is nearer, and which is even where another one is as near. -/
structure IsNearestWhole (q : ℚ) (n : Nat) : Prop where
  near : |(n : ℚ) - q| ≤ 1 / 2
  even_of_half : |(n : ℚ) - q| = 1 / 2 → Even n

namespace IsNearestWhole

variable {m n : Nat}

theorem of_lt (h : |(n : ℚ) - q| < 1 / 2) : IsNearestWhole q n := ⟨h.le, fun he => absurd he h.ne⟩

theorem unique (h : IsNearestWhole q m) (h' : IsNearestWhole q n) : m = n := by
  by_contra hne
  have hdist := one_le_abs_add_abs hne q
  have hm := h.near
  have hn := h'.near
  have hmn : |(m : ℚ) - n| ≤ 1 := by
    calc |(m : ℚ) - n| ≤ |m - q| + |q - n| := abs_sub_le _ _ _
      _ ≤ 1 := by rw [abs_sub_comm q]; linarith
  have hsteps : |(m : Int) - n| ≤ 1 := by exact_mod_cast hmn
  -- Neighbours are not both even.
  obtain ⟨k, hk⟩ := h.even_of_half (by linarith)
  obtain ⟨l, hl⟩ := h'.even_of_half (by linarith)
  rw [abs_le] at hsteps
  omega

theorem mono (h : IsNearestWhole q m) (h' : IsNearestWhole r n) (hqr : q ≤ r) : m ≤ n := by
  rcases hqr.eq_or_lt with rfl | hlt
  · exact (h.unique h').le
  · exact_mod_cast le_of_nearest hlt (abs_sub_le_of_near h.near n) (abs_sub_le_of_near h'.near m)

end IsNearestWhole

theorem isNearestWhole_roundDiv (n : Nat) {d : Nat} (hd : 0 < d) :
    IsNearestWhole (n / d) (roundDiv n d) := ⟨(roundDiv_near hd).1, (roundDiv_near hd).2⟩

theorem Format.Canonical.lt_limit {f : Format} {s : Nat} {e : Int} (h : f.Canonical s e) :
    (s * 2 ^ e : ℚ) < f.limit := by
  have hs : (s + 1 : ℚ) ≤ 2 ^ f.precision := by exact_mod_cast h.1
  have he : (2 : ℚ) ^ e ≤ 2 ^ f.greatest := zpow_le_zpow_right₀ one_le_two h.2.2.1
  calc (s * 2 ^ e : ℚ) ≤ s * 2 ^ f.greatest := by gcongr
    _ < f.limit := by
      rw [limit]
      gcongr
      linarith

theorem Format.exists_canonical {f : Format} {m : Nat} {e : Int} (hm : m < 2 ^ f.precision)
    (hleast : f.least + f.precision ≤ e) (hgreatest : e ≤ f.greatest) :
    ∃ t k, f.Canonical t k ∧ (t * 2 ^ k : ℚ) = m * 2 ^ e := by
  rcases Nat.eq_zero_or_pos m with rfl | hpos
  · exact ⟨0, _, f.canonical_zero, by simp⟩
  have hlog : m.log2 < f.precision := (Nat.log2_lt hpos.ne').mpr hm
  obtain ⟨j, hj⟩ : ∃ j, m.log2 + 1 + j = f.precision := ⟨f.precision - m.log2 - 1, by omega⟩
  have hlow : 2 ^ m.log2 ≤ m := Nat.log2_self_le hpos.ne'
  have hhigh : m < 2 ^ (m.log2 + 1) := Nat.lt_log2_self
  refine ⟨m * 2 ^ j, e - j, ⟨?_, by omega, by omega, .inr ?_⟩, ?_⟩
  · calc m * 2 ^ j < 2 ^ (m.log2 + 1) * 2 ^ j := Nat.mul_lt_mul_of_pos_right hhigh (by positivity)
      _ = 2 ^ f.precision := by rw [← pow_add, hj]
  · calc 2 ^ f.precision = 2 * (2 ^ m.log2 * 2 ^ j) := by
          rw [← hj, pow_add, pow_succ]
          ring
      _ ≤ 2 * (m * 2 ^ j) := by gcongr
  · push_cast
    rw [zpow_sub₀ two_ne_zero, zpow_natCast]
    field_simp

theorem Format.exists_canonical_of_le {f : Format} {m : Nat} {e : Int} (hp : 1 < f.precision)
    (hm : m ≤ 2 ^ f.precision) (hleast : f.least + f.precision ≤ e)
    (hgreatest : e + f.precision ≤ f.greatest) :
    ∃ t k, f.Canonical t k ∧ (t * 2 ^ k : ℚ) = m * 2 ^ e := by
  rcases hm.lt_or_eq with hlt | heq
  · exact exists_canonical hlt hleast (by omega)
  · have hone : 1 < 2 ^ f.precision := Nat.one_lt_two_pow (by omega)
    obtain ⟨t, k, hcanonical, hvalue⟩ :=
      exists_canonical hone (e := e + f.precision) (by omega) hgreatest
    refine ⟨t, k, hcanonical, hvalue.trans ?_⟩
    rw [heq, zpow_add₀ two_ne_zero, zpow_natCast]
    push_cast
    ring

namespace Binary

variable {f g : Format} {x y : Binary f} {n d : Nat}

/-- Where a number is in the order of all, the infinities included. A NaN is nowhere. -/
def place : Binary f → WithBot (WithTop ℚ)
  | infinity negative => if negative then ⊥ else ⊤
  | x => ((x.value : WithTop ℚ) : WithBot (WithTop ℚ))

theorem value_finite_false {s : Nat} {e : Int} (h : f.Canonical s e) :
    (finite false s e h).value = s * 2 ^ e := rfl

theorem rounds_ofQuotient (hp : 1 < f.precision) (hd : 0 < d) (hlt : (n / d : ℚ) < f.limit) :
    Rounds (n / d) (ofQuotient false n d : Binary f) := by
  have hnonneg : (0 : ℚ) ≤ n / d := by positivity
  rcases ofQuotient_spec (f := f) hp false hd (n := n) with ⟨_, s, e, h, heq, hnearest⟩ | ⟨hle, _⟩
  · rw [heq, rounds_iff, abs_of_nonneg hnonneg]
    exact ⟨hlt, s, e, h, by rw [decide_eq_false (not_lt.mpr hnonneg)], hnearest⟩
  · exact absurd hlt (not_lt.mpr hle)

namespace Rounds

theorem isFinite (h : Rounds q x) : x.isFinite = true := by
  obtain ⟨s, e, hc, rfl⟩ := h.finite
  rfl

theorem mono (hp : 1 < f.precision) (hx : Rounds q x) (hy : Rounds r y) (h : q ≤ r) :
    x.value ≤ y.value := by
  rcases h.eq_or_lt with rfl | hlt
  · rw [hx.unique hp hy]
  · exact le_of_nearest hlt (hx.dist_le hy.isFinite) (hy.dist_le hx.isFinite)

theorem dist_le_of_le {k : Int} (h : Rounds q x) (hp : 1 < f.precision) (hq : 0 ≤ q)
    (hle : q ≤ 2 ^ k) (hleast : f.least + 2 * f.precision ≤ k) (hgreatest : k ≤ f.greatest) :
    |x.value - q| ≤ 2 ^ (k - f.precision) / 2 := by
  obtain ⟨e, he⟩ : ∃ e, e + f.precision = k := ⟨k - f.precision, by omega⟩
  rw [← he, add_sub_cancel_right]
  have hunit : (0 : ℚ) < 2 ^ e := by positivity
  obtain ⟨m, hnear⟩ : ∃ m : Nat, |(m : ℚ) - q / 2 ^ e| ≤ 1 / 2 := by
    have hfloor := Nat.floor_le (show 0 ≤ q / 2 ^ e + 1 / 2 by positivity)
    have hsucc := Nat.lt_floor_add_one (q / 2 ^ e + 1 / 2)
    exact ⟨⌊q / 2 ^ e + 1 / 2⌋₊, abs_le.mpr ⟨by linarith, by linarith⟩⟩
  have hm : m ≤ 2 ^ f.precision := by
    have hquotient : q / 2 ^ e ≤ 2 ^ f.precision := by
      rwa [div_le_iff₀ hunit, ← zpow_natCast, ← zpow_add₀ two_ne_zero, add_comm, he]
    have hcast : (m : ℚ) < (2 ^ f.precision + 1 : Nat) := by
      push_cast
      linarith [(abs_le.mp hnear).2]
    exact Nat.lt_succ_iff.mp (by exact_mod_cast hcast)
  obtain ⟨t, j, hcanonical, hvalue⟩ :=
    Format.exists_canonical_of_le hp hm (by omega) (he.le.trans hgreatest)
  have hdist := h.dist_le (y := Binary.finite false t j hcanonical) rfl
  rw [value_finite_false, hvalue, Format.abs_mul_zpow_sub] at hdist
  calc |x.value - q| ≤ |(m : ℚ) - q / 2 ^ e| * 2 ^ e := hdist
    _ ≤ 1 / 2 * 2 ^ e := mul_le_mul_of_nonneg_right hnear hunit.le
    _ = 2 ^ e / 2 := by ring

end Rounds

theorem quotient_div (s : Nat) (e : Int) :
    ((quotient s e).1 : ℚ) / (quotient s e).2 = s * 2 ^ e := by
  rw [quotient, inUnits_div, Nat.cast_one, div_one, zpow_neg, div_inv_eq_mul]

theorem ofQuotient_of_div_eq {s : Nat} {e : Int} (negative : Bool) (h : f.Canonical s e)
    (hd : 0 < d) (hv : (n / d : ℚ) = s * 2 ^ e) :
    (ofQuotient negative n d : Binary f) = finite negative s e h := by
  rcases eq_or_ne s 0 with rfl | hs
  · have hn : n = 0 := by
      rw [Nat.cast_zero, zero_mul, div_eq_zero_iff, Nat.cast_eq_zero, Nat.cast_eq_zero] at hv
      exact hv.resolve_right hd.ne'
    obtain rfl := h.exponent_eq_least
    rw [hn]
    rfl
  · exact ofQuotient_exact negative h hs hd hv

theorem rounds_of_canonical {s : Nat} {e : Int} (hp : 1 < f.precision) (h : f.Canonical s e) :
    Rounds (s * 2 ^ e) (finite false s e h) := by
  have hd : 0 < (quotient s e).2 := snd_inUnits_pos s Nat.one_pos (-e)
  have hrounds := rounds_ofQuotient (f := f) (n := (quotient s e).1) hp hd
    (by rw [quotient_div]; exact h.lt_limit)
  rwa [quotient_div, ofQuotient_of_div_eq false h hd (quotient_div s e)] at hrounds

theorem exists_rounds_natCast {m : Nat} (hp : 1 < f.precision) (hm : m < 2 ^ f.precision)
    (hleast : f.least + f.precision ≤ 0) (hgreatest : 0 ≤ f.greatest) :
    ∃ x : Binary f, Rounds m x ∧ x.value = m := by
  obtain ⟨t, k, h, hvalue⟩ := Format.exists_canonical hm hleast hgreatest
  rw [zpow_zero, mul_one] at hvalue
  exact ⟨finite false t k h, hvalue ▸ rounds_of_canonical hp h, hvalue⟩

def convert : Binary f → Binary g
  | nan => nan
  | infinity negative => infinity negative
  | finite negative s e _ => ofQuotient negative (quotient s e).1 (quotient s e).2

theorem convert_exact (hp : f.precision ≤ g.precision) (hleast : g.least + g.precision ≤ f.least)
    (hgreatest : f.greatest ≤ g.greatest) (hx : x.isFinite = true) :
    (convert x : Binary g).isFinite = true ∧ (convert x : Binary g).value = x.value := by
  cases x with
  | finite negative s e h =>
    have hlt : s < 2 ^ g.precision := h.1.trans_le (Nat.pow_le_pow_right two_pos hp)
    obtain ⟨t, k, hcanonical, hvalue⟩ := Format.exists_canonical hlt
      (hleast.trans h.2.1) (h.2.2.1.trans hgreatest)
    have hconvert : (convert (finite negative s e h) : Binary g) = finite negative t k hcanonical :=
      ofQuotient_of_div_eq negative hcanonical (snd_inUnits_pos s Nat.one_pos (-e))
        ((quotient_div s e).trans hvalue.symm)
    rw [hconvert]
    refine ⟨rfl, ?_⟩
    simp only [value, hvalue]
  | _ => cases hx

end Binary

end SceneEditor.Number
