import SceneEditor.Proofs.Number.Layout
import SceneEditor.Proofs.Number.Order

/-!
Whole numbers among the doubles. The numeral that is chosen for a double has a whole value exactly if
the double has: for a whole number not more digits are tried than it has before the point, and no
whole numeral reads back as a number with a fraction.
-/

namespace SceneEditor.Number

def IsWhole (q : ℚ) : Prop := ∃ m : Nat, q = m

theorem findSome?_range {α : Type} {f : Nat → Option α} {n m : Nat} (hm : m < n)
    (hf : f m ≠ none) : ∃ k ≤ m, ∃ x, (List.range n).findSome? f = some x ∧ f k = some x := by
  induction n with
  | zero => omega
  | succ n ih =>
    rw [List.range_succ, List.findSome?_append]
    rcases Nat.lt_succ_iff_lt_or_eq.mp hm with hlt | rfl
    · obtain ⟨k, hk, x, hfound, hx⟩ := ih hlt
      exact ⟨k, hk, x, by rw [hfound]; rfl, hx⟩
    · cases hfound : (List.range m).findSome? f with
      | some x =>
        obtain ⟨k, hk, hx⟩ := List.exists_of_findSome?_eq_some hfound
        exact ⟨k, (List.mem_range.mp hk).le, x, rfl, hx⟩
      | none =>
        obtain ⟨x, hx⟩ := Option.ne_none_iff_exists'.mp hf
        exact ⟨m, Nat.le_refl m, x, by simp [hx], hx⟩

namespace Binary

variable {s : Nat} {e : Int}

theorem ofDecimal_of_value_eq (h : Format.double.Canonical s e) (hs : s ≠ 0) {x : Decimal}
    (hx : x.value = s * 2 ^ e) : ofDecimal false x = finite false s e h := by
  rw [← ofDecimal_expansion h hs]
  exact ofDecimal_congr false (hx.trans (value_expansion s e).symm)

theorem nearest_of_ofDecimal {x : Decimal} {h : Format.double.Canonical s e}
    (hx : ofDecimal false x = finite false s e h) : Format.double.Nearest x.value s e := by
  rw [ofDecimal_eq_ofQuotient] at hx
  have hpos := Decimal.snd_inUnits_pos x.digits Nat.one_pos (-x.exponent)
  rw [← x.inUnits_eq_value]
  rcases ofQuotient_spec (f := .double) (by decide) false hpos
    (n := (Decimal.inUnits x.digits 1 (-x.exponent)).1) with
    ⟨_, t, k, h', heq, hnearest⟩ | ⟨_, hinfinity⟩
  · rw [heq, finite.injEq] at hx
    obtain ⟨_, rfl, rfl⟩ := hx
    exact hnearest
  · rw [hinfinity] at hx
    cases hx

theorem exists_canonical_of_lt {m : Nat} (hm : m < 2 ^ 53) :
    ∃ t k, Format.double.Canonical t k ∧ (t * 2 ^ k : ℚ) = m := by
  have h := Format.exists_canonical (f := .double) (e := 0) hm (by decide) (by decide)
  simpa only [zpow_zero, mul_one] using h

theorem isWhole_of_nearest {m : Nat} (h : Format.double.Nearest m s e) :
    IsWhole (s * 2 ^ e : ℚ) := by
  by_cases he : 0 ≤ e
  · obtain ⟨j, rfl⟩ := Int.eq_ofNat_of_zero_le he
    exact ⟨s * 2 ^ j, by push_cast; rw [zpow_natCast]⟩
  · have hsmall : (s * 2 ^ e : ℚ) < 2 ^ 52 := by
      calc (s * 2 ^ e : ℚ) < 2 ^ ((53 : Int) + e) := h.canonical.lt_two_zpow
        _ ≤ 2 ^ (52 : Int) := zpow_le_zpow_right₀ one_le_two (by omega)
        _ = 2 ^ 52 := by norm_num
    -- A small whole number is a double itself, and from a large one there is a nearer double.
    rcases Nat.lt_or_ge m (2 ^ 53) with hm | hm
    · obtain ⟨t, k, ht, hvalue⟩ := exists_canonical_of_lt hm
      have hdist := h.dist_le ht
      rw [hvalue, sub_self, abs_zero, abs_nonpos_iff, sub_eq_zero] at hdist
      exact ⟨m, hdist⟩
    · obtain ⟨t, k, ht, hvalue⟩ := exists_canonical_of_lt (m := 2 ^ 53 - 1) (by decide)
      have hdist := h.dist_le ht
      have hmq : (2 : ℚ) ^ 53 ≤ m := by exact_mod_cast hm
      have hcast : ((2 ^ 53 - 1 : Nat) : ℚ) = 2 ^ 53 - 1 := by norm_num
      rw [hvalue, hcast, abs_sub_comm, abs_of_pos (by linarith), abs_sub_comm,
        abs_of_pos (by linarith)] at hdist
      linarith

theorem exponent_numeral? {h : Format.double.Canonical s e} {count : Nat} {x : Decimal}
    (hx : numeral? s e h count = some x) :
    x.exponent = Decimal.magnitude (quotient s e).1 (quotient s e).2 - count := by
  simp only [numeral?] at hx
  split at hx
  · obtain rfl := Option.some.inj hx
    rfl
  · obtain rfl := Option.some.inj hx
    rfl
  · obtain rfl := Option.some.inj hx
    rfl
  · cases hx

section Whole

variable {m : Nat} (hm : (s * 2 ^ e : ℚ) = m)

include hm

theorem fst_quotient_of_whole : (quotient s e).1 = m * (quotient s e).2 := by
  have hd : 0 < (quotient s e).2 := snd_inUnits_pos s Nat.one_pos (-e)
  have hdiv := (quotient_div s e).trans hm
  rw [div_eq_iff (by positivity)] at hdiv
  exact_mod_cast hdiv

theorem magnitude_of_whole (hs : s ≠ 0) :
    Decimal.magnitude (quotient s e).1 (quotient s e).2 = Decimal.width m := by
  have hd : 0 < (quotient s e).2 := snd_inUnits_pos s Nat.one_pos (-e)
  have hpos : (0 : ℚ) < m := by
    rw [← hm]
    have := Nat.pos_of_ne_zero hs
    positivity
  have hmpos : 0 < m := by exact_mod_cast hpos
  have hle : (quotient s e).2 ≤ (quotient s e).1 := by
    rw [fst_quotient_of_whole hm]
    exact Nat.le_mul_of_pos_left _ hmpos
  rw [Decimal.magnitude, if_pos hle, fst_quotient_of_whole hm, Nat.mul_div_cancel _ hd]

theorem numeral?_of_whole (h : Format.double.Canonical s e) (hs : s ≠ 0) :
    numeral? s e h (Decimal.width m) ≠ none := by
  have hd : 0 < (quotient s e).2 := snd_inUnits_pos s Nat.one_pos (-e)
  have hbelow : ofDecimal false ⟨m, 0⟩ = finite false s e h :=
    ofDecimal_of_value_eq h hs (by simp [Decimal.value, hm])
  have hunit : Decimal.magnitude (quotient s e).1 (quotient s e).2 - (Decimal.width m : Int) = 0 := by
    rw [magnitude_of_whole hm hs, sub_self]
  have hdigits : (Decimal.inUnits (quotient s e).1 (quotient s e).2 0).1 /
      (Decimal.inUnits (quotient s e).1 (quotient s e).2 0).2 = m := by
    have hunits : Decimal.inUnits (quotient s e).1 (quotient s e).2 0 =
        ((quotient s e).1, (quotient s e).2) := by simp [Decimal.inUnits]
    rw [hunits, fst_quotient_of_whole hm, Nat.mul_div_cancel _ hd]
  intro hnone
  simp only [numeral?, hunit, hdigits, hbelow, decide_true] at hnone
  split at hnone
  · cases hnone
  · cases hnone
  · next hfalse _ => cases hfalse
  · next hfalse _ => cases hfalse

end Whole

theorem isWhole_shortest_iff (h : Format.double.Canonical s e) (hs : s ≠ 0) :
    IsWhole (shortest s e h).value ↔ IsWhole (s * 2 ^ e : ℚ) := by
  constructor
  · rintro ⟨m, hm⟩
    have hnearest := nearest_of_ofDecimal (ofDecimal_shortest false h hs)
    rw [hm] at hnearest
    exact isWhole_of_nearest hnearest
  · rintro ⟨m, hm⟩
    have hwidth : 0 < Decimal.width m := List.length_pos_iff.mpr Nat.toDigits_ne_nil
    have hexponent {k : Nat} {x : Decimal} (hk : k < Decimal.width m)
        (hx : numeral? s e h (k + 1) = some x) : IsWhole x.value := by
      have hx := exponent_numeral? hx
      rw [magnitude_of_whole hm hs] at hx
      obtain ⟨j, hj⟩ : ∃ j : Nat, x.exponent = j := Int.eq_ofNat_of_zero_le (by omega)
      exact ⟨x.digits * 10 ^ j, by rw [Decimal.value, hj, zpow_natCast]; push_cast; rfl⟩
    unfold shortest
    by_cases hlt : Decimal.width m ≤ Format.double.precision
    · obtain ⟨k, hk, x, hx, hxk⟩ := findSome?_range
        (f := fun k => numeral? s e h (k + 1)) (n := Format.double.precision)
        (m := Decimal.width m - 1) (by omega)
        (by rw [Nat.sub_add_cancel hwidth]; exact numeral?_of_whole hm h hs)
      rw [hx]
      exact hexponent (by omega) hxk
    · cases hx : (List.range Format.double.precision).findSome? fun k => numeral? s e h (k + 1) with
      | some x =>
        obtain ⟨k, hk, hxk⟩ := List.exists_of_findSome?_eq_some hx
        exact hexponent (by have := List.mem_range.mp hk; omega) hxk
      | none => exact ⟨m, (value_expansion s e).trans hm⟩

end Binary
end SceneEditor.Number
