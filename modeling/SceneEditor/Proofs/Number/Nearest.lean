import SceneEditor.Proofs.Number.Rounding

namespace SceneEditor.Number

section Whole

variable {n d s m : Nat} {y : ℚ}

theorem roundDiv_near (hd : 0 < d) : |(roundDiv n d : ℚ) - n / d| ≤ 1 / 2 ∧
    (|(roundDiv n d : ℚ) - n / d| = 1 / 2 → Even (roundDiv n d)) := by
  have hdq : (0 : ℚ) < d := by exact_mod_cast hd
  have hdiv : (n : ℚ) / d = (n / d : Nat) + (n % d : Nat) / d := by
    rw [div_eq_iff hdq.ne', add_mul, div_mul_cancel₀ _ hdq.ne', mul_comm]
    exact_mod_cast (Nat.div_add_mod n d).symm
  have hlt : ((n % d : Nat) : ℚ) / d < 1 := by
    rw [div_lt_one hdq]
    exact_mod_cast Nat.mod_lt n hd
  have hnonneg : (0 : ℚ) ≤ (n % d : Nat) / d := by positivity
  have hhalf : ((n % d : Nat) : ℚ) / d < 1 / 2 ↔ 2 * (n % d) < d := by
    rw [div_lt_div_iff₀ hdq two_pos, one_mul, mul_comm]
    exact_mod_cast Iff.rfl
  have htie : ((n % d : Nat) : ℚ) / d = 1 / 2 ↔ 2 * (n % d) = d := by
    rw [div_eq_div_iff hdq.ne' two_ne_zero, one_mul, mul_comm]
    exact_mod_cast Iff.rfl
  rw [hdiv]
  simp only [roundDiv]
  split
  · next hdown =>
    have hdist : |((n / d : Nat) : ℚ) - ((n / d : Nat) + (n % d : Nat) / d)| =
        ((n % d : Nat) : ℚ) / d := by rw [sub_add_cancel_left, abs_neg, abs_of_nonneg hnonneg]
    rw [hdist]
    rcases hdown with hdown | ⟨heq, heven⟩
    · exact ⟨(hhalf.mpr hdown).le, fun h => absurd (hhalf.mpr hdown) h.not_lt⟩
    · exact ⟨(htie.mpr heq).le, fun _ => Nat.even_iff.mpr heven⟩
  · next hup =>
    have hdist : |((n / d + 1 : Nat) : ℚ) - ((n / d : Nat) + (n % d : Nat) / d)| =
        1 - ((n % d : Nat) : ℚ) / d := by
      rw [Nat.cast_add_one, add_sub_add_left_eq_sub, abs_of_nonneg (by linarith)]
    rw [hdist]
    rw [not_or, ← hhalf, not_lt] at hup
    refine ⟨by linarith [hup.1], fun h => ?_⟩
    have heq := htie.mp (by linarith)
    have hodd : ¬ n / d % 2 = 0 := fun heven => hup.2 ⟨heq, heven⟩
    rw [Nat.even_iff]
    omega

theorem one_le_abs_add_abs (hne : m ≠ s) (y : ℚ) : 1 ≤ |(s : ℚ) - y| + |m - y| := by
  have hdist : (1 : Int) ≤ |(m : Int) - s| := Int.one_le_abs (by omega)
  calc (1 : ℚ) ≤ |(m : ℚ) - s| := by exact_mod_cast hdist
    _ ≤ |(m : ℚ) - y| + |(y : ℚ) - s| := abs_sub_le _ _ _
    _ = |(s : ℚ) - y| + |m - y| := by rw [abs_sub_comm y, add_comm]

theorem abs_sub_le_of_near (h : |(s : ℚ) - y| ≤ 1 / 2) (m : Nat) : |(s : ℚ) - y| ≤ |m - y| := by
  rcases eq_or_ne m s with rfl | hne
  · exact le_rfl
  · linarith [one_le_abs_add_abs hne y]

theorem abs_sub_eq_half_of_tie (h : |(s : ℚ) - y| ≤ 1 / 2) (hne : m ≠ s)
    (htie : |(s : ℚ) - y| = |m - y|) : |(s : ℚ) - y| = 1 / 2 := by
  linarith [one_le_abs_add_abs hne y]

end Whole

namespace Format

/-- What reaches the middle between the largest number and the next power of two is out of range. -/
def limit (f : Format) : ℚ := (2 ^ f.precision - 1 / 2) * 2 ^ f.greatest

/-- A number of the format to which no other is nearer than to it. When another one is as near, the
significand is even. -/
structure Nearest (f : Format) (q : ℚ) (s : Nat) (e : Int) : Prop where
  canonical : f.Canonical s e
  dist_le : ∀ {t k}, f.Canonical t k → |(s * 2 ^ e : ℚ) - q| ≤ |t * 2 ^ k - q|
  even_of_tie : ∀ {t k}, f.Canonical t k → (t * 2 ^ k : ℚ) ≠ s * 2 ^ e →
    |(s * 2 ^ e : ℚ) - q| = |t * 2 ^ k - q| → Even s

/-- The whole number of units nearest to a rational number. The units are the smallest with which
the precision suffices. -/
structure Scaled (f : Format) (q : ℚ) (s : Nat) (e : Int) : Prop where
  least_le : f.least ≤ e
  near : |(s : ℚ) - q / 2 ^ e| ≤ 1 / 2
  even_of_half : |(s : ℚ) - q / 2 ^ e| = 1 / 2 → Even s
  lt_two_zpow : q < 2 ^ (f.precision + e)
  filled : e = f.least ∨ 2 ^ (f.precision - 1 + e) ≤ q

variable {f : Format} {s t : Nat} {e k : Int} {q : ℚ}

theorem Canonical.lt_two_zpow (h : f.Canonical t k) : (t * 2 ^ k : ℚ) < 2 ^ (f.precision + k) := by
  have hlt : (t : ℚ) < 2 ^ f.precision := by exact_mod_cast h.1
  rw [zpow_add₀ two_ne_zero, zpow_natCast]
  gcongr

theorem abs_mul_zpow_sub (x q : ℚ) (e : Int) : |x * 2 ^ e - q| = |x - q / 2 ^ e| * 2 ^ e := by
  have hpos : (0 : ℚ) < 2 ^ e := by positivity
  rw [← abs_of_pos hpos, ← abs_mul, abs_of_pos hpos, sub_mul, div_mul_cancel₀ _ hpos.ne']

section Scaled

variable (hp : 1 < f.precision)

include hp

theorem two_pow_precision : 2 ^ f.precision = 2 * 2 ^ (f.precision - 1) := by
  rw [← Nat.pow_succ', Nat.succ_eq_add_one, Nat.sub_add_cancel (by omega)]

theorem natCast_two_pow_mul : ((2 ^ (f.precision - 1) : Nat) * 2 ^ e : ℚ) =
    2 ^ (f.precision - 1 + e) := by
  have hcast : ((f.precision - 1 : Nat) : Int) = f.precision - 1 := by omega
  rw [zpow_add₀ two_ne_zero, ← hcast, zpow_natCast]
  push_cast
  rfl

namespace Scaled

omit hp in
theorem dist_le_mul (h : f.Scaled q s e) (m : Nat) : |(s * 2 ^ e : ℚ) - q| ≤ |m * 2 ^ e - q| := by
  rw [abs_mul_zpow_sub, abs_mul_zpow_sub]
  exact mul_le_mul_of_nonneg_right (abs_sub_le_of_near h.near m) (by positivity)

theorem exists_units (h : f.Scaled q s e) (ht : f.Canonical t k) :
    |(s * 2 ^ e : ℚ) - q| < |t * 2 ^ k - q| ∨ ∃ m : Nat, (t * 2 ^ k : ℚ) = m * 2 ^ e := by
  by_cases hk : e ≤ k
  · right
    obtain ⟨j, hj⟩ := Int.le.dest hk
    refine ⟨t * 2 ^ j, ?_⟩
    rw [← hj, zpow_add₀ two_ne_zero, zpow_natCast]
    push_cast
    ring
  · left
    have hleast := ht.2.1
    have hfilled := h.filled.resolve_left (by omega)
    have hlt : (t * 2 ^ k : ℚ) < 2 ^ (f.precision - 1 + e) :=
      lt_of_lt_of_le ht.lt_two_zpow (zpow_le_zpow_right₀ one_le_two (by omega))
    calc |(s * 2 ^ e : ℚ) - q| ≤ |(2 ^ (f.precision - 1) : Nat) * 2 ^ e - q| := h.dist_le_mul _
      _ = q - 2 ^ (f.precision - 1 + e) := by
        rw [natCast_two_pow_mul hp, abs_sub_comm, abs_of_nonneg (by linarith)]
      _ < q - t * 2 ^ k := by linarith
      _ ≤ |t * 2 ^ k - q| := by
        rw [abs_sub_comm]
        exact le_abs_self _

theorem dist_le (h : f.Scaled q s e) (ht : f.Canonical t k) :
    |(s * 2 ^ e : ℚ) - q| ≤ |t * 2 ^ k - q| := by
  rcases h.exists_units hp ht with hlt | ⟨m, hm⟩
  · exact hlt.le
  · rw [hm]
    exact h.dist_le_mul m

theorem even_of_tie (h : f.Scaled q s e) (ht : f.Canonical t k)
    (hne : (t * 2 ^ k : ℚ) ≠ s * 2 ^ e) (htie : |(s * 2 ^ e : ℚ) - q| = |t * 2 ^ k - q|) :
    Even s := by
  rcases h.exists_units hp ht with hlt | ⟨m, hm⟩
  · exact absurd htie hlt.ne
  · have hpos : (0 : ℚ) < 2 ^ e := by positivity
    rw [hm, abs_mul_zpow_sub, abs_mul_zpow_sub, mul_left_inj' hpos.ne'] at htie
    refine h.even_of_half (abs_sub_eq_half_of_tie h.near ?_ htie)
    rintro rfl
    exact hne hm

omit hp in
theorem le_two_pow (h : f.Scaled q s e) : s ≤ 2 ^ f.precision := by
  have hlt : q / 2 ^ e < 2 ^ f.precision := by
    rw [div_lt_iff₀ (by positivity), ← zpow_natCast, ← zpow_add₀ two_ne_zero]
    exact h.lt_two_zpow
  have hs := (abs_le.mp h.near).2
  have hcast : (s : ℚ) < (2 ^ f.precision + 1 : Nat) := by
    push_cast
    linarith
  exact Nat.lt_succ_iff.mp (by exact_mod_cast hcast)

theorem two_pow_le (h : f.Scaled q s e) (he : e ≠ f.least) : 2 ^ f.precision ≤ 2 * s := by
  have hle : ((2 ^ (f.precision - 1) : Nat) : ℚ) ≤ q / 2 ^ e := by
    rw [le_div_iff₀ (by positivity), natCast_two_pow_mul hp]
    exact h.filled.resolve_left he
  have hs := (abs_le.mp h.near).1
  have hcast : ((2 ^ (f.precision - 1) : Nat) : ℚ) < (s + 1 : Nat) := by
    push_cast at hle ⊢
    linarith
  have hlt : 2 ^ (f.precision - 1) < s + 1 := by exact_mod_cast hcast
  rw [two_pow_precision hp]
  omega

theorem nearest (h : f.Scaled q s e) (hs : s < 2 ^ f.precision) (he : e ≤ f.greatest) :
    f.Nearest q s e where
  canonical := ⟨hs, h.least_le, he, or_iff_not_imp_left.mpr (h.two_pow_le hp)⟩
  dist_le := h.dist_le hp
  even_of_tie := h.even_of_tie hp

theorem nearest_of_full (h : f.Scaled q (2 ^ f.precision) e) (he : e < f.greatest) :
    f.Nearest q (2 ^ (f.precision - 1)) (e + 1) := by
  have hvalue : ((2 ^ (f.precision - 1) : Nat) * 2 ^ (e + 1) : ℚ) =
      (2 ^ f.precision : Nat) * 2 ^ e := by
    rw [natCast_two_pow_mul hp, sub_add_add_cancel, zpow_add₀ two_ne_zero, zpow_natCast]
    push_cast
    rfl
  have hlt : 2 ^ (f.precision - 1) < 2 ^ f.precision :=
    Nat.pow_lt_pow_right one_lt_two (by omega)
  have hleast := h.least_le
  refine ⟨⟨hlt, by omega, by omega, .inr (two_pow_precision hp).le⟩, ?_, ?_⟩
  · intro t k ht
    rw [hvalue]
    exact h.dist_le hp ht
  · intro t k _ _ _
    exact (even_two.pow_of_ne_zero (by omega))

omit hp in
theorem lt_limit_of_lt (h : f.Scaled q s e) (he : e < f.greatest) : q < f.limit := by
  have hone : (1 : ℚ) ≤ 2 ^ f.precision := one_le_pow₀ one_le_two
  calc q < 2 ^ (f.precision + e) := h.lt_two_zpow
    _ ≤ 2 ^ (f.precision + (f.greatest - 1)) :=
      zpow_le_zpow_right₀ one_le_two (by omega)
    _ = (2 ^ f.precision / 2) * 2 ^ f.greatest := by
      rw [zpow_add₀ two_ne_zero, zpow_sub_one₀ two_ne_zero, zpow_natCast]
      ring
    _ ≤ f.limit := by
      rw [limit]
      gcongr
      linarith

theorem lt_limit (h : f.Scaled q s e) (hs : s < 2 ^ f.precision) (he : e ≤ f.greatest) :
    q < f.limit := by
  rcases he.lt_or_eq with he | rfl
  · exact h.lt_limit_of_lt he
  rw [limit, ← div_lt_iff₀ (by positivity)]
  by_contra hle
  rw [not_lt] at hle
  have hsucc : (s : ℚ) + 1 ≤ 2 ^ f.precision := by exact_mod_cast hs
  obtain ⟨hlow, hhigh⟩ := abs_le.mp h.near
  -- A significand just below the power of two is odd, so what is half a unit above goes up.
  have hhalf : |(s : ℚ) - q / 2 ^ f.greatest| = 1 / 2 := by
    rw [abs_sub_comm, abs_of_nonneg] <;> linarith
  have heven := h.even_of_half hhalf
  have hodd : s + 1 = 2 ^ f.precision := by
    have hcast : (s : ℚ) + 1 = 2 ^ f.precision := by linarith
    exact_mod_cast hcast
  have hpow : Even (s + 1) := by
    rw [hodd]
    exact even_two.pow_of_ne_zero (by omega)
  exact Nat.not_even_iff_odd.mpr heven.add_one hpow

omit hp in
theorem limit_le_of_full (h : f.Scaled q (2 ^ f.precision) e) (he : f.greatest ≤ e) :
    f.limit ≤ q := by
  have hlow := (abs_le.mp h.near).2
  have hone : (1 : ℚ) ≤ 2 ^ f.precision := one_le_pow₀ one_le_two
  push_cast at hlow
  calc f.limit ≤ (2 ^ f.precision - 1 / 2) * 2 ^ e := by
        rw [limit]
        have := zpow_le_zpow_right₀ one_le_two (a := (2 : ℚ)) he
        exact mul_le_mul_of_nonneg_left this (by linarith)
    _ ≤ q := by
      rw [← le_div_iff₀ (by positivity)]
      linarith

omit hp in
theorem limit_le (h : f.Scaled q s e) (he : f.greatest < e) : f.limit ≤ q := by
  have hfilled := h.filled.resolve_left (by have := f.least_le_greatest; omega)
  calc f.limit ≤ 2 ^ f.precision * 2 ^ f.greatest := by
        rw [limit]
        gcongr
        linarith
    _ = 2 ^ (f.precision + f.greatest) := by rw [zpow_add₀ two_ne_zero, zpow_natCast]
    _ ≤ 2 ^ (f.precision - 1 + e) := zpow_le_zpow_right₀ one_le_two (by omega)
    _ ≤ q := hfilled

end Scaled

end Scaled

theorem nearest_zero (f : Format) : f.Nearest 0 0 f.least where
  canonical := f.canonical_zero
  dist_le := by
    intro t k _
    rw [Nat.cast_zero, zero_mul, sub_zero, abs_zero]
    exact abs_nonneg _
  even_of_tie := fun _ _ _ => Even.zero

theorem limit_pos (f : Format) : 0 < f.limit := by
  have hone : (1 : ℚ) ≤ 2 ^ f.precision := one_le_pow₀ one_le_two
  exact mul_pos (by linarith) (by positivity)

theorem exists_scaled {n d : Nat} (f : Format) (negative : Bool) (hn : 0 < n) (hd : 0 < d) :
    ∃ s e, f.Scaled (n / d) s e ∧ (Binary.ofQuotient negative n d : Binary f) =
      if s = 2 ^ f.precision then Binary.ofParts negative (2 ^ (f.precision - 1)) (e + 1)
      else Binary.ofParts negative s e := by
  have hq : (0 : ℚ) < n / d := by positivity
  obtain ⟨e, he⟩ : ∃ e, e = max f.least (Int.log 2 (n / d : ℚ) - f.precision + 1) := ⟨_, rfl⟩
  refine ⟨_, e, ?_, Binary.ofQuotient_eq negative hn hd he rfl⟩
  obtain ⟨hnear, heven⟩ := roundDiv_near (n := (inUnits n d e).1) (snd_inUnits_pos n hd e)
  rw [inUnits_div] at hnear heven
  refine ⟨by omega, hnear, heven, ?_, ?_⟩
  · have hlt := (Int.lt_zpow_iff_log_lt (b := 2) (by decide) hq).mpr
      (show Int.log 2 (n / d : ℚ) < f.precision + e by omega)
    exact_mod_cast hlt
  · rcases eq_or_ne e f.least with hleast | hne
    · exact .inl hleast
    · right
      have hle := (Int.zpow_le_iff_le_log (b := 2) (by decide) hq).mpr
        (show (f.precision : Int) - 1 + e ≤ Int.log 2 (n / d : ℚ) by omega)
      exact_mod_cast hle

theorem Canonical.exponent_eq_least (h : f.Canonical 0 e) : e = f.least := by
  refine h.2.2.2.resolve_right ?_
  have hpos := Nat.two_pow_pos f.precision
  rw [Nat.mul_zero, Nat.pow_eq]
  omega

theorem Canonical.eq_of_value_eq (h : f.Canonical s e) (h' : f.Canonical t k)
    (hvalue : (s * 2 ^ e : ℚ) = t * 2 ^ k) : s = t ∧ e = k := by
  have hzero (m : Nat) (j : Int) : (m * 2 ^ j : ℚ) = 0 ↔ m = 0 := by
    rw [mul_eq_zero_iff_right (by positivity), Nat.cast_eq_zero]
  by_cases hs : s = 0
  · obtain rfl : t = 0 := by rw [← hzero t k, ← hvalue, hzero, hs]
    subst hs
    exact ⟨rfl, h.exponent_eq_least.trans h'.exponent_eq_least.symm⟩
  · have ht : t ≠ 0 := by rwa [ne_eq, ← hzero t k, ← hvalue, hzero]
    have hpos := snd_inUnits_pos s Nat.one_pos (-e)
    have hquotient : ((inUnits s 1 (-e)).1 : ℚ) / (inUnits s 1 (-e)).2 = s * 2 ^ e := by
      rw [inUnits_div, Nat.cast_one, div_one, zpow_neg, div_inv_eq_mul]
    have hsame := (Binary.ofQuotient_exact false h hs hpos hquotient).symm.trans
      (Binary.ofQuotient_exact false h' ht hpos (hquotient.trans hvalue))
    rw [Binary.finite.injEq] at hsame
    exact hsame.2

theorem Canonical.succ (h : f.Canonical s e) (hp : 1 < f.precision) (hs : Even s) :
    f.Canonical (s + 1) e := by
  obtain ⟨hlt, hleast, hgreatest, hfull⟩ := h
  have hpow : Even (2 ^ f.precision) := even_two.pow_of_ne_zero (by omega)
  have hne : s + 1 ≠ 2 ^ f.precision := fun he => Nat.not_even_iff_odd.mpr hs.add_one (he ▸ hpow)
  rw [Nat.pow_eq] at hlt hfull
  exact ⟨lt_of_le_of_ne hlt hne, hleast, hgreatest, hfull.imp_right fun hle => hle.trans (by omega)⟩

theorem Canonical.le_or_succ_le (h : f.Canonical s e) (h' : f.Canonical t k)
    (hlt : (s * 2 ^ e : ℚ) < t * 2 ^ k) : ((s + 1 : Nat) * 2 ^ e : ℚ) ≤ t * 2 ^ k := by
  by_cases hk : e ≤ k
  · obtain ⟨j, hj⟩ := Int.le.dest hk
    have hunits : (t * 2 ^ k : ℚ) = (t * 2 ^ j : Nat) * 2 ^ e := by
      rw [← hj, zpow_add₀ two_ne_zero, zpow_natCast]
      push_cast
      ring
    rw [hunits] at hlt ⊢
    have hst : s < t * 2 ^ j := by
      have := lt_of_mul_lt_mul_right hlt (by positivity)
      exact_mod_cast this
    gcongr
    exact_mod_cast hst
  · have hleast := h'.2.1
    have hfull : (2 ^ f.precision : ℚ) ≤ 2 * s := by exact_mod_cast h.2.2.2.resolve_left (by omega)
    refine absurd hlt (not_lt.mpr ?_)
    calc (t * 2 ^ k : ℚ) ≤ 2 ^ (f.precision + k) := h'.lt_two_zpow.le
      _ ≤ 2 ^ (f.precision + (e - 1)) := zpow_le_zpow_right₀ one_le_two (by omega)
      _ = 2 ^ f.precision * (2 ^ e / 2) := by
        rw [zpow_add₀ two_ne_zero, zpow_sub_one₀ two_ne_zero, zpow_natCast, div_eq_mul_inv]
      _ ≤ 2 * s * (2 ^ e / 2) := by gcongr
      _ = s * 2 ^ e := by ring

theorem Nearest.value_le (hp : 1 < f.precision) (h : f.Nearest q s e) (h' : f.Nearest q t k) :
    (t * 2 ^ k : ℚ) ≤ s * 2 ^ e := by
  by_contra hlt
  rw [not_le] at hlt
  have htie := le_antisymm (h.dist_le h'.canonical) (h'.dist_le h.canonical)
  have heven := h.even_of_tie h'.canonical hlt.ne' htie
  have hsucc := h.canonical.succ hp heven
  have hmiddle : (s * 2 ^ e : ℚ) + t * 2 ^ k = 2 * q := by
    rcases abs_eq_abs.mp htie with heq | heq <;> linarith
  have hle := h.canonical.le_or_succ_le h'.canonical hlt
  have hstep : (s * 2 ^ e : ℚ) < (s + 1 : Nat) * 2 ^ e := by
    gcongr
    exact Nat.lt_succ_self s
  rcases hle.eq_or_lt with heq | hbetween
  · -- Neighbours have significands of different parity.
    obtain ⟨rfl, rfl⟩ := hsucc.eq_of_value_eq h'.canonical heq
    exact Nat.not_even_iff_odd.mpr heven.add_one (h'.even_of_tie h.canonical hlt.ne htie.symm)
  · refine absurd (h'.dist_le hsucc) (not_le.mpr ?_)
    rw [abs_of_pos (a := (t * 2 ^ k : ℚ) - q) (by linarith), abs_lt]
    constructor <;> linarith

theorem Nearest.unique (hp : 1 < f.precision) (h : f.Nearest q s e) (h' : f.Nearest q t k) :
    s = t ∧ e = k :=
  h.canonical.eq_of_value_eq h'.canonical (le_antisymm (h'.value_le hp h) (h.value_le hp h'))

end Format

namespace Binary

variable {f : Format} {negative : Bool} {s : Nat} {e : Int} {x y : Binary f} {q : ℚ}

def isFinite : Binary f → Bool
  | finite _ _ _ _ => true
  | _ => false

def significand : Binary f → Nat
  | finite _ s _ _ => s
  | _ => 0

def value : Binary f → ℚ
  | finite negative s e _ => if negative then -(s * 2 ^ e) else s * 2 ^ e
  | _ => 0

/-- A rational number is rounded to a finite number: it is in range, keeps its sign, and no other
number is nearer; when another one is as near, the significand is even. -/
structure Rounds (q : ℚ) (x : Binary f) : Prop where
  in_range : |q| < f.limit
  finite : ∃ s e h, x = finite (decide (q < 0)) s e h
  dist_le : ∀ {y : Binary f}, y.isFinite = true → |x.value - q| ≤ |y.value - q|
  even_of_tie : ∀ {y : Binary f}, y.isFinite = true → y.value ≠ x.value →
    |x.value - q| = |y.value - q| → Even x.significand

theorem ofParts_of_canonical (negative : Bool) (h : f.Canonical s e) :
    ofParts negative s e = finite negative s e h := dif_pos h

theorem abs_value (h : f.Canonical s e) : |(finite negative s e h).value| = s * 2 ^ e := by
  have hpos : (0 : ℚ) ≤ s * 2 ^ e := by positivity
  cases negative
  · exact abs_of_nonneg hpos
  · exact (abs_neg _).trans (abs_of_nonneg hpos)

theorem abs_value_sub (h : f.Canonical s e) (q : ℚ) :
    |(finite (decide (q < 0)) s e h).value - q| = |s * 2 ^ e - abs q| := by
  by_cases hq : q < 0
  · rw [abs_of_neg hq, decide_eq_true hq, ← abs_neg]
    congr 1
    simp only [value, if_true]
    ring
  · rw [abs_of_nonneg (not_lt.mp hq), decide_eq_false hq]
    rfl

theorem exists_abs_value (hy : y.isFinite = true) :
    ∃ t k, f.Canonical t k ∧ |y.value| = t * 2 ^ k := by
  cases y with
  | finite negative t k ht => exact ⟨t, k, ht, abs_value ht⟩
  | _ => cases hy

theorem eq_zero_of_tie {v : ℚ} (hle : |v - q| ≤ |q|) (htie : |v - q| = |-v - q|) : v = 0 := by
  rcases abs_eq_abs.mp htie with heq | heq
  · linarith
  · have hq : q = 0 := by linarith
    rw [hq, sub_zero, abs_zero] at hle
    exact abs_nonpos_iff.mp hle

theorem rounds_iff : Rounds q x ↔ |q| < f.limit ∧
    ∃ s e h, x = finite (decide (q < 0)) s e h ∧ f.Nearest |q| s e := by
  constructor
  · rintro ⟨hlt, ⟨s, e, h, rfl⟩, hle, heven⟩
    refine ⟨hlt, s, e, h, rfl, h, ?_, ?_⟩
    · intro t k ht
      have hdist := hle (y := finite (decide (q < 0)) t k ht) rfl
      rwa [abs_value_sub, abs_value_sub] at hdist
    · intro t k ht hne htie
      rw [← abs_value_sub h, ← abs_value_sub ht] at htie
      refine heven rfl ?_ htie
      intro hsame
      have habs := congrArg abs hsame
      rw [abs_value, abs_value] at habs
      exact hne habs
  · rintro ⟨hlt, s, e, h, rfl, hnearest⟩
    refine ⟨hlt, ⟨s, e, h, rfl⟩, ?_, ?_⟩
    · intro y hy
      obtain ⟨t, k, ht, habs⟩ := exists_abs_value hy
      calc |(finite (decide (q < 0)) s e h).value - q| = |s * 2 ^ e - abs q| := abs_value_sub h q
        _ ≤ |t * 2 ^ k - abs q| := hnearest.dist_le ht
        _ = |abs y.value - abs q| := by rw [habs]
        _ ≤ |y.value - q| := abs_abs_sub_abs_le _ _
    · intro y hy hne htie
      obtain ⟨t, k, ht, habs⟩ := exists_abs_value hy
      by_cases hsame : |y.value| = |(finite (decide (q < 0)) s e h).value|
      · have hopposite := (abs_eq_abs.mp hsame).resolve_left hne
        have hle := hnearest.dist_le f.canonical_zero
        rw [← abs_value_sub h, Nat.cast_zero, zero_mul, zero_sub, abs_neg, abs_abs] at hle
        rw [hopposite] at hne htie
        simp [eq_zero_of_tie hle htie] at hne
      · rw [habs, abs_value] at hsame
        refine hnearest.even_of_tie ht hsame (le_antisymm (hnearest.dist_le ht) ?_)
        calc |t * 2 ^ k - abs q| = |abs y.value - abs q| := by rw [habs]
          _ ≤ |y.value - q| := abs_abs_sub_abs_le _ _
          _ = |s * 2 ^ e - abs q| := by rw [← htie, abs_value_sub]

theorem ofQuotient_spec {n d : Nat} (hp : 1 < f.precision) (negative : Bool) (hd : 0 < d) :
    (n / d < f.limit ∧ ∃ s e h, (ofQuotient negative n d : Binary f) = finite negative s e h ∧
      f.Nearest (n / d) s e) ∨
    f.limit ≤ n / d ∧ (ofQuotient negative n d : Binary f) = infinity negative := by
  rcases Nat.eq_zero_or_pos n with rfl | hn
  · left
    rw [Nat.cast_zero, zero_div]
    exact ⟨f.limit_pos, 0, f.least, f.canonical_zero, rfl, f.nearest_zero⟩
  obtain ⟨s, e, hscaled, hround⟩ := f.exists_scaled negative hn hd
  rw [hround]
  split
  · next hfull =>
    subst hfull
    by_cases he : e < f.greatest
    · left
      have hnearest := hscaled.nearest_of_full hp he
      exact ⟨hscaled.lt_limit_of_lt he, _, _, hnearest.canonical,
        ofParts_of_canonical negative hnearest.canonical, hnearest⟩
    · right
      exact ⟨hscaled.limit_le_of_full (by omega), ofParts_of_greatest_lt negative _ (by omega)⟩
  · next hs =>
    have hlt : s < 2 ^ f.precision := lt_of_le_of_ne hscaled.le_two_pow hs
    by_cases he : e ≤ f.greatest
    · left
      have hnearest := hscaled.nearest hp hlt he
      exact ⟨hscaled.lt_limit hp hlt he, s, e, hnearest.canonical,
        ofParts_of_canonical negative hnearest.canonical, hnearest⟩
    · right
      exact ⟨hscaled.limit_le (by omega), ofParts_of_greatest_lt negative _ (by omega)⟩

theorem Rounds.unique (hp : 1 < f.precision) (hx : Rounds q x) (hy : Rounds q y) : x = y := by
  obtain ⟨_, s, e, h, rfl, hnearest⟩ := rounds_iff.mp hx
  obtain ⟨_, t, k, h', rfl, hnearest'⟩ := rounds_iff.mp hy
  obtain ⟨rfl, rfl⟩ := hnearest.unique hp hnearest'
  rfl

theorem ofInt_spec (hp : 1 < f.precision) (i : Int) :
    |(i : ℚ)| < f.limit ∧ Rounds i (ofInt i : Binary f) ∨
      f.limit ≤ |(i : ℚ)| ∧ (ofInt i : Binary f) = infinity (decide (i < 0)) := by
  have habs : ((i.natAbs : Nat) : ℚ) / (1 : Nat) = |(i : ℚ)| := by
    rw [Nat.cast_one, div_one, Nat.cast_natAbs, Int.cast_abs]
  have hsign : decide (i < 0) = decide ((i : ℚ) < 0) := by simp
  have hspec := ofQuotient_spec hp (decide (i < 0)) Nat.one_pos (n := i.natAbs)
  rw [habs, hsign] at hspec
  rw [ofInt, hsign]
  refine hspec.imp_left ?_
  rintro ⟨hlt, s, e, h, heq, hnearest⟩
  exact ⟨hlt, rounds_iff.mpr ⟨hlt, s, e, h, heq, hnearest⟩⟩

theorem ofInt_eq_iff (hp : 1 < f.precision) {i : Int} (hx : x.isFinite = true) :
    ofInt i = x ↔ Rounds (i : ℚ) x := by
  rcases ofInt_spec (f := f) hp i with ⟨_, hrounds⟩ | ⟨hle, hinfinity⟩
  · constructor
    · rintro rfl
      exact hrounds
    · exact hrounds.unique hp
  · constructor
    · rintro rfl
      rw [hinfinity] at hx
      cases hx
    · intro hrounds
      exact absurd hrounds.in_range (not_lt.mpr hle)

theorem limit_double : Format.double.limit = 2 ^ 1024 - 2 ^ 970 := by
  have hgreatest : (2 : ℚ) ^ Format.double.greatest = 2 ^ 971 := zpow_natCast 2 971
  have hprecision : Format.double.precision = 53 := rfl
  have htop : (2 : ℚ) ^ 1024 = 2 ^ 54 * 2 ^ 970 := by rw [← pow_add]
  have hunit : (2 : ℚ) ^ 971 = 2 * 2 ^ 970 := by rw [← pow_succ']
  rw [Format.limit, hgreatest, hprecision, htop, hunit]
  generalize (2 : ℚ) ^ 970 = u
  ring

theorem exists_rounds_iff {i : Int} : (∃ x : Double, Rounds i x) ↔ |i| < 2 ^ 1024 - 2 ^ 970 := by
  have hlimit : |(i : ℚ)| < Format.double.limit ↔ |i| < 2 ^ 1024 - 2 ^ 970 := by
    rw [limit_double]
    exact_mod_cast Iff.rfl
  rw [← hlimit]
  constructor
  · rintro ⟨x, h⟩
    exact h.in_range
  · intro hlt
    rcases ofInt_spec (f := .double) (by decide) i with ⟨_, hrounds⟩ | ⟨hle, _⟩
    · exact ⟨_, hrounds⟩
    · exact absurd hlt (not_lt.mpr hle)

end Binary

end SceneEditor.Number
