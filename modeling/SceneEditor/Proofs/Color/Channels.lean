import SceneEditor.Proofs.Color.Hex
import SceneEditor.Proofs.Number.Order

/-!
The channels of colours. A number becomes a byte in two roundings, of 255 times the number to a
double and of this to a whole number; both keep the order. A byte becomes a number in one, which is
so little off that the byte comes back, and the bytes of a word do not overlap.
-/

namespace SceneEditor

open Number Binary

namespace Number.Binary

variable {f : Format} {x y : Binary f}

def clamped : Binary f → ℚ
  | infinity negative => if negative then 0 else 1
  | x => max 0 (min 1 x.value)

theorem clamped_of_isFinite (h : x.isFinite = true) : x.clamped = max 0 (min 1 x.value) := by
  cases x with
  | finite _ _ _ _ => rfl
  | _ => cases h

theorem place_cases (x : Binary f) : x.place = ⊥ ∧ x.clamped = 0 ∨ x.place = ⊤ ∧ x.clamped = 1 ∨
    x.place = ((x.value : WithTop ℚ) :) ∧ x.clamped = max 0 (min 1 x.value) := by
  cases x with
  | infinity negative =>
    cases negative
    · exact .inr (.inl ⟨rfl, rfl⟩)
    · exact .inl ⟨rfl, rfl⟩
  | _ => exact .inr (.inr ⟨rfl, rfl⟩)

theorem clamped_mem (x : Binary f) : 0 ≤ x.clamped ∧ x.clamped ≤ 1 := by
  rcases x.place_cases with ⟨_, hx⟩ | ⟨_, hx⟩ | ⟨_, hx⟩ <;> rw [hx]
  · exact ⟨le_rfl, zero_le_one⟩
  · exact ⟨zero_le_one, le_rfl⟩
  · exact ⟨le_max_left _ _, max_le zero_le_one (min_le_left _ _)⟩

theorem clamped_mono (h : x.place ≤ y.place) : x.clamped ≤ y.clamped := by
  rcases x.place_cases with ⟨_, hx⟩ | ⟨hplace, hx⟩ | ⟨hplace, hx⟩
  · exact hx.trans_le y.clamped_mem.1
  · rw [hplace, top_le_iff] at h
    rcases y.place_cases with ⟨hy, _⟩ | ⟨_, hy⟩ | ⟨hy, _⟩
    · rw [h] at hy
      cases hy
    · rw [hx, hy]
    · rw [h] at hy
      cases hy
  · rcases y.place_cases with ⟨hy, _⟩ | ⟨_, hy⟩ | ⟨hy, hclamped⟩
    · rw [hplace, hy, le_bot_iff] at h
      cases h
    · exact x.clamped_mem.2.trans_eq hy.symm
    · rw [hplace, hy, WithBot.coe_le_coe, WithTop.coe_le_coe] at h
      rw [hx, hclamped]
      gcongr

theorem clamped_of_place_le_zero (h : x.place ≤ 0) : x.clamped = 0 := by
  rcases x.place_cases with ⟨_, hx⟩ | ⟨hplace, _⟩ | ⟨hplace, hx⟩
  · exact hx
  · rw [hplace, top_le_iff] at h
    cases h
  · rw [hplace] at h
    have hvalue : x.value ≤ 0 := by exact_mod_cast h
    rw [hx, max_eq_left (min_le_of_right_le hvalue)]

theorem clamped_of_one_le_place (h : 1 ≤ x.place) : x.clamped = 1 := by
  rcases x.place_cases with ⟨hplace, _⟩ | ⟨_, hx⟩ | ⟨hplace, hx⟩
  · rw [hplace, le_bot_iff] at h
    cases h
  · exact hx
  · rw [hplace] at h
    have hvalue : 1 ≤ x.value := by exact_mod_cast h
    rw [hx, min_eq_left hvalue, max_eq_right zero_le_one]

theorem clamped_of_place_between (h : 0 < x.place) (h' : x.place < 1) : x.clamped = x.value := by
  rcases x.place_cases with ⟨hplace, _⟩ | ⟨hplace, _⟩ | ⟨hplace, hx⟩
  · rw [hplace] at h
    cases not_lt_bot h
  · rw [hplace] at h'
    cases not_top_lt h'
  · rw [hplace] at h h'
    have hpos : 0 < x.value := by exact_mod_cast h
    have hlt : x.value < 1 := by exact_mod_cast h'
    rw [hx, min_eq_right hlt.le, max_eq_right hpos.le]

end Number.Binary

theorem exists_rounds_of_eq {q : ℚ} {m : Nat} (hm : m ≤ 255) (hq : q = m) :
    ∃ p : Double, Rounds q p ∧ IsNearestWhole p.value m := by
  obtain ⟨p, hp, hvalue⟩ := exists_rounds_natCast (f := .double) (m := m) (by decide)
    (hm.trans_lt (by decide)) (by decide) (by decide)
  exact ⟨p, hq ▸ hp, .of_lt (by rw [hvalue, sub_self, abs_zero]; exact one_half_pos)⟩

theorem channelByte_finite {s : Nat} {e : Int} (h : Format.double.Canonical s e) :
    channelByte (finite false s e h) =
      if (quotient s e).2 ≤ (quotient s e).1 then 255
      else match (ofQuotient false (255 * (quotient s e).1) (quotient s e).2 : Double) with
        | finite _ t k _ => roundDiv (quotient t k).1 (quotient t k).2
        | _ => 255 := rfl

theorem rounds_product {n d : Nat} (hd : 0 < d) (hlt : n < d) :
    Rounds (255 * (n / d)) (ofQuotient false (255 * n) d : Double) := by
  have hone : (n / d : ℚ) ≤ 1 := div_le_one_of_le₀ (by exact_mod_cast hlt.le) (by positivity)
  have hproduct : 255 * (n / d : ℚ) = ((255 * n : Nat) : ℚ) / d := by
    rw [Nat.cast_mul, mul_div_assoc, Nat.cast_ofNat]
  have hlimit : ((255 * n : Nat) : ℚ) / d < Format.double.limit := by
    obtain ⟨p, hp, -⟩ := exists_rounds_of_eq (q := 255) le_rfl rfl
    calc ((255 * n : Nat) : ℚ) / d = 255 * (n / d) := hproduct.symm
      _ ≤ |255| := by
        rw [abs_of_pos (by norm_num)]
        linarith
      _ < Format.double.limit := hp.in_range
  rw [hproduct]
  exact rounds_ofQuotient (by decide) hd hlimit

theorem channelByte_spec {x : Double} (hx : x ≠ .nan) : ∃ p : Double,
    Rounds (255 * x.clamped) p ∧ IsNearestWhole p.value (channelByte x) := by
  cases x with
  | nan => exact absurd rfl hx
  | infinity negative =>
    cases negative
    · exact exists_rounds_of_eq (m := 255) le_rfl (mul_one _)
    · exact exists_rounds_of_eq (m := 0) (by decide) ((mul_zero _).trans Nat.cast_zero.symm)
  | finite negative s e h =>
    have hd : 0 < (quotient s e).2 := snd_inUnits_pos s Nat.one_pos (-e)
    have hdq : (0 : ℚ) < (quotient s e).2 := by exact_mod_cast hd
    rw [clamped_of_isFinite rfl]
    cases negative with
    | true =>
      have hvalue : (finite true s e h).value ≤ 0 := neg_nonpos.mpr (by positivity)
      exact exists_rounds_of_eq (m := 0) (by decide)
        (by rw [max_eq_left (min_le_of_right_le hvalue), mul_zero, Nat.cast_zero])
    | false =>
      rw [value_finite_false, ← quotient_div, channelByte_finite]
      split
      · next hle =>
        have hone : (1 : ℚ) ≤ (quotient s e).1 / (quotient s e).2 := by
          rw [one_le_div hdq]
          exact_mod_cast hle
        exact exists_rounds_of_eq (m := 255) le_rfl
          (by rw [min_eq_left hone, max_eq_right zero_le_one, mul_one, Nat.cast_ofNat])
      · next hlt =>
        have hone : ((quotient s e).1 : ℚ) / (quotient s e).2 < 1 := by
          rw [div_lt_one hdq]
          exact_mod_cast not_le.mp hlt
        have hrounds := rounds_product hd (not_le.mp hlt)
        obtain ⟨t, k, hc, hfinite⟩ := hrounds.finite
        rw [decide_eq_false (not_lt.mpr (by positivity))] at hfinite
        rw [min_eq_right hone.le, max_eq_right (by positivity)]
        rw [hfinite] at hrounds ⊢
        refine ⟨_, hrounds, ?_⟩
        rw [value_finite_false, ← quotient_div]
        exact isNearestWhole_roundDiv _ (snd_inUnits_pos t Nat.one_pos (-k))

section Byte

variable {x y : Double} {b : Nat}

theorem channelByte_eq_of_clamped (hx : x ≠ .nan) (hb : b ≤ 255) (h : 255 * x.clamped = b) :
    channelByte x = b := by
  obtain ⟨p, hp, hbyte⟩ := channelByte_spec hx
  obtain ⟨p', hp', hbyte'⟩ := exists_rounds_of_eq hb h
  obtain rfl := hp.unique (by decide) hp'
  exact hbyte.unique hbyte'

theorem channelByte_mono (hx : x ≠ .nan) (hy : y ≠ .nan) (h : x.place ≤ y.place) :
    channelByte x ≤ channelByte y := by
  obtain ⟨p, hp, hbyte⟩ := channelByte_spec hx
  obtain ⟨p', hp', hbyte'⟩ := channelByte_spec hy
  have hclamped := clamped_mono h
  exact hbyte.mono hbyte' (hp.mono (by decide) hp' (by gcongr))

theorem channelByte_le (hx : x ≠ .nan) : channelByte x ≤ 255 := by
  obtain ⟨p, hp, hbyte⟩ := channelByte_spec hx
  obtain ⟨p', hp', hbyte'⟩ := exists_rounds_of_eq (q := 255) le_rfl rfl
  have hclamped := x.clamped_mem.2
  exact hbyte.mono hbyte' (hp.mono (by decide) hp' (by linarith))

theorem rounds_byteFraction (hb : b ≤ 255) : Rounds (b / 255) (byteFraction b) := by
  obtain ⟨one, hone, -⟩ := exists_rounds_natCast (f := .single) (m := 1) (by decide) (by decide)
    (by decide) (by decide)
  have hlimit : (b / (255 : Nat) : ℚ) < Format.single.limit := by
    calc (b / (255 : Nat) : ℚ) ≤ |((1 : Nat) : ℚ)| := by
          rw [Nat.cast_one, abs_one]
          exact div_le_one_of_le₀ (by exact_mod_cast hb) (by positivity)
      _ < Format.single.limit := hone.in_range
  exact_mod_cast rounds_ofQuotient (f := .single) (by decide) (by decide) hlimit

theorem value_byteFraction_mem (hb : b ≤ 255) :
    0 ≤ (byteFraction b).value ∧ (byteFraction b).value ≤ 1 := by
  have hbq : (b : ℚ) ≤ 255 := by exact_mod_cast hb
  have hwhole {m : Nat} (hm : m < 2 ^ 24) : ∃ x : Single, Rounds m x ∧ x.value = m :=
    exists_rounds_natCast (f := .single) (by decide) hm (by decide) (by decide)
  obtain ⟨zero, hzero, hvalue⟩ := hwhole (m := 0) (by decide)
  obtain ⟨one, hone, hvalue'⟩ := hwhole (m := 1) (by decide)
  have hround := rounds_byteFraction hb
  constructor
  · calc (0 : ℚ) = zero.value := by rw [hvalue, Nat.cast_zero]
      _ ≤ (byteFraction b).value := hzero.mono (by decide) hround (by rw [Nat.cast_zero]; positivity)
  · calc (byteFraction b).value ≤ one.value :=
          hround.mono (by decide) hone (by rw [Nat.cast_one]; linarith)
      _ = 1 := by rw [hvalue', Nat.cast_one]

theorem channelByte_convert_byteFraction (hb : b ≤ 255) :
    channelByte (convert (byteFraction b)) = b := by
  have hbq : (b : ℚ) ≤ 255 := by exact_mod_cast hb
  have hround := rounds_byteFraction hb
  obtain ⟨hfinite, hvalue⟩ := convert_exact (g := .double) (by decide) (by decide) (by decide)
    hround.isFinite
  have hclamped : (convert (byteFraction b) : Double).clamped = (byteFraction b).value := by
    obtain ⟨hnonneg, hle⟩ := value_byteFraction_mem hb
    rw [clamped_of_isFinite hfinite, hvalue, min_eq_right hle, max_eq_right hnonneg]
  have hnan : (convert (byteFraction b) : Double) ≠ .nan := by
    intro h
    rw [h] at hfinite
    cases hfinite
  obtain ⟨p, hp, hbyte⟩ := channelByte_spec hnan
  rw [hclamped] at hp
  obtain ⟨p', hp', hvalue'⟩ := exists_rounds_natCast (f := .double) (m := b) (by decide)
    (hb.trans_lt (by decide)) (by decide) (by decide)
  have hsingle : |(byteFraction b).value - b / 255| ≤ 2 ^ (0 - 24 : Int) / 2 :=
    hround.dist_le_of_le (by decide) (by positivity) (by rw [zpow_zero]; linarith)
      (by decide) (by decide)
  have hproduct : |255 * (byteFraction b).value - b| ≤ 255 * (2 ^ (0 - 24 : Int) / 2) := by
    calc |255 * (byteFraction b).value - b| = |255 * ((byteFraction b).value - b / 255)| := by
          congr 1
          ring
      _ = 255 * |(byteFraction b).value - b / 255| := by rw [abs_mul, abs_of_pos (by norm_num)]
      _ ≤ 255 * (2 ^ (0 - 24 : Int) / 2) := by gcongr
  have hdouble : |p.value - 255 * (byteFraction b).value| ≤ 255 * (2 ^ (0 - 24 : Int) / 2) := by
    calc |p.value - 255 * (byteFraction b).value|
        ≤ |p'.value - 255 * (byteFraction b).value| := hp.dist_le hp'.isFinite
      _ = |255 * (byteFraction b).value - b| := by rw [hvalue', abs_sub_comm]
      _ ≤ 255 * (2 ^ (0 - 24 : Int) / 2) := hproduct
  refine hbyte.unique (.of_lt ?_)
  calc |(b : ℚ) - p.value|
      ≤ |b - 255 * (byteFraction b).value| + |255 * (byteFraction b).value - p.value| :=
        abs_sub_le _ _ _
    _ ≤ 255 * (2 ^ (0 - 24 : Int) / 2) + 255 * (2 ^ (0 - 24 : Int) / 2) := by
      rw [abs_sub_comm (b : ℚ), abs_sub_comm _ p.value]
      exact add_le_add hproduct hdouble
    _ < 1 / 2 := by norm_num

end Byte

namespace Color

variable {c : Color}

def shifts : Channels Nat := ⟨16, 8, 0, 24⟩

theorem bytes_eq (c : Color) : c.bytes = shifts.map fun k => c.toNat >>> k &&& 0xff := by
  have hlow (n : Nat) : n &&& 0xff = n % 0x100 := Nat.and_two_pow_sub_one_eq_mod n 8
  have hlt : c.toNat < 2 ^ 32 := c.packed.toNat_lt
  have halpha : c.toNat / 0x1000000 % 0x100 = c.toNat / 0x1000000 := Nat.mod_eq_of_lt (by omega)
  simp only [bytes, shifts, Channels.map, hlow, Nat.shiftRight_eq_div_pow, Nat.reducePow,
    Nat.div_one, halpha]

theorem toNat_ofBytes {b : Channels Nat} (hr : b.red ≤ 255) (hg : b.green ≤ 255)
    (hb : b.blue ≤ 255) (ha : b.alpha ≤ 255) :
    (ofBytes b).toNat = b.alpha * 2 ^ 24 + b.red * 2 ^ 16 + b.green * 2 ^ 8 + b.blue := by
  rw [ofBytes, (ofNat_eq_iff (by omega)).mp rfl]
  rfl

theorem ofBytes_bytes (c : Color) : ofBytes c.bytes = c := by
  have hlt : c.toNat < 2 ^ 32 := c.packed.toNat_lt
  rw [ofBytes, ofNat_eq_iff] <;> simp only [bytes] <;> omega

theorem add_eq_or {b : Channels Nat} (hr : b.red ≤ 255) (hg : b.green ≤ 255) (hb : b.blue ≤ 255) :
    b.alpha * 2 ^ 24 + b.red * 2 ^ 16 + b.green * 2 ^ 8 + b.blue =
      b.red <<< 16 ||| b.green <<< 8 ||| b.blue <<< 0 ||| b.alpha <<< 24 := by
  have hor {n m : Nat} (hm : m ≤ 255) : n <<< 8 + m = n <<< 8 ||| m :=
    Nat.shiftLeft_add_eq_or_of_lt (by omega) n
  calc b.alpha * 2 ^ 24 + b.red * 2 ^ 16 + b.green * 2 ^ 8 + b.blue
      = ((b.alpha <<< 8 + b.red) <<< 8 + b.green) <<< 8 + b.blue := by
        simp only [Nat.shiftLeft_eq]
        omega
    _ = ((b.alpha <<< 8 ||| b.red) <<< 8 ||| b.green) <<< 8 ||| b.blue := by
        rw [hor hr, hor hg, hor hb]
    _ = b.alpha <<< 24 ||| b.red <<< 16 ||| b.green <<< 8 ||| b.blue <<< 0 := by
        rw [Nat.shiftLeft_or_distrib, Nat.shiftLeft_or_distrib, Nat.shiftLeft_or_distrib,
          ← Nat.shiftLeft_add, ← Nat.shiftLeft_add, ← Nat.shiftLeft_add, Nat.shiftLeft_zero]
    _ = b.red <<< 16 ||| b.green <<< 8 ||| b.blue <<< 0 ||| b.alpha <<< 24 := by
        rw [Nat.or_assoc, Nat.or_assoc, Nat.or_comm, ← Nat.or_assoc]

theorem pack_convert_unpack (c : Color) : pack (c.unpack.map convert) = c := by
  have hlt : c.toNat < 2 ^ 32 := c.packed.toNat_lt
  have hbytes : (c.unpack.map convert).map channelByte = c.bytes := by
    rw [unpack, Channels.map, Channels.map, Channels.map, channelByte_convert_byteFraction,
      channelByte_convert_byteFraction, channelByte_convert_byteFraction,
      channelByte_convert_byteFraction] <;> simp only [bytes] <;> omega
  rw [pack, hbytes, ofBytes_bytes]

/-- The channels of a colour, taken over as doubles, make the colour again; each of them is its byte
of the word over 255, rounded. And what any four numbers make is a word in which each of them has its
own byte: none where the number is not above zero, all bits where it is not below one, and in between
255 times the number, rounded to a double and then to a whole number. A larger number has no smaller
byte. -/
theorem channels_apart (c : Color) {x : Channels Double} (hr : x.red ≠ .nan) (hg : x.green ≠ .nan)
    (hb : x.blue ≠ .nan) (ha : x.alpha ≠ .nan) :
    (pack (c.unpack.map convert) = c ∧
      c.unpack = shifts.map (fun k => byteFraction (c.toNat >>> k &&& 0xff)) ∧
      (∀ b : Nat, b ≤ 255 → Rounds (b / 255) (byteFraction b)) ∧
      ∀ y : Single, y.isFinite = true → (convert y : Double).isFinite = true ∧
        (convert y : Double).value = y.value) ∧
    ((pack x).toNat ≤ 0xffffffff ∧
      (pack x).toNat = channelByte x.alpha * 2 ^ 24 + channelByte x.red * 2 ^ 16 +
        channelByte x.green * 2 ^ 8 + channelByte x.blue ∧
      (pack x).toNat = channelByte x.red <<< shifts.red ||| channelByte x.green <<< shifts.green |||
        channelByte x.blue <<< shifts.blue ||| channelByte x.alpha <<< shifts.alpha) ∧
    ∀ y : Double, y ≠ .nan →
      channelByte y ≤ 255 ∧ (y.place ≤ 0 → channelByte y = 0) ∧
      (1 ≤ y.place → channelByte y = 255) ∧
      (0 < y.place → y.place < 1 → ∃ p : Double,
        Rounds (255 * y.value) p ∧ IsNearestWhole p.value (channelByte y)) ∧
      ∀ z : Double, z ≠ .nan → y.place ≤ z.place → channelByte y ≤ channelByte z := by
  refine ⟨⟨pack_convert_unpack c, ?_, fun b => rounds_byteFraction, ?_⟩, ⟨?_, ?_, ?_⟩, ?_⟩
  · rw [unpack, bytes_eq]
    rfl
  · exact fun y hy => convert_exact (by decide) (by decide) (by decide) hy
  · exact Nat.le_of_lt_succ (pack x).packed.toNat_lt
  · exact toNat_ofBytes (channelByte_le hr) (channelByte_le hg) (channelByte_le hb)
      (channelByte_le ha)
  · rw [pack, toNat_ofBytes (channelByte_le hr) (channelByte_le hg) (channelByte_le hb)
      (channelByte_le ha), add_eq_or (channelByte_le hr) (channelByte_le hg) (channelByte_le hb)]
    rfl
  · intro y hy
    refine ⟨channelByte_le hy, fun h => ?_, fun h => ?_, fun h h' => ?_,
      fun z hz => channelByte_mono hy hz⟩
    · exact channelByte_eq_of_clamped hy (by decide)
        (by rw [clamped_of_place_le_zero h, mul_zero, Nat.cast_zero])
    · exact channelByte_eq_of_clamped hy le_rfl
        (by rw [clamped_of_one_le_place h, mul_one, Nat.cast_ofNat])
    · rw [← clamped_of_place_between h h']
      exact channelByte_spec hy

theorem channels_apart_of_half :
    let c : Color := ⟨0x00ff00fe⟩
    let x : Channels Double := ⟨.infinity false, ofInt (-1), ofQuotient false 1 2, ofInt 1⟩
    x.red ≠ .nan ∧ x.green ≠ .nan ∧ x.blue ≠ .nan ∧ x.alpha ≠ .nan ∧
      pack (c.unpack.map convert) = c ∧ (pack x).toNat = 0xffff0080 := by
  intro c x
  have hr : x.red ≠ .nan := nofun
  have hg : x.green ≠ .nan := by decide +kernel
  have hb : x.blue ≠ .nan := by decide +kernel
  have ha : x.alpha ≠ .nan := by decide +kernel
  obtain ⟨⟨hback, -⟩, ⟨-, hsum, -⟩, -⟩ := channels_apart c hr hg hb ha
  have hbytes : x.map channelByte = ⟨255, 0, 128, 255⟩ := by decide +kernel
  simp only [Channels.map, Channels.mk.injEq] at hbytes
  obtain ⟨hred, hgreen, hblue, halpha⟩ := hbytes
  rw [hred, hgreen, hblue, halpha] at hsum
  exact ⟨hr, hg, hb, ha, hback, hsum⟩

end Color

end SceneEditor
