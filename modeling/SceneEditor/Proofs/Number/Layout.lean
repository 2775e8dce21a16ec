import SceneEditor.Proofs.Number.ReadBack
import SceneEditor.Proofs.Text.Digits

namespace SceneEditor

open Number Text

structure Text.IsWholePart (cs : List Char) : Prop where
  digits : AllDigits cs
  ne_nil : cs ≠ []
  head : cs = ['0'] ∨ cs.head? ≠ some '0'

theorem Text.isWholePart_toDigits (n : Nat) : IsWholePart (Nat.toDigits 10 n) where
  digits := allDigits_toDigits n
  ne_nil := Nat.toDigits_ne_nil
  head := by
    by_cases hn : n = 0
    · exact .inl (by rw [hn, Nat.toDigits_zero])
    · exact .inr (head?_toDigits_ne_zero hn)

namespace Number.Decimal

variable {x : Decimal}

/-- Digits times a power of ten stand for a numeral; the first digit is not zero. -/
structure Spells (cs : List Char) (exponent : Int) (x : Decimal) : Prop where
  digits : AllDigits cs
  ne_nil : cs ≠ []
  head : cs.head? ≠ some '0'
  value_eq : x.value = decimalValue cs * 10 ^ exponent

theorem spells_significant (hx : x.digits ≠ 0) : Spells x.significant.1 x.significant.2 x := by
  -- The zeros at the end of the digits go into the exponent.
  obtain ⟨kept, k, hkept, hall, hne⟩ := toDigits_eq_append_zeros hx
  have hexponent : (((Nat.toDigits 10 x.digits).length - kept.length : Nat) : Int) = k := by
    rw [hall, List.length_append, List.length_replicate, Nat.add_sub_cancel_left]
  have hsignificant : x.significant = (kept, x.exponent + k) := by
    simp only [significant, hkept, hexponent]
  have hdigits := allDigits_toDigits x.digits
  have hhead := head?_toDigits_ne_zero hx
  have hvalue := decimalValue_toDigits x.digits
  rw [hall] at hdigits hhead hvalue
  rw [List.head?_append_of_ne_nil _ hne] at hhead
  rw [decimalValue_append_zeros] at hvalue
  rw [hsignificant]
  refine ⟨fun c hc => hdigits c (List.mem_append_left _ hc), hne, hhead, ?_⟩
  rw [value, ← hvalue, zpow_add₀ (by norm_num), zpow_natCast]
  push_cast
  ring

/-- The numeral without the zeros that its digits end with. -/
def reduced (x : Decimal) : Decimal := ⟨decimalValue x.significant.1, x.significant.2⟩

theorem value_reduced (hx : x.digits ≠ 0) : x.reduced.value = x.value :=
  (spells_significant hx).value_eq.symm

theorem value_point (whole fraction : List Char) :
    (⟨decimalValue (whole ++ fraction), -fraction.length⟩ : Decimal).value =
      decimalValue (whole ++ fraction) / 10 ^ fraction.length := by
  rw [value, zpow_neg, zpow_natCast, div_eq_mul_inv]

structure IsPositional (p : List Char × List Char) (x : Decimal) : Prop where
  whole : IsWholePart p.1
  fraction : AllDigits p.2
  value_eq : (⟨decimalValue (p.1 ++ p.2), -p.2.length⟩ : Decimal).value = x.value

theorem IsPositional.pad {whole : List Char} (h : IsPositional (whole, []) x) :
    IsPositional (whole, ['0']) x where
  whole := h.whole
  fraction := allDigits_replicate 1
  value_eq := by
    have hpadded : decimalValue (whole ++ ['0']) = 10 ^ 1 * decimalValue whole :=
      decimalValue_append_zeros whole 1
    rw [← h.value_eq, value_point, value_point, List.append_nil, hpadded]
    simp

namespace Spells

variable {digits : List Char} {k : Nat}

theorem padded (h : Spells digits (.ofNat k) x) :
    IsPositional (digits ++ List.replicate k '0', []) x := by
  obtain ⟨hdigits, hne, hhead, hvalue⟩ := h
  refine ⟨⟨hdigits.append (allDigits_replicate k), by simp [hne], .inr ?_⟩, nofun, ?_⟩
  · rwa [List.head?_append_of_ne_nil _ hne]
  · rw [value_point, hvalue, List.append_nil, decimalValue_append_zeros]
    simp [mul_comm]

theorem shifted (h : Spells digits (.negSucc k) x) (hle : digits.length ≤ k + 1) :
    IsPositional (['0'], List.replicate (k + 1 - digits.length) '0' ++ digits) x := by
  obtain ⟨hdigits, -, -, hvalue⟩ := h
  have hlength : (List.replicate (k + 1 - digits.length) '0' ++ digits).length = k + 1 := by
    rw [List.length_append, List.length_replicate]
    omega
  have hzero : decimalValue (['0'] ++ (List.replicate (k + 1 - digits.length) '0' ++ digits)) =
      decimalValue digits :=
    (decimalValue_zeros_append 1 _).trans (decimalValue_zeros_append _ digits)
  refine ⟨⟨allDigits_replicate 1, List.cons_ne_nil _ _, .inl rfl⟩,
    (allDigits_replicate _).append hdigits, ?_⟩
  rw [value_point, hzero, hlength, hvalue, zpow_negSucc, div_eq_mul_inv]

theorem split (h : Spells digits (.negSucc k) x) (hlt : k + 1 < digits.length) :
    IsPositional (digits.splitAt (digits.length - (k + 1))) x := by
  obtain ⟨hdigits, -, hhead, hvalue⟩ := h
  have htake : (digits.take (digits.length - (k + 1))).length = digits.length - (k + 1) := by
    rw [List.length_take]
    omega
  have hdrop : (digits.drop (digits.length - (k + 1))).length = k + 1 := by
    rw [List.length_drop]
    omega
  rw [List.splitAt_eq]
  refine ⟨⟨fun c hc => hdigits c (List.mem_of_mem_take hc), ?_, .inr ?_⟩,
    fun c hc => hdigits c (List.mem_of_mem_drop hc), ?_⟩
  · apply List.ne_nil_of_length_pos
    rw [htake]
    omega
  · rwa [List.head?_take, if_neg (by omega)]
  · rw [value_point, List.take_append_drop, hdrop, hvalue, zpow_negSucc, div_eq_mul_inv]

end Spells

theorem isPositional_parts (hx : x.digits ≠ 0) : IsPositional x.parts x := by
  have hspells := spells_significant hx
  unfold parts
  split
  · next hs =>
    rw [hs] at hspells
    exact hspells.padded
  · next hs =>
    rw [hs] at hspells
    split
    · next hle => exact hspells.shifted hle
    · next hlt => exact hspells.split (Nat.lt_of_not_le hlt)

def fractionText (fraction : List Char) : List Char :=
  if fraction = [] then [] else '.' :: fraction

theorem scientific_spec (hx : x.digits ≠ 0) : ∃ (d : Char) (fraction : List Char) (negative : Bool)
    (power : List Char),
    x.scientific = d :: (fractionText fraction ++ 'e' :: (if negative then '-' else '+') :: power) ∧
      d.isDigit = true ∧ AllDigits fraction ∧ AllDigits power ∧ power ≠ [] ∧
      (⟨decimalValue (d :: fraction), (if negative then -(decimalValue power : Int) else
        decimalValue power) - fraction.length⟩ : Decimal) = x.reduced := by
  obtain ⟨hdigits, hne, hhead, hvalue⟩ := spells_significant hx
  rcases hs : x.significant with ⟨_ | ⟨d, fraction⟩, e⟩
  · rw [hs] at hne
    exact absurd rfl hne
  rw [hs] at hdigits
  simp only at hdigits
  have hleading : x.leading = e + fraction.length := by
    simp only [leading, hs, List.length_cons]
    push_cast
    ring
  obtain ⟨k, hpower⟩ : ∃ k, ∀ cs, List.replicate (2 - (Nat.toDigits 10 x.leading.natAbs).length) '0' ++
      cs = List.replicate k '0' ++ cs := ⟨_, fun _ => rfl⟩
  refine ⟨d, fraction, decide (x.leading < 0),
    List.replicate k '0' ++ Nat.toDigits 10 x.leading.natAbs, ?_, ?_, ?_, ?_, ?_, ?_⟩
  · cases fraction <;> simp [scientific, hs, fractionText, ← hpower]
  · exact hdigits d List.mem_cons_self
  · exact fun c hc => hdigits c (List.mem_cons_of_mem _ hc)
  · exact (allDigits_replicate k).append (allDigits_toDigits _)
  · simp [Nat.toDigits_ne_nil]
  · have hsigned : (if decide (x.leading < 0) = true then -(x.leading.natAbs : Int)
        else x.leading.natAbs) = x.leading := by
      simp only [decide_eq_true_eq]
      split <;> omega
    rw [decimalValue_zeros_append, decimalValue_toDigits, hsigned, hleading, add_sub_cancel_right,
      reduced, hs]

end Number.Decimal

end SceneEditor
