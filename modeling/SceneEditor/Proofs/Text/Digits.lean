import Mathlib.Algebra.Group.Nat.Defs
import Mathlib.Data.List.DropRight
import Mathlib.Data.List.TakeDrop
import SceneEditor.Text.Hex
import SceneEditor.Text.Numeral

namespace SceneEditor.Text

def AllDigits (cs : List Char) : Prop := ∀ c ∈ cs, c.isDigit = true

def NoDigitAhead (rest : List Char) : Prop := ∀ c ∈ rest.head?, c.isDigit = false

theorem AllDigits.append {xs ys : List Char} (hx : AllDigits xs) (hy : AllDigits ys) :
    AllDigits (xs ++ ys) := by
  intro c hc
  rcases List.mem_append.mp hc with hc | hc
  · exact hx c hc
  · exact hy c hc

theorem allDigits_replicate (k : Nat) : AllDigits (List.replicate k '0') := by
  intro c hc
  rw [List.eq_of_mem_replicate hc]
  rfl

theorem allDigits_toDigits (n : Nat) : AllDigits (Nat.toDigits 10 n) :=
  fun _ hc => Nat.isDigit_of_mem_toDigits (by decide) (by decide) hc

theorem span_isDigit_append {cs rest : List Char} (hcs : AllDigits cs) (hrest : NoDigitAhead rest) :
    (cs ++ rest).span Char.isDigit = (cs, rest) := by
  rw [List.span_eq_takeWhile_dropWhile, List.takeWhile_append_of_pos hcs,
    List.dropWhile_append_of_pos hcs]
  cases rest with
  | nil => simp
  | cons c rest =>
    have hc : c.isDigit = false := hrest c rfl
    simp [hc]

theorem decimalValue_eq (cs : List Char) : decimalValue cs = Nat.ofDigitChars 10 cs 0 :=
  Nat.ofDigitChars_eq_foldl.symm

theorem decimalValue_toDigits (n : Nat) : decimalValue (Nat.toDigits 10 n) = n := by
  rw [decimalValue_eq, Nat.ofDigitChars_ten_toDigits]

theorem decimalValue_zeros_append (k : Nat) (cs : List Char) :
    decimalValue (List.replicate k '0' ++ cs) = decimalValue cs := by
  simp [decimalValue_eq, Nat.ofDigitChars_append, Nat.ofDigitChars_replicate_zero]

theorem decimalValue_append_zeros (cs : List Char) (k : Nat) :
    decimalValue (cs ++ List.replicate k '0') = 10 ^ k * decimalValue cs := by
  simp [decimalValue_eq, Nat.ofDigitChars_append, Nat.ofDigitChars_replicate_zero]

theorem head?_toDigits_ne_zero {n : Nat} (hn : n ≠ 0) : (Nat.toDigits 10 n).head? ≠ some '0' := by
  induction n using Nat.strongRecOn with
  | ind n ih =>
    rw [Nat.toDigits_eq_if (by decide)]
    split
    · next hlt =>
      have hall : ∀ k < 10, k ≠ 0 → [k.digitChar].head? ≠ some '0' := by decide
      exact hall n hlt hn
    · next hge =>
      rw [List.head?_append_of_ne_nil _ Nat.toDigits_ne_nil]
      exact ih (n / 10) (by omega) (by omega)

theorem toDigits_eq_append_zeros {n : Nat} (hn : n ≠ 0) : ∃ kept k,
    ((Nat.toDigits 10 n).reverse.dropWhile (· == '0')).reverse = kept ∧
      Nat.toDigits 10 n = kept ++ List.replicate k '0' ∧ kept ≠ [] := by
  obtain ⟨kept, hkept⟩ : ∃ kept, (Nat.toDigits 10 n).rdropWhile (· == '0') = kept := ⟨_, rfl⟩
  have hzeros : ∀ c ∈ (Nat.toDigits 10 n).rtakeWhile (· == '0'), c = '0' := by
    intro c hc
    simpa using List.mem_rtakeWhile_imp hc
  have hsplit : Nat.toDigits 10 n = kept ++
      List.replicate ((Nat.toDigits 10 n).rtakeWhile (· == '0')).length '0' := by
    rw [← List.eq_replicate_of_mem hzeros, ← hkept, List.rdropWhile_append_rtakeWhile]
  refine ⟨kept, _, hkept, hsplit, ?_⟩
  rintro rfl
  have hhead := head?_toDigits_ne_zero hn
  have hne : Nat.toDigits 10 n ≠ [] := Nat.toDigits_ne_nil
  rw [hsplit] at hhead hne
  cases hk : ((Nat.toDigits 10 n).rtakeWhile (· == '0')).length with
  | zero => simp [hk] at hne
  | succ k => simp [hk, List.replicate_succ] at hhead

section Hexadecimal

theorem exists_of_mem_toDigits {n : Nat} {c : Char} (h : c ∈ Nat.toDigits 16 n) :
    ∃ k < 16, c = k.digitChar := by
  induction n using Nat.strongRecOn with
  | ind n ih =>
    rw [Nat.toDigits_eq_if (by decide)] at h
    split at h
    · next hlt => exact ⟨n, hlt, List.mem_singleton.mp h⟩
    · next hge =>
      rcases List.mem_append.mp h with h | h
      · exact ih (n / 16) (by omega) h
      · exact ⟨n % 16, Nat.mod_lt _ (by decide), List.mem_singleton.mp h⟩

theorem hexValue?_append (cs : List Char) (c : Char) : hexValue? (cs ++ [c]) =
    (hexValue? cs).bind fun n => (hexDigit? c).map (16 * n + ·) := by
  simp only [hexValue?, List.foldlM_append, List.foldlM_cons, List.foldlM_nil]
  cases List.foldlM (fun n c => (hexDigit? c).map (16 * n + ·)) 0 cs with
  | none => rfl
  | some n => cases hexDigit? c <;> rfl

theorem hexValue?_map_toDigits {f : Char → Char}
    (hf : ∀ k < 16, hexDigit? (f k.digitChar) = some k) (n : Nat) :
    hexValue? ((Nat.toDigits 16 n).map f) = some n := by
  induction n using Nat.strongRecOn with
  | ind n ih =>
    rw [Nat.toDigits_eq_if (by decide)]
    split
    · next hlt => simp [hexValue?, hf n hlt]
    · next hge =>
      rw [List.map_append, List.map_singleton, hexValue?_append, ih (n / 16) (by omega),
        hf (n % 16) (by omega)]
      simp [Nat.div_add_mod]

theorem hexValue?_padded (width : Nat) (cs : List Char) :
    hexValue? (padded width cs) = hexValue? cs := by
  have hzeros (k : Nat) : hexValue? (List.replicate k '0' ++ cs) = hexValue? cs := by
    induction k with
    | zero => rfl
    | succ k ih => simpa [hexValue?, List.replicate_succ, hexDigit?] using ih
  exact hzeros _

theorem hexValue?_hexDigits (width n : Nat) : hexValue? (hexDigits width n) = some n := by
  have hdigits := hexValue?_map_toDigits (f := id) (by decide) n
  rwa [List.map_id, ← hexValue?_padded width] at hdigits

theorem length_padded {width : Nat} {cs : List Char} (h : cs.length ≤ width) :
    (padded width cs).length = width := by
  rw [padded, List.length_append, List.length_replicate]
  omega

theorem length_hexDigits {width n : Nat} (hwidth : 0 < width) (hn : n < 16 ^ width) :
    (hexDigits width n).length = width :=
  length_padded ((Nat.length_toDigits_le_iff (by decide) hwidth).mpr hn)

theorem mem_of_mem_hexDigits {width n : Nat} {c : Char} (h : c ∈ hexDigits width n) :
    c ∈ "0123456789abcdef".toList := by
  rcases List.mem_append.mp h with h | h
  · rw [List.eq_of_mem_replicate h]
    decide
  · obtain ⟨k, hk, rfl⟩ := exists_of_mem_toDigits h
    have hall : ∀ k < 16, k.digitChar ∈ "0123456789abcdef".toList := by decide
    exact hall k hk

end Hexadecimal

end SceneEditor.Text
