import Mathlib.Data.Nat.Digits.Lemmas
import SceneEditor.Color
import SceneEditor.Proofs.Text.Digits

namespace SceneEditor

namespace Text

def IsHexDigit (c : Char) : Prop := c ∈ "0123456789abcdefABCDEF".toList

instance (c : Char) : Decidable (IsHexDigit c) := inferInstanceAs (Decidable (_ ∈ _))

def hexPlace (c : Char) : Nat := "0123456789abcdef".toList.idxOf c.toLower

def hexNumber (cs : List Char) : Nat := Nat.ofDigits 16 (cs.reverse.map hexPlace)

variable {c : Char} {cs : List Char} {n : Nat}

theorem hexDigit?_eq (c : Char) : hexDigit? c = if IsHexDigit c then some (hexPlace c) else none := by
  by_cases hc : c.toNat < 128
  · have hall : ∀ k < 128, hexDigit? (Char.ofNat k) =
        if IsHexDigit (Char.ofNat k) then some (hexPlace (Char.ofNat k)) else none := by
      decide +kernel
    rw [← Char.ofNat_toNat c]
    exact hall c.toNat hc
  · have hdigits : ("0123456789abcdefABCDEF".toList.all fun d => d.toNat < 128) = true := by decide
    have hle {d : Char} (hd : d.toNat < 128) : ¬ c ≤ d := by
      rw [Char.le_def, UInt32.le_iff_toNat_le]
      exact fun h => hc (lt_of_le_of_lt h hd)
    have hnot : ¬ IsHexDigit c := fun h => hc (of_decide_eq_true (List.all_eq_true.mp hdigits c h))
    rw [if_neg hnot, hexDigit?, if_neg fun h => hle (by decide) h.2,
      if_neg fun h => hle (by decide) h.2, if_neg fun h => hle (by decide) h.2]

theorem hexPlace_lt (h : IsHexDigit c) : hexPlace c < 16 := by
  have hall : ("0123456789abcdefABCDEF".toList.all fun d => hexPlace d < 16) = true := by decide
  exact of_decide_eq_true (List.all_eq_true.mp hall c h)

theorem hexNumber_append (cs : List Char) (c : Char) :
    hexNumber (cs ++ [c]) = 16 * hexNumber cs + hexPlace c := by
  rw [hexNumber, List.reverse_append, List.reverse_singleton, List.singleton_append, List.map_cons,
    Nat.ofDigits_cons, Nat.add_comm]
  rfl

theorem hexValue?_eq_some_iff :
    hexValue? cs = some n ↔ (∀ c ∈ cs, IsHexDigit c) ∧ hexNumber cs = n := by
  induction cs using List.reverseRecOn generalizing n with
  | nil => simp [hexValue?, hexNumber]
  | append_singleton cs c ih =>
    rw [hexValue?_append, Option.bind_eq_some_iff, List.forall_mem_append, List.forall_mem_singleton,
      hexNumber_append]
    simp only [ih, hexDigit?_eq, Option.map_eq_some_iff, Option.ite_none_right_eq_some,
      Option.some.injEq]
    constructor
    · rintro ⟨m, ⟨hcs, rfl⟩, k, ⟨hc, rfl⟩, rfl⟩
      exact ⟨⟨hcs, hc⟩, rfl⟩
    · rintro ⟨⟨hcs, hc⟩, rfl⟩
      exact ⟨_, ⟨hcs, rfl⟩, _, ⟨hc, rfl⟩, rfl⟩

theorem hexNumber_lt (h : ∀ c ∈ cs, IsHexDigit c) : hexNumber cs < 16 ^ cs.length := by
  have hlt := Nat.ofDigits_lt_base_pow_length (b := 16) (l := cs.reverse.map hexPlace)
    (by decide) (by simpa using fun c hc => hexPlace_lt (h c hc))
  rwa [List.length_map, List.length_reverse] at hlt

end Text

namespace Color

open Text

variable {s : String} {c : Color}

/-- A text is a sharp sign and eight hexadecimal digits that denote the colour, or six that denote
it apart from alpha, which is full. -/
def IsWritten (c : Color) (s : String) : Prop :=
  ∃ digits, s.toList = '#' :: digits ∧ (∀ d ∈ digits, IsHexDigit d) ∧
    (digits.length = 6 ∧ c.toNat = 0xff000000 + hexNumber digits ∨
      digits.length = 8 ∧ c.toNat = hexNumber digits)

theorem ofNat_eq_iff {n : Nat} (hn : n < 2 ^ 32) : (⟨UInt32.ofNat n⟩ : Color) = c ↔ c.toNat = n := by
  constructor
  · rintro rfl
    exact UInt32.toNat_ofNat_of_lt' hn
  · intro hc
    have hpacked : UInt32.ofNat n = c.packed := UInt32.toNat_inj.mp (by
      rw [UInt32.toNat_ofNat_of_lt' hn, ← hc, toNat])
    rw [hpacked]

theorem exists_eq_toNat_iff {i : Int} : (∃ c : Color, i = c.toNat) ↔ 0 ≤ i ∧ i ≤ 0xffffffff := by
  constructor
  · rintro ⟨c, rfl⟩
    have hlt := c.packed.toNat_lt
    rw [toNat]
    omega
  · rintro ⟨hlow, hhigh⟩
    refine ⟨⟨UInt32.ofNat i.toNat⟩, ?_⟩
    have htoNat := (ofNat_eq_iff (n := i.toNat) (by omega)).mp rfl
    omega

theorem exists_isWritten_iff : (∃ c : Color, c.IsWritten s) ↔ ∃ digits, s.toList = '#' :: digits ∧
    (digits.length = 6 ∨ digits.length = 8) ∧ ∀ d ∈ digits, IsHexDigit d := by
  constructor
  · rintro ⟨c, digits, hs, hdigits, hread⟩
    exact ⟨digits, hs, hread.imp And.left And.left, hdigits⟩
  · rintro ⟨digits, hs, hlength, hdigits⟩
    have hlt := hexNumber_lt hdigits
    rcases hlength with hsix | height
    · rw [hsix] at hlt
      exact ⟨_, digits, hs, hdigits, .inl ⟨hsix, (ofNat_eq_iff (by omega)).mp rfl⟩⟩
    · rw [height] at hlt
      exact ⟨_, digits, hs, hdigits, .inr ⟨height, (ofNat_eq_iff hlt).mp rfl⟩⟩

theorem map_hexValue?_eq_some_iff {digits : List Char} {k : Nat}
    (hk : 16 ^ digits.length + k ≤ 2 ^ 32) :
    (hexValue? digits).map (fun n => (⟨UInt32.ofNat (n + k)⟩ : Color)) = some c ↔
      (∀ d ∈ digits, IsHexDigit d) ∧ c.toNat = k + hexNumber digits := by
  rw [Option.map_eq_some_iff, Nat.add_comm k]
  constructor
  · rintro ⟨n, hn, hc⟩
    obtain ⟨hdigits, rfl⟩ := hexValue?_eq_some_iff.mp hn
    have hlt := hexNumber_lt hdigits
    exact ⟨hdigits, (ofNat_eq_iff (by omega)).mp hc⟩
  · rintro ⟨hdigits, hc⟩
    have hlt := hexNumber_lt hdigits
    exact ⟨_, hexValue?_eq_some_iff.mpr ⟨hdigits, rfl⟩, (ofNat_eq_iff (by omega)).mpr hc⟩

theorem ofHex?_eq_some_iff : ofHex? s = some c ↔ c.IsWritten s := by
  rw [ofHex?, IsWritten]
  split
  · next digits hs =>
    have hdigits (P : List Char → Prop) : (∃ ds, s.toList = '#' :: ds ∧ P ds) ↔ P digits := by
      simp [hs]
    rw [hdigits]
    split
    · next hsix =>
      rw [map_hexValue?_eq_some_iff (by rw [hsix]; decide)]
      simp [hsix]
    · next hsix =>
      split
      · next height =>
        have hread : (hexValue? digits).map (fun n => (⟨UInt32.ofNat (n + 0)⟩ : Color)) = some c ↔
            _ := map_hexValue?_eq_some_iff (by rw [height]; decide)
        rw [Nat.zero_add] at hread
        exact hread.trans (by simp [height])
      · next height => simp [hsix, height]
  · next hno =>
    refine iff_of_false (by nofun) ?_
    rintro ⟨digits, hs, _⟩
    exact hno digits hs

end Color

end SceneEditor
