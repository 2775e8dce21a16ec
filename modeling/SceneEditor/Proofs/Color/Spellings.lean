import SceneEditor.Proofs.Program.Attempt
import SceneEditor.Proofs.Property.Grammar

namespace SceneEditor

namespace Text

variable {c : Char} {xs ys : List Char}

theorem toLower_of_not_ascii (h : ¬ c.toNat < 128) : c.toLower = c := by
  apply dif_neg
  rintro ⟨_, hle⟩
  rw [UInt32.le_iff_toNat_le] at hle
  exact h (lt_of_le_of_lt hle (by decide))

theorem forall_of_ascii {P : Char → Char → Prop} (hascii : ∀ k < 128, P (Char.ofNat k)
    (Char.ofNat k).toLower) (hsame : ∀ c, P c c) (c : Char) : P c c.toLower := by
  by_cases hc : c.toNat < 128
  · rw [← Char.ofNat_toNat c]
    exact hascii c.toNat hc
  · rw [toLower_of_not_ascii hc]
    exact hsame c

theorem isHexDigit_toLower (c : Char) : IsHexDigit c.toLower ↔ IsHexDigit c := by
  apply forall_of_ascii (P := fun c d => IsHexDigit d ↔ IsHexDigit c)
  · decide +kernel
  · exact fun c => Iff.rfl

theorem toLower_eq_sharp_iff (c : Char) : c.toLower = '#' ↔ c = '#' := by
  apply forall_of_ascii (P := fun c d => d = '#' ↔ c = '#')
  · decide +kernel
  · exact fun c => Iff.rfl

section Case

variable (h : xs.map Char.toLower = ys.map Char.toLower)

include h

theorem forall_isHexDigit_congr : (∀ c ∈ xs, IsHexDigit c) ↔ ∀ c ∈ ys, IsHexDigit c := by
  have hlower (cs : List Char) : (∀ c ∈ cs.map Char.toLower, IsHexDigit c) ↔
      ∀ c ∈ cs, IsHexDigit c := by simp only [List.forall_mem_map, isHexDigit_toLower]
  rw [← hlower xs, h, hlower ys]

theorem hexNumber_congr : hexNumber xs = hexNumber ys := by
  have hlower (cs : List Char) : cs.reverse.map hexPlace =
      (cs.map Char.toLower).reverse.map "0123456789abcdef".toList.idxOf := by
    rw [← List.map_reverse, List.map_map]
    rfl
  rw [hexNumber, hexNumber, hlower xs, h, ← hlower ys]

end Case

end Text

namespace Color

open Text

variable {s t : String} {c : Color} {digits : List Char}

theorem IsWritten.of_case (h : s.toList.map Char.toLower = t.toList.map Char.toLower)
    (hc : c.IsWritten s) : c.IsWritten t := by
  obtain ⟨digits, hs, hdigits, hread⟩ := hc
  rw [hs, List.map_cons] at h
  obtain ⟨sharp, ds, ht, hsharp, hds⟩ := List.map_eq_cons_iff.mp h.symm
  obtain rfl := (toLower_eq_sharp_iff sharp).mp hsharp
  have hlength : ds.length = digits.length := by
    rw [← List.length_map Char.toLower, hds, List.length_map]
  refine ⟨ds, ht, (forall_isHexDigit_congr hds).mpr hdigits, ?_⟩
  rwa [hlength, hexNumber_congr hds]

theorem SpelledBy.isWritten (h : c.SpelledBy digits) :
    c.IsWritten ("#" ++ String.ofList digits) := by
  obtain ⟨hdigits, hvalue⟩ := hexValue?_eq_some_iff.mp h.value
  exact ⟨digits, by simp, hdigits, .inr ⟨h.length_eq, hvalue.symm⟩⟩

theorem exists_cssColor_eq (i : Int) : ∃ digits, ∃ c : Color,
    cssColor i = "#" ++ String.ofList digits ∧ digits.length = 6 ∧
    (∀ d ∈ digits, d ∈ "0123456789abcdef".toList) ∧
    c.IsWritten ("#" ++ String.ofList digits) ∧ (c.toNat : Int) = 0xff000000 + i % 2 ^ 24 := by
  obtain ⟨n, hn⟩ : ∃ n : Nat, i % 2 ^ 24 = n := Int.eq_ofNat_of_zero_le (by omega)
  have hlt : n < 16 ^ 6 := by omega
  have hcss : cssColor i = "#" ++ String.ofList (hexDigits 6 n) := by
    rw [cssColor, show (0x1000000 : Int) = 2 ^ 24 from rfl, hn, Int.toNat_natCast]
    exact @String.ofList_append ['#'] _
  obtain ⟨hdigits, hvalue⟩ := hexValue?_eq_some_iff.mp (hexValue?_hexDigits 6 n)
  have hlength := length_hexDigits (by decide) hlt
  have hc := (ofNat_eq_iff (n := 0xff000000 + n) (by omega)).mp rfl
  refine ⟨_, ⟨UInt32.ofNat (0xff000000 + n)⟩, hcss, hlength, fun d => mem_of_mem_hexDigits,
    ⟨_, by simp, hdigits, .inl ⟨hlength, ?_⟩⟩, ?_⟩
  · rw [hc, hvalue]
  · rw [hc, hn]
    rfl

theorem ofHexValue_failsOnly (v : Value) :
    Reading.FailsOnly (fun e => e.family = .value) (ofHexValue v) := by
  intro e h
  unfold ofHexValue at h
  split at h
  · split at h
    · cases h
    · rw [← Except.error.inj h]
      split <;> rfl
  · rw [← Except.error.inj h]
    rfl

/-- A text is read as a colour exactly if it is a sharp sign and six or eight hexadecimal digits, in
letters of either case, and the colour is what they denote, with full alpha for six of them. What a
style sheet or a program writes is read again: the one keeps three bytes of any whole number, the
other all of a colour. -/
theorem hexadecimal_spellings (s : String) (i : Int) (c : Color) :
    ((∃ d, ofHexValue (.text s) = .ok d) ↔ ∃ digits, s.toList = '#' :: digits ∧
      (digits.length = 6 ∨ digits.length = 8) ∧ ∀ d ∈ digits, IsHexDigit d) ∧
    (∀ e, ofHexValue (.text s) = .error e → e.family = .value) ∧
    (∀ d, ofHexValue (.text s) = .ok d → d.toNat ≤ 0xffffffff ∧ ∃ digits,
      s.toList = '#' :: digits ∧
      d.toNat = (if digits.length = 6 then 0xff000000 else 0) + hexNumber digits) ∧
    (∀ t : String, t.toList.map Char.toLower = s.toList.map Char.toLower →
      ∀ d, ofHexValue (.text t) = .ok d ↔ ofHexValue (.text s) = .ok d) ∧
    (∃ digits d, (Value.whole i).toCssColor = .ok ("#" ++ String.ofList digits) ∧
      digits.length = 6 ∧ (∀ x ∈ digits, x ∈ "0123456789abcdef".toList) ∧
      ofHexValue (.text ("#" ++ String.ofList digits)) = .ok d ∧
      (d.toNat : Int) = 0xff000000 + i % 2 ^ 24) ∧
    ∃ digits, (Value.whole c.toNat).toHexLiteral = .ok ("0x" ++ String.ofList digits) ∧
      ofHexValue (.text ("#" ++ String.ofList digits)) = .ok c ∧
      Property.decode (.object [(.text "Color", .text ("#" ++ String.ofList digits))]) =
        .ok (.color c) := by
  simp only [ofHexValue_eq_ok_iff]
  refine ⟨exists_isWritten_iff, ofHexValue_failsOnly _, ?_, ?_, ?_, ?_⟩
  · rintro d ⟨digits, hs, _, hread⟩
    have hlt := d.packed.toNat_lt
    refine ⟨by rw [toNat]; omega, digits, hs, ?_⟩
    rcases hread with ⟨hsix, hd⟩ | ⟨height, hd⟩
    · rw [if_pos hsix, hd]
    · rw [if_neg (by omega), hd, Nat.zero_add]
  · exact fun t ht d => ⟨.of_case ht, .of_case ht.symm⟩
  · obtain ⟨digits, d, hcss, hrest⟩ := exists_cssColor_eq i
    exact ⟨digits, d, congrArg Except.ok hcss, hrest⟩
  · obtain ⟨digits, hliteral, hspelled⟩ := c.exists_hexLiteral_eq
    have hwritten := hspelled.isWritten
    have htags : (Value.object [(.text "Color", .text ("#" ++ String.ofList digits))]).Tags .color
        (.text ("#" ++ String.ofList digits)) := .inr rfl
    have hpayload : Property.ofPayload .color (.text ("#" ++ String.ofList digits)) =
        .ok (.color c) := Property.ofPayload_eq_ok_iff.mpr ⟨rfl, .written hwritten⟩
    refine ⟨digits, congrArg Except.ok hliteral, hwritten, ?_⟩
    rw [Property.decode_of_tags htags, hpayload]
    rfl

theorem hexadecimal_spellings_of_mixed_case :
    ("#80FFab0c".toList.map Char.toLower = "#80ffAB0C".toList.map Char.toLower) ∧
    ofHexValue (.text "#80ffAB0C") = .ok ⟨0x80ffab0c⟩ ∧
    ofHexValue (.text "#80FFab0c") = .ok ⟨0x80ffab0c⟩ ∧
    (∃ digits d, (Value.whole (-0xfe)).toCssColor = .ok ("#" ++ String.ofList digits) ∧
      ofHexValue (.text ("#" ++ String.ofList digits)) = .ok d ∧ d.toNat = 0xffffff02) ∧
    ∃ digits, (Value.whole (⟨0xab0c⟩ : Color).toNat).toHexLiteral =
        .ok ("0x" ++ String.ofList digits) ∧
      ofHexValue (.text ("#" ++ String.ofList digits)) = .ok ⟨0xab0c⟩ := by
  have hcase : "#80FFab0c".toList.map Char.toLower = "#80ffAB0C".toList.map Char.toLower := by
    decide
  have hmixed : ofHexValue (.text "#80ffAB0C") = .ok ⟨0x80ffab0c⟩ :=
    ofHexValue_eq_ok_iff.mpr (ofHex?_eq_some_iff.mp (by decide +kernel))
  obtain ⟨_, _, _, hsame, ⟨digits, d, hcss, _, _, hread, hd⟩, ds, hliteral, hcolor, _⟩ :=
    hexadecimal_spellings "#80ffAB0C" (-0xfe) ⟨0xab0c⟩
  exact ⟨hcase, hmixed, (hsame _ hcase _).mpr hmixed,
    ⟨digits, d, hcss, hread, Int.ofNat_inj.mp hd⟩, ds, hliteral, hcolor⟩

end Color

end SceneEditor
