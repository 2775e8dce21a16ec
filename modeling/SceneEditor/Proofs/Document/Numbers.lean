import SceneEditor.Document.Printer
import SceneEditor.Document.Reader
import SceneEditor.Proofs.Number.Layout

namespace SceneEditor.Document

open Number Text

def Follows (rest : List Char) : Prop := ∀ c ∈ rest.head?, c = ',' ∨ c = '\n'

namespace Follows

variable {rest : List Char}

theorem noDigitAhead (h : Follows rest) : NoDigitAhead rest := by
  intro c hc
  rcases h c hc with rfl | rfl <;> rfl

theorem fractionPart_eq (h : Follows rest) : fractionPart rest = ([], rest) := by
  cases rest with
  | nil => rfl
  | cons c rest => rcases h c rfl with rfl | rfl <;> rfl

theorem exponentPart_eq (h : Follows rest) : exponentPart rest = (none, rest) := by
  cases rest with
  | nil => rfl
  | cons c rest => rcases h c rfl with rfl | rfl <;> rfl

end Follows

variable {negative : Bool} {place whole fraction power rest : List Char}

theorem wholePart?_append (hw : IsWholePart whole) (hrest : NoDigitAhead rest) :
    wholePart? (whole ++ rest) = some (whole, rest) := by
  obtain ⟨hdigits, hne, rfl | hhead⟩ := hw
  · rfl
  · cases whole with
    | nil => exact absurd rfl hne
    | cons c cs =>
      have hspan := span_isDigit_append hdigits hrest
      have hc : c.isDigit = true := hdigits c List.mem_cons_self
      rw [List.cons_append, wholePart?, if_pos hc, ← List.cons_append, hspan]
      rintro rfl
      exact hhead rfl

theorem fractionPart_point (hf : AllDigits fraction) (hne : fraction ≠ [])
    (hrest : NoDigitAhead rest) : fractionPart ('.' :: fraction ++ rest) = (fraction, rest) := by
  have hspan := span_isDigit_append hf hrest
  cases fraction with
  | nil => exact absurd rfl hne
  | cons c cs =>
    rw [List.cons_append, fractionPart, hspan]

theorem exponentPart_power (hp : AllDigits power) (hne : power ≠ []) (hrest : NoDigitAhead rest) :
    exponentPart ('e' :: (if negative then '-' else '+') :: power ++ rest) =
      (some (if negative then -(decimalValue power : Int) else decimalValue power), rest) := by
  cases power with
  | nil => exact absurd rfl hne
  | cons c cs =>
    have hspan : (c :: (cs ++ rest)).span Char.isDigit = (c :: cs, rest) :=
      span_isDigit_append hp hrest
    cases negative <;>
      simp only [exponentPart, signed, List.cons_append, hspan, true_or, if_true, if_false,
        Bool.false_eq_true]

theorem readNumber_whole (hw : IsWholePart whole) (hlength : whole.length ≤ maxDigits)
    (hrest : Follows rest) : readNumber negative place (whole ++ rest) =
      .ok (.whole (if negative then -(decimalValue whole : Int) else decimalValue whole), rest) := by
  rw [readNumber, wholePart?_append hw hrest.noDigitAhead]
  simp only [hrest.fractionPart_eq, hrest.exponentPart_eq]
  simp [Value.wholeOfDigits, Nat.not_lt.mpr hlength]

theorem readNumber_point (hw : IsWholePart whole) (hf : AllDigits fraction) (hne : fraction ≠ [])
    (hrest : Follows rest) :
    readNumber negative place (whole ++ '.' :: fraction ++ rest) = .ok (.number
      (Binary.ofDecimal negative ⟨decimalValue (whole ++ fraction), -fraction.length⟩), rest) := by
  have hpoint : NoDigitAhead ('.' :: fraction ++ rest) := by
    intro c hc
    obtain rfl := Option.some.inj hc
    rfl
  rw [List.append_assoc, readNumber, wholePart?_append hw hpoint]
  simp only [fractionPart_point hf hne hrest.noDigitAhead, hrest.exponentPart_eq]
  simp [hne]

theorem readNumber_scientific {d : Char} (hd : d.isDigit = true) (hf : AllDigits fraction)
    (hp : AllDigits power) (hne : power ≠ []) (hrest : Follows rest) (sign : Bool) :
    readNumber negative place (d :: (Decimal.fractionText fraction ++
        'e' :: (if sign then '-' else '+') :: power) ++ rest) =
      .ok (.number (Binary.ofDecimal negative ⟨decimalValue (d :: fraction),
        (if sign then -(decimalValue power : Int) else decimalValue power) - fraction.length⟩),
        rest) := by
  have hw : IsWholePart [d] := by
    refine ⟨by simpa [AllDigits] using hd, nofun, ?_⟩
    by_cases hzero : d = '0'
    · exact .inl (by rw [hzero])
    · exact .inr (by simpa using hzero)
  obtain ⟨tail, htail⟩ : ∃ tail, tail = 'e' :: (if sign then '-' else '+') :: power ++ rest :=
    ⟨_, rfl⟩
  have hletter : NoDigitAhead tail := by
    intro c hc
    rw [htail] at hc
    obtain rfl := Option.some.inj hc
    rfl
  have hexponent : exponentPart tail =
      (some (if sign then -(decimalValue power : Int) else decimalValue power), rest) := by
    rw [htail, exponentPart_power hp hne hrest.noDigitAhead]
  have hfraction : NoDigitAhead (Decimal.fractionText fraction ++ tail) ∧
      fractionPart (Decimal.fractionText fraction ++ tail) = (fraction, tail) := by
    by_cases hnil : fraction = []
    · subst hnil
      refine ⟨hletter, ?_⟩
      rw [htail]
      rfl
    · rw [Decimal.fractionText, if_neg hnil]
      refine ⟨fun c hc => ?_, fractionPart_point hf hnil hletter⟩
      obtain rfl := Option.some.inj hc
      rfl
  have hsplit : d :: (Decimal.fractionText fraction ++ 'e' :: (if sign then '-' else '+') :: power) ++
      rest = [d] ++ (Decimal.fractionText fraction ++ tail) := by
    rw [htail]
    simp
  rw [hsplit, readNumber, wholePart?_append hw hfraction.1]
  simp only [hfraction.2, hexponent]
  simp

def IsPrintable (c : Char) : Prop := 32 ≤ c.toNat ∧ c.toNat ≤ 126

instance (c : Char) : Decidable (IsPrintable c) := inferInstanceAs (Decidable (_ ∧ _))

theorem isPrintable_of_isDigit {c : Char} (h : c.isDigit = true) : IsPrintable c := by
  simp only [Char.isDigit, Bool.and_eq_true, decide_eq_true_eq, ge_iff_le,
    UInt32.le_iff_toNat_le] at h
  have hlow : 48 ≤ c.toNat := h.1
  have hhigh : c.toNat ≤ 57 := h.2
  exact ⟨by omega, by omega⟩

theorem isPrintable_of_allDigits {cs : List Char} (h : AllDigits cs) : ∀ c ∈ cs, IsPrintable c :=
  fun c hc => isPrintable_of_isDigit (h c hc)

structure IsMagnitude (negative : Bool) (body : List Char) (v : Value) : Prop where
  head : ∃ c cs, body = c :: cs ∧ c.isDigit = true
  printable : ∀ c ∈ body, IsPrintable c
  read : ∀ place {rest}, Follows rest → readNumber negative place (body ++ rest) = .ok (v, rest)

namespace IsMagnitude

theorem of_whole (hw : IsWholePart whole) (hlength : whole.length ≤ maxDigits) :
    IsMagnitude negative whole
      (.whole (if negative then -(decimalValue whole : Int) else decimalValue whole)) where
  head := by
    obtain ⟨c, cs, rfl⟩ := List.exists_cons_of_ne_nil hw.ne_nil
    exact ⟨c, cs, rfl, hw.digits c List.mem_cons_self⟩
  printable := isPrintable_of_allDigits hw.digits
  read := fun _ _ hrest => readNumber_whole hw hlength hrest

theorem of_point (hw : IsWholePart whole) (hf : AllDigits fraction)
    (hne : fraction ≠ []) : IsMagnitude negative (whole ++ '.' :: fraction) (.number
      (Binary.ofDecimal negative ⟨decimalValue (whole ++ fraction), -fraction.length⟩)) where
  head := by
    obtain ⟨c, cs, rfl⟩ := List.exists_cons_of_ne_nil hw.ne_nil
    exact ⟨c, _, rfl, hw.digits c List.mem_cons_self⟩
  printable := by
    rw [List.forall_mem_append, List.forall_mem_cons]
    exact ⟨isPrintable_of_allDigits hw.digits, ⟨by decide, by decide⟩, isPrintable_of_allDigits hf⟩
  read := fun _ _ hrest => readNumber_point hw hf hne hrest

theorem of_scientific {d : Char} (hd : d.isDigit = true) (hf : AllDigits fraction)
    (hp : AllDigits power) (hne : power ≠ []) (sign : Bool) : IsMagnitude negative
      (d :: (Decimal.fractionText fraction ++ 'e' :: (if sign then '-' else '+') :: power))
      (.number (Binary.ofDecimal negative ⟨decimalValue (d :: fraction),
        (if sign then -(decimalValue power : Int) else decimalValue power) - fraction.length⟩)) where
  head := ⟨d, _, rfl, hd⟩
  printable := by
    have hfraction : ∀ c ∈ Decimal.fractionText fraction, IsPrintable c := by
      unfold Decimal.fractionText
      split
      · nofun
      · rw [List.forall_mem_cons]
        exact ⟨⟨by decide, by decide⟩, isPrintable_of_allDigits hf⟩
    have hsign : IsPrintable (if sign then '-' else '+') := by
      cases sign <;> exact ⟨by decide, by decide⟩
    rw [List.forall_mem_cons, List.forall_mem_append, List.forall_mem_cons, List.forall_mem_cons]
    exact ⟨isPrintable_of_isDigit hd, hfraction, ⟨by decide, by decide⟩, hsign,
      isPrintable_of_allDigits hp⟩
  read := fun _ _ hrest => readNumber_scientific hd hf hp hne hrest sign

theorem of_positional {x : Decimal} (h : x.IsPositional (whole, fraction)) (hne : fraction ≠ []) :
    IsMagnitude negative (whole ++ '.' :: fraction) (.number (Binary.ofDecimal negative x)) := by
  rw [← Binary.ofDecimal_congr negative h.value_eq]
  exact .of_point h.whole h.fraction hne

end IsMagnitude

def signText (negative : Bool) : List Char := if negative then ['-'] else []

theorem toList_sign (negative : Bool) :
    (if negative then "-" else "").toList = signText negative := by
  cases negative <;> rfl

theorem exists_magnitude_whole {i : Int}
    (hi : (Nat.toDigits 10 i.natAbs).length ≤ maxDigits) : ∃ negative body,
      (Value.wholeText i).toList = signText negative ++ body ∧
        IsMagnitude negative body (.whole i) := by
  have hvalue : (if decide (i < 0) = true then
      -(decimalValue (Nat.toDigits 10 i.natAbs) : Int) else
        decimalValue (Nat.toDigits 10 i.natAbs)) = i := by
    simp only [decimalValue_toDigits, decide_eq_true_eq]
    split <;> omega
  refine ⟨decide (i < 0), Nat.toDigits 10 i.natAbs, ?_, ?_⟩
  · rw [Value.wholeText, String.toList_append, String.toList_ofList, ← toList_sign]
    simp only [decide_eq_true_eq]
  · have hmagnitude : IsMagnitude (decide (i < 0)) (Nat.toDigits 10 i.natAbs) _ :=
      .of_whole (isWholePart_toDigits i.natAbs) hi
    rwa [hvalue] at hmagnitude

theorem exists_magnitude_scientific {x : Decimal} (hx : x.digits ≠ 0) : ∃ body,
    ((if negative then "-" else "") ++ String.ofList x.scientific).toList =
      signText negative ++ body ∧
        IsMagnitude negative body (.number (Binary.ofDecimal negative x)) := by
  obtain ⟨d, fraction, sign, power, hlayout, hd, hf, hp, hne, hreduced⟩ := Decimal.scientific_spec hx
  rw [hlayout, ← Binary.ofDecimal_congr negative (Decimal.value_reduced hx), ← hreduced]
  refine ⟨_, ?_, .of_scientific hd hf hp hne sign⟩
  rw [String.toList_append, toList_sign, String.toList_ofList]

theorem exists_magnitude_finite {significand : Nat} {exponent : Int}
    (h : Format.double.Canonical significand exponent) : ∃ body,
      (numberText (.finite negative significand exponent h)).toList = signText negative ++ body ∧
        IsMagnitude negative body (.number (.finite negative significand exponent h)) := by
  have htext : numberText (.finite negative significand exponent h) =
      (Binary.finite negative significand exponent h : Double).shown := rfl
  rw [htext, Binary.shown]
  by_cases hs : significand = 0
  · subst hs
    -- There is only one zero of each sign.
    obtain rfl : exponent = Format.double.least := by
      rcases h.2.2.2 with he | hfull
      · exact he
      · exact absurd hfull (by decide)
    have hzero : IsWholePart ['0'] := ⟨allDigits_replicate 1, List.cons_ne_nil _ _, .inl rfl⟩
    have hmagnitude : IsMagnitude negative (['0'] ++ '.' :: ['0']) _ :=
      .of_point hzero hzero.digits hzero.ne_nil
    refine ⟨['0'] ++ '.' :: ['0'], ?_, hmagnitude⟩
    rw [if_pos rfl, String.toList_append, toList_sign]
    rfl
  · have hx := Binary.digits_shortest_ne_zero h hs
    simp only [if_neg hs]
    rw [← Binary.ofDecimal_shortest negative h hs]
    split
    · exact exists_magnitude_scientific hx
    · have hparts := Decimal.isPositional_parts hx
      rcases hp : (Binary.shortest significand exponent h).parts with ⟨whole, _ | ⟨c, cs⟩⟩ <;>
        rw [hp] at hparts
      · refine ⟨_, ?_, .of_positional hparts.pad (List.cons_ne_nil _ _)⟩
        simp only [String.toList_append, toList_sign, String.toList_ofList, List.append_assoc]
        rfl
      · refine ⟨_, ?_, .of_positional hparts (List.cons_ne_nil c cs)⟩
        simp only [String.toList_append, toList_sign, String.toList_ofList, List.append_assoc]
        rfl

end SceneEditor.Document
