import SceneEditor.Proofs.Document.Numbers
import SceneEditor.Proofs.Number.Whole

namespace SceneEditor

open Number
open Document (signText toList_sign)
open Decimal (fractionText)

namespace Text

variable {cs body whole fraction : List Char} {negative : Bool} {q : ℚ} {s : String}

structure IsFraction (cs : List Char) : Prop where
  digits : AllDigits cs
  last : cs.getLast? ≠ some '0'

def rational? (s : String) : Option ℚ :=
  (unsigned? (signed s.toList).2).map fun x => if (signed s.toList).1 then -x.value else x.value

def IsNumeralChar (c : Char) : Prop := c.isDigit = true ∨ c ∈ ".e+-".toList

instance (c : Char) : Decidable (IsNumeralChar c) := inferInstanceAs (Decidable (_ ∨ _))

structure IsNumeral (body : List Char) (q : ℚ) : Prop where
  head : ∃ c cs, body = c :: cs ∧ c.isDigit = true
  chars : ∀ c ∈ body, IsNumeralChar c
  read : ∃ x, unsigned? body = some x ∧ x.value = q

theorem IsNumeralChar.spec {c : Char} (h : IsNumeralChar c) :
    plain c = c ∧ c ≠ ' ' ∧ c ≠ '_' ∧ c.toLower = c := by
  have hlt : c.toNat < 128 := by
    rcases h with h | h
    · exact Nat.lt_of_le_of_lt (Document.isPrintable_of_isDigit h).2 (by decide)
    · have hall : (".e+-".toList.all fun d => d.toNat < 128) = true := by decide
      exact of_decide_eq_true (List.all_eq_true.mp hall c h)
  have hall : ∀ k < 128, IsNumeralChar (Char.ofNat k) → plain (Char.ofNat k) = Char.ofNat k ∧
      Char.ofNat k ≠ ' ' ∧ Char.ofNat k ≠ '_' ∧ (Char.ofNat k).toLower = Char.ofNat k := by
    decide +kernel
  rw [← Char.ofNat_toNat c] at h ⊢
  exact hall c.toNat hlt h

theorem trimmed_eq_self (h : ∀ c ∈ cs, c ≠ ' ') : trimmed cs = cs := by
  have hdrop {ds : List Char} (hds : ∀ c ∈ ds, c ≠ ' ') : ds.dropWhile (· == ' ') = ds :=
    List.dropWhile_eq_self_iff.mpr fun hl => by simpa using hds _ (List.getElem_mem hl)
  rw [trimmed, hdrop h, hdrop (by simpa using h), List.reverse_reverse]

theorem withoutSeparators_eq_some (h : ∀ c ∈ cs, c ≠ '_') : withoutSeparators cs = some cs := by
  fun_induction withoutSeparators cs with
  | case1 => rfl
  | case2 => simp at h
  | case3 => simp at h
  | case4 c rest _ hlow =>
    rw [List.forall_mem_cons] at h
    have hrest : rest ≠ ['_'] := by
      rintro rfl
      exact h.2 '_' List.mem_cons_self rfl
    simp [h.1, hrest] at hlow
  | case5 c rest _ _ ih =>
    rw [ih fun d hd => h d (List.mem_cons_of_mem _ hd)]
    rfl

theorem unsigned?_append (rest : List Char) (hw : AllDigits whole) (hne : whole ≠ [])
    (hf : AllDigits fraction) (hrest : NoDigitAhead rest) (hpoint : rest.head? ≠ some '.') {k : Int}
    (hk : exponentPart? rest = some k) : unsigned? (whole ++ fractionText fraction ++ rest) =
      some ⟨decimalValue (whole ++ fraction), k - fraction.length⟩ := by
  have hempty : whole.isEmpty = false := by simpa using hne
  by_cases hnil : fraction = []
  · subst hnil
    have hspan := span_isDigit_append hw hrest
    rw [fractionText, if_pos rfl, List.append_nil, unsigned?, hspan]
    cases rest with
    | nil => simp [hempty, hk]
    | cons c rest =>
      have hc : c ≠ '.' := by simpa using hpoint
      simp [hempty, hk, hc]
  · have hpointAhead : NoDigitAhead ('.' :: (fraction ++ rest)) := by
      intro c hc
      obtain rfl := Option.some.inj hc
      rfl
    have hspan := span_isDigit_append hw hpointAhead
    rw [fractionText, if_neg hnil, List.append_assoc, List.cons_append, unsigned?, hspan]
    simp only [span_isDigit_append hf hrest, hempty, hk]
    rfl

theorem isNumeralChar_of_allDigits (h : AllDigits cs) : ∀ c ∈ cs, IsNumeralChar c :=
  fun c hc => .inl (h c hc)

theorem isNumeralChar_fractionText (h : AllDigits fraction) :
    ∀ c ∈ fractionText fraction, IsNumeralChar c := by
  unfold fractionText
  split
  · nofun
  · rw [List.forall_mem_cons]
    exact ⟨by decide, isNumeralChar_of_allDigits h⟩

theorem decimalValue_concat (cs : List Char) (d : Char) :
    decimalValue (cs ++ [d]) = 10 * decimalValue cs + (d.toNat - 48) := by
  rw [decimalValue, List.foldl_append]
  rfl

theorem toNat_of_isDigit {c : Char} (h : c.isDigit = true) : 48 ≤ c.toNat ∧ c.toNat ≤ 57 := by
  simp only [Char.isDigit, Bool.and_eq_true, decide_eq_true_eq, ge_iff_le,
    UInt32.le_iff_toNat_le] at h
  exact h

theorem exponentPart?_power {power : List Char} (hp : AllDigits power) (hne : power ≠ []) :
    exponentPart? ('e' :: (if negative then '-' else '+') :: power) =
      some (if negative then -(decimalValue power : Int) else decimalValue power) := by
  have hempty : power.isEmpty = false := by simpa using hne
  have hall : power.all Char.isDigit = true := List.all_eq_true.mpr hp
  cases negative <;> simp [exponentPart?, signed, hempty, hall]

theorem unsigned?_point (hw : IsWholePart whole) (hf : AllDigits fraction) :
    unsigned? (whole ++ fractionText fraction) =
      some ⟨decimalValue (whole ++ fraction), -fraction.length⟩ := by
  have hread := unsigned?_append [] hw.digits hw.ne_nil hf (by nofun) (by nofun) rfl
  rwa [List.append_nil, zero_sub] at hread

theorem unsigned?_scientific {x : Decimal} (hx : x.digits ≠ 0) :
    unsigned? x.scientific = some x.reduced := by
  obtain ⟨d, fraction, sign, power, hlayout, hd, hf, hp, hne, hreduced⟩ := Decimal.scientific_spec hx
  have hw : AllDigits [d] := by simpa [AllDigits] using hd
  have hread := unsigned?_append ('e' :: (if sign then '-' else '+') :: power) hw
    (List.cons_ne_nil d []) hf
    (by rintro c hc; obtain rfl := Option.some.inj hc; rfl) (by simp) (exponentPart?_power hp hne)
  rw [List.append_assoc] at hread
  rw [hlayout, ← hreduced]
  exact hread

theorem isNumeral_of_positional {x : Decimal} (h : x.IsPositional (whole, fraction)) :
    IsNumeral (whole ++ fractionText fraction) x.value where
  head := by
    obtain ⟨c, cs, rfl⟩ := List.exists_cons_of_ne_nil h.whole.ne_nil
    exact ⟨c, _, rfl, h.whole.digits c List.mem_cons_self⟩
  chars := by
    rw [List.forall_mem_append]
    exact ⟨isNumeralChar_of_allDigits h.whole.digits, isNumeralChar_fractionText h.fraction⟩
  read := ⟨_, unsigned?_point h.whole h.fraction, h.value_eq⟩

theorem isNumeral_scientific {x : Decimal} (hx : x.digits ≠ 0) : IsNumeral x.scientific x.value := by
  have hread := unsigned?_scientific hx
  obtain ⟨d, fraction, sign, power, hlayout, hd, hf, hp, -, -⟩ := Decimal.scientific_spec hx
  rw [hlayout] at hread ⊢
  refine ⟨⟨d, _, rfl, hd⟩, ?_, _, hread, Decimal.value_reduced hx⟩
  have hsign : IsNumeralChar (if sign then '-' else '+') := by cases sign <;> decide
  rw [List.forall_mem_cons, List.forall_mem_append, List.forall_mem_cons, List.forall_mem_cons]
  exact ⟨.inl hd, isNumeralChar_fractionText hf, by decide, hsign, isNumeralChar_of_allDigits hp⟩

namespace IsNumeral

variable (h : IsNumeral body q)

include h

theorem signed_append (negative : Bool) : signed (signText negative ++ body) = (negative, body) := by
  obtain ⟨c, cs, rfl, hc⟩ := h.head
  cases negative with
  | true => rfl
  | false =>
    have hminus : c ≠ '-' := by
      rintro rfl
      cases hc
    have hplus : c ≠ '+' := by
      rintro rfl
      cases hc
    simp [signText, signed, hminus, hplus]

theorem rational?_eq (hs : s.toList = signText negative ++ body) :
    rational? s = some (if negative then -q else q) := by
  obtain ⟨x, hread, rfl⟩ := h.read
  rw [rational?, hs, h.signed_append, hread]
  rfl

theorem readNumber?_eq (hs : s.toList = signText negative ++ body) {x : Decimal}
    (hx : x.value = q) : readNumber? s = some (Binary.ofDecimal negative x) := by
  have hchars : ∀ c ∈ signText negative ++ body, IsNumeralChar c := by
    rw [List.forall_mem_append]
    refine ⟨?_, h.chars⟩
    cases negative with
    | true => simp [signText, IsNumeralChar]
    | false => nofun
  have hplain : (signText negative ++ body).map plain = signText negative ++ body :=
    (List.map_congr_left fun c hc => (hchars c hc).spec.1).trans (List.map_id _)
  have hlower : body.map Char.toLower = body :=
    (List.map_congr_left fun c hc => (h.chars c hc).spec.2.2.2).trans (List.map_id _)
  have hword {w : List Char} (hw : w.head?.all Char.isDigit = false) : body ≠ w := by
    obtain ⟨c, cs, rfl, hc⟩ := h.head
    rintro rfl
    simp [hc] at hw
  obtain ⟨y, hread, hy⟩ := h.read
  rw [readNumber?, hs, hplain, trimmed_eq_self fun c hc => (hchars c hc).spec.2.1,
    withoutSeparators_eq_some fun c hc => (hchars c hc).spec.2.2.1]
  simp only [Option.bind_eq_bind, Option.bind_some, h.signed_append, hread, hlower]
  have hinfinity : body ≠ "inf".toList ∧ body ≠ "infinity".toList :=
    ⟨hword (by decide), hword (by decide)⟩
  rw [if_neg (not_or.mpr hinfinity), if_neg (hword (by decide)), Option.map_some,
    Binary.ofDecimal_congr negative (hy.trans hx.symm)]

end IsNumeral

end Text

namespace Number

open Text

namespace Decimal

variable {x : Decimal}

theorem getLast?_significant (x : Decimal) : x.significant.1.getLast? ≠ some '0' := by
  intro hlast
  change ((Nat.toDigits 10 x.digits).rdropWhile (· == '0')).getLast? = some '0' at hlast
  have hne : (Nat.toDigits 10 x.digits).rdropWhile (· == '0') ≠ [] := by
    intro hnil
    rw [hnil] at hlast
    cases hlast
  rw [List.getLast?_eq_some_getLast hne, Option.some.injEq] at hlast
  have hnot := List.rdropWhile_last_not (· == '0') (Nat.toDigits 10 x.digits) hne
  simp [hlast] at hnot

theorem isFraction_parts (hx : x.digits ≠ 0) : IsFraction x.parts.2 := by
  refine ⟨(isPositional_parts hx).fraction, ?_⟩
  have hlast := x.getLast?_significant
  have hne := (spells_significant hx).ne_nil
  unfold parts
  split
  · nofun
  · next digits k hs =>
    rw [hs] at hlast hne
    split
    · rwa [List.getLast?_append_of_ne_nil _ hne]
    · rw [List.splitAt_eq, List.getLast?_drop, if_neg (by omega)]
      exact hlast

theorem IsPositional.isWhole_iff {p : List Char × List Char} (h : IsPositional p x)
    (hf : IsFraction p.2) : IsWhole x.value ↔ p.2 = [] := by
  obtain ⟨whole, fraction⟩ := p
  rw [← h.value_eq, value_point]
  constructor
  · rintro ⟨m, hm⟩
    by_contra hne
    obtain ⟨ds, d, rfl⟩ : ∃ ds d, fraction = ds ++ [d] :=
      ⟨_, _, (List.dropLast_append_getLast hne).symm⟩
    -- The last digit would be the remainder of a whole number of tens.
    have hten : decimalValue (whole ++ (ds ++ [d])) = m * 10 ^ ds.length * 10 := by
      rw [div_eq_iff (by positivity), List.length_append, List.length_singleton] at hm
      have hnat : decimalValue (whole ++ (ds ++ [d])) = m * 10 ^ (ds.length + 1) := by
        exact_mod_cast hm
      rw [hnat, pow_succ, mul_assoc]
    rw [← List.append_assoc, decimalValue_concat] at hten
    obtain ⟨hlow, hhigh⟩ := toNat_of_isDigit (hf.digits d (by simp))
    have hzero : d = '0' := by
      rw [← Char.ofNat_toNat d, show d.toNat = 48 by omega]
    exact hf.last (by simp [hzero])
  · rintro rfl
    exact ⟨decimalValue whole, by simp⟩

end Decimal

namespace Binary

variable {negative : Bool} {s : Nat} {e : Int}

theorem toList_positional (h : Format.double.Canonical s e) (hs : s ≠ 0) :
    (finite negative s e h : Double).positional.toList = signText negative ++
      ((shortest s e h).parts.1 ++ fractionText (shortest s e h).parts.2) := by
  rw [positional]
  simp only [if_neg hs]
  split
  · next whole hparts =>
    rw [hparts, String.toList_append, toList_sign, String.toList_ofList, fractionText, if_pos rfl,
      List.append_nil]
  · next whole fraction hne hparts =>
    have hfraction : fraction ≠ [] := fun hnil => hne (hnil ▸ rfl)
    rw [hparts, fractionText, if_neg hfraction]
    simp only [String.toList_append, toList_sign, String.toList_ofList, List.append_assoc]
    rfl

theorem isNumeral_positional (h : Format.double.Canonical s e) (hs : s ≠ 0) :
    IsNumeral ((shortest s e h).parts.1 ++ fractionText (shortest s e h).parts.2)
      (shortest s e h).value :=
  isNumeral_of_positional (Decimal.isPositional_parts (digits_shortest_ne_zero h hs))

theorem exists_isNumeral_shown (negative : Bool) (h : Format.double.Canonical s e) (hs : s ≠ 0) :
    ∃ body, (finite negative s e h : Double).shown.toList = signText negative ++ body ∧
      IsNumeral body (shortest s e h).value := by
  have hx := digits_shortest_ne_zero h hs
  have hparts := Decimal.isPositional_parts hx
  rw [shown]
  simp only [if_neg hs]
  split
  · refine ⟨_, ?_, isNumeral_scientific hx⟩
    rw [String.toList_append, toList_sign, String.toList_ofList]
  · split
    · next whole hp =>
      rw [hp] at hparts
      refine ⟨_, ?_, isNumeral_of_positional hparts.pad⟩
      simp only [String.toList_append, toList_sign, String.toList_ofList, List.append_assoc]
      rfl
    · next whole fraction hne hp =>
      rw [hp] at hparts
      have hfraction : fraction ≠ [] := fun hnil => hne (hnil ▸ rfl)
      refine ⟨_, ?_, isNumeral_of_positional hparts⟩
      rw [fractionText, if_neg hfraction]
      simp only [String.toList_append, toList_sign, String.toList_ofList, List.append_assoc]
      rfl

theorem readNumber?_positional (x : Double) : readNumber? x.positional = some x := by
  cases x with
  | nan => rfl
  | infinity negative => cases negative <;> rfl
  | finite negative s e h =>
    by_cases hs : s = 0
    · subst hs
      obtain rfl := h.exponent_eq_least
      have hzero : ∀ negative, readNumber? (zero negative : Double).positional =
          some (zero negative) := by decide +kernel
      exact hzero negative
    · rw [(isNumeral_positional h hs).readNumber?_eq (toList_positional h hs) rfl,
        ofDecimal_shortest negative h hs]

theorem positional_injective : Function.Injective (positional : Double → String) := by
  intro x y hxy
  have hread := readNumber?_positional x
  rw [hxy, readNumber?_positional y, Option.some.injEq] at hread
  exact hread.symm

theorem exists_value_eq_iff (h : Format.double.Canonical s e) :
    (∃ i : Int, (finite negative s e h : Double).value = i) ↔ IsWhole (s * 2 ^ e : ℚ) := by
  have hnonneg : (0 : ℚ) ≤ s * 2 ^ e := by positivity
  have habs : |(finite negative s e h : Double).value| = s * 2 ^ e := abs_value h
  constructor
  · rintro ⟨i, hi⟩
    refine ⟨i.natAbs, ?_⟩
    rw [hi] at habs
    rw [← habs, Nat.cast_natAbs, Int.cast_abs]
  · rintro ⟨m, hm⟩
    cases negative with
    | true => exact ⟨-m, by rw [value, if_pos rfl, hm]; push_cast; rfl⟩
    | false => exact ⟨m, by rw [value, if_neg (by decide), hm]; push_cast; rfl⟩

/-- The text of a finite number that is not zero is a sign or none, a whole part without a superfluous
zero, and a point with digits up to the last that is not zero, which it has exactly if the number is
not whole. It denotes the same as the text that the number is shown with, so it is read back, and no
two numbers have one text. -/
theorem positional_is_exact :
    (∀ (negative : Bool) (s : Nat) (e : Int) (h : Format.double.Canonical s e), s ≠ 0 →
      let x : Double := .finite negative s e h
      ∃ whole fraction q,
        x.positional.toList = signText negative ++ (whole ++ fractionText fraction) ∧
        IsWholePart whole ∧ IsFraction fraction ∧ (fraction = [] ↔ ∃ i : Int, x.value = i) ∧
        rational? x.positional = some q ∧ rational? x.shown = some q ∧
        readNumber? x.positional = some x ∧ readNumber? x.shown = some x) ∧
    (∀ negative, (zero negative : Double).positional = if negative then "-0" else "0") ∧
    (∀ negative, (infinity negative : Double).positional = if negative then "-inf" else "inf") ∧
    (nan : Double).positional = "NaN" ∧
    ∀ x y : Double, x.positional = y.positional ↔ x = y := by
  refine ⟨?_, ?_, fun _ => rfl, rfl, fun x y => positional_injective.eq_iff⟩
  · intro negative s e h hs x
    have hx := digits_shortest_ne_zero h hs
    have hfraction := Decimal.isFraction_parts hx
    have hpositional := Decimal.isPositional_parts hx
    have hnumeral := isNumeral_positional h hs
    obtain ⟨body, hshown, hbody⟩ := exists_isNumeral_shown negative h hs
    refine ⟨_, _, _, toList_positional h hs, hpositional.whole, hfraction, ?_,
      hnumeral.rational?_eq (toList_positional h hs), hbody.rational?_eq hshown,
      readNumber?_positional x, ?_⟩
    · rw [← hpositional.isWhole_iff hfraction, isWhole_shortest_iff h hs, exists_value_eq_iff]
    · rw [hbody.readNumber?_eq hshown rfl, ofDecimal_shortest negative h hs]
  · intro negative
    cases negative <;> rfl

theorem positional_is_exact_of_powers :
    let x : Double := .finite true 4768371582031250 21 (by decide)
    let y : Double := .finite false 7555786372591432 (-76) (by decide)
    x.shown = "-1e+22" ∧ x.positional = "-10000000000000000000000" ∧
      y.shown = "1e-07" ∧ y.positional = "0.0000001" ∧
      (∃ q, rational? x.positional = some q ∧ rational? x.shown = some q) ∧
      (∃ q, rational? y.positional = some q ∧ rational? y.shown = some q) := by
  intro x y
  obtain ⟨_, _, q, _, _, _, _, hpositional, hshown, _⟩ :=
    positional_is_exact.1 true 4768371582031250 21 (by decide) (by decide)
  obtain ⟨_, _, r, _, _, _, _, hpositional', hshown', _⟩ :=
    positional_is_exact.1 false 7555786372591432 (-76) (by decide) (by decide)
  exact ⟨by decide +kernel, by decide +kernel, by decide +kernel, by decide +kernel,
    ⟨q, hpositional, hshown⟩, ⟨r, hpositional', hshown'⟩⟩

end Binary

end Number

end SceneEditor
