import SceneEditor.Proofs.Number.Positional

namespace SceneEditor

open Number
open Document (signText toList_sign)
open Decimal (fractionText)

namespace Text

variable {cs whole fraction : List Char}

theorem digitChar_of_isDigit {c : Char} (h : c.isDigit = true) : (c.toNat - 48).digitChar = c := by
  obtain ⟨hlow, hhigh⟩ := toNat_of_isDigit h
  apply Char.toNat_inj.mp
  rw [Nat.toNat_digitChar_of_lt_ten (by omega)]
  omega

theorem toDigits_append {n : Nat} (hn : 0 < n) (hcs : AllDigits cs) : Nat.toDigits 10 n ++ cs =
    Nat.toDigits 10 (cs.foldl (fun n c => 10 * n + (c.toNat - 48)) n) := by
  induction cs generalizing n with
  | nil => rw [List.append_nil, List.foldl_nil]
  | cons c cs ih =>
    have hc : c.isDigit = true := hcs c List.mem_cons_self
    obtain ⟨hlow, hhigh⟩ := toNat_of_isDigit hc
    have hdigit := Nat.toDigits_append_toDigits (b := 10) (n := n) (d := c.toNat - 48) (by decide) hn
      (by omega)
    have hlt : c.toNat - 48 < 10 := by omega
    rw [Nat.toDigits_of_lt_base hlt, digitChar_of_isDigit hc] at hdigit
    rw [List.append_cons, hdigit, List.foldl_cons]
    exact ih (by omega) fun d hd => hcs d (List.mem_cons_of_mem _ hd)

theorem eq_zeros_append_toDigits (hcs : AllDigits cs) (hne : cs ≠ []) :
    ∃ k, cs = List.replicate k '0' ++ Nat.toDigits 10 (decimalValue cs) := by
  induction cs with
  | nil => exact absurd rfl hne
  | cons c cs ih =>
    have hc : c.isDigit = true := hcs c List.mem_cons_self
    have hrest : AllDigits cs := fun d hd => hcs d (List.mem_cons_of_mem _ hd)
    obtain ⟨hlow, hhigh⟩ := toNat_of_isDigit hc
    by_cases hzero : c = '0'
    · subst hzero
      by_cases hnil : cs = []
      · exact ⟨0, by rw [hnil]; rfl⟩
      · obtain ⟨k, hk⟩ := ih hrest hnil
        have hvalue : decimalValue ('0' :: cs) = decimalValue cs := decimalValue_zeros_append 1 cs
        exact ⟨k + 1, by rw [hvalue, List.replicate_succ, List.cons_append, ← hk]⟩
    · have hpos : 0 < c.toNat - 48 := by
        rcases Nat.lt_or_eq_of_le hlow with hlt | heq
        · omega
        · exact absurd (Char.toNat_inj.mp heq.symm) hzero
      have hdigits := toDigits_append hpos hrest
      rw [Nat.toDigits_of_lt_base (by omega), digitChar_of_isDigit hc] at hdigits
      refine ⟨0, ?_⟩
      rw [decimalValue, List.foldl_cons, Nat.mul_zero, Nat.zero_add, ← hdigits]
      rfl

theorem padded_toDigits (hcs : AllDigits cs) (hne : cs ≠ []) :
    padded cs.length (Nat.toDigits 10 (decimalValue cs)) = cs := by
  obtain ⟨k, hk⟩ := eq_zeros_append_toDigits hcs hne
  have hlength := congrArg List.length hk
  rw [List.length_append, List.length_replicate] at hlength
  rw [padded, hlength, Nat.add_sub_cancel, ← hk]

theorem toDigits_decimalValue (hcs : AllDigits cs) (hne : cs ≠ []) (hhead : cs.head? ≠ some '0') :
    Nat.toDigits 10 (decimalValue cs) = cs := by
  obtain ⟨k, hk⟩ := eq_zeros_append_toDigits hcs hne
  cases k with
  | zero => exact hk.symm
  | succ k =>
    rw [hk] at hhead
    exact absurd rfl hhead

/-- A text without the point and the zero that it may end with. -/
def withoutPointZero (cs : List Char) : List Char :=
  if ['.', '0'] <:+ cs then cs.take (cs.length - 2) else cs

theorem withoutPointZero_append (cs : List Char) : withoutPointZero (cs ++ ['.', '0']) = cs := by
  rw [withoutPointZero, if_pos (List.suffix_append cs _), List.length_append]
  exact List.take_left

end Text

namespace Number

open Text

namespace Decimal

variable {x : Decimal} {whole fraction : List Char}

/-- A numeral in positional digits, with as many after the point as its exponent asks for. -/
def fixed (x : Decimal) : List Char :=
  match x.exponent with
  | .ofNat k => Nat.toDigits 10 x.digits ++ List.replicate k '0'
  | .negSucc k =>
    let digits := padded (k + 2) (Nat.toDigits 10 x.digits)
    digits.take (digits.length - (k + 1)) ++ '.' :: digits.drop (digits.length - (k + 1))

theorem fixed_point (hw : IsWholePart whole) (hf : AllDigits fraction) (hne : fraction ≠ []) :
    (⟨decimalValue (whole ++ fraction), -fraction.length⟩ : Decimal).fixed =
      whole ++ '.' :: fraction := by
  obtain ⟨k, hk⟩ : ∃ k, fraction.length = k + 1 :=
    Nat.exists_eq_succ_of_ne_zero (mt List.length_eq_zero_iff.mp hne)
  have hall : AllDigits (whole ++ fraction) := hw.digits.append hf
  have hnil : whole ++ fraction ≠ [] := List.append_ne_nil_of_left_ne_nil hw.ne_nil _
  have hdigits : padded (k + 2) (Nat.toDigits 10 (decimalValue (whole ++ fraction))) =
      whole ++ fraction := by
    rcases hw.head with rfl | hhead
    · have hlength : (['0'] ++ fraction).length = k + 2 := by
        rw [List.length_append, hk, List.length_singleton]
        omega
      rw [← hlength]
      exact padded_toDigits hall hnil
    · have hpos : 0 < whole.length := List.length_pos_of_ne_nil hw.ne_nil
      rw [toDigits_decimalValue hall hnil (by rwa [List.head?_append_of_ne_nil _ hw.ne_nil]), padded,
        List.length_append, hk, show k + 2 - (whole.length + (k + 1)) = 0 by omega]
      rfl
  have hexponent : -(fraction.length : Int) = .negSucc k := by rw [hk]; rfl
  have hwhole : (whole ++ fraction).length - (k + 1) = whole.length := by
    rw [List.length_append, hk, Nat.add_sub_cancel]
  simp only [hexponent, fixed, hdigits, hwhole]
  rw [List.take_left, List.drop_left]

theorem parts_of_negSucc {digits : List Char} {k : Nat} (hs : x.significant = (digits, .negSucc k)) :
    x.parts.2.length = k + 1 ∧ decimalValue (x.parts.1 ++ x.parts.2) = decimalValue digits := by
  unfold parts
  rw [hs]
  simp only
  split
  · refine ⟨?_, ?_⟩
    · rw [List.length_append, List.length_replicate]
      omega
    · exact (decimalValue_zeros_append 1 _).trans (decimalValue_zeros_append _ digits)
  · rw [List.splitAt_eq]
    refine ⟨?_, by rw [List.take_append_drop]⟩
    rw [List.length_drop]
    omega

theorem fixed_reduced (hx : x.digits ≠ 0) :
    x.reduced.fixed = x.parts.1 ++ fractionText x.parts.2 := by
  obtain ⟨hdigits, hne, hhead, -⟩ := spells_significant hx
  rcases hs : x.significant with ⟨digits, k | k⟩
  · rw [hs] at hdigits hne hhead
    have hparts : x.parts = (digits ++ List.replicate k '0', []) := by rw [parts, hs]
    rw [hparts, fractionText, if_pos rfl, List.append_nil, reduced, hs]
    simp only [fixed]
    rw [toDigits_decimalValue hdigits hne hhead]
  · have hparts := isPositional_parts hx
    obtain ⟨hlength, hvalue⟩ := parts_of_negSucc hs
    have hfraction : x.parts.2 ≠ [] := List.ne_nil_of_length_eq_add_one hlength
    have hreduced : x.reduced =
        ⟨decimalValue (x.parts.1 ++ x.parts.2), -x.parts.2.length⟩ := by
      rw [reduced, hs, hvalue, hlength]
      rfl
    rw [hreduced, fixed_point hparts.whole hparts.fraction hfraction, fractionText, if_neg hfraction]

theorem withoutPointZero_parts (hx : x.digits ≠ 0) :
    withoutPointZero (x.parts.1 ++ fractionText x.parts.2) = x.parts.1 ++ fractionText x.parts.2 := by
  have hfraction := isFraction_parts hx
  have hwhole := (isPositional_parts hx).whole
  apply if_neg
  rintro ⟨front, hfront⟩
  by_cases hnil : x.parts.2 = []
  · rw [fractionText, if_pos hnil, List.append_nil] at hfront
    have hpoint : '.' ∈ x.parts.1 := by rw [← hfront]; simp
    exact absurd (hwhole.digits '.' hpoint) (by decide)
  · have hlast := congrArg List.getLast? hfront
    rw [fractionText, if_neg hnil, List.getLast?_append_of_ne_nil _ (List.cons_ne_nil _ _),
      List.getLast?_append_of_ne_nil _ (List.cons_ne_nil _ _), List.getLast?_cons_of_ne_nil hnil]
      at hlast
    exact hfraction.last hlast.symm

end Decimal

namespace Binary

variable {s : Nat} {e : Int}

/-- The positional text of a number is had from the text that it is shown with: read as a numeral,
written in positional digits, and rid of the zero after the point. -/
theorem positional_eq_fixed_shown (negative : Bool) (h : Format.double.Canonical s e) (hs : s ≠ 0) :
    let x : Double := .finite negative s e h
    ∃ body d, x.shown.toList = signText negative ++ body ∧ unsigned? body = some d ∧
      x.positional.toList = signText negative ++ withoutPointZero d.fixed := by
  intro x
  have hx := digits_shortest_ne_zero h hs
  have hparts := Decimal.isPositional_parts hx
  have hstays := Decimal.withoutPointZero_parts hx
  have hpositional : x.positional.toList = signText negative ++ _ := toList_positional h hs
  simp only [x, shown, if_neg hs]
  split
  · refine ⟨_, _, ?_, unsigned?_scientific hx, ?_⟩
    · rw [String.toList_append, toList_sign, String.toList_ofList]
    · rw [hpositional, Decimal.fixed_reduced hx, hstays]
  · split
    · next whole hp =>
      rw [hp] at hparts hpositional
      have hzero : AllDigits ['0'] := allDigits_replicate 1
      refine ⟨whole ++ fractionText ['0'], _, ?_, unsigned?_point hparts.whole hzero, ?_⟩
      · simp only [String.toList_append, toList_sign, String.toList_ofList, List.append_assoc]
        rfl
      · rw [hpositional, Decimal.fixed_point hparts.whole hzero (List.cons_ne_nil _ _),
          withoutPointZero_append, fractionText, if_pos rfl, List.append_nil]
    · next whole fraction hne hp =>
      rw [hp] at hparts hpositional hstays
      have hfraction : fraction ≠ [] := fun hnil => hne (hnil ▸ rfl)
      refine ⟨whole ++ fractionText fraction, _, ?_, unsigned?_point hparts.whole hparts.fraction, ?_⟩
      · rw [fractionText, if_neg hfraction]
        simp only [String.toList_append, toList_sign, String.toList_ofList, List.append_assoc]
        rfl
      · rw [hpositional, Decimal.fixed_point hparts.whole hparts.fraction hfraction]
        rw [fractionText, if_neg hfraction] at hstays ⊢
        rw [hstays]

end Binary

end Number

end SceneEditor
