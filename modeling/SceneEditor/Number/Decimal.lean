import SceneEditor.Number.Binary

namespace SceneEditor.Number

/-- The numeral `digits · 10 ^ exponent`. -/
structure Decimal where
  digits : Nat
  exponent : Int
  deriving DecidableEq

namespace Decimal

def inUnits (n d : Nat) : Int → Nat × Nat
  | .ofNat k => (n, d * Nat.pow 10 k)
  | .negSucc k => (n * Nat.pow 10 (k + 1), d)

def width (n : Nat) : Nat := (Nat.toDigits 10 n).length

/-- The `k` with `10 ^ (k - 1) ≤ n / d < 10 ^ k`, for positive `n` and `d`. -/
def magnitude (n d : Nat) : Int :=
  if d ≤ n then width (n / d) else 1 - (width ((d - 1) / n) : Int)

def significant (x : Decimal) : List Char × Int :=
  let all := Nat.toDigits 10 x.digits
  let kept := (all.reverse.dropWhile (· == '0')).reverse
  (kept, x.exponent + (all.length - kept.length : Nat))

/-- The digits before and after the point. The part before the point has no superfluous zero in
front, the part after it none at the end. -/
def parts (x : Decimal) : List Char × List Char :=
  match x.significant with
  | (digits, .ofNat k) => (digits ++ List.replicate k '0', [])
  | (digits, .negSucc k) =>
    if digits.length ≤ k + 1 then
      (['0'], List.replicate (k + 1 - digits.length) '0' ++ digits)
    else digits.splitAt (digits.length - (k + 1))

def leading (x : Decimal) : Int :=
  let (digits, exponent) := x.significant
  exponent + digits.length - 1

/-- One digit before the point, and an exponent of at least two digits with its sign. -/
def scientific (x : Decimal) : List Char :=
  let sign := if x.leading < 0 then '-' else '+'
  let power := Nat.toDigits 10 x.leading.natAbs
  let padded := List.replicate (2 - power.length) '0' ++ power
  let (digits, _) := x.significant
  match digits with
  | [] => 'e' :: sign :: padded
  | [d] => d :: 'e' :: sign :: padded
  | d :: rest => d :: '.' :: rest ++ 'e' :: sign :: padded

end Decimal

namespace Binary

variable {f : Format}

/-- The number nearest to a signed numeral. Numerals far outside the format need no arithmetic:
`10 ^ k` is at least `2 ^ (3 k)`. -/
def ofDecimal (negative : Bool) (x : Decimal) : Binary f :=
  if x.digits = 0 then zero negative
  else if f.greatest + f.precision ≤ 3 * x.exponent then infinity negative
  else if x.digits.log2 + 1 + 3 * x.exponent < f.least then zero negative
  else
    let (n, d) := Decimal.inUnits x.digits 1 (-x.exponent)
    ofQuotient negative n d

/-- Among the numerals with `count` digits the two around the magnitude of a number, as far as they
read back; of both the nearer, and at equal distance the even one. -/
def numeral? (significand : Nat) (exponent : Int) (h : f.Canonical significand exponent)
    (count : Nat) : Option Decimal :=
  let (n, d) := quotient significand exponent
  let unit := Decimal.magnitude n d - count
  let (a, b) := Decimal.inUnits n d unit
  let below : Decimal := ⟨a / b, unit⟩
  let above : Decimal := ⟨a / b + 1, unit⟩
  let readsBack (x : Decimal) : Bool := ofDecimal false x = finite false significand exponent h
  match readsBack below, readsBack above with
  | true, true => some ⟨roundDiv a b, unit⟩
  | true, false => some below
  | false, true => some above
  | false, false => none

def expansion (significand : Nat) (exponent : Int) : Decimal :=
  match exponent with
  | .ofNat k => ⟨significand * Nat.pow 2 k, 0⟩
  | .negSucc k => ⟨significand * Nat.pow 5 (k + 1), .negSucc k⟩

/-- The shortest numeral that reads back as a number, and of the shortest the nearest. -/
def shortest (significand : Nat) (exponent : Int) (h : f.Canonical significand exponent) :
    Decimal :=
  ((List.range f.precision).findSome? (fun k => numeral? significand exponent h (k + 1))).getD
    (expansion significand exponent)

/-- A number in positional digits, without a point when it is whole. -/
def positional : Binary f → String
  | nan => "NaN"
  | infinity negative => if negative then "-inf" else "inf"
  | finite negative significand exponent h =>
    let sign := if negative then "-" else ""
    if significand = 0 then sign ++ "0"
    else match (shortest significand exponent h).parts with
      | (whole, []) => sign ++ String.ofList whole
      | (whole, fraction) => sign ++ String.ofList whole ++ "." ++ String.ofList fraction

/-- A number as it is written inside a value: always with a point or an exponent, positional from
`10 ^ -4` up to `10 ^ 16`. -/
def shown : Binary f → String
  | nan => "nan"
  | infinity negative => if negative then "-inf" else "inf"
  | finite negative significand exponent h =>
    let sign := if negative then "-" else ""
    if significand = 0 then sign ++ "0.0"
    else
      let x := shortest significand exponent h
      if x.leading < -4 ∨ 16 ≤ x.leading then sign ++ String.ofList x.scientific
      else match x.parts with
        | (whole, []) => sign ++ String.ofList whole ++ ".0"
        | (whole, fraction) => sign ++ String.ofList whole ++ "." ++ String.ofList fraction

end Binary

end SceneEditor.Number
