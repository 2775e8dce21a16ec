/-!
Binary floating-point numbers of a given format, and the rounding of an exact quotient to the
nearest of them. Everything is exact arithmetic on `Nat` and `Int`; a half goes to the even
neighbour.
-/

namespace SceneEditor.Number

/-- A binary format: significands of `precision` bits, times a power of two whose exponent lies
between `least` and `greatest`. -/
structure Format where
  precision : Nat
  least : Int
  greatest : Int
  least_le_greatest : least ≤ greatest := by decide

namespace Format

def double : Format where
  precision := 53
  least := -1074
  greatest := 971

def single : Format where
  precision := 24
  least := -149
  greatest := 104

/-- Each value of a format has one canonical form: the significand fills the precision unless the
exponent is the least one. -/
def Canonical (f : Format) (significand : Nat) (exponent : Int) : Prop :=
  significand < Nat.pow 2 f.precision ∧ f.least ≤ exponent ∧ exponent ≤ f.greatest ∧
    (exponent = f.least ∨ Nat.pow 2 f.precision ≤ 2 * significand)

instance (f : Format) (significand : Nat) (exponent : Int) :
    Decidable (f.Canonical significand exponent) := by
  unfold Canonical; infer_instance

theorem canonical_zero (f : Format) : f.Canonical 0 f.least :=
  ⟨Nat.two_pow_pos _, Int.le_refl _, f.least_le_greatest, .inl rfl⟩

end Format

/-- A number of a binary format. Equality tells the two zeros apart and identifies all NaNs. -/
inductive Binary (f : Format) where
  | nan
  | infinity (negative : Bool)
  | finite (negative : Bool) (significand : Nat) (exponent : Int)
      (canonical : f.Canonical significand exponent)
  deriving DecidableEq

abbrev Double := Binary .double

abbrev Single := Binary .single

/-- The whole number nearest to `n / d`; a half goes to the even neighbour. -/
def roundDiv (n d : Nat) : Nat :=
  let q := n / d
  let twice := 2 * (n % d)
  if twice < d ∨ (twice = d ∧ q % 2 = 0) then q else q + 1

def inUnits (n d : Nat) : Int → Nat × Nat
  | .ofNat k => (n, d * Nat.pow 2 k)
  | .negSucc k => (n * Nat.pow 2 (k + 1), d)

/-- The `k` with `2 ^ k ≤ n / d < 2 ^ (k + 1)`, for positive `n` and `d`. -/
def floorLog2 (n d : Nat) : Int :=
  let k : Int := (n.log2 : Int) - (d.log2 : Int)
  let (a, b) := inUnits n d k
  if b ≤ a then k else k - 1

namespace Binary

variable {f : Format}

def zero (negative : Bool) : Binary f :=
  .finite negative 0 f.least f.canonical_zero

def ofParts (negative : Bool) (significand : Nat) (exponent : Int) : Binary f :=
  if h : f.Canonical significand exponent then .finite negative significand exponent h
  else .infinity negative

/-- The number nearest to `± n / d`. A tie goes to the even significand, and what lies half a unit
or more beyond the largest number is an infinity. -/
def ofQuotient (negative : Bool) (n d : Nat) : Binary f :=
  if n = 0 then zero negative else
    let exponent := max f.least (floorLog2 n d - f.precision + 1)
    let (a, b) := inUnits n d exponent
    let significand := roundDiv a b
    if significand = Nat.pow 2 f.precision then
      ofParts negative (Nat.pow 2 (f.precision - 1)) (exponent + 1)
    else ofParts negative significand exponent

def ofInt (i : Int) : Binary f :=
  ofQuotient (i < 0) i.natAbs 1

def isNaN : Binary f → Bool
  | .nan => true
  | _ => false

def isZero : Binary f → Bool
  | .finite _ significand _ _ => significand = 0
  | _ => false

def quotient (significand : Nat) (exponent : Int) : Nat × Nat :=
  inUnits significand 1 (-exponent)

def truncate? : Binary f → Option Int
  | .finite negative significand exponent _ =>
    let (n, d) := quotient significand exponent
    let whole : Int := (n / d : Nat)
    some (if negative then -whole else whole)
  | _ => none

def whole? : Binary f → Option Int
  | .finite negative significand exponent h =>
    let (n, d) := quotient significand exponent
    if n % d = 0 then truncate? (.finite negative significand exponent h) else none
  | _ => none

/-- Equality of numbers as numbers: the zeros are equal, and a NaN equals nothing. -/
def same (a b : Binary f) : Bool :=
  !a.isNaN && (a = b || (a.isZero && b.isZero))

/-- The interchange encoding: sign, biased exponent, significand without its leading bit. -/
def bits : Binary f → Nat
  | .nan => encode false (exponentLimit f) (Nat.pow 2 (f.precision - 2))
  | .infinity negative => encode negative (exponentLimit f) 0
  | .finite negative significand exponent _ =>
    if significand < Nat.pow 2 (f.precision - 1) then encode negative 0 significand
    else encode negative (exponent - f.least + 1).toNat (significand - Nat.pow 2 (f.precision - 1))
where
  exponentLimit (f : Format) : Nat := (f.greatest - f.least + 2).toNat
  encode (negative : Bool) (biased significand : Nat) : Nat :=
    ((if negative then exponentLimit f + 1 else 0) + biased) * Nat.pow 2 (f.precision - 1) +
      significand

end Binary

end SceneEditor.Number
