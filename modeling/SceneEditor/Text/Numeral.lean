import SceneEditor.Number.Decimal
import SceneEditor.Text.Classes

namespace SceneEditor.Text

open SceneEditor.Number

/-- A character of a numeral with blanks and digits of all scripts made ASCII. -/
def plain (c : Char) : Char :=
  if isBlank c then ' ' else
    match decimalDigit? c with
    | some d => Char.ofNat (48 + d)
    | none => c

def trimmed (cs : List Char) : List Char :=
  ((cs.dropWhile (· == ' ')).reverse.dropWhile (· == ' ')).reverse

/-- A numeral without its low lines, each of which stands between two digits. -/
def withoutSeparators : List Char → Option (List Char)
  | [] => some []
  | c :: '_' :: d :: rest =>
    if c.isDigit && d.isDigit then (withoutSeparators (d :: rest)).map (c :: ·) else none
  | c :: rest => if c = '_' || rest = ['_'] then none else (withoutSeparators rest).map (c :: ·)

def signed : List Char → Bool × List Char
  | '-' :: cs => (true, cs)
  | '+' :: cs => (false, cs)
  | cs => (false, cs)

def decimalValue (cs : List Char) : Nat :=
  cs.foldl (fun n c => 10 * n + (c.toNat - 48)) 0

def exponentPart? : List Char → Option Int
  | [] => some 0
  | c :: cs =>
    if c = 'e' ∨ c = 'E' then
      let (negative, digits) := signed cs
      if digits.isEmpty || !digits.all Char.isDigit then none
      else some (if negative then -(decimalValue digits : Int) else decimalValue digits)
    else none

def unsigned? (cs : List Char) : Option Decimal := do
  let (whole, rest) := cs.span Char.isDigit
  let (fraction, rest) := match rest with
    | '.' :: rest => rest.span Char.isDigit
    | rest => ([], rest)
  if whole.isEmpty && fraction.isEmpty then none
  else
    let exponent ← exponentPart? rest
    some ⟨decimalValue (whole ++ fraction), exponent - fraction.length⟩

/-- The number nearest to what a text denotes. The words for the infinities and for not-a-number
may be in any case. -/
def readNumber? (s : String) : Option Double := do
  let cs ← withoutSeparators (trimmed (s.toList.map plain))
  let (negative, body) := signed cs
  let word := body.map Char.toLower
  if word = "inf".toList ∨ word = "infinity".toList then some (.infinity negative)
  else if word = "nan".toList then some .nan
  else (unsigned? body).map (Binary.ofDecimal negative)

def wholeDigits? (s : String) : Option (Bool × List Char) := do
  let cs ← withoutSeparators (trimmed (s.toList.map plain))
  let (negative, digits) := signed cs
  if digits.isEmpty || !digits.all Char.isDigit then none else some (negative, digits)

def maxDigits : Nat := 4300

end SceneEditor.Text
