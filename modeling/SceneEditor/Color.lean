import SceneEditor.Number.Decimal
import SceneEditor.Text.Hex

/-!
Packed colours: alpha, red, green and blue in the four bytes of a word, from the highest to the
lowest. Besides the packing there are the hexadecimal spellings, and the channels as numbers from
zero to one.
-/

namespace SceneEditor

open SceneEditor.Number

structure Color where
  packed : UInt32
  deriving DecidableEq

structure Channels (α : Type) where
  red : α
  green : α
  blue : α
  alpha : α
  deriving DecidableEq

namespace Channels

def map {α β : Type} (f : α → β) (c : Channels α) : Channels β :=
  ⟨f c.red, f c.green, f c.blue, f c.alpha⟩

end Channels

/-- Below one a channel is rounded to the nearest of the 255 steps, a half to the even one; outside
of zero and one it is clamped. -/
def channelByte : Double → Nat
  | .nan => 0
  | .infinity negative => if negative then 0 else 255
  | .finite negative significand exponent _ =>
    let (n, d) := Binary.quotient significand exponent
    if negative then 0
    else if d ≤ n then 255
    else match (Binary.ofQuotient false (255 * n) d : Double) with
      | .finite _ significand exponent _ =>
        let (n, d) := Binary.quotient significand exponent
        roundDiv n d
      | _ => 255

def byteFraction (b : Nat) : Single := Binary.ofQuotient false b 255

namespace Color

def opaqueWhite : Color := ⟨0xffffffff⟩

def toNat (c : Color) : Nat := c.packed.toNat

def ofInt? (i : Int) : Option Color :=
  if 0 ≤ i ∧ i ≤ 0xffffffff then some ⟨UInt32.ofNat i.toNat⟩ else none

/-- A sharp sign and six digits for an opaque colour, or eight with alpha in front. -/
def ofHex? (s : String) : Option Color :=
  match s.toList with
  | '#' :: digits =>
    if digits.length = 6 then (Text.hexValue? digits).map fun n => ⟨UInt32.ofNat (n + 0xff000000)⟩
    else if digits.length = 8 then (Text.hexValue? digits).map fun n => ⟨UInt32.ofNat n⟩
    else none
  | _ => none

def bytes (c : Color) : Channels Nat where
  red := c.toNat / 0x10000 % 0x100
  green := c.toNat / 0x100 % 0x100
  blue := c.toNat % 0x100
  alpha := c.toNat / 0x1000000

def ofBytes (b : Channels Nat) : Color :=
  ⟨UInt32.ofNat (b.alpha * 0x1000000 + b.red * 0x10000 + b.green * 0x100 + b.blue)⟩

def unpack (c : Color) : Channels Single := c.bytes.map byteFraction

def pack (c : Channels Double) : Color := ofBytes (c.map channelByte)

end Color

/-- A whole number in capital hexadecimal digits, eight characters at least with its sign. -/
def hexLiteral (i : Int) : String :=
  let digits := (Nat.toDigits 16 i.natAbs).map Char.toUpper
  String.ofList ('0' :: 'x' ::
    if i < 0 then '-' :: Text.padded 7 digits else Text.padded 8 digits)

def cssColor (i : Int) : String :=
  String.ofList ('#' :: Text.hexDigits 6 (i % 0x1000000).toNat)

end SceneEditor
