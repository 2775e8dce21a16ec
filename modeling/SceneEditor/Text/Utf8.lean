/-!
Strict decoding of UTF-8. A sequence that encodes no character is refused where it starts, with the
bytes that could still have begun a character.
-/

namespace SceneEditor.Text.Utf8

inductive Defect where
  | badStart
  | badContinuation
  | truncated
  deriving DecidableEq

def Defect.message : Defect → String
  | badStart => "invalid start byte"
  | badContinuation => "invalid continuation byte"
  | truncated => "unexpected end of data"

/-- What stopped the decoding: the first byte refused, its position, and how many bytes are refused
together. -/
structure Fault where
  defect : Defect
  byte : Nat
  position : Nat
  count : Nat
  deriving DecidableEq

def isTail (b : Nat) : Bool := 0x80 ≤ b && b < 0xc0

/-- Whether `b` may follow the first byte `a` of a character of three or four bytes: overlong forms,
surrogates and code points past the last one are excluded here. -/
def isSecond (a b : Nat) : Bool :=
  if a = 0xe0 then 0xa0 ≤ b && b < 0xc0
  else if a = 0xed then 0x80 ≤ b && b < 0xa0
  else if a = 0xf0 then 0x90 ≤ b && b < 0xc0
  else if a = 0xf4 then 0x80 ≤ b && b < 0x90
  else isTail b

def decodeFrom (position : Nat) : List Nat → Except Fault (List Char)
  | [] => .ok []
  | a :: rest =>
    if a < 0x80 then
      (decodeFrom (position + 1) rest).map (Char.ofNat a :: ·)
    else if a < 0xc2 ∨ 0xf4 < a then .error ⟨.badStart, a, position, 1⟩
    else match rest with
      | [] => .error ⟨.truncated, a, position, 1⟩
      | b :: rest =>
        if a < 0xe0 then
          if isTail b then
            (decodeFrom (position + 2) rest).map (Char.ofNat (a % 0x20 * 0x40 + b % 0x40) :: ·)
          else .error ⟨.badContinuation, a, position, 1⟩
        else if !isSecond a b then .error ⟨.badContinuation, a, position, 1⟩
        else match rest with
          | [] => .error ⟨.truncated, a, position, 2⟩
          | c :: rest =>
            if !isTail c then .error ⟨.badContinuation, a, position, 2⟩
            else if a < 0xf0 then
              (decodeFrom (position + 3) rest).map
                (Char.ofNat ((a % 0x10 * 0x40 + b % 0x40) * 0x40 + c % 0x40) :: ·)
            else match rest with
              | [] => .error ⟨.truncated, a, position, 3⟩
              | d :: rest =>
                if isTail d then
                  (decodeFrom (position + 4) rest).map
                    (Char.ofNat (((a % 8 * 0x40 + b % 0x40) * 0x40 + c % 0x40) * 0x40 + d % 0x40)
                      :: ·)
                else .error ⟨.badContinuation, a, position, 3⟩

def decode (bytes : List Nat) : Except Fault String :=
  (decodeFrom 0 bytes).map String.ofList

end SceneEditor.Text.Utf8
