import SceneEditor.Property.Decode

namespace SceneEditor.Value

/-- Truth values count as zero and one. -/
def integer? : Value → Option Int
  | whole i => some i
  | flag b => some (if b then 1 else 0)
  | _ => none

def isPackedColor : Value → Bool
  | whole i => (Color.ofInt? i).isSome
  | _ => false

def toHexLiteral (v : Value) : Except Cause String :=
  match v.integer? with
  | some i => .ok (hexLiteral i)
  | none => .error (.notHexadecimal v)

def toCssColor (v : Value) : Except Cause String :=
  match v.integer? with
  | some i => .ok (cssColor i)
  | none => .error (.notMaskable v)

def toColor (v : Value) : Except Cause Color := do
  match Color.ofInt? (← v.toWhole) with
  | some c => return c
  | none => .error .channelRange

def packColor (c : Channels Value) : Except Cause Color := do
  return Color.pack ⟨← c.red.toNumber, ← c.green.toNumber, ← c.blue.toNumber, ← c.alpha.toNumber⟩

end SceneEditor.Value
