import SceneEditor.Color
import SceneEditor.Value

/-!
Properties: the typed attributes that nodes carry. A property always holds a payload of its own
kind; the loose values it is read from are the business of `SceneEditor.Property.Decode`.
-/

namespace SceneEditor

open SceneEditor.Number

inductive Property where
  | string (s : String)
  | number (x : Double)
  | boolean (b : Bool)
  | color (c : Color)
  deriving DecidableEq

namespace Property

def kind : Property → PropertyKind
  | string _ => .string
  | number _ => .number
  | boolean _ => .boolean
  | color _ => .color

def payload : Property → Value
  | string s => .text s
  | number x => .number x
  | boolean b => .flag b
  | color c => .whole c.toNat

def toValue (p : Property) : Value := .property (some p.kind) p.payload

def toDocument (p : Property) : Value := .object [(.text p.kind.name, p.payload)]

/-- Equality of properties as their users see it: of one kind and with equal payloads, where the
zeros are equal and a NaN equals nothing. -/
def same : Property → Property → Bool
  | string s, string t => s == t
  | number x, number y => x.same y
  | boolean a, boolean b => a == b
  | color c, color d => c == d
  | _, _ => false

def payload? (p : Property) (k : PropertyKind) : Option Value :=
  if p.kind = k then some p.payload else none

end Property

end SceneEditor
