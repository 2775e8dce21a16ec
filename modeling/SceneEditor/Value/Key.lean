import SceneEditor.Value

namespace SceneEditor.Value

open SceneEditor.Number

def unusableKey? : Value → Option Value
  | list items => some (list items)
  | object entries => some (object entries)
  | property _ payload => payload.unusableKey?
  | _ => none

/-- A number, be it a whole number, a double or a truth value, reduced to a whole number where it
is one. -/
def numeric? : Value → Option (Int ⊕ Double)
  | flag b => some (.inl (if b then 1 else 0))
  | whole i => some (.inl i)
  | number x => some (match x.whole? with
    | some i => .inl i
    | none => .inr x)
  | _ => none

/-- Whether two values are the same key. There is one NaN, which is the same key as itself. -/
def sameKey : Value → Value → Bool
  | null, null => true
  | text a, text b => a == b
  | property j a, property k b => j == k && sameKey a b
  | kind j, kind k => j == k
  | propertyType j, propertyType k => j == k
  | builtin s, builtin t => s == t
  | nodeType s, nodeType t => s == t
  | scene i _, scene j _ => i == j
  | a, b => match a.numeric?, b.numeric? with
    | some (.inl i), some (.inl j) => i == j
    | some (.inr x), some (.inr y) => x = y
    | _, _ => false

instance : BEq Value := ⟨sameKey⟩

theorem sameKey_text (s t : String) : (text s == text t) = (s == t) := rfl

end SceneEditor.Value
