import SceneEditor.Program.Emitter

namespace SceneEditor

open SceneEditor.Number

namespace NodeType

def drawnBox : List (String × Property) := [
  ("x", .number (Binary.ofInt 0)), ("y", .number (Binary.ofInt 0)),
  ("width", .number (Binary.ofInt 100)), ("height", .number (Binary.ofInt 100))]

def drawn : NodeType → List (String × Property)
  | sprite => drawnBox ++ [("path", .string "default")]
  | rectangle => drawnBox ++
      [("color", .color .opaqueWhite), ("border_radius", .number (Binary.ofInt 0))]
  | _ => []

end NodeType

namespace Node

variable (n : Node) (key : String) (default : Property)

def effective : Property :=
  match n.properties.find? (.text key) with
  | some p => if p.kind = default.kind then p else default
  | none => default

theorem effective_eq_default_iff : n.effective key default = default ↔
    ∀ p, n.properties.find? (.text key) = some p → p.kind = default.kind → p = default := by
  unfold effective
  split
  · next p hp =>
    rw [hp]
    by_cases hk : p.kind = default.kind
    · simp [hk]
    · simp [hk]
  · next hnone => simp [hnone]

theorem kind_effective : (n.effective key default).kind = default.kind := by
  unfold effective
  split
  · split
    · assumption
    · rfl
  · rfl

theorem getD_payload? :
    (n.payload? (.text key) default.kind).getD default.payload =
      (n.effective key default).payload := by
  unfold payload? effective
  cases n.properties.find? (.text key) with
  | none => rfl
  | some p => by_cases hk : p.kind = default.kind <;> simp [Property.payload?, hk]

end Node

namespace Emitter

variable (n : Node) (key : String)

theorem effective_number (x : Double) :
    n.effective key (.number x) = .number (number n key x) := by
  unfold Node.effective number read
  cases n.properties.find? (.text key) with
  | none => rfl
  | some p => cases p <;> rfl

theorem effective_text (s : String) :
    n.effective key (.string s) = .string (text n key s) := by
  unfold Node.effective text read
  cases n.properties.find? (.text key) with
  | none => rfl
  | some p => cases p <;> rfl

theorem effective_color (c : Color) :
    ∃ d, n.effective key (.color c) = .color d ∧ color n key c = d.toNat := by
  unfold Node.effective color read
  cases n.properties.find? (.text key) with
  | none => exact ⟨c, rfl, rfl⟩
  | some p =>
    cases p with
    | color d => exact ⟨d, rfl, rfl⟩
    | _ => exact ⟨c, rfl, rfl⟩

end Emitter

end SceneEditor
