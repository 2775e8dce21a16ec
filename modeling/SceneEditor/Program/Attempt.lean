import SceneEditor.Notice
import SceneEditor.Program
import SceneEditor.Value.Color

namespace SceneEditor

open SceneEditor.Number

namespace Emitter

variable (n : Node) (key : String)

def tryNumber (default : Double) : Except Cause String := do
  return (← (read n (.text key) .number (.number default)).toNumber).positional

def tryColor (default : Color) : Except Cause String :=
  (read n (.text key) .color (.whole default.toNat)).toHexLiteral

def tryBox : Except Cause String := do
  return "x = " ++ (← tryNumber n "x" (Binary.ofInt 0)) ++
    ", y = " ++ (← tryNumber n "y" (Binary.ofInt 0)) ++
    ", w = " ++ (← tryNumber n "width" (Binary.ofInt 100)) ++
    ", h = " ++ (← tryNumber n "height" (Binary.ofInt 100))

def trySprite : Except Cause String := do
  return "sprite!(\"" ++ (read n (.text "path") .string (.text "default")).asText ++ "\", " ++
    (← tryBox n) ++ ");"

def tryRectangle : Except Cause String := do
  return "rect!(" ++ (← tryBox n) ++ ", color = " ++ (← tryColor n "color" .opaqueWhite) ++
    ", border_radius = " ++ (← tryNumber n "border_radius" (Binary.ofInt 0)) ++ ");"

def tryBuiltin : Except Cause (Option String) :=
  match n.type with
  | .container => .ok none
  | .sprite => do return some (← trySprite n)
  | .rectangle => do return some (← tryRectangle n)
  | _ => .ok (unimplemented.emit n)

end Emitter

namespace Program

def tryStatementsFrom (emit : Node → Except Cause (Option String)) (r : Registry) (l : Layout)
    (a : Arena) (seen : List String) : List (String × Int) → Except Cause (List String)
  | [] => .ok []
  | (id, depth) :: stack =>
    if _ : id ∈ seen then tryStatementsFrom emit r l a seen stack
    else match _ : a.find? id with
      | none => tryStatementsFrom emit r l a seen stack
      | some n => do
        let below := if (r.emitterFor n.type).nests then depth + 1 else depth
        let statement ← emit n
        let rest ← tryStatementsFrom emit r l a (id :: seen) (n.children.map (·, below) ++ stack)
        return (statement.map (l.line depth)).toList ++ rest
termination_by stack => a.pending seen + stack.length
decreasing_by
  · simp
  · simp
  · have := Arena.pending_cons_lt ‹a.find? id = some n› ‹id ∉ seen›
    simp
    omega

/-- The program of a snapshot under the built-in emitters, unless a statement fails or the notice of
it cannot be written. -/
def tryGenerate (l : Layout) (s : Snapshot) : Except Cause String := do
  let statements ← tryStatementsFrom Emitter.tryBuiltin .builtin l s.nodes []
    [(s.root, l.baseDepth)]
  if let some o := (Notice.generated statements.length s.name s.revision).obstacle? then
    throw (.unwritten o)
  return "\n".intercalate (l.blockOpen :: statements ++ [l.blockClose]) ++ "\n"

end Program

end SceneEditor
