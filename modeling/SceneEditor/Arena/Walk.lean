import SceneEditor.Arena

/-!
The walk: the identifiers below a node, each once, a node before its descendants and children from
the first to the last. It is defined on every arena, well formed or not: unknown identifiers are
passed over, and so is everything seen before.
-/

namespace SceneEditor.Arena

def walkFrom (a : Arena) (seen : List String) : List String → List String
  | [] => []
  | id :: stack =>
    if _ : id ∈ seen then walkFrom a seen stack
    else match _ : a.find? id with
      | none => walkFrom a seen stack
      | some n => id :: walkFrom a (id :: seen) (n.children ++ stack)
termination_by stack => a.pending seen + stack.length
decreasing_by
  · simp
  · simp
  · have := pending_cons_lt ‹a.find? id = some n› ‹id ∉ seen›
    simp
    omega

def walk (a : Arena) (start : String) : List String := walkFrom a [] [start]

end SceneEditor.Arena
