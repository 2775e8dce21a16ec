import SceneEditor.Program.Emitter
import SceneEditor.Scene.Snapshot

namespace SceneEditor

/-- How a program is laid out. Statements start at the base depth; a negative depth indents as
little as depth zero. -/
structure Layout where
  blockOpen : String := "turbo::go! \x7b"
  blockClose : String := "\x7d"
  indent : String := "    "
  baseDepth : Int := 1

namespace Layout

def line (l : Layout) (depth : Int) (statement : String) : String :=
  String.join (List.replicate depth.toNat l.indent) ++ statement

end Layout

namespace Program

def statementsFrom (r : Registry) (l : Layout) (a : Arena) (seen : List String) :
    List (String × Int) → List String
  | [] => []
  | (id, depth) :: stack =>
    if _ : id ∈ seen then statementsFrom r l a seen stack
    else match _ : a.find? id with
      | none => statementsFrom r l a seen stack
      | some n =>
        let emitter := r.emitterFor n.type
        let below := if emitter.nests then depth + 1 else depth
        ((emitter.emit n).map (l.line depth)).toList ++
          statementsFrom r l a (id :: seen) (n.children.map (·, below) ++ stack)
termination_by stack => a.pending seen + stack.length
decreasing_by
  · simp
  · simp
  · have := Arena.pending_cons_lt ‹a.find? id = some n› ‹id ∉ seen›
    simp
    omega

def statements (r : Registry) (l : Layout) (s : Snapshot) : List String :=
  statementsFrom r l s.nodes [] [(s.root, l.baseDepth)]

def generate (r : Registry) (l : Layout) (s : Snapshot) : String :=
  "\n".intercalate (l.blockOpen :: statements r l s ++ [l.blockClose]) ++ "\n"

end Program

end SceneEditor
