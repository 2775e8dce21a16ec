import SceneEditor.Arena.Audit
import SceneEditor.Node.Document
import SceneEditor.Scene

namespace SceneEditor.Scene

def toDocument (s : Scene) : Value :=
  .object [
    (.text "name", s.name),
    (.text "root_id", .text s.root),
    (.text "nodes", .list ((s.arena.walk s.root).filterMap fun id =>
      (s.arena.find? id).map Node.toDocument))]

def fieldsOf (v : Value) : Except Cause (String × String × List Node) := do
  let name ← (← v.field "name").toText
  let root ← (← v.field "root_id").toText
  let nodes ← (← (← v.field "nodes").items).mapM Node.ofDocument
  return (name, root, nodes)

/-- Only properties of no kind, and what is nested too deep, escape the common wording of what is
wrong with a document. -/
def wrapped (e : Cause) : Cause :=
  match e.formed with
  | .kindless => .kindless
  | .unwritten .nesting => .unwritten .nesting
  | e => .malformedScene e

def enterNodes (a : Arena) : List Node → Except Cause Arena
  | [] => .ok a
  | n :: ns =>
    if a.contains n.id then .error (.duplicateNode n.id) else enterNodes (a.insert n.id n) ns

/-- Reads a scene. The supply is asked for one identifier, for the root that the document
replaces, once the fields have been read. -/
def ofDocument (v rootName : Value) (bound : Bool) (ids : IdSupply) :
    Except Cause Scene × IdSupply :=
  match (fieldsOf v).mapError wrapped with
  | .error e => (.error e, ids)
  | .ok (name, root, nodes) =>
    match enterNodes .empty nodes with
    | .error e => (.error e, ids)
    | .ok arena =>
      match create (.text name) rootName bound ids with
      | (.error e, ids) => (.error e, ids)
      | (.ok s, ids) =>
        match arena.audit root with
        | [] => (.ok { s with arena := arena, root := root }, ids)
        | violations => (.error (.brokenTree violations), ids)

end SceneEditor.Scene
