import SceneEditor.Node
import SceneEditor.Property.Decode

namespace SceneEditor

def Value.ofId? : Option String → Value
  | none => .null
  | some id => .text id

def Value.ofIds (ids : List String) : Value := .list (ids.map .text)

def NodeType.parse? : Value → Option NodeType
  | .nodeType t => some t
  | .text s => NodeType.ofName? s
  | _ => none

def Properties.toDocument (ps : Properties) : Value :=
  .object (ps.entries.map fun e => (e.1, e.2.toDocument))

namespace Node

def toDocument (n : Node) : Value :=
  .object [
    (.text "id", .text n.id),
    (.text "name", n.name),
    (.text "node_type", .text n.type.name),
    (.text "parent_id", Value.ofId? n.parent),
    (.text "children", Value.ofIds n.children),
    (.text "properties", n.properties.toDocument)]

def typeOf (v : Value) : Except Cause NodeType := do
  let name ← v.field "node_type"
  match NodeType.parse? name with
  | some t => .ok t
  | none => .error (.unknownNodeType name)

def idsOf? : Value → Option (List String)
  | .list vs => vs.mapM fun v => match v with
    | .text s => some s
    | _ => none
  | _ => none

def childrenOf (v : Value) : Except Cause (List String) :=
  match idsOf? ((v.field? "children").getD (.list [])) with
  | some ids => .ok ids
  | none => .error .badChildren

def parentOf (v : Value) : Except Cause (Option String) :=
  match v.field? "parent_id" with
  | none => .ok none
  | some .null => .ok none
  | some (.text id) => .ok (some id)
  | some _ => .error .badParent

def readProperties (ps : Properties) : List (Value × Value) → Except Cause Properties
  | [] => .ok ps
  | e :: es => do
    let key ← e.1.toText
    readProperties (ps.insert (.text key) (← Property.decode e.2)) es

def propertiesOf (v : Value) : Except Cause Properties := do
  let table ← ((v.field? "properties").getD (.object [])).toTable
  readProperties .empty table.entries

/-- Reads a node. The fields are examined in the order in which they are bound here, so that the
first defect in this order decides the cause. -/
def ofDocument (v : Value) : Except Cause Node := do
  let type ← typeOf v
  let children ← childrenOf v
  let parent ← parentOf v
  let id ← (← v.field "id").toText
  let name ← ((v.field? "name").getD (.text "")).toText
  let properties ← propertiesOf v
  return {
    id := id
    name := .text name
    type := type
    parent := parent
    children := children
    properties := properties }

end Node

end SceneEditor
