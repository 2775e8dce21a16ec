import SceneEditor.Property
import SceneEditor.Table
import SceneEditor.Value.Key

namespace SceneEditor

open SceneEditor.Number

abbrev Properties := Table Value Property

structure Node where
  id : String
  name : Value
  type : NodeType
  parent : Option String
  children : List String
  properties : Properties

def Properties.position : Properties :=
  .ofList [(.text "x", .number (Binary.ofInt 0)), (.text "y", .number (Binary.ofInt 0))]

def Properties.box : Properties :=
  (Properties.position.insert (.text "width") (.number (Binary.ofInt 100))).insert
    (.text "height") (.number (Binary.ofInt 100))

def NodeType.defaults : NodeType → Properties
  | container => .box
  | sprite => Properties.box.insert (.text "path") (.string "default")
  | rectangle => (Properties.box.insert (.text "color") (.color .opaqueWhite)).insert
      (.text "border_radius") (.number (Binary.ofInt 0))
  | circle => .position
  | path => .position
  | text => .position

/-- What a node starts with when its type is given as a value. Without a type it is only placed. -/
def Properties.defaultsFor : Value → Properties
  | .nodeType t => t.defaults
  | _ => .position

namespace Node

def create (id : String) (name : Value) (type : NodeType) (parent : Option String) : Node where
  id := id
  name := name
  type := type
  parent := parent
  children := []
  properties := type.defaults

def addChild (n : Node) (id : String) : Node := { n with children := n.children ++ [id] }

def dropChild (n : Node) (id : String) : Node :=
  { n with children := n.children.filter (· ≠ id) }

def payload? (n : Node) (key : Value) (k : PropertyKind) : Option Value :=
  (n.properties.find? key).bind (·.payload? k)

def shown (n : Node) : String :=
  "EditorNode(name=" ++ n.name.shown ++ ", type=" ++ n.type.name ++ ", id=" ++
    Text.quoted n.id ++ ", children=" ++ Value.wholeText n.children.length ++ ")"

end Node

end SceneEditor
