import SceneEditor.Node

namespace SceneEditor

open SceneEditor.Number

/-- The statement of a node, if it has one, and whether the statements of its children are indented
one level deeper than it. -/
structure Emitter where
  emit : Node → Option String
  nests : Bool

namespace Emitter

def read (n : Node) (key : Value) (k : PropertyKind) (default : Value) : Value :=
  match n.properties.find? key with
  | some p => if p.kind = k then p.payload else default
  | none => default

def number (n : Node) (key : String) (default : Double) : Double :=
  match read n (.text key) .number (.number default) with
  | .number x => x
  | _ => default

def text (n : Node) (key : String) (default : String) : String :=
  match read n (.text key) .string (.text default) with
  | .text s => s
  | _ => default

def color (n : Node) (key : String) (default : Color) : Int :=
  match read n (.text key) .color (.whole default.toNat) with
  | .whole i => i
  | _ => default.toNat

def box (n : Node) : String :=
  "x = " ++ (number n "x" (Binary.ofInt 0)).positional ++
    ", y = " ++ (number n "y" (Binary.ofInt 0)).positional ++
    ", w = " ++ (number n "width" (Binary.ofInt 100)).positional ++
    ", h = " ++ (number n "height" (Binary.ofInt 100)).positional

def sprite (n : Node) : String :=
  "sprite!(\"" ++ text n "path" "default" ++ "\", " ++ box n ++ ");"

def rectangle (n : Node) : String :=
  "rect!(" ++ box n ++ ", color = " ++ hexLiteral (color n "color" .opaqueWhite) ++
    ", border_radius = " ++ (number n "border_radius" (Binary.ofInt 0)).positional ++ ");"

def unimplemented : Emitter where
  emit n := some ("// Unimplemented node type: " ++ n.type.name)
  nests := true

def ofTemplate (template : Option String) (nests : Bool) : Emitter where
  emit n := template.map fun s => s.replace "@name" n.name.asText
  nests := nests

end Emitter

abbrev Registry := Table NodeType Emitter

namespace Registry

/-- Containers say nothing and leave their children where they are. -/
def builtin : Registry :=
  .ofList [
    (.container, ⟨fun _ => none, false⟩),
    (.sprite, ⟨fun n => some (Emitter.sprite n), true⟩),
    (.rectangle, ⟨fun n => some (Emitter.rectangle n), true⟩)]

def emitterFor (r : Registry) (t : NodeType) : Emitter := (r.find? t).getD .unimplemented

end Registry

end SceneEditor
