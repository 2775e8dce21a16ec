import SceneEditor.Scene

namespace SceneEditor

structure Snapshot where
  number : Nat
  name : Value
  root : String
  revision : Nat
  nodes : Arena

def Scene.snapshot (s : Scene) (number : Nat) : Snapshot where
  number := number
  name := s.name
  root := s.root
  revision := s.revision
  nodes := s.arena

namespace Snapshot

def get (s : Snapshot) (id : Value) : Except Cause (Option Node) := do
  match ← id.asKey with
  | .text id => return s.nodes.find? id
  | _ => return none

def rootNode (s : Snapshot) : Except Cause Node :=
  match s.nodes.find? s.root with
  | some n => .ok n
  | none => .error (.missingKey (.text s.root))

end Snapshot

end SceneEditor
