import SceneEditor.Workspace

namespace SceneEditor

inductive Reply where
  | done
  | flag (b : Bool)
  | number (n : Nat)
  | text (s : String)
  | value (v : Value)
  | id (id : Option String)
  | ids (ids : List String)
  | node (n : Option Node)
  | property (p : Option Property)
  | violations (vs : List Violation)
  | scene (s : Scene) (current : Bool)
  | info (s : Scene)
  | snapshot (s : Snapshot) (root : Node)
  | program (code : String) (kept : Bool)
  | emitter (registered nests : Bool)
  | disconnected (signal : Signal)

end SceneEditor
