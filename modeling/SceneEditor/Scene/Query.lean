import SceneEditor.Notice
import SceneEditor.Property.Decode
import SceneEditor.Scene

namespace SceneEditor.Scene

def getNode (s : Scene) (id : Value) : Except Cause (Option Node) := do
  return (← s.resolve id).map Prod.snd

def contains (s : Scene) (id : Value) : Except Cause Bool := do
  return (← s.resolve id).isSome

def childrenOf (s : Scene) (id : Value) : Except Cause (List String) := do
  match ← s.resolve id with
  | some (_, n) => return n.children
  | none => return []

def subtree (s : Scene) (id : Value) : Except Cause (List String) := do
  match ← s.resolve id with
  | some (id, _) => return s.arena.walk id
  | none => return []

/-- The payload of a property of the kind asked for, and the default whenever there is none. A
request for no kind is put in writing for the log. -/
def getProperty (s : Scene) (id key request default : Value) :
    Except Cause Value × List Notice :=
  match PropertyKind.ofRequest? request with
  | none =>
    match (Notice.notKind request).obstacle? with
    | none => (.ok default, [.notKind request])
    | some o => (.error (.unwritten o), [])
  | some k => (read k, [])
where
  read (k : PropertyKind) : Except Cause Value := do
    match ← s.resolve id with
    | none => return default
    | some (_, n) => return (n.payload? (← key.asKey) k).getD default

end SceneEditor.Scene
