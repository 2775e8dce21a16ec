import SceneEditor.Value.Reading

namespace SceneEditor

inductive Signal where
  | nodeAdded
  | nodeRemoved
  | nodeChanged
  | sceneLoaded
  deriving DecidableEq

namespace Signal

def all : List Signal := [nodeAdded, nodeRemoved, nodeChanged, sceneLoaded]

def name : Signal → String
  | nodeAdded => "node_added"
  | nodeRemoved => "node_removed"
  | nodeChanged => "node_changed"
  | sceneLoaded => "scene_loaded"

def ofValue (v : Value) : Except Cause Signal := do
  match ← v.asKey with
  | .text s =>
    match all.find? fun signal => signal.name == s with
    | some signal => .ok signal
    | none => .error (.unknownSignal v)
  | _ => .error (Cause.unknownSignal v).formed

end Signal

inductive Argument where
  | value (v : Value)
  | group (ids : List String)

namespace Argument

/-- Items in round brackets; a single one is followed by a comma. -/
def shownGroup : List String → String
  | [item] => "(" ++ item ++ ",)"
  | items => "(" ++ ", ".intercalate items ++ ")"

def shown : Argument → String
  | value v => v.shown
  | group ids => shownGroup (ids.map Text.quoted)

def values : Argument → List Value
  | value v => [v]
  | group _ => []

end Argument

/-- An edit as its scene announces it. A change without a key is a change of the name. -/
inductive Announcement where
  | nodeAdded (id parent : String)
  | nodeRemoved (id : String) (removed : List String)
  | nodeChanged (id : String) (key : Option Value)

namespace Announcement

def signal : Announcement → Signal
  | nodeAdded _ _ => .nodeAdded
  | nodeRemoved _ _ => .nodeRemoved
  | nodeChanged _ _ => .nodeChanged

def arguments : Announcement → List Argument
  | nodeAdded id parent => [.value (.text id), .value (.text parent)]
  | nodeRemoved id removed => [.value (.text id), .group removed]
  | nodeChanged id key => [.value (.text id), .value (key.getD .null)]

end Announcement

end SceneEditor
