import SceneEditor.Signal

namespace SceneEditor

inductive Level where
  | debug
  | info
  | warning
  | error
  deriving DecidableEq

def Level.name : Level → String
  | debug => "DEBUG"
  | info => "INFO"
  | warning => "WARNING"
  | error => "ERROR"

inductive Notice where
  | noParent (id : Value)
  | unknownType (type : Value)
  | idsExhausted
  | added (type : NodeType) (name : Value) (id parent : String)
  | rootKept
  | nothingToRemove (id : Value)
  | removed (id : String) (descendants : Nat)
  | nothingToSet (id : Value)
  | notProperty (id : String) (key : Value) (error : PropertyError)
  | notKind (request : Value)
  | handlerFailed (signal : Signal) (arguments : List Argument) (cause : Cause)
  | generated (statements : Nat) (scene : Value) (revision : Nat)
  | newScene (name : Value)
  | saved (name : Value) (path : String)
  | loaded (name : Value) (count : Nat) (path : String)

namespace Notice

def level : Notice → Level
  | noParent _ => .debug
  | unknownType _ => .warning
  | idsExhausted => .error
  | added _ _ _ _ => .debug
  | rootKept => .debug
  | nothingToRemove _ => .debug
  | removed _ _ => .debug
  | nothingToSet _ => .debug
  | notProperty _ _ _ => .warning
  | notKind _ => .warning
  | handlerFailed _ _ _ => .error
  | generated _ _ _ => .debug
  | newScene _ => .info
  | saved _ _ => .info
  | loaded _ _ _ => .info

def message : Notice → String
  | noParent id => "add_node: parent " ++ id.shown ++ " not found"
  | unknownType type => "add_node: unknown node type " ++ type.shown
  | idsExhausted => "id_factory keeps returning identifiers already in use"
  | added type name id parent =>
    "Added " ++ type.name ++ " " ++ name.shown ++ " (" ++ id ++ ") under " ++ parent
  | rootKept => "remove_node: refusing to remove the root"
  | nothingToRemove id => "remove_node: " ++ id.shown ++ " not found"
  | removed id descendants =>
    "Removed " ++ id ++ " and " ++ Value.wholeText descendants ++ " descendant(s)"
  | nothingToSet id => "set_property: " ++ id.shown ++ " not found"
  | notProperty id key error =>
    "set_property " ++ key.shown ++ " on " ++ id ++ ": " ++ error.message
  | notKind request => "get_property: " ++ request.shown ++ " is not a property kind"
  | handlerFailed signal arguments cause =>
    "Scene signal handler failed [" ++ signal.name ++
      Argument.shownGroup (arguments.map Argument.shown) ++ "]: " ++ cause.message
  | generated statements scene revision =>
    "Generated " ++ Value.wholeText statements ++ " statement(s) from " ++ scene.shown ++
      " rev " ++ Value.wholeText revision
  | newScene name => "New scene " ++ name.shown
  | saved name path => "Saved scene " ++ name.shown ++ " to " ++ path
  | loaded name count path =>
    "Loaded scene " ++ name.shown ++ " (" ++ Value.wholeText count ++ " nodes) from " ++ path

def values : Notice → List Value
  | noParent v | unknownType v | nothingToRemove v | nothingToSet v | notKind v => [v]
  | added _ name _ _ => [name]
  | notProperty _ key e => e.values ++ [key]
  | handlerFailed _ arguments cause => arguments.flatMap Argument.values ++ cause.values
  | generated _ scene _ => [scene]
  | newScene name => [name]
  | saved name _ => [name]
  | loaded name _ _ => [name]
  | idsExhausted | rootKept | removed _ _ => []

def obstacle? (n : Notice) : Option Obstacle := n.values.findSome? (·.obstacle? Value.maxNesting)

end Notice

end SceneEditor
