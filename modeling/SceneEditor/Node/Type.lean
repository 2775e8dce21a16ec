namespace SceneEditor

inductive NodeType where
  | container
  | sprite
  | rectangle
  | circle
  | path
  | text
  deriving DecidableEq

namespace NodeType

def all : List NodeType := [container, sprite, rectangle, circle, path, text]

def name : NodeType → String
  | container => "Container"
  | sprite => "Sprite"
  | rectangle => "Rectangle"
  | circle => "Circle"
  | path => "Path"
  | text => "Text"

def label : NodeType → String
  | container => "CONTAINER"
  | sprite => "SPRITE"
  | rectangle => "RECTANGLE"
  | circle => "CIRCLE"
  | path => "PATH"
  | text => "TEXT"

def ofName? (s : String) : Option NodeType := all.find? fun t => t.name == s || t.label == s

end NodeType

end SceneEditor
