namespace SceneEditor

inductive PropertyKind where
  | string
  | number
  | boolean
  | color
  deriving DecidableEq

namespace PropertyKind

def all : List PropertyKind := [string, number, boolean, color]

def name : PropertyKind → String
  | string => "String"
  | number => "Number"
  | boolean => "Boolean"
  | color => "Color"

def label : PropertyKind → String
  | string => "STRING"
  | number => "NUMBER"
  | boolean => "BOOLEAN"
  | color => "COLOR"

def ofName? (s : String) : Option PropertyKind := all.find? fun k => k.name == s

end PropertyKind

end SceneEditor
