import SceneEditor.Program

/-!
Settings of a session, which are assigned one field at a time. A value comes with its field, so that
it is of the type of the field.
-/

namespace SceneEditor

structure Settings where
  sceneName : Value := .text "Untitled"
  rootName : Value := .text "Root"
  layout : Layout := {}

inductive LayoutField where
  | blockOpen (s : String)
  | blockClose (s : String)
  | indent (s : String)
  | baseDepth (i : Int)

inductive Setting where
  | sceneName (name : Value)
  | rootName (name : Value)
  | layout (f : LayoutField)

def Layout.assign (l : Layout) : LayoutField → Layout
  | .blockOpen s => { l with blockOpen := s }
  | .blockClose s => { l with blockClose := s }
  | .indent s => { l with indent := s }
  | .baseDepth i => { l with baseDepth := i }

def Settings.assign (s : Settings) : Setting → Settings
  | .sceneName name => { s with sceneName := name }
  | .rootName name => { s with rootName := name }
  | .layout f => { s with layout := s.layout.assign f }

end SceneEditor
