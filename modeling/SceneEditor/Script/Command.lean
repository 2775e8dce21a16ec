import SceneEditor.Session

namespace SceneEditor

/-- What a command is applied to: a value, a value that could not be made, or the first argument of
the signal that the command reacts to. -/
inductive Operand where
  | value (v : Value)
  | invalid (e : Cause)
  | firstArgument

inductive Command where
  | newScene (name : Operand)
  | add (parent name type : Operand)
  | remove (id : Operand)
  | set (id key value : Operand)
  | unset (id key : Operand)
  | rename (id name : Operand)
  | getNode (id : Operand)
  | get (id key kind default : Operand)
  | children (id : Operand)
  | subtree (id : Operand)
  | contains (id : Operand)
  | info
  | check
  | toDocument
  | showNode (id : Operand)
  | snapshot (label : Operand)
  | snapshotInfo (label : Operand)
  | snapshotGet (label id : Operand) (key : Option Operand)
  | generate (fields : List LayoutField)
  | generateFrom (label : Operand) (fields : List LayoutField)
  | generateCode
  | emitter (type : Operand)
  | registerEmitter (type : Operand) (template : Option String) (nests : Bool)
  | configure (setting : Setting)
  | save (path : Operand)
  | load (path : Operand)
  | enterDocument (data : Operand)
  | reload
  | bind (bound : Bool)
  | connect (signal label : Operand) (script : List Command) (limit : Option Nat)
      (refusal : Option String)
  | disconnect (label : Operand)
  | handlerCount (signal : Operand)
  | emit (signal : Operand) (arguments : List Operand)

/-- An observer leaves its label with every call. As long as it was not called more often than its
limit it performs its script, and after that refuses with a message, if it has one. -/
structure Observer where
  label : String
  script : List Command
  limit : Option Nat
  refusal : Option String

end SceneEditor
