import SceneEditor.Node.Type
import SceneEditor.Number.Decimal
import SceneEditor.Property.Kind
import SceneEditor.Text.Numeral
import SceneEditor.Text.Quoted

/-!
The values that callers may hand to the editor. An operation has to answer every one of them, so
arguments that ought to be an identifier, a name or a property are values too.
-/

namespace SceneEditor

open SceneEditor.Number

inductive BuiltinType where
  | text
  | number
  | flag
  | whole
  | list
  | object
  deriving DecidableEq

def BuiltinType.name : BuiltinType → String
  | text => "str"
  | number => "float"
  | flag => "bool"
  | whole => "int"
  | list => "list"
  | object => "dict"

/-- What keeps a value from being put in writing: a whole number with too many digits, or properties
that are nested too deep. -/
inductive Obstacle where
  | digits
  | nesting
  deriving DecidableEq

/-- A value. Properties in the making are values as well, with a payload that nobody has checked;
without a kind they are properties of no kind. A scene is known by its handle and by what it looked
like when it became a value. -/
inductive Value where
  | null
  | flag (b : Bool)
  | whole (i : Int)
  | number (x : Double)
  | text (s : String)
  | list (items : List Value)
  | object (entries : List (Value × Value))
  | property (kind : Option PropertyKind) (payload : Value)
  | kind (k : PropertyKind)
  | propertyType (kind : Option PropertyKind)
  | builtin (t : BuiltinType)
  | nodeType (t : NodeType)
  | scene (handle : Nat) (shown : String)

namespace Value

def propertyTypeName : Option PropertyKind → String
  | none => "PropertyValue"
  | some k => k.name ++ "Value"

def typeName : Value → String
  | null => "NoneType"
  | flag _ => "bool"
  | whole _ => "int"
  | number _ => "float"
  | text _ => "str"
  | list _ => "list"
  | object _ => "dict"
  | property k _ => propertyTypeName k
  | kind _ => "PropertyKind"
  | propertyType _ => "type"
  | builtin _ => "type"
  | nodeType _ => "NodeType"
  | scene _ _ => "Scene"

def wholeText (i : Int) : String :=
  (if i < 0 then "-" else "") ++ String.ofList (Nat.toDigits 10 i.natAbs)

mutual

def shown : Value → String
  | null => "None"
  | flag b => if b then "True" else "False"
  | whole i => wholeText i
  | number x => x.shown
  | text s => Text.quoted s
  | list items => "[" ++ ", ".intercalate (shownItems items) ++ "]"
  | object entries => "\x7b" ++ ", ".intercalate (shownEntries entries) ++ "\x7d"
  | property k payload => propertyTypeName k ++ "(value=" ++ payload.shown ++ ")"
  | kind k => "<PropertyKind." ++ k.label ++ ": '" ++ k.name ++ "'>"
  | propertyType k => "<class 'turbo_editor.scene.properties." ++ propertyTypeName k ++ "'>"
  | builtin t => "<class '" ++ t.name ++ "'>"
  | nodeType t => "<NodeType." ++ t.label ++ ": '" ++ t.name ++ "'>"
  | scene _ s => s
termination_by structural v => v

def shownItems : List Value → List String
  | [] => []
  | v :: vs => v.shown :: shownItems vs
termination_by structural vs => vs

def shownEntries : List (Value × Value) → List String
  | [] => []
  | e :: es => shownEntry e :: shownEntries es
termination_by structural es => es

def shownEntry : Value × Value → String
  | (k, v) => k.shown ++ ": " ++ v.shown
termination_by structural e => e

end

mutual

/-- What first stands in the way when a value is put in writing. Of properties that are nested in one
another only so many are written, here as many as there is room for. -/
def obstacle? : Value → Nat → Option Obstacle
  | whole i, _ => if Text.maxDigits < (Nat.toDigits 10 i.natAbs).length then some .digits else none
  | list items, room => obstacleItems? items room
  | object entries, room => obstaclePairs? entries room
  | property _ _, 0 => some .nesting
  | property _ payload, room + 1 => payload.obstacle? room
  | _, _ => none
termination_by structural v => v

def obstacleItems? : List Value → Nat → Option Obstacle
  | [], _ => none
  | v :: vs, room => (v.obstacle? room).or (obstacleItems? vs room)
termination_by structural vs => vs

def obstaclePairs? : List (Value × Value) → Nat → Option Obstacle
  | [], _ => none
  | e :: es, room => (obstaclePair? e room).or (obstaclePairs? es room)
termination_by structural es => es

def obstaclePair? : Value × Value → Nat → Option Obstacle
  | (k, v), room => (k.obstacle? room).or (v.obstacle? room)
termination_by structural e => e

end

def maxNesting : Nat := 330

/-- A value as text: text is itself, everything else as messages show it. -/
def asText : Value → String
  | text s => s
  | kind k => "PropertyKind." ++ k.label
  | nodeType t => "NodeType." ++ t.label
  | v => v.shown

/-- Empty values, zeros, `False` and `None` count as absent. -/
def isPresent : Value → Bool
  | null => false
  | flag b => b
  | whole i => i ≠ 0
  | number x => !x.isZero
  | text s => s ≠ ""
  | list items => !items.isEmpty
  | object entries => !entries.isEmpty
  | _ => true

end Value

end SceneEditor
