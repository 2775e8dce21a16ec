import SceneEditor.Text.Utf8
import SceneEditor.Value.Key

namespace SceneEditor

inductive PropertyError where
  | tagCount (tags : List Value)
  | unknownTag (tag : Value)
  | notProperty (v : Value)
  | payload (kind : PropertyKind) (v : Value)
  | numberRange (i : Int)
  | color (s : String)

inductive Violation where
  | rootMissing (root : String)
  | rootHasParent
  | rootType (type : NodeType)
  | idMismatch (key id : String)
  | parentMissing (id : String) (parent : Option String)
  | listedTimes (id : String) (count : Nat) (parent : String)
  | unknownChild (id child : String)
  | foreignChild (child lister : String) (parent : Option String)
  | reachedAgain (id : String)
  | unreachable (id : String)
  deriving DecidableEq

inductive SyntaxError where
  | byteOrderMark
  | value
  | propertyName
  | colon
  | comma
  | trailing
  | openString
  | control
  | escape
  | unicodeEscape
  deriving DecidableEq

inductive Family where
  | propertyDecode
  | sceneFormat
  | value
  | type
  | key
  | member
  | runtime
  | overflow
  | documentSyntax
  | textDecode
  | missingFile
  | recursion
  deriving DecidableEq

inductive Cause where
  | noFields (v : Value)
  | missingKey (v : Value)
  | notIterable (v : Value)
  | notPair (index : Nat)
  | pairLength (index length : Nat)
  | unusableKey (v : Value)
  | notNumber (v : Value)
  | numberText (s : String)
  | numberOverflow
  | notWhole (v : Value)
  | wholeText (s : String)
  | tooManyDigits (count : Nat)
  | wholeOfNaN
  | wholeOfInfinity
  | notHexadecimal (v : Value)
  | notMaskable (v : Value)
  | channelRange
  | notHexColor (v : Value)
  | badHexColor (s : String)
  | kindless
  | property (e : PropertyError)
  | unknownNodeType (v : Value)
  | badChildren
  | badParent
  | malformedScene (inner : Cause)
  | duplicateNode (id : String)
  | brokenTree (violations : List Violation)
  | unknownSignal (v : Value)
  /-- Something outside the editor refused, in its own words. -/
  | refused (message : String)
  | missingFile (path : String)
  | badEncoding (fault : Text.Utf8.Fault)
  | badDocument (error : SyntaxError) (line column position : Nat)
  | unwritableKey (v : Value)
  | unwritable (v : Value)
  | unwritten (o : Obstacle)

namespace PropertyError

def message : PropertyError → String
  | tagCount tags => "Expected a single variant tag, got " ++ (Value.list tags).shown
  | unknownTag tag => "Unknown property variant: " ++ tag.shown
  | notProperty v => "Cannot decode property from " ++ v.typeName
  | payload kind v => kind.name ++ " property cannot hold " ++ v.typeName ++ " " ++ v.shown
  | numberRange i => "Number " ++ Value.wholeText i ++ " is out of double-precision range"
  | color s => s

def values : PropertyError → List Value
  | tagCount tags => tags
  | unknownTag tag => [tag]
  | notProperty _ => []
  | payload _ v => [v]
  | numberRange i => [.whole i]
  | color _ => []

end PropertyError

def Obstacle.message : Obstacle → String
  | digits => "Exceeds the limit (4300 digits) for integer string conversion; " ++
      "use sys.set_int_max_str_digits() to increase the limit"
  | nesting => "maximum recursion depth exceeded while getting the repr of an object"

namespace Violation

def shownParent : Option String → String
  | none => "None"
  | some id => Text.quoted id

def message : Violation → String
  | rootMissing root => "root " ++ Text.quoted root ++ " is missing"
  | rootHasParent => "root has a parent"
  | rootType type => "root is a " ++ type.name ++ ", not a Container"
  | idMismatch key id => "node stored under " ++ Text.quoted key ++ " claims id " ++ Text.quoted id
  | parentMissing id parent => id ++ " has missing parent " ++ shownParent parent
  | listedTimes id count parent =>
    id ++ " listed " ++ Value.wholeText count ++ " time(s) by its parent " ++ parent
  | unknownChild id child => id ++ " lists unknown child " ++ Text.quoted child
  | foreignChild child lister parent =>
    child ++ " is listed by " ++ lister ++ " but its parent is " ++ shownParent parent
  | reachedAgain id => id ++ " is reachable more than once"
  | unreachable id => id ++ " is not reachable from the root"

end Violation

def SyntaxError.message : SyntaxError → String
  | byteOrderMark => "Unexpected UTF-8 BOM (decode using utf-8-sig)"
  | value => "Expecting value"
  | propertyName => "Expecting property name enclosed in double quotes"
  | colon => "Expecting ':' delimiter"
  | comma => "Expecting ',' delimiter"
  | trailing => "Extra data"
  | openString => "Unterminated string starting at"
  | control => "Invalid control character at"
  | escape => "Invalid \\escape"
  | unicodeEscape => "Invalid \\uXXXX escape"

def Family.name : Family → String
  | propertyDecode => "PropertyDecodeError"
  | sceneFormat => "SceneFormatError"
  | value => "ValueError"
  | type => "TypeError"
  | key => "KeyError"
  | member => "AttributeError"
  | runtime => "RuntimeError"
  | overflow => "OverflowError"
  | documentSyntax => "JSONDecodeError"
  | textDecode => "UnicodeDecodeError"
  | missingFile => "FileNotFoundError"
  | recursion => "RecursionError"

namespace Cause

def formatFails : Value → Option String
  | .number _ => some "float"
  | .text _ => some "str"
  | .kind _ => some "str"
  | .nodeType _ => some "str"
  | _ => none

def family : Cause → Family
  | noFields _ => .type
  | missingKey _ => .key
  | notIterable _ => .type
  | notPair _ => .type
  | pairLength _ _ => .value
  | unusableKey _ => .type
  | notNumber _ => .type
  | numberText _ => .value
  | numberOverflow => .overflow
  | notWhole _ => .type
  | wholeText _ => .value
  | tooManyDigits _ => .value
  | wholeOfNaN => .value
  | wholeOfInfinity => .overflow
  | notHexadecimal v => if (formatFails v).isSome then .value else .type
  | notMaskable _ => .type
  | channelRange => .overflow
  | notHexColor _ => .value
  | badHexColor _ => .value
  | kindless => .member
  | property _ => .propertyDecode
  | unknownNodeType _ => .value
  | badChildren => .type
  | badParent => .type
  | malformedScene _ => .sceneFormat
  | duplicateNode _ => .sceneFormat
  | brokenTree _ => .sceneFormat
  | unknownSignal _ => .value
  | refused _ => .runtime
  | missingFile _ => .missingFile
  | badEncoding _ => .textDecode
  | badDocument _ _ _ _ => .documentSyntax
  | unwritableKey _ => .type
  | unwritable _ => .type
  | unwritten .digits => .value
  | unwritten .nesting => .recursion

def encodingMessage (fault : Text.Utf8.Fault) : String :=
  let first := Value.wholeText fault.position
  let place :=
    if fault.count = 1 then
      "byte 0x" ++ String.ofList (Text.hexDigits 2 fault.byte) ++ " in position " ++ first
    else
      "bytes in position " ++ first ++ "-" ++ Value.wholeText (fault.position + fault.count - 1)
  "'utf-8' codec can't decode " ++ place ++ ": " ++ fault.defect.message

def fieldsMessage : Value → String
  | .text _ => "string indices must be integers, not 'str'"
  | .list _ => "list indices must be integers or slices, not str"
  | .propertyType k => "type '" ++ Value.propertyTypeName k ++ "' is not subscriptable"
  | .builtin t => "type '" ++ t.name ++ "' is not subscriptable"
  | v => "'" ++ v.typeName ++ "' object is not subscriptable"

def message : Cause → String
  | noFields v => fieldsMessage v
  | missingKey v => v.shown
  | notIterable v => "'" ++ v.typeName ++ "' object is not iterable"
  | notPair index =>
    "cannot convert dictionary update sequence element #" ++ Value.wholeText index ++
      " to a sequence"
  | pairLength index length =>
    "dictionary update sequence element #" ++ Value.wholeText index ++ " has length " ++
      Value.wholeText length ++ "; 2 is required"
  | unusableKey v => "unhashable type: '" ++ v.typeName ++ "'"
  | notNumber v =>
    "float() argument must be a string or a real number, not '" ++ v.typeName ++ "'"
  | numberText s => "could not convert string to float: " ++ Text.quoted s
  | numberOverflow => "int too large to convert to float"
  | notWhole v =>
    "int() argument must be a string, a bytes-like object or a real number, not '" ++
      v.typeName ++ "'"
  | wholeText s =>
    "invalid literal for int() with base 10: " ++
      String.ofList ((Text.quoted s).toList.take 200)
  | tooManyDigits count =>
    "Exceeds the limit (4300 digits) for integer string conversion: value has " ++
      Value.wholeText count ++ " digits; use sys.set_int_max_str_digits() to increase the limit"
  | wholeOfNaN => "cannot convert float NaN to integer"
  | wholeOfInfinity => "cannot convert float infinity to integer"
  | notHexadecimal v =>
    match formatFails v with
    | some type => "Unknown format code 'X' for object of type '" ++ type ++ "'"
    | none => "unsupported format string passed to " ++ v.typeName ++ ".__format__"
  | notMaskable v =>
    "unsupported operand type(s) for &: '" ++ v.typeName ++ "' and 'int'"
  | channelRange => "integer out of range for a 32-bit word"
  | notHexColor v => "Invalid hex color: " ++ v.shown
  | badHexColor s => "Invalid hex color: " ++ s
  | kindless => "'PropertyValue' object has no attribute 'kind'"
  | property e => e.message
  | unknownNodeType v => "Unknown node type: " ++ v.shown
  | badChildren => "children must be a list of identifiers"
  | badParent => "parent_id must be an identifier or null"
  | malformedScene inner =>
    "Malformed scene data: " ++ inner.family.name ++ "(" ++
      (match inner with
        | missingKey v => v.shown
        | inner => Text.quoted (message inner)) ++ ")"
  | duplicateNode id => "Duplicate node id " ++ Text.quoted id
  | brokenTree violations => "; ".intercalate (violations.map Violation.message)
  | unknownSignal v => "Unknown scene signal: " ++ v.shown
  | refused message => message
  | missingFile path => "[Errno 2] No such file or directory: " ++ Text.quoted path
  | badEncoding fault => encodingMessage fault
  | badDocument error line column position =>
    error.message ++ ": line " ++ Value.wholeText line ++ " column " ++ Value.wholeText column ++
      " (char " ++ Value.wholeText position ++ ")"
  | unwritableKey v => "keys must be str, int, float, bool or None, not " ++ v.typeName
  | unwritable v => "Object of type " ++ v.typeName ++ " is not JSON serializable"
  | unwritten o => o.message

def values : Cause → List Value
  | missingKey v | notHexColor v | unknownNodeType v | unknownSignal v => [v]
  | property e => e.values
  | malformedScene inner => inner.values
  | _ => []

def obstacle? (e : Cause) : Option Obstacle := e.values.findSome? (·.obstacle? Value.maxNesting)

/-- A cause as it is handed on. Its message is put in writing at once, except that a missing key is
kept as it is until someone asks for the message. -/
def formed : Cause → Cause
  | missingKey v => missingKey v
  | e => (e.obstacle?.map unwritten).getD e

end Cause

end SceneEditor
