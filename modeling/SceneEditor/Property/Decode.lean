import SceneEditor.Property
import SceneEditor.Value.Reading

namespace SceneEditor

open SceneEditor.Number

/-- Reads a colour from a value that ought to be text. A text without its sharp sign is quoted in
the message, the others are given as they are. -/
def Color.ofHexValue (v : Value) : Except Cause Color :=
  match v with
  | .text s =>
    match Color.ofHex? s with
    | some c => .ok c
    | none => .error (if s.toList.head? = some '#' then .badHexColor s else .notHexColor v)
  | v => .error (.notHexColor v)

def Property.ofPayload (k : PropertyKind) (v : Value) : Except PropertyError Property :=
  match k, v with
  | .string, .text s => .ok (.string s)
  | .number, .number x => .ok (.number x)
  | .number, .whole i =>
    match Binary.ofInt i with
    | .infinity _ => .error (.numberRange i)
    | x => .ok (.number x)
  | .boolean, .flag b => .ok (.boolean b)
  | .color, .whole i =>
    match Color.ofInt? i with
    | some c => .ok (.color c)
    | none => .error (.payload .color v)
  | .color, .text s =>
    match Color.ofHexValue (.text s) with
    | .ok c => .ok (.color c)
    | .error e => .error (.color e.message)
  | k, v => .error (.payload k v)

def PropertyKind.ofTag? : Value → Option PropertyKind
  | .text s => PropertyKind.ofName? s
  | .kind k => some k
  | _ => none

def Property.decode (v : Value) : Except Cause Property :=
  match v with
  | .property none _ => .error .kindless
  | .property (some k) payload => (Property.ofPayload k payload).mapError .property
  | .object [(tag, payload)] =>
    match PropertyKind.ofTag? tag with
    | some k => (Property.ofPayload k payload).mapError .property
    | none => .error (.property (.unknownTag tag))
  | .object entries => .error (.property (.tagCount (entries.map Prod.fst)))
  | v => .error (.property (.notProperty v))

/-- A property in the making. Numbers are converted and colours become whole numbers at once, the
payloads of other kinds are taken as they are. -/
def Value.makeProperty (k : Option PropertyKind) (payload : Value) : Except Cause Value :=
  match k with
  | some .number => do return .property k (.number (← payload.toNumber))
  | some .color => do return .property k (.whole (← payload.toWhole))
  | _ => .ok (.property k payload)

/-- What kind of property a read asks for: a kind, the type of the properties of a kind, or a
general type that only one kind has. -/
def PropertyKind.ofRequest? : Value → Option PropertyKind
  | .kind k => some k
  | .propertyType k => k
  | .builtin .text => some .string
  | .builtin .number => some .number
  | .builtin .flag => some .boolean
  | _ => none

end SceneEditor
