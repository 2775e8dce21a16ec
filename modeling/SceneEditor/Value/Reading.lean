import SceneEditor.Cause
import SceneEditor.Table
import SceneEditor.Text.Numeral

namespace SceneEditor.Value

open SceneEditor.Number

def asKey (v : Value) : Except Cause Value :=
  match v.unusableKey? with
  | some part => .error (.unusableKey part)
  | none => .ok v

def toText (v : Value) : Except Cause String :=
  match v.obstacle? maxNesting with
  | none => .ok v.asText
  | some o => .error (.unwritten o)

/-- Truth values count as zero and one, text is read, and whole numbers are rounded. -/
def toNumber : Value → Except Cause Double
  | flag b => .ok (Binary.ofInt (if b then 1 else 0))
  | whole i =>
    match Binary.ofInt i with
    | .infinity _ => .error .numberOverflow
    | x => .ok x
  | number x => .ok x
  | text s =>
    match Text.readNumber? s with
    | some x => .ok x
    | none => .error (.numberText s)
  | v => .error (.notNumber v)

def wholeOfDigits (negative : Bool) (digits : List Char) : Except Cause Int :=
  if Text.maxDigits < digits.length then .error (.tooManyDigits digits.length)
  else .ok (if negative then -(Text.decimalValue digits : Int) else Text.decimalValue digits)

/-- Truth values count as zero and one, text is read, and doubles lose their fraction. -/
def toWhole : Value → Except Cause Int
  | flag b => .ok (if b then 1 else 0)
  | whole i => .ok i
  | number x =>
    match x with
    | .nan => .error .wholeOfNaN
    | x => match x.truncate? with
      | some i => .ok i
      | none => .error .wholeOfInfinity
  | text s =>
    match Text.wholeDigits? s with
    | some (negative, digits) => wholeOfDigits negative digits
    | none => .error (.wholeText s)
  | v => .error (.notWhole v)

def lookup? (entries : List (Value × Value)) (name : String) : Option Value :=
  (entries.find? fun e => e.1 == text name).map Prod.snd

def field (v : Value) (name : String) : Except Cause Value :=
  match v with
  | object entries =>
    match lookup? entries name with
    | some w => .ok w
    | none => .error (.missingKey (text name))
  | v => .error (.noFields v)

def field? (v : Value) (name : String) : Option Value :=
  match v with
  | object entries => lookup? entries name
  | _ => none

/-- What a value consists of: the items of a list, the keys of an object, the characters of a
text. -/
def items? : Value → Option (List Value)
  | list vs => some vs
  | object entries => some (entries.map Prod.fst)
  | text s => some (s.toList.map fun c => text (String.singleton c))
  | _ => none

def items (v : Value) : Except Cause (List Value) :=
  match v.items? with
  | some vs => .ok vs
  | none => .error (.notIterable v)

def enterPairs (index : Nat) (t : Table Value Value) :
    List Value → Except Cause (Table Value Value)
  | [] => .ok t
  | v :: vs =>
    match v.items? with
    | none => .error (.notPair index)
    | some [k, w] => do enterPairs (index + 1) (t.insert (← k.asKey) w) vs
    | some parts => .error (.pairLength index parts.length)

def toTable (v : Value) : Except Cause (Table Value Value) :=
  match v with
  | object entries => .ok (Table.ofList entries)
  | v => do enterPairs 0 Table.empty (← v.items)

end SceneEditor.Value
