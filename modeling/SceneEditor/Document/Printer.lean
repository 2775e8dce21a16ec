import SceneEditor.Cause

namespace SceneEditor.Document

open SceneEditor.Number

structure Draft where
  text : String
  fault : Option Cause

namespace Draft

def ofText (s : String) : Draft := ⟨s, none⟩

def halt (e : Cause) : Draft := ⟨"", some e⟩

def append (a b : Draft) : Draft :=
  match a.fault with
  | some e => ⟨a.text, some e⟩
  | none => ⟨a.text ++ b.text, b.fault⟩

instance : Append Draft := ⟨append⟩

end Draft

def unitEscape (n : Nat) : List Char := '\\' :: 'u' :: Text.hexDigits 4 n

/-- One character between quotes. Characters past the first plane are written as two units. -/
def charText (c : Char) : List Char :=
  match c with
  | '"' => ['\\', '"']
  | '\\' => ['\\', '\\']
  | '\n' => ['\\', 'n']
  | '\r' => ['\\', 'r']
  | '\t' => ['\\', 't']
  | '\x08' => ['\\', 'b']
  | '\x0c' => ['\\', 'f']
  | c =>
    if ' ' ≤ c ∧ c ≤ '~' then [c]
    else if c.toNat < 0x10000 then unitEscape c.toNat
    else
      let n := c.toNat - 0x10000
      unitEscape (0xd800 + n / 0x400) ++ unitEscape (0xdc00 + n % 0x400)

def textText (s : String) : String :=
  String.ofList ('"' :: s.toList.flatMap charText ++ ['"'])

def numberText (x : Double) : String :=
  match x with
  | .nan => "NaN"
  | .infinity negative => if negative then "-Infinity" else "Infinity"
  | x => x.shown

def keyText? : Value → Option String
  | .text s => some s
  | .null => some "null"
  | .flag b => some (if b then "true" else "false")
  | .whole i => some (Value.wholeText i)
  | .number x => some (numberText x)
  | _ => none

def newline (level : Nat) : Draft :=
  .ofText (String.ofList ('\n' :: List.replicate (2 * level) ' '))

mutual

/-- A value whose contents stand one level deeper than `level`. -/
def print (level : Nat) : Value → Draft
  | .null => .ofText "null"
  | .flag b => .ofText (if b then "true" else "false")
  | .whole i => .ofText (Value.wholeText i)
  | .number x => .ofText (numberText x)
  | .text s => .ofText (textText s)
  | .list [] => .ofText "[]"
  | .list (v :: vs) =>
    .ofText "[" ++ newline (level + 1) ++ print (level + 1) v ++ printItems (level + 1) vs ++
      newline level ++ .ofText "]"
  | .object [] => .ofText "\x7b\x7d"
  | .object (e :: es) =>
    .ofText "\x7b" ++ newline (level + 1) ++ printEntry (level + 1) (.ofText "") e ++
      printEntries (level + 1) es ++ newline level ++ .ofText "\x7d"
  | v => .halt (.unwritable v)
termination_by structural v => v

def printItems (level : Nat) : List Value → Draft
  | [] => .ofText ""
  | v :: vs => .ofText "," ++ newline level ++ print level v ++ printItems level vs
termination_by structural vs => vs

def printEntries (level : Nat) : List (Value × Value) → Draft
  | [] => .ofText ""
  | e :: es => printEntry level (.ofText "," ++ newline level) e ++ printEntries level es
termination_by structural es => es

/-- An entry after what separates it from the one before. A key that cannot be written ends the
draft in front of the separator. -/
def printEntry (level : Nat) (separator : Draft) : Value × Value → Draft
  | (k, v) =>
    match keyText? k with
    | none => .halt (.unwritableKey k)
    | some s => separator ++ .ofText (textText s ++ ": ") ++ print level v
termination_by structural e => e

end

end SceneEditor.Document
