import SceneEditor.Value.Reading

/-!
Reading documents from text. Besides the standard notation the words for the infinities and for
not-a-number are understood. What is wrong is reported with the place where reading stopped; inside
this module a place is given by the text from there to the end.
-/

namespace SceneEditor.Document

open SceneEditor.Number

inductive Refusal where
  | at (error : SyntaxError) (rest : List Char)
  | cause (e : Cause)

abbrev Read (α : Type) := Except Refusal (α × List Char)

def isSpace (c : Char) : Bool := c == ' ' || c == '\t' || c == '\n' || c == '\r'

def skipSpace (cs : List Char) : List Char := cs.dropWhile isSpace

def simpleEscape? : Char → Option Char
  | '"' => some '"'
  | '\\' => some '\\'
  | '/' => some '/'
  | 'b' => some '\x08'
  | 'f' => some '\x0c'
  | 'n' => some '\n'
  | 'r' => some '\r'
  | 't' => some '\t'
  | _ => none

inductive Piece where
  | char (c : Char)
  | unit (n : Nat)

/-- The characters of a text. A high unit and the low one after it make one character; units without
their partner cannot be shown. -/
def assemble : List Piece → List Char
  | [] => []
  | .char c :: ps => c :: assemble ps
  | .unit high :: .unit low :: ps =>
    if 0xd800 ≤ high ∧ high < 0xdc00 ∧ 0xdc00 ≤ low ∧ low < 0xe000 then
      Char.ofNat (0x10000 + (high - 0xd800) * 0x400 + (low - 0xdc00)) :: assemble ps
    else loneUnit high :: assemble (.unit low :: ps)
  | .unit n :: ps => loneUnit n :: assemble ps
where
  loneUnit (n : Nat) : Char := if 0xd800 ≤ n ∧ n < 0xe000 then '\ufffd' else Char.ofNat n

def consPiece (p : Piece) (r : Read (List Piece)) : Read (List Piece) :=
  r.map fun (ps, rest) => (p :: ps, rest)

/-- The pieces up to the closing quote. `opening` is the place of the opening one. The digits of a
unit are never the last characters of the text. -/
def readPieces (opening : List Char) : List Char → Read (List Piece)
  | [] => .error (.at .openString opening)
  | '"' :: rest => .ok ([], rest)
  | ['\\'] => .error (.at .openString opening)
  | '\\' :: 'u' :: a :: b :: c :: d :: e :: rest =>
    match Text.hexValue? [a, b, c, d] with
    | some n => consPiece (.unit n) (readPieces opening (e :: rest))
    | none => .error (.at .unicodeEscape ('u' :: a :: b :: c :: d :: e :: rest))
  | '\\' :: 'u' :: rest => .error (.at .unicodeEscape ('u' :: rest))
  | '\\' :: c :: rest =>
    match simpleEscape? c with
    | some d => consPiece (.char d) (readPieces opening rest)
    | none => .error (.at .escape ('\\' :: c :: rest))
  | c :: rest =>
    if c < ' ' then .error (.at .control (c :: rest))
    else consPiece (.char c) (readPieces opening rest)

def readText (opening cs : List Char) : Read String :=
  (readPieces opening cs).map fun (ps, rest) => (String.ofList (assemble ps), rest)

def wholePart? : List Char → Option (List Char × List Char)
  | '0' :: rest => some (['0'], rest)
  | c :: rest => if c.isDigit then some ((c :: rest).span Char.isDigit) else none
  | [] => none

def fractionPart (cs : List Char) : List Char × List Char :=
  match cs with
  | '.' :: rest =>
    match rest.span Char.isDigit with
    | ([], _) => ([], cs)
    | found => found
  | _ => ([], cs)

def exponentPart (cs : List Char) : Option Int × List Char :=
  match cs with
  | c :: rest =>
    if c = 'e' ∨ c = 'E' then
      let (negative, digits) := Text.signed rest
      match digits.span Char.isDigit with
      | ([], _) => (none, cs)
      | (digits, rest) =>
        (some (if negative then -(Text.decimalValue digits : Int) else Text.decimalValue digits),
          rest)
    else (none, cs)
  | [] => (none, cs)

def readNumber (negative : Bool) (place cs : List Char) : Read Value :=
  match wholePart? cs with
  | none => .error (.at .value place)
  | some (whole, rest) =>
    let (fraction, rest) := fractionPart rest
    let (exponent, rest) := exponentPart rest
    if fraction.isEmpty && exponent.isNone then
      match Value.wholeOfDigits negative whole with
      | .ok i => .ok (.whole i, rest)
      | .error e => .error (.cause e)
    else
      let x : Decimal :=
        ⟨Text.decimalValue (whole ++ fraction), exponent.getD 0 - fraction.length⟩
      .ok (.number (Binary.ofDecimal negative x), rest)

mutual

/-- One value at the front of a text. The fuel bounds the number of steps. -/
def readValue : Nat → List Char → Read Value
  | 0, cs => .error (.at .value cs)
  | fuel + 1, cs =>
    match cs with
    | '"' :: rest => (readText cs rest).map fun (s, rest) => (.text s, rest)
    | '\x7b' :: rest =>
      match skipSpace rest with
      | '\x7d' :: rest => .ok (.object [], rest)
      | rest => (readEntries fuel .empty rest).map fun (t, rest) => (.object t.entries, rest)
    | '[' :: rest =>
      match skipSpace rest with
      | ']' :: rest => .ok (.list [], rest)
      | rest => (readItems fuel rest).map fun (vs, rest) => (.list vs, rest)
    | 'n' :: 'u' :: 'l' :: 'l' :: rest => .ok (.null, rest)
    | 't' :: 'r' :: 'u' :: 'e' :: rest => .ok (.flag true, rest)
    | 'f' :: 'a' :: 'l' :: 's' :: 'e' :: rest => .ok (.flag false, rest)
    | 'N' :: 'a' :: 'N' :: rest => .ok (.number .nan, rest)
    | 'I' :: 'n' :: 'f' :: 'i' :: 'n' :: 'i' :: 't' :: 'y' :: rest =>
      .ok (.number (.infinity false), rest)
    | '-' :: 'I' :: 'n' :: 'f' :: 'i' :: 'n' :: 'i' :: 't' :: 'y' :: rest =>
      .ok (.number (.infinity true), rest)
    | '-' :: rest => readNumber true cs rest
    | cs => readNumber false cs cs

def readItems : Nat → List Char → Read (List Value)
  | 0, cs => .error (.at .value cs)
  | fuel + 1, cs =>
    match readValue fuel cs with
    | .error r => .error r
    | .ok (v, rest) =>
      match skipSpace rest with
      | ']' :: rest => .ok ([v], rest)
      | ',' :: rest =>
        (readItems fuel (skipSpace rest)).map fun (vs, rest) => (v :: vs, rest)
      | rest => .error (.at .comma rest)

/-- The entries of an object up to the closing brace. Of two entries with one key the later value
takes the place of the earlier. -/
def readEntries : Nat → Table Value Value → List Char → Read (Table Value Value)
  | 0, _, cs => .error (.at .value cs)
  | fuel + 1, table, cs =>
    match cs with
    | '"' :: rest =>
      match readText cs rest with
      | .error r => .error r
      | .ok (key, rest) =>
        match skipSpace rest with
        | ':' :: rest =>
          match readValue fuel (skipSpace rest) with
          | .error r => .error r
          | .ok (v, rest) =>
            let table := table.insert (.text key) v
            match skipSpace rest with
            | '\x7d' :: rest => .ok (table, rest)
            | ',' :: rest => readEntries fuel table (skipSpace rest)
            | rest => .error (.at .comma rest)
        | rest => .error (.at .colon rest)
    | cs => .error (.at .propertyName cs)

end

def place (cs : List Char) (position : Nat) : Nat × Nat :=
  let before := cs.take position
  (before.count '\n' + 1, (before.reverse.takeWhile (· != '\n')).length + 1)

def Refusal.toCause (cs : List Char) : Refusal → Cause
  | cause e => e
  | .at error rest =>
    let position := cs.length - rest.length
    let (line, column) := place cs position
    .badDocument error line column position

def parse (s : String) : Except Cause Value :=
  let cs := s.toList
  match cs with
  | '\ufeff' :: _ => .error (Refusal.toCause cs (.at .byteOrderMark cs))
  | cs =>
    match readValue (cs.length + 1) (skipSpace cs) with
    | .error r => .error (r.toCause cs)
    | .ok (v, rest) =>
      match skipSpace rest with
      | [] => .ok v
      | rest => .error (Refusal.toCause cs (.at .trailing rest))

end SceneEditor.Document
