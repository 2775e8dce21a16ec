import SceneEditor.Document.Printer
import SceneEditor.Document.Reader

namespace SceneEditor

structure Files where
  table : Table String (Except Text.Utf8.Fault String)

namespace Files

def empty : Files := ⟨.empty⟩

/-- The name of the file at a path. Steps that stay in the directory do not count, and a path that
leads elsewhere has no file. -/
def fileName (path : String) : Except Cause String :=
  match (path.splitOn "/").filter fun part => part ≠ "" ∧ part ≠ "." with
  | [name] => if path.startsWith "/" then .error (.missingFile path) else .ok name
  | _ => .error (.missingFile path)

def write (fs : Files) (path : String) (content : Except Text.Utf8.Fault String) :
    Except Cause Files := do
  return ⟨fs.table.insert (← fileName path) content⟩

def read (fs : Files) (path : String) : Except Cause String := do
  match fs.table.find? (← fileName path) with
  | some (.ok s) => return s
  | some (.error fault) => .error (.badEncoding fault)
  | none => .error (.missingFile path)

def unifyLines : List Char → List Char
  | '\r' :: '\n' :: cs => '\n' :: unifyLines cs
  | '\r' :: cs => '\n' :: unifyLines cs
  | c :: cs => c :: unifyLines cs
  | [] => []

def readDocument (fs : Files) (path : String) : Except Cause Value := do
  Document.parse (String.ofList (unifyLines (← fs.read path).toList))

/-- Writes a document. When the document cannot be written to its end, the file keeps the part that
could. -/
def writeDocument (fs : Files) (path : String) (v : Value) : Except Cause Unit × Files :=
  let draft := Document.print 0 v
  match fs.write path (.ok draft.text) with
  | .error e => (.error e, fs)
  | .ok fs =>
    match draft.fault with
    | some e => (.error e, fs)
    | none => (.ok (), fs)

end Files

end SceneEditor
