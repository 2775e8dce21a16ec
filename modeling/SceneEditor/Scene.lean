import SceneEditor.Arena.Walk
import SceneEditor.Cause
import SceneEditor.Value.Reading

namespace SceneEditor

/-- Where new identifiers come from: the answer to each request by its number, which is an
identifier or a refusal in words, and how many requests were made. -/
structure IdSupply where
  answer : Nat → Except String String
  requests : Nat

namespace IdSupply

def ofList (ids : List String) (rest : Nat → Except String String) : IdSupply where
  answer k := match ids[k]? with
    | some id => .ok id
    | none => rest (k - ids.length)
  requests := 0

def numbered (k : Nat) : Except String String := .ok ("n" ++ Value.wholeText (k + 1))

/-- Asks for an identifier. A refused request counts as well. -/
def next (ids : IdSupply) : Except Cause String × IdSupply :=
  ((ids.answer ids.requests).mapError .refused, { ids with requests := ids.requests + 1 })

def fresh (taken : String → Bool) : Nat → IdSupply → Except Cause (Option String) × IdSupply
  | 0, ids => (.ok none, ids)
  | attempts + 1, ids =>
    match ids.next with
    | (.error e, ids) => (.error e, ids)
    | (.ok id, ids) => if taken id then fresh taken attempts ids else (.ok (some id), ids)

end IdSupply

/-- A scene. One that is not bound makes its edits in silence. -/
structure Scene where
  name : Value
  root : String
  arena : Arena
  retired : List String
  revision : Nat
  bound : Bool

namespace Scene

def single (name : Value) (root : String) (rootName : Value) (bound : Bool) : Scene where
  name := name
  root := root
  arena := Table.empty.insert root (Node.create root rootName .container none)
  retired := []
  revision := 0
  bound := bound

def create (name rootName : Value) (bound : Bool) (ids : IdSupply) :
    Except Cause Scene × IdSupply :=
  match ids.next with
  | (.error e, ids) => (.error e, ids)
  | (.ok root, ids) => (.ok (single name root rootName bound), ids)

def count (s : Scene) : Nat := s.arena.size

def shown (s : Scene) : String :=
  "Scene(name=" ++ s.name.shown ++ ", nodes=" ++ Value.wholeText s.count ++ ", revision=" ++
    Value.wholeText s.revision ++ ")"

/-- The identifier that a value is, provided that a node has it. Values that cannot be keys are
refused. -/
def resolve (s : Scene) (v : Value) : Except Cause (Option (String × Node)) := do
  match ← v.asKey with
  | .text id => return (s.arena.find? id).map (id, ·)
  | _ => return none

def isTaken (s : Scene) (id : String) : Bool := s.arena.contains id || s.retired.contains id

end Scene

end SceneEditor
