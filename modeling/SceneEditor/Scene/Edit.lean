import SceneEditor.Notice
import SceneEditor.Property.Decode
import SceneEditor.Node.Document
import SceneEditor.Scene

/-!
Edits of a scene. Every edit either fails and leaves the scene as it was, or succeeds, counts one
revision and has one announcement to make. Then its remarks are put in writing, and this may still
fail.
-/

namespace SceneEditor

/-- What an attempt at an edit comes to: the answer or the cause of its failure, the scene
afterwards, the remarks for the log, and what is to be announced. -/
structure Edit (α : Type) where
  answer : Except Cause α
  scene : Scene
  notices : List Notice
  announcement : Option Announcement

namespace Edit

variable {α : Type}

def declined (s : Scene) (answer : α) (notices : List Notice) : Edit α :=
  ⟨.ok answer, s, notices, none⟩

def failed (s : Scene) (e : Cause) : Edit α := ⟨.error e, s, [], none⟩

def done (s : Scene) (arena : Arena) (answer : α) (notices : List Notice)
    (announcement : Announcement) : Edit α :=
  ⟨.ok answer, { s with arena := arena, revision := s.revision + 1 }, notices, some announcement⟩

/-- The edit with its remarks put in writing. If one of them cannot be, the scene stays as the edit
has left it, but there is no answer and nothing is announced any more. -/
def written (e : Edit α) : Edit α :=
  match e.notices.findSome? Notice.obstacle? with
  | none => e
  | some o => ⟨.error (.unwritten o), e.scene, [], none⟩

end Edit

namespace Scene

def maxAttempts : Nat := 16

def withNode (s : Scene) (id : String) (name : Value) (type : NodeType) (parent : String) :
    Arena :=
  (s.arena.modify parent (·.addChild id)).insert id (Node.create id name type (some parent))

/-- Adds a node after the other children of its parent. The answer is its identifier, or nothing if
there is no such parent, no such type, or no identifier to be had. -/
def addNode (s : Scene) (parent name type : Value) (ids : IdSupply) :
    Edit (Option String) × IdSupply :=
  match s.resolve parent with
  | .error e => (.failed s e, ids)
  | .ok none => (.declined s none [.noParent parent], ids)
  | .ok (some (parent, _)) =>
    match NodeType.parse? type with
    | none => (.declined s none [.unknownType type], ids)
    | some type =>
      match ids.fresh s.isTaken maxAttempts with
      | (.error e, ids) => (.failed s e, ids)
      | (.ok none, ids) => (.declined s none [.idsExhausted], ids)
      | (.ok (some id), ids) =>
        (.done s (s.withNode id name type parent) (some id) [.added type name id parent]
          (.nodeAdded id parent), ids)

def withoutNodes (s : Scene) (id : String) (parent : Option String) (doomed : List String) :
    Arena :=
  let unlinked := match parent with
    | none => s.arena
    | some p => s.arena.modify p (·.dropChild id)
  unlinked.filter fun e => !doomed.contains e.1

/-- Removes a node and all below it. The root stays, and so does what is not there. -/
def removeNode (s : Scene) (id : Value) : Edit Bool :=
  if id == .text s.root then .declined s false [.rootKept]
  else match s.resolve id with
    | .error e => .failed s e
    | .ok none => .declined s false [.nothingToRemove id]
    | .ok (some (id, n)) =>
      let doomed := s.arena.walk id
      .done { s with retired := doomed ++ s.retired } (s.withoutNodes id n.parent doomed) true
        [.removed id (doomed.length - 1)] (.nodeRemoved id doomed)

def withChange (s : Scene) (id : String) (change : Node → Node) : Arena :=
  s.arena.modify id change

/-- Writes a property. The answer is negative if there is no such node or the value is no
property. -/
def setProperty (s : Scene) (id key v : Value) : Edit Bool :=
  match s.resolve id with
  | .error e => .failed s e
  | .ok none => .declined s false [.nothingToSet id]
  | .ok (some (id, _)) =>
    match Property.decode v with
    | .error (.property e) => .declined s false [.notProperty id key e]
    | .error e => .failed s e
    | .ok p =>
      match key.asKey with
      | .error e => .failed s e
      | .ok key =>
        .done s (s.withChange id fun n => { n with properties := n.properties.insert key p })
          true [] (.nodeChanged id (some key))

def removeProperty (s : Scene) (id key : Value) : Edit Bool :=
  match s.resolve id with
  | .error e => .failed s e
  | .ok none => .declined s false []
  | .ok (some (id, n)) =>
    match key.asKey with
    | .error e => .failed s e
    | .ok key =>
      if n.properties.contains key then
        .done s (s.withChange id fun n => { n with properties := n.properties.erase key })
          true [] (.nodeChanged id (some key))
      else .declined s false []

def renameNode (s : Scene) (id name : Value) : Edit Bool :=
  match s.resolve id with
  | .error e => .failed s e
  | .ok none => .declined s false []
  | .ok (some (id, _)) =>
    .done s (s.withChange id fun n => { n with name := name }) true [] (.nodeChanged id none)

end Scene

end SceneEditor
