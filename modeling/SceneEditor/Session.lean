import SceneEditor.Bridge
import SceneEditor.Files
import SceneEditor.Scene.Document
import SceneEditor.Scene.Edit
import SceneEditor.Settings

/-!
Editing sessions: one current scene at a time, its observers, and the last program, which is kept
until the scene changes. All scenes of a session keep their state, so that one that was replaced
can become current again.
-/

namespace SceneEditor

structure CachedProgram where
  scene : Nat
  revision : Nat
  code : String

/-- A session whose observers are of type `η`. Scenes are known by their place in the list. -/
structure Session (η : Type) where
  settings : Settings
  emitters : Registry
  ids : IdSupply
  scenes : List Scene
  current : Nat
  current_lt : current < scenes.length
  cache : Option CachedProgram
  bridge : Bridge η
  snapshots : Nat
  log : List Notice

namespace Session

variable {η : Type}

def scene (s : Session η) : Scene := s.scenes.get ⟨s.current, s.current_lt⟩

def note (s : Session η) (notices : List Notice) : Session η :=
  { s with log := s.log ++ notices }

def withScene (s : Session η) (scene : Scene) : Session η :=
  { s with
    scenes := s.scenes.set s.current scene
    current_lt := by rw [List.length_set]; exact s.current_lt }

def enter (s : Session η) (scene : Scene) : Session η :=
  { s with
    scenes := s.scenes ++ [scene]
    current := s.scenes.length
    current_lt := by simp }

def switchTo (s : Session η) (handle : Nat) : Session η :=
  if h : handle < s.scenes.length then { s with current := handle, current_lt := h } else s

def start (settings : Settings) (ids : IdSupply) : Except Cause (Session η) :=
  match Scene.create settings.sceneName settings.rootName true ids with
  | (.error e, _) => .error e
  | (.ok scene, ids) => .ok {
      settings := settings
      emitters := .builtin
      ids := ids
      scenes := [scene]
      current := 0
      current_lt := by simp
      cache := none
      bridge := .empty
      snapshots := 0
      log := [] }

/-- Puts a fresh scene in the place of the current one. A name that counts as absent gives way to
the name of the settings. -/
def newScene (s : Session η) (name : Value) : Except Cause Unit × Session η :=
  let name := if name.isPresent then name else s.settings.sceneName
  match Scene.create name s.settings.rootName true s.ids with
  | (.error e, ids) => (.error e, { s with ids := ids })
  | (.ok scene, ids) =>
    (.ok (), { ({ s with ids := ids, cache := none }).enter scene with
      log := s.log ++ [.newScene name] })

def snapshot (s : Session η) : Snapshot × Session η :=
  (s.scene.snapshot s.snapshots, { s with snapshots := s.snapshots + 1 })

def generate (s : Session η) (layout : Layout) (snapshot : Snapshot) : String × Session η :=
  (Program.generate s.emitters layout snapshot,
    s.note [.generated (Program.statements s.emitters layout snapshot).length snapshot.name
      snapshot.revision])

def isCurrent (s : Session η) (c : CachedProgram) : Bool :=
  c.scene = s.current && c.revision = s.scene.revision

def cached? (s : Session η) : Option String :=
  (s.cache.filter s.isCurrent).map (·.code)

def generateCode (s : Session η) : String × Session η :=
  match s.cached? with
  | some code => (code, s)
  | none =>
    let (snapshot, s) := s.snapshot
    let (code, s) := s.generate s.settings.layout snapshot
    (code, { s with cache := some ⟨s.current, s.scene.revision, code⟩ })

def enterDocument (s : Session η) (v : Value) : Except Cause Scene × Session η :=
  match Scene.ofDocument v s.settings.rootName true s.ids with
  | (.error e, ids) => (.error e, { s with ids := ids })
  | (.ok scene, ids) => (.ok scene, { s with ids := ids }.enter scene)

def load (s : Session η) (files : Files) (path : String) : Except Cause Unit × Session η :=
  match files.readDocument path with
  | .error e => (.error e, s)
  | .ok v =>
    match s.enterDocument v with
    | (.error e, s) => (.error e, s)
    | (.ok scene, s) =>
      (.ok (), { s with
        cache := none
        log := s.log ++ [.loaded scene.name scene.count path] })

def save (s : Session η) (files : Files) (path : String) :
    Except Cause Unit × Files × Session η :=
  match files.writeDocument path s.scene.toDocument with
  | (.error e, files) => (.error e, files, s)
  | (.ok (), files) => (.ok (), files, s.note [.saved s.scene.name path])

abbrev Committed (η α : Type) := Except Cause α × Option Announcement × Session η

/-- Carries out an edit of the current scene and puts its remarks in the log. Of an edit that
succeeded it remains to be announced what the scene announces, if it is bound. -/
def commit {α : Type} (s : Session η) (e : Edit α) : Committed η α :=
  let e := e.written
  (e.answer, if e.scene.bound then e.announcement else none,
    (s.withScene e.scene).note e.notices)

def addNode (s : Session η) (parent name type : Value) : Committed η (Option String) :=
  let (e, ids) := s.scene.addNode parent name type s.ids
  { s with ids := ids }.commit e

end Session

end SceneEditor
