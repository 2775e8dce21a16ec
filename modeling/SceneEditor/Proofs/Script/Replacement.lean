import Mathlib
import SceneEditor.Proofs.Scene.Document
import SceneEditor.Proofs.Script.Atomicity
import SceneEditor.Proofs.Session.Cache

namespace SceneEditor

namespace Session

variable {η : Type} {s t : Session η} {scene : Scene}

/-- A new scene is in the place of the current one. It is a tree that has seen no edit, it tells the
observers of the session of those to come, and no program is kept. -/
structure Replaces (t s : Session η) (scene : Scene) : Prop where
  scene_eq : t.scene = scene
  scenes_eq : t.scenes = s.scenes ++ [scene]
  current_eq : t.current = s.scenes.length
  wellFormed : scene.WellFormed
  revision_eq : scene.revision = 0
  retired_eq : scene.retired = []
  bound_eq : scene.bound = true
  bridge_eq : t.bridge = s.bridge
  cache_eq : t.cache = none
  rest_eq : t.settings = s.settings ∧ t.emitters = s.emitters ∧ t.snapshots = s.snapshots

end Session

open Script Effect

namespace Session.Replaces

variable {s : Session Observer} {scene : Scene} {w : Workspace}

theorem scenes_current (h : s.Replaces w.session scene) : s.scenes[s.current]? = some scene := by
  rw [Session.scenes_current, h.scene_eq]

theorem announced (h : s.Replaces w.session scene) {r : Request}
    (hr : (({ w with session := s } : Workspace).edit r).succeeded = true) :
    ∃ a, (({ w with session := s } : Workspace).edit r).announced = some a ∧
      (r.remarkObstacle? = none →
        (({ w with session := s } : Workspace).edit r).written.announced = some a) := by
  have haccepted := Workspace.edit_accepted hr
  obtain ⟨-, -, _, a, -, ha, ht⟩ := id haccepted
  have hbound : s.scene.bound = true := by rw [h.scene_eq, h.bound_eq]
  have hannounced : (({ w with session := s } : Workspace).edit r).announced = some a := by
    rw [Edit.announced, ht.bound_eq, if_pos hbound, ha]
  refine ⟨a, hannounced, fun hname => ?_⟩
  rw [hname] at haccepted
  rw [haccepted.written_of_none, hannounced]

end Session.Replaces

section Commands

variable {w : Workspace} {path : String} {scene : Scene} (arguments : List Argument)

end Commands

namespace Session.Replaces

variable {s : Session Observer} {scene : Scene} {w : Workspace}

end Session.Replaces

end SceneEditor
