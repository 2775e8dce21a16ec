import SceneEditor.Proofs.Scene.WellFormed
import SceneEditor.Proofs.Script.Action

namespace SceneEditor

open Script Effect

def Answer.reply : Answer → Reply
  | id o => .id o
  | flag b => .flag b

def Request.command : Request → Command
  | add parent name type => .add (.value parent) (.value name) (.value type)
  | remove id => .remove (.value id)
  | set id key v => .set (.value id) (.value key) (.value v)
  | unset id key => .unset (.value id) (.value key)
  | rename id name => .rename (.value id) (.value name)

def Workspace.edit (w : Workspace) (r : Request) : Edit Answer :=
  (r.perform w.session.scene w.session.ids).1

/-- The workspace with the edit carried out, before anything is announced. -/
def Workspace.edited (w : Workspace) (r : Request) : Workspace :=
  { w with
    session := (({ w.session with ids := (r.perform w.session.scene w.session.ids).2 }).withScene
      (w.edit r).written.scene).note (w.edit r).written.notices }

def Edit.announced (e : Edit Answer) : Option Announcement :=
  if e.scene.bound then e.announcement else none

theorem Session.scene_withScene {η : Type} (s : Session η) (t : Scene) :
    (s.withScene t).scene = t := by
  simp [scene, withScene]

theorem Session.scenes_withScene {η : Type} (s : Session η) :
    (s.withScene s.scene).scenes = s.scenes := by
  simp [scene, withScene]

theorem Workspace.scene_edited (w : Workspace) (r : Request) :
    (w.edited r).session.scene = (w.edit r).scene :=
  (Session.scene_withScene _ _).trans (Edit.scene_written _)

theorem runOn_command (deliver : Delivery) (arguments : List Argument) (r : Request)
    (w : Workspace) : (perform deliver arguments r.command).runOn w =
      (announce deliver ((w.edit r).written.answer.map Answer.reply)
        (w.edit r).written.announced).runOn (w.edited r) := by
  have hmap {α : Type} (x : Except Cause α) (f : α → Answer) :
      (x.map f).map Answer.reply = x.map fun a => (f a).reply := by cases x <;> rfl
  -- What is left of a command once its operands are values is to commit one edit.
  have hreply {α : Type} (edit : Session Observer → Session.Committed Observer α) (f : α → Reply) :=
    (runOn_bind _ _ w).symm.trans (runOn_commit_map deliver edit f w)
  simp only [Workspace.edited, Workspace.edit, Edit.announced]
  cases r <;>
    simp only [perform, Request.command, runOn_bind, runOn_get, runOn_lift, Workspace.operand,
      Request.perform, Edit.written_map] <;>
    simp only [Edit.map, hmap]
  case add parent name type => exact hreply (·.addNode parent name type) .id
  case remove id => exact hreply (fun s => s.commit (s.scene.removeNode id)) .flag
  case set id key v => exact hreply (fun s => s.commit (s.scene.setProperty id key v)) .flag
  case unset id key => exact hreply (fun s => s.commit (s.scene.removeProperty id key)) .flag
  case rename id name => exact hreply (fun s => s.commit (s.scene.renameNode id name)) .flag

namespace Edit

variable {e : Edit Answer} {s : Scene}

theorem Rejected.written (h : e.Rejected s) : e.written.Rejected s := by
  unfold Edit.written
  split
  · exact h
  · exact ⟨rfl, h.2.1, rfl⟩

theorem Accepted.written_of_none (h : e.Accepted s none) : e.written = e := by
  rw [written, h.2.1]

theorem Accepted.written_of_some {o : Obstacle} (h : e.Accepted s (some o)) :
    e.written = ⟨.error (.unwritten o), e.scene, [], none⟩ :=
  written_of_obstacle h.2.1

end Edit

theorem Request.succeeded_written {r : Request} (h : r.remarkObstacle? = none) (s : Scene)
    (ids : IdSupply) :
    (r.perform s ids).1.written.succeeded = (r.perform s ids).1.succeeded := by
  rcases r.perform_cases s ids with hrejected | haccepted
  · rw [hrejected.1, hrejected.written.1]
  · rw [h] at haccepted
    rw [haccepted.written_of_none]

theorem Scene.revision_after_written {s : Scene} {rs : List Request}
    (h : ∀ r ∈ rs, r.remarkObstacle? = none) (ids : IdSupply) : (s.after ids rs).revision =
      s.revision + ((s.edits ids rs).filter (·.written.succeeded)).length := by
  rw [revision_after]
  congr 2
  induction rs generalizing s ids with
  | nil => rfl
  | cons r rs ih =>
    rw [edits, List.filter_cons, List.filter_cons,
      Request.succeeded_written (h r List.mem_cons_self),
      ih (fun r hr => h r (List.mem_cons_of_mem _ hr))]

namespace Workspace

variable {w : Workspace} {r : Request}

theorem edit_rejected (h : (w.edit r).succeeded = false) :
    (w.edit r).written.announced = none ∧ (w.edited r).session.scenes = w.session.scenes := by
  rcases r.perform_cases w.session.scene w.session.ids with hrejected | haccepted
  · obtain ⟨-, hs, ha⟩ := hrejected.written
    have hscene : (w.edit r).written.scene = w.session.scene := hs
    refine ⟨?_, ?_⟩
    · rw [Edit.announced, show (w.edit r).written.announcement = none from ha, ite_self]
    · simp only [edited, hscene]
      exact Session.scenes_withScene w.session
  · exact absurd (h.symm.trans haccepted.1) Bool.false_ne_true

theorem edit_accepted (h : (w.edit r).succeeded = true) :
    (w.edit r).Accepted w.session.scene r.remarkObstacle? := by
  rcases r.perform_cases w.session.scene w.session.ids with ⟨hf, _⟩ | haccepted
  · exact absurd (hf.symm.trans h) Bool.false_ne_true
  · exact haccepted

theorem scenes_edited (w : Workspace) (r : Request) {handle : Nat}
    (h : handle ≠ w.session.current) :
    (w.edited r).session.scenes[handle]? = w.session.scenes[handle]? :=
  List.getElem?_set_ne h.symm

end Workspace

theorem runOn_command_of_some {w : Workspace} {r : Request} {o : Obstacle}
    (h : (w.edit r).Accepted w.session.scene (some o)) (deliver : Delivery)
    (arguments : List Argument) :
    (perform deliver arguments r.command).runOn w = (.error (.unwritten o), w.edited r) := by
  have hannounced : (w.edit r).written.announced = none := by
    rw [h.written_of_some, Edit.announced, ite_self]
  rw [runOn_command, hannounced, h.written_of_some]
  rfl

/-- A request that fails leaves all scenes as they were and calls nobody. One that succeeds makes one
step, counts one revision, and after that, if the scene is bound, has one signal delivered. Between
the two the step is put in writing. The one remark that can fail is that on a node with a name that
cannot be written: then the node is there, and nobody is called. -/
theorem requests_all_or_nothing (deliver : Delivery) (arguments : List Argument) (w : Workspace)
    (r : Request) {s : Scene} (hs : s.Built) (ids : IdSupply) (rs : List Request) :
    let e := w.edit r
    let run := (perform deliver arguments r.command).runOn w
    (e.succeeded = false → (w.edited r).session.scenes = w.session.scenes ∧
      run = (e.written.answer.map Answer.reply, w.edited r)) ∧
    (e.succeeded = true → ∃ answer a,
      w.session.scene.Step answer a (w.edited r).session.scene ∧
      (w.edited r).session.scene.revision = w.session.scene.revision + 1 ∧
      (∀ handle ≠ w.session.current,
        (w.edited r).session.scenes[handle]? = w.session.scenes[handle]?) ∧
      (r.remarkObstacle? = none → run = if w.session.scene.bound then
          runOn (do deliver a.signal a.arguments; return answer.reply) (w.edited r)
        else (.ok answer.reply, w.edited r)) ∧
      ∀ o, r.remarkObstacle? = some o → run = (.error (.unwritten o), w.edited r)) ∧
    (s.after ids rs).revision = ((s.edits ids rs).filter Edit.succeeded).length ∧
    ((∀ r ∈ rs, r.remarkObstacle? = none) → (s.after ids rs).revision =
      ((s.edits ids rs).filter (·.written.succeeded)).length) := by
  intro e run
  refine ⟨fun hf => ?_, fun hs => ?_, ?_, fun hrs => ?_⟩
  · obtain ⟨hnone, hscenes⟩ := Workspace.edit_rejected hf
    refine ⟨hscenes, ?_⟩
    simp only [run, runOn_command, hnone]
    rfl
  · have haccepted : e.Accepted w.session.scene r.remarkObstacle? := Workspace.edit_accepted hs
    obtain ⟨-, -, answer, a, hanswer, ha, ht⟩ := id haccepted
    have hscene : e.scene = (w.edited r).session.scene := (w.scene_edited r).symm
    refine ⟨answer, a, hscene ▸ ht, hscene ▸ ht.revision_eq, fun _ => w.scenes_edited r, ?_, ?_⟩
    · intro hnone
      rw [hnone] at haccepted
      have hannounced : e.announced = if w.session.scene.bound then some a else none := by
        rw [Edit.announced, ht.bound_eq, ha]
      simp only [run, runOn_command]
      rw [show (w.edit r).written = e from haccepted.written_of_none, hannounced, hanswer]
      cases w.session.scene.bound <;> rfl
    · intro o ho
      rw [ho] at haccepted
      exact runOn_command_of_some haccepted deliver arguments
  · rw [Scene.revision_after, hs.revision_eq_zero, Nat.zero_add]
  · rw [Scene.revision_after_written hrs, hs.revision_eq_zero, Nat.zero_add]

theorem requests_with_repeated_id :
    let ids : IdSupply := ⟨fun _ => .ok "r", 0⟩
    let w := (Workspace.start {} ids).toOption.get rfl
    let add : Request := .add (.text "r") (.text "A") (.text "Sprite")
    let rename : Request := .rename (.text "r") (.text "B")
    w.session.scene.Built ∧ (w.edit add).succeeded = false ∧
      (∀ deliver : Delivery, (perform deliver [] add.command).runOn w =
        ((w.edit add).written.answer.map Answer.reply, w.edited add)) ∧
      (w.edit rename).succeeded = true ∧
      (∀ deliver : Delivery, ∃ answer a,
        w.session.scene.Step answer a (w.edited rename).session.scene ∧
        (perform deliver [] rename.command).runOn w =
          runOn (do deliver a.signal a.arguments; return answer.reply) (w.edited rename)) ∧
      (w.session.scene.after w.session.ids [add, rename]).revision = 1 := by
  intro ids w add rename
  have hcreated :
      (Scene.create (.text "Untitled") (.text "Root") true ids).1 = .ok w.session.scene := rfl
  have hbuilt : w.session.scene.Built := .created hcreated
  have hall (deliver : Delivery) (r : Request) :=
    requests_all_or_nothing deliver [] w r hbuilt w.session.ids [add, rename]
  refine ⟨hbuilt, rfl, ?_, rfl, ?_, ?_⟩
  · intro deliver
    exact ((hall deliver add).1 rfl).2
  · intro deliver
    obtain ⟨answer, a, hstep, _, _, hrun, _⟩ := (hall deliver rename).2.1 rfl
    exact ⟨answer, a, hstep, hrun rfl⟩
  · exact (hall (fun _ _ => pure ()) rename).2.2.1

/-- A node with an overlong number for a name is refused, and is there all the same. -/
theorem add_fails_of_overlong :
    let ids : IdSupply := ⟨fun k => .ok (if k = 0 then "r" else "a"), 0⟩
    let w := (Workspace.start {} ids).toOption.get rfl
    let add : Request := .add (.text "r") .overlong (.text "Sprite")
    w.session.scene.Built ∧ ∀ deliver : Delivery, ∃ v : Workspace,
      (perform deliver [] add.command).runOn w = (.error (.unwritten .digits), v) ∧
        v.session.scene.revision = w.session.scene.revision + 1 ∧
        w.session.scene.arena.contains "a" = false ∧ v.session.scene.arena.contains "a" = true := by
  intro ids w add
  have hcreated :
      (Scene.create (.text "Untitled") (.text "Root") true ids).1 = .ok w.session.scene := rfl
  refine ⟨.created hcreated, fun deliver => ?_⟩
  have haccepted := Workspace.edit_accepted (show (w.edit add).succeeded = true from rfl)
  rw [show add.remarkObstacle? = some .digits from
    Value.obstacle?_overlong Value.maxNesting] at haccepted
  refine ⟨w.edited add, runOn_command_of_some haccepted deliver [], ?_, rfl, ?_⟩
  · rw [w.scene_edited add]
    rfl
  · rw [w.scene_edited add]
    rfl

end SceneEditor
