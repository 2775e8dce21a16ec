import SceneEditor.Proofs.Effect
import SceneEditor.Script

namespace SceneEditor

namespace Script

open Effect

variable {α β : Type}

def announce (deliver : Delivery) (answer : Except Cause α) : Option Announcement → Action α
  | none => answer
  | some a => do
    deliver a.signal a.arguments
    answer

theorem runOn_commit (deliver : Delivery)
    (edit : Session Observer → Session.Committed Observer α) (w : Workspace) :
    (commit deliver edit).runOn w =
      (announce deliver (edit w.session).1 (edit w.session).2.1).runOn
        { w with session := (edit w.session).2.2 } := by
  simp only [commit, runOn_bind, runOn_get, runOn_modify]
  rcases edit w.session with ⟨answer, _ | a, session⟩
  · rfl
  · rfl

theorem runOn_announce_map (deliver : Delivery) (answer : Except Cause α) (f : α → β)
    (announcement : Option Announcement) (w : Workspace) :
    runOn (announce deliver answer announcement >>= fun a => pure (f a)) w =
      (announce deliver (answer.map f) announcement).runOn w := by
  cases announcement with
  | none => cases answer <;> rfl
  | some a =>
    simp only [announce, runOn_bind, runOn_lift]
    rcases (deliver a.signal a.arguments).runOn w with ⟨_ | _, _⟩
    · rfl
    · cases answer <;> rfl

theorem runOn_commit_map (deliver : Delivery)
    (edit : Session Observer → Session.Committed Observer α) (f : α → β) (w : Workspace) :
    runOn (commit deliver edit >>= fun a => pure (f a)) w =
      (announce deliver ((edit w.session).1.map f) (edit w.session).2.1).runOn
        { w with session := (edit w.session).2.2 } := by
  rw [← runOn_announce_map, runOn_bind, runOn_bind, runOn_commit]

theorem runOn_deliver_succ (depth : Nat) (signal : Signal) (arguments : List Argument)
    (w : Workspace) : (deliver (depth + 1) signal arguments).runOn w =
      (Bridge.callEach (call (deliver depth) arguments) (report signal arguments)
        (w.session.bridge.observers signal)).runOn w := rfl

end Script

end SceneEditor
