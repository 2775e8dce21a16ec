import SceneEditor.Proofs.Bridge.Moves
import SceneEditor.Proofs.Script.Action

namespace SceneEditor

namespace Session

variable {η : Type} (s : Session η)

theorem bridge_newScene (name : Value) : (s.newScene name).2.bridge = s.bridge := by
  simp only [newScene]
  rcases Scene.create _ _ _ _ with ⟨_ | _, _⟩ <;> rfl

theorem bridge_enterDocument (v : Value) : (s.enterDocument v).2.bridge = s.bridge := by
  simp only [enterDocument]
  rcases Scene.ofDocument _ _ _ _ with ⟨_ | _, _⟩ <;> rfl

theorem bridge_load (files : Files) (path : String) :
    (s.load files path).2.bridge = s.bridge := by
  simp only [load]
  cases files.readDocument path with
  | error e => rfl
  | ok v =>
    have hentered := s.bridge_enterDocument v
    simp only
    rcases h : s.enterDocument v with ⟨_ | _, t⟩ <;> rw [h] at hentered <;> exact hentered

theorem bridge_save (files : Files) (path : String) :
    (s.save files path).2.2.bridge = s.bridge := by
  simp only [save]
  rcases files.writeDocument path s.scene.toDocument with ⟨_ | _, _⟩ <;> rfl

theorem bridge_generateCode : s.generateCode.2.bridge = s.bridge := by
  simp only [generateCode]
  cases s.cached? <;> rfl

end Session

/-- All that has happened to the bridge is that it was told to connect and to disconnect. -/
def Workspace.Told (w v : Workspace) : Prop :=
  ∃ ms : List (Bridge.Move Observer), v.session.bridge = ms.foldl Bridge.move w.session.bridge

namespace Workspace.Told

variable {w u v : Workspace}

theorem refl (w : Workspace) : w.Told w := ⟨[], rfl⟩

theorem of_bridge_eq (h : w.Told u) (hv : v.session.bridge = u.session.bridge) : w.Told v :=
  h.imp fun _ hms => hv.trans hms

theorem move (h : w.Told u) (m : Bridge.Move Observer)
    (hv : v.session.bridge = u.session.bridge.move m) : w.Told v := by
  obtain ⟨ms, hms⟩ := h
  exact ⟨ms ++ [m], by rw [hv, hms, List.foldl_append]; rfl⟩

end Workspace.Told

namespace Script

open Effect

abbrev Tells {α : Type} (x : Action α) : Prop := ∀ w, x.Keeps Workspace.Told w

variable {α : Type} {deliver : Delivery} {w : Workspace}

theorem keeps_onSession {f : Session Observer → Except Cause α × Session Observer}
    (hf : ∀ s, (f s).2.bridge = s.bridge) : (onSession f).Keeps Workspace.Told w := by
  refine .get_bind fun u hu => ?_
  have hbridge := hf u.session
  rcases h : f u.session with ⟨answer, session⟩
  rw [h] at hbridge
  exact .bind (.modify fun v hv => hu.of_bridge_eq hbridge) fun _ => .lift answer

theorem keeps_commit (hdeliver : ∀ signal arguments, Tells (deliver signal arguments))
    {edit : Session Observer → Session.Committed Observer α}
    (hedit : ∀ s, (edit s).2.2.bridge = s.bridge) :
    (commit deliver edit).Keeps Workspace.Told w := by
  refine .get_bind fun u hu => ?_
  have hbridge := hedit u.session
  rcases h : edit u.session with ⟨answer, announcement, session⟩
  rw [h] at hbridge
  refine .bind (.modify fun v hv => hu.of_bridge_eq hbridge) fun _ => ?_
  cases announcement with
  | none => exact .lift answer
  | some a => exact .bind (hdeliver _ _ w) fun _ => .lift answer

theorem keeps_sceneReply (handle : Nat) : (sceneReply handle).Keeps Workspace.Told w := by
  refine .get_bind fun u _ => ?_
  dsimp only
  split
  · exact .pure _
  · exact .pure _

theorem keeps_takeSnapshot : takeSnapshot.Keeps Workspace.Told w := keeps_onSession fun _ => rfl

theorem keeps_generate (layout : Layout) (s : Snapshot) :
    (generate layout s).Keeps Workspace.Told w := keeps_onSession fun _ => rfl

theorem keeps_perform (hdeliver : ∀ signal arguments, Tells (deliver signal arguments))
    (arguments : List Argument) (c : Command) : Tells (perform deliver arguments c) := by
  intro w₀
  unfold perform
  refine .get_bind fun w hw => ?_
  cases c with
  | newScene name =>
    refine .bind (.lift _) fun name => ?_
    refine .bind (keeps_onSession (Session.bridge_newScene · name)) fun _ => ?_
    exact .get_bind fun _ _ => keeps_sceneReply _
  | add parent name type =>
    refine .bind (.lift _) fun parent => .bind (.lift _) fun name => .bind (.lift _) fun type => ?_
    exact .bind (keeps_commit hdeliver fun _ => rfl) fun _ => .pure _
  | remove id =>
    refine .bind (.lift _) fun id => ?_
    exact .bind (keeps_commit hdeliver fun _ => rfl) fun _ => .pure _
  | set id key v =>
    refine .bind (.lift _) fun id => .bind (.lift _) fun key => .bind (.lift _) fun v => ?_
    exact .bind (keeps_commit hdeliver fun _ => rfl) fun _ => .pure _
  | unset id key =>
    refine .bind (.lift _) fun id => .bind (.lift _) fun key => ?_
    exact .bind (keeps_commit hdeliver fun _ => rfl) fun _ => .pure _
  | rename id name =>
    refine .bind (.lift _) fun id => .bind (.lift _) fun name => ?_
    exact .bind (keeps_commit hdeliver fun _ => rfl) fun _ => .pure _
  | getNode id => exact .bind (.lift _) fun _ => .bind (.lift _) fun _ => .pure _
  | get id key kind default =>
    refine .bind (.lift _) fun id => .bind (.lift _) fun key => .bind (.lift _) fun kind =>
      .bind (.lift _) fun default => ?_
    refine .bind (.modify fun v hv => hv.of_bridge_eq rfl) fun _ => ?_
    exact .bind (.lift _) fun _ => .pure _
  | children id => exact .bind (.lift _) fun _ => .bind (.lift _) fun _ => .pure _
  | subtree id => exact .bind (.lift _) fun _ => .bind (.lift _) fun _ => .pure _
  | contains id => exact .bind (.lift _) fun _ => .bind (.lift _) fun _ => .pure _
  | info => exact .pure _
  | check => exact .pure _
  | toDocument => exact .pure _
  | showNode id =>
    refine .bind (.lift _) fun id => .bind (.lift _) fun found => ?_
    cases found with
    | none => exact .throw _
    | some x => exact .pure _
  | snapshot label =>
    refine .bind (.lift _) fun label => .bind keeps_takeSnapshot fun s => ?_
    exact .bind (.modify fun v hv => hv.of_bridge_eq rfl) fun _ => .pure _
  | snapshotInfo label =>
    exact .bind (.lift _) fun _ => .bind (.lift _) fun _ => .bind (.lift _) fun _ => .pure _
  | snapshotGet label id key =>
    refine .bind (.lift _) fun label => .bind (.lift _) fun s => .bind (.lift _) fun id =>
      .bind (.lift _) fun n => ?_
    cases key with
    | none => exact .pure _
    | some key =>
      cases n with
      | none => exact .pure _
      | some n => exact .bind (.lift _) fun _ => .bind (.lift _) fun _ => .pure _
  | generate fields => exact .bind keeps_takeSnapshot fun _ => keeps_generate _ _
  | generateFrom label fields =>
    exact .bind (.lift _) fun _ => .bind (.lift _) fun _ => keeps_generate _ _
  | generateCode => exact .bind (keeps_onSession Session.bridge_generateCode) fun _ => .pure _
  | emitter type => exact .bind (.lift _) fun _ => .bind (.lift _) fun _ => .pure _
  | registerEmitter type template nests =>
    refine .bind (.lift _) fun type => .bind (.lift _) fun key => ?_
    cases key with
    | nodeType t => exact .bind (.modify fun v hv => hv.of_bridge_eq rfl) fun _ => .pure _
    | _ => exact .pure _
  | configure setting => exact .bind (.modify fun v hv => hv.of_bridge_eq rfl) fun _ => .pure _
  | save path =>
    refine .bind (.lift _) fun path => ?_
    refine .bind (.set (hw.of_bridge_eq (w.session.bridge_save w.files path))) fun _ => ?_
    exact .bind (.lift _) fun _ => .pure _
  | load path =>
    refine .bind (.lift _) fun path => ?_
    refine .bind (keeps_onSession (Session.bridge_load · w.files path)) fun _ => ?_
    refine .get_bind fun arrived _ => ?_
    exact .bind (hdeliver _ _ w₀) fun _ => keeps_sceneReply _
  | enterDocument data =>
    refine .bind (.lift _) fun data => ?_
    exact .bind (keeps_onSession (Session.bridge_enterDocument · data)).discard fun _ => .pure _
  | reload => exact .bind (keeps_onSession (Session.bridge_enterDocument · _)).discard fun _ => .pure _
  | bind bound => exact .bind (.modify fun v hv => hv.of_bridge_eq rfl) fun _ => .pure _
  | connect signal label script limit refusal =>
    refine .bind (.lift _) fun signal => .bind (.lift _) fun signal => .bind (.lift _) fun label => ?_
    exact .bind (.set (hw.move (.connect signal ⟨label, script, limit, refusal⟩) rfl)) fun _ => .pure _
  | disconnect label =>
    refine .bind (.lift _) fun label => .bind (.lift _) fun link => ?_
    exact .bind (.set (hw.move (.disconnect link.1) rfl)) fun _ => .pure _
  | handlerCount signal => exact .bind (.lift _) fun _ => .bind (.lift _) fun _ => .pure _
  | emit signal arguments =>
    refine .bind (.lift _) fun signal => .bind (.mapM (fun _ => .lift _) _) fun arguments => ?_
    refine .bind (.lift _) fun signal => ?_
    exact .bind (hdeliver _ _ w₀) fun _ => .pure _

theorem keeps_call (hdeliver : ∀ signal arguments, Tells (deliver signal arguments))
    (arguments : List Argument) (link : Link Observer) : Tells (call deliver arguments link) := by
  intro w₀
  have hreact : (react deliver arguments link.handler).Keeps Workspace.Told w₀ := by
    unfold react
    refine .bind (.forIn (fun c _ => ?_) _ _) fun _ => ?_
    · exact .bind (keeps_perform hdeliver arguments c w₀).discard fun _ => .pure _
    · split
      · exact .throw _
      · exact .pure _
  refine .get_bind fun w hw => ?_
  refine .bind (.set (hw.of_bridge_eq rfl)) fun _ => ?_
  split
  · exact .pure _
  · exact hreact

theorem keeps_report (signal : Signal) (arguments : List Argument) (e : Cause) :
    Tells (report signal arguments e) := by
  intro w₀
  refine .get_bind fun w hw => ?_
  dsimp only
  split
  · exact .bind (.throw _) fun _ => .set (hw.of_bridge_eq rfl)
  · exact .set (hw.of_bridge_eq rfl)

theorem keeps_deliver (depth : Nat) (signal : Signal) (arguments : List Argument) :
    Tells (Script.deliver depth signal arguments) := by
  induction depth generalizing signal arguments with
  | zero => exact fun _ => .pure ()
  | succ depth ih =>
    refine fun w₀ => .get_bind fun w _ => ?_
    exact Bridge.keeps_callEach _ _ (fun link => keeps_call ih arguments link w₀)
      (fun e => keeps_report signal arguments e w₀) _

end Script

end SceneEditor
