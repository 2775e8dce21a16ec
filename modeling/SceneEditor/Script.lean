import SceneEditor.Scene.Query
import SceneEditor.Script.Reply

/-!
Performing commands. An edit calls the observers of its signal, and what they do may call observers
again; the nesting is bounded, and beyond the bound nobody is called.
-/

namespace SceneEditor

abbrev Action := Effect Workspace

abbrev Delivery := Signal → List Argument → Action Unit

namespace Script

def commit {α : Type} (deliver : Delivery)
    (edit : Session Observer → Session.Committed Observer α) : Action α := do
  let (answer, announcement, session) := edit (← get).session
  modify fun w => { w with session := session }
  if let some a := announcement then
    deliver a.signal a.arguments
  answer

def commitScene {α : Type} (deliver : Delivery) (edit : Scene → Edit α) : Action α :=
  commit deliver fun s => s.commit (edit s.scene)

def sceneReply (handle : Nat) : Action Reply := do
  let session := (← get).session
  match session.scenes[handle]? with
  | some s => return .scene s (session.current = handle)
  | none => return .done

def onSession {α : Type} (f : Session Observer → Except Cause α × Session Observer) : Action α := do
  let (answer, session) := f (← get).session
  modify fun w => { w with session := session }
  answer

def layoutOf (fields : List LayoutField) : Layout := fields.foldl Layout.assign {}

def generate (layout : Layout) (s : Snapshot) : Action Reply :=
  onSession fun session =>
    let (code, session) := session.generate layout s
    (.ok (.text code), session)

def takeSnapshot : Action Snapshot :=
  onSession fun session =>
    let (s, session) := session.snapshot
    (.ok s, session)

/-- Performs a command. The arguments are those of the signal that it reacts to. -/
def perform (deliver : Delivery) (arguments : List Argument) (c : Command) : Action Reply := do
  let w ← get
  let value (o : Operand) : Except Cause Value := w.operand arguments o
  let text (o : Operand) : Except Cause String := (value o).map Value.asText
  let scene := w.session.scene
  match c with
  | .newScene name =>
    let name ← value name
    onSession (·.newScene name)
    sceneReply (← get).session.current
  | .add parent name type =>
    let parent ← value parent
    let name ← value name
    let type ← value type
    return .id (← commit deliver (·.addNode parent name type))
  | .remove id =>
    let id ← value id
    return .flag (← commitScene deliver (·.removeNode id))
  | .set id key v =>
    let id ← value id
    let key ← value key
    let v ← value v
    return .flag (← commitScene deliver (·.setProperty id key v))
  | .unset id key =>
    let id ← value id
    let key ← value key
    return .flag (← commitScene deliver (·.removeProperty id key))
  | .rename id name =>
    let id ← value id
    let name ← value name
    return .flag (← commitScene deliver (·.renameNode id name))
  | .getNode id => return .node (← scene.getNode (← value id))
  | .get id key kind default =>
    let (answer, notices) :=
      scene.getProperty (← value id) (← value key) (← value kind) (← value default)
    modify fun w => { w with session := w.session.note notices }
    return .value (← answer)
  | .children id => return .ids (← scene.childrenOf (← value id))
  | .subtree id => return .ids (← scene.subtree (← value id))
  | .contains id => return .flag (← scene.contains (← value id))
  | .info => return .info scene
  | .check => return .violations (scene.arena.audit scene.root)
  | .toDocument => return .value scene.toDocument
  | .showNode id =>
    let id ← value id
    match ← scene.resolve id with
    | some (_, n) => return .text n.shown
    | none => throw (.missingKey id)
  | .snapshot label =>
    let label ← text label
    let s ← takeSnapshot
    modify fun w => { w with snapshots := w.snapshots.insert label s }
    return .number s.number
  | .snapshotInfo label =>
    let s ← Workspace.labelled w.snapshots (← text label)
    return .snapshot s (← s.rootNode)
  | .snapshotGet label id key =>
    let s ← Workspace.labelled w.snapshots (← text label)
    match ← s.get (← value id), key with
    | n, none => return .node n
    | none, some _ => return .property none
    | some n, some key =>
      let key ← (← value key).asKey
      return .property (n.properties.find? key)
  | .generate fields => generate (layoutOf fields) (← takeSnapshot)
  | .generateFrom label fields =>
    generate (layoutOf fields) (← Workspace.labelled w.snapshots (← text label))
  | .generateCode =>
    let kept := w.session.cached?.isSome
    let code ← onSession fun session =>
      let (code, session) := session.generateCode
      (.ok code, session)
    return .program code kept
  | .emitter type =>
    let found := match ← (← value type).asKey with
      | .nodeType t => w.session.emitters.find? t
      | _ => none
    return .emitter found.isSome (found.getD .unimplemented).nests
  | .registerEmitter type template nests =>
    if let .nodeType t ← (← value type).asKey then
      modify fun w => { w with session := { w.session with
        emitters := w.session.emitters.insert t (.ofTemplate template nests) } }
    return .done
  | .configure setting =>
    modify fun w => { w with session := { w.session with
      settings := w.session.settings.assign setting } }
    return .done
  | .save path =>
    let (answer, files, session) := w.session.save w.files (← text path)
    set { w with files := files, session := session }
    answer
    return .done
  | .load path =>
    let path ← text path
    onSession (·.load w.files path)
    let arrived ← get
    let handle := arrived.session.current
    deliver .sceneLoaded [arrived.refresh (.value (.scene handle ""))]
    sceneReply handle
  | .enterDocument data =>
    let data ← value data
    discard <| onSession (·.enterDocument data)
    return .done
  | .reload =>
    discard <| onSession (·.enterDocument scene.toDocument)
    return .done
  | .bind bound =>
    modify fun w => { w with session := w.session.withScene ({ scene with bound := bound }) }
    return .done
  | .connect signal label script limit refusal =>
    let signal ← Signal.ofValue (← value signal)
    let label ← text label
    let (number, bridge) := w.session.bridge.connect signal ⟨label, script, limit, refusal⟩
    set { w with
      session := { w.session with bridge := bridge }
      links := w.links.insert label (number, signal) }
    return .number number
  | .disconnect label =>
    let (number, signal) ← Workspace.labelled w.links (← text label)
    set { w with session := { w.session with bridge := w.session.bridge.disconnect number } }
    return .disconnected signal
  | .handlerCount signal =>
    return .number (w.session.bridge.handlerCount (← Signal.ofValue (← value signal)))
  | .emit signal arguments =>
    let signal ← value signal
    let arguments ← arguments.mapM fun o => (value o).map Argument.value
    let signal ← Signal.ofValue signal
    deliver signal arguments
    return .done

def react (deliver : Delivery) (arguments : List Argument) (o : Observer) : Action Unit := do
  for c in o.script do
    discard <| perform deliver arguments c
  if let some message := o.refusal then
    throw (.refused message)

/-- Calls one observer: the call is recorded and counted, and answered within the limit. -/
def call (deliver : Delivery) (arguments : List Argument) (link : Link Observer) :
    Action Unit := do
  let w ← get
  let o := link.handler
  let count := (w.calls.find? link.number).getD 0 + 1
  set { w with
    events := w.events ++ [(o.label, arguments.map w.refresh)]
    calls := w.calls.insert link.number count }
  unless o.limit.any (· < count) do
    react deliver arguments o

def report (signal : Signal) (arguments : List Argument) (e : Cause) : Action Unit := do
  let w ← get
  let notice := Notice.handlerFailed signal (arguments.map w.refresh) e
  if let some o := notice.obstacle? then
    throw (.unwritten o)
  set { w with session := w.session.note [notice] }

/-- Calls the observers of a signal, with a bound on how deep calls may nest. -/
def deliver : Nat → Delivery
  | 0, _, _ => return
  | depth + 1, signal, arguments => do
    (← get).session.bridge.deliver signal (call (deliver depth) arguments)
      (report signal arguments)

def maxDepth : Nat := 200

end Script

end SceneEditor
