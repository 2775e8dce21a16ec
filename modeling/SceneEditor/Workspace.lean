import SceneEditor.Script.Command

namespace SceneEditor

structure Workspace where
  session : Session Observer
  files : Files
  snapshots : Table String Snapshot
  links : Table String (Nat × Signal)
  calls : Table Nat Nat
  events : List (String × List Argument)

namespace Workspace

def start (settings : Settings) (ids : IdSupply) : Except Cause Workspace :=
  (Session.start settings ids).map fun session =>
    ⟨session, .empty, .empty, .empty, .empty, []⟩

/-- An argument as it is now: a scene is shown in its present state. -/
def refresh (w : Workspace) : Argument → Argument
  | .value (.scene handle s) =>
    .value (.scene handle ((w.session.scenes[handle]?.map Scene.shown).getD s))
  | a => a

def operand (w : Workspace) (arguments : List Argument) : Operand → Except Cause Value
  | .value v => .ok v
  | .invalid e => .error e
  | .firstArgument =>
    match arguments.head?.map w.refresh with
    | some (.value v) => .ok v
    | some (.group ids) => .ok (Value.ofIds ids)
    | none => .ok .null

def labelled {α : Type} (table : Table String α) (label : String) : Except Cause α :=
  match table.find? label with
  | some a => .ok a
  | none => .error (.missingKey (.text label))

end Workspace

end SceneEditor
