import SceneEditor.Arena
import SceneEditor.Cause

namespace SceneEditor.Arena

def rootViolations (n : Node) : List Violation :=
  (if n.parent.isSome then [.rootHasParent] else []) ++
    if n.type = .container then [] else [.rootType n.type]

def parentViolations (a : Arena) (key : String) (n : Node) : List Violation :=
  match n.parent with
  | none => [.parentMissing key none]
  | some id =>
    match a.find? id with
    | none => [.parentMissing key (some id)]
    | some p =>
      if p.children.count key = 1 then [] else [.listedTimes key (p.children.count key) id]

def childViolations (a : Arena) (key child : String) : List Violation :=
  match a.find? child with
  | none => [.unknownChild key child]
  | some c => if c.parent = some key then [] else [.foreignChild child key c.parent]

def entryViolations (a : Arena) (root key : String) (n : Node) : List Violation :=
  (if n.id = key then [] else [.idMismatch key n.id]) ++
    (if key = root then [] else parentViolations a key n) ++
    n.children.flatMap (childViolations a key)

/-- The search for what can be reached: the identifiers that were met again, in the order of the
search, and all that were reached. Each is expanded when it is first taken from the stack. -/
def reachFrom (a : Arena) (reached : List String) : List String → List String × List String
  | [] => ([], reached)
  | id :: stack =>
    if _ : id ∈ reached then
      let (again, all) := reachFrom a reached stack
      (id :: again, all)
    else match _ : a.find? id with
      | none => reachFrom a (id :: reached) stack
      | some n => reachFrom a (id :: reached) (n.children.reverse ++ stack)
termination_by stack => a.pending reached + stack.length
decreasing_by
  · simp
  · have := pending_cons_le a id reached
    simp
    omega
  · have := pending_cons_lt ‹a.find? id = some n› ‹id ∉ reached›
    simp
    omega

def audit (a : Arena) (root : String) : List Violation :=
  match a.find? root with
  | none => [.rootMissing root]
  | some n =>
    let (again, reached) := reachFrom a [] [root]
    let orphans := a.keys.filter fun key => !reached.contains key
    rootViolations n ++ a.entries.flatMap (fun e => entryViolations a root e.1 e.2) ++
      again.map .reachedAgain ++ (orphans.mergeSort (fun x y => decide (x ≤ y))).map .unreachable

end SceneEditor.Arena
