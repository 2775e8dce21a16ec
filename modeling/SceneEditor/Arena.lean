import SceneEditor.Node

/-!
Arenas: the nodes of a scene by identifier, in the order in which they came. Walks over an arena
take identifiers from a stack and put the children of what they have not seen on it. They end
because an entry is expanded at most once: `pending` counts the entries that are left and their
children.
-/

namespace SceneEditor

abbrev Arena := Table String Node

namespace Arena

def pendingIn (seen : List String) : List (String × Node) → Nat
  | [] => 0
  | e :: es => (if e.1 ∈ seen then 0 else e.2.children.length + 1) + pendingIn seen es

def pending (a : Arena) (seen : List String) : Nat := pendingIn seen a.entries

theorem pendingIn_cons_le (id : String) (seen : List String) (es : List (String × Node)) :
    pendingIn (id :: seen) es ≤ pendingIn seen es := by
  induction es with
  | nil => exact Nat.le_refl _
  | cons e es ih =>
    simp only [pendingIn, List.mem_cons]
    by_cases he : e.1 ∈ seen
    · simpa [he] using ih
    · by_cases hk : e.1 = id <;> simp [he, hk] <;> omega

theorem pending_cons_le (a : Arena) (id : String) (seen : List String) :
    a.pending (id :: seen) ≤ a.pending seen := pendingIn_cons_le _ _ _

theorem pendingIn_cons_lt {id : String} {seen : List String} {n : Node}
    {es : List (String × Node)} (h : (es.find? fun e => e.1 == id).map Prod.snd = some n)
    (hs : id ∉ seen) :
    pendingIn (id :: seen) es + n.children.length < pendingIn seen es := by
  induction es with
  | nil => simp at h
  | cons e es ih =>
    have hle := pendingIn_cons_le id seen es
    by_cases hk : e.1 = id
    · obtain rfl : e.2 = n := by simpa [List.find?_cons, hk] using h
      simp [pendingIn, hk, hs]
      omega
    · have := ih (by simpa [List.find?_cons, hk] using h)
      simp only [pendingIn, List.mem_cons, hk, false_or]
      omega

theorem pending_cons_lt {a : Arena} {id : String} {seen : List String} {n : Node}
    (h : a.find? id = some n) (hs : id ∉ seen) :
    a.pending (id :: seen) + n.children.length < a.pending seen := pendingIn_cons_lt h hs

end Arena

end SceneEditor
