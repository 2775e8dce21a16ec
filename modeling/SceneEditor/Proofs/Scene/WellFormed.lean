import SceneEditor.Proofs.Arena.Audit
import SceneEditor.Proofs.Arena.TreeEdits
import SceneEditor.Proofs.Scene.Request
import SceneEditor.Scene.Document

namespace SceneEditor.Scene

variable {s t : Scene} {id parent key : String} {name : Value} {type : NodeType} {n : Node}

structure WellFormed (s : Scene) : Prop where
  tree : s.arena.IsTree s.root
  retired : ∀ id ∈ s.retired, s.arena.contains id = false

inductive Built : Scene → Prop
  | created {name rootName : Value} {bound : Bool} {ids : IdSupply} {s : Scene}
      (h : (create name rootName bound ids).1 = .ok s) : Built s
  | loaded {v rootName : Value} {bound : Bool} {ids : IdSupply} {s : Scene}
      (h : (ofDocument v rootName bound ids).1 = .ok s) : Built s

theorem find?_withChange (s : Scene) (id : String) (change : Node → Node) (key : String) :
    (s.withChange id change).find? key =
      (s.arena.find? key).map fun n => if key = id then change n else n := by
  simp only [withChange, Table.find?_modify, beq_iff_eq]

theorem find?_withNode (s : Scene) (id : String) (name : Value) (type : NodeType)
    (parent key : String) : (s.withNode id name type parent).find? key =
      if key = id then some (Node.create id name type (some parent))
      else (s.arena.find? key).map fun n => if key = parent then n.addChild id else n := by
  unfold withNode
  by_cases hk : key = id
  · rw [if_pos hk, hk, Table.find?_insert_self]
  · rw [if_neg hk, Table.find?_insert_of_ne _ _ hk]
    exact find?_withChange s parent (·.addChild id) key

theorem find?_withoutNodes (s : Scene) (id : String) (parent : Option String)
    (doomed : List String) (key : String) : (s.withoutNodes id parent doomed).find? key =
      if key ∈ doomed then none
      else (s.arena.find? key).map fun n => if parent = some key then n.dropChild id else n := by
  unfold withoutNodes
  rw [Table.find?_filter _ (fun key => !doomed.contains key)]
  by_cases hk : key ∈ doomed
  · simp [hk]
  · rw [if_neg hk, if_pos (by simpa using hk)]
    cases parent with
    | none => simp
    | some p => simp only [Table.find?_modify, beq_iff_eq, Option.some.injEq, eq_comm (a := p)]

theorem contains_eq_false_iff {a : Arena} : a.contains id = false ↔ a.find? id = none := by
  rw [Table.contains_eq_isSome, Option.isSome_eq_false_iff, Option.isNone_iff_eq_none]

theorem isTaken_eq_false_iff :
    s.isTaken id = false ↔ s.arena.contains id = false ∧ id ∉ s.retired := by
  simp [isTaken]

namespace WellFormed

theorem withChange (h : s.WellFormed) {change : Node → Node}
    (hc : ∀ n : Node, n.SameLinks (change n)) :
    WellFormed { s with arena := s.withChange id change, revision := s.revision + 1 } where
  tree := by
    apply h.tree.relabel (find?_withChange s id change)
    intro key n
    split
    · exact hc n
    · exact .refl n
  retired := by
    intro key hkey
    have hnone := contains_eq_false_iff.mp (h.retired key hkey)
    rw [contains_eq_false_iff]
    simp [find?_withChange, hnone]

theorem withNode (h : s.WellFormed) (hparent : s.arena.find? parent = some n)
    (hid : s.isTaken id = false) :
    WellFormed { s with arena := s.withNode id name type parent, revision := s.revision + 1 } where
  tree := h.tree.addChild (Arena.contains_of_find? hparent) (isTaken_eq_false_iff.mp hid).1
    ⟨rfl, rfl, rfl⟩ (find?_withNode s id name type parent)
  retired := by
    intro key hkey
    have hne : key ≠ id := fun he => (isTaken_eq_false_iff.mp hid).2 (he ▸ hkey)
    have hnone := contains_eq_false_iff.mp (h.retired key hkey)
    rw [contains_eq_false_iff]
    simp [find?_withNode, hne, hnone]

theorem withoutNodes (h : s.WellFormed) (hn : s.arena.find? id = some n) (hroot : id ≠ s.root) :
    WellFormed { s with
      arena := s.withoutNodes id n.parent (s.arena.walk id)
      retired := s.arena.walk id ++ s.retired
      revision := s.revision + 1 } where
  tree := h.tree.prune hn hroot (find?_withoutNodes s id n.parent (s.arena.walk id))
  retired := by
    intro key hkey
    rw [contains_eq_false_iff]
    simp only [find?_withoutNodes]
    rcases List.mem_append.mp hkey with hkey | hkey
    · rw [if_pos hkey]
    · rw [contains_eq_false_iff.mp (h.retired key hkey), Option.map_none, ite_self]

theorem step {answer : Answer} {a : Announcement} (h : s.WellFormed) (hs : s.Step answer a t) :
    t.WellFormed := by
  cases hs with
  | added hparent hid => exact h.withNode hparent hid
  | removed hn hroot => exact h.withoutNodes hn hroot
  | propertySet _ => exact h.withChange fun _ => ⟨rfl, rfl, rfl, rfl⟩
  | propertyDropped _ _ => exact h.withChange fun _ => ⟨rfl, rfl, rfl, rfl⟩
  | renamed _ => exact h.withChange fun _ => ⟨rfl, rfl, rfl, rfl⟩

theorem after (h : s.WellFormed) (ids : IdSupply) (rs : List Request) :
    (s.after ids rs).WellFormed :=
  after_induction (fun hs h => h.step hs) h ids rs

end WellFormed

theorem isTree_single (name rootName : Value) (root : String) (bound : Bool) :
    (single name root rootName bound).arena.IsTree root := by
  have hroot : (single name root rootName bound).arena.find? root =
      some (Node.create root rootName .container none) := Table.find?_insert_self ..
  have honly {key : String} {m : Node}
      (hm : (single name root rootName bound).arena.find? key = some m) :
      key = root ∧ m = Node.create root rootName .container none := by
    by_cases hk : key = root
    · subst hk
      exact ⟨rfl, Option.some.inj (hm.symm.trans hroot)⟩
    · rw [single, Table.find?_insert_of_ne _ _ hk] at hm
      cases hm
  refine ⟨⟨_, hroot, rfl, rfl⟩, ?_, ?_, ?_, ?_⟩
  · intro key m hm
    obtain ⟨rfl, rfl⟩ := honly hm
    rfl
  · intro key m hm hne
    exact absurd (honly hm).1 hne
  · intro key m child hm hc
    obtain ⟨rfl, rfl⟩ := honly hm
    cases hc
  · intro key hc
    obtain ⟨m, hm⟩ := Arena.exists_of_contains hc
    rw [(honly hm).1]

theorem create_eq_ok {rootName : Value} {bound : Bool} {ids : IdSupply}
    (h : (create name rootName bound ids).1 = .ok s) :
    ∃ root, s = single name root rootName bound := by
  unfold create at h
  split at h
  · cases h
  · exact ⟨_, (Except.ok.inj h).symm⟩

theorem ofDocument_eq_ok {v rootName : Value} {bound : Bool} {ids : IdSupply}
    (h : (ofDocument v rootName bound ids).1 = .ok s) :
    s.arena.audit s.root = [] ∧ s.retired = [] ∧ s.revision = 0 ∧ s.bound = bound := by
  unfold ofDocument at h
  split at h
  · cases h
  · split at h
    · cases h
    · split at h
      · cases h
      · next fresh _ hcreate =>
        split at h
        · next haudit =>
          obtain ⟨root, rfl⟩ := create_eq_ok (congrArg Prod.fst hcreate)
          rw [← Except.ok.inj h]
          exact ⟨haudit, rfl, rfl, rfl⟩
        · cases h

namespace Built

theorem wellFormed (h : s.Built) : s.WellFormed := by
  cases h with
  | created h =>
    obtain ⟨root, rfl⟩ := create_eq_ok h
    exact ⟨isTree_single .., fun _ hid => absurd hid List.not_mem_nil⟩
  | loaded h =>
    obtain ⟨haudit, hretired, _, _⟩ := ofDocument_eq_ok h
    refine ⟨Arena.isTree_of_audit haudit, ?_⟩
    rw [hretired]
    exact fun _ hid => absurd hid List.not_mem_nil

theorem revision_eq_zero (h : s.Built) : s.revision = 0 := by
  cases h with
  | created h =>
    obtain ⟨root, rfl⟩ := create_eq_ok h
    rfl
  | loaded h => exact (ofDocument_eq_ok h).2.2.1

end Built

/-- A scene that may come up: one that was built, bound or not since then, and asked for edits. -/
inductive Reachable : Scene → Prop
  | built {s : Scene} (h : s.Built) : Reachable s
  | bind {s : Scene} (h : Reachable s) (bound : Bool) : Reachable { s with bound := bound }
  | edited {s : Scene} (h : Reachable s) (r : Request) (ids : IdSupply) :
      Reachable (r.perform s ids).1.scene

namespace Reachable

theorem wellFormed (h : s.Reachable) : s.WellFormed := by
  induction h with
  | built h => exact h.wellFormed
  | bind _ _ ih => exact ⟨ih.tree, ih.retired⟩
  | @edited s _ r ids ih =>
    rcases r.perform_cases s ids with ⟨_, hs, _⟩ | ⟨_, _, _, _, _, _, ht⟩
    · rw [hs]
      exact ih
    · exact ih.step ht

theorem after (h : s.Reachable) (ids : IdSupply) (rs : List Request) :
    (s.after ids rs).Reachable := by
  induction rs generalizing s ids with
  | nil => exact h
  | cons r rs ih => exact ih (h.edited r ids) _

end Reachable

/-- Whatever is asked of a scene, it stays one tree whose nodes have no retired identifiers, and
its audit finds nothing. -/
theorem wellFormed_after_history (h : s.Built) (ids : IdSupply) (rs : List Request) :
    (s.after ids rs).WellFormed ∧ (s.after ids rs).arena.audit (s.after ids rs).root = [] :=
  ⟨h.wellFormed.after ids rs, (h.wellFormed.after ids rs).tree.audit_eq_nil⟩

theorem wellFormed_after_repeated_ids :
    let s := single (.text "Scene") "r" (.text "Root") true
    let ids := IdSupply.ofList ["r", "a", "a", "b", "a", "b", "c"] IdSupply.numbered
    let rs : List Request := [
      .add (.text "r") (.text "A") (.text "Container"),
      .add (.text "a") (.text "B") (.text "Sprite"),
      .remove (.text "a"), .add (.text "b") (.text "C") (.text "Text"),
      .add (.text "r") (.text "C") (.text "Text")]
    s.Built ∧ (s.after ids rs).arena.keys = ["r", "c"] ∧
      (s.after ids rs).retired = ["a", "b"] ∧ (s.after ids rs).WellFormed ∧
      (s.after ids rs).arena.audit (s.after ids rs).root = [] := by
  intro s ids rs
  have hcreated : (create (.text "Scene") (.text "Root") true ids).1 = .ok s := rfl
  have hbuilt : s.Built := .created hcreated
  exact ⟨hbuilt, by decide +kernel, by decide +kernel, wellFormed_after_history hbuilt ids rs⟩

end SceneEditor.Scene
