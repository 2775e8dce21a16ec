import SceneEditor.Proofs.Arena.WalkOrder
import SceneEditor.Proofs.Program.Statements
import SceneEditor.Proofs.Scene.Document
import SceneEditor.Proofs.Scene.WellFormed

namespace SceneEditor

namespace Arena

variable {a b : Arena} {root : String} {ns : List Node}

theorem IsTree.congr (h : a.IsTree root) (hb : ∀ id, b.find? id = a.find? id) : b.IsTree root :=
  h.relabel (f := fun _ n => n) (fun id => by rw [hb, Option.map_id']) fun _ n => .refl n

theorem IsListing.nodup (h : a.IsListing root ns) : (ns.map Node.id).Nodup := by
  have hkeys := h.once.map Prod.fst
  rw [List.map_map] at hkeys
  exact hkeys.nodup_iff.mpr a.nodup_keys

theorem IsListing.find?_ofNodes (h : a.IsListing root ns) (id : String) :
    (ofNodes ns).find? id = a.find? id := by
  apply Option.ext
  intro n
  rw [← Table.mem_entries_iff, entries_ofNodes h.nodup, h.once.mem_iff, Table.mem_entries_iff]

end Arena

namespace Scene

variable {s r : Scene} {ns : List Node}

structure IsTextual (s : Scene) : Prop where
  name : ∃ x, s.name = .text x
  nodes : ∀ {id n}, s.arena.find? id = some n → n.IsTextual

instance (s : Scene) : Decidable s.IsTextual :=
  decidable_of_iff ((∃ x, s.name = .text x) ∧ ∀ e ∈ s.arena.entries, e.2.IsTextual)
    ⟨fun ⟨hname, hnodes⟩ => ⟨hname, fun hn => hnodes _ (Table.mem_entries_iff.mpr hn)⟩,
      fun h => ⟨h.name, fun _ he => h.nodes (Table.mem_entries_iff.mp he)⟩⟩

/-- A scene takes the place of another: it is written the same way, has as many nodes and the same
program under every registry and layout, and no edit of it is counted. -/
structure Restores (r s : Scene) : Prop where
  document : r.toDocument = s.toDocument
  count : r.count = s.count
  revision : r.revision = 0
  program : ∀ (registry : Registry) (layout : Layout) (j k : Nat),
    Program.generate registry layout (r.snapshot j) = Program.generate registry layout (s.snapshot k)

def listed (s : Scene) : List Node := (s.arena.walk s.root).filterMap s.arena.find?

theorem toDocument_eq (s : Scene) : s.toDocument = .object [(.text "name", s.name),
    (.text "root_id", .text s.root), (.text "nodes", .list (s.listed.map Node.toDocument))] := by
  rw [toDocument, listed, List.map_filterMap]

theorem isListing_listed (h : s.WellFormed) : s.arena.IsListing s.root s.listed := by
  obtain ⟨t, ht⟩ := Outline.exists_covers h.tree
  have hlisted : s.listed = t.nodes := by
    have hfind : t.nodes.filterMap (s.arena.find? ∘ Node.id) = t.nodes.filterMap some :=
      List.filterMap_congr fun n hn => Outline.find?_of_mem_nodes ht.of hn
    rw [listed, ht.walk_eq, List.filterMap_map, hfind, List.filterMap_some]
  rw [hlisted]
  exact ht.isListing h.tree

theorem toDocument_congr (hname : r.name = s.name) (hroot : r.root = s.root)
    (h : ∀ id, r.arena.find? id = s.arena.find? id) : r.toDocument = s.toDocument := by
  simp only [toDocument, hname, hroot, Arena.walk_congr h, h]

namespace IsTextual

variable {x : String}

theorem listed (h : s.IsTextual) (hs : s.WellFormed) : ∀ n ∈ s.listed, n.IsTextual := by
  intro n hn
  have hmem := (isListing_listed hs).once.mem_iff.mp (List.mem_map_of_mem hn)
  exact h.nodes (Table.mem_entries_iff.mp hmem)

theorem toDocument_isLegible (h : s.IsTextual) (hs : s.WellFormed) :
    s.toDocument.IsLegible := by
  obtain ⟨x, hx⟩ := h.name
  have hnodes : ∀ v ∈ s.listed.map Node.toDocument, v.IsLegible := by
    intro v hv
    obtain ⟨n, hn, rfl⟩ := List.mem_map.mp hv
    exact (h.listed hs n hn).toDocument_isLegible
  rw [toDocument_eq, hx]
  refine .object (by simp) (by simp) ?_
  simp only [List.forall_mem_cons, List.not_mem_nil, false_implies, implies_true, and_true]
  exact ⟨.text x, .text s.root, .list hnodes⟩

theorem toDocument_isJson (h : s.IsTextual) (hs : s.WellFormed) : s.toDocument.IsJson :=
  (h.toDocument_isLegible hs).isJson

theorem isSceneDocument (h : s.IsTextual) (hs : s.WellFormed) (hx : s.name = .text x) :
    s.toDocument.IsSceneDocument x s.root s.listed := by
  have hlisting := isListing_listed hs
  have hfield {name : String} {w : Value} (hw : s.toDocument.field? name = some w) :
      s.toDocument.HasField name w :=
    (Value.field?_eq_some_iff (h.toDocument_isJson hs)).mp hw
  refine ⟨⟨⟨s.name, hfield rfl, by rw [hx]; rfl⟩, ⟨_, hfield rfl, rfl⟩,
    .list (s.listed.map Node.toDocument), _, hfield ?_, rfl, ?_⟩, hlisting.nodup, ?_⟩
  · rw [toDocument_eq]
    rfl
  · rw [List.forall₂_map_left_iff, List.forall₂_same]
    exact fun n hn => (h.listed hs n hn).describes_toDocument
  · exact (hs.tree.congr hlisting.find?_ofNodes).isSpanned

end IsTextual

theorem restored_restores (hs : s.WellFormed) {x : String} (hx : s.name = .text x) (bound : Bool) :
    (restored x s.root s.listed bound).Restores s where
  document := toDocument_congr hx.symm rfl (isListing_listed hs).find?_ofNodes
  count := by
    have hlisting := isListing_listed hs
    have hentries := Arena.entries_ofNodes hlisting.nodup
    change (Arena.ofNodes s.listed).entries.length = s.arena.entries.length
    rw [hentries, hlisting.once.length_eq]
  revision := rfl
  program := fun _ _ _ _ => Program.generate_congr rfl (isListing_listed hs).find?_ofNodes

theorem exists_ofDocument_toDocument (h : s.IsTextual) (hs : s.WellFormed) (rootName : Value)
    (bound : Bool) {ids : IdSupply} {fresh : String} (hids : ids.next.1 = .ok fresh) :
    ∃ r, (ofDocument s.toDocument rootName bound ids).1 = .ok r ∧ r.Restores s := by
  obtain ⟨x, hx⟩ := h.name
  exact ⟨_, (ofDocument_eq_ok_iff (h.toDocument_isJson hs) hids).mpr
    ⟨x, s.root, s.listed, h.isSceneDocument hs hx, rfl⟩, restored_restores hs hx bound⟩

end Scene

end SceneEditor
