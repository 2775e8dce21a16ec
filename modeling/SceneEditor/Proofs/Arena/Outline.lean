import SceneEditor.Proofs.Arena.Tree

namespace SceneEditor

inductive Outline where
  | node (n : Node) (below : List Outline)

namespace Outline

/-- A node with the nodes above it, the nearest first. -/
structure Row where
  node : Node
  above : List Node

def top : Outline → Node
  | node n _ => n

mutual

def nodes : Outline → List Node
  | node n below => n :: nodesOfAll below
termination_by structural t => t

def nodesOfAll : List Outline → List Node
  | [] => []
  | t :: ts => t.nodes ++ nodesOfAll ts
termination_by structural ts => ts

end

mutual

def rows (above : List Node) : Outline → List Row
  | node n below => ⟨n, above⟩ :: rowsOfAll (n :: above) below
termination_by structural t => t

def rowsOfAll (above : List Node) : List Outline → List Row
  | [] => []
  | t :: ts => t.rows above ++ rowsOfAll above ts
termination_by structural ts => ts

end

mutual

def Of (a : Arena) : Outline → Prop
  | node n below =>
    a.find? n.id = some n ∧ n.children = below.map (fun t => t.top.id) ∧ AllOf a below
termination_by structural t => t

def AllOf (a : Arena) : List Outline → Prop
  | [] => True
  | t :: ts => t.Of a ∧ AllOf a ts
termination_by structural ts => ts

end

/-- The outline of a whole arena: it starts at the root, has every node once, and the nodes above a
node are its lineage. -/
structure Covers (t : Outline) (a : Arena) (root : String) : Prop where
  top_eq : t.top.id = root
  of : t.Of a
  once : (t.nodes.map Node.id).Perm a.keys
  lineage : ∀ row ∈ t.rows [], a.Lineage root row.node.id (row.above.map Node.id)

variable {a : Arena} {root id : String}

mutual

theorem map_node_rows (above : List Node) : ∀ t : Outline, (t.rows above).map Row.node = t.nodes
  | node n below => by rw [rows, nodes, List.map_cons, map_node_rowsOfAll]

theorem map_node_rowsOfAll (above : List Node) :
    ∀ ts : List Outline, (rowsOfAll above ts).map Row.node = nodesOfAll ts
  | [] => rfl
  | t :: ts => by
    rw [rowsOfAll, nodesOfAll, List.map_append, map_node_rows, map_node_rowsOfAll]

end

theorem exists_allOf {ids : List String} (h : ∀ id ∈ ids, ∃ t : Outline, t.top.id = id ∧ t.Of a) :
    ∃ ts : List Outline, ids = ts.map (fun t => t.top.id) ∧ AllOf a ts := by
  induction ids with
  | nil => exact ⟨[], rfl, trivial⟩
  | cons id ids ih =>
    obtain ⟨t, rfl, ht⟩ := h id List.mem_cons_self
    obtain ⟨ts, rfl, hts⟩ := ih fun id hid => h id (List.mem_cons_of_mem _ hid)
    exact ⟨t :: ts, rfl, ht, hts⟩

theorem exists_of_lineage (h : a.IsTree root) {above : List String} (hl : a.Lineage root id above)
    (hc : a.contains id = true) : ∃ t : Outline, t.top.id = id ∧ t.Of a := by
  -- Going down ends, because the nodes above a node are no longer pending and it is not among them.
  induction hk : a.pending above using Nat.strongRecOn generalizing id above with
  | ind k ih =>
    obtain ⟨n, hn⟩ := Arena.exists_of_contains hc
    have hlt := Arena.pending_cons_lt hn (h.notMem_lineage hl)
    have hbelow : ∀ child ∈ n.children, ∃ t : Outline, t.top.id = child ∧ t.Of a := by
      intro child hchild
      have hp := h.lists_iff.mp ⟨n, hn, hchild⟩
      exact ih (a.pending (id :: above)) (by omega) (.child hp hl) hp.contains rfl
    obtain ⟨below, hchildren, hof⟩ := exists_allOf hbelow
    have hid := h.id_eq hn
    exact ⟨node n below, hid, by rw [hid]; exact hn, hchildren, hof⟩

theorem lineage_below {n : Node} {below : List Outline} {above : List Node} (h : a.IsTree root)
    (ht : (node n below).Of a) (hl : a.Lineage root n.id (above.map Node.id)) :
    ∀ t ∈ below, a.Lineage root t.top.id ((n :: above).map Node.id) := by
  intro t hmem
  obtain ⟨hn, hchildren, _⟩ := ht
  have hchild : t.top.id ∈ n.children := by
    rw [hchildren]
    exact List.mem_map_of_mem hmem
  exact .child (h.lists_iff.mp ⟨n, hn, hchild⟩) hl

structure Row.Under (row : Row) (a : Arena) (root : String) (top : Node) (above : List Node) :
    Prop where
  lineage : a.Lineage root row.node.id (row.above.map Node.id)
  passes : ∃ xs, row.node.id :: row.above.map Node.id = xs ++ top.id :: above.map Node.id

mutual

theorem under_of_mem_rows {above : List Node} {row : Row} (h : a.IsTree root) : ∀ t : Outline,
    t.Of a → a.Lineage root t.top.id (above.map Node.id) → row ∈ t.rows above →
      row.Under a root t.top above
  | node n below, ht, hl, hrow => by
    rw [rows] at hrow
    rcases List.mem_cons.mp hrow with rfl | hrow
    · exact ⟨hl, [], rfl⟩
    · obtain ⟨t, _, hrl, xs, hxs⟩ :=
        under_of_mem_rowsOfAll h below ht.2.2 (lineage_below h ht hl) hrow
      exact ⟨hrl, xs ++ [t.top.id], by rw [hxs, List.append_assoc]; rfl⟩

theorem under_of_mem_rowsOfAll {above : List Node} {row : Row} (h : a.IsTree root) :
    ∀ ts : List Outline, AllOf a ts →
      (∀ t ∈ ts, a.Lineage root t.top.id (above.map Node.id)) → row ∈ rowsOfAll above ts →
        ∃ t ∈ ts, row.Under a root t.top above
  | t :: ts, ⟨ht, hts⟩, hl, hrow => by
    rw [rowsOfAll] at hrow
    rcases List.mem_append.mp hrow with hrow | hrow
    · exact ⟨t, List.mem_cons_self, under_of_mem_rows h t ht (hl t List.mem_cons_self) hrow⟩
    · obtain ⟨u, hu, hunder⟩ := under_of_mem_rowsOfAll h ts hts
        (fun u hu => hl u (List.mem_cons_of_mem _ hu)) hrow
      exact ⟨u, List.mem_cons_of_mem _ hu, hunder⟩

end

theorem Row.Under.top_id_eq {row row' : Row} {top top' : Node} {above : List Node}
    (h : a.IsTree root) (hrow : row.Under a root top above) (hrow' : row'.Under a root top' above)
    (hid : row.node.id = row'.node.id) : top.id = top'.id := by
  obtain ⟨hl, xs, hxs⟩ := hrow
  obtain ⟨hl', ys, hys⟩ := hrow'
  rw [hid] at hl hxs
  rw [h.lineage_unique hl hl', hys] at hxs
  exact (List.cons.inj (List.append_inj_right' hxs rfl)).1.symm

theorem exists_row {n : Node} (above : List Node) {t : Outline} (hn : n ∈ t.nodes) :
    ∃ row ∈ t.rows above, row.node = n := by
  rw [← map_node_rows above] at hn
  exact List.mem_map.mp hn

theorem exists_row_all {n : Node} (above : List Node) {ts : List Outline}
    (hn : n ∈ nodesOfAll ts) : ∃ row ∈ rowsOfAll above ts, row.node = n := by
  rw [← map_node_rowsOfAll above] at hn
  exact List.mem_map.mp hn

mutual

theorem nodup_nodes {above : List Node} (h : a.IsTree root) : ∀ t : Outline,
    t.Of a → a.Lineage root t.top.id (above.map Node.id) → (t.nodes.map Node.id).Nodup
  | node n below, ht, hl => by
    have hbelow := lineage_below h ht hl
    obtain ⟨hn, hchildren, hof⟩ := ht
    have hkids := h.nodup_children hn
    rw [hchildren] at hkids
    rw [nodes, List.map_cons, List.nodup_cons]
    refine ⟨fun hmem => ?_, nodup_nodesOfAll h below hof hbelow hkids⟩
    obtain ⟨m, hm, hid⟩ := List.mem_map.mp hmem
    obtain ⟨row, hrow, rfl⟩ := exists_row_all (n :: above) hm
    -- Below itself the node would have a lineage that is longer than its own.
    obtain ⟨t, _, hrl, xs, hxs⟩ := under_of_mem_rowsOfAll h below hof hbelow hrow
    rw [hid] at hrl hxs
    rw [h.lineage_unique hrl hl] at hxs
    have hlen := congrArg List.length hxs
    simp at hlen
    omega

theorem nodup_nodesOfAll {above : List Node} (h : a.IsTree root) : ∀ ts : List Outline,
    AllOf a ts → (∀ t ∈ ts, a.Lineage root t.top.id (above.map Node.id)) →
      (ts.map fun t => t.top.id).Nodup → ((nodesOfAll ts).map Node.id).Nodup
  | [], _, _, _ => List.nodup_nil
  | t :: ts, ⟨ht, hts⟩, hl, hkids => by
    rw [List.map_cons, List.nodup_cons] at hkids
    have hlt := hl t List.mem_cons_self
    have hlts := fun u hu => hl u (List.mem_cons_of_mem t hu)
    rw [nodesOfAll, List.map_append, List.nodup_append']
    refine ⟨nodup_nodes h t ht hlt, nodup_nodesOfAll h ts hts hlts hkids.2, ?_⟩
    intro id hid hid'
    obtain ⟨m, hm, rfl⟩ := List.mem_map.mp hid
    obtain ⟨m', hm', hsame⟩ := List.mem_map.mp hid'
    obtain ⟨row, hrow, rfl⟩ := exists_row above hm
    obtain ⟨row', hrow', rfl⟩ := exists_row_all above hm'
    have hunder := under_of_mem_rows h t ht hlt hrow
    obtain ⟨u, hu, hunder'⟩ := under_of_mem_rowsOfAll h ts hts hlts hrow'
    exact hkids.1 (List.mem_map.mpr ⟨u, hu, (hunder.top_id_eq h hunder' hsame.symm).symm⟩)

end

theorem top_mem_nodes : ∀ t : Outline, t.top ∈ t.nodes
  | node n below => by
    rw [nodes]
    exact List.mem_cons_self

theorem mem_nodesOfAll_iff {n : Node} {ts : List Outline} :
    n ∈ nodesOfAll ts ↔ ∃ t ∈ ts, n ∈ t.nodes := by
  induction ts with
  | nil => simp [nodesOfAll]
  | cons t ts ih => simp [nodesOfAll, ih]

mutual

theorem exists_part {m : Node} : ∀ t : Outline, t.Of a → m ∈ t.nodes →
    ∃ below, (node m below).Of a ∧ (node m below).nodes ⊆ t.nodes
  | node n below, ht, hm => by
    rw [nodes] at hm
    rcases List.mem_cons.mp hm with rfl | hm
    · exact ⟨below, ht, List.Subset.refl _⟩
    · obtain ⟨part, hpart, hsub⟩ := exists_partOfAll below ht.2.2 hm
      refine ⟨part, hpart, fun k hk => ?_⟩
      rw [nodes]
      exact List.mem_cons_of_mem n (hsub hk)

theorem exists_partOfAll {m : Node} : ∀ ts : List Outline, AllOf a ts → m ∈ nodesOfAll ts →
    ∃ below, (node m below).Of a ∧ (node m below).nodes ⊆ nodesOfAll ts
  | t :: ts, ⟨ht, hts⟩, hm => by
    rw [nodesOfAll] at hm ⊢
    rcases List.mem_append.mp hm with hm | hm
    · obtain ⟨part, hpart, hsub⟩ := exists_part t ht hm
      exact ⟨part, hpart, List.subset_append_of_subset_left _ hsub⟩
    · obtain ⟨part, hpart, hsub⟩ := exists_partOfAll ts hts hm
      exact ⟨part, hpart, List.subset_append_of_subset_right _ hsub⟩

end

theorem find?_of_mem_nodes {t : Outline} {m : Node} (ht : t.Of a) (hm : m ∈ t.nodes) :
    a.find? m.id = some m := by
  obtain ⟨_, hpart, _⟩ := exists_part t ht hm
  exact hpart.1

theorem child_mem_nodes {t : Outline} {m : Node} (ht : t.Of a) (hm : m ∈ t.nodes)
    (hid : id ∈ m.children) : id ∈ t.nodes.map Node.id := by
  obtain ⟨below, ⟨_, hchildren, _⟩, hsub⟩ := exists_part t ht hm
  rw [hchildren] at hid
  obtain ⟨u, hu, rfl⟩ := List.mem_map.mp hid
  apply List.mem_map_of_mem
  apply hsub
  rw [nodes]
  exact List.mem_cons_of_mem m (mem_nodesOfAll_iff.mpr ⟨u, hu, top_mem_nodes u⟩)

theorem mem_nodes_of_reaches {t : Outline} (ht : t.Of a) (hr : a.Reaches t.top.id id) :
    id ∈ t.nodes.map Node.id := by
  induction hr with
  | refl => exact List.mem_map_of_mem (top_mem_nodes t)
  | tail _ hl ih =>
    obtain ⟨n, hn, hchild⟩ := hl
    obtain ⟨m, hm, rfl⟩ := List.mem_map.mp ih
    rw [find?_of_mem_nodes ht hm, Option.some.injEq] at hn
    subst hn
    exact child_mem_nodes ht hm hchild

theorem exists_covers (h : a.IsTree root) : ∃ t : Outline, t.Covers a root := by
  obtain ⟨t, rfl, ht⟩ := exists_of_lineage h .root h.contains_root
  have hl : a.Lineage t.top.id t.top.id (([] : List Node).map Node.id) := .root
  have hnodup := nodup_nodes h t ht hl
  have hkeys : ∀ id, id ∈ t.nodes.map Node.id ↔ id ∈ a.keys := by
    intro id
    rw [Table.mem_keys_iff]
    constructor
    · intro hid
      obtain ⟨n, hn, rfl⟩ := List.mem_map.mp hid
      rw [find?_of_mem_nodes ht hn]
      rfl
    · intro hid
      rw [← Table.contains_eq_isSome] at hid
      exact mem_nodes_of_reaches ht (h.reaches hid)
  refine ⟨t, rfl, ht, (List.perm_ext_iff_of_nodup hnodup a.nodup_keys).mpr hkeys, ?_⟩
  intro row hrow
  exact (under_of_mem_rows h t ht hl hrow).lineage

end Outline

end SceneEditor
