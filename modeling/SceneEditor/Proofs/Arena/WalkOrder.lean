import SceneEditor.Proofs.Arena.Outline

namespace SceneEditor

namespace Arena

variable {a b : Arena} {root id : String} {seen stack : List String}

theorem walkFrom_of_mem (h : id ∈ seen) :
    a.walkFrom seen (id :: stack) = a.walkFrom seen stack := by
  rw [walkFrom, dif_pos h]

theorem walkFrom_of_none (hs : id ∉ seen) (h : a.find? id = none) :
    a.walkFrom seen (id :: stack) = a.walkFrom seen stack := by
  rw [walkFrom, dif_neg hs]
  split
  · rfl
  · next n hn =>
    rw [h] at hn
    cases hn

theorem walkFrom_of_some {n : Node} (hs : id ∉ seen) (h : a.find? id = some n) :
    a.walkFrom seen (id :: stack) = id :: a.walkFrom (id :: seen) (n.children ++ stack) := by
  rw [walkFrom, dif_neg hs]
  split
  · next hn =>
    rw [h] at hn
    cases hn
  · next m hm =>
    rw [h, Option.some.injEq] at hm
    rw [hm]

theorem walkFrom_congr (h : ∀ id, a.find? id = b.find? id) (seen stack : List String) :
    a.walkFrom seen stack = b.walkFrom seen stack := by
  fun_induction walkFrom a seen stack with
  | case1 => rw [walkFrom]
  | case2 seen id stack hs ih => rw [ih, walkFrom_of_mem hs]
  | case3 seen id stack hs hn ih => rw [ih, walkFrom_of_none hs ((h id).symm.trans hn)]
  | case4 seen id stack hs n hn ih => rw [ih, walkFrom_of_some hs ((h id).symm.trans hn)]

theorem walk_congr (h : ∀ id, a.find? id = b.find? id) (start : String) :
    a.walk start = b.walk start := walkFrom_congr h [] [start]

/-- The nodes of an arena in an order in which the root is the first and every other node comes
after its parent, each node once. -/
structure IsListing (a : Arena) (root : String) (ns : List Node) : Prop where
  once : (ns.map fun n => (n.id, n)).Perm a.entries
  root_first : ns.head?.map Node.id = some root
  parent_before : ∀ {xs n ys}, ns = xs ++ n :: ys → n.id ≠ root → ∃ p ∈ xs, n.parent = some p.id

end Arena

namespace Outline

variable {a : Arena} {root id : String}

mutual

theorem walkFrom_nodes (seen stack : List String) : ∀ t : Outline, t.Of a →
    ((t.nodes.map Node.id).reverse ++ seen).Nodup →
      a.walkFrom seen (t.top.id :: stack) = t.nodes.map Node.id ++
        a.walkFrom ((t.nodes.map Node.id).reverse ++ seen) stack
  | node n below, ⟨hn, hchildren, hof⟩, hnodup => by
    have hids : ((node n below).nodes.map Node.id).reverse ++ seen =
        ((nodesOfAll below).map Node.id).reverse ++ n.id :: seen := by
      rw [nodes, List.map_cons, List.reverse_cons, List.append_assoc, List.singleton_append]
    rw [hids] at hnodup ⊢
    have hseen : n.id ∉ seen := (List.nodup_cons.mp (List.nodup_append.mp hnodup).2.1).1
    rw [top, Arena.walkFrom_of_some hseen hn, hchildren,
      walkFrom_nodesOfAll (n.id :: seen) stack below hof hnodup, nodes, List.map_cons,
      List.cons_append]

theorem walkFrom_nodesOfAll (seen stack : List String) : ∀ ts : List Outline, AllOf a ts →
    (((nodesOfAll ts).map Node.id).reverse ++ seen).Nodup →
      a.walkFrom seen (ts.map (fun t => t.top.id) ++ stack) = (nodesOfAll ts).map Node.id ++
        a.walkFrom (((nodesOfAll ts).map Node.id).reverse ++ seen) stack
  | [], _, _ => rfl
  | t :: ts, ⟨ht, hts⟩, hnodup => by
    have hids : ((nodesOfAll (t :: ts)).map Node.id).reverse ++ seen =
        ((nodesOfAll ts).map Node.id).reverse ++ ((t.nodes.map Node.id).reverse ++ seen) := by
      rw [nodesOfAll, List.map_append, List.reverse_append, List.append_assoc]
    rw [hids] at hnodup ⊢
    have hfirst := (List.nodup_append.mp hnodup).2.1
    rw [List.map_cons, List.cons_append, walkFrom_nodes _ _ t ht hfirst,
      walkFrom_nodesOfAll _ _ ts hts hnodup, nodesOfAll, List.map_append, List.append_assoc]

end

theorem walk_eq_nodes {t : Outline} (ht : t.Of a) (hnodup : (t.nodes.map Node.id).Nodup) :
    a.walk t.top.id = t.nodes.map Node.id := by
  have hall : ((t.nodes.map Node.id).reverse ++ []).Nodup := by
    rwa [List.append_nil, List.nodup_reverse]
  rw [Arena.walk, walkFrom_nodes [] [] t ht hall, Arena.walkFrom, List.append_nil]

theorem exists_nodes_of_lineage (h : a.IsTree root) {above : List String}
    (hl : a.Lineage root id above) : ∃ ns : List Node, above = ns.map Node.id := by
  induction hl with
  | root => exact ⟨[], rfl⟩
  | child hp _ ih =>
    obtain ⟨ns, rfl⟩ := ih
    obtain ⟨p, hp⟩ := Arena.exists_of_contains (h.contains_parent hp)
    exact ⟨p :: ns, by rw [List.map_cons, h.id_eq hp]⟩

mutual

theorem above_rows {above : List Node} {row : Row} {xs ys : List Row} : ∀ t : Outline,
    t.rows above = xs ++ row :: ys →
      row.above = above ∨ ∃ p ∈ xs, row.above.head? = some p.node
  | node n below, h => by
    rw [rows] at h
    cases xs with
    | nil =>
      rw [List.nil_append, List.cons.injEq] at h
      exact .inl (congrArg Row.above h.1.symm)
    | cons x xs =>
      rw [List.cons_append, List.cons.injEq] at h
      obtain ⟨rfl, h⟩ := h
      rcases above_rowsOfAll below h with habove | ⟨p, hp, hhead⟩
      · exact .inr ⟨⟨n, above⟩, List.mem_cons_self, by rw [habove]; rfl⟩
      · exact .inr ⟨p, List.mem_cons_of_mem _ hp, hhead⟩

theorem above_rowsOfAll {above : List Node} {row : Row} {xs ys : List Row} :
    ∀ ts : List Outline, rowsOfAll above ts = xs ++ row :: ys →
      row.above = above ∨ ∃ p ∈ xs, row.above.head? = some p.node
  | [], h => by simp [rowsOfAll] at h
  | t :: ts, h => by
    rw [rowsOfAll] at h
    rcases List.append_eq_append_iff.mp h with ⟨zs, hxs, hts⟩ | ⟨zs, ht, hzs⟩
    · rcases above_rowsOfAll ts hts with habove | ⟨p, hp, hhead⟩
      · exact .inl habove
      · exact .inr ⟨p, by rw [hxs]; exact List.mem_append_right _ hp, hhead⟩
    · cases zs with
      | nil =>
        rw [List.append_nil] at ht
        rw [List.nil_append] at hzs
        have hts : rowsOfAll above ts = [] ++ row :: ys := hzs.symm
        rcases above_rowsOfAll ts hts with habove | ⟨p, hp, _⟩
        · exact .inl habove
        · cases hp
      | cons z zs =>
        obtain ⟨rfl, rfl⟩ := List.cons.inj hzs
        exact above_rows t ht

end

theorem parent_before (h : a.IsTree root) {t : Outline} {above : List Node} (ht : t.Of a)
    (hl : a.Lineage root t.top.id (above.map Node.id)) {xs ys : List Node} {n : Node}
    (hns : t.nodes = xs ++ n :: ys) (hne : n.id ≠ t.top.id) :
    ∃ p ∈ xs, a.HasParent n.id p.id := by
  rw [← map_node_rows above] at hns
  obtain ⟨us, ws, hrows, rfl, hws⟩ := List.map_eq_append_iff.mp hns
  obtain ⟨row, vs, rfl, rfl, -⟩ := List.map_eq_cons_iff.mp hws
  have hmem : row ∈ t.rows above := by
    rw [hrows]
    exact List.mem_append_right _ List.mem_cons_self
  obtain ⟨hlineage, zs, hzs⟩ := under_of_mem_rows h t ht hl hmem
  rcases above_rows t hrows with habove | ⟨p, hp, hhead⟩
  · rw [habove] at hzs
    have hsame : [] ++ row.node.id :: above.map Node.id = zs ++ t.top.id :: above.map Node.id := hzs
    exact absurd (List.cons.inj (List.append_inj_right' hsame rfl)).1 hne
  · refine ⟨p.node, List.mem_map_of_mem hp, ?_⟩
    obtain ⟨rest, hrest⟩ := List.head?_eq_some_iff.mp hhead
    rw [hrest, List.map_cons] at hlineage
    cases hlineage with
    | child hparent _ => exact hparent

theorem exists_walk_eq_nodes (h : a.IsTree root) (hc : a.contains id = true) :
    ∃ t : Outline, t.top.id = id ∧ t.Of a ∧ a.walk id = t.nodes.map Node.id ∧
      ∀ {xs ys : List Node} {n : Node}, t.nodes = xs ++ n :: ys → n.id ≠ id →
        ∃ p ∈ xs, a.HasParent n.id p.id := by
  obtain ⟨above, hl⟩ := h.exists_lineage hc
  obtain ⟨t, rfl, ht⟩ := exists_of_lineage h hl hc
  obtain ⟨ns, rfl⟩ := exists_nodes_of_lineage h hl
  exact ⟨t, rfl, ht, walk_eq_nodes ht (nodup_nodes h t ht hl), parent_before h ht hl⟩

namespace Covers

variable {t : Outline}

theorem walk_eq (h : t.Covers a root) : a.walk root = t.nodes.map Node.id := by
  have hnodup := h.once.nodup_iff.mpr a.nodup_keys
  rw [← h.top_eq, walk_eq_nodes h.of hnodup]

theorem isListing (h : t.Covers a root) (ht : a.IsTree root) : a.IsListing root t.nodes where
  once := by
    have hnodup : (t.nodes.map fun n => (n.id, n)).Nodup := by
      apply List.Nodup.of_map Prod.fst
      rw [List.map_map]
      exact h.once.nodup_iff.mpr a.nodup_keys
    apply (List.perm_ext_iff_of_nodup hnodup (.of_map Prod.fst a.nodup_keys)).mpr
    rintro ⟨id, n⟩
    rw [Table.mem_entries_iff, List.mem_map]
    constructor
    · rintro ⟨m, hm, hmn⟩
      obtain ⟨rfl, rfl⟩ := Prod.mk.inj hmn
      exact find?_of_mem_nodes h.of hm
    · intro hn
      have hid : id ∈ t.nodes.map Node.id :=
        h.once.mem_iff.mpr (Table.mem_keys_iff.mpr (by rw [hn]; rfl))
      obtain ⟨m, hm, rfl⟩ := List.mem_map.mp hid
      rw [find?_of_mem_nodes h.of hm, Option.some.injEq] at hn
      exact ⟨m, hm, by rw [hn]⟩
  root_first := by
    have htop := h.top_eq
    cases t with
    | node n below => rw [nodes, List.head?_cons, Option.map_some, ← htop, top]
  parent_before := by
    intro xs n ys hns hne
    have hl : a.Lineage root t.top.id (([] : List Node).map Node.id) := by
      rw [h.top_eq]
      exact .root
    obtain ⟨p, hp, m, hm, hparent⟩ :=
      Outline.parent_before ht h.of hl hns (by rwa [h.top_eq])
    have hn : n ∈ t.nodes := by
      rw [hns]
      exact List.mem_append_right _ List.mem_cons_self
    rw [find?_of_mem_nodes h.of hn, Option.some.injEq] at hm
    exact ⟨p, hp, by rw [hm, hparent]⟩

end Covers

end Outline

end SceneEditor
