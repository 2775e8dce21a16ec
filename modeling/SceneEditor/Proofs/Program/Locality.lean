import SceneEditor.Proofs.Arena.Branches
import SceneEditor.Proofs.Scene.Removal
import SceneEditor.Proofs.Scene.Addition

namespace SceneEditor

open Arena

namespace Arena.IsTree

variable {δ : Type} {a : Arena} {root id parent : String} {below : δ → Node → δ}

theorem exists_visit_eq (h : a.IsTree root) (below : δ → Node → δ)
    (hid : a.contains id = true) (d : δ) : ∃ before e after,
      a.visit below [] (root, d) = before ++ a.visit below [] (id, e) ++ after := by
  have hroot : (a.visitAll below [] [(root, d)]).map Prod.fst = a.walk root := by
    rw [visitAll_singleton, map_fst_visit]
  have hmem : id ∈ (a.visitAll below [] [(root, d)]).map Prod.fst := by
    rw [hroot]
    exact mem_walk_iff.mpr ⟨hid, h.reaches hid⟩
  obtain ⟨before, e, after, hnot, hvisit⟩ := exists_visit_of_mem hmem
  rw [List.append_nil] at hnot hvisit
  obtain ⟨n, hn⟩ := exists_of_contains hid
  -- Nothing that the node leads to comes before it.
  have hwalk : a.walk root = before.map Prod.fst ++ id ::
      ((a.visitAll below (id :: (before.map Prod.fst).reverse)
        (n.children.map (·, below e n)) ++ after).map Prod.fst) := by
    rw [← hroot, hvisit, visit_of_some hnot hn]
    simp
  have hnodup := nodup_walk a root
  rw [hwalk, List.nodup_append'] at hnodup
  refine ⟨before, e, after, ?_⟩
  rw [← visitAll_singleton, hvisit, ← visitAll_singleton [] (id, e), ← visitAll_singleton,
    visitAll_congr_seen]
  rw [List.forall_mem_singleton]
  intro x hx
  refine iff_of_false ?_ List.not_mem_nil
  rw [List.mem_reverse]
  intro hbefore
  rcases Relation.reflTransGen_iff_eq_or_transGen.mp (h.reaches_iff_climbs.mp hx) with rfl | hx
  · exact hnot (List.mem_reverse.mpr hbefore)
  · exact hnodup.2.2 hbefore
      (List.mem_cons_of_mem _ (h.mem_after_of_climbs h.contains_root hwalk hx))

theorem exists_visit_eq_concat {p : String} {n leaf : Node} {cs : List String} (h : a.IsTree root)
    (below : δ → Node → δ) (hp : a.find? p = some n) (hchildren : n.children = cs ++ [id])
    (hid : a.find? id = some leaf) (hleaf : leaf.children = []) (d : δ) :
    ∃ ys, id ∉ ys.map Prod.fst ∧ a.visit below [] (p, d) = ys ++ [(id, below d n)] := by
  have hlists {c : String} (hc : c ∈ n.children) : a.Lists p c := ⟨n, hp, hc⟩
  have hparent : a.HasParent id p := h.lists_iff.mp (hlists (by simp [hchildren]))
  have hne : id ≠ p := by
    rintro rfl
    exact h.parent_notMem_walk hparent (mem_walk_iff.mpr ⟨contains_of_find? hp, .refl⟩)
  have hnodup := h.nodup_children hp
  rw [hchildren, List.nodup_append'] at hnodup
  let ys := a.visitAll below [p] (cs.map (·, below d n))
  -- No way from one of the other children leads to this one, for it would lead through the parent.
  have hys : id ∉ ys.map Prod.fst := by
    intro hm
    rw [← walkFrom_eq_visitAll, List.map_map] at hm
    obtain ⟨_, _, c, hc, hreach⟩ := walkFrom_sound hm
    have hc : c ∈ cs := by simpa using hc
    rcases Relation.ReflTransGen.cases_tail hreach with rfl | ⟨y, hy, hlast⟩
    · exact hnodup.2.2 hc List.mem_cons_self
    · obtain rfl : y = p := (h.lists_iff.mp hlast).unique hparent
      have hcp : a.HasParent c y := h.lists_iff.mp (hlists (by simp [hchildren, hc]))
      exact h.parent_notMem_walk hcp (mem_walk_iff.mpr ⟨hlast.contains, hy⟩)
  refine ⟨(p, d) :: ys, ?_, ?_⟩
  · rw [List.map_cons, List.mem_cons, not_or]
    exact ⟨hne, hys⟩
  · have hunseen : id ∉ (ys.map Prod.fst).reverse ++ [p] := by simpa [hne] using hys
    rw [visit_of_some List.not_mem_nil hp, hchildren, List.map_append, visitAll_append,
      List.map_singleton, visitAll_singleton, visit_of_some hunseen hid, hleaf, List.map_nil,
      visitAll]
    rfl

end Arena.IsTree

namespace Program

def linesAt (r : Registry) (l : Layout) (s : Snapshot) (cs : List (Call Int)) : List String :=
  cs.filterMap (lineAt r l s.nodes)

/-- A piece of a program: the lines of some nodes that the loop comes to one after the other, with
the lines before and after them. -/
structure Piece (r : Registry) (l : Layout) (s : Snapshot) (ids : List String)
    (before lines after : List String) : Prop where
  statements_eq : statements r l s = before ++ lines ++ after
  stops_eq : ∃ xs ys zs : List (Call Int), stops r l s = xs ++ ys ++ zs ∧ ys.map Prod.fst = ids ∧
    linesAt r l s xs = before ∧ linesAt r l s ys = lines ∧ linesAt r l s zs = after

def ownLine (r : Registry) (l : Layout) (depth : Int) (n : Node) : List String :=
  (((r.emitterFor n.type).emit n).map (l.line depth)).toList

section Emitters

variable {n m : Node}

theorem emit_congr (htype : m.type = n.type) (hproperties : m.properties = n.properties) :
    (Registry.builtin.emitterFor m.type).emit m = (Registry.builtin.emitterFor n.type).emit n := by
  obtain ⟨_, _, type, _, _, _⟩ := n
  obtain ⟨_, _, _, _, _, _⟩ := m
  cases htype
  cases hproperties
  cases type <;> rfl

theorem isSome_emit (n : Node) : ((Registry.builtin.emitterFor n.type).emit n).isSome =
    decide (n.type ≠ .container) := by
  cases n.type <;> rfl

theorem length_ownLine_congr (l : Layout) (d : Int) (htype : m.type = n.type) :
    (ownLine .builtin l d m).length = (ownLine .builtin l d n).length := by
  have hlength (k : Node) : (ownLine .builtin l d k).length =
      if k.type = .container then 0 else 1 := by
    have hsome := isSome_emit k
    rw [ownLine]
    cases he : (Registry.builtin.emitterFor k.type).emit k with
    | none => simpa [he] using hsome
    | some statement => simpa [he] using hsome
  rw [hlength, hlength, htype]

end Emitters

variable {r : Registry} {l : Layout} {s t : Snapshot} {a b : Arena} {gone : List String}
  {f : String → Node → Node} {id : String}

theorem linesAt_append (xs ys : List (Call Int)) :
    linesAt r l s (xs ++ ys) = linesAt r l s xs ++ linesAt r l s ys := List.filterMap_append

theorem linesAt_congr {cs : List (Call Int)}
    (h : ∀ c ∈ cs, lineAt r l t.nodes c = lineAt r l s.nodes c) :
    linesAt r l t cs = linesAt r l s cs := List.filterMap_congr h

theorem linesAt_singleton {n : Node} (hn : s.nodes.find? id = some n) (d : Int) :
    linesAt r l s [(id, d)] = ownLine r l d n := by
  rw [linesAt, List.filterMap_cons, lineAt, hn, List.filterMap_nil, Option.bind_some, ownLine]
  cases ((r.emitterFor n.type).emit n).map (l.line d) <;> rfl

theorem piece_of_stops {xs ys zs : List (Call Int)} (h : stops r l s = xs ++ ys ++ zs) :
    Piece r l s (ys.map Prod.fst) (linesAt r l s xs) (linesAt r l s ys) (linesAt r l s zs) where
  statements_eq := by rw [statements_eq_stops, h, ← linesAt_append, ← linesAt_append, linesAt]
  stops_eq := ⟨xs, ys, zs, h, rfl, rfl, rfl, rfl⟩

theorem depthUnder_congr {n m : Node} (d : Int) (h : m.type = n.type) :
    depthUnder r d m = depthUnder r d n := by
  rw [depthUnder, depthUnder, h]

theorem stops_of_leaves (h : s.nodes.Leaves gone f t.nodes) (hroot : t.root = s.root)
    (hkept : s.root ∉ gone) : stops r l t = (stops r l s).filter (·.1 ∉ gone) := by
  rw [← visit_eq_stops, ← visit_eq_stops, hroot]
  exact h.visit_eq (fun d => depthUnder_congr d) hkept _

theorem lineAt_of_leaves (h : a.Leaves gone f b) {c : Call Int} (hc : c.1 ∉ gone)
    (hproperties : ∀ n, a.find? c.1 = some n → (f c.1 n).properties = n.properties) :
    lineAt .builtin l b c = lineAt .builtin l a c := by
  rw [lineAt, lineAt, h.find?_eq hc]
  cases hn : a.find? c.1 with
  | none => rfl
  | some n =>
    rw [Option.map_some, Option.bind_some, Option.bind_some,
      emit_congr (h.type_eq hc hn) (hproperties n hn)]

theorem stops_of_gone (h : s.nodes.Leaves gone f t.nodes) (hroot : t.root = s.root)
    (hkept : s.root ∉ gone) (hf : ∀ id n, (f id n).properties = n.properties)
    {xs ys zs : List (Call Int)} (hstops : stops .builtin l s = xs ++ ys ++ zs)
    (hys : ys.map Prod.fst = gone) : stops .builtin l t = xs ++ zs ∧
      ∀ c ∈ xs ++ zs, lineAt .builtin l t.nodes c = lineAt .builtin l s.nodes c := by
  have hnodup : ((xs ++ ys ++ zs).map Prod.fst).Nodup := by
    rw [← hstops, map_fst_stops]
    exact nodup_walk s.nodes s.root
  rw [List.map_append, List.map_append, hys, List.nodup_append', List.nodup_append'] at hnodup
  obtain ⟨⟨_, _, hxs⟩, _, hzs⟩ := hnodup
  rw [List.disjoint_append_left] at hzs
  have hkeep : ∀ c ∈ xs ++ zs, c.1 ∉ gone := by
    rw [List.forall_mem_append]
    exact ⟨fun c hc => hxs (List.mem_map_of_mem hc),
      fun c hc hm => hzs.2 hm (List.mem_map_of_mem hc)⟩
  refine ⟨?_, fun c hc => lineAt_of_leaves h (hkeep c hc) fun n _ => hf c.1 n⟩
  have hgo : ys.filter (·.1 ∉ gone) = [] := by
    rw [List.filter_eq_nil_iff]
    intro c hc
    simpa [← hys] using ⟨c.2, hc⟩
  have hstay : (xs ++ zs).filter (·.1 ∉ gone) = xs ++ zs :=
    List.filter_eq_self.mpr fun c hc => decide_eq_true (hkeep c hc)
  rw [stops_of_leaves h hroot hkept, hstops, List.filter_append, List.filter_append, hgo,
    List.append_nil, ← List.filter_append, hstay]

theorem stops_snapshot (s : Scene) (k : Nat) :
    stops r l (s.snapshot k) = s.arena.visit (depthUnder r) [] (s.root, l.baseDepth) :=
  (visit_eq_stops r l (s.snapshot k)).symm

end Program

theorem Node.dropChild_of_notMem {n : Node} {id : String} (h : id ∉ n.children) :
    n.dropChild id = n := by
  have hfilter : n.children.filter (· ≠ id) = n.children :=
    List.filter_eq_self.mpr fun c hc => decide_eq_true (ne_of_mem_of_not_mem hc h)
  rw [dropChild, hfilter]

theorem Node.dropChild_addChild {n : Node} {id : String} (h : id ∉ n.children) :
    (n.addChild id).dropChild id = n := by
  have hdrop : (n.addChild id).dropChild id = n.dropChild id := by simp [dropChild, addChild]
  rw [hdrop, dropChild_of_notMem h]

namespace Scene

open Program Relation

variable {s : Scene} {id p : String} {n : Node} {kind : NodeType} {l : Layout}

theorem addNode_eq_some {parent name type : Value} {ids : IdSupply}
    (h : (s.addNode parent name type ids).1.answer = .ok (some id)) :
    ∃ p n kind, parent = .text p ∧ s.arena.find? p = some n ∧ type.Names kind ∧
      s.isTaken id = false ∧ (s.addNode parent name type ids).1.scene =
        { s with arena := s.withNode id name kind p, revision := s.revision + 1 } := by
  unfold addNode at h ⊢
  cases hres : s.resolve parent with
  | error e => simp [hres, Edit.failed] at h
  | ok found =>
    rcases found with _ | ⟨p, n⟩
    · simp [hres, Edit.declined] at h
    · obtain ⟨rfl, hn⟩ := resolve_eq_some hres
      cases htype : NodeType.parse? type with
      | none => simp [hres, htype, Edit.declined] at h
      | some kind =>
        rcases hf : ids.fresh s.isTaken maxAttempts with ⟨_ | _ | fresh, ids'⟩
        · simp [hres, htype, hf, Edit.failed] at h
        · simp [hres, htype, hf, Edit.declined] at h
        · obtain rfl : fresh = id := by simpa [hres, htype, hf, Edit.done] using h
          exact ⟨p, n, kind, rfl, hn, NodeType.parse?_eq_some_iff_names.mp htype,
            IdSupply.fresh_eq_some hf, rfl⟩

theorem removeNode_eq_true {v : Value} (h : (s.removeNode v).answer = .ok true) :
    ∃ id n, v = .text id ∧ s.arena.find? id = some n ∧ id ≠ s.root := by
  unfold removeNode at h
  by_cases hroot : (v == .text s.root) = true
  · simp [hroot, Edit.declined] at h
  · rw [if_neg hroot] at h
    cases hres : s.resolve v with
    | error e => simp [hres, Edit.failed] at h
    | ok found =>
      rcases found with _ | ⟨id, n⟩
      · simp [hres, Edit.declined] at h
      · obtain ⟨rfl, hn⟩ := resolve_eq_some hres
        exact ⟨id, n, rfl, hn, by simpa [Value.sameKey_text] using hroot⟩

namespace WellFormed

theorem leaves_withNode (h : s.WellFormed) (hid : s.arena.contains id = false) (name : Value)
    (kind : NodeType) (p : String) :
    (s.withNode id name kind p).Leaves [id] (fun _ m => m.dropChild id) s.arena where
  closed := by
    intro key m hkey hm
    rw [find?_withNode, if_pos (List.mem_singleton.mp hkey), Option.some.injEq] at hm
    rw [← hm]
    exact List.nil_subset _
  find?_eq := by
    intro key hkey
    rw [find?_withNode, if_neg (mt List.mem_singleton.mpr hkey), Option.map_map]
    cases hm : s.arena.find? key with
    | none => rfl
    | some m =>
      have hnot : id ∉ m.children := by
        intro hc
        simp [h.tree.contains_child ⟨m, hm, hc⟩] at hid
      rw [Option.map_some, Function.comp_apply]
      split
      · rw [Node.dropChild_addChild hnot]
      · rw [Node.dropChild_of_notMem hnot]
  type_eq := fun _ _ => rfl
  children_eq := fun _ _ => List.filter_congr fun c _ => by simp

theorem visit_withNode (h : s.WellFormed) (hp : s.arena.find? p = some n)
    (hid : s.isTaken id = false) (r : Registry) (name : Value) (kind : NodeType) (d : Int) :
    (s.withNode id name kind p).visit (depthUnder r) [] (p, d) =
      s.arena.visit (depthUnder r) [] (p, d) ++ [(id, depthUnder r d n)] := by
  have hnew := (isTaken_eq_false_iff.mp hid).1
  have hne : p ≠ id := by
    rintro rfl
    simp [contains_of_find? hp] at hnew
  have htree : (s.withNode id name kind p).IsTree s.root := (h.withNode hp hid).tree
  have hparent : (s.withNode id name kind p).find? p = some (n.addChild id) := by
    rw [find?_withNode, if_neg hne, hp, Option.map_some, if_pos rfl]
  have hchild : (s.withNode id name kind p).find? id =
      some (Node.create id name kind (some p)) := by rw [find?_withNode, if_pos rfl]
  obtain ⟨ys, hys, hvisit⟩ := htree.exists_visit_eq_concat (depthUnder r) hparent rfl
    hchild rfl d
  have hstay : ys.filter (·.1 ∉ [id]) = ys := by
    rw [List.filter_eq_self]
    rintro c hc
    have hcid : c.1 ≠ id := fun he => hys (he ▸ List.mem_map_of_mem hc)
    simpa using hcid
  have hbelow : depthUnder r d (n.addChild id) = depthUnder r d n := depthUnder_congr d rfl
  rw [(h.leaves_withNode hnew name kind p).visit_eq (fun d => depthUnder_congr d)
    (mt List.mem_singleton.mp hne), hvisit, List.filter_append, hstay, hbelow]
  simp

end WellFormed

theorem pieces_of_added (h : s.WellFormed) (hp : s.arena.find? p = some n)
    (hid : s.isTaken id = false) (l : Layout) (k : Nat) (name : Value) (kind : NodeType) :
    let t := { s with arena := s.withNode id name kind p, revision := s.revision + 1 }
    ∃ before lines after d, (p, d) ∈ stops .builtin l (s.snapshot k) ∧
      Piece .builtin l (s.snapshot k) (s.arena.walk p) before lines after ∧
      Piece .builtin l (t.snapshot k) [id] (before ++ lines) (ownLine .builtin l
        (depthUnder .builtin d n) (Node.create id name kind (some p))) after := by
  intro t
  have ht : t.WellFormed := h.withNode hp hid
  have hnew := (isTaken_eq_false_iff.mp hid).1
  have hne {x : String} (hx : s.arena.contains x = true) : x ≠ id := by
    rintro rfl
    simp [hx] at hnew
  have hp' : t.arena.contains p = true := by
    rw [Table.contains_eq_isSome, find?_withNode, if_neg (hne (contains_of_find? hp)), hp]
    rfl
  have hchild : t.arena.find? id = some (Node.create id name kind (some p)) := by
    rw [find?_withNode, if_pos rfl]
  obtain ⟨xs, d, zs, hvisit⟩ := ht.tree.exists_visit_eq (depthUnder .builtin) hp'
    l.baseDepth
  have hstops : stops .builtin l (t.snapshot k) =
      xs ++ s.arena.visit (depthUnder .builtin) [] (p, d) ++ [(id, depthUnder .builtin d n)] ++
        zs := by
    rw [stops_snapshot, hvisit, h.visit_withNode hp hid]
    simp only [List.append_assoc]
  have hleaves : (t.snapshot k).nodes.Leaves [id] (fun _ m => m.dropChild id)
      (s.snapshot k).nodes := h.leaves_withNode hnew name kind p
  obtain ⟨hold, hlines⟩ := stops_of_gone hleaves rfl
    (mt List.mem_singleton.mp (hne h.tree.contains_root)) (fun _ _ => rfl) hstops rfl
  rw [List.forall_mem_append] at hlines
  have hpiece := piece_of_stops hold
  have hpiece' := piece_of_stops hstops
  rw [map_fst_visit] at hpiece
  rw [List.map_singleton, linesAt_singleton hchild, ← linesAt_congr hlines.1,
    ← linesAt_congr hlines.2, linesAt_append] at hpiece'
  refine ⟨_, _, _, d, ?_, hpiece, hpiece'⟩
  rw [hold, visit_of_some List.not_mem_nil hp]
  simp

theorem WellFormed.leaves_withoutNodes (h : s.WellFormed) (hn : s.arena.find? id = some n) :
    s.arena.Leaves (s.arena.walk id)
      (fun key m => if n.parent = some key then m.dropChild id else m)
      (s.withoutNodes id n.parent (s.arena.walk id)) where
  closed := by
    intro x m hx hm c hc
    have hlists : s.arena.Lists x c := ⟨m, hm, hc⟩
    exact mem_walk_iff.mpr ⟨h.tree.contains_child hlists, (mem_walk_iff.mp hx).2.tail hlists⟩
  find?_eq := by
    intro x hx
    rw [find?_withoutNodes, if_neg hx]
  type_eq := by
    intro x m _ _
    split <;> rfl
  children_eq := by
    intro x m hx hm
    have hid : id ∈ s.arena.walk id := mem_walk_iff.mpr ⟨contains_of_find? hn, .refl⟩
    -- Of the children of a node that stays, only the one that is removed itself can go.
    have hgone : ∀ c ∈ m.children, c ∈ s.arena.walk id ↔ c = id := by
      intro c hc
      have hparent := h.tree.lists_iff.mp ⟨m, hm, hc⟩
      constructor
      · intro hcw
        by_contra hne
        exact hx (h.tree.parent_mem_walk hcw hne hparent)
      · rintro rfl
        exact hid
    have hfilter : m.children.filter (· ∉ s.arena.walk id) = m.children.filter (· ≠ id) :=
      List.filter_congr fun c hc => by simp [hgone c hc]
    rw [hfilter]
    split
    · rfl
    · next hparent =>
      have hnot : id ∉ m.children := by
        intro hc
        obtain ⟨k, hk, hkp⟩ := h.tree.lists_iff.mp ⟨m, hm, hc⟩
        rw [hn, Option.some.injEq] at hk
        exact hparent (hk ▸ hkp)
      exact (congrArg Node.children (Node.dropChild_of_notMem hnot)).symm

theorem pieces_of_removed (h : s.WellFormed) (hn : s.arena.find? id = some n) (hroot : id ≠ s.root)
    (l : Layout) (k : Nat) :
    let t := { s with
      arena := s.withoutNodes id n.parent (s.arena.walk id)
      retired := s.arena.walk id ++ s.retired
      revision := s.revision + 1 }
    ∃ before lines after, Piece .builtin l (s.snapshot k) (s.arena.walk id) before lines after ∧
      statements .builtin l (t.snapshot k) = before ++ after := by
  intro t
  obtain ⟨xs, d, zs, hvisit⟩ := h.tree.exists_visit_eq (depthUnder .builtin)
    (contains_of_find? hn) l.baseDepth
  have hids := s.arena.map_fst_visit (depthUnder .builtin) id d
  have hstops : stops .builtin l (s.snapshot k) = _ := (stops_snapshot s k).trans hvisit
  have hleaves : (s.snapshot k).nodes.Leaves (s.arena.walk id)
      (fun key m => if n.parent = some key then m.dropChild id else m) (t.snapshot k).nodes :=
    h.leaves_withoutNodes hn
  obtain ⟨hrest, hlines⟩ := stops_of_gone hleaves rfl (h.tree.root_notMem_walk hroot)
    (by intros; split <;> rfl) hstops hids
  have hpiece := piece_of_stops hstops
  rw [hids] at hpiece
  refine ⟨_, _, _, hpiece, ?_⟩
  rw [statements_eq_stops, hrest, ← linesAt_append]
  exact linesAt_congr hlines

structure Touches (s t : Scene) (id : String) (change : Node → Node) : Prop where
  root_eq : t.root = s.root
  sameLinks : ∀ n : Node, n.SameLinks (change n)
  find?_eq : ∀ key, t.arena.find? key =
    (s.arena.find? key).map fun n => if key = id then change n else n

namespace Touches

variable {t : Scene} {change : Node → Node}

theorem refl (s : Scene) (id : String) : s.Touches s id fun n => n where
  root_eq := rfl
  sameLinks := Node.SameLinks.refl
  find?_eq := by simp

theorem leaves (h : s.Touches t id change) :
    s.arena.Leaves [] (fun key n => if key = id then change n else n) t.arena where
  closed := fun hid => absurd hid List.not_mem_nil
  find?_eq := fun _ => h.find?_eq _
  type_eq := by
    intro key n _ _
    split
    · exact (h.sameLinks n).type_eq
    · rfl
  children_eq := by
    intro key n _ _
    rw [List.filter_eq_self.mpr (by simp)]
    split
    · exact (h.sameLinks n).children_eq
    · rfl

theorem stops_eq (h : s.Touches t id change) (l : Layout) (k : Nat) :
    stops .builtin l (t.snapshot k) = stops .builtin l (s.snapshot k) := by
  have hleaves : (s.snapshot k).nodes.Leaves [] _ (t.snapshot k).nodes := h.leaves
  rw [stops_of_leaves hleaves h.root_eq List.not_mem_nil, List.filter_eq_self.mpr (by simp)]

theorem lineAt_eq (h : s.Touches t id change) {c : Call Int}
    (hc : c.1 = id → ∀ n, (change n).properties = n.properties) :
    lineAt .builtin l t.arena c = lineAt .builtin l s.arena c := by
  refine lineAt_of_leaves h.leaves List.not_mem_nil fun n _ => ?_
  split
  · next hid => exact hc hid n
  · rfl

theorem pieces (h : s.Touches t id change) (hs : s.WellFormed) (hn : s.arena.find? id = some n)
    (l : Layout) (k : Nat) : ∃ before after d,
      Piece .builtin l (s.snapshot k) [id] before (ownLine .builtin l d n) after ∧
      Piece .builtin l (t.snapshot k) [id] before (ownLine .builtin l d (change n)) after := by
  obtain ⟨d, hmem⟩ : ∃ d, (id, d) ∈ stops .builtin l (s.snapshot k) := by
    have hwalk : id ∈ (stops .builtin l (s.snapshot k)).map Prod.fst := by
      rw [map_fst_stops]
      exact mem_walk_iff.mpr ⟨contains_of_find? hn, hs.tree.reaches (contains_of_find? hn)⟩
    simpa using hwalk
  have hnodup : ((stops .builtin l (s.snapshot k)).map Prod.fst).Nodup := by
    rw [map_fst_stops]
    exact nodup_walk _ _
  obtain ⟨xs, zs, hstops⟩ := List.append_of_mem hmem
  rw [hstops, List.map_append, List.map_cons, List.nodup_append', List.nodup_cons] at hnodup
  rw [List.append_cons] at hstops
  have hlines {cs : List (Call Int)} (hcs : id ∉ cs.map Prod.fst) :
      linesAt .builtin l (t.snapshot k) cs = linesAt .builtin l (s.snapshot k) cs := by
    refine linesAt_congr fun c hc => h.lineAt_eq fun he => ?_
    rw [← he] at hcs
    exact absurd (List.mem_map_of_mem hc) hcs
  have hfound : (t.snapshot k).nodes.find? id = some (change n) := by
    rw [Scene.snapshot, h.find?_eq, hn, Option.map_some, if_pos rfl]
  have hpiece := piece_of_stops hstops
  have hpiece' := piece_of_stops ((h.stops_eq l k).trans hstops)
  rw [List.map_singleton, linesAt_singleton hn] at hpiece
  rw [List.map_singleton, linesAt_singleton hfound, hlines hnodup.2.1.1,
    hlines fun hx => hnodup.2.2 hx List.mem_cons_self] at hpiece'
  exact ⟨_, _, d, hpiece, hpiece'⟩

theorem statements_eq (h : s.Touches t id change)
    (hchange : ∀ n, (change n).properties = n.properties) (l : Layout) (k : Nat) :
    statements .builtin l (t.snapshot k) = statements .builtin l (s.snapshot k) := by
  rw [statements_eq_stops, statements_eq_stops, h.stops_eq]
  exact List.filterMap_congr fun c _ => h.lineAt_eq fun _ => hchange

theorem withChange (s : Scene) (id : String) {change : Node → Node}
    (hc : ∀ n : Node, n.SameLinks (change n)) : s.Touches
      { s with arena := s.withChange id change, revision := s.revision + 1 } id change :=
  ⟨rfl, hc, find?_withChange s id change⟩

end Touches

theorem setProperty_touches (s : Scene) (id : String) (key v : Value) :
    ∃ change, s.Touches (s.setProperty (.text id) key v).scene id change := by
  rw [setProperty, resolve_text]
  cases s.arena.find? id with
  | none => exact ⟨_, .refl s id⟩
  | some n =>
    cases Property.decode v with
    | error e => cases e <;> exact ⟨_, .refl s id⟩
    | ok p =>
      cases key.asKey with
      | error e => exact ⟨_, .refl s id⟩
      | ok key => exact ⟨_, .withChange s id fun _ => ⟨rfl, rfl, rfl, rfl⟩⟩

theorem removeProperty_touches (s : Scene) (id : String) (key : Value) :
    ∃ change, s.Touches (s.removeProperty (.text id) key).scene id change := by
  rw [removeProperty, resolve_text]
  cases s.arena.find? id with
  | none => exact ⟨_, .refl s id⟩
  | some n =>
    cases key.asKey with
    | error e => exact ⟨_, .refl s id⟩
    | ok key =>
      simp only [Option.map_some]
      split
      · exact ⟨_, .withChange s id fun _ => ⟨rfl, rfl, rfl, rfl⟩⟩
      · exact ⟨_, .refl s id⟩

theorem renameNode_touches (s : Scene) (v name : Value) :
    ∃ id change, s.Touches (s.renameNode v name).scene id change ∧
      ∀ n, (change n).properties = n.properties := by
  rw [renameNode]
  cases s.resolve v with
  | error e => exact ⟨s.root, _, .refl s _, fun _ => rfl⟩
  | ok found =>
    rcases found with _ | ⟨id, n⟩
    · exact ⟨s.root, _, .refl s _, fun _ => rfl⟩
    · exact ⟨id, _, .withChange s id fun _ => ⟨rfl, rfl, rfl, rfl⟩, fun _ => rfl⟩

/-- Edits show in the program where they are made. A new node has its line, which a container has
not, behind all lines of its parent and of what is below it; a removed node takes its lines away
with those of all below it. A property shows at most in the line of its node, which keeps its place
and its depth, and a name does not show. -/
theorem edits_are_local (h : s.Reachable) (l : Layout) (k : Nat) :
    (∀ parent name type ids id, (s.addNode parent name type ids).1.answer = .ok (some id) →
      let t := (s.addNode parent name type ids).1.scene
      ∃ p n kind d before lines after own, parent = .text p ∧ s.arena.find? p = some n ∧
        type.Names kind ∧ (p, d) ∈ stops .builtin l (s.snapshot k) ∧
        Piece .builtin l (s.snapshot k) (s.arena.walk p) before lines after ∧
        Piece .builtin l (t.snapshot k) [id] (before ++ lines) own after ∧
        own = ownLine .builtin l (depthUnder .builtin d n) (Node.create id name kind (some p)) ∧
        (kind = .container → own = [])) ∧
    (∀ v, (s.removeNode v).answer = .ok true → ∃ id before lines after, v = .text id ∧
      Piece .builtin l (s.snapshot k) (s.arena.walk id) before lines after ∧
      statements .builtin l ((s.removeNode v).scene.snapshot k) = before ++ after) ∧
    (∀ id n key v, s.arena.find? id = some n →
      ∀ e ∈ [s.setProperty (.text id) key v, s.removeProperty (.text id) key],
      ∃ m before after d, e.scene.arena.find? id = some m ∧
        Piece .builtin l (s.snapshot k) [id] before (ownLine .builtin l d n) after ∧
        Piece .builtin l (e.scene.snapshot k) [id] before (ownLine .builtin l d m) after ∧
        (ownLine .builtin l d m).length = (ownLine .builtin l d n).length) ∧
    ∀ v name, statements .builtin l ((s.renameNode v name).scene.snapshot k) =
      statements .builtin l (s.snapshot k) := by
  have hs := h.wellFormed
  refine ⟨?_, ?_, ?_, ?_⟩
  · intro parent name type ids id hadd t
    obtain ⟨p, n, kind, rfl, hp, htype, hid, hscene⟩ := addNode_eq_some hadd
    obtain ⟨before, lines, after, d, hstop, hpiece, hown⟩ := pieces_of_added hs hp hid l k name kind
    rw [← hscene] at hown
    refine ⟨p, n, kind, d, before, lines, after, _, rfl, hp, htype, hstop, hpiece, hown, rfl, ?_⟩
    rintro rfl
    rfl
  · intro v hremove
    obtain ⟨id, n, rfl, hn, hroot⟩ := removeNode_eq_true hremove
    obtain ⟨before, lines, after, hpiece, hrest⟩ := pieces_of_removed hs hn hroot l k
    rw [removeNode_text hn hroot]
    exact ⟨id, before, lines, after, rfl, hpiece, hrest⟩
  · intro id n key v hn e he
    have htouches : ∃ change, s.Touches e.scene id change := by
      rcases List.mem_pair.mp he with rfl | rfl
      · exact setProperty_touches s id key v
      · exact removeProperty_touches s id key
    obtain ⟨change, hchange⟩ := htouches
    obtain ⟨before, after, d, hpiece, hpiece'⟩ := hchange.pieces hs hn l k
    refine ⟨change n, before, after, d, ?_, hpiece, hpiece',
      length_ownLine_congr l d (hchange.sameLinks n).type_eq⟩
    rw [hchange.find?_eq, hn, Option.map_some, if_pos rfl]
  · intro v name
    obtain ⟨id, change, hchange, hproperties⟩ := renameNode_touches s v name
    exact hchange.statements_eq hproperties l k

theorem edits_are_local_of_branch :
    let s := (single (.text "Scene") "r" (.text "Root") true).after
      (IdSupply.ofList ["a", "b", "c", "d"] IdSupply.numbered) [
        .add (.text "r") (.text "A") (.text "Circle"),
        .add (.text "a") (.text "B") (.text "Container"),
        .add (.text "b") (.text "C") (.text "Path"),
        .add (.text "r") (.text "D") (.text "Text")]
    let e := (s.addNode (.text "a") (.text "E") (.text "Path")
      (IdSupply.ofList ["e"] IdSupply.numbered)).1
    let unknown (type : String) := "// Unimplemented node type: " ++ type
    s.Reachable ∧ e.answer = .ok (some "e") ∧
      statements .builtin {} (e.scene.snapshot 0) = ["    " ++ unknown "Circle",
        "        " ++ unknown "Path", "        " ++ unknown "Path", "    " ++ unknown "Text"] ∧
      ∃ before lines after own,
        Piece .builtin {} (s.snapshot 0) ["a", "b", "c"] before lines after ∧
        Piece .builtin {} (e.scene.snapshot 0) ["e"] (before ++ lines) own after := by
  intro s e unknown
  have hcreated : (create (.text "Scene") (.text "Root") true
      (IdSupply.ofList ["r"] IdSupply.numbered)).1 =
        .ok (single (.text "Scene") "r" (.text "Root") true) := rfl
  have hs : s.Reachable := (Reachable.built (.created hcreated)).after _ _
  have hanswer : e.answer = .ok (some "e") := rfl
  have hwalk : s.arena.walk "a" = ["a", "b", "c"] := by decide +kernel
  obtain ⟨_, _, _, _, before, lines, after, own, hparent, _, _, _, hpiece, hown, _⟩ :=
    (edits_are_local hs {} 0).1 _ _ _ _ _ hanswer
  cases hparent
  rw [hwalk] at hpiece
  exact ⟨hs, hanswer, by decide +kernel, before, lines, after, own, hpiece, hown⟩

end Scene

end SceneEditor
