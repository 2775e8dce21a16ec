import SceneEditor.Proofs.Arena.Paths
import SceneEditor.Proofs.Node.Document
import SceneEditor.Scene.Document

namespace SceneEditor

open Reading

def Arena.ofNodes (ns : List Node) : Arena := Table.ofList (ns.map fun n => (n.id, n))

theorem Arena.entries_ofNodes {ns : List Node} (h : (ns.map Node.id).Nodup) :
    (Arena.ofNodes ns).entries = ns.map fun n => (n.id, n) := by
  apply Table.entries_ofList
  rw [List.map_map]
  exact h.imp fun hne => beq_eq_false_iff_ne.mpr hne

/-- What a document says of a scene: its name and its root, which may be any values that can be put in
writing, and its nodes one after the other. -/
structure Value.DescribesScene (v : Value) (name root : String) (ns : List Node) : Prop where
  name_eq : ∃ w, v.HasField "name" w ∧ w.toText = .ok name
  root_eq : ∃ w, v.HasField "root_id" w ∧ w.toText = .ok root
  nodes_eq : ∃ w items, v.HasField "nodes" w ∧ w.items? = some items ∧
    List.Forall₂ Value.Describes items ns

/-- The nodes that a document describes have different identifiers, and are one tree. -/
structure Value.IsSceneDocument (v : Value) (name root : String) (ns : List Node) : Prop extends
    v.DescribesScene name root ns where
  distinct : (ns.map Node.id).Nodup
  tree : (Arena.ofNodes ns).IsSpanned root

namespace Scene

variable {v rootName : Value} {bound : Bool} {ids : IdSupply} {name root : String}
  {ns : List Node}

theorem fieldsOf_eq_ok_iff (hv : v.IsJson) :
    fieldsOf v = .ok (name, root, ns) ↔ v.DescribesScene name root ns := by
  have hitems {w : Value} {items : List Value} (hw : v.HasField "nodes" w)
      (h : w.items? = some items) :
      items.mapM Node.ofDocument = .ok ns ↔ List.Forall₂ Value.Describes items ns := by
    rw [mapM_eq_ok_iff]
    exact forall₂_congr_left fun item hitem n =>
      Node.ofDocument_eq_ok_iff ((hv.field hw).items h item hitem)
  simp only [fieldsOf, bind_eq_ok_iff, pure_eq_ok_iff, Value.field_eq_ok_iff hv,
    Value.items_eq_ok_iff, Prod.mk.injEq]
  constructor
  · rintro ⟨w, hw, _, hname, x, hx, _, hroot, y, hy, items, h, ns, hns, rfl, rfl, rfl⟩
    exact ⟨⟨w, hw, hname⟩, ⟨x, hx, hroot⟩, y, items, hy, h, (hitems hy h).mp hns⟩
  · rintro ⟨⟨w, hw, hname⟩, ⟨x, hx, hroot⟩, y, items, hy, h, hns⟩
    exact ⟨w, hw, _, hname, x, hx, _, hroot, y, hy, items, h, ns, (hitems hy h).mpr hns, rfl, rfl,
      rfl⟩

theorem fieldsOf_failsOnly (hv : v.IsJson) : FailsOnly Node.Tellable (fieldsOf v) := by
  have hfield {name : String} {w : Value} (hw : v.field name = .ok w) : w.IsJson :=
    hv.field ((Value.field_eq_ok_iff hv).mp hw)
  refine (Node.field_failsOnly v _).bind fun w hw => ?_
  refine (Node.toText_failsOnly (hfield hw)).bind fun name _ => ?_
  refine (Node.field_failsOnly v _).bind fun x hx => ?_
  refine (Node.toText_failsOnly (hfield hx)).bind fun root _ => ?_
  refine (Node.field_failsOnly v _).bind fun y hy => ?_
  refine (Node.items_failsOnly y).bind fun items hitems => ?_
  have hjson := (hfield hy).items (Value.items_eq_ok_iff.mp hitems)
  exact (FailsOnly.mapM fun item hitem => Node.ofDocument_failsOnly (hjson item hitem)).bind
    fun ns _ => .ok _

theorem obstacle?_of_tellable {e : Cause} (he : Node.Tellable e) {o : Obstacle}
    (ho : e.obstacle? = some o) : o = .digits := by
  obtain ⟨w, hw, how⟩ := List.exists_of_findSome?_eq_some ho
  exact (he.values_isJson w hw).obstacle?_eq how

theorem formed_cases {e : Cause} (he : Node.Tellable e) :
    e.formed = e ∨ e.formed = .unwritten .digits := by
  have hcases : (e.obstacle?.map Cause.unwritten).getD e = e ∨
      (e.obstacle?.map Cause.unwritten).getD e = .unwritten .digits := by
    cases ho : e.obstacle? with
    | none => exact .inl rfl
    | some o => exact .inr (by rw [obstacle?_of_tellable he ho]; rfl)
  unfold Cause.formed
  split
  · exact .inl rfl
  · exact hcases

theorem family_wrapped {e : Cause} (he : Node.Tellable e) :
    (wrapped e).family = .sceneFormat := by
  unfold wrapped
  rcases formed_cases he with h | h <;> rw [h]
  · split
    · exact absurd rfl he.ne_kindless
    · exact absurd rfl he.ne_nesting
    · rfl
  · rfl

theorem enterNodes_eq_ok_iff {a b : Arena} : enterNodes a ns = .ok b ↔
    b.entries = a.entries ++ ns.map fun n => (n.id, n) := by
  induction ns generalizing a with
  | nil =>
    rw [enterNodes, List.map_nil, List.append_nil]
    constructor
    · intro h
      rw [Except.ok.inj h]
    · intro h
      rw [Table.ext h]
  | cons n ns ih =>
    rw [enterNodes]
    by_cases hc : a.contains n.id = true
    · rw [if_pos hc]
      refine ⟨nofun, fun h => ?_⟩
      -- No table has an identifier twice.
      have hnodup := b.nodup_keys
      rw [Table.keys, h, List.map_append] at hnodup
      rw [Table.contains_eq_isSome, ← Table.mem_keys_iff] at hc
      exact absurd rfl ((List.nodup_append.mp hnodup).2.2 _ hc _ List.mem_cons_self)
    · have hnew : a.contains n.id = false := by simpa using hc
      rw [if_neg hc, ih, Table.entries_insert_of_new hnew, List.append_assoc, List.map_cons,
        List.singleton_append]

theorem enterNodes_failsOnly (a : Arena) (ns : List Node) :
    FailsOnly (·.family = .sceneFormat) (enterNodes a ns) := by
  induction ns generalizing a with
  | nil => exact .ok a
  | cons n ns ih =>
    unfold enterNodes
    split
    · exact .error rfl
    · exact ih _

theorem enterNodes_empty_eq_ok_iff {a : Arena} : enterNodes .empty ns = .ok a ↔
    (ns.map Node.id).Nodup ∧ a = .ofNodes ns := by
  rw [enterNodes_eq_ok_iff, Table.empty, List.nil_append]
  constructor
  · intro h
    have hnodup : (ns.map Node.id).Nodup := by
      have hkeys := a.nodup_keys
      rwa [Table.keys, h, List.map_map] at hkeys
    exact ⟨hnodup, Table.ext (h.trans (Arena.entries_ofNodes hnodup).symm)⟩
  · rintro ⟨hnodup, rfl⟩
    exact Arena.entries_ofNodes hnodup

def restored (name root : String) (ns : List Node) (bound : Bool) : Scene where
  name := .text name
  root := root
  arena := .ofNodes ns
  retired := []
  revision := 0
  bound := bound

theorem create_of_next {fresh : String} {n : Value} (hids : ids.next.1 = .ok fresh) :
    (create n rootName bound ids) = (.ok (single n fresh rootName bound), ids.next.2) := by
  unfold create
  split
  · next e _ he =>
    rw [he] at hids
    cases hids
  · next r _ hr =>
    rw [hr] at hids ⊢
    cases hids
    rfl

def ofArena (name root : String) (bound : Bool) (a : Arena) : Except Cause Scene :=
  match a.audit root with
  | [] => .ok ⟨.text name, root, a, [], 0, bound⟩
  | violations => .error (.brokenTree violations)

theorem ofArena_ofNodes_eq_ok_iff {s : Scene} :
    ofArena name root bound (.ofNodes ns) = .ok s ↔
      (Arena.ofNodes ns).IsSpanned root ∧ s = restored name root ns bound := by
  rw [← Arena.isTree_iff_isSpanned, ← Arena.audit_eq_nil_iff_isTree, ofArena]
  split
  · next h => simp [h, restored, eq_comm]
  · next h => exact iff_of_false nofun fun hs => h hs.1

theorem ofArena_failsOnly (name root : String) (bound : Bool) (a : Arena) :
    FailsOnly (·.family = .sceneFormat) (ofArena name root bound a) := by
  unfold ofArena
  split
  · exact .ok _
  · exact .error rfl

theorem ofDocument_eq {fresh : String} (v rootName : Value) (bound : Bool)
    (hids : ids.next.1 = .ok fresh) : (ofDocument v rootName bound ids).1 =
      (fieldsOf v).mapError wrapped >>= fun x =>
        enterNodes .empty x.2.2 >>= ofArena x.1 x.2.1 bound := by
  unfold ofDocument
  cases (fieldsOf v).mapError wrapped with
  | error e => rfl
  | ok fields =>
    obtain ⟨name, root, ns⟩ := fields
    change _ = enterNodes .empty ns >>= ofArena name root bound
    simp only [create_of_next hids]
    cases enterNodes .empty ns with
    | error e => rfl
    | ok a =>
      change _ = ofArena name root bound a
      cases haudit : a.audit root <;> simp only [ofArena, haudit, single]

theorem fields_of_ofDocument {s : Scene} (h : (ofDocument v rootName bound ids).1 = .ok s) :
    ∃ name root ns, fieldsOf v = .ok (name, root, ns) ∧ (ns.map Node.id).Nodup ∧
      s.name = .text name ∧ s.arena = .ofNodes ns := by
  unfold ofDocument at h
  split at h
  · cases h
  · next name root ns hfields =>
    split at h
    · cases h
    · next a hentered =>
      obtain ⟨hdistinct, rfl⟩ := enterNodes_empty_eq_ok_iff.mp hentered
      refine ⟨name, root, ns, mapError_eq_ok_iff.mp hfields, hdistinct, ?_⟩
      rcases hids : ids.next with ⟨_ | fresh, ids'⟩
      · simp only [create, hids] at h
        cases h
      · simp only [create, hids] at h
        split at h
        · rw [← Except.ok.inj h]
          exact ⟨rfl, rfl⟩
        · cases h

theorem ofDocument_eq_ok_iff {fresh : String} (hv : v.IsJson) (hids : ids.next.1 = .ok fresh)
    {s : Scene} : (ofDocument v rootName bound ids).1 = .ok s ↔
      ∃ name root ns, v.IsSceneDocument name root ns ∧ s = restored name root ns bound := by
  simp only [ofDocument_eq v rootName bound hids, bind_eq_ok_iff, mapError_eq_ok_iff]
  constructor
  · rintro ⟨⟨name, root, ns⟩, hfields, a, hentered, hs⟩
    obtain ⟨hdistinct, rfl⟩ := enterNodes_empty_eq_ok_iff.mp hentered
    obtain ⟨htree, rfl⟩ := ofArena_ofNodes_eq_ok_iff.mp hs
    exact ⟨name, root, ns, ⟨(fieldsOf_eq_ok_iff hv).mp hfields, hdistinct, htree⟩, rfl⟩
  · rintro ⟨name, root, ns, ⟨hfields, hdistinct, htree⟩, rfl⟩
    exact ⟨(name, root, ns), (fieldsOf_eq_ok_iff hv).mpr hfields, _,
      enterNodes_empty_eq_ok_iff.mpr ⟨hdistinct, rfl⟩, ofArena_ofNodes_eq_ok_iff.mpr ⟨htree, rfl⟩⟩

theorem ofDocument_failsOnly {fresh : String} (hv : v.IsJson) (hids : ids.next.1 = .ok fresh) :
    FailsOnly (·.family = .sceneFormat) (ofDocument v rootName bound ids).1 := by
  rw [ofDocument_eq v rootName bound hids]
  refine ((fieldsOf_failsOnly hv).mapError fun _ => family_wrapped).bind fun ⟨name, root, ns⟩ _ => ?_
  exact (enterNodes_failsOnly .empty ns).bind fun a _ => ofArena_failsOnly name root bound a

/-- A document is read just when it is that of a scene. The scene then has exactly the nodes of the
document in their order, nothing counted and nothing retired. Every other document is refused for
its form, whatever stands where in it. -/
theorem ofDocument_succeeds_iff {fresh : String} (hv : v.IsJson) (rootName : Value) (bound : Bool)
    (hids : ids.next.1 = .ok fresh) :
    ((∃ s, (ofDocument v rootName bound ids).1 = .ok s) ↔
      ∃ name root ns, v.IsSceneDocument name root ns) ∧
    (∀ s, (ofDocument v rootName bound ids).1 = .ok s →
      ∃ ns, v.IsSceneDocument s.name.asText s.root ns ∧
        s.arena.entries = ns.map (fun n => (n.id, n)) ∧ s.revision = 0 ∧ s.retired = []) ∧
    ∀ e, (ofDocument v rootName bound ids).1 = .error e → e.family = .sceneFormat := by
  simp only [ofDocument_eq_ok_iff hv hids]
  refine ⟨?_, ?_, ofDocument_failsOnly hv hids⟩
  · constructor
    · rintro ⟨_, name, root, ns, h, -⟩
      exact ⟨name, root, ns, h⟩
    · rintro ⟨name, root, ns, h⟩
      exact ⟨_, name, root, ns, h, rfl⟩
  · rintro s ⟨name, root, ns, h, rfl⟩
    exact ⟨ns, h, Arena.entries_ofNodes h.distinct, rfl, rfl⟩

theorem ofDocument_succeeds_on_pairs :
    let properties : Value := .list [.list [.text "x", .null],
      .list [.text "x", .object [(.text "Number", .whole 3)]]]
    let child : Value := .object [(.text "id", .whole 8), (.text "node_type", .text "SPRITE"),
      (.text "parent_id", .text "7"), (.text "properties", properties)]
    let top : Value := .object [(.text "id", .whole 7), (.text "node_type", .text "Container"),
      (.text "children", .list [.text "8"])]
    let v : Value := .object [(.text "name", .null), (.text "root_id", .whole 7),
      (.text "nodes", .list [child, top])]
    let ids : IdSupply := ⟨fun _ => .ok "n1", 0⟩
    v.IsJson ∧ ids.next.1 = .ok "n1" ∧
      (∃ name root ns, v.IsSceneDocument name root ns) ∧
      ∃ s, (ofDocument v (.text "Root") true ids).1 = .ok s ∧ s.arena.keys = ["8", "7"] ∧
        ∃ ns, v.IsSceneDocument s.name.asText s.root ns ∧
          s.arena.entries = ns.map (fun n => (n.id, n)) ∧ s.revision = 0 ∧ s.retired = [] := by
  intro properties child top v ids
  have hv : v.IsJson := by simp [v, top, child, properties]
  have hids : ids.next.1 = .ok "n1" := rfl
  have hkeys : ((ofDocument v (.text "Root") true ids).1.map (·.arena.keys)).toOption =
      some ["8", "7"] := by decide +kernel
  obtain ⟨hiff, hread, -⟩ := ofDocument_succeeds_iff hv (.text "Root") true hids
  cases hs : (ofDocument v (.text "Root") true ids).1 with
  | error e =>
    rw [hs] at hkeys
    cases hkeys
  | ok s =>
    rw [hs] at hkeys
    exact ⟨hv, hids, hiff.mp ⟨s, hs⟩, s, rfl, Option.some.inj hkeys, hread s hs⟩

end Scene

end SceneEditor
