import SceneEditor.Proofs.Arena.Pruned
import SceneEditor.Proofs.Program.Locality
import SceneEditor.Proofs.Value.Json
import SceneEditor.Proofs.Value.Keys

namespace SceneEditor

open Arena

namespace Scene

variable {s : Scene} {id x a b : String} {n : Node}

structure Commute (s : Scene) (f g : Scene → Edit Bool) : Prop where
  scene_eq : (g (f s).scene).scene = (f (g s).scene).scene
  left_eq : (f (g s).scene).answer = (f s).answer
  right_eq : (g (f s).scene).answer = (g s).answer

section Removal

def pruned (s : Scene) (id : String) : Scene :=
  { s with
    arena := s.arena.without (s.arena.walk id)
    retired := s.arena.walk id ++ s.retired
    revision := s.revision + 1 }

theorem keys_withoutNodes (s : Scene) (id : String) (parent : Option String)
    (doomed : List String) :
    (s.withoutNodes id parent doomed).keys = s.arena.keys.filter (· ∉ doomed) := by
  have hkeys (a : Arena) : (a.filter fun e => !doomed.contains e.1).keys =
      a.keys.filter (· ∉ doomed) := by
    rw [Table.keys_filter_fst a (fun key => !doomed.contains key)]
    simp
  unfold withoutNodes
  rw [hkeys]
  cases parent with
  | none => rfl
  | some p => rw [Table.keys_modify]

theorem WellFormed.removeNode_eq (h : s.WellFormed) (hn : s.arena.find? id = some n)
    (hroot : id ≠ s.root) : (s.removeNode (.text id)).answer = .ok true ∧
      (s.removeNode (.text id)).scene = s.pruned id := by
  have harena : s.withoutNodes id n.parent (s.arena.walk id) =
      s.arena.without (s.arena.walk id) := by
    apply (h.leaves_withoutNodes hn).eq_without
    · exact s.keys_withoutNodes id n.parent _
    · intro key m
      split <;> rfl
  rw [removeNode_text hn hroot, harena]
  exact ⟨rfl, rfl⟩

theorem removeNode_eq_self (h : id = s.root ∨ s.arena.find? id = none) :
    (s.removeNode (.text id)).answer = .ok false ∧ (s.removeNode (.text id)).scene = s := by
  obtain ⟨notices, hdeclined⟩ := removeNode_text_declined h
  rw [hdeclined]
  exact ⟨rfl, rfl⟩

theorem WellFormed.pruned (h : s.WellFormed) (hn : s.arena.find? id = some n)
    (hroot : id ≠ s.root) : (s.pruned id).WellFormed := by
  rw [← (h.removeNode_eq hn hroot).2, removeNode_text hn hroot]
  exact h.withoutNodes hn hroot

theorem find?_pruned (s : Scene) (id x : String) : (s.pruned id).arena.find? x =
    if x ∈ s.arena.walk id then none
    else (s.arena.find? x).map (·.forget (s.arena.walk id)) := find?_without _ _ x

theorem WellFormed.walk_pruned (h : s.WellFormed) (hn : s.arena.find? id = some n)
    (hroot : id ≠ s.root) (hx : x ∉ s.arena.walk id) :
    (s.pruned id).arena.walk x = (s.arena.walk x).filter (· ∉ s.arena.walk id) := by
  have hleaves := h.leaves_withoutNodes hn
  have harena : (s.pruned id).arena = s.withoutNodes id n.parent (s.arena.walk id) := by
    rw [← (h.removeNode_eq hn hroot).2, removeNode_text hn hroot]
    rfl
  rw [harena]
  exact hleaves.walk_eq hx

structure Coincides (s t : Scene) : Prop where
  name_eq : s.name = t.name
  root_eq : s.root = t.root
  bound_eq : s.bound = t.bound
  arena_eq : s.arena = t.arena
  mem_retired_iff : ∀ id, id ∈ s.retired ↔ id ∈ t.retired

structure Loses (s : Scene) (gone : List String) (t : Scene) : Prop where
  name_eq : t.name = s.name
  root_eq : t.root = s.root
  bound_eq : t.bound = s.bound
  arena_eq : t.arena = s.arena.without gone
  mem_retired_iff : ∀ id, id ∈ t.retired ↔ id ∈ gone ∨ id ∈ s.retired

namespace Loses

variable {t u : Scene} {gone gone' : List String}

theorem pruned (s : Scene) (id : String) : s.Loses (s.arena.walk id) (s.pruned id) :=
  ⟨rfl, rfl, rfl, rfl, fun _ => List.mem_append⟩

theorem congr (h : s.Loses gone t) (hgone : ∀ x, x ∈ gone ↔ x ∈ gone') : s.Loses gone' t :=
  { h with
    arena_eq := h.arena_eq.trans (without_congr hgone)
    mem_retired_iff := fun id => by rw [h.mem_retired_iff, hgone] }

theorem trans (h : s.Loses gone t) (h' : t.Loses gone' u) : s.Loses (gone ++ gone') u where
  name_eq := h'.name_eq.trans h.name_eq
  root_eq := h'.root_eq.trans h.root_eq
  bound_eq := h'.bound_eq.trans h.bound_eq
  arena_eq := by rw [h'.arena_eq, h.arena_eq, without_without]
  mem_retired_iff := by
    intro id
    rw [h'.mem_retired_iff, h.mem_retired_iff, List.mem_append, or_left_comm, or_assoc]

theorem coincides (h : s.Loses gone t) (h' : s.Loses gone u) : t.Coincides u where
  name_eq := h.name_eq.trans h'.name_eq.symm
  root_eq := h.root_eq.trans h'.root_eq.symm
  bound_eq := h.bound_eq.trans h'.bound_eq.symm
  arena_eq := h.arena_eq.trans h'.arena_eq.symm
  mem_retired_iff := fun id => (h.mem_retired_iff id).trans (h'.mem_retired_iff id).symm

end Loses

theorem walk_subset_of_mem {A : Arena} (h : b ∈ A.walk a) : A.walk b ⊆ A.walk a := by
  intro x hx
  rw [mem_walk_iff] at *
  exact ⟨hx.1, h.2.trans hx.2⟩

theorem WellFormed.removeNode_removeNode (h : s.WellFormed) (ha : s.arena.contains a = true)
    (hb : s.arena.contains b = true) (hra : a ≠ s.root) (hrb : b ≠ s.root) :
    let t := (s.removeNode (.text a)).scene.removeNode (.text b)
    t.answer = .ok (decide (b ∉ s.arena.walk a)) ∧
      s.Loses (s.arena.walk a ++ s.arena.walk b) t.scene ∧
      t.scene.revision = s.revision + if b ∈ s.arena.walk a then 1 else 2 := by
  obtain ⟨n, hn⟩ := exists_of_contains ha
  obtain ⟨m, hm⟩ := exists_of_contains hb
  rw [(h.removeNode_eq hn hra).2]
  by_cases hmem : b ∈ s.arena.walk a
  · -- The second node went with the first.
    have hnone : (s.pruned a).arena.find? b = none := by rw [find?_pruned, if_pos hmem]
    obtain ⟨hanswer, hscene⟩ := removeNode_eq_self (.inr hnone)
    simp only [hanswer, hscene]
    refine ⟨by simp [hmem], ?_, by rw [if_pos hmem]; rfl⟩
    apply (Loses.pruned s a).congr
    intro x
    rw [List.mem_append, or_iff_left_of_imp fun hx => walk_subset_of_mem hmem hx]
  · have hfound : (s.pruned a).arena.find? b = some (m.forget (s.arena.walk a)) := by
      rw [find?_pruned, if_neg hmem, hm]
      rfl
    obtain ⟨hanswer, hscene⟩ := (h.pruned hn hra).removeNode_eq hfound hrb
    simp only [hanswer, hscene]
    refine ⟨by simp [hmem], ?_, by rw [if_neg hmem]; rfl⟩
    apply ((Loses.pruned s a).trans (Loses.pruned _ b)).congr
    intro x
    rw [h.walk_pruned hn hra hmem]
    by_cases hx : x ∈ s.arena.walk a <;> simp [hx]

theorem WellFormed.removeNode_coincides (h : s.WellFormed) (ha : s.arena.contains a = true)
    (hb : s.arena.contains b = true) (hra : a ≠ s.root) (hrb : b ≠ s.root) :
    ((s.removeNode (.text a)).scene.removeNode (.text b)).scene.Coincides
      ((s.removeNode (.text b)).scene.removeNode (.text a)).scene := by
  obtain ⟨-, hlost, -⟩ := h.removeNode_removeNode ha hb hra hrb
  obtain ⟨-, hlost', -⟩ := h.removeNode_removeNode hb ha hrb hra
  apply hlost.coincides
  apply hlost'.congr
  intro x
  rw [List.mem_append, List.mem_append, or_comm]

theorem WellFormed.removeNode_addNode (h : s.WellFormed) {parent name type : Value}
    {ids : IdSupply} (hadd : (s.addNode parent name type ids).1.answer = .ok (some id)) :
    let t := (s.addNode parent name type ids).1.scene.removeNode (.text id)
    t.answer = .ok true ∧
      t.scene = { s with retired := id :: s.retired, revision := s.revision + 2 } := by
  obtain ⟨p, _, kind, -, hp, -, hid, hscene⟩ := addNode_eq_some hadd
  have hnew := (isTaken_eq_false_iff.mp hid).1
  have hroot : id ≠ s.root := by
    rintro rfl
    simp [h.tree.contains_root] at hnew
  let u := { s with arena := s.withNode id name kind p, revision := s.revision + 1 }
  have hu : u.WellFormed := h.withNode hp hid
  have hfound : u.arena.find? id = some (Node.create id name kind (some p)) := by
    rw [find?_withNode, if_pos rfl]
  have hwalk : u.arena.walk id = [id] := by
    rw [walk, walkFrom_of_some List.not_mem_nil hfound]
    exact congrArg _ (walkFrom.eq_1 _ _)
  have hback : s.arena = u.arena.without [id] := by
    apply (h.leaves_withNode hnew name kind p).eq_without
    · have hkeys : (s.withNode id name kind p).keys = s.arena.keys ++ [id] := by
        have hcontains : (s.arena.modify p (·.addChild id)).contains id = false := by
          rw [Table.contains_eq_any_keys, Table.keys_modify, ← Table.contains_eq_any_keys, hnew]
        rw [Scene.withNode, Table.keys_insert, hcontains, Table.keys_modify]
        rfl
      have hstay : s.arena.keys.filter (· ∉ [id]) = s.arena.keys := by
        apply List.filter_eq_self.mpr
        intro x hx
        have hne : x ≠ id := by
          rintro rfl
          rw [Table.mem_keys_iff, ← Table.contains_eq_isSome, hnew] at hx
          cases hx
        simpa using hne
      rw [hkeys, List.filter_append, hstay]
      simp
    · exact fun _ _ => rfl
  obtain ⟨hanswer, hremoved⟩ := hu.removeNode_eq hfound hroot
  simp only [hscene]
  refine ⟨hanswer, hremoved.trans ?_⟩
  rw [Scene.pruned, hwalk, ← hback]
  rfl

end Removal

section Amending

variable {f g : Scene → Edit Bool} {answer answer' : Except Cause Bool}
  {change change' : Option (Node → Node)}

/-- The edit is about one node. It is answered by whether the node is there, and what it makes of
the node, if anything, is the same in every scene. -/
structure Amends (f : Scene → Edit Bool) (id : String) (answer : Except Cause Bool)
    (change : Option (Node → Node)) : Prop where
  absent : ∀ s : Scene, s.arena.contains id = false → (f s).answer = .ok false ∧ (f s).scene = s
  present : ∀ s : Scene, s.arena.contains id = true → (f s).answer = answer ∧
    (f s).scene = match change with
      | none => s
      | some change => { s with arena := s.withChange id change, revision := s.revision + 1 }

def refusal : Cause → Except Cause Bool
  | .property _ => .ok false
  | e => .error e

theorem setProperty_amends (id : String) (key v : Value) :
    (∃ answer, Amends (·.setProperty (.text id) key v) id answer none) ∨
    ∃ p, Amends (·.setProperty (.text id) key v) id (.ok true)
      (some fun n => { n with properties := n.properties.insert key p }) := by
  have habsent (s : Scene) (hid : s.arena.contains id = false) :
      (s.setProperty (.text id) key v).answer = .ok false ∧
        (s.setProperty (.text id) key v).scene = s := by
    rw [setProperty, resolve_text, contains_eq_false_iff.mp hid]
    exact ⟨rfl, rfl⟩
  have hpresent {s : Scene} (hid : s.arena.contains id = true) : ∃ n,
      s.resolve (.text id) = .ok (some (id, n)) := by
    obtain ⟨n, hn⟩ := exists_of_contains hid
    exact ⟨n, by rw [resolve_text, hn]; rfl⟩
  cases hdecode : Property.decode v with
  | error e =>
    refine .inl ⟨refusal e, habsent, ?_⟩
    intro s hid
    obtain ⟨n, hn⟩ := hpresent hid
    simp only [setProperty, hn, hdecode]
    cases e <;> exact ⟨rfl, rfl⟩
  | ok p =>
    cases hkey : key.asKey with
    | error e =>
      refine .inl ⟨.error e, habsent, ?_⟩
      intro s hid
      obtain ⟨n, hn⟩ := hpresent hid
      simp only [setProperty, hn, hdecode, hkey]
      exact ⟨rfl, rfl⟩
    | ok k =>
      obtain ⟨rfl, -⟩ := Value.asKey_eq_ok_iff.mp hkey
      refine .inr ⟨p, habsent, ?_⟩
      intro s hid
      obtain ⟨n, hn⟩ := hpresent hid
      simp only [setProperty, hn, hdecode, hkey]
      exact ⟨rfl, rfl⟩

theorem renameNode_amends (id : String) (name : Value) :
    Amends (·.renameNode (.text id) name) id (.ok true)
      (some fun n => { n with name := name }) where
  absent := by
    intro s hid
    rw [renameNode, resolve_text, contains_eq_false_iff.mp hid]
    exact ⟨rfl, rfl⟩
  present := by
    intro s hid
    obtain ⟨n, hn⟩ := exists_of_contains hid
    rw [renameNode, resolve_text, hn]
    exact ⟨rfl, rfl⟩

namespace Amends

theorem answer_eq (hf : Amends f x answer change) (s : Scene) :
    (f s).answer = if s.arena.contains x then answer else .ok false := by
  split
  · next hx => exact (hf.present s hx).1
  · next hx => exact (hf.absent s ((Bool.not_eq_true _).mp hx)).1

theorem cases (hf : Amends f x answer change) (s : Scene) : (f s).scene = s ∨
    ∃ c, change = some c ∧ s.arena.contains x = true ∧
      (f s).scene = { s with arena := s.withChange x c, revision := s.revision + 1 } := by
  by_cases hx : s.arena.contains x = true
  · cases change with
    | none => exact .inl (hf.present s hx).2
    | some c => exact .inr ⟨c, rfl, hx, (hf.present s hx).2⟩
  · exact .inl (hf.absent s ((Bool.not_eq_true _).mp hx)).2

theorem keys_eq (hf : Amends f x answer change) (s : Scene) :
    (f s).scene.arena.keys = s.arena.keys := by
  obtain hs | ⟨c, -, -, hs⟩ := hf.cases s
  · rw [hs]
  · rw [hs]
    exact Table.keys_modify _ _ _

theorem contains_eq (hf : Amends f x answer change) (s : Scene) (id : String) :
    (f s).scene.arena.contains id = s.arena.contains id := by
  rw [Table.contains_eq_any_keys, hf.keys_eq, ← Table.contains_eq_any_keys]

theorem commute (hf : Amends f a answer change) (hg : Amends g b answer' change')
    (h : ∀ c ∈ change, ∀ c' ∈ change', (s.arena.modify a c).modify b c' =
      (s.arena.modify b c').modify a c) : s.Commute f g where
  scene_eq := by
    by_cases ha : s.arena.contains a = true
    · by_cases hb : s.arena.contains b = true
      · rw [(hg.present _ ((hf.contains_eq s b).trans hb)).2,
          (hf.present _ ((hg.contains_eq s a).trans ha)).2, (hf.present s ha).2,
          (hg.present s hb).2]
        cases change with
        | none => cases change' <;> rfl
        | some c =>
          cases change' with
          | none => rfl
          | some c' => simp only [withChange, h c rfl c' rfl]
      · rw [Bool.not_eq_true] at hb
        rw [(hg.absent _ ((hf.contains_eq s b).trans hb)).2, (hg.absent s hb).2]
    · rw [Bool.not_eq_true] at ha
      rw [(hf.absent _ ((hg.contains_eq s a).trans ha)).2, (hf.absent s ha).2]
  left_eq := by rw [hf.answer_eq, hf.answer_eq, hg.contains_eq]
  right_eq := by rw [hg.answer_eq, hg.answer_eq, hf.contains_eq]

variable (hchange : ∀ c ∈ change, ∀ n : Node, n.SameLinks (c n))
include hchange

theorem wellFormed (hf : Amends f x answer change) (h : s.WellFormed) :
    (f s).scene.WellFormed := by
  obtain hs | ⟨c, hc, -, hs⟩ := hf.cases s
  · rwa [hs]
  · rw [hs]
    exact h.withChange (hchange c hc)

theorem walk_eq (hf : Amends f x answer change) (s : Scene) (id : String) :
    (f s).scene.arena.walk id = s.arena.walk id := by
  obtain hs | ⟨c, hc, -, hs⟩ := hf.cases s
  · rw [hs]
  · have hleaves := (Touches.withChange s x (hchange c hc)).leaves
    rw [hs, hleaves.walk_eq List.not_mem_nil]
    exact List.filter_eq_self.mpr (by simp)

theorem commute_removeNode (hf : Amends f x answer change) (h : s.WellFormed)
    (hx : x ∉ s.arena.walk id)
    (hforget : ∀ c ∈ change, ∀ (n : Node) gone, (c n).forget gone = c (n.forget gone)) :
    s.Commute f (·.removeNode (.text id)) := by
  have hroot : (f s).scene.root = s.root := by
    obtain hs | ⟨c, -, -, hs⟩ := hf.cases s <;> rw [hs]
  by_cases hid : id = s.root ∨ s.arena.find? id = none
  · have hid' : id = (f s).scene.root ∨ (f s).scene.arena.find? id = none := by
      rw [hroot]
      rwa [← contains_eq_false_iff, hf.contains_eq, contains_eq_false_iff]
    obtain ⟨hanswer, hscene⟩ := removeNode_eq_self hid
    obtain ⟨hanswer', hscene'⟩ := removeNode_eq_self hid'
    exact ⟨by simp only [hscene, hscene'], by simp only [hscene], by simp only [hanswer, hanswer']⟩
  · rw [not_or] at hid
    obtain ⟨n, hn⟩ := Option.ne_none_iff_exists'.mp hid.2
    obtain ⟨m, hm⟩ := exists_of_contains
      ((hf.contains_eq s id).trans (contains_of_find? hn))
    obtain ⟨hanswer, hscene⟩ := h.removeNode_eq hn hid.1
    obtain ⟨hanswer', hscene'⟩ := (hf.wellFormed hchange h).removeNode_eq hm (hroot ▸ hid.1)
    have hcontains : (s.pruned id).arena.contains x = s.arena.contains x := by
      rw [Table.contains_eq_isSome, find?_pruned, if_neg hx, Option.isSome_map,
        Table.contains_eq_isSome]
    refine ⟨?_, ?_, by simp only [hanswer, hanswer']⟩
    · simp only [hscene, hscene']
      rw [Scene.pruned, hf.walk_eq hchange]
      by_cases hxs : s.arena.contains x = true
      · rw [(hf.present s hxs).2, (hf.present _ (hcontains.trans hxs)).2]
        cases change with
        | none => rfl
        | some c =>
          have harena := without_modify (fun n => hforget c rfl n (s.arena.walk id)) s.arena x
          simp only [withChange, harena, Scene.pruned]
      · rw [Bool.not_eq_true] at hxs
        rw [(hf.absent s hxs).2, (hf.absent _ (hcontains.trans hxs)).2, Scene.pruned]
    · simp only [hscene]
      rw [hf.answer_eq, hf.answer_eq, hcontains]

end Amends

theorem setProperty_commute {n m : Node} {j k : Value} (v w : Value)
    (ha : s.arena.find? a = some n) (hj : n.properties.contains j = true)
    (hb : s.arena.find? b = some m) (hk : m.properties.contains k = true)
    (hne : a ≠ b ∨ (j == k) = false) :
    s.Commute (·.setProperty (.text a) j v) (·.setProperty (.text b) k w) := by
  rcases setProperty_amends a j v with ⟨_, hf⟩ | ⟨p, hf⟩
  · rcases setProperty_amends b k w with ⟨_, hg⟩ | ⟨q, hg⟩
    · exact hf.commute hg fun _ hc => by cases hc
    · exact hf.commute hg fun _ hc => by cases hc
  · rcases setProperty_amends b k w with ⟨_, hg⟩ | ⟨q, hg⟩
    · exact hf.commute hg fun _ _ _ hc => by cases hc
    · apply hf.commute hg
      rintro _ ⟨⟩ _ ⟨⟩
      apply Table.modify_comm
      rintro l rfl hl
      obtain rfl := Option.some.inj (ha.symm.trans hl)
      obtain rfl := Option.some.inj (ha.symm.trans hb)
      have hapart := Value.apart_of_not_sameKey (hne.resolve_left (not_not_intro rfl))
      simp only [Table.insert_comm hapart hj hk]

theorem setProperty_commute_removeNode (h : s.WellFormed) (hx : x ∉ s.arena.walk id)
    (key v : Value) :
    s.Commute (·.setProperty (.text x) key v) (·.removeNode (.text id)) := by
  rcases setProperty_amends x key v with ⟨_, hf⟩ | ⟨p, hf⟩
  · exact hf.commute_removeNode (fun _ hc => by cases hc) h hx fun _ hc => by cases hc
  · apply hf.commute_removeNode _ h hx
    · rintro _ ⟨⟩ n gone
      rfl
    · rintro _ ⟨⟩ n
      exact ⟨rfl, rfl, rfl, rfl⟩

theorem renameNode_commute_removeNode (h : s.WellFormed) (hx : x ∉ s.arena.walk id)
    (name : Value) : s.Commute (·.renameNode (.text x) name) (·.removeNode (.text id)) := by
  apply (renameNode_amends x name).commute_removeNode _ h hx
  · rintro _ ⟨⟩ n gone
    rfl
  · rintro _ ⟨⟩ n
    exact ⟨rfl, rfl, rfl, rfl⟩

end Amending

/-- How edits of a scene compose: two removals, in either order; an addition and the removal of
what it added; and two edits of what different nodes, or different keys of one node, carry. -/
theorem edits_compose (h : s.Reachable) :
    (∀ a b, s.arena.contains a = true → s.arena.contains b = true → a ≠ s.root → b ≠ s.root →
      let first (x : String) := s.removeNode (.text x)
      let both (x y : String) := (first x).scene.removeNode (.text y)
      (first a).answer = .ok true ∧ ((both a b).answer = .ok (decide (b ∉ s.arena.walk a))) ∧
      (both a b).scene.Coincides (both b a).scene ∧
      (b ∉ s.arena.walk a → a ∉ s.arena.walk b →
        (both a b).scene.revision = (both b a).scene.revision)) ∧
    (∀ parent name type ids id, (s.addNode parent name type ids).1.answer = .ok (some id) →
      let t := (s.addNode parent name type ids).1.scene.removeNode (.text id)
      t.answer = .ok true ∧
        t.scene = { s with retired := id :: s.retired, revision := s.revision + 2 }) ∧
    (∀ a b j k n m v w, s.arena.find? a = some n → n.properties.contains j = true →
      s.arena.find? b = some m → m.properties.contains k = true → a ≠ b ∨ (j == k) = false →
      s.Commute (·.setProperty (.text a) j v) (·.setProperty (.text b) k w)) ∧
    ∀ x id, x ∉ s.arena.walk id →
      (∀ key v, s.Commute (·.setProperty (.text x) key v) (·.removeNode (.text id))) ∧
      ∀ name, s.Commute (·.renameNode (.text x) name) (·.removeNode (.text id)) := by
  have hs := h.wellFormed
  refine ⟨?_, ?_, ?_, ?_⟩
  · intro a b ha hb hra hrb
    obtain ⟨n, hn⟩ := exists_of_contains ha
    obtain ⟨hanswer, -, hrevision⟩ := hs.removeNode_removeNode ha hb hra hrb
    obtain ⟨-, -, hrevision'⟩ := hs.removeNode_removeNode hb ha hrb hra
    refine ⟨(hs.removeNode_eq hn hra).1, hanswer, hs.removeNode_coincides ha hb hra hrb, ?_⟩
    intro hab hba
    rw [if_neg hab] at hrevision
    rw [if_neg hba] at hrevision'
    exact hrevision.trans hrevision'.symm
  · intro parent name type ids id hadd
    exact hs.removeNode_addNode hadd
  · intro a b j k n m v w ha hj hb hk hne
    exact setProperty_commute v w ha hj hb hk hne
  · intro x id hx
    exact ⟨setProperty_commute_removeNode hs hx, renameNode_commute_removeNode hs hx⟩

theorem edits_compose_of_branch :
    let s := (single (.text "Scene") "r" (.text "Root") true).after
      (IdSupply.ofList ["a", "b", "c"] IdSupply.numbered) [
        .add (.text "r") (.text "A") (.text "Container"),
        .add (.text "a") (.text "B") (.text "Sprite"),
        .add (.text "r") (.text "C") (.text "Text"),
        .set (.text "a") (.text "x") (.object [(.text "Boolean", .flag true)]),
        .set (.text "a") (.whole 1) (.object [(.text "String", .text "one")])]
    let both (x y : String) := (s.removeNode (.text x)).scene.removeNode (.text y)
    let added := s.addNode (.text "b") (.text "D") (.text "Circle")
      (IdSupply.ofList ["a", "d"] IdSupply.numbered)
    s.Reachable ∧ (both "a" "b").scene.Coincides (both "b" "a").scene ∧
      (both "a" "b").answer = .ok false ∧ (both "b" "a").answer = .ok true ∧
      (both "b" "c").scene.revision = (both "c" "b").scene.revision ∧
      (added.1.scene.removeNode (.text "d")).scene =
        { s with retired := ["d"], revision := 7 } ∧
      s.Commute (·.setProperty (.text "a") (.text "x") (.text "no property"))
        (·.setProperty (.text "a") (.number (.ofInt 1)) (.object [(.text "Color", .whole 0)])) ∧
      s.Commute (·.setProperty (.text "a") (.text "z") (.object [(.text "Color", .whole 0)]))
        (·.removeNode (.text "b")) ∧
      s.Commute (·.renameNode (.text "c") .null) (·.removeNode (.text "a")) := by
  intro s both added
  have hcreated : (create (.text "Scene") (.text "Root") true
      (IdSupply.ofList ["r"] IdSupply.numbered)).1 =
        .ok (single (.text "Scene") "r" (.text "Root") true) := rfl
  have hs : s.Reachable := (Reachable.built (.created hcreated)).after _ _
  obtain ⟨hremove, hadd, hset, houtside⟩ := edits_compose hs
  have hlive : ∀ x ∈ ["a", "b", "c"], s.arena.contains x = true ∧ x ≠ s.root := by
    decide +kernel
  have ha := hlive "a" (by decide)
  have hb := hlive "b" (by decide)
  have hc := hlive "c" (by decide)
  have hwalk : s.arena.walk "a" = ["a", "b"] ∧ s.arena.walk "b" = ["b"] ∧
      s.arena.walk "c" = ["c"] := by decide +kernel
  obtain ⟨-, hab, hcoincide, -⟩ := hremove "a" "b" ha.1 hb.1 ha.2 hb.2
  obtain ⟨-, hba, -, -⟩ := hremove "b" "a" hb.1 ha.1 hb.2 ha.2
  obtain ⟨-, -, -, hrevision⟩ := hremove "b" "c" hb.1 hc.1 hb.2 hc.2
  obtain ⟨-, hback⟩ := hadd (.text "b") (.text "D") (.text "Circle")
    (IdSupply.ofList ["a", "d"] IdSupply.numbered) "d" rfl
  obtain ⟨n, hn⟩ := exists_of_contains ha.1
  have hkeys : n.properties.contains (.text "x") = true ∧
      n.properties.contains (.number (.ofInt 1)) = true := by
    have hfound : (s.arena.find? "a").all (fun n => n.properties.contains (.text "x") &&
        n.properties.contains (.number (.ofInt 1))) = true := by decide +kernel
    simpa [hn] using hfound
  refine ⟨hs, hcoincide, ?_, ?_, ?_, ?_, ?_, ?_, ?_⟩
  · rw [hab, hwalk.1]
    rfl
  · rw [hba, hwalk.2.1]
    rfl
  · apply hrevision
    · rw [hwalk.2.1]
      decide
    · rw [hwalk.2.2]
      decide
  · rw [hback]
    have hrevision : s.retired = [] ∧ s.revision = 5 := by decide +kernel
    rw [hrevision.1, hrevision.2]
  · exact hset "a" "a" _ _ n n _ _ hn hkeys.1 hn hkeys.2 (.inr (by decide +kernel))
  · exact (houtside "a" "b" (by rw [hwalk.2.1]; decide)).1 _ _
  · exact (houtside "c" "a" (by rw [hwalk.1]; decide)).2 _

end Scene

end SceneEditor
