import SceneEditor.Proofs.Scene.ChangeLog
import SceneEditor.Proofs.Scene.Walks

/-!
Removing a node. What goes is found by child links, from the node downwards; it is the same as what
has the node above it by parent links. So the nodes that stay keep their links, but for the parent,
which loses one child, and the deletions from the last node to the first never miss a node.
-/

namespace SceneEditor

open Relation

namespace Table

variable {κ ν : Type} [BEq κ]

def eraseEach? (t : Table κ ν) : List κ → Option (Table κ ν)
  | [] => some t
  | k :: ks => if t.contains k then (t.erase k).eraseEach? ks else none

theorem eraseEach?_eq_some [LawfulBEq κ] {t : Table κ ν} {ks : List κ} (hks : ks.Nodup)
    (h : ∀ k ∈ ks, t.contains k = true) :
    t.eraseEach? ks = some (t.filter fun e => !ks.contains e.1) := by
  induction ks generalizing t with
  | nil => exact congrArg some (Table.ext (by simp [filter]))
  | cons k ks ih =>
    rw [List.nodup_cons] at hks
    rw [List.forall_mem_cons] at h
    have hrest : ∀ j ∈ ks, (t.erase k).contains j = true := by
      intro j hj
      have hne : j ≠ k := fun he => hks.1 (he ▸ hj)
      rw [contains_eq_isSome, erase, find?_filter _ fun key => !(key == k),
        if_pos (by simpa using hne), ← contains_eq_isSome]
      exact h.2 j hj
    rw [eraseEach?, if_pos h.1, ih hks.2 hrest]
    apply congrArg some
    apply Table.ext
    simp only [erase, filter, List.filter_filter]
    apply List.filter_congr
    intro e _
    rw [List.contains_cons, Bool.not_or, Bool.and_comm]

end Table

namespace Arena

variable {a : Arena} {root id x y z parent : String} {above xs ys : List String}

theorem Lineage.mem_of_climbs (h : a.IsTree root) (hl : a.Lineage root x above)
    (hc : ReflTransGen a.HasParent x y) : y ∈ x :: above := by
  induction hl with
  | root =>
    rcases ReflTransGen.cases_head hc with rfl | ⟨p, hp, _⟩
    · exact List.mem_cons_self
    · exact absurd hp h.not_hasParent_root
  | child hp _ ih =>
    rcases ReflTransGen.cases_head hc with rfl | ⟨q, hq, hc⟩
    · exact List.mem_cons_self
    · rw [hq.unique hp] at hc
      exact List.mem_cons_of_mem _ (ih hc)

namespace IsTree

theorem reaches_iff_climbs (h : a.IsTree root) :
    a.Reaches x y ↔ ReflTransGen a.HasParent y x := by
  have hlinks : a.Lists = Function.swap a.HasParent := by
    funext p c
    exact propext h.lists_iff
  rw [Reaches, hlinks, reflTransGen_swap]

theorem mem_walk_iff_climbs (h : a.IsTree root) (hid : a.contains id = true) :
    x ∈ a.walk id ↔ ReflTransGen a.HasParent x id := by
  rw [mem_walk_iff, h.reaches_iff_climbs]
  refine and_iff_right_of_imp fun hc => ?_
  rcases ReflTransGen.cases_head hc with rfl | ⟨p, hp, _⟩
  · exact hid
  · exact hp.contains

theorem parent_notMem_walk (h : a.IsTree root) (hp : a.HasParent id parent) :
    parent ∉ a.walk id := by
  intro hm
  obtain ⟨above, hl⟩ := h.exists_lineage (h.contains_parent hp)
  have hc := (h.mem_walk_iff_climbs hp.contains).mp hm
  exact h.notMem_lineage (.child hp hl) (hl.mem_of_climbs h hc)

theorem mem_after_of_hasParent (h : a.IsTree root) (hid : a.contains id = true)
    (hids : a.walk id = xs ++ x :: ys) (hz : z ∈ x :: ys) (hp : a.HasParent y z) : y ∈ ys := by
  have hsub := h.isSubtree_walk hid
  have hwalk : z ∈ a.walk id := by
    rw [hids]
    exact List.mem_append_right xs hz
  have hne : y ≠ id := by
    rintro rfl
    exact h.parent_notMem_walk hp hwalk
  have hnot : z ∉ xs := by
    intro hxs
    have hnodup := hsub.once
    rw [hids, List.nodup_append'] at hnodup
    exact hnodup.2.2 hxs hz
  -- The parent of a node comes before it, so a node with a late parent is late itself.
  have hlate {us vs : List String} (hsplit : a.walk id = us ++ y :: vs) : ¬ us ⊆ xs := by
    intro hsubset
    obtain ⟨q, hq, hyq⟩ := hsub.parent_before hsplit hne
    rw [hyq.unique hp] at hq
    exact hnot (hsubset hq)
  have hy : y ∈ xs ++ x :: ys := by
    rw [← hids]
    exact h.mem_walk_of_parent hwalk hp
  rcases List.mem_append.mp hy with hy | hy
  · obtain ⟨us, vs, rfl⟩ := List.append_of_mem hy
    rw [List.append_assoc] at hids
    exact absurd (List.subset_append_left us _) (hlate hids)
  · rcases List.mem_cons.mp hy with rfl | hy
    · exact absurd (List.Subset.refl xs) (hlate hids)
    · exact hy

theorem mem_after_of_climbs (h : a.IsTree root) (hid : a.contains id = true)
    (hids : a.walk id = xs ++ x :: ys) (hy : TransGen a.HasParent y x) : y ∈ ys := by
  induction hy using TransGen.head_induction_on with
  | single hp => exact h.mem_after_of_hasParent hid hids List.mem_cons_self hp
  | head hp _ ih => exact h.mem_after_of_hasParent hid hids (List.mem_cons_of_mem x ih) hp

end IsTree

end Arena

namespace Scene

theorem entries_withoutNodes {s : Scene} (h : s.arena.IsTree s.root) (id parent : String)
    (doomed : List String) : (s.withoutNodes id (some parent) doomed).entries =
      (s.arena.entries.filter fun e => e.1 ∉ doomed).map fun e =>
        (e.1, if e.1 = parent then { e.2 with children := e.2.children.erase id } else e.2) := by
  have hdrop : ∀ e ∈ s.arena.entries, e.2.dropChild id =
      { e.2 with children := e.2.children.erase id } := by
    intro e he
    have hnodup := h.nodup_children (Table.mem_entries_iff.mp he)
    rw [Node.dropChild, hnodup.erase_eq_filter]
    simp only [ne_eq, decide_not]
    rfl
  have hkeep : (fun e : String × Node => decide (e.1 ∉ doomed)) = fun e => !doomed.contains e.1 := by
    funext e
    simp
  rw [hkeep]
  simp only [withoutNodes, Table.modify, Table.mapValues, Table.filter, List.filter_map]
  apply List.map_congr_left
  intro e he
  simp only [beq_iff_eq, hdrop e (List.mem_of_mem_filter he)]

theorem count_filter_walk (s : Scene) (id : String) :
    (s.arena.entries.filter fun x => x.1 ∉ s.arena.walk id).length + (s.arena.walk id).length =
      s.count := by
  have hperm : (s.arena.keys.filter fun x => x ∈ s.arena.walk id).Perm (s.arena.walk id) := by
    apply (List.perm_ext_iff_of_nodup (s.arena.nodup_keys.filter _) (Arena.nodup_walk _ _)).mpr
    intro x
    rw [List.mem_filter, decide_eq_true_iff, Table.mem_keys_iff, ← Table.contains_eq_isSome]
    exact and_iff_right_of_imp fun hx => (Arena.mem_walk_iff.mp hx).1
  have hsplit := s.arena.entries.length_eq_length_filter_add fun x => decide (x.1 ∈ s.arena.walk id)
  rw [Table.keys, List.filter_map] at hperm
  rw [← hperm.length_eq, List.length_map, count, Table.size, hsplit, Nat.add_comm]
  simp [Function.comp_def]

end Scene

/-- A node is gone with all that is below it. What goes is what has the node above it; it is named
from top to bottom, so that its deletions from the last to the first never leave a node without its
parent. What stays is as it was and where it was, and only the parent has a child less. -/
structure Edit.TakesAway (e : Edit Bool) (s : Scene) (id parent : String) (doomed : List String) :
    Prop where
  answer_eq : e.answer = .ok true
  announcement_eq : e.announcement = some (.nodeRemoved id doomed)
  subtree_eq : s.subtree (.text id) = .ok doomed
  isSubtree : s.arena.IsSubtree id doomed
  mem_iff : ∀ x, x ∈ doomed ↔ ReflTransGen s.arena.HasParent x id
  bottom_up : ∀ {xs x ys}, doomed = xs ++ x :: ys → ∀ y, TransGen s.arena.HasParent y x → y ∈ ys
  parent_kept : s.arena.HasParent id parent ∧ parent ∉ doomed
  entries_eq : e.scene.arena.entries =
    (s.arena.entries.filter fun x => x.1 ∉ doomed).map fun x =>
      (x.1, if x.1 = parent then { x.2 with children := x.2.children.erase id } else x.2)
  erases : (s.arena.modify parent (·.dropChild id)).eraseEach? doomed.reverse = some e.scene.arena
  count_eq : e.scene.count + doomed.length = s.count
  retired_iff : ∀ x, x ∈ e.scene.retired ↔ x ∈ s.retired ∨ x ∈ doomed
  rest_eq : e.scene.name = s.name ∧ e.scene.root = s.root ∧ e.scene.bound = s.bound ∧
    e.scene.revision = s.revision + 1

namespace Scene

theorem WellFormed.takesAway {s : Scene} {id : String} {n : Node} (h : s.WellFormed)
    (hn : s.arena.find? id = some n) (hroot : id ≠ s.root) :
    ∃ parent, (s.removeNode (.text id)).TakesAway s id parent (s.arena.walk id) := by
  have hid := Arena.contains_of_find? hn
  obtain ⟨parent, _, hparent, _, _⟩ := h.tree.listed_once hn hroot
  have hp : s.arena.HasParent id parent := ⟨n, hn, hparent⟩
  have hentries := entries_withoutNodes h.tree id parent (s.arena.walk id)
  rw [removeNode_text hn hroot, hparent]
  refine ⟨parent, rfl, rfl, s.subtree_text id, h.tree.isSubtree_walk hid,
    fun _ => h.tree.mem_walk_iff_climbs hid, fun hids _ => h.tree.mem_after_of_climbs hid hids,
    ⟨hp, h.tree.parent_notMem_walk hp⟩, hentries, ?_, ?_, ?_, rfl, rfl, rfl, rfl⟩
  · have hthere : ∀ x ∈ (s.arena.walk id).reverse,
        (s.arena.modify parent (·.dropChild id)).contains x = true := by
      intro x hx
      rw [Table.contains_eq_isSome, ← Table.mem_keys_iff, Table.keys_modify, Table.mem_keys_iff,
        ← Table.contains_eq_isSome]
      exact (Arena.mem_walk_iff.mp (List.mem_reverse.mp hx)).1
    rw [Table.eraseEach?_eq_some (List.nodup_reverse.mpr (Arena.nodup_walk _ _)) hthere]
    simp only [List.contains_reverse]
    rfl
  · rw [← s.count_filter_walk id, count, Table.size]
    change (s.withoutNodes id (some parent) (s.arena.walk id)).entries.length + _ = _
    rw [hentries, List.length_map]
  · intro x
    exact List.mem_append.trans or_comm

/-- A node that is not the root is removed with exactly what has it above it, in the order in which
a query of the subtree gives it. Nothing comes of removing the root or what is not there. -/
theorem removeNode_takes_subtree {s : Scene} (h : s.Reachable) (id : String) :
    (s.arena.contains id = true → id ≠ s.root →
      ∃ parent, (s.removeNode (.text id)).TakesAway s id parent (s.arena.walk id)) ∧
    (id = s.root ∨ s.arena.contains id = false →
      (s.removeNode (.text id)).answer = .ok false ∧ (s.removeNode (.text id)).scene = s ∧
        (s.removeNode (.text id)).announcement = none) := by
  constructor
  · intro hid hroot
    obtain ⟨n, hn⟩ := Arena.exists_of_contains hid
    exact h.wellFormed.takesAway hn hroot
  · intro hid
    obtain ⟨notices, hdeclined⟩ := removeNode_text_declined (hid.imp_right contains_eq_false_iff.mp)
    rw [hdeclined]
    exact ⟨rfl, rfl, rfl⟩

theorem removeNode_takes_subtree_of_branch :
    let s := (single (.text "Scene") "r" (.text "Root") true).after
      (IdSupply.ofList ["a", "b", "c", "d", "e"] IdSupply.numbered) [
        .add (.text "r") (.text "A") (.text "Container"),
        .add (.text "a") (.text "B") (.text "Sprite"),
        .add (.text "r") (.text "C") (.text "Container"),
        .add (.text "b") (.text "D") (.text "Text"),
        .add (.text "a") (.text "E") (.text "Circle")]
    s.Reachable ∧ s.arena.contains "a" = true ∧ "a" ≠ s.root ∧
      s.arena.walk "a" = ["a", "b", "d", "e"] ∧
      (s.removeNode (.text "a")).scene.arena.keys = ["r", "c"] ∧
      ∃ parent, (s.removeNode (.text "a")).TakesAway s "a" parent (s.arena.walk "a") := by
  intro s
  have hcreated : (create (.text "Scene") (.text "Root") true
      (IdSupply.ofList ["r"] IdSupply.numbered)).1 =
        .ok (single (.text "Scene") "r" (.text "Root") true) := rfl
  have hs : s.Reachable := (Reachable.built (.created hcreated)).after _ _
  have hid : s.arena.contains "a" = true := by decide +kernel
  have hroot : "a" ≠ s.root := by decide +kernel
  exact ⟨hs, hid, hroot, by decide +kernel, by decide +kernel,
    (removeNode_takes_subtree hs "a").1 hid hroot⟩

end Scene

end SceneEditor
