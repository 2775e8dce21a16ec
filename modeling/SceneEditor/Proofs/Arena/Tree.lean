import Mathlib.Data.List.Nodup
import SceneEditor.Proofs.Arena.Reachability

/-!
Arenas that are one tree below a root. The links are kept twice, as the list of children of a node
and as the parent that a node names, so being a tree means that the two agree and that every way up
ends at the root. The nodes above a node are then a list of their own, its lineage.
-/

namespace SceneEditor.Arena

open Relation

variable {a : Arena} {root : String}

/-- One tree below a root, told by the links of each node and by the way up from it. -/
structure IsTree (a : Arena) (root : String) : Prop where
  root_container : ∃ n, a.find? root = some n ∧ n.type = .container ∧ n.parent = none
  id_eq : ∀ {key n}, a.find? key = some n → n.id = key
  listed_once : ∀ {key n}, a.find? key = some n → key ≠ root →
    ∃ parent m, n.parent = some parent ∧ a.find? parent = some m ∧ m.children.count key = 1
  child_parent : ∀ {key n child}, a.find? key = some n → child ∈ n.children →
    ∃ m, a.find? child = some m ∧ m.parent = some key
  climbs : ∀ {key}, a.contains key = true → ReflTransGen a.HasParent key root

/-- The nodes above a node, the nearest first and the root last. -/
inductive Lineage (a : Arena) (root : String) : String → List String → Prop
  | root : Lineage a root root []
  | child {id parent : String} {above : List String} (h : a.HasParent id parent)
      (ha : Lineage a root parent above) : Lineage a root id (parent :: above)

theorem Lineage.exists_shorter {id x : String} {above : List String} (h : a.Lineage root id above)
    (hx : x ∈ above) : ∃ xs, a.Lineage root x xs ∧ xs.length < above.length := by
  induction h with
  | root => simp at hx
  | @child id parent above _ ha ih =>
    rcases List.mem_cons.mp hx with rfl | hx
    · exact ⟨above, ha, by simp⟩
    · obtain ⟨xs, hxs, hlt⟩ := ih hx
      exact ⟨xs, hxs, Nat.lt_succ_of_lt hlt⟩

namespace IsTree

variable {id parent child : String} {above : List String}

theorem contains_root (h : a.IsTree root) : a.contains root = true := by
  obtain ⟨n, hn, _⟩ := h.root_container
  exact contains_of_find? hn

theorem not_hasParent_root (h : a.IsTree root) : ¬ a.HasParent root parent := by
  rintro ⟨m, hm, hp⟩
  obtain ⟨n, hn, _, hnone⟩ := h.root_container
  rw [hn, Option.some.injEq] at hm
  rw [← hm, hnone] at hp
  cases hp

theorem lists_iff (h : a.IsTree root) : a.Lists parent child ↔ a.HasParent child parent := by
  constructor
  · rintro ⟨n, hn, hc⟩
    exact h.child_parent hn hc
  · rintro ⟨n, hn, hp⟩
    have hne : child ≠ root := by
      rintro rfl
      exact h.not_hasParent_root ⟨n, hn, hp⟩
    obtain ⟨q, m, hq, hm, hcount⟩ := h.listed_once hn hne
    obtain rfl : q = parent := Option.some.inj (hq.symm.trans hp)
    exact ⟨m, hm, List.count_pos_iff.mp (by omega)⟩

theorem contains_child (h : a.IsTree root) (hl : a.Lists parent child) :
    a.contains child = true := (h.lists_iff.mp hl).contains

theorem contains_parent (h : a.IsTree root) (hp : a.HasParent child parent) :
    a.contains parent = true := (h.lists_iff.mpr hp).contains

theorem nodup_children (h : a.IsTree root) {n : Node} (hn : a.find? id = some n) :
    n.children.Nodup := by
  rw [List.nodup_iff_count_le_one]
  intro child
  by_cases hc : child ∈ n.children
  · obtain ⟨m, hm, hp⟩ := h.child_parent hn hc
    have hne : child ≠ root := by
      rintro rfl
      exact h.not_hasParent_root ⟨m, hm, hp⟩
    obtain ⟨q, k, hq, hk, hcount⟩ := h.listed_once hm hne
    obtain rfl : q = id := Option.some.inj (hq.symm.trans hp)
    rw [hn, Option.some.injEq] at hk
    subst hk
    exact Nat.le_of_eq hcount
  · rw [List.count_eq_zero_of_not_mem hc]
    exact Nat.zero_le 1

theorem reaches (h : a.IsTree root) (hc : a.contains id = true) : a.Reaches root id := by
  induction h.climbs hc using ReflTransGen.head_induction_on with
  | refl => exact .refl
  | head hp _ ih => exact (ih (h.contains_parent hp)).tail (h.lists_iff.mpr hp)

theorem exists_lineage (h : a.IsTree root) (hc : a.contains id = true) :
    ∃ above, a.Lineage root id above := by
  induction h.climbs hc using ReflTransGen.head_induction_on with
  | refl => exact ⟨[], .root⟩
  | head hp _ ih =>
    obtain ⟨above, ha⟩ := ih (h.contains_parent hp)
    exact ⟨_, .child hp ha⟩

theorem lineage_unique (h : a.IsTree root) {ys : List String} (hx : a.Lineage root id above)
    (hy : a.Lineage root id ys) : above = ys := by
  induction hx generalizing ys with
  | root =>
    cases hy with
    | root => rfl
    | child hp _ => exact absurd hp h.not_hasParent_root
  | child hp _ ih =>
    cases hy with
    | root => exact absurd hp h.not_hasParent_root
    | child hq hys =>
      obtain rfl := hp.unique hq
      rw [ih hys]

theorem notMem_lineage (h : a.IsTree root) (hl : a.Lineage root id above) : id ∉ above := by
  intro hm
  -- Above itself the node would have a lineage that is shorter than its own.
  obtain ⟨xs, hxs, hlt⟩ := hl.exists_shorter hm
  rw [h.lineage_unique hxs hl] at hlt
  exact Nat.lt_irrefl _ hlt

end IsTree

end SceneEditor.Arena
