import Mathlib.Data.List.Induction
import SceneEditor.Proofs.Arena.Audit

namespace SceneEditor.Arena

open Relation

variable {a : Arena} {root key : String}

def child? (a : Arena) (id : String) (i : Nat) : Option String :=
  (a.find? id).bind (·.children[i]?)

def follow (a : Arena) (start : String) (path : List Nat) : Option String :=
  path.foldlM a.child? start

/-- One tree below a root, told by the paths from the root. -/
structure IsSpanned (a : Arena) (root : String) : Prop where
  root_container : ∃ n, a.find? root = some n ∧ n.type = .container ∧ n.parent = none
  id_eq : ∀ {key n}, a.find? key = some n → n.id = key
  parent_contained : ∀ {key n}, a.find? key = some n → key ≠ root →
    ∃ parent, n.parent = some parent ∧ a.contains parent = true
  one_path : ∀ {key}, a.contains key = true → ∃! path, a.follow root path = some key
  child_parent : ∀ {key n child}, a.find? key = some n → child ∈ n.children →
    ∃ m, a.find? child = some m ∧ m.parent = some key

theorem child?_eq_some_iff {parent child : String} {i : Nat} : a.child? parent i = some child ↔
    ∃ n, a.find? parent = some n ∧ n.children[i]? = some child := by
  simp [child?, Option.bind_eq_some_iff]

theorem Lists.of_child? {parent child : String} {i : Nat} (h : a.child? parent i = some child) :
    a.Lists parent child := by
  obtain ⟨n, hn, hi⟩ := child?_eq_some_iff.mp h
  exact ⟨n, hn, List.mem_of_getElem? hi⟩

theorem Lists.exists_child? {parent child : String} (h : a.Lists parent child) :
    ∃ i, a.child? parent i = some child := by
  obtain ⟨n, hn, hc⟩ := h
  obtain ⟨i, hi⟩ := List.getElem?_of_mem hc
  exact ⟨i, child?_eq_some_iff.mpr ⟨n, hn, hi⟩⟩

@[simp] theorem follow_nil (a : Arena) (start : String) : a.follow start [] = some start := rfl

theorem follow_concat_eq_some_iff {start : String} {path : List Nat} {i : Nat} :
    a.follow start (path ++ [i]) = some key ↔
      ∃ parent, a.follow start path = some parent ∧ a.child? parent i = some key := by
  simp [follow, List.foldlM_append, Option.bind_eq_some_iff]

namespace IsTree

theorem exists_path (h : a.IsTree root) (hc : a.contains key = true) :
    ∃ path, a.follow root path = some key := by
  induction h.reaches hc with
  | refl => exact ⟨[], rfl⟩
  | tail _ hl ih =>
    obtain ⟨path, hp⟩ := ih hl.contains
    obtain ⟨i, hi⟩ := hl.exists_child?
    exact ⟨path ++ [i], follow_concat_eq_some_iff.mpr ⟨_, hp, hi⟩⟩

theorem path_unique (h : a.IsTree root) {p q : List Nat} (hp : a.follow root p = some key)
    (hq : a.follow root q = some key) : p = q := by
  -- The paths agree from their last steps backwards: a child has one parent, and one place there.
  induction p using List.reverseRecOn generalizing key q with
  | nil =>
    obtain rfl : root = key := by simpa using hp
    cases q using List.reverseRecOn with
    | nil => rfl
    | append_singleton q j =>
      obtain ⟨y, _, hj⟩ := follow_concat_eq_some_iff.mp hq
      exact absurd (h.lists_iff.mp (.of_child? hj)) h.not_hasParent_root
  | append_singleton p i ih =>
    obtain ⟨x, hx, hi⟩ := follow_concat_eq_some_iff.mp hp
    cases q using List.reverseRecOn with
    | nil =>
      obtain rfl : root = key := by simpa using hq
      exact absurd (h.lists_iff.mp (.of_child? hi)) h.not_hasParent_root
    | append_singleton q j =>
      obtain ⟨y, hy, hj⟩ := follow_concat_eq_some_iff.mp hq
      obtain rfl := (h.lists_iff.mp (.of_child? hi)).unique (h.lists_iff.mp (.of_child? hj))
      obtain ⟨n, hn, hi⟩ := child?_eq_some_iff.mp hi
      obtain ⟨m, hm, hj⟩ := child?_eq_some_iff.mp hj
      obtain rfl : n = m := Option.some.inj (hn.symm.trans hm)
      have hlt : i < n.children.length := (List.getElem?_eq_some_iff.mp hi).1
      rw [ih hx hy, (List.getElem?_inj hlt (h.nodup_children hn)).mp (hi.trans hj.symm)]

theorem isSpanned (h : a.IsTree root) : a.IsSpanned root where
  root_container := h.root_container
  id_eq := h.id_eq
  parent_contained := by
    intro key n hn hne
    obtain ⟨parent, m, hp, hm, _⟩ := h.listed_once hn hne
    exact ⟨parent, hp, contains_of_find? hm⟩
  one_path := by
    intro key hc
    obtain ⟨path, hp⟩ := h.exists_path hc
    exact ⟨path, hp, fun q hq => h.path_unique hq hp⟩
  child_parent := h.child_parent

end IsTree

namespace IsSpanned

theorem hasParent_of_child? (h : a.IsSpanned root) {parent child : String} {i : Nat}
    (hi : a.child? parent i = some child) : a.HasParent child parent := by
  obtain ⟨n, hn, hi⟩ := child?_eq_some_iff.mp hi
  exact h.child_parent hn (List.mem_of_getElem? hi)

theorem nodup_children (h : a.IsSpanned root) {n : Node} (hn : a.find? key = some n) :
    n.children.Nodup := by
  rw [List.nodup_iff_getElem?_ne_getElem?]
  intro i j hij hj heq
  obtain ⟨path, hp, _⟩ := h.one_path (contains_of_find? hn)
  have hjc : n.children[j]? = some n.children[j] := List.getElem?_eq_getElem hj
  have hchild := h.hasParent_of_child? (child?_eq_some_iff.mpr ⟨n, hn, hjc⟩)
  -- Two places of one child would be two paths to it.
  have hpi := follow_concat_eq_some_iff.mpr ⟨key, hp, child?_eq_some_iff.mpr ⟨n, hn, heq.trans hjc⟩⟩
  have hpj := follow_concat_eq_some_iff.mpr ⟨key, hp, child?_eq_some_iff.mpr ⟨n, hn, hjc⟩⟩
  have he := (h.one_path hchild.contains).unique hpi hpj
  rw [List.append_cancel_left_eq, List.cons.injEq] at he
  omega

theorem exists_last_step (h : a.IsSpanned root) (hc : a.contains key = true) (hne : key ≠ root) :
    ∃ path parent i, a.follow root path = some parent ∧ a.child? parent i = some key := by
  obtain ⟨path, hp, _⟩ := h.one_path hc
  cases path using List.reverseRecOn with
  | nil => exact absurd (by simpa using hp.symm) hne
  | append_singleton path i =>
    obtain ⟨parent, hpath, hi⟩ := follow_concat_eq_some_iff.mp hp
    exact ⟨path, parent, i, hpath, hi⟩

theorem climbs_of_follow (h : a.IsSpanned root) {path : List Nat}
    (hp : a.follow root path = some key) : ReflTransGen a.HasParent key root := by
  induction path using List.reverseRecOn generalizing key with
  | nil =>
    obtain rfl : root = key := by simpa using hp
    exact .refl
  | append_singleton path i ih =>
    obtain ⟨parent, hpath, hi⟩ := follow_concat_eq_some_iff.mp hp
    exact (ih hpath).head (h.hasParent_of_child? hi)

theorem isTree (h : a.IsSpanned root) : a.IsTree root where
  root_container := h.root_container
  id_eq := h.id_eq
  listed_once := by
    intro key n hn hne
    obtain ⟨_, parent, i, _, hi⟩ := h.exists_last_step (contains_of_find? hn) hne
    obtain ⟨k, hk, hp⟩ := h.hasParent_of_child? hi
    obtain rfl : n = k := Option.some.inj (hn.symm.trans hk)
    obtain ⟨m, hm, hi⟩ := child?_eq_some_iff.mp hi
    exact ⟨parent, m, hp, hm,
      List.count_eq_one_of_mem (h.nodup_children hm) (List.mem_of_getElem? hi)⟩
  child_parent := h.child_parent
  climbs := by
    intro key hc
    obtain ⟨path, hp, _⟩ := h.one_path hc
    exact h.climbs_of_follow hp

end IsSpanned

theorem isTree_iff_isSpanned : a.IsTree root ↔ a.IsSpanned root :=
  ⟨IsTree.isSpanned, IsSpanned.isTree⟩

theorem audit_eq_nil_iff_isSpanned (a : Arena) (root : String) :
    a.audit root = [] ↔ a.IsSpanned root :=
  audit_eq_nil_iff_isTree.trans isTree_iff_isSpanned

end SceneEditor.Arena
