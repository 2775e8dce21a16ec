import SceneEditor.Proofs.Arena.Tree

namespace SceneEditor

structure Node.SameLinks (n m : Node) : Prop where
  id_eq : m.id = n.id
  type_eq : m.type = n.type
  parent_eq : m.parent = n.parent
  children_eq : m.children = n.children

theorem Node.SameLinks.refl (n : Node) : n.SameLinks n := ⟨rfl, rfl, rfl, rfl⟩

structure Node.SameStem (n m : Node) : Prop where
  id_eq : m.id = n.id
  type_eq : m.type = n.type
  parent_eq : m.parent = n.parent

theorem Node.SameLinks.sameStem {n m : Node} (h : n.SameLinks m) : n.SameStem m :=
  ⟨h.id_eq, h.type_eq, h.parent_eq⟩

theorem Node.sameStem_addChild (n : Node) (id : String) (p : Prop) [Decidable p] :
    n.SameStem (if p then n.addChild id else n) := by
  split <;> exact ⟨rfl, rfl, rfl⟩

theorem Node.sameStem_dropChild (n : Node) (id : String) (p : Prop) [Decidable p] :
    n.SameStem (if p then n.dropChild id else n) := by
  split <;> exact ⟨rfl, rfl, rfl⟩

theorem Node.count_addChild_of_ne (n : Node) {id key : String} (hne : key ≠ id) (p : Prop)
    [Decidable p] :
    (if p then n.addChild id else n).children.count key = n.children.count key := by
  split
  · simp [Node.addChild, List.count_append, hne.symm]
  · rfl

theorem Node.count_dropChild_of_ne (n : Node) {id key : String} (hne : key ≠ id) (p : Prop)
    [Decidable p] :
    (if p then n.dropChild id else n).children.count key = n.children.count key := by
  split
  · simp [Node.dropChild, List.count_filter, hne]
  · rfl

namespace Arena

open Relation

variable {a b : Arena} {root id parent : String}

def Keeps (a b : Arena) (kept : String → Prop) (f : String → Node → Node) : Prop :=
  ∀ {key n}, kept key → a.find? key = some n → b.find? key = some (f key n) ∧ n.SameStem (f key n)

namespace Keeps

variable {kept : String → Prop} {f : String → Node → Node}

theorem hasParent (hb : Keeps a b kept f) {x y : String} (hx : kept x) (hp : a.HasParent x y) :
    b.HasParent x y := by
  obtain ⟨n, hn, hp⟩ := hp
  obtain ⟨hm, hstem⟩ := hb hx hn
  exact ⟨_, hm, hstem.parent_eq.trans hp⟩

theorem root_container (hb : Keeps a b kept f) (h : a.IsTree root) (hroot : kept root) :
    ∃ n, b.find? root = some n ∧ n.type = .container ∧ n.parent = none := by
  obtain ⟨n, hn, ht, hp⟩ := h.root_container
  obtain ⟨hm, hstem⟩ := hb hroot hn
  exact ⟨_, hm, hstem.type_eq.trans ht, hstem.parent_eq.trans hp⟩

theorem climbs (hb : Keeps a b kept f) (h : a.IsTree root)
    (hup : ∀ {x y}, kept x → a.HasParent x y → kept y) {key : String} (hkey : kept key)
    (hc : a.contains key = true) : ReflTransGen b.HasParent key root := by
  have hclimb := h.climbs hc
  clear hc
  induction hclimb using ReflTransGen.head_induction_on with
  | refl => exact .refl
  | head hp _ ih => exact (ih (hup hkey hp)).head (hb.hasParent hkey hp)

end Keeps

namespace IsTree

theorem relabel (h : a.IsTree root) {f : String → Node → Node}
    (hb : ∀ key, b.find? key = (a.find? key).map (f key))
    (hf : ∀ key (n : Node), n.SameLinks (f key n)) :
    b.IsTree root := by
  have hkeeps : Keeps a b (fun _ => True) f := by
    intro key n _ hn
    rw [hb, hn]
    exact ⟨rfl, (hf key n).sameStem⟩
  have hback {key : String} {m : Node} (hm : b.find? key = some m) :
      ∃ n, a.find? key = some n ∧ n.SameLinks m := by
    rw [hb] at hm
    obtain ⟨n, hn, rfl⟩ := Option.map_eq_some_iff.mp hm
    exact ⟨n, hn, hf key n⟩
  refine ⟨hkeeps.root_container h trivial, ?_, ?_, ?_, ?_⟩
  · intro key m hm
    obtain ⟨n, hn, hl⟩ := hback hm
    exact hl.id_eq.trans (h.id_eq hn)
  · intro key m hm hne
    obtain ⟨n, hn, hl⟩ := hback hm
    obtain ⟨q, k, hq, hk, hcount⟩ := h.listed_once hn hne
    refine ⟨q, f q k, hl.parent_eq.trans hq, (hkeeps trivial hk).1, ?_⟩
    rw [(hf q k).children_eq, hcount]
  · intro key m child hm hc
    obtain ⟨n, hn, hl⟩ := hback hm
    rw [hl.children_eq] at hc
    exact hkeeps.hasParent trivial (h.child_parent hn hc)
  · intro key hc
    obtain ⟨m, hm⟩ := exists_of_contains hc
    obtain ⟨n, hn, _⟩ := hback hm
    exact hkeeps.climbs h (fun _ _ => trivial) trivial (contains_of_find? hn)

theorem addChild (h : a.IsTree root) {new : Node} (hparent : a.contains parent = true)
    (hid : a.contains id = false)
    (hnew : new.id = id ∧ new.parent = some parent ∧ new.children = [])
    (hb : ∀ key, b.find? key = if key = id then some new
      else (a.find? key).map fun n => if key = parent then n.addChild id else n) :
    b.IsTree root := by
  have hne {key : String} (hc : a.contains key = true) : key ≠ id := by
    rintro rfl
    rw [hid] at hc
    cases hc
  have hkeeps : Keeps a b (fun _ => True)
      fun key n => if key = parent then n.addChild id else n := by
    intro key n _ hn
    rw [hb, if_neg (hne (contains_of_find? hn)), hn]
    exact ⟨rfl, n.sameStem_addChild id _⟩
  have hnewParent : b.HasParent id parent := ⟨new, by rw [hb, if_pos rfl], hnew.2.1⟩
  have hback {key : String} {m : Node} (hm : b.find? key = some m) : (key = id ∧ m = new) ∨
      ∃ n, a.find? key = some n ∧ m = if key = parent then n.addChild id else n := by
    rw [hb] at hm
    split at hm
    · next hk => exact .inl ⟨hk, (Option.some.inj hm).symm⟩
    · obtain ⟨n, hn, rfl⟩ := Option.map_eq_some_iff.mp hm
      exact .inr ⟨n, hn, rfl⟩
  refine ⟨hkeeps.root_container h trivial, ?_, ?_, ?_, ?_⟩
  · intro key m hm
    rcases hback hm with ⟨rfl, rfl⟩ | ⟨n, hn, rfl⟩
    · exact hnew.1
    · exact (hkeeps trivial hn).2.id_eq.trans (h.id_eq hn)
  · intro key m hm hroot
    rcases hback hm with ⟨rfl, rfl⟩ | ⟨n, hn, rfl⟩
    · obtain ⟨p, hp⟩ := exists_of_contains hparent
      have hnot : key ∉ p.children := fun hc => hne (h.contains_child ⟨p, hp, hc⟩) rfl
      refine ⟨parent, _, hnew.2.1, (hkeeps trivial hp).1, ?_⟩
      simp [Node.addChild, List.count_append, List.count_eq_zero_of_not_mem hnot]
    · obtain ⟨q, k, hq, hk, hcount⟩ := h.listed_once hn hroot
      have hkey : key ≠ id := hne (contains_of_find? hn)
      exact ⟨q, _, (hkeeps trivial hn).2.parent_eq.trans hq, (hkeeps trivial hk).1,
        (k.count_addChild_of_ne hkey _).trans hcount⟩
  · intro key m child hm hc
    rcases hback hm with ⟨rfl, rfl⟩ | ⟨n, hn, rfl⟩
    · rw [hnew.2.2] at hc
      cases hc
    · have hcases : child ∈ n.children ∨ key = parent ∧ child = id := by
        split at hc
        · next hk =>
          exact (List.mem_append.mp hc).imp_right fun hc => ⟨hk, List.mem_singleton.mp hc⟩
        · exact .inl hc
      rcases hcases with hc | ⟨rfl, rfl⟩
      · exact hkeeps.hasParent trivial (h.child_parent hn hc)
      · exact hnewParent
  · intro key hc
    have hold {x : String} (hx : a.contains x = true) : ReflTransGen b.HasParent x root :=
      hkeeps.climbs h (fun _ _ => trivial) trivial hx
    obtain ⟨m, hm⟩ := exists_of_contains hc
    rcases hback hm with ⟨rfl, rfl⟩ | ⟨n, hn, rfl⟩
    · exact (hold hparent).head hnewParent
    · exact hold (contains_of_find? hn)

section Walk

variable {x y : String}

theorem root_notMem_walk (h : a.IsTree root) (hne : id ≠ root) : root ∉ a.walk id := by
  intro hm
  rcases ReflTransGen.cases_tail (mem_walk_iff.mp hm).2 with he | ⟨y, _, hl⟩
  · exact hne he.symm
  · exact h.not_hasParent_root (h.lists_iff.mp hl)

theorem mem_walk_of_parent (h : a.IsTree root) (hy : y ∈ a.walk id) (hp : a.HasParent x y) :
    x ∈ a.walk id :=
  mem_walk_iff.mpr ⟨hp.contains, (mem_walk_iff.mp hy).2.tail (h.lists_iff.mpr hp)⟩

theorem parent_mem_walk (h : a.IsTree root) (hx : x ∈ a.walk id) (hne : x ≠ id)
    (hp : a.HasParent x y) : y ∈ a.walk id := by
  rcases ReflTransGen.cases_tail (mem_walk_iff.mp hx).2 with he | ⟨z, hz, hl⟩
  · exact absurd he hne
  · rw [hp.unique (h.lists_iff.mp hl)]
    exact mem_walk_iff.mpr ⟨hl.contains, hz⟩

end Walk

theorem prune (h : a.IsTree root) {n : Node} (hn : a.find? id = some n) (hroot : id ≠ root)
    (hb : ∀ key, b.find? key = if key ∈ a.walk id then none
      else (a.find? key).map fun m => if n.parent = some key then m.dropChild id else m) :
    b.IsTree root := by
  have hkeeps : Keeps a b (· ∉ a.walk id)
      fun key m => if n.parent = some key then m.dropChild id else m := by
    intro key m hkey hm
    rw [hb, if_neg hkey, hm]
    exact ⟨rfl, m.sameStem_dropChild id _⟩
  have hback {key : String} {m : Node} (hm : b.find? key = some m) : key ∉ a.walk id ∧
      ∃ k, a.find? key = some k ∧ m = if n.parent = some key then k.dropChild id else k := by
    rw [hb] at hm
    split at hm
    · cases hm
    · next hkey =>
      obtain ⟨k, hk, rfl⟩ := Option.map_eq_some_iff.mp hm
      exact ⟨hkey, k, hk, rfl⟩
  have hid : id ∈ a.walk id := mem_walk_iff.mpr ⟨contains_of_find? hn, .refl⟩
  have hup {x y : String} (hx : x ∉ a.walk id) (hp : a.HasParent x y) : y ∉ a.walk id :=
    fun hy => hx (h.mem_walk_of_parent hy hp)
  refine ⟨hkeeps.root_container h (h.root_notMem_walk hroot), ?_, ?_, ?_, ?_⟩
  · intro key m hm
    obtain ⟨hkey, k, hk, rfl⟩ := hback hm
    exact (hkeeps hkey hk).2.id_eq.trans (h.id_eq hk)
  · intro key m hm hne
    obtain ⟨hkey, k, hk, rfl⟩ := hback hm
    obtain ⟨q, p, hq, hp, hcount⟩ := h.listed_once hk hne
    have hkept := hkeeps (hup hkey ⟨k, hk, hq⟩) hp
    have hne' : key ≠ id := by
      rintro rfl
      exact hkey hid
    exact ⟨q, _, (hkeeps hkey hk).2.parent_eq.trans hq, hkept.1,
      (p.count_dropChild_of_ne hne' _).trans hcount⟩
  · intro key m child hm hc
    obtain ⟨hkey, k, hk, rfl⟩ := hback hm
    have hck : child ∈ k.children := by
      split at hc
      · exact List.mem_of_mem_filter hc
      · exact hc
    obtain ⟨c, hfc, hp⟩ := h.child_parent hk hck
    -- A child could only go without its parent if it were the one that is unlinked.
    have hkeep : child ∉ a.walk id := by
      intro hm
      by_cases hne : child = id
      · subst hne
        rw [hn, Option.some.injEq] at hfc
        rw [hfc, if_pos hp] at hc
        simp [Node.dropChild] at hc
      · exact hkey (h.parent_mem_walk hm hne ⟨c, hfc, hp⟩)
    exact hkeeps.hasParent hkeep ⟨c, hfc, hp⟩
  · intro key hc
    obtain ⟨m, hm⟩ := exists_of_contains hc
    obtain ⟨hkey, k, hk, -⟩ := hback hm
    exact hkeeps.climbs h hup hkey (contains_of_find? hk)

end IsTree

end Arena

end SceneEditor
