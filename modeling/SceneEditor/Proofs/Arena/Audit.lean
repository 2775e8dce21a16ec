import SceneEditor.Arena.Audit
import SceneEditor.Proofs.Arena.Tree

namespace SceneEditor.Arena

open Relation

variable {a : Arena} {root key : String} {reached stack : List String}

theorem mem_reachFrom (h : key ∈ reached ∨ key ∈ stack) : key ∈ (a.reachFrom reached stack).2 := by
  fun_induction reachFrom a reached stack with
  | case1 reached => simpa using h
  | case2 reached id stack hid _ all he ih =>
    rw [he] at ih
    apply ih
    rcases h with h | h
    · exact .inl h
    · rcases List.mem_cons.mp h with rfl | h
      · exact .inl hid
      · exact .inr h
  | case3 reached id stack _ _ ih =>
    apply ih
    rw [List.mem_cons] at h ⊢
    tauto
  | case4 reached id stack _ n _ ih =>
    apply ih
    rw [List.mem_cons] at h ⊢
    rw [List.mem_append]
    tauto

theorem reachFrom_sound (h : key ∈ (a.reachFrom reached stack).2) :
    key ∈ reached ∨ ∃ s ∈ stack, a.Reaches s key := by
  fun_induction reachFrom a reached stack with
  | case1 reached => exact .inl h
  | case2 reached id stack _ _ all he ih =>
    rw [he] at ih
    rcases ih h with h | ⟨s, hs, hr⟩
    · exact .inl h
    · exact .inr ⟨s, List.mem_cons_of_mem _ hs, hr⟩
  | case3 reached id stack _ _ ih =>
    rcases ih h with h | ⟨s, hs, hr⟩
    · rcases List.mem_cons.mp h with rfl | h
      · exact .inr ⟨key, List.mem_cons_self, .refl⟩
      · exact .inl h
    · exact .inr ⟨s, List.mem_cons_of_mem _ hs, hr⟩
  | case4 reached id stack _ n hn ih =>
    rcases ih h with h | ⟨s, hs, hr⟩
    · rcases List.mem_cons.mp h with rfl | h
      · exact .inr ⟨key, List.mem_cons_self, .refl⟩
      · exact .inl h
    · rcases List.mem_append.mp hs with hs | hs
      · exact .inr ⟨id, List.mem_cons_self, hr.head ⟨n, hn, List.mem_reverse.mp hs⟩⟩
      · exact .inr ⟨s, List.mem_cons_of_mem _ hs, hr⟩

theorem reachFrom_closed {child : String} (h : key ∈ (a.reachFrom reached stack).2)
    (hl : a.Lists key child) : key ∈ reached ∨ child ∈ (a.reachFrom reached stack).2 := by
  fun_induction reachFrom a reached stack with
  | case1 reached => exact .inl h
  | case2 reached id stack _ _ all he ih =>
    rw [he] at ih
    exact ih h
  | case3 reached id stack _ hn ih =>
    rcases ih h with hk | hc
    · rcases List.mem_cons.mp hk with rfl | hk
      · obtain ⟨m, hm, _⟩ := hl
        rw [hn] at hm
        cases hm
      · exact .inl hk
    · exact .inr hc
  | case4 reached id stack _ n hn ih =>
    rcases ih h with hk | hc
    · rcases List.mem_cons.mp hk with rfl | hk
      · obtain ⟨m, hm, hch⟩ := hl
        rw [hn, Option.some.injEq] at hm
        subst hm
        exact .inr (mem_reachFrom (.inr (List.mem_append_left _ (List.mem_reverse.mpr hch))))
      · exact .inl hk
    · exact .inr hc

theorem mem_reachFrom_root_iff : key ∈ (a.reachFrom [] [root]).2 ↔ a.Reaches root key := by
  constructor
  · intro h
    obtain ⟨s, hs, hr⟩ := (reachFrom_sound h).resolve_left List.not_mem_nil
    rw [List.mem_singleton] at hs
    exact hs ▸ hr
  · intro h
    induction h with
    | refl => exact mem_reachFrom (.inr List.mem_cons_self)
    | tail _ hl ih => exact (reachFrom_closed ih hl).resolve_left List.not_mem_nil

/-- The invariant of the search in a tree: what waits on the stack is new, and its parent, which is
the only node that lists it, was reached before. -/
structure Ahead (a : Arena) (root : String) (reached stack : List String) : Prop where
  nodup : stack.Nodup
  new : ∀ x ∈ stack, x ∉ reached
  parent : ∀ x, x ∈ reached ∨ x ∈ stack → x = root ∨ ∃ p ∈ reached, a.HasParent x p

namespace Ahead

theorem start (a : Arena) (root : String) : a.Ahead root [] [root] where
  nodup := List.nodup_singleton root
  new := fun _ _ => List.not_mem_nil
  parent := by
    intro x hx
    exact .inl (List.mem_singleton.mp (hx.resolve_left List.not_mem_nil))

theorem pop {id : String} (h : a.Ahead root reached (id :: stack)) :
    a.Ahead root (id :: reached) stack where
  nodup := h.nodup.of_cons
  new := by
    intro x hx hm
    rcases List.mem_cons.mp hm with rfl | hm
    · exact (List.nodup_cons.mp h.nodup).1 hx
    · exact h.new x (List.mem_cons_of_mem _ hx) hm
  parent := by
    intro x hx
    have hx' : x ∈ reached ∨ x ∈ id :: stack := by
      rw [List.mem_cons] at hx ⊢
      tauto
    rcases h.parent x hx' with hr | ⟨p, hp, hxp⟩
    · exact .inl hr
    · exact .inr ⟨p, List.mem_cons_of_mem _ hp, hxp⟩

theorem not_hasParent {id x : String} (h : a.Ahead root reached (id :: stack)) (ht : a.IsTree root)
    (hx : x ∈ id :: reached ∨ x ∈ stack) : ¬ a.HasParent x id := by
  intro hxid
  have hx' : x ∈ reached ∨ x ∈ id :: stack := by
    rw [List.mem_cons] at hx ⊢
    tauto
  rcases h.parent x hx' with rfl | ⟨p, hp, hxp⟩
  · exact ht.not_hasParent_root hxid
  · rw [hxp.unique hxid] at hp
    exact h.new id List.mem_cons_self hp

theorem push {id : String} {n : Node} (h : a.Ahead root reached (id :: stack)) (ht : a.IsTree root)
    (hn : a.find? id = some n) :
    a.Ahead root (id :: reached) (n.children.reverse ++ stack) := by
  have hchild : ∀ x ∈ n.children.reverse, a.HasParent x id := by
    intro x hx
    exact ht.lists_iff.mp ⟨n, hn, List.mem_reverse.mp hx⟩
  refine ⟨?_, ?_, ?_⟩
  · rw [List.nodup_append']
    refine ⟨List.nodup_reverse.mpr (ht.nodup_children hn), h.pop.nodup, ?_⟩
    intro x hx hm
    exact h.not_hasParent ht (.inr hm) (hchild x hx)
  · intro x hx hm
    rcases List.mem_append.mp hx with hx | hx
    · exact h.not_hasParent ht (.inl hm) (hchild x hx)
    · exact h.pop.new x hx hm
  · intro x hx
    rw [List.mem_append] at hx
    by_cases hc : x ∈ n.children.reverse
    · exact .inr ⟨id, List.mem_cons_self, hchild x hc⟩
    · exact h.pop.parent x (by tauto)

end Ahead

theorem IsTree.reachFrom_again (ht : a.IsTree root) (h : a.Ahead root reached stack) :
    (a.reachFrom reached stack).1 = [] := by
  fun_induction reachFrom a reached stack with
  | case1 => rfl
  | case2 reached id stack hid => exact absurd hid (h.new id List.mem_cons_self)
  | case3 reached id stack _ _ ih => exact ih h.pop
  | case4 reached id stack _ n hn ih => exact ih (h.push ht hn)

theorem rootViolations_eq_nil_iff {n : Node} :
    rootViolations n = [] ↔ n.parent = none ∧ n.type = .container := by
  cases hp : n.parent <;> by_cases ht : n.type = .container <;> simp [rootViolations, hp, ht]

theorem parentViolations_eq_nil_iff {n : Node} : parentViolations a key n = [] ↔
    ∃ parent m, n.parent = some parent ∧ a.find? parent = some m ∧ m.children.count key = 1 := by
  unfold parentViolations
  split
  · next hp => simp [hp]
  · next id hp =>
    split
    · next hm => simp [hp, hm]
    · next m hm => simp [hp, hm]

theorem childViolations_eq_nil_iff {child : String} :
    childViolations a key child = [] ↔ ∃ m, a.find? child = some m ∧ m.parent = some key := by
  unfold childViolations
  split
  · next hm => simp [hm]
  · next m hm => simp [hm]

theorem entryViolations_eq_nil_iff {n : Node} : entryViolations a root key n = [] ↔
    n.id = key ∧ (key ≠ root → parentViolations a key n = []) ∧
      ∀ child ∈ n.children, childViolations a key child = [] := by
  by_cases hid : n.id = key <;> by_cases hr : key = root <;>
    simp [entryViolations, hid, hr]

theorem audit_eq_nil_iff_checks : a.audit root = [] ↔
    (∃ n, a.find? root = some n ∧ rootViolations n = []) ∧
      (∀ key n, a.find? key = some n → entryViolations a root key n = []) ∧
      (a.reachFrom [] [root]).1 = [] ∧ ∀ key, a.contains key = true → a.Reaches root key := by
  unfold audit
  split
  · next hn => simp [hn]
  · next n hn =>
    have hentries : (∀ e ∈ a.entries, entryViolations a root e.1 e.2 = []) ↔
        ∀ key n, a.find? key = some n → entryViolations a root key n = [] := by
      simp only [Prod.forall, Table.mem_entries_iff]
    have horphans : (a.keys.filter fun key => !(a.reachFrom [] [root]).2.contains key) = [] ↔
        ∀ key, a.contains key = true → a.Reaches root key := by
      simp [List.filter_eq_nil_iff, Table.mem_keys_iff, Table.contains_eq_isSome,
        mem_reachFrom_root_iff]
    have hsort (l : List String) : l.mergeSort (fun x y => decide (x ≤ y)) = [] ↔ l = [] := by
      rw [← List.length_eq_zero_iff, List.length_mergeSort, List.length_eq_zero_iff]
    simp only [List.append_eq_nil_iff, List.flatMap_eq_nil_iff, List.map_eq_nil_iff, hentries,
      hsort, horphans, hn, Option.some.injEq, exists_eq_left', and_assoc]

theorem isTree_of_checks (hroot : ∃ n, a.find? root = some n ∧ rootViolations n = [])
    (hentry : ∀ key n, a.find? key = some n → entryViolations a root key n = [])
    (hreach : ∀ key, a.contains key = true → a.Reaches root key) : a.IsTree root := by
  obtain ⟨n, hn, hroot⟩ := hroot
  obtain ⟨hp, ht⟩ := rootViolations_eq_nil_iff.mp hroot
  have hlists {parent child : String} (hl : a.Lists parent child) : a.HasParent child parent := by
    obtain ⟨m, hm, hc⟩ := hl
    exact childViolations_eq_nil_iff.mp
      ((entryViolations_eq_nil_iff.mp (hentry parent m hm)).2.2 child hc)
  refine ⟨⟨n, hn, ht, hp⟩, ?_, ?_, ?_, ?_⟩
  · intro key m hm
    exact (entryViolations_eq_nil_iff.mp (hentry key m hm)).1
  · intro key m hm hne
    exact parentViolations_eq_nil_iff.mp ((entryViolations_eq_nil_iff.mp (hentry key m hm)).2.1 hne)
  · intro key m child hm hc
    exact hlists ⟨m, hm, hc⟩
  · intro key hc
    have hr := hreach key hc
    clear hc
    induction hr with
    | refl => exact .refl
    | tail _ hl ih => exact ih.head (hlists hl)

theorem isTree_of_audit (h : a.audit root = []) : a.IsTree root := by
  obtain ⟨hroot, hentry, _, hreach⟩ := audit_eq_nil_iff_checks.mp h
  exact isTree_of_checks hroot hentry hreach

theorem IsTree.audit_eq_nil (h : a.IsTree root) : a.audit root = [] := by
  apply audit_eq_nil_iff_checks.mpr
  refine ⟨?_, ?_, ?_, fun key hc => h.reaches hc⟩
  · obtain ⟨n, hn, ht, hp⟩ := h.root_container
    exact ⟨n, hn, rootViolations_eq_nil_iff.mpr ⟨hp, ht⟩⟩
  · intro key n hn
    apply entryViolations_eq_nil_iff.mpr
    refine ⟨h.id_eq hn, fun hne => parentViolations_eq_nil_iff.mpr (h.listed_once hn hne), ?_⟩
    intro child hc
    exact childViolations_eq_nil_iff.mpr (h.child_parent hn hc)
  · exact h.reachFrom_again (.start a root)

theorem audit_eq_nil_iff_isTree : a.audit root = [] ↔ a.IsTree root :=
  ⟨isTree_of_audit, IsTree.audit_eq_nil⟩

end SceneEditor.Arena
