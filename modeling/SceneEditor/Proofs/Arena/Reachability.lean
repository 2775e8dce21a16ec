import Mathlib.Logic.Relation
import SceneEditor.Arena.Walk

namespace SceneEditor.Arena

open Relation

variable {a : Arena} {seen stack : List String} {id start : String}

def Lists (a : Arena) (parent child : String) : Prop :=
  ∃ n, a.find? parent = some n ∧ child ∈ n.children

def HasParent (a : Arena) (child parent : String) : Prop :=
  ∃ n, a.find? child = some n ∧ n.parent = some parent

abbrev Reaches (a : Arena) : String → String → Prop := ReflTransGen a.Lists

theorem contains_of_find? {n : Node} (h : a.find? id = some n) : a.contains id = true := by
  rw [Table.contains_eq_isSome, h]; rfl

theorem exists_of_contains (h : a.contains id = true) : ∃ n, a.find? id = some n := by
  rwa [Table.contains_eq_isSome, Option.isSome_iff_exists] at h

theorem Lists.contains {parent child : String} (h : a.Lists parent child) :
    a.contains parent = true := by
  obtain ⟨n, hn, _⟩ := h
  exact contains_of_find? hn

theorem HasParent.contains {parent child : String} (h : a.HasParent child parent) :
    a.contains child = true := by
  obtain ⟨n, hn, _⟩ := h
  exact contains_of_find? hn

theorem HasParent.unique {child p q : String} (hp : a.HasParent child p)
    (hq : a.HasParent child q) : p = q := by
  obtain ⟨n, hn, hnp⟩ := hp
  obtain ⟨m, hm, hmq⟩ := hq
  rw [hn, Option.some.injEq] at hm
  subst hm
  exact Option.some.inj (hnp.symm.trans hmq)

theorem walkFrom_sound (h : id ∈ a.walkFrom seen stack) :
    id ∉ seen ∧ a.contains id = true ∧ ∃ s ∈ stack, a.Reaches s id := by
  fun_induction walkFrom a seen stack with
  | case1 => simp at h
  | case2 seen s stack _ ih =>
    obtain ⟨hs, hc, t, ht, hr⟩ := ih h
    exact ⟨hs, hc, t, List.mem_cons_of_mem _ ht, hr⟩
  | case3 seen s stack _ _ ih =>
    obtain ⟨hs, hc, t, ht, hr⟩ := ih h
    exact ⟨hs, hc, t, List.mem_cons_of_mem _ ht, hr⟩
  | case4 seen s stack hs n hn ih =>
    rcases List.mem_cons.mp h with rfl | h
    · exact ⟨hs, contains_of_find? hn, id, List.mem_cons_self, .refl⟩
    · obtain ⟨hid, hc, t, ht, hr⟩ := ih h
      refine ⟨fun hm => hid (List.mem_cons_of_mem _ hm), hc, ?_⟩
      rcases List.mem_append.mp ht with ht | ht
      · exact ⟨s, List.mem_cons_self, hr.head ⟨n, hn, ht⟩⟩
      · exact ⟨t, List.mem_cons_of_mem _ ht, hr⟩

theorem nodup_walkFrom (a : Arena) (seen stack : List String) : (a.walkFrom seen stack).Nodup := by
  fun_induction walkFrom a seen stack with
  | case1 => exact List.nodup_nil
  | case2 seen s stack _ ih => exact ih
  | case3 seen s stack _ _ ih => exact ih
  | case4 seen s stack _ n _ ih =>
    refine List.nodup_cons.mpr ⟨fun hm => ?_, ih⟩
    exact (walkFrom_sound hm).1 List.mem_cons_self

theorem mem_walkFrom_of_mem_stack (hc : a.contains id = true) (hm : id ∈ stack) :
    id ∈ seen ∨ id ∈ a.walkFrom seen stack := by
  fun_induction walkFrom a seen stack with
  | case1 => simp at hm
  | case2 seen s stack hs ih =>
    rcases List.mem_cons.mp hm with rfl | hm
    · exact .inl hs
    · exact ih hm
  | case3 seen s stack _ hn ih =>
    rcases List.mem_cons.mp hm with rfl | hm
    · obtain ⟨n, hn'⟩ := exists_of_contains hc
      rw [hn] at hn'
      cases hn'
    · exact ih hm
  | case4 seen s stack _ n _ ih =>
    rcases List.mem_cons.mp hm with rfl | hm
    · exact .inr List.mem_cons_self
    · rcases ih (List.mem_append_right _ hm) with h | h
      · rcases List.mem_cons.mp h with rfl | h
        · exact .inr List.mem_cons_self
        · exact .inl h
      · exact .inr (List.mem_cons_of_mem _ h)

theorem walkFrom_closed {child : String} (hid : id ∈ a.walkFrom seen stack)
    (hl : a.Lists id child) (hc : a.contains child = true) :
    child ∈ seen ∨ child ∈ a.walkFrom seen stack := by
  fun_induction walkFrom a seen stack with
  | case1 => simp at hid
  | case2 seen s stack _ ih => exact ih hid
  | case3 seen s stack _ _ ih => exact ih hid
  | case4 seen s stack _ n hn ih =>
    have hstep : child ∈ s :: seen ∨ child ∈ a.walkFrom (s :: seen) (n.children ++ stack) := by
      rcases List.mem_cons.mp hid with rfl | hid
      · obtain ⟨m, hm, hch⟩ := hl
        rw [hn, Option.some.injEq] at hm
        subst hm
        exact mem_walkFrom_of_mem_stack hc (List.mem_append_left _ hch)
      · exact ih hid
    rcases hstep with h | h
    · rcases List.mem_cons.mp h with rfl | h
      · exact .inr List.mem_cons_self
      · exact .inl h
    · exact .inr (List.mem_cons_of_mem _ h)

theorem mem_walk_iff : id ∈ a.walk start ↔ a.contains id = true ∧ a.Reaches start id := by
  constructor
  · intro h
    obtain ⟨_, hc, s, hs, hr⟩ := walkFrom_sound h
    rw [List.mem_singleton] at hs
    exact ⟨hc, hs ▸ hr⟩
  · rintro ⟨hc, hr⟩
    induction hr with
    | refl =>
      exact (mem_walkFrom_of_mem_stack hc List.mem_cons_self).resolve_left List.not_mem_nil
    | tail _ hl ih =>
      exact (walkFrom_closed (ih hl.contains) hl hc).resolve_left List.not_mem_nil

theorem nodup_walk (a : Arena) (start : String) : (a.walk start).Nodup :=
  nodup_walkFrom a [] [start]

end SceneEditor.Arena
