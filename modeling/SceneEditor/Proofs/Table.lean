import Mathlib.Data.List.Basic
import SceneEditor.Table

namespace SceneEditor

namespace Table

variable {κ ν : Type} [BEq κ] {t : Table κ ν} {j k : κ}

def Apart (j k : κ) : Prop := ∀ e : κ, (e == j) = true → (e == k) = false

theorem Apart.symm (h : Apart j k) : Apart k j := by
  intro e hk
  rw [← Bool.not_eq_true]
  intro hj
  rw [h e hj] at hk
  cases hk

theorem keys_filter_fst (t : Table κ ν) (p : κ → Bool) :
    (t.filter fun e => p e.1).keys = t.keys.filter p := by
  rw [keys_filter, keys, List.filter_map]
  rfl

theorem entries_insert_of_contains (h : t.contains k = true) (v : ν) :
    (t.insert k v).entries = overwrite k v t.entries := by
  rw [insert, dif_pos h]

theorem keys_insert (t : Table κ ν) (k : κ) (v : ν) :
    (t.insert k v).keys = if t.contains k then t.keys else t.keys ++ [k] := by
  split
  · next h => rw [keys, entries_insert_of_contains h, map_fst_overwrite, keys]
  · next h =>
    rw [keys, entries_insert_of_new (Bool.not_eq_true _ ▸ h), List.map_append]
    rfl

theorem mem_of_mem_keys_foldl_insert {es : List (κ × ν)}
    (h : k ∈ (es.foldl (fun t e => t.insert e.1 e.2) t).keys) :
    k ∈ t.keys ∨ k ∈ es.map Prod.fst := by
  induction es generalizing t with
  | nil => exact .inl h
  | cons e es ih =>
    rw [List.map_cons, List.mem_cons]
    rcases ih h with h | h
    · rw [keys_insert] at h
      split at h
      · exact .inl h
      · exact (List.mem_append.mp h).imp_right fun h => .inl (List.mem_singleton.mp h)
    · exact .inr (.inr h)

theorem mem_of_mem_keys_ofList {es : List (κ × ν)} (h : k ∈ (ofList es).keys) :
    k ∈ es.map Prod.fst :=
  (mem_of_mem_keys_foldl_insert h).resolve_left List.not_mem_nil

theorem contains_eq_any_keys (t : Table κ ν) (k : κ) : t.contains k = t.keys.any (· == k) := by
  rw [contains, keys, List.any_map]
  rfl

theorem contains_insert (hk : (k == k) = true) (t : Table κ ν) (v : ν) :
    (t.insert k v).contains k = true := by
  rw [contains_eq_isSome, find?_insert_key t hk]
  rfl

theorem contains_insert_of_contains (h : t.contains j = true) (k : κ) (v : ν) :
    (t.insert k v).contains j = true := by
  rw [contains_eq_any_keys] at h ⊢
  rw [keys_insert]
  split
  · exact h
  · rw [List.any_append, h, Bool.true_or]

theorem overwrite_overwrite (k : κ) (v w : ν) (es : List (κ × ν)) :
    overwrite k w (overwrite k v es) = overwrite k w es := by
  induction es with
  | nil => rfl
  | cons e es ih => by_cases he : (e.1 == k) = true <;> simp [overwrite, he, ih]

theorem overwrite_comm (h : Apart j k) (v w : ν) (es : List (κ × ν)) :
    overwrite k w (overwrite j v es) = overwrite j v (overwrite k w es) := by
  induction es with
  | nil => rfl
  | cons e es ih =>
    by_cases hj : (e.1 == j) = true
    · simp [overwrite, hj, h e.1 hj]
    · by_cases hk : (e.1 == k) = true
      · simp [overwrite, hj, hk]
      · simp [overwrite, hj, hk, ih]

theorem overwrite_append_of_new {es : List (κ × ν)} (h : (es.any fun e => e.1 == k) = false)
    (v : ν) (es' : List (κ × ν)) : overwrite k v (es ++ es') = es ++ overwrite k v es' := by
  induction es with
  | nil => rfl
  | cons e es ih =>
    rw [List.any_cons, Bool.or_eq_false_iff] at h
    rw [List.cons_append, overwrite, h.1, ih h.2]
    rfl

theorem insert_insert (hk : (k == k) = true) (t : Table κ ν) (v w : ν) :
    (t.insert k v).insert k w = t.insert k w := by
  apply ext
  rw [entries_insert_of_contains (contains_insert hk t v)]
  by_cases h : t.contains k = true
  · rw [entries_insert_of_contains h, entries_insert_of_contains h, overwrite_overwrite]
  · rw [Bool.not_eq_true] at h
    rw [entries_insert_of_new h, entries_insert_of_new h, overwrite_append_of_new h, overwrite, hk]
    rfl

theorem insert_comm (h : Apart j k) (hj : t.contains j = true) (hk : t.contains k = true)
    (v w : ν) : (t.insert j v).insert k w = (t.insert k w).insert j v := by
  apply ext
  rw [entries_insert_of_contains (contains_insert_of_contains hk j v),
    entries_insert_of_contains (contains_insert_of_contains hj k w),
    entries_insert_of_contains hj, entries_insert_of_contains hk, overwrite_comm h]

theorem find?_overwrite_of_apart (h : Apart j k) (v : ν) (es : List (κ × ν)) :
    ((overwrite k v es).find? fun e => e.1 == j) = es.find? fun e => e.1 == j := by
  induction es with
  | nil => rfl
  | cons e es ih =>
    by_cases hk : (e.1 == k) = true
    · simp [overwrite, hk, h.symm e.1 hk]
    · rw [Bool.not_eq_true] at hk
      rw [overwrite, hk, if_neg Bool.false_ne_true, List.find?_cons, List.find?_cons, ih]

theorem find?_insert_of_apart (h : Apart j k) (hk : (k == k) = true) (t : Table κ ν) (v : ν) :
    (t.insert k v).find? j = t.find? j := by
  unfold insert find?
  split
  · rw [find?_overwrite_of_apart h]
  · rw [List.find?_append, List.find?_singleton, h.symm k hk, if_neg Bool.false_ne_true,
      Option.or_none]

theorem erase_of_new (h : t.contains k = false) : t.erase k = t := by
  apply ext
  rw [contains, List.any_eq_false] at h
  apply List.filter_eq_self.mpr
  intro e he
  simpa using h e he

theorem erase_insert_of_new (hk : (k == k) = true) (h : t.contains k = false) (v : ν) :
    (t.insert k v).erase k = t := by
  have hstay : (t.entries.filter fun e => !(e.1 == k)) = t.entries :=
    congrArg entries (erase_of_new h)
  apply ext
  simp [erase, filter, entries_insert_of_new h, List.filter_append, hstay, hk]

section Lawful

variable [LawfulBEq κ] {s : Table κ ν}

theorem filterMap_keys (t : Table κ ν) :
    (t.keys.filterMap fun k => (t.find? k).map (k, ·)) = t.entries := by
  have hfound : ∀ e ∈ t.entries, (t.find? e.1).map (e.1, ·) = some e := by
    intro e he
    rw [mem_entries_iff.mp he]
    rfl
  rw [keys, List.filterMap_map]
  exact (List.filterMap_congr hfound).trans List.filterMap_some

theorem ext_of_find? (hkeys : s.keys = t.keys) (h : ∀ k, s.find? k = t.find? k) : s = t := by
  apply ext
  rw [← filterMap_keys s, ← filterMap_keys t, hkeys]
  simp only [h]

theorem modify_eq_self {f : ν → ν} (h : ∀ v, t.find? k = some v → f v = v) :
    t.modify k f = t := by
  apply ext_of_find?
  · exact keys_modify _ _ _
  · intro i
    rw [find?_modify]
    cases hv : t.find? i with
    | none => rfl
    | some v =>
      rw [Option.map_some]
      split
      · next hi => rw [h v (by rw [← eq_of_beq hi, hv])]
      · rfl

theorem modify_modify (t : Table κ ν) (k : κ) (f g : ν → ν) :
    (t.modify k f).modify k g = t.modify k fun v => g (f v) := by
  apply ext_of_find?
  · simp only [keys_modify]
  · intro i
    simp only [find?_modify, Option.map_map]
    congr 1
    funext v
    rw [Function.comp_apply]
    split <;> rfl

theorem modify_comm {f g : ν → ν}
    (h : ∀ v, j = k → t.find? j = some v → g (f v) = f (g v)) :
    (t.modify j f).modify k g = (t.modify k g).modify j f := by
  apply ext_of_find?
  · simp only [keys_modify]
  · intro i
    simp only [find?_modify, Option.map_map]
    cases hv : t.find? i with
    | none => rfl
    | some v =>
      rw [Option.map_some, Option.map_some, Function.comp_apply, Function.comp_apply]
      by_cases hj : (i == j) = true
      · by_cases hk : (i == k) = true
        · obtain rfl := eq_of_beq hj
          simp only [if_pos hj, if_pos hk, h v (eq_of_beq hk) hv]
        · simp only [if_pos hj, if_neg hk]
      · simp only [if_neg hj]

end Lawful

end Table

end SceneEditor
