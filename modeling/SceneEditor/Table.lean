namespace SceneEditor

structure Table (κ ν : Type) [BEq κ] where
  entries : List (κ × ν)
  distinct : (entries.map Prod.fst).Pairwise (fun a b => (a == b) = false)

namespace Table

variable {κ ν : Type} [BEq κ]

def empty : Table κ ν := ⟨[], .nil⟩

def keys (t : Table κ ν) : List κ := t.entries.map Prod.fst

def values (t : Table κ ν) : List ν := t.entries.map Prod.snd

def size (t : Table κ ν) : Nat := t.entries.length

def find? (t : Table κ ν) (k : κ) : Option ν :=
  (t.entries.find? fun e => e.1 == k).map Prod.snd

def contains (t : Table κ ν) (k : κ) : Bool :=
  t.entries.any fun e => e.1 == k

def overwrite (k : κ) (v : ν) : List (κ × ν) → List (κ × ν)
  | [] => []
  | e :: es => if e.1 == k then (e.1, v) :: es else e :: overwrite k v es

theorem map_fst_overwrite (k : κ) (v : ν) (es : List (κ × ν)) :
    (overwrite k v es).map Prod.fst = es.map Prod.fst := by
  induction es with
  | nil => rfl
  | cons e es ih => by_cases h : (e.1 == k) = true <;> simp [overwrite, h, ih]

/-- Writes a value: in place when the key is present, at the end when it is not. -/
def insert (t : Table κ ν) (k : κ) (v : ν) : Table κ ν :=
  if h : t.contains k then
    { entries := overwrite k v t.entries
      distinct := by rw [map_fst_overwrite]; exact t.distinct }
  else
    { entries := t.entries ++ [(k, v)]
      distinct := by
        simp only [contains, List.any_eq_true, not_exists, not_and, Bool.not_eq_true] at h
        simp only [List.map_append, List.map_cons, List.map_nil, List.pairwise_append,
          List.pairwise_cons, List.not_mem_nil, false_implies, implies_true, List.Pairwise.nil,
          and_true, List.mem_singleton, forall_eq, true_and]
        refine ⟨t.distinct, fun a ha => ?_⟩
        obtain ⟨e, he, rfl⟩ := List.mem_map.mp ha
        exact h e he }

def filter (t : Table κ ν) (p : κ × ν → Bool) : Table κ ν where
  entries := t.entries.filter p
  distinct := t.distinct.sublist (List.filter_sublist.map _)

def erase (t : Table κ ν) (k : κ) : Table κ ν :=
  t.filter fun e => !(e.1 == k)

def mapValues {μ : Type} (t : Table κ ν) (f : κ → ν → μ) : Table κ μ where
  entries := t.entries.map fun e => (e.1, f e.1 e.2)
  distinct := by simpa [List.map_map, Function.comp_def] using t.distinct

def modify (t : Table κ ν) (k : κ) (f : ν → ν) : Table κ ν :=
  t.mapValues fun a v => if a == k then f v else v

def ofList (es : List (κ × ν)) : Table κ ν :=
  es.foldl (fun t e => t.insert e.1 e.2) empty

theorem ext {s t : Table κ ν} (h : s.entries = t.entries) : s = t := by
  cases s; cases t; simp_all

@[simp] theorem keys_filter (t : Table κ ν) (p : κ × ν → Bool) :
    (t.filter p).keys = (t.entries.filter p).map Prod.fst := rfl

@[simp] theorem keys_mapValues {μ : Type} (t : Table κ ν) (f : κ → ν → μ) :
    (t.mapValues f).keys = t.keys := by
  simp [keys, mapValues, List.map_map, Function.comp_def]

@[simp] theorem keys_modify (t : Table κ ν) (k : κ) (f : ν → ν) :
    (t.modify k f).keys = t.keys := keys_mapValues _ _

theorem contains_eq_isSome (t : Table κ ν) (k : κ) : t.contains k = (t.find? k).isSome := by
  rw [Bool.eq_iff_iff]
  simp [contains, find?, List.find?_isSome]

theorem entries_insert_of_new {t : Table κ ν} {k : κ} (h : t.contains k = false) (v : ν) :
    (t.insert k v).entries = t.entries ++ [(k, v)] := by
  rw [insert, dif_neg (by rw [h]; exact Bool.false_ne_true)]

theorem entries_foldl_insert {t : Table κ ν} {es : List (κ × ν)}
    (h : ((t.entries ++ es).map Prod.fst).Pairwise (fun a b => (a == b) = false)) :
    (es.foldl (fun t e => t.insert e.1 e.2) t).entries = t.entries ++ es := by
  induction es generalizing t with
  | nil => rw [List.foldl_nil, List.append_nil]
  | cons e es ih =>
    have hnew : t.contains e.1 = false := by
      rw [List.map_append, List.pairwise_append] at h
      rw [contains, List.any_eq_false]
      intro x hx
      rw [h.2.2 x.1 (List.mem_map_of_mem hx) e.1 List.mem_cons_self]
      exact Bool.false_ne_true
    have hins := entries_insert_of_new hnew e.2
    rw [List.foldl_cons, ih, hins, List.append_assoc, List.singleton_append]
    rwa [hins, List.append_assoc, List.singleton_append]

theorem entries_ofList {es : List (κ × ν)}
    (h : (es.map Prod.fst).Pairwise (fun a b => (a == b) = false)) : (ofList es).entries = es :=
  entries_foldl_insert (t := empty) h

theorem ofList_entries (t : Table κ ν) : ofList t.entries = t := ext (entries_ofList t.distinct)

theorem snd_eq_or_mem_of_mem_overwrite {k : κ} {v : ν} {es : List (κ × ν)} {e : κ × ν}
    (h : e ∈ overwrite k v es) : e.2 = v ∨ e ∈ es := by
  induction es with
  | nil => cases h
  | cons x es ih =>
    unfold overwrite at h
    split at h
    · rcases List.mem_cons.mp h with rfl | h
      · exact .inl rfl
      · exact .inr (List.mem_cons_of_mem _ h)
    · rcases List.mem_cons.mp h with rfl | h
      · exact .inr List.mem_cons_self
      · exact (ih h).imp_right (List.mem_cons_of_mem _)

theorem snd_eq_or_mem_of_mem_insert {t : Table κ ν} {k : κ} {v : ν} {e : κ × ν}
    (h : e ∈ (t.insert k v).entries) : e.2 = v ∨ e ∈ t.entries := by
  unfold insert at h
  split at h
  · exact snd_eq_or_mem_of_mem_overwrite h
  · rcases List.mem_append.mp h with h | h
    · exact .inr h
    · exact .inl (congrArg Prod.snd (List.mem_singleton.mp h))

theorem exists_of_mem_ofList {es : List (κ × ν)} {e : κ × ν} (h : e ∈ (ofList es).entries) :
    ∃ x ∈ es, x.2 = e.2 := by
  have hfold : ∀ (es : List (κ × ν)) (t : Table κ ν),
      e ∈ (es.foldl (fun t e => t.insert e.1 e.2) t).entries →
        e ∈ t.entries ∨ ∃ x ∈ es, x.2 = e.2 := by
    intro es
    induction es with
    | nil => exact fun t h => .inl h
    | cons x es ih =>
      intro t h
      rcases ih _ h with h | ⟨y, hy, he⟩
      · rcases snd_eq_or_mem_of_mem_insert h with he | h
        · exact .inr ⟨x, List.mem_cons_self, he.symm⟩
        · exact .inl h
      · exact .inr ⟨y, List.mem_cons_of_mem _ hy, he⟩
  exact (hfold es empty h).resolve_left List.not_mem_nil

theorem find?_overwrite_key {k : κ} (v : ν) {es : List (κ × ν)} (h : es.any fun e => e.1 == k) :
    ((overwrite k v es).find? fun e => e.1 == k).map Prod.snd = some v := by
  induction es with
  | nil => simp at h
  | cons e es ih =>
    by_cases hk : (e.1 == k) = true
    · simp [overwrite, hk]
    · simp only [overwrite, hk, Bool.false_eq_true, if_false, List.find?_cons]
      exact ih (by simpa [hk] using h)

theorem find?_insert_key (t : Table κ ν) {k : κ} (hk : (k == k) = true) (v : ν) :
    (t.insert k v).find? k = some v := by
  unfold insert find?
  split
  · next h => exact find?_overwrite_key v h
  · next h =>
    have hnone : (t.entries.find? fun e => e.1 == k) = none := by
      rw [List.find?_eq_none]
      simpa only [contains, List.any_eq_true, not_exists, not_and] using h
    simp [List.find?_append, hnone, hk]

theorem find?_erase_key (t : Table κ ν) (k : κ) : (t.erase k).find? k = none := by
  have hnone : ((t.entries.filter fun e => !(e.1 == k)).find? fun e => e.1 == k) = none := by
    rw [List.find?_eq_none]
    intro e he
    simpa using (List.mem_filter.mp he).2
  rw [find?, erase, filter, hnone]
  rfl

section Filter

variable {p : κ → Bool} {k : κ}

theorem filter_overwrite (hp : ∀ j, (j == k) = true → p j = p k) (v : ν) (es : List (κ × ν)) :
    (overwrite k v es).filter (fun e => p e.1) =
      if p k then overwrite k v (es.filter fun e => p e.1) else es.filter fun e => p e.1 := by
  induction es with
  | nil => simp [overwrite]
  | cons e es ih =>
    by_cases hk : (e.1 == k) = true
    · have he := hp e.1 hk
      cases hpk : p k <;> rw [hpk] at he <;> simp [overwrite, hk, he]
    · simp only [overwrite, hk, Bool.false_eq_true, if_false, List.filter_cons, ih]
      cases p e.1 <;> cases p k <;> simp [overwrite, hk]

theorem filter_insert (hp : ∀ j, (j == k) = true → p j = p k) (t : Table κ ν) (v : ν) :
    (t.insert k v).filter (fun e => p e.1) =
      if p k then (t.filter fun e => p e.1).insert k v else t.filter fun e => p e.1 := by
  have hcontains (hk : p k = true) : (t.filter fun e => p e.1).contains k = t.contains k := by
    rw [Bool.eq_iff_iff]
    simp only [contains, filter, List.any_eq_true, List.mem_filter]
    constructor
    · rintro ⟨e, ⟨he, -⟩, hek⟩
      exact ⟨e, he, hek⟩
    · rintro ⟨e, he, hek⟩
      exact ⟨e, ⟨he, (hp e.1 hek).trans hk⟩, hek⟩
  apply ext
  by_cases hc : t.contains k = true
  · have hentries : ((t.insert k v).filter fun e => p e.1).entries =
        (overwrite k v t.entries).filter fun e => p e.1 := by
      rw [insert, dif_pos hc]
      rfl
    rw [hentries, filter_overwrite hp]
    split
    · next hk =>
      rw [insert, dif_pos ((hcontains hk).trans hc)]
      rfl
    · rfl
  · have hentries : ((t.insert k v).filter fun e => p e.1).entries =
        (t.entries ++ [(k, v)]).filter fun e => p e.1 := by
      rw [insert, dif_neg hc]
      rfl
    rw [hentries, List.filter_append]
    split
    · next hk =>
      rw [insert, dif_neg (by rwa [hcontains hk])]
      simp [filter, hk]
    · next hk => simp [filter, hk]

theorem filter_erase (hp : ∀ j, (j == k) = true → p j = p k) (t : Table κ ν) :
    (t.erase k).filter (fun e => p e.1) =
      if p k then (t.filter fun e => p e.1).erase k else t.filter fun e => p e.1 := by
  apply ext
  split
  · simp only [erase, filter, List.filter_filter, Bool.and_comm]
  · next hk =>
    simp only [erase, filter, List.filter_filter]
    apply List.filter_congr
    intro e _
    cases hek : e.1 == k with
    | false => simp
    | true => simp [hp e.1 hek, hk]

end Filter

section Lawful

variable [LawfulBEq κ]

theorem mem_keys_iff {t : Table κ ν} {k : κ} : k ∈ t.keys ↔ (t.find? k).isSome := by
  rw [← contains_eq_isSome]
  simp only [keys, contains, List.any_eq_true, List.mem_map, beq_iff_eq]

theorem nodup_keys (t : Table κ ν) : t.keys.Nodup :=
  t.distinct.imp fun h => by simpa using h

theorem mem_entries_iff {t : Table κ ν} {k : κ} {v : ν} :
    (k, v) ∈ t.entries ↔ t.find? k = some v := by
  obtain ⟨es, hes⟩ := t
  simp only [find?, Option.map_eq_some_iff, Prod.exists, exists_eq_right]
  induction es with
  | nil => simp
  | cons e es ih =>
    obtain ⟨j, w⟩ := e
    simp only [List.map_cons, List.pairwise_cons, List.mem_map, forall_exists_index, and_imp,
      forall_apply_eq_imp_iff₂] at hes
    have ih := ih hes.2
    by_cases hk : j = k
    · subst hk
      have hv : (j, v) ∉ es := fun h => by simpa using hes.1 _ h
      simp [hv, eq_comm]
    · have hk' : (j == k) = false := by simpa using hk
      simp [hk', Ne.symm hk, ih]

theorem find?_filter (t : Table κ ν) (p : κ → Bool) (k : κ) :
    (t.filter fun e => p e.1).find? k = if p k then t.find? k else none := by
  have (es : List (κ × ν)) : ((es.filter fun e => p e.1).find? fun e => e.1 == k) =
      if p k then es.find? fun e => e.1 == k else none := by
    induction es with
    | nil => simp
    | cons e es ih =>
      by_cases hk : e.1 = k
      · subst hk
        by_cases hp : p e.1
        · simp [hp]
        · simpa only [hp, List.filter_cons, Bool.false_eq_true, if_false] using ih
      · have hk' : (e.1 == k) = false := by simpa using hk
        by_cases hp : p e.1 <;> simp [hp, hk', ih]
  simp only [find?, filter, this]
  split <;> rfl

theorem find?_overwrite_of_ne {j k : κ} (v : ν) (es : List (κ × ν)) (h : j ≠ k) :
    ((overwrite k v es).find? fun e => e.1 == j) = es.find? fun e => e.1 == j := by
  induction es with
  | nil => rfl
  | cons e es ih =>
    by_cases hk : e.1 = k
    · have hj : (k == j) = false := by simpa using Ne.symm h
      simp [overwrite, hk, hj]
    · have hk' : (e.1 == k) = false := by simpa using hk
      simp only [overwrite, hk', Bool.false_eq_true, if_false, List.find?_cons, ih]

@[simp] theorem find?_insert_self (t : Table κ ν) (k : κ) (v : ν) :
    (t.insert k v).find? k = some v := find?_insert_key t (beq_self_eq_true k) v

theorem find?_insert_of_ne (t : Table κ ν) {j k : κ} (v : ν) (h : j ≠ k) :
    (t.insert k v).find? j = t.find? j := by
  unfold insert find?
  split
  · simp [find?_overwrite_of_ne v t.entries h]
  · have hkj : (k == j) = false := by simpa using Ne.symm h
    simp [List.find?_append, hkj]

theorem find?_mapValues {μ : Type} (t : Table κ ν) (f : κ → ν → μ) (k : κ) :
    (t.mapValues f).find? k = (t.find? k).map (f k) := by
  have (es : List (κ × ν)) : ((es.map fun e => (e.1, f e.1 e.2)).find? fun e => e.1 == k) =
      (es.find? fun e => e.1 == k).map fun e => (e.1, f e.1 e.2) := by
    rw [List.find?_map]; rfl
  simp only [find?, mapValues, this, Option.map_map]
  cases h : t.entries.find? fun e => e.1 == k with
  | none => rfl
  | some e =>
    have hk : e.1 = k := by simpa using List.find?_some h
    simp [hk]

theorem find?_modify (t : Table κ ν) (k j : κ) (f : ν → ν) :
    (t.modify k f).find? j = (t.find? j).map fun v => if j == k then f v else v :=
  find?_mapValues ..

end Lawful

end Table

end SceneEditor
