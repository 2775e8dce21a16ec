import SceneEditor.Property.Decode
import SceneEditor.Proofs.Reading

namespace SceneEditor

namespace Value

open Reading

/-- A value as a document may hold it: a plain one, or a list or an object of such values, where the
keys of an object are texts and no two are the same. -/
inductive IsJson : Value → Prop
  | null : IsJson .null
  | flag (b : Bool) : IsJson (.flag b)
  | whole (i : Int) : IsJson (.whole i)
  | number (x : Number.Double) : IsJson (.number x)
  | text (s : String) : IsJson (.text s)
  | list {items : List Value} (h : ∀ v ∈ items, IsJson v) : IsJson (.list items)
  | object {entries : List (Value × Value)} (htext : ∀ e ∈ entries, ∃ s, e.1 = .text s)
      (hdistinct : (entries.map Prod.fst).Nodup) (h : ∀ e ∈ entries, IsJson e.2) :
      IsJson (.object entries)

/-- A plain value whose whole numbers have no more digits than are read as a number. -/
inductive IsLegible : Value → Prop
  | null : IsLegible .null
  | flag (b : Bool) : IsLegible (.flag b)
  | whole {i : Int} (h : (Nat.toDigits 10 i.natAbs).length ≤ Text.maxDigits) : IsLegible (.whole i)
  | number (x : Number.Double) : IsLegible (.number x)
  | text (s : String) : IsLegible (.text s)
  | list {items : List Value} (h : ∀ v ∈ items, IsLegible v) : IsLegible (.list items)
  | object {entries : List (Value × Value)} (htext : ∀ e ∈ entries, ∃ s, e.1 = .text s)
      (hdistinct : (entries.map Prod.fst).Nodup) (h : ∀ e ∈ entries, IsLegible e.2) :
      IsLegible (.object entries)

def HasField (v : Value) (name : String) (w : Value) : Prop :=
  ∃ entries, v = object entries ∧ (text name, w) ∈ entries

def LacksField (v : Value) (name : String) : Prop := ∀ w, ¬ v.HasField name w

/-- What a table is read from: the entries of an object, or the parts of any other value that has
parts, each of which has two parts itself, a key and a value. -/
inductive Lists : Value → List (Value × Value) → Prop
  | object (entries : List (Value × Value)) : Lists (.object entries) entries
  | pairs {v : Value} {parts : List Value} {ps : List (Value × Value)}
      (hv : ∀ entries, v ≠ .object entries) (hparts : v.items? = some parts)
      (h : List.Forall₂ (fun part p => part.items? = some [p.1, p.2] ∧ p.1.unusableKey? = none)
        parts ps) : Lists v ps

variable {v w : Value} {name : String} {entries : List (Value × Value)}

attribute [simp] IsJson.null IsJson.flag IsJson.whole IsJson.number IsJson.text

@[simp] theorem isJson_list_iff {items : List Value} :
    (list items).IsJson ↔ ∀ v ∈ items, v.IsJson := by
  constructor
  · rintro ⟨⟩
    assumption
  · exact .list

@[simp] theorem isJson_object_iff : (object entries).IsJson ↔
    (∀ e ∈ entries, ∃ s, e.1 = .text s) ∧ (entries.map Prod.fst).Nodup ∧
      ∀ e ∈ entries, e.2.IsJson := by
  constructor
  · rintro ⟨⟩
    exact ⟨‹_›, ‹_›, ‹_›⟩
  · rintro ⟨htext, hdistinct, h⟩
    exact .object htext hdistinct h

theorem IsLegible.isJson (h : v.IsLegible) : v.IsJson := by
  induction h with
  | null => exact .null
  | flag b => exact .flag b
  | whole => exact .whole _
  | number x => exact .number x
  | text s => exact .text s
  | list _ ih => exact .list ih
  | object htext hdistinct _ ih => exact .object htext hdistinct ih

namespace IsJson

theorem field (hv : v.IsJson) (h : v.HasField name w) : w.IsJson := by
  obtain ⟨entries, rfl, hw⟩ := h
  cases hv with
  | object _ _ hvalues => exact hvalues _ hw

theorem items {parts : List Value} (hv : v.IsJson) (h : v.items? = some parts) :
    ∀ part ∈ parts, part.IsJson := by
  intro part hpart
  cases hv with
  | list hitems =>
    cases h
    exact hitems part hpart
  | object htext _ _ =>
    cases h
    obtain ⟨e, he, rfl⟩ := List.mem_map.mp hpart
    obtain ⟨s, hs⟩ := htext e he
    rw [hs]
    exact .text s
  | text s =>
    cases h
    obtain ⟨c, _, rfl⟩ := List.mem_map.mp hpart
    exact .text _
  | _ => cases h

theorem pairs {ps : List (Value × Value)} (hv : v.IsJson) (h : v.Lists ps) :
    ∀ p ∈ ps, p.1.IsJson ∧ p.2.IsJson := by
  intro p hp
  cases h with
  | object =>
    cases hv with
    | object htext _ hvalues =>
      obtain ⟨s, hs⟩ := htext p hp
      rw [hs]
      exact ⟨.text s, hvalues p hp⟩
  | pairs _ hparts hpairs =>
    obtain ⟨part, hpart, hitems, _⟩ := exists_left_of_forall₂ hpairs hp
    have hboth := (hv.items hparts part hpart).items hitems
    exact ⟨hboth _ List.mem_cons_self, hboth _ (List.mem_cons_of_mem _ List.mem_cons_self)⟩

end IsJson

theorem lookup?_eq_some_iff (hv : (object entries).IsJson) :
    lookup? entries name = some w ↔ (text name, w) ∈ entries := by
  cases hv with
  | object htext hdistinct hvalues =>
    clear hvalues
    induction entries with
    | nil => simp [lookup?]
    | cons e es ih =>
      rw [List.map_cons, List.nodup_cons] at hdistinct
      have ih := ih (fun e he => htext e (List.mem_cons_of_mem _ he)) hdistinct.2
      obtain ⟨k, u⟩ := e
      obtain ⟨s, rfl⟩ : ∃ s, k = text s := htext _ List.mem_cons_self
      by_cases hs : s = name
      · subst hs
        have hnot : (text s, w) ∉ es := fun h => hdistinct.1 (List.mem_map.mpr ⟨_, h, rfl⟩)
        simp [lookup?, sameKey_text, hnot, eq_comm]
      · have hne : (text s == text name) = false := by simpa [sameKey_text] using hs
        have hother : (text name, w) ≠ (text s, u) := by
          intro h
          cases h
          exact hs rfl
        simpa [lookup?, hne, hother] using ih

theorem field?_eq_some_iff (hv : v.IsJson) : v.field? name = some w ↔ v.HasField name w := by
  cases v with
  | object entries =>
    simp only [field?, lookup?_eq_some_iff hv, HasField, object.injEq, exists_eq_left']
  | _ => simp [field?, HasField]

theorem field?_eq_none_iff (hv : v.IsJson) : v.field? name = none ↔ v.LacksField name := by
  simp only [Option.eq_none_iff_forall_ne_some, ne_eq, field?_eq_some_iff hv, LacksField]

theorem field_eq_ok_iff (hv : v.IsJson) : v.field name = .ok w ↔ v.HasField name w := by
  rw [← field?_eq_some_iff hv]
  cases v with
  | object entries => cases h : lookup? entries name <;> simp [field, field?, h]
  | _ => simp [field, field?]

theorem asKey_eq_ok_iff : v.asKey = .ok w ↔ v = w ∧ v.unusableKey? = none := by
  unfold asKey
  cases v.unusableKey? <;> simp

theorem items_eq_ok_iff {parts : List Value} : v.items = .ok parts ↔ v.items? = some parts := by
  unfold items
  cases v.items? <;> simp

theorem enterPairs_eq_ok_iff {index : Nat} {t u : Table Value Value} {parts : List Value} :
    enterPairs index t parts = .ok u ↔ ∃ ps : List (Value × Value),
      List.Forall₂ (fun part p => part.items? = some [p.1, p.2] ∧ p.1.unusableKey? = none)
        parts ps ∧ u = ps.foldl (fun t p => t.insert p.1 p.2) t := by
  induction parts generalizing index t with
  | nil => simp [enterPairs, eq_comm]
  | cons part parts ih =>
    simp only [enterPairs, List.forall₂_cons_left_iff]
    split
    · next h => simp [h]
    · next k x h =>
      simp only [bind_eq_ok_iff, asKey_eq_ok_iff, ih]
      constructor
      · rintro ⟨_, ⟨rfl, hk⟩, ps, hps, rfl⟩
        exact ⟨(_, x) :: ps, ⟨(_, x), ps, ⟨h, hk⟩, hps, rfl⟩, rfl⟩
      · rintro ⟨_, ⟨⟨k', x'⟩, ps, ⟨h', hk⟩, hps, rfl⟩, rfl⟩
        rw [h] at h'
        cases h'
        exact ⟨_, ⟨rfl, hk⟩, ps, hps, rfl⟩
    · next other hother h =>
      simp only [reduceCtorEq, false_iff, not_exists, not_and]
      rintro ps ⟨p, _, ⟨h', _⟩, _⟩
      rw [h] at h'
      exact absurd h' (by simpa using hother p.1 p.2)

theorem toTable_eq_ok_iff {t : Table Value Value} :
    v.toTable = .ok t ↔ ∃ ps, v.Lists ps ∧ t = Table.ofList ps := by
  by_cases hv : ∃ entries, v = object entries
  · obtain ⟨entries, rfl⟩ := hv
    constructor
    · intro h
      cases h
      exact ⟨entries, .object entries, rfl⟩
    · rintro ⟨ps, hps, rfl⟩
      cases hps with
      | object => rfl
      | pairs hno => exact absurd rfl (hno entries)
  · rw [not_exists] at hv
    have htable : v.toTable = v.items >>= enterPairs 0 .empty := by
      cases v with
      | object entries => exact absurd rfl (hv entries)
      | _ => rfl
    simp only [htable, bind_eq_ok_iff, items_eq_ok_iff, enterPairs_eq_ok_iff]
    constructor
    · rintro ⟨parts, hparts, ps, hps, rfl⟩
      exact ⟨ps, .pairs hv hparts hps, rfl⟩
    · rintro ⟨ps, hps, rfl⟩
      cases hps with
      | object => exact absurd rfl (hv ps)
      | pairs _ hparts hps => exact ⟨_, hparts, ps, hps, rfl⟩

end Value

end SceneEditor
