import SceneEditor.Notice
import SceneEditor.Proofs.Value.Json

namespace SceneEditor

open Reading

namespace Value

variable {v : Value} {items : List Value} {entries : List (Value × Value)} {room : Nat}
  {o : Obstacle}

theorem obstacle?_list (items : List Value) (room : Nat) :
    (list items).obstacle? room = items.findSome? (·.obstacle? room) := by
  rw [obstacle?]
  induction items with
  | nil => rfl
  | cons v vs ih =>
    rw [obstacleItems?, ih, List.findSome?_cons]
    cases v.obstacle? room <;> rfl

theorem obstacle?_object (entries : List (Value × Value)) (room : Nat) :
    (object entries).obstacle? room =
      entries.findSome? fun e => (e.1.obstacle? room).or (e.2.obstacle? room) := by
  rw [obstacle?]
  induction entries with
  | nil => rfl
  | cons e es ih =>
    rw [obstaclePairs?, ih, List.findSome?_cons, obstaclePair?]
    cases (e.1.obstacle? room).or (e.2.obstacle? room) <;> rfl

theorem obstacle?_succ : ∀ (v : Value) {room : Nat}, v.obstacle? room = none →
    v.obstacle? (room + 1) = none
  | list items, room, h => by
    rw [obstacle?_list, List.findSome?_eq_none_iff] at h ⊢
    intro v hv
    exact obstacle?_succ v (h v hv)
  | object entries, room, h => by
    rw [obstacle?_object, List.findSome?_eq_none_iff] at h ⊢
    intro e he
    obtain ⟨hkey, hvalue⟩ := Option.or_eq_none_iff.mp (h e he)
    rw [obstacle?_succ e.1 hkey, obstacle?_succ e.2 hvalue, Option.or_none]
  | property _ payload, room + 1, h => obstacle?_succ payload h
  | property _ _, 0, h => nomatch h
  | null, _, h | flag _, _, h | whole _, _, h | number _, _, h | text _, _, h | kind _, _, h
  | propertyType _, _, h | builtin _, _, h | nodeType _, _, h | scene _ _, _, h => h
termination_by v => sizeOf v
decreasing_by
  · exact Nat.lt_trans (List.sizeOf_lt_of_mem hv) (by simp)
  · have hsize := List.sizeOf_lt_of_mem he
    obtain ⟨j, w⟩ := e
    simp at hsize ⊢
    omega
  · have hsize := List.sizeOf_lt_of_mem he
    obtain ⟨j, w⟩ := e
    simp at hsize ⊢
    omega
  · rw [property.sizeOf_spec]
    omega

theorem IsJson.obstacle?_eq (h : v.IsJson) (ho : v.obstacle? room = some o) : o = .digits := by
  induction h with
  | whole i =>
    rw [obstacle?] at ho
    split at ho
    · exact (Option.some.inj ho).symm
    · cases ho
  | list _ ih =>
    rw [obstacle?_list] at ho
    obtain ⟨w, hw, how⟩ := List.exists_of_findSome?_eq_some ho
    exact ih w hw how
  | object htext _ _ ih =>
    rw [obstacle?_object] at ho
    obtain ⟨e, he, hoe⟩ := List.exists_of_findSome?_eq_some ho
    obtain ⟨s, hs⟩ := htext e he
    rw [hs] at hoe
    exact ih e he hoe
  | _ => cases ho

theorem toText_eq_ok_iff {s : String} :
    v.toText = .ok s ↔ v.obstacle? maxNesting = none ∧ s = v.asText := by
  unfold toText
  cases v.obstacle? maxNesting <;> simp [eq_comm]

@[simp] theorem toText_text (s : String) : (text s).toText = .ok s := rfl

def IsShowable (v : Value) : Prop := v.obstacle? maxNesting = none

instance (v : Value) : Decidable v.IsShowable :=
  inferInstanceAs (Decidable (v.obstacle? maxNesting = none))

@[simp] theorem isShowable_text (s : String) : (text s).IsShowable := rfl

@[simp] theorem isShowable_object_iff :
    (object entries).IsShowable ↔ ∀ e ∈ entries, e.1.IsShowable ∧ e.2.IsShowable := by
  rw [IsShowable, obstacle?_object, List.findSome?_eq_none_iff]
  exact forall₂_congr fun _ _ => Option.or_eq_none_iff

theorem IsShowable.payload {kind : Option PropertyKind} {payload : Value}
    (h : (property kind payload).IsShowable) : payload.IsShowable :=
  obstacle?_succ payload h

/-- The smallest number with too many digits to be written. -/
def overlong : Value := .whole (Int.ofNat (Nat.pow 10 Text.maxDigits))

theorem lt_length_toDigits (k : Nat) : k < (Nat.toDigits 10 (Nat.pow 10 k)).length := by
  cases k with
  | zero => decide
  | succ k =>
    rw [← Nat.not_le, Nat.length_toDigits_le_iff (by decide) k.succ_pos]
    exact Nat.lt_irrefl _

theorem obstacle?_overlong (room : Nat) : overlong.obstacle? room = some .digits := by
  rw [overlong, obstacle?, Int.natAbs, if_pos (lt_length_toDigits _)]

end Value

namespace Notice

def IsShowable (n : Notice) : Prop := ∀ v ∈ n.values, v.IsShowable

theorem obstacle?_eq_none_iff {n : Notice} : n.obstacle? = none ↔ n.IsShowable :=
  List.findSome?_eq_none_iff

theorem obstacle?_of_values_eq {n : Notice} {v : Value} (h : n.values = [v]) :
    n.obstacle? = v.obstacle? Value.maxNesting := by
  rw [obstacle?, h, List.findSome?_singleton]

end Notice

end SceneEditor
