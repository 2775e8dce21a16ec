import SceneEditor.Proofs.Table
import SceneEditor.Property
import SceneEditor.Value.Key

namespace SceneEditor

namespace Value

open SceneEditor.Number

variable {e j k : Value}

theorem sameKey_iff_of_whole {i : Int} (he : e.numeric? = some (.inl i)) :
    sameKey e k = true ↔ k.numeric? = some (.inl i) := by
  fun_cases sameKey e k with
  | case9 =>
    rw [eq_comm (a := k.numeric?)]
    simp_all
  | case10 => simp_all
  | case11 =>
    rename_i hinl _
    exact iff_of_false nofun (hinl i i he)
  | _ => cases he

theorem sameKey_iff_of_fraction {x : Double} (he : e.numeric? = some (.inr x)) :
    sameKey e k = true ↔ k.numeric? = some (.inr x) := by
  fun_cases sameKey e k with
  | case9 => simp_all
  | case10 =>
    rw [eq_comm (a := k.numeric?)]
    simp_all
  | case11 =>
    rename_i hinr
    exact iff_of_false nofun (hinr x x he)
  | _ => cases he

theorem sameKey_of_sameKey (hj : sameKey e j = true) (hk : sameKey e k = true) :
    sameKey j k = true := by
  fun_induction sameKey e j generalizing k with
  | case1 => exact hk
  | case3 p a q b ih =>
    rw [Bool.and_eq_true, beq_iff_eq] at hj
    obtain ⟨rfl, hj⟩ := hj
    cases k <;> simp_all [sameKey, numeric?]
  | case8 i _ j _ =>
    cases beq_iff_eq.mp hj
    cases k <;> simp_all [sameKey, numeric?]
  | case9 a b _ _ _ _ _ _ _ _ i j hb ha =>
    cases beq_iff_eq.mp hj
    apply (sameKey_iff_of_whole hb).mpr
    exact (sameKey_iff_of_whole ha).mp hk
  | case10 a b _ _ _ _ _ _ _ _ x y hb ha =>
    cases decide_eq_true_iff.mp hj
    apply (sameKey_iff_of_fraction hb).mpr
    exact (sameKey_iff_of_fraction ha).mp hk
  | case11 => cases hj
  | _ => cases beq_iff_eq.mp hj; exact hk

theorem sameKey_self (h : k.unusableKey? = none) : (k == k) = true := by
  change sameKey k k = true
  fun_induction unusableKey? k with
  | case1 => cases h
  | case2 => cases h
  | case3 kind payload ih => rw [sameKey, beq_self_eq_true, ih h]; rfl
  | case4 v =>
    cases v with
    | number x => cases hx : x.whole? <;> simp [sameKey, numeric?, hx]
    | list | object | property => simp_all
    | _ => simp [sameKey, numeric?]

theorem sameKey_text_self (s : String) : (text s == text s) = true := by
  rw [sameKey_text, beq_self_eq_true]

theorem apart_of_not_sameKey (h : (j == k) = false) : Table.Apart j k := by
  intro e hj
  rw [← Bool.not_eq_true]
  intro hk
  have hsame : (j == k) = true := sameKey_of_sameKey hj hk
  rw [h] at hsame
  cases hsame

end Value

end SceneEditor
