import SceneEditor.Proofs.Arena.Branches
import SceneEditor.Proofs.Table

namespace SceneEditor

def Node.forget (n : Node) (gone : List String) : Node :=
  { n with children := n.children.filter (· ∉ gone) }

namespace Arena

variable {a b : Arena} {gone gone' : List String} {id : String}

def without (a : Arena) (gone : List String) : Arena :=
  (a.mapValues fun _ n => n.forget gone).filter fun e => e.1 ∉ gone

theorem keys_without (a : Arena) (gone : List String) :
    (a.without gone).keys = a.keys.filter (· ∉ gone) := by
  rw [without, Table.keys_filter_fst _ (fun key => decide (key ∉ gone)), Table.keys_mapValues]

theorem find?_without (a : Arena) (gone : List String) (id : String) :
    (a.without gone).find? id = if id ∈ gone then none else (a.find? id).map (·.forget gone) := by
  rw [without, Table.find?_filter _ (fun key => decide (key ∉ gone)), Table.find?_mapValues]
  by_cases hid : id ∈ gone
  · simp [hid]
  · simp [hid]

theorem without_congr (h : ∀ x, x ∈ gone ↔ x ∈ gone') : a.without gone = a.without gone' := by
  simp only [without, Node.forget, h]

theorem without_without (a : Arena) (gone gone' : List String) :
    (a.without gone).without gone' = a.without (gone ++ gone') := by
  apply Table.ext_of_find?
  · simp only [keys_without, List.filter_filter]
    apply List.filter_congr
    simp [Bool.and_comm]
  · intro x
    simp only [find?_without, List.mem_append]
    by_cases hx : x ∈ gone
    · simp [hx]
    · by_cases hx' : x ∈ gone'
      · simp [hx']
      · simp only [hx, hx', if_false, or_self, Option.map_map]
        congr 1
        funext n
        simp [Node.forget, List.filter_filter, Bool.and_comm]

theorem without_modify {change : Node → Node}
    (h : ∀ n : Node, (change n).forget gone = change (n.forget gone)) (a : Arena) (id : String) :
    without (a.modify id change) gone = (a.without gone).modify id change := by
  apply Table.ext_of_find?
  · simp only [keys_without, Table.keys_modify]
  · intro x
    rw [find?_without, Table.find?_modify, Table.find?_modify, find?_without]
    split
    · rfl
    · rw [Option.map_map, Option.map_map]
      congr 1
      funext n
      simp only [Function.comp_apply]
      split
      · exact h n
      · rfl

namespace Leaves

variable {f : String → Node → Node}

theorem walk_eq (h : a.Leaves gone f b) (hid : id ∉ gone) :
    b.walk id = (a.walk id).filter (· ∉ gone) := by
  let below (_ : Unit) (_ : Node) : Unit := ()
  have hvisit : b.visit below [] (id, ()) = (a.visit below [] (id, ())).filter (·.1 ∉ gone) :=
    h.visit_eq (fun _ _ => rfl) hid ()
  rw [← map_fst_visit b below id (), hvisit, ← map_fst_visit a below id (), List.filter_map]
  rfl

theorem eq_without (h : a.Leaves gone f b) (hkeys : b.keys = a.keys.filter (· ∉ gone))
    (hf : ∀ id n, f id n = { n with children := (f id n).children }) : b = a.without gone := by
  apply Table.ext_of_find?
  · rw [hkeys, keys_without]
  · intro x
    rw [find?_without]
    split
    · next hx =>
      rw [Option.eq_none_iff_forall_ne_some]
      intro n hn
      have hmem : x ∈ b.keys := Table.mem_keys_iff.mpr (by rw [hn]; rfl)
      rw [hkeys] at hmem
      simp [hx] at hmem
    · next hx =>
      rw [h.find?_eq hx]
      cases hn : a.find? x with
      | none => rfl
      | some n =>
        rw [Option.map_some, Option.map_some, hf, h.children_eq hx hn]
        rfl

end Leaves

end Arena

end SceneEditor
