import SceneEditor.Proofs.Arena.Search
import SceneEditor.Proofs.Arena.TreeEdits

namespace SceneEditor.Arena

variable {δ : Type} {a b : Arena} {below : δ → Node → δ} {seen seen' : List String}
  {c : Call δ} {cs : List (Call δ)} {id : String}

theorem visitAll_of_idle (h : c.1 ∈ seen ∨ a.find? c.1 = none) :
    a.visitAll below seen (c :: cs) = a.visitAll below seen cs := by
  rcases h with hs | hn
  · exact visitAll_of_mem hs
  · exact visitAll_of_none hn

/-- What holds of a list of calls may be shown call by call: a call comes to nothing, or the calls
on the children of its node take its place. -/
theorem calls_induction (a : Arena) (below : δ → Node → δ)
    {P : List String → List (Call δ) → Prop} (nil : ∀ seen, P seen [])
    (idle : ∀ {seen c cs}, c.1 ∈ seen ∨ a.find? c.1 = none → P seen cs → P seen (c :: cs))
    (expand : ∀ {seen c cs n}, c.1 ∉ seen → a.find? c.1 = some n →
      P (c.1 :: seen) (n.children.map (·, below c.2 n) ++ cs) → P seen (c :: cs))
    (seen : List String) (cs : List (Call δ)) : P seen cs := by
  -- As in the loop, entries that are left and calls that are left go down together.
  induction hk : a.pending seen + cs.length using Nat.strongRecOn generalizing seen cs with
  | ind k ih =>
    cases cs with
    | nil => exact nil seen
    | cons c cs =>
      rw [List.length_cons] at hk
      by_cases hidle : c.1 ∈ seen ∨ a.find? c.1 = none
      · exact idle hidle (ih _ (by omega) seen cs rfl)
      · rw [not_or] at hidle
        obtain ⟨n, hn⟩ := Option.ne_none_iff_exists'.mp hidle.2
        have hlt := pending_cons_lt hn hidle.1
        refine expand hidle.1 hn (ih _ ?_ _ _ rfl)
        rw [List.length_append, List.length_map]
        omega

theorem visitAll_congr_seen (h : ∀ c ∈ cs, ∀ x, a.Reaches c.1 x → (x ∈ seen ↔ x ∈ seen')) :
    a.visitAll below seen cs = a.visitAll below seen' cs := by
  induction seen, cs using calls_induction a below generalizing seen' with
  | nil => rw [visitAll, visitAll]
  | @idle seen c cs hidle ih =>
    rw [List.forall_mem_cons] at h
    rw [visitAll_of_idle hidle, visitAll_of_idle (hidle.imp_left (h.1 c.1 .refl).mp), ih h.2]
  | @expand seen c cs n hs hn ih =>
    rw [List.forall_mem_cons] at h
    rw [visitAll_of_some hs hn, visitAll_of_some (mt (h.1 c.1 .refl).mpr hs) hn]
    refine congrArg (c :: ·) (ih ?_)
    rw [List.forall_mem_append, List.forall_mem_map]
    constructor
    · intro child hchild x hx
      rw [List.mem_cons, List.mem_cons, h.1 x (hx.head ⟨n, hn, hchild⟩)]
    · intro d hd x hx
      rw [List.mem_cons, List.mem_cons, h.2 d hd x hx]

theorem map_fst_visit (a : Arena) (below : δ → Node → δ) (id : String) (d : δ) :
    (a.visit below [] (id, d)).map Prod.fst = a.walk id := by
  rw [walk, ← visitAll_singleton, ← walkFrom_eq_visitAll]
  rfl

theorem exists_visit_of_mem (h : id ∈ (a.visitAll below seen cs).map Prod.fst) :
    ∃ before d after, id ∉ (before.map Prod.fst).reverse ++ seen ∧ a.visitAll below seen cs =
      before ++ a.visit below ((before.map Prod.fst).reverse ++ seen) (id, d) ++ after := by
  induction seen, cs using calls_induction a below with
  | nil => simp [visitAll] at h
  | @idle seen c cs hidle ih =>
    rw [visitAll_of_idle hidle] at h ⊢
    exact ih h
  | @expand seen c cs n hs hn ih =>
    by_cases hid : c.1 = id
    · subst hid
      refine ⟨[], c.2, a.visitAll below (((a.visit below seen c).map Prod.fst).reverse ++ seen) cs,
        hs, ?_⟩
      rw [visitAll]
      rfl
    · rw [visitAll_of_some hs hn] at h ⊢
      rw [List.map_cons, List.mem_cons] at h
      obtain ⟨before, d, after, hnot, heq⟩ := ih (h.resolve_left (Ne.symm hid))
      have hseen : ((c :: before).map Prod.fst).reverse ++ seen =
          (before.map Prod.fst).reverse ++ c.1 :: seen := by simp
      refine ⟨c :: before, d, after, ?_⟩
      rw [hseen]
      exact ⟨hnot, by rw [heq]; rfl⟩

/-- The arena is what is left of another when some nodes go with all that is below them. The others
may change, but keep their types and those of their children that stay. -/
structure Leaves (a : Arena) (gone : List String) (f : String → Node → Node) (b : Arena) :
    Prop where
  closed : ∀ {id n}, id ∈ gone → a.find? id = some n → n.children ⊆ gone
  find?_eq : ∀ {id}, id ∉ gone → b.find? id = (a.find? id).map (f id)
  type_eq : ∀ {id n}, id ∉ gone → a.find? id = some n → (f id n).type = n.type
  children_eq : ∀ {id n}, id ∉ gone → a.find? id = some n →
    (f id n).children = n.children.filter (· ∉ gone)

namespace Leaves

variable {gone : List String} {f : String → Node → Node}

theorem visitAll_eq (h : a.Leaves gone f b)
    (hbelow : ∀ {n m : Node} (d : δ), m.type = n.type → below d m = below d n)
    (hseen : ∀ x ∉ gone, (x ∈ seen' ↔ x ∈ seen)) :
    b.visitAll below seen' (cs.filter (·.1 ∉ gone)) =
      (a.visitAll below seen cs).filter (·.1 ∉ gone) := by
  induction seen, cs using calls_induction a below generalizing seen' with
  | nil => rw [List.filter_nil, visitAll, visitAll, List.filter_nil]
  | @idle seen c cs hidle ih =>
    rw [visitAll_of_idle hidle, ← ih hseen]
    by_cases hgone : c.1 ∈ gone
    · rw [List.filter_cons_of_neg (by simpa using hgone)]
    · rw [List.filter_cons_of_pos (by simpa using hgone)]
      refine visitAll_of_idle (hidle.imp (hseen c.1 hgone).mpr fun hn => ?_)
      rw [h.find?_eq hgone, hn, Option.map_none]
  | @expand seen c cs n hs hn ih =>
    rw [visitAll_of_some hs hn]
    have hcalls (g : List String) (d : δ) : (g.map (·, d)).filter (·.1 ∉ gone) =
        (g.filter (· ∉ gone)).map (·, d) := List.filter_map
    by_cases hgone : c.1 ∈ gone
    · -- With the node all calls on its children go, and it does not matter that it was seen.
      have hchildren : n.children.filter (· ∉ gone) = [] := by
        rw [List.filter_eq_nil_iff]
        intro child hchild
        simpa using h.closed hgone hn hchild
      have hseen' : ∀ x ∉ gone, (x ∈ seen' ↔ x ∈ c.1 :: seen) := by
        intro x hx
        have hne : x ≠ c.1 := fun he => hx (he ▸ hgone)
        rw [hseen x hx, List.mem_cons, or_iff_right hne]
      rw [List.filter_cons_of_neg (by simpa using hgone),
        List.filter_cons_of_neg (by simpa using hgone), ← ih hseen', List.filter_append,
        hcalls, hchildren, List.map_nil, List.nil_append]
    · have hfound : b.find? c.1 = some (f c.1 n) := by rw [h.find?_eq hgone, hn, Option.map_some]
      rw [List.filter_cons_of_pos (by simpa using hgone),
        List.filter_cons_of_pos (by simpa using hgone),
        visitAll_of_some (mt (hseen c.1 hgone).mp hs) hfound, h.children_eq hgone hn,
        hbelow c.2 (h.type_eq hgone hn), ← hcalls, ← List.filter_append, ih]
      intro x hx
      rw [List.mem_cons, List.mem_cons, hseen x hx]

theorem visit_eq (h : a.Leaves gone f b)
    (hbelow : ∀ {n m : Node} (d : δ), m.type = n.type → below d m = below d n)
    (hid : id ∉ gone) (d : δ) :
    b.visit below [] (id, d) = (a.visit below [] (id, d)).filter (·.1 ∉ gone) := by
  rw [← visitAll_singleton, ← visitAll_singleton, ← h.visitAll_eq hbelow fun _ _ => Iff.rfl,
    List.filter_cons_of_pos (by simpa using hid), List.filter_nil]

end Leaves

end SceneEditor.Arena
