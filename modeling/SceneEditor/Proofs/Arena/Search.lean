import Mathlib.Logic.Function.Iterate
import SceneEditor.Proofs.Arena.WalkOrder

/-!
Depth-first search by recursion, on any arena, and the loop that does the same with a stack. The
stack of the loop is read as the calls that are still to be made. Since the recursion takes up what
an earlier call left over, a call whose children are put on the stack comes to the same as a call
that searches them itself.
-/

namespace SceneEditor.Arena

abbrev Call (δ : Type) := String × δ

theorem pending_append_le (a : Arena) (ids seen : List String) :
    a.pending (ids ++ seen) ≤ a.pending seen := by
  induction ids with
  | nil => exact Nat.le_refl _
  | cons id ids ih => exact Nat.le_trans (a.pending_cons_le id _) ih

theorem pending_nil (a : Arena) :
    a.pending [] = a.size + (a.values.flatMap (·.children)).length := by
  rw [pending, Table.size, Table.values]
  induction a.entries with
  | nil => rfl
  | cons e es ih =>
    simp only [pendingIn, List.not_mem_nil, if_false, List.length_cons, List.map_cons,
      List.flatMap_cons, List.length_append, ih]
    omega

mutual

/-- Depth-first search by recursion. A call on an identifier that was seen, or that no node has,
comes to nothing; any other marks the identifier and goes on with the children, from the first to
the last. -/
def visit {δ : Type} (a : Arena) (below : δ → Node → δ) (seen : List String) (c : Call δ) :
    List (Call δ) :=
  if _ : c.1 ∈ seen then []
  else match _ : a.find? c.1 with
    | none => []
    | some n => c :: visitAll a below (c.1 :: seen) (n.children.map (·, below c.2 n))
termination_by a.pending seen
decreasing_by
  have := pending_cons_lt ‹a.find? c.1 = some n› ‹c.1 ∉ seen›
  simpa using this

def visitAll {δ : Type} (a : Arena) (below : δ → Node → δ) (seen : List String) :
    List (Call δ) → List (Call δ)
  | [] => []
  | c :: cs =>
    visit a below seen c ++
      visitAll a below (((visit a below seen c).map Prod.fst).reverse ++ seen) cs
termination_by cs => a.pending seen + cs.length
decreasing_by
  · simp
  · exact Nat.add_lt_add_of_le_of_lt (a.pending_append_le _ seen) (Nat.lt_succ_self cs.length)

end

/-- The search from an identifier. Each call has the nodes handed down on the way to it, the nearest
first. -/
def search (a : Arena) (start : String) : List (Call (List Node)) :=
  a.visit (fun above n => n :: above) [] (start, [])

inductive Way (a : Arena) (start : String) : String → List Node → Prop
  | here : Way a start start []
  | down {id child : String} {n : Node} {above : List Node} (h : Way a start id above)
      (hn : a.find? id = some n) (hchild : child ∈ n.children) : Way a start child (n :: above)

section Visit

variable {δ ε : Type} {a : Arena} {below : δ → Node → δ} {seen : List String} {c : Call δ}
  {cs : List (Call δ)} {n : Node}

theorem visit_of_mem (h : c.1 ∈ seen) : a.visit below seen c = [] := by
  rw [visit, dif_pos h]

theorem visit_of_none (h : a.find? c.1 = none) : a.visit below seen c = [] := by
  rw [visit]
  split
  · rfl
  · split
    · rfl
    · next m hm =>
      rw [h] at hm
      cases hm

theorem visit_of_some (hs : c.1 ∉ seen) (h : a.find? c.1 = some n) : a.visit below seen c =
    c :: a.visitAll below (c.1 :: seen) (n.children.map (·, below c.2 n)) := by
  rw [visit, dif_neg hs]
  split
  · next hn =>
    rw [h] at hn
    cases hn
  · next m hm =>
    rw [h, Option.some.injEq] at hm
    rw [hm]

theorem visitAll_singleton (seen : List String) (c : Call δ) :
    a.visitAll below seen [c] = a.visit below seen c := by
  rw [visitAll, visitAll, List.append_nil]

theorem visitAll_append (seen : List String) (cs ds : List (Call δ)) :
    a.visitAll below seen (cs ++ ds) = a.visitAll below seen cs ++
      a.visitAll below (((a.visitAll below seen cs).map Prod.fst).reverse ++ seen) ds := by
  induction cs generalizing seen with
  | nil => simp [visitAll]
  | cons c cs ih =>
    simp only [List.cons_append, visitAll, ih, List.map_append, List.reverse_append,
      List.append_assoc]

theorem visitAll_of_mem (h : c.1 ∈ seen) :
    a.visitAll below seen (c :: cs) = a.visitAll below seen cs := by
  rw [visitAll, visit_of_mem h]
  rfl

theorem visitAll_of_none (h : a.find? c.1 = none) :
    a.visitAll below seen (c :: cs) = a.visitAll below seen cs := by
  rw [visitAll, visit_of_none h]
  rfl

theorem visitAll_of_some (hs : c.1 ∉ seen) (h : a.find? c.1 = some n) :
    a.visitAll below seen (c :: cs) =
      c :: a.visitAll below (c.1 :: seen) (n.children.map (·, below c.2 n) ++ cs) := by
  rw [visitAll, visit_of_some hs h, visitAll_append]
  simp

theorem forall_mem_visitAll {P : Call δ → Prop}
    (hdown : ∀ {c n child}, P c → a.find? c.1 = some n → child ∈ n.children →
      P (child, below c.2 n)) (hcs : ∀ c ∈ cs, P c) :
    ∀ c ∈ a.visitAll below seen cs, P c := by
  refine (visit.mutual_induct a below
    (fun seen c => P c → ∀ d ∈ a.visit below seen c, P d)
    (fun seen cs => (∀ c ∈ cs, P c) → ∀ d ∈ a.visitAll below seen cs, P d)
    ?_ ?_ ?_ ?_ ?_).2 seen cs hcs
  · intro seen c hs _
    rw [visit_of_mem hs]
    nofun
  · intro seen c _ hn _
    rw [visit_of_none hn]
    nofun
  · intro seen c hs n hn ih hc
    rw [visit_of_some hs hn, List.forall_mem_cons]
    exact ⟨hc, ih (List.forall_mem_map.mpr fun child hchild => hdown hc hn hchild)⟩
  · intro seen _
    rw [visitAll]
    nofun
  · intro seen c cs ihc ihcs h
    rw [List.forall_mem_cons] at h
    rw [visitAll, List.forall_mem_append]
    exact ⟨ihc h.1, ihcs h.2⟩

theorem visitAll_map {below' : ε → Node → ε} {f : δ → ε}
    (hf : ∀ d n, f (below d n) = below' (f d) n) (seen : List String) (cs : List (Call δ)) :
    a.visitAll below' seen (cs.map (Prod.map id f)) =
      (a.visitAll below seen cs).map (Prod.map id f) := by
  refine (visit.mutual_induct a below
    (fun seen c => a.visit below' seen (Prod.map id f c) =
      (a.visit below seen c).map (Prod.map id f))
    (fun seen cs => a.visitAll below' seen (cs.map (Prod.map id f)) =
      (a.visitAll below seen cs).map (Prod.map id f))
    ?_ ?_ ?_ ?_ ?_).2 seen cs
  · intro seen c hs
    rw [visit_of_mem hs, visit_of_mem (c := Prod.map id f c) hs]
    rfl
  · intro seen c _ hn
    rw [visit_of_none hn, visit_of_none (c := Prod.map id f c) hn]
    rfl
  · intro seen c hs n hn ih
    rw [visit_of_some hs hn, visit_of_some (c := Prod.map id f c) hs hn, List.map_cons, ← ih,
      List.map_map]
    simp only [Function.comp_def, Prod.map, id, hf]
  · intro seen
    rw [List.map_nil, visitAll, visitAll, List.map_nil]
  · intro seen c cs ihc ihcs
    rw [List.map_cons, visitAll, visitAll, List.map_append, ihc, ← ihcs]
    simp only [List.map_map, Function.comp_def, Prod.map, id]

theorem visit_map {below' : ε → Node → ε} {f : δ → ε}
    (hf : ∀ d n, f (below d n) = below' (f d) n) (seen : List String) (key : String) (d : δ) :
    a.visit below' seen (key, f d) = (a.visit below seen (key, d)).map (Prod.map id f) := by
  rw [← visitAll_singleton, ← visitAll_singleton, ← visitAll_map hf]
  rfl

theorem way_of_mem_search {start : String} {c : Call (List Node)} (h : c ∈ a.search start) :
    a.Way start c.1 c.2 := by
  rw [search, ← visitAll_singleton] at h
  refine forall_mem_visitAll (P := fun c => a.Way start c.1 c.2) ?_ ?_ c h
  · exact fun hway hn hchild => hway.down hn hchild
  · exact List.forall_mem_singleton.mpr .here

end Visit

theorem walkFrom_eq_visitAll {δ : Type} (a : Arena) (below : δ → Node → δ) (seen : List String)
    (cs : List (Call δ)) :
    a.walkFrom seen (cs.map Prod.fst) = (a.visitAll below seen cs).map Prod.fst := by
  generalize hstack : cs.map Prod.fst = stack
  fun_induction walkFrom a seen stack generalizing cs with
  | case1 =>
    rw [List.map_eq_nil_iff.mp hstack, visitAll, List.map_nil]
  | case2 seen id stack hs ih =>
    obtain ⟨c, ds, rfl, rfl, hds⟩ := List.map_eq_cons_iff.mp hstack
    rw [visitAll_of_mem hs, ih ds hds]
  | case3 seen id stack _ hn ih =>
    obtain ⟨c, ds, rfl, rfl, hds⟩ := List.map_eq_cons_iff.mp hstack
    rw [visitAll_of_none hn, ih ds hds]
  | case4 seen id stack hs n hn ih =>
    obtain ⟨c, ds, rfl, rfl, hds⟩ := List.map_eq_cons_iff.mp hstack
    rw [visitAll_of_some hs hn, List.map_cons,
      ih (n.children.map (·, below c.2 n) ++ ds) (by simp [hds, Function.comp_def])]

theorem walk_eq_search (a : Arena) (start : String) :
    a.walk start = (a.search start).map Prod.fst := by
  rw [search, ← visitAll_singleton, ← walkFrom_eq_visitAll]
  rfl

structure Loop (δ : Type) where
  seen : List String
  stack : List (Call δ)
  visited : List (Call δ)

namespace Loop

variable {δ : Type}

def start (c : Call δ) : Loop δ := ⟨[], [c], []⟩

/-- One round: a call is taken from the stack. It is dropped if it comes to nothing; otherwise its
node is marked and visited, and calls on the children take its place. -/
def round (a : Arena) (below : δ → Node → δ) (s : Loop δ) : Loop δ :=
  match s.stack with
  | [] => s
  | c :: cs =>
    if c.1 ∈ s.seen then { s with stack := cs }
    else match a.find? c.1 with
      | none => { s with stack := cs }
      | some n => ⟨c.1 :: s.seen, n.children.map (·, below c.2 n) ++ cs, s.visited ++ [c]⟩

def outcome (a : Arena) (below : δ → Node → δ) (s : Loop δ) : List (Call δ) :=
  s.visited ++ a.visitAll below s.seen s.stack

def left (a : Arena) (s : Loop δ) : Nat := a.pending s.seen + s.stack.length

variable (a : Arena) (below : δ → Node → δ)

theorem outcome_round (s : Loop δ) : (s.round a below).outcome a below = s.outcome a below := by
  obtain ⟨seen, _ | ⟨c, cs⟩, visited⟩ := s
  · rfl
  · simp only [round, outcome]
    split
    · next hs => rw [visitAll_of_mem hs]
    · next hs =>
      split
      · next hn => rw [visitAll_of_none hn]
      · next n hn => rw [visitAll_of_some hs hn, List.append_assoc, List.singleton_append]

theorem left_round_lt {s : Loop δ} (h : s.stack ≠ []) :
    (s.round a below).left a < s.left a := by
  obtain ⟨seen, _ | ⟨c, cs⟩, visited⟩ := s
  · exact absurd rfl h
  · simp only [round, left]
    split
    · simp
    · next hs =>
      split
      · simp
      · next n hn =>
        have := pending_cons_lt hn hs
        simp
        omega

theorem round_of_stack_nil {s : Loop δ} (h : s.stack = []) : s.round a below = s := by
  rw [round, h]

theorem stack_rounds {k : Nat} {s : Loop δ} (h : s.left a ≤ k) :
    ((round a below)^[k] s).stack = [] := by
  induction k generalizing s with
  | zero =>
    unfold left at h
    have hlength : s.stack.length = 0 := by omega
    exact List.length_eq_zero_iff.mp hlength
  | succ k ih =>
    by_cases hs : s.stack = []
    · rw [Function.iterate_fixed (round_of_stack_nil a below hs), hs]
    · rw [Function.iterate_succ_apply]
      have := left_round_lt a below hs
      exact ih (by omega)

theorem outcome_rounds (k : Nat) (s : Loop δ) :
    ((round a below)^[k] s).outcome a below = s.outcome a below := by
  induction k generalizing s with
  | zero => rfl
  | succ k ih => rw [Function.iterate_succ_apply, ih, outcome_round]

/-- The loop that starts with one call ends with these visits, after not more rounds than the arena
has nodes and entries in their lists of children, and one more. -/
def EndsWith (c : Call δ) (visits : List (Call δ)) : Prop :=
  ∃ k ≤ a.size + (a.values.flatMap (·.children)).length + 1,
    ((round a below)^[k] (start c)).stack = [] ∧ ((round a below)^[k] (start c)).visited = visits

theorem endsWith_visit (c : Call δ) : EndsWith a below c (a.visit below [] c) := by
  have hstack := stack_rounds a below (Nat.le_refl ((start c).left a))
  refine ⟨(start c).left a, ?_, hstack, ?_⟩
  · simp [left, start, pending_nil]
  · have hend := outcome_rounds a below ((start c).left a) (start c)
    rw [outcome, hstack, visitAll, List.append_nil] at hend
    rw [hend, outcome, start, visitAll_singleton, List.nil_append]

end Loop

end SceneEditor.Arena
