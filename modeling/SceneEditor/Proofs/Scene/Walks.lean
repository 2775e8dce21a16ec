import SceneEditor.Proofs.Arena.Search
import SceneEditor.Proofs.Program.Statements
import SceneEditor.Proofs.Scene.Request
import SceneEditor.Scene.Query

namespace SceneEditor

open Arena

namespace Program

variable {r : Registry} {l : Layout} {a : Arena}

def depthUnder (r : Registry) (depth : Int) (n : Node) : Int :=
  if (r.emitterFor n.type).nests then depth + 1 else depth

def lineAt (r : Registry) (l : Layout) (a : Arena) (c : Call Int) : Option String :=
  (a.find? c.1).bind fun n => ((r.emitterFor n.type).emit n).map (l.line c.2)

def stops (r : Registry) (l : Layout) (s : Snapshot) : List (Call Int) :=
  (s.nodes.search s.root).map (Prod.map id (depthBelow r l))

theorem statementsFrom_eq_visitAll (r : Registry) (l : Layout) (a : Arena) (seen : List String)
    (cs : List (Call Int)) : statementsFrom r l a seen cs =
      (a.visitAll (depthUnder r) seen cs).filterMap (lineAt r l a) := by
  fun_induction statementsFrom r l a seen cs with
  | case1 => simp [visitAll]
  | case2 seen id depth cs hs ih => rw [ih, visitAll_of_mem hs]
  | case3 seen id depth cs _ hn ih => rw [ih, visitAll_of_none hn]
  | case4 seen id depth cs hs n hn emitter below ih =>
    have hline : lineAt r l a (id, depth) = (emitter.emit n).map (l.line depth) := by
      rw [lineAt, hn]
      rfl
    rw [ih, visitAll_of_some hs hn, List.filterMap_cons, hline]
    cases (emitter.emit n).map (l.line depth) <;> rfl

theorem visit_eq_stops (r : Registry) (l : Layout) (s : Snapshot) :
    s.nodes.visit (depthUnder r) [] (s.root, l.baseDepth) = stops r l s := by
  have hdepth : depthBelow r l [] = l.baseDepth := by simp [depthBelow]
  rw [stops, search, ← hdepth]
  exact visit_map (fun above n => depthBelow_cons n above) [] s.root []

theorem statements_eq_stops (r : Registry) (l : Layout) (s : Snapshot) :
    statements r l s = (stops r l s).filterMap (lineAt r l s.nodes) := by
  rw [statements, statementsFrom_eq_visitAll, visitAll_singleton, visit_eq_stops]

theorem map_fst_stops (r : Registry) (l : Layout) (s : Snapshot) :
    (stops r l s).map Prod.fst = s.nodes.walk s.root := by
  rw [walk_eq_search, stops, List.map_map]
  rfl

end Program

theorem Scene.subtree_text (s : Scene) (id : String) :
    s.subtree (.text id) = .ok (s.arena.walk id) := by
  rw [subtree, resolve_text]
  cases hn : s.arena.find? id with
  | none =>
    rw [walk_eq_search, search, visit_of_none hn]
    rfl
  | some n => rfl

/-- On any arena, be it a tree or not, a loop with a stack comes to the nodes in the order of the
recursive search, each once, and to all that can be reached. This holds of the walk from any
identifier and of the program, whose statements have the depth that the search finds for them. -/
theorem Scene.walks_eq_search (s : Scene) (start : String) :
    s.subtree (.text start) = .ok (s.arena.walk start) ∧
    s.arena.walk start = (s.arena.search start).map Prod.fst ∧
    (s.arena.walk start).Nodup ∧
    (∀ id, id ∈ s.arena.walk start ↔ s.arena.contains id = true ∧ s.arena.Reaches start id) ∧
    (∀ c ∈ s.arena.search start, s.arena.Way start c.1 c.2) ∧
    (∀ {δ : Type} (below : δ → Node → δ) (d : δ), ∃ visits,
      Loop.EndsWith s.arena below (start, d) visits ∧ visits.map Prod.fst = s.arena.walk start) ∧
    ∀ (r : Registry) (l : Layout) (k : Nat),
      Loop.EndsWith s.arena (Program.depthUnder r) (s.root, l.baseDepth)
        (Program.stops r l (s.snapshot k)) ∧
      (Program.stops r l (s.snapshot k)).map Prod.fst = s.arena.walk s.root ∧
      Program.statements r l (s.snapshot k) =
        (Program.stops r l (s.snapshot k)).filterMap (Program.lineAt r l s.arena) := by
  refine ⟨s.subtree_text start, walk_eq_search _ _, nodup_walk _ _, fun _ => mem_walk_iff,
    fun _ => way_of_mem_search, ?_, ?_⟩
  · intro δ below d
    refine ⟨_, Loop.endsWith_visit s.arena below (start, d), ?_⟩
    rw [walk, ← visitAll_singleton, ← walkFrom_eq_visitAll]
    rfl
  · intro r l k
    refine ⟨?_, Program.map_fst_stops r l (s.snapshot k), Program.statements_eq_stops r l _⟩
    rw [← Program.visit_eq_stops]
    exact Loop.endsWith_visit s.arena _ _

theorem Scene.walks_eq_search_of_cycle :
    let s : Scene := {
      name := .text "Scene", root := "r", retired := [], revision := 0, bound := false
      arena := .ofList [
        ("d", ⟨"d", .text "D", .text, none, ["r"], .empty⟩),
        ("c", ⟨"c", .text "C", .text, some "r", [], .empty⟩),
        ("b", ⟨"b", .text "B", .sprite, none, ["a", "c", "c"], .empty⟩),
        ("a", ⟨"z", .text "A", .sprite, some "r", ["b", "r", "a"], .empty⟩),
        ("r", ⟨"r", .text "R", .container, none, ["x", "a", "b", "a"], .empty⟩)] }
    s.arena.walk "r" = ["r", "a", "b", "c"] ∧
      (∀ c ∈ s.arena.search "r", s.arena.Way "r" c.1 c.2) ∧
      Program.stops .builtin {} (s.snapshot 0) = [("r", 1), ("a", 1), ("b", 2), ("c", 3)] ∧
      Loop.EndsWith s.arena (Program.depthUnder .builtin) ("r", 1)
        (Program.stops .builtin {} (s.snapshot 0)) := by
  intro s
  obtain ⟨_, _, _, _, hway, _, hprogram⟩ := s.walks_eq_search "r"
  exact ⟨by decide +kernel, hway, by decide +kernel, (hprogram .builtin {} 0).1⟩

end SceneEditor
