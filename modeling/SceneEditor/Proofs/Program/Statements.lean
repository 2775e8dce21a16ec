import SceneEditor.Program
import SceneEditor.Proofs.Arena.Audit
import SceneEditor.Proofs.Arena.Outline
import SceneEditor.Proofs.Scene.WellFormed

namespace SceneEditor.Program

open Outline

def depthBelow (r : Registry) (l : Layout) (above : List Node) : Int :=
  l.baseDepth + above.countP fun n => (r.emitterFor n.type).nests

def lineOf (r : Registry) (l : Layout) (row : Row) : Option String :=
  ((r.emitterFor row.node.type).emit row.node).map fun statement =>
    String.join (List.replicate (depthBelow r l row.above).toNat l.indent) ++ statement

variable {r : Registry} {l : Layout} {a : Arena}

theorem depthBelow_cons (n : Node) (above : List Node) :
    depthBelow r l (n :: above) = if (r.emitterFor n.type).nests then depthBelow r l above + 1
      else depthBelow r l above := by
  rw [depthBelow, depthBelow, List.countP_cons]
  split
  · push_cast
    omega
  · simp

theorem statementsFrom_seen {seen : List String} {id : String} (h : id ∈ seen) (depth : Int)
    (stack : List (String × Int)) :
    statementsFrom r l a seen ((id, depth) :: stack) = statementsFrom r l a seen stack := by
  rw [statementsFrom, dif_pos h]

theorem statementsFrom_absent {id : String} (h : a.find? id = none) (seen : List String)
    (depth : Int) (stack : List (String × Int)) :
    statementsFrom r l a seen ((id, depth) :: stack) = statementsFrom r l a seen stack := by
  rw [statementsFrom]
  split
  · rfl
  · split
    · rfl
    · next n hn =>
      rw [h] at hn
      cases hn

theorem statementsFrom_found {seen : List String} {id : String} {n : Node}
    (hn : a.find? id = some n) (hseen : id ∉ seen) (depth : Int) (stack : List (String × Int)) :
    statementsFrom r l a seen ((id, depth) :: stack) =
      (((r.emitterFor n.type).emit n).map (l.line depth)).toList ++
        statementsFrom r l a (id :: seen) (n.children.map
          (·, if (r.emitterFor n.type).nests then depth + 1 else depth) ++ stack) := by
  rw [statementsFrom, dif_neg hseen]
  split
  · next hnone =>
    rw [hn] at hnone
    cases hnone
  · next m hm =>
    rw [hn, Option.some.injEq] at hm
    subst hm
    rfl

theorem statementsFrom_cons {seen : List String} {id : String} {n : Node}
    (hn : a.find? id = some n) (hseen : id ∉ seen) (above : List Node)
    (stack : List (String × Int)) :
    statementsFrom r l a seen ((id, depthBelow r l above) :: stack) =
      (lineOf r l ⟨n, above⟩).toList ++ statementsFrom r l a (id :: seen)
        (n.children.map (·, depthBelow r l (n :: above)) ++ stack) := by
  rw [statementsFrom_found hn hseen, depthBelow_cons]
  rfl

theorem statementsFrom_congr {b : Arena} (h : ∀ id, a.find? id = b.find? id) (seen : List String)
    (stack : List (String × Int)) :
    statementsFrom r l a seen stack = statementsFrom r l b seen stack := by
  fun_induction statementsFrom r l a seen stack with
  | case1 => rw [statementsFrom]
  | case2 seen id depth stack hs ih => rw [ih, statementsFrom_seen hs]
  | case3 seen id depth stack hs hn ih =>
    rw [h] at hn
    rw [ih, statementsFrom_absent hn]
  | case4 seen id depth stack hs n hn emitter below ih =>
    rw [h] at hn
    rw [ih, statementsFrom_found hn hs]
    rfl

theorem generate_congr {s t : Snapshot} (hroot : s.root = t.root)
    (h : ∀ id, s.nodes.find? id = t.nodes.find? id) : generate r l s = generate r l t := by
  rw [generate, generate, statements, statements, hroot, statementsFrom_congr h]

mutual

theorem statementsFrom_rows (seen : List String) (above : List Node)
    (stack : List (String × Int)) : ∀ t : Outline, t.Of a →
    ((t.nodes.map Node.id).reverse ++ seen).Nodup →
      statementsFrom r l a seen ((t.top.id, depthBelow r l above) :: stack) =
        (t.rows above).filterMap (lineOf r l) ++
          statementsFrom r l a ((t.nodes.map Node.id).reverse ++ seen) stack
  | node n below, ⟨hn, hchildren, hof⟩, hnodup => by
    have hids : ((node n below).nodes.map Node.id).reverse ++ seen =
        ((nodesOfAll below).map Node.id).reverse ++ n.id :: seen := by
      rw [nodes, List.map_cons, List.reverse_cons, List.append_assoc, List.singleton_append]
    rw [hids] at hnodup ⊢
    have hseen : n.id ∉ seen := (List.nodup_cons.mp (List.nodup_append.mp hnodup).2.1).1
    have hbelow := statementsFrom_rowsOfAll (n.id :: seen) (n :: above) stack below hof hnodup
    rw [top, statementsFrom_cons hn hseen, hchildren, List.map_map, rows, List.filterMap_cons]
    cases lineOf r l ⟨n, above⟩ with
    | none => exact hbelow
    | some line => exact congrArg (line :: ·) hbelow

theorem statementsFrom_rowsOfAll (seen : List String) (above : List Node)
    (stack : List (String × Int)) : ∀ ts : List Outline, AllOf a ts →
    (((nodesOfAll ts).map Node.id).reverse ++ seen).Nodup →
      statementsFrom r l a seen (ts.map (fun t => (t.top.id, depthBelow r l above)) ++ stack) =
        (rowsOfAll above ts).filterMap (lineOf r l) ++
          statementsFrom r l a (((nodesOfAll ts).map Node.id).reverse ++ seen) stack
  | [], _, _ => rfl
  | t :: ts, ⟨ht, hts⟩, hnodup => by
    have hids : ((nodesOfAll (t :: ts)).map Node.id).reverse ++ seen =
        ((nodesOfAll ts).map Node.id).reverse ++ ((t.nodes.map Node.id).reverse ++ seen) := by
      rw [nodesOfAll, List.map_append, List.reverse_append, List.append_assoc]
    rw [hids] at hnodup ⊢
    have hfirst := (List.nodup_append.mp hnodup).2.1
    rw [List.map_cons, List.cons_append, statementsFrom_rows _ above _ t ht hfirst,
      statementsFrom_rowsOfAll _ above _ ts hts hnodup, rowsOfAll, List.filterMap_append,
      List.append_assoc]

end

theorem statements_eq_rows {s : Snapshot} {t : Outline} (h : t.Covers s.nodes s.root) :
    statements r l s = (t.rows []).filterMap (lineOf r l) := by
  have hnodup : ((t.nodes.map Node.id).reverse ++ []).Nodup := by
    rw [List.append_nil, List.nodup_reverse, h.once.nodup_iff]
    exact s.nodes.nodup_keys
  have hdepth : l.baseDepth = depthBelow r l [] := (Int.add_zero _).symm
  rw [statements, ← h.top_eq, hdepth, statementsFrom_rows [] [] [] t h.of hnodup, statementsFrom,
    List.append_nil]

def ofOutline (r : Registry) (l : Layout) (t : Outline) : String :=
  "\n".intercalate (l.blockOpen :: (t.rows []).filterMap (lineOf r l) ++ [l.blockClose]) ++ "\n"

theorem exists_generate_eq {s : Snapshot} (h : s.nodes.IsTree s.root) :
    ∃ t : Outline, t.Covers s.nodes s.root ∧ generate r l s = ofOutline r l t := by
  obtain ⟨t, ht⟩ := exists_covers h
  exact ⟨t, ht, by rw [generate, statements_eq_rows ht, ofOutline]⟩

/-- The program of a snapshot has a line for each row of its outline whose node has a statement,
from top to bottom. That of a scene is the program of its nodes. -/
theorem generate_eq_rows (r : Registry) (l : Layout) :
    (∀ s : Snapshot, s.nodes.IsTree s.root →
      ∃ t : Outline, t.Covers s.nodes s.root ∧ generate r l s = ofOutline r l t) ∧
    ∀ s : Scene, s.WellFormed → ∀ number,
      ∃ t : Outline, t.Covers s.arena s.root ∧ generate r l (s.snapshot number) = ofOutline r l t :=
  ⟨fun _ h => exists_generate_eq h,
    fun s h number => exists_generate_eq (s := s.snapshot number) h.tree⟩

theorem generate_eq_rows_of_siblings :
    let r : Registry := .ofList [
      (.container, ⟨fun _ => none, true⟩), (.sprite, ⟨fun n => some ("group " ++ n.id), false⟩),
      (.rectangle, ⟨fun n => some ("part " ++ n.id), true⟩)]
    let l : Layout := { indent := ". ", baseDepth := 0 }
    let s : Scene := ⟨.text "Scene", "r", .ofList [
      ("c", ⟨"c", .text "C", .rectangle, some "b", [], .empty⟩),
      ("r", ⟨"r", .text "R", .container, none, ["b", "d"], .empty⟩),
      ("d", ⟨"d", .text "D", .text, some "r", [], .empty⟩),
      ("b", ⟨"b", .text "B", .sprite, some "r", ["c"], .empty⟩)], ["e"], 3, true⟩
    s.WellFormed ∧
      generate r l (s.snapshot 1) = "turbo::go! \x7b\n. group b\n. part c\n" ++
        ". // Unimplemented node type: Text\n\x7d\n" ∧
      (∃ t : Outline, t.Covers s.arena s.root ∧ generate r l (s.snapshot 1) = ofOutline r l t) ∧
      let taken : Snapshot := ⟨7, s.name, s.root, 2, s.arena⟩
      ∃ t : Outline, t.Covers taken.nodes taken.root ∧ generate r l taken = ofOutline r l t := by
  intro r l s
  have hs : s.WellFormed := ⟨Arena.isTree_of_audit (by decide +kernel), by decide +kernel⟩
  refine ⟨hs, by decide +kernel, (generate_eq_rows r l).2 s hs 1, ?_⟩
  intro taken
  exact (generate_eq_rows r l).1 taken hs.tree

end SceneEditor.Program
