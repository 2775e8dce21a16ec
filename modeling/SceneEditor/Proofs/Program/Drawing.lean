import Mathlib.Data.Set.Function
import SceneEditor.Proofs.Program.Statements
import SceneEditor.Proofs.Program.Unambiguous
import SceneEditor.Proofs.Scene.WellFormed

namespace SceneEditor

/-- The node goes for another under a renaming of identifiers: it has the same type, the renamed
children in the same order, and the same effective properties where its statement looks. -/
structure Node.DrawnAs (f : String → String) (n m : Node) : Prop where
  type_eq : m.type = n.type
  children_eq : m.children = n.children.map f
  effective_eq : ∀ e ∈ n.type.drawn, m.effective e.1 e.2 = n.effective e.1 e.2

structure Scene.DrawnAlike (f : String → String) (s t : Scene) : Prop where
  root_eq : t.root = f s.root
  bijOn : Set.BijOn f {id | s.arena.contains id = true} {id | t.arena.contains id = true}
  node : ∀ {id n m}, s.arena.find? id = some n → t.arena.find? (f id) = some m → n.DrawnAs f m

namespace Node.DrawnAs

variable {f : String → String} {n m : Node}

theorem emitter_eq (h : n.DrawnAs f m) (r : Registry) :
    r.emitterFor m.type = r.emitterFor n.type := by
  rw [h.type_eq]

theorem emit_eq (h : n.DrawnAs f m) :
    (Registry.builtin.emitterFor n.type).emit m = (Registry.builtin.emitterFor n.type).emit n := by
  have hstatement : m.statement = n.statement :=
    (Node.statement_eq_iff_effective h.type_eq).mpr (by rw [h.type_eq]; exact h.effective_eq)
  rwa [Node.statement, Node.statement, h.type_eq] at hstatement

end Node.DrawnAs

namespace Program

variable {r : Registry} {l : Layout} {a b : Arena} {f : String → String}

theorem statementsFrom_renamed (hf : Set.InjOn f {id | a.contains id = true})
    (hclosed : ∀ {id n}, a.find? id = some n → ∀ child ∈ n.children, a.contains child = true)
    (hnode : ∀ {id n}, a.find? id = some n → ∃ m, b.find? (f id) = some m ∧
      m.children = n.children.map f ∧ r.emitterFor m.type = r.emitterFor n.type ∧
      (r.emitterFor n.type).emit m = (r.emitterFor n.type).emit n)
    (seen : List String) (stack : List (String × Int))
    (hseen : ∀ id ∈ seen, a.contains id = true) (hstack : ∀ e ∈ stack, a.contains e.1 = true) :
    statementsFrom r l a seen stack =
      statementsFrom r l b (seen.map f) (stack.map fun e => (f e.1, e.2)) := by
  fun_induction statementsFrom r l a seen stack with
  | case1 => rw [List.map_nil, statementsFrom]
  | case2 seen id depth stack hs ih =>
    rw [List.map_cons, statementsFrom_seen (List.mem_map_of_mem hs)]
    exact ih hseen fun e he => hstack e (List.mem_cons_of_mem _ he)
  | case3 seen id depth stack hs hn ih =>
    have hcontains := hstack (id, depth) List.mem_cons_self
    rw [Table.contains_eq_isSome, hn] at hcontains
    cases hcontains
  | case4 seen id depth stack hs n hn emitter below ih =>
    obtain ⟨m, hm, hchildren, hemitter, hemit⟩ := hnode hn
    obtain ⟨hid, hrest⟩ := List.forall_mem_cons.mp hstack
    -- The loop has met only nodes, and the renaming keeps nodes apart.
    have hs' : f id ∉ seen.map f := by
      intro hmem
      obtain ⟨x, hx, heq⟩ := List.mem_map.mp hmem
      rw [hf (hseen x hx) hid heq] at hx
      exact hs hx
    have hbelow : ∀ e ∈ n.children.map (·, below) ++ stack, a.contains e.1 = true := by
      rw [List.forall_mem_append, List.forall_mem_map]
      exact ⟨hclosed hn, hrest⟩
    rw [List.map_cons, statementsFrom_found hm hs', hchildren, hemitter, hemit,
      ih (List.forall_mem_cons.mpr ⟨hid, hseen⟩) hbelow]
    simp only [List.map_append, List.map_map, List.map_cons, Function.comp_def]
    rfl

end Program

theorem Arena.bijOn_iff_perm {a b : Arena} {f : String → String} :
    Set.BijOn f {id | a.contains id = true} {id | b.contains id = true} ↔
      (a.keys.map f).Perm b.keys := by
  have hkeys (c : Arena) : {id | c.contains id = true} = {id | id ∈ c.keys} := by
    ext id
    rw [Set.mem_ofPred_eq, Set.mem_ofPred_eq, Table.mem_keys_iff, Table.contains_eq_isSome]
  rw [hkeys, hkeys]
  constructor
  · rintro ⟨hmaps, hinj, hsurj⟩
    apply (List.perm_ext_iff_of_nodup (a.nodup_keys.map_on fun x hx y hy => hinj hx hy)
      b.nodup_keys).mpr
    intro id
    rw [List.mem_map]
    exact ⟨fun ⟨x, hx, he⟩ => he ▸ hmaps hx, fun hid => hsurj hid⟩
  · intro h
    refine ⟨fun x hx => h.mem_iff.mp (List.mem_map_of_mem hx), ?_, ?_⟩
    · exact fun x hx y hy => List.inj_on_of_nodup_map (h.nodup_iff.mpr b.nodup_keys) hx hy
    · exact fun y hy => List.mem_map.mp (h.mem_iff.mpr hy)

instance (f : String → String) (n m : Node) : Decidable (n.DrawnAs f m) :=
  decidable_of_iff (m.type = n.type ∧ m.children = n.children.map f ∧
    ∀ e ∈ n.type.drawn, m.effective e.1 e.2 = n.effective e.1 e.2)
    ⟨fun ⟨htype, hchildren, heffective⟩ => ⟨htype, hchildren, heffective⟩,
      fun h => ⟨h.type_eq, h.children_eq, h.effective_eq⟩⟩

instance (f : String → String) (s t : Scene) : Decidable (s.DrawnAlike f t) :=
  decidable_of_iff (t.root = f s.root ∧ (s.arena.keys.map f).Perm t.arena.keys ∧
    ∀ e ∈ s.arena.entries, ∀ m ∈ t.arena.find? (f e.1), e.2.DrawnAs f m)
    ⟨fun ⟨hroot, hperm, hnode⟩ => ⟨hroot, Arena.bijOn_iff_perm.mpr hperm,
        fun hn hm => hnode _ (Table.mem_entries_iff.mpr hn) _ hm⟩,
      fun h => ⟨h.root_eq, Arena.bijOn_iff_perm.mp h.bijOn,
        fun _ he _ hm => h.node (Table.mem_entries_iff.mp he) hm⟩⟩

namespace Scene

variable {s t : Scene} {f : String → String}

/-- Under the built-in emitters the program of a scene shows nothing but the shape of its tree, the
types of the nodes, and the effective properties of sprites and rectangles. So a default does not
show whether it is stored, missing, or hidden behind a property of another kind. -/
theorem generate_eq_of_drawnAlike (hs : s.WellFormed) (h : s.DrawnAlike f t) (l : Layout)
    (j k : Nat) :
    Program.generate .builtin l (s.snapshot j) = Program.generate .builtin l (t.snapshot k) ∧
    ∀ (n : Node) (key : String) (default : Property), n.effective key default = default ↔
      ∀ p, n.properties.find? (.text key) = some p → p.kind = default.kind → p = default := by
  have hclosed {id : String} {n : Node} (hn : s.arena.find? id = some n) (child : String)
      (hc : child ∈ n.children) : s.arena.contains child = true :=
    hs.tree.contains_child ⟨n, hn, hc⟩
  have hnode {id : String} {n : Node} (hn : s.arena.find? id = some n) :
      ∃ m, t.arena.find? (f id) = some m ∧ m.children = n.children.map f ∧
        Registry.builtin.emitterFor m.type = Registry.builtin.emitterFor n.type ∧
        (Registry.builtin.emitterFor n.type).emit m =
          (Registry.builtin.emitterFor n.type).emit n := by
    have hfound := h.bijOn.mapsTo (Arena.contains_of_find? hn)
    rw [Set.mem_ofPred_eq, Table.contains_eq_isSome] at hfound
    obtain ⟨m, hm⟩ := Option.isSome_iff_exists.mp hfound
    have hdrawn := h.node hn hm
    exact ⟨m, hm, hdrawn.children_eq, hdrawn.emitter_eq _, hdrawn.emit_eq⟩
  have hroot : ∀ e ∈ [(s.root, l.baseDepth)], s.arena.contains e.1 = true :=
    List.forall_mem_singleton.mpr hs.tree.contains_root
  have hstatements : Program.statements .builtin l (s.snapshot j) =
      Program.statements .builtin l (t.snapshot k) := by
    have hrun := Program.statementsFrom_renamed (l := l) h.bijOn.injOn hclosed hnode [] _ nofun hroot
    rw [Program.statements, Program.statements, snapshot, snapshot, h.root_eq]
    exact hrun
  refine ⟨?_, Node.effective_eq_default_iff⟩
  rw [Program.generate, Program.generate, hstatements]

theorem generate_eq_of_drawnAlike_renamed :
    let number (x : Int) : Value := .object [(.text "Number", .whole x)]
    let string (x : String) : Value := .object [(.text "String", .text x)]
    let s := (single (.text "Scene") "n1" (.text "Root") true).after ⟨IdSupply.numbered, 1⟩ [
      .add (.text "n1") (.text "A") (.text "Container"),
      .add (.text "n1") (.text "B") (.text "Circle"),
      .add (.text "n2") (.text "C") (.text "Rectangle"),
      .add (.text "n4") (.text "D") (.text "Sprite"),
      .unset (.text "n4") (.text "x"), .set (.text "n4") (.text "color") (string "#FF0000"),
      .set (.text "n5") (.text "width") (number 7), .set (.text "n3") (.text "x") (number 5)]
    let t := (single (.text "Other") "n5" (.text "Top") false).after
      (.ofList ["n9", "n2", "n4", "n1", "n3"] IdSupply.numbered) [
      .add (.text "n5") (.text "gone") (.text "Text"), .remove (.text "n9"),
      .add (.text "n5") (.text "a") (.text "Container"),
      .add (.text "n2") (.text "c") (.text "Rectangle"),
      .add (.text "n4") (.text "d") (.text "Sprite"),
      .add (.text "n5") (.text "b") (.text "Circle"), .unset (.text "n1") (.text "width"),
      .set (.text "n1") (.text "shade") (string "dark"),
      .set (.text "n1") (.text "width") (number 7),
      .set (.text "n1") (.text "path") (number 3), .unset (.text "n3") (.text "y")]
    let f (id : String) : String := match id with
      | "n1" => "n5"
      | "n2" => "n2"
      | "n3" => "n3"
      | "n4" => "n4"
      | _ => "n1"
    s.WellFormed ∧ s.DrawnAlike f t ∧
      Program.generate .builtin {} (s.snapshot 0) = Program.generate .builtin {} (t.snapshot 3) ∧
      Program.generate .builtin {} (t.snapshot 3) = "turbo::go! \x7b\n" ++
        "    rect!(x = 0, y = 0, w = 100, h = 100, color = 0xFFFFFFFF, border_radius = 0);\n" ++
        "        sprite!(\"default\", x = 0, y = 0, w = 7, h = 100);\n" ++
        "    // Unimplemented node type: Circle\n\x7d\n" := by
  intro number string s t f
  have hcreated : (create (.text "Scene") (.text "Root") true ⟨IdSupply.numbered, 0⟩).1 =
      .ok (single (.text "Scene") "n1" (.text "Root") true) := rfl
  have hs : s.WellFormed := (Built.created hcreated).wellFormed.after _ _
  have hdrawn : s.DrawnAlike f t := by decide +kernel
  exact ⟨hs, hdrawn, (generate_eq_of_drawnAlike hs hdrawn {} 0 3).1, by decide +kernel⟩

end Scene

end SceneEditor
