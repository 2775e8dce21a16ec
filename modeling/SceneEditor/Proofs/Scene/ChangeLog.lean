import Mathlib.Logic.Function.Iterate
import SceneEditor.Proofs.Effect
import SceneEditor.Proofs.Scene.Observer
import SceneEditor.Proofs.Scene.Records
import SceneEditor.Proofs.Script.Atomicity
import SceneEditor.Proofs.Value.Keys

namespace SceneEditor

/-- What is connected to a bridge: the observer with its nodes, or another one, which may read the
scene, may fail, and changes only what is outside. -/
inductive Listener (ω : Type) where
  | observer
  | other (act : Scene → Signal → List Argument → ω → Except Cause Unit × ω)

structure Watch (ω : Type) where
  nodes : Arena
  outside : ω

namespace Listener

variable {ω : Type}

def isObserver : Listener ω → Bool
  | observer => true
  | other _ => false

def call (s : Scene) (signal : Signal) (arguments : List Argument) :
    Listener ω → Effect (Watch ω) Unit
  | observer => modify fun w => { w with nodes := w.nodes.heed s signal arguments }
  | other act => do
    let (answer, outside) := act s signal arguments (← get).outside
    modify fun w => { w with outside := outside }
    answer

end Listener

/-- Who listens to a scene. The others may come and go, and whatever they fail for can be reported;
the observer is connected to every signal of the scene once. -/
structure Audience (ω : Type) where
  connections : ω → Bridge (Listener ω)
  report : Signal → List Argument → Cause → ω → ω
  observed : ∀ x signal, signal ≠ .sceneLoaded →
    ((connections x).observers signal).countP (·.handler.isObserver) = 1

namespace Audience

variable {ω : Type}

def announce (c : Audience ω) (s : Scene) (a : Announcement) : Effect (Watch ω) Unit := do
  (c.connections (← get).outside).deliver a.signal
    (fun link => link.handler.call s a.signal a.arguments)
    (fun e => modify fun w => { w with outside := c.report a.signal a.arguments e w.outside })

def listen (c : Audience ω) (s : Scene) (ids : IdSupply) (w : Watch ω) : List Request → Watch ω
  | [] => w
  | r :: rs =>
    let (e, ids) := r.perform s ids
    c.listen e.scene ids (match e.written.announced with
      | some a => ((c.announce e.scene a).runOn w).2
      | none => w) rs

theorem nodes_announce (c : Audience ω) (s : Scene) (a : Announcement) (w : Watch ω) :
    ((c.announce s a).runOn w).2.nodes = w.nodes.heed s a.signal a.arguments := by
  have hsignal : a.signal ≠ .sceneLoaded := by cases a <;> nofun
  have honce := c.observed w.outside a.signal hsignal
  let call (link : Link (Listener ω)) := link.handler.call s a.signal a.arguments
  let report (e : Cause) : Effect (Watch ω) Unit :=
    modify fun w => { w with outside := c.report a.signal a.arguments e w.outside }
  -- In general the observer gets a signal as often as it is connected.
  let Heeded (done : List (Link (Listener ω))) (v : Watch ω) : Prop :=
    v.nodes = (·.heed s a.signal a.arguments)^[done.countP (·.handler.isObserver)] w.nodes
  have hstart : Heeded [] w := rfl
  have hstep (link : Link (Listener ω)) (done : List (Link (Listener ω))) (v : Watch ω)
      (hv : Heeded done v) : Heeded (done ++ [link])
        ((tryCatch (call link) report : Effect (Watch ω) Unit).runOn v).2 := by
    simp only [Heeded] at hv ⊢
    rw [List.countP_append, List.countP_singleton, Effect.runOn_tryCatch]
    cases hl : link.handler with
    | observer =>
      simp only [call, hl, Listener.call, Listener.isObserver, if_true, Effect.runOn_modify,
        Function.iterate_succ_apply', hv]
    | other act =>
      simp only [call, hl, Listener.call, Listener.isObserver, Bool.false_eq_true, if_false,
        Nat.add_zero, Effect.runOn_bind, Effect.runOn_get, Effect.runOn_modify, Effect.runOn_lift]
      cases (act s a.signal a.arguments v.outside).1 <;> exact hv
  have hreport (e : Cause) (v : Watch ω) : ∃ u t, (report e).runOn v = (.ok u, t) := ⟨_, _, rfl⟩
  have hrun : (c.announce s a).runOn w =
      (Bridge.callEach call report ((c.connections w.outside).observers a.signal)).runOn w := by
    rw [announce, Effect.runOn_bind, Effect.runOn_get]
    rfl
  rcases Bridge.runOn_callEach_cases call report (fun link _ => hstep link) hstart with
    ⟨t, ht, hnodes⟩ | ⟨_, link, _, u, e, t, _, _, hfailed, _⟩
  · rw [hrun, ht, hnodes, List.nil_append, honce]
    rfl
  · obtain ⟨_, _, hok⟩ := Effect.runOn_tryCatch_of_handled (x := call link) hreport u
    cases hok.symm.trans hfailed

end Audience

def Request.key? : Request → Option Value
  | set _ key _ => some key
  | unset _ key => some key
  | _ => none

theorem Request.key?_of_announcement {r : Request} {s : Scene} {ids : IdSupply} {id : String}
    {key : Value} (h : (r.perform s ids).1.announcement = some (.nodeChanged id (some key))) :
    r.key? = some key ∧ key.unusableKey? = none := by
  cases r with
  | add parent name type =>
    simp only [perform, Edit.map, Scene.addNode] at h
    repeat' split at h
    all_goals cases h
  | remove id =>
    simp only [perform, Edit.map, Scene.removeNode] at h
    repeat' split at h
    all_goals cases h
  | set id key v =>
    simp only [perform, Edit.map, Scene.setProperty] at h
    repeat' split at h
    all_goals cases h
    next hkey =>
      obtain ⟨rfl, husable⟩ := Value.asKey_eq_ok_iff.mp hkey
      exact ⟨rfl, husable⟩
  | unset id key =>
    simp only [perform, Edit.map, Scene.removeProperty] at h
    repeat' split at h
    all_goals cases h
    next hkey _ =>
      obtain ⟨rfl, husable⟩ := Value.asKey_eq_ok_iff.mp hkey
      exact ⟨rfl, husable⟩
  | rename id name =>
    simp only [perform, Edit.map, Scene.renameNode] at h
    repeat' split at h
    all_goals cases h

theorem Request.announced_cases {r : Request} {s : Scene} (hb : s.bound = true)
    (hr : r.remarkObstacle? = none) (ids : IdSupply) :
    (r.perform s ids).1.written.announced = none ∧ (r.perform s ids).1.written.succeeded = false ∧
      (r.perform s ids).1.scene = s ∨
    ∃ answer a, (r.perform s ids).1.written.announced = some a ∧
      (r.perform s ids).1.written.succeeded = true ∧
      (r.perform s ids).1.announcement = some a ∧
      s.Step answer a (r.perform s ids).1.scene := by
  rcases r.perform_cases s ids with hrejected | haccepted
  · obtain ⟨hf, _, ha⟩ := hrejected.written
    exact .inl ⟨by rw [Edit.announced, ha, ite_self], hf, hrejected.2.1⟩
  · rw [hr] at haccepted
    rw [haccepted.written_of_none]
    obtain ⟨hok, _, answer, a, _, ha, ht⟩ := haccepted
    exact .inr ⟨answer, a, by rw [Edit.announced, ht.bound_eq, hb, if_pos rfl, ha], hok, ha, ht⟩

namespace Audience

variable {ω : Type} {s : Scene} {w : Watch ω} {whole : Bool}

theorem listen_mirrors (c : Audience ω) (hs : s.WellFormed) (hb : s.bound = true)
    (hw : w.nodes.Mirrors s.arena whole) (ids : IdSupply) {rs : List Request}
    (hnames : ∀ r ∈ rs, r.remarkObstacle? = none)
    (hkeys : whole = true → ∀ r ∈ rs, r.key? ≠ some .null) :
    (c.listen s ids w rs).nodes.Mirrors (s.after ids rs).arena whole := by
  induction rs generalizing s ids w with
  | nil => exact hw
  | cons r rs ih =>
    rw [List.forall_mem_cons] at hnames
    have hrest := fun hwhole r hr => hkeys hwhole r (List.mem_cons_of_mem _ hr)
    simp only [listen, Scene.after]
    rcases Request.announced_cases hb hnames.1 ids with
      ⟨hnone, _, hsame⟩ | ⟨answer, a, hann, _, ha, ht⟩
    · simp only [hnone]
      rw [hsame]
      exact ih hs hb hw _ hnames.2 hrest
    · simp only [hann]
      refine ih (hs.step ht) (ht.bound_eq.trans hb) ?_ _ hnames.2 hrest
      rw [nodes_announce]
      refine hw.step ht fun hwhole id key hkey => ?_
      obtain ⟨hwritten, husable⟩ := Request.key?_of_announcement (ha.trans (congrArg some hkey))
      have hpresent : key ≠ .null := fun he =>
        hkeys hwhole r List.mem_cons_self (hwritten.trans (congrArg some he))
      exact ⟨hpresent, Value.sameKey_self husable⟩

end Audience

structure Arena.IsSubtree (a : Arena) (id : String) (ids : List String) : Prop where
  once : ids.Nodup
  mem_iff : ∀ x, x ∈ ids ↔ a.contains x = true ∧ a.Reaches id x
  outlined : ∃ t : Outline, t.top.id = id ∧ t.Of a ∧ ids = t.nodes.map Node.id
  parent_before : ∀ {xs x ys}, ids = xs ++ x :: ys → x ≠ id → ∃ p ∈ xs, a.HasParent x p

theorem Arena.IsTree.isSubtree_walk {a : Arena} {root id : String} (h : a.IsTree root)
    (hc : a.contains id = true) : a.IsSubtree id (a.walk id) := by
  obtain ⟨t, htop, ht, hwalk, hbefore⟩ := Outline.exists_walk_eq_nodes h hc
  refine ⟨a.nodup_walk id, fun _ => mem_walk_iff, ⟨t, htop, ht, hwalk⟩, ?_⟩
  intro xs x ys hids hne
  rw [hwalk] at hids
  obtain ⟨us, vs, hnodes, rfl, hvs⟩ := List.map_eq_append_iff.mp hids
  obtain ⟨n, ws, rfl, rfl, -⟩ := List.map_eq_cons_iff.mp hvs
  obtain ⟨p, hp, hparent⟩ := hbefore hnodes hne
  exact ⟨p.id, List.mem_map_of_mem hp, hparent⟩

/-- A bound scene announces an edit just when something changed, and what it announces as removed is
the subtree of the node, which is what is then missing. -/
structure Edit.IsAnnounced (e : Edit Answer) (s : Scene) : Prop where
  silent_iff : e.announced = none ↔ e.scene = s
  silent_of_failed : e.succeeded = false → e.announced = none
  subtree : ∀ {id removed}, e.announced = some (.nodeRemoved id removed) →
    s.arena.IsSubtree id removed
  missing_iff : ∀ {id removed}, e.announced = some (.nodeRemoved id removed) →
    ∀ x, x ∈ removed ↔ s.arena.contains x = true ∧ e.scene.arena.contains x = false

theorem Request.isAnnounced {r : Request} {s : Scene} (hs : s.WellFormed) (hb : s.bound = true)
    (hr : r.remarkObstacle? = none) (ids : IdSupply) :
    (r.perform s ids).1.written.IsAnnounced s := by
  rcases announced_cases hb hr ids with ⟨hnone, _, hsame⟩ | ⟨answer, a, hann, hok, _, ht⟩
  · rw [← Edit.scene_written] at hsame
    refine ⟨iff_of_true hnone hsame, fun _ => hnone, ?_, ?_⟩ <;>
      · intro id removed h
        rw [hnone] at h
        cases h
  · rw [← Edit.scene_written] at ht
    have hne : (r.perform s ids).1.written.scene ≠ s := by
      intro he
      have hrevision := ht.revision_eq
      rw [he] at hrevision
      omega
    refine ⟨iff_of_false (by rw [hann]; nofun) hne, ?_, ?_, ?_⟩
    · intro hf
      rw [hok] at hf
      cases hf
    · intro id removed h
      obtain rfl := Option.some.inj (hann.symm.trans h)
      generalize (r.perform s ids).1.written.scene = t at ht
      cases ht with
      | removed hn _ => exact hs.tree.isSubtree_walk (Arena.contains_of_find? hn)
    · intro id removed h x
      obtain rfl := Option.some.inj (hann.symm.trans h)
      generalize (r.perform s ids).1.written.scene = t at ht
      cases ht with
      | @removed _ n hn _ =>
        rw [Scene.contains_eq_false_iff]
        simp only [Scene.find?_withoutNodes]
        by_cases hx : x ∈ s.arena.walk id
        · simp [hx, (Arena.mem_walk_iff.mp hx).1]
        · simp only [hx, if_false, Option.map_eq_none_iff, false_iff, not_and]
          intro hc
          rwa [Table.contains_eq_isSome, Option.isSome_iff_ne_none] at hc

/-- An observer that starts with the document of a bound scene and then goes by the signals has the
nodes of the scene after every history, with all properties under texts, and with those under other
keys too as long as none is written or dropped under the absent key, which in a signal stands for
the name. No request changes anything unannounced. -/
theorem observer_after_history {ω : Type} {s : Scene} (h : s.Reachable) (hb : s.bound = true)
    (c : Audience ω) (x : ω) (ids : IdSupply) {rs : List Request}
    (hnames : ∀ r ∈ rs, r.remarkObstacle? = none) :
    (∀ id, ((c.listen s ids ⟨.ofRecords s.toDocument, x⟩ rs).nodes.find? id).map Node.textual =
      ((s.after ids rs).arena.find? id).map Node.textual) ∧
    ((∀ r ∈ rs, r.key? ≠ some .null) →
      ∀ id, (c.listen s ids ⟨.ofRecords s.toDocument, x⟩ rs).nodes.find? id =
        (s.after ids rs).arena.find? id) ∧
    ∀ (r : Request) (ids' : IdSupply), r.remarkObstacle? = none →
      (r.perform (s.after ids rs) ids').1.written.IsAnnounced (s.after ids rs) := by
  have hs := h.wellFormed
  have hstart (whole : Bool) : (Arena.ofRecords s.toDocument).Mirrors s.arena whole :=
    fun id => by rw [Arena.find?_ofRecords hs]
  have hbound : (s.after ids rs).bound = true :=
    Scene.after_induction (P := fun t => t.bound = true) (fun ht hb => ht.bound_eq.trans hb) hb ids rs
  refine ⟨?_, fun hkeys id => ?_, fun r ids' hr =>
    Request.isAnnounced (hs.after ids rs) hbound hr ids'⟩
  · exact c.listen_mirrors hs hb (w := ⟨_, x⟩) (hstart false) ids hnames nofun
  · have hwhole := c.listen_mirrors hs hb (w := ⟨_, x⟩) (hstart true) ids hnames (fun _ => hkeys) id
    have hpart : Node.part true = fun n => n := rfl
    rwa [hpart, Option.map_id', Option.map_id'] at hwhole

theorem observer_after_history_with_neighbour :
    let s := Scene.single (.text "Scene") "n1" (.text "Root") true
    let neighbour : Listener Nat := .other fun _ _ _ calls => (.error (.refused "busy"), calls + 1)
    let c : Audience Nat := {
      connections _ := ⟨[⟨0, .nodeAdded, neighbour⟩, ⟨1, .nodeAdded, .observer⟩,
        ⟨2, .nodeRemoved, .observer⟩, ⟨3, .nodeChanged, .observer⟩], 4⟩
      report _ _ _ calls := calls
      observed := by
        intro _ signal h
        cases signal <;> first | rfl | exact absurd rfl h }
    let ids : IdSupply := ⟨IdSupply.numbered, 1⟩
    let rs : List Request := [
      .add (.text "n1") (.text "A") (.text "Container"),
      .add (.text "n2") (.text "B") (.text "Sprite"),
      .add (.text "n1") (.text "C") (.text "Text"),
      .set (.text "n4") (.text "depth") (.object [(.text "Number", .whole 3)]),
      .unset (.text "n4") (.text "x"), .rename (.text "n4") (.text "D"), .remove (.text "n2")]
    let w := c.listen s ids ⟨.ofRecords s.toDocument, 0⟩ rs
    s.Reachable ∧ s.bound = true ∧ w.outside = 3 ∧ w.nodes.keys = ["n1", "n4"] ∧
      (∀ r ∈ rs, r.remarkObstacle? = none) ∧ (∀ r ∈ rs, r.key? ≠ some .null) ∧
      ∀ id, w.nodes.find? id = (s.after ids rs).arena.find? id := by
  intro s neighbour c ids rs w
  have hcreated : (Scene.create (.text "Scene") (.text "Root") true ⟨IdSupply.numbered, 0⟩).1 =
      .ok s := rfl
  have hs : s.Reachable := .built (.created hcreated)
  have hnames : ∀ r ∈ rs, r.remarkObstacle? = none := by
    simp only [rs, List.forall_mem_cons]
    exact ⟨rfl, rfl, rfl, rfl, rfl, rfl, rfl, List.forall_mem_nil _⟩
  have hkeys : ∀ r ∈ rs, r.key? ≠ some .null := by simp [rs, Request.key?]
  refine ⟨hs, rfl, ?_, ?_, hnames, hkeys,
    (observer_after_history hs rfl c 0 ids hnames).2.1 hkeys⟩
  · decide +kernel
  · decide +kernel

/-- A property under the absent key is announced as if the name had changed, and the observer never
has it. -/
theorem observer_misses_absent_key :
    let s := Scene.single (.text "Scene") "n1" (.text "Root") true
    let c : Audience Unit := {
      connections _ := ⟨[⟨0, .nodeAdded, .observer⟩, ⟨1, .nodeRemoved, .observer⟩,
        ⟨2, .nodeChanged, .observer⟩], 3⟩
      report _ _ _ x := x
      observed := by
        intro _ signal h
        cases signal <;> first | rfl | exact absurd rfl h }
    let ids : IdSupply := ⟨IdSupply.numbered, 1⟩
    let rs : List Request := [.set (.text "n1") .null (.object [(.text "Number", .whole 1)])]
    let w := c.listen s ids ⟨.ofRecords s.toDocument, ()⟩ rs
    s.Reachable ∧
      (w.nodes.find? "n1").map (·.properties.contains .null) = some false ∧
      ((s.after ids rs).arena.find? "n1").map (·.properties.contains .null) = some true := by
  intro s c ids rs w
  have hcreated : (Scene.create (.text "Scene") (.text "Root") true ⟨IdSupply.numbered, 0⟩).1 =
      .ok s := rfl
  refine ⟨.built (.created hcreated), ?_, ?_⟩
  · decide +kernel
  · decide +kernel

end SceneEditor
