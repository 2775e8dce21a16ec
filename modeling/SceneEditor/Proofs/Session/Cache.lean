import SceneEditor.Proofs.Scene.Request
import SceneEditor.Session

/-!
The kept program of a session. Along a run it is recorded of which scene the last program was made,
under which registry and layout, and how many edits of that scene have succeeded since. The record
says when a program has to be made anew, and the program that is handed out is always that of the
present state of the current scene under the recorded registry and layout.
-/

namespace SceneEditor.Session

variable {η : Type}

def ask (s : Session η) (handle : Nat) (r : Request) : Session η :=
  if handle < s.scenes.length then
    let t := s.switchTo handle
    let (e, ids) := r.perform t.scene t.ids
    ({ t with ids := ids }.commit e).2.2.switchTo s.current
  else s

/-- What may happen to a session between two programs. A scene that is entered may come from
anywhere and be in any state. -/
inductive Event where
  | ask (handle : Nat) (r : Request)
  | newScene (name : Value)
  | load (files : Files) (path : String)
  | enterDocument (v : Value)
  | enter (scene : Scene)
  | switchTo (handle : Nat)
  | generateCode
  | register (type : NodeType) (emitter : Emitter)
  | configure (setting : Setting)

def Event.step (s : Session η) : Event → Session η
  | ask handle r => s.ask handle r
  | newScene name => (s.newScene name).2
  | load files path => (s.load files path).2
  | enterDocument v => (s.enterDocument v).2
  | enter scene => s.enter scene
  | switchTo handle => s.switchTo handle
  | generateCode => s.generateCode.2
  | register type emitter => { s with emitters := s.emitters.insert type emitter }
  | configure setting => { s with settings := s.settings.assign setting }

/-- What the last program was made of, and how many edits of its scene have succeeded since. -/
structure Record where
  scene : Nat
  emitters : Registry
  layout : Layout
  edits : Nat

def IsStale (s : Session η) : Option Record → Prop
  | none => True
  | some k => k.scene ≠ s.current ∨ 0 < k.edits

instance (s : Session η) (m : Option Record) : Decidable (s.IsStale m) := by
  cases m <;> unfold IsStale <;> infer_instance

def grants (s : Session η) (handle : Nat) (r : Request) : Bool :=
  (s.scenes[handle]?.map fun scene => (r.perform scene s.ids).1.succeeded).getD false

def Regenerates (s : Session η) : Prop := s.generateCode.2.snapshots = s.snapshots + 1

instance (s : Session η) : Decidable s.Regenerates := inferInstanceAs (Decidable (_ = _))

def Event.record (s : Session η) (m : Option Record) : Event → Option Record
  | ask handle r => m.map fun k =>
    if k.scene = handle ∧ s.grants handle r then { k with edits := k.edits + 1 } else k
  | newScene name => if (s.newScene name).1.isOk then none else m
  | load files path => if (s.load files path).1.isOk then none else m
  | generateCode => if s.Regenerates then some ⟨s.current, s.emitters, s.settings.layout, 0⟩ else m
  | _ => m

def track (s : Session η) (m : Option Record) : List Event → Session η × Option Record
  | [] => (s, m)
  | e :: es => track (e.step s) (e.record s m) es

/-- What a record says of the next program. It is that of the present state of the current scene,
under the registry and the layout that were in force when a program was last made anew. -/
structure Coherent (s : Session η) (m : Option Record) : Prop where
  scene_eq : s.cache.map (·.scene) = m.map (·.scene)
  regenerates_iff : s.Regenerates ↔ s.IsStale m
  kept : ¬ s.Regenerates → ∃ c, s.cache = some c ∧ s.generateCode = (c.code, s)
  code_eq : ∃ k, Event.generateCode.record s m = some k ∧
    ∀ n, s.generateCode.1 = Program.generate k.emitters k.layout (s.scene.snapshot n)
  code_eq_fresh : ∀ k, Event.generateCode.record s m = some k → k.emitters = s.emitters →
    k.layout = s.settings.layout →
      ∀ n, s.generateCode.1 = (s.generate s.settings.layout (s.scene.snapshot n)).1

/-- The invariant of a run: the kept program is the recorded one, the edits since then are what its
scene has counted, and as long as there are none, it is the program of the scene. -/
inductive Tracks (s : Session η) : Option Record → Prop
  | empty (hcache : s.cache = none) : Tracks s none
  | kept {c : CachedProgram} {k : Record} {scene : Scene} (hcache : s.cache = some c)
      (hhandle : c.scene = k.scene) (hscene : s.scenes[k.scene]? = some scene)
      (hrevision : scene.revision = c.revision + k.edits)
      (hcode : k.edits = 0 → ∀ n, c.code = Program.generate k.emitters k.layout (scene.snapshot n)) :
      Tracks s (some k)

theorem scenes_current (s : Session η) : s.scenes[s.current]? = some s.scene :=
  List.getElem?_eq_getElem s.current_lt

theorem scene_enter (s : Session η) (scene : Scene) : (s.enter scene).scene = scene := by
  simp [Session.scene, enter]

theorem scenes_commit {α : Type} (s : Session η) (e : Edit α) :
    (s.commit e).2.2.scenes = s.scenes.set s.current e.scene :=
  congrArg (s.scenes.set s.current) e.scene_written

theorem scenes_ask (s : Session η) {handle : Nat} {scene : Scene}
    (h : s.scenes[handle]? = some scene) (r : Request) :
    (s.ask handle r).scenes = s.scenes.set handle (r.perform scene s.ids).1.scene ∧
      (s.ask handle r).cache = s.cache := by
  obtain ⟨hlt, rfl⟩ := List.getElem?_eq_some_iff.mp h
  have hswitch : s.switchTo handle = { s with current := handle, current_lt := hlt } := dif_pos hlt
  rw [ask, if_pos hlt]
  simp only [hswitch]
  unfold switchTo
  split <;> exact ⟨scenes_commit { s with ids := _, current := handle, current_lt := hlt } _, rfl⟩

theorem ask_of_none (s : Session η) {handle : Nat} (h : s.scenes[handle]? = none) (r : Request) :
    s.ask handle r = s := by
  rw [ask, if_neg (by simpa using h)]

theorem newScene_cases (s : Session η) (name : Value) :
    ((s.newScene name).1.isOk = false ∧ (s.newScene name).2.cache = s.cache ∧
      (s.newScene name).2.scenes = s.scenes) ∨
    ((s.newScene name).1.isOk = true ∧ (s.newScene name).2.cache = none) := by
  rcases hc : Scene.create (if name.isPresent then name else s.settings.sceneName)
    s.settings.rootName true s.ids with ⟨_ | scene, ids⟩
  · simp only [newScene, hc]
    exact .inl ⟨rfl, trivial, trivial⟩
  · simp only [newScene, hc]
    exact .inr ⟨rfl, rfl⟩

theorem enterDocument_cases (s : Session η) (v : Value) :
    (∃ ids e, s.enterDocument v = (.error e, { s with ids := ids })) ∨
      ∃ scene ids, s.enterDocument v = (.ok scene, { s with ids := ids }.enter scene) := by
  rcases hd : Scene.ofDocument v s.settings.rootName true s.ids with ⟨e | scene, ids⟩
  · simp only [enterDocument, hd]
    exact .inl ⟨ids, e, rfl⟩
  · simp only [enterDocument, hd]
    exact .inr ⟨scene, ids, rfl⟩

theorem load_cases (s : Session η) (files : Files) (path : String) :
    ((s.load files path).1.isOk = false ∧ (s.load files path).2.cache = s.cache ∧
      (s.load files path).2.scenes = s.scenes) ∨
    ((s.load files path).1.isOk = true ∧ (s.load files path).2.cache = none) := by
  cases hf : files.readDocument path with
  | error e =>
    simp only [load, hf]
    exact .inl ⟨rfl, trivial, trivial⟩
  | ok v =>
    rcases enterDocument_cases s v with ⟨ids, e, hd⟩ | ⟨scene, ids, hd⟩
    · simp only [load, hf, hd]
      exact .inl ⟨rfl, trivial, trivial⟩
    · simp only [load, hf, hd]
      exact .inr ⟨rfl, trivial⟩

theorem generateCode_of_kept {s : Session η} {code : String} (h : s.cached? = some code) :
    s.generateCode = (code, s) := by
  rw [generateCode, h]

theorem generateCode_of_none {s : Session η} (h : s.cached? = none) :
    s.generateCode.1 = Program.generate s.emitters s.settings.layout (s.scene.snapshot s.snapshots) ∧
      s.generateCode.2.cache = some ⟨s.current, s.scene.revision, s.generateCode.1⟩ ∧
      s.generateCode.2.scenes = s.scenes ∧ s.generateCode.2.snapshots = s.snapshots + 1 := by
  rw [generateCode, h]
  exact ⟨rfl, rfl, rfl, rfl⟩

theorem regenerates_iff_cached {s : Session η} : s.Regenerates ↔ s.cached? = none := by
  cases hc : s.cached? with
  | none => exact iff_of_true (generateCode_of_none hc).2.2.2 rfl
  | some code =>
    rw [Regenerates, generateCode_of_kept hc]
    simp

namespace Tracks

variable {s t : Session η} {m : Option Record}

theorem frame (h : s.Tracks m) (hcache : t.cache = s.cache)
    (hscenes : ∀ {i : Nat} {scene : Scene}, s.scenes[i]? = some scene → t.scenes[i]? = some scene) :
    t.Tracks m := by
  cases h with
  | empty hnone => exact .empty (hcache.trans hnone)
  | kept hc hhandle hscene hrevision hcode =>
    exact .kept (hcache.trans hc) hhandle (hscenes hscene) hrevision hcode

theorem enter (h : s.Tracks m) (scene : Scene) : (s.enter scene).Tracks m := by
  refine h.frame (t := s.enter scene) rfl ?_
  intro i old hold
  obtain ⟨hlt, _⟩ := List.getElem?_eq_some_iff.mp hold
  exact (List.getElem?_append_left hlt).trans hold

theorem switchTo (h : s.Tracks m) (handle : Nat) : (s.switchTo handle).Tracks m := by
  unfold Session.switchTo
  split
  · exact h.frame rfl id
  · exact h

theorem ask (h : s.Tracks m) (handle : Nat) (r : Request) :
    (s.ask handle r).Tracks ((Event.ask handle r).record s m) := by
  cases hscene : s.scenes[handle]? with
  | none =>
    rw [ask_of_none s hscene]
    cases h with
    | empty hnone => exact .empty hnone
    | kept hc hhandle hkept hrevision hcode =>
      simp only [Event.record, Option.map_some, grants, hscene, Option.map_none,
        Option.getD_none, Bool.false_eq_true, and_false, if_false]
      exact .kept hc hhandle hkept hrevision hcode
  | some scene =>
    obtain ⟨hscenes, hcache⟩ := scenes_ask s hscene r
    obtain ⟨hlt, _⟩ := List.getElem?_eq_some_iff.mp hscene
    cases h with
    | empty hnone => exact .empty (hcache.trans hnone)
    | @kept c k kept hc hhandle hkept hrevision hcode =>
      -- An edit of another scene leaves the kept program as good as it was.
      simp only [Event.record, Option.map_some, grants, hscene, Option.getD_some]
      by_cases hk : k.scene = handle
      · subst hk
        obtain rfl : kept = scene := Option.some.inj (hkept.symm.trans hscene)
        have hset : (s.ask k.scene r).scenes[k.scene]? =
            some (r.perform kept s.ids).1.scene := by
          rw [hscenes, List.getElem?_set_self hlt]
        rcases r.perform_cases kept s.ids with ⟨hf, hs, _⟩ | ⟨ht, _, _, _, _, _, hstep⟩
        · rw [if_neg (by simp [hf])]
          rw [hs] at hset
          exact .kept (hcache.trans hc) hhandle hset hrevision hcode
        · rw [if_pos ⟨rfl, ht⟩]
          have hrev := hstep.revision_eq
          exact .kept (hcache.trans hc) hhandle hset (by rw [hrev, hrevision]; rfl) nofun
      · rw [if_neg fun h => hk h.1]
        have hset : (s.ask handle r).scenes[k.scene]? = some kept := by
          rw [hscenes, List.getElem?_set_ne (Ne.symm hk), hkept]
        exact .kept (hcache.trans hc) hhandle hset hrevision hcode

theorem newScene (h : s.Tracks m) (name : Value) :
    (s.newScene name).2.Tracks ((Event.newScene name).record s m) := by
  rcases newScene_cases s name with ⟨hok, hcache, hscenes⟩ | ⟨hok, hcache⟩
  · rw [Event.record, if_neg (by simp [hok])]
    exact h.frame hcache fun hscene => by rwa [hscenes]
  · rw [Event.record, if_pos hok]
    exact .empty hcache

theorem enterDocument (h : s.Tracks m) (v : Value) : (s.enterDocument v).2.Tracks m := by
  obtain ⟨ids, e, heq⟩ | ⟨scene, ids, heq⟩ := enterDocument_cases s v
  · rw [heq]
    exact h.frame (t := { s with ids := ids }) rfl id
  · rw [heq]
    exact Tracks.enter (s := { s with ids := ids }) (h.frame rfl id) scene

theorem load (h : s.Tracks m) (files : Files) (path : String) :
    (s.load files path).2.Tracks ((Event.load files path).record s m) := by
  rcases load_cases s files path with ⟨hok, hcache, hscenes⟩ | ⟨hok, hcache⟩
  · rw [Event.record, if_neg (by simp [hok])]
    exact h.frame hcache fun hscene => by rwa [hscenes]
  · rw [Event.record, if_pos hok]
    exact .empty hcache

theorem isStale_iff (h : s.Tracks m) : s.IsStale m ↔ s.cached? = none := by
  cases h with
  | empty hnone => simp [IsStale, cached?, hnone]
  | @kept c k scene hc hhandle hscene hrevision hcode =>
    have hcurrent : s.isCurrent c = true ↔ k.scene = s.current ∧ k.edits = 0 := by
      rw [isCurrent, Bool.and_eq_true, decide_eq_true_iff, decide_eq_true_iff, hhandle]
      apply and_congr_right
      intro hk
      rw [hk, scenes_current, Option.some.injEq] at hscene
      rw [hscene, hrevision]
      omega
    have hcached : s.cached? = none ↔ ¬ s.isCurrent c = true := by
      simp [cached?, hc]
    rw [hcached, hcurrent, IsStale]
    omega

theorem regenerates_iff (h : s.Tracks m) : s.Regenerates ↔ s.IsStale m := by
  rw [h.isStale_iff, regenerates_iff_cached]

theorem scene_eq (h : s.Tracks m) : s.cache.map (·.scene) = m.map (·.scene) := by
  cases h with
  | empty hnone => rw [hnone]; rfl
  | kept hc hhandle hscene hrevision hcode =>
    rw [hc, Option.map_some, hhandle, Option.map_some]

theorem code_of_not_stale (h : s.Tracks m) (hm : ¬ s.IsStale m) :
    ∃ c k, s.cache = some c ∧ m = some k ∧ s.cached? = some c.code ∧
      ∀ n, c.code = Program.generate k.emitters k.layout (s.scene.snapshot n) := by
  have hsome := fun hnone => hm (h.isStale_iff.mpr hnone)
  cases h with
  | empty hnone => exact absurd trivial hm
  | @kept c k scene hc hhandle hscene hrevision hcode =>
    have hfresh : k.scene = s.current ∧ k.edits = 0 := by
      rw [IsStale] at hm
      omega
    rw [hfresh.1, scenes_current, Option.some.injEq] at hscene
    subst hscene
    refine ⟨c, k, hc, rfl, ?_, hcode hfresh.2⟩
    rw [cached?, hc, Option.filter_some] at hsome ⊢
    by_cases hcurrent : s.isCurrent c = true
    · rw [if_pos hcurrent]
      rfl
    · rw [if_neg hcurrent] at hsome
      exact absurd rfl hsome

theorem generateCode (h : s.Tracks m) :
    s.generateCode.2.Tracks (Event.generateCode.record s m) := by
  simp only [Event.record]
  by_cases hr : s.Regenerates
  · rw [if_pos hr]
    obtain ⟨hcode, hcache, hscenes, _⟩ := generateCode_of_none (regenerates_iff_cached.mp hr)
    refine .kept hcache rfl ?_ rfl fun _ n => hcode
    rw [hscenes]
    exact scenes_current s
  · rw [if_neg hr]
    obtain ⟨c, k, _, _, hcached, _⟩ := h.code_of_not_stale (hr ∘ h.regenerates_iff.mpr)
    rw [generateCode_of_kept hcached]
    exact h

theorem code_eq (h : s.Tracks m) : ∃ k, Event.generateCode.record s m = some k ∧
    ∀ n, s.generateCode.1 = Program.generate k.emitters k.layout (s.scene.snapshot n) := by
  simp only [Event.record]
  by_cases hr : s.Regenerates
  · rw [if_pos hr]
    exact ⟨_, rfl, fun _ => (generateCode_of_none (regenerates_iff_cached.mp hr)).1⟩
  · rw [if_neg hr]
    obtain ⟨c, k, _, hk, hcached, hcode⟩ := h.code_of_not_stale (hr ∘ h.regenerates_iff.mpr)
    refine ⟨k, hk, fun n => ?_⟩
    rw [generateCode_of_kept hcached]
    exact hcode n

theorem coherent (h : s.Tracks m) : s.Coherent m where
  scene_eq := h.scene_eq
  regenerates_iff := h.regenerates_iff
  kept := by
    intro hr
    obtain ⟨c, _, hc, _, hcached, _⟩ := h.code_of_not_stale (hr ∘ h.regenerates_iff.mpr)
    exact ⟨c, hc, generateCode_of_kept hcached⟩
  code_eq := h.code_eq
  code_eq_fresh := by
    intro k hk hemitters hlayout n
    obtain ⟨k', hk', hcode⟩ := h.code_eq
    obtain rfl : k' = k := Option.some.inj (hk'.symm.trans hk)
    rw [hcode n, hemitters, hlayout]
    rfl

theorem step (h : s.Tracks m) (e : Event) : (e.step s).Tracks (e.record s m) := by
  cases e with
  | ask handle r => exact h.ask handle r
  | newScene name => exact h.newScene name
  | load files path => exact h.load files path
  | enterDocument v => exact h.enterDocument v
  | enter scene => exact h.enter scene
  | switchTo handle => exact h.switchTo handle
  | generateCode => exact h.generateCode
  | register type emitter => exact h.frame rfl id
  | configure setting => exact h.frame rfl id

theorem track (h : s.Tracks m) (es : List Event) : (s.track m es).1.Tracks (s.track m es).2 := by
  induction es generalizing s m with
  | nil => exact h
  | cons e es ih => exact ih (h.step e)

end Tracks

theorem start_tracks {settings : Settings} {ids : IdSupply} {s : Session η}
    (h : start settings ids = .ok s) : s.Tracks none := by
  unfold start at h
  split at h
  · cases h
  · rw [← Except.ok.inj h]
    exact .empty rfl

/-- However a session was used, a program is made anew just when none is kept, the kept one is that
of another scene, or its scene was edited since; and either way the program is that of the current
scene as it is. A scene that is made or loaded leaves no program kept. -/
theorem generateCode_coherent {settings : Settings} {ids : IdSupply} {s : Session η}
    (h : start settings ids = .ok s) (es : List Event) :
    (s.track none es).1.Coherent (s.track none es).2 ∧
      (∀ name, ((s.track none es).1.newScene name).1.isOk = true →
        ((s.track none es).1.newScene name).2.cache = none) ∧
      ∀ files path, ((s.track none es).1.load files path).1.isOk = true →
        ((s.track none es).1.load files path).2.cache = none := by
  refine ⟨((start_tracks h).track es).coherent, fun name hok => ?_, fun files path hok => ?_⟩
  · rcases newScene_cases (s.track none es).1 name with ⟨hf, _⟩ | ⟨_, hcache⟩
    · rw [hf] at hok
      cases hok
    · exact hcache
  · rcases load_cases (s.track none es).1 files path with ⟨hf, _⟩ | ⟨_, hcache⟩
    · rw [hf] at hok
      cases hok
    · exact hcache

theorem generateCode_coherent_after_return :
    ∃ s : Session Unit, start {} ⟨IdSupply.numbered, 0⟩ = .ok s ∧
      let es : List Event := [
        .newScene (.text "Other"), .switchTo 0, .generateCode, .switchTo 1,
        .ask 1 (.rename (.text "n2") (.text "A")), .switchTo 0,
        .configure (.layout (.indent "  "))]
      let edit := Event.ask 0 (.rename (.text "n1") (.text "B"))
      ¬ (s.track none es).1.Regenerates ∧ (s.track none (es ++ [edit])).1.Regenerates ∧
        (s.track none es).1.Coherent (s.track none es).2 := by
  refine ⟨_, rfl, ?_, ?_, ?_⟩
  · decide +kernel
  · decide +kernel
  · exact (@generateCode_coherent Unit {} ⟨IdSupply.numbered, 0⟩ _ rfl _).1

end SceneEditor.Session
