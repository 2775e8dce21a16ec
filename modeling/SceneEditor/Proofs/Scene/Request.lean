import SceneEditor.Proofs.Value.Showable
import SceneEditor.Scene.Edit

namespace SceneEditor

inductive Request where
  | add (parent name type : Value)
  | remove (id : Value)
  | set (id key value : Value)
  | unset (id key : Value)
  | rename (id name : Value)

inductive Answer where
  | id (id : Option String)
  | flag (b : Bool)

def Answer.succeeded : Answer → Bool
  | id o => o.isSome
  | flag b => b

namespace Edit

def map {α β : Type} (f : α → β) (e : Edit α) : Edit β :=
  ⟨e.answer.map f, e.scene, e.notices, e.announcement⟩

def succeeded (e : Edit Answer) : Bool :=
  match e.answer with
  | .ok answer => answer.succeeded
  | .error _ => false

variable {α : Type} {e : Edit α}

theorem written_map {β : Type} (f : α → β) (e : Edit α) : (e.map f).written = e.written.map f := by
  simp only [written, map]
  split <;> rfl

theorem scene_written (e : Edit α) : e.written.scene = e.scene := by
  unfold written
  split <;> rfl

theorem written_of_isShowable (h : ∀ n ∈ e.notices, n.IsShowable) : e.written = e := by
  have hnone : e.notices.findSome? Notice.obstacle? = none :=
    List.findSome?_eq_none_iff.mpr fun n hn => Notice.obstacle?_eq_none_iff.mpr (h n hn)
  rw [written, hnone]

theorem written_of_obstacle {o : Obstacle}
    (h : e.notices.findSome? Notice.obstacle? = some o) :
    e.written = ⟨.error (.unwritten o), e.scene, [], none⟩ := by
  rw [written, h]

end Edit

def Request.perform (r : Request) (s : Scene) (ids : IdSupply) : Edit Answer × IdSupply :=
  match r with
  | add parent name type =>
    ((s.addNode parent name type ids).1.map .id, (s.addNode parent name type ids).2)
  | remove id => ((s.removeNode id).map .flag, ids)
  | set id key v => ((s.setProperty id key v).map .flag, ids)
  | unset id key => ((s.removeProperty id key).map .flag, ids)
  | rename id name => ((s.renameNode id name).map .flag, ids)

namespace Scene

/-- What an accepted request does to a scene, with its answer and what the scene announces. -/
inductive Step (s : Scene) : Answer → Announcement → Scene → Prop
  | added {id parent : String} {n : Node} {name : Value} {type : NodeType}
      (hparent : s.arena.find? parent = some n) (hid : s.isTaken id = false) :
      Step s (.id (some id)) (.nodeAdded id parent)
        { s with arena := s.withNode id name type parent, revision := s.revision + 1 }
  | removed {id : String} {n : Node} (hn : s.arena.find? id = some n) (hroot : id ≠ s.root) :
      Step s (.flag true) (.nodeRemoved id (s.arena.walk id))
        { s with
          arena := s.withoutNodes id n.parent (s.arena.walk id)
          retired := s.arena.walk id ++ s.retired
          revision := s.revision + 1 }
  | propertySet {id : String} {n : Node} {key : Value} {p : Property}
      (hn : s.arena.find? id = some n) :
      Step s (.flag true) (.nodeChanged id (some key))
        { s with
          arena := s.withChange id fun n => { n with properties := n.properties.insert key p }
          revision := s.revision + 1 }
  | propertyDropped {id : String} {n : Node} {key : Value}
      (hn : s.arena.find? id = some n) (hkey : n.properties.contains key = true) :
      Step s (.flag true) (.nodeChanged id (some key))
        { s with
          arena := s.withChange id fun n => { n with properties := n.properties.erase key }
          revision := s.revision + 1 }
  | renamed {id : String} {n : Node} {name : Value} (hn : s.arena.find? id = some n) :
      Step s (.flag true) (.nodeChanged id none)
        { s with
          arena := s.withChange id fun n => { n with name := name }
          revision := s.revision + 1 }

theorem Step.revision_eq {s t : Scene} {answer : Answer} {a : Announcement}
    (h : s.Step answer a t) : t.revision = s.revision + 1 := by
  cases h <;> rfl

theorem Step.bound_eq {s t : Scene} {answer : Answer} {a : Announcement}
    (h : s.Step answer a t) : t.bound = s.bound := by
  cases h <;> rfl

end Scene

namespace Edit

def Rejected (e : Edit Answer) (s : Scene) : Prop :=
  e.succeeded = false ∧ e.scene = s ∧ e.announcement = none

def Accepted (e : Edit Answer) (s : Scene) (o : Option Obstacle) : Prop :=
  e.succeeded = true ∧ e.notices.findSome? Notice.obstacle? = o ∧
    ∃ answer a, e.answer = .ok answer ∧ e.announcement = some a ∧ s.Step answer a e.scene

end Edit

/-- What keeps a request that is accepted from being remarked: of what is added the name is shown,
and of all else only what is text anyway. -/
def Request.remarkObstacle? : Request → Option Obstacle
  | add _ name _ => name.obstacle? Value.maxNesting
  | _ => none

theorem Value.asKey_eq_ok {v w : Value} (h : v.asKey = .ok w) : w = v := by
  unfold asKey at h
  split at h
  · cases h
  · exact (Except.ok.inj h).symm

theorem Scene.resolve_text (s : Scene) (id : String) :
    s.resolve (.text id) = .ok ((s.arena.find? id).map (id, ·)) := rfl

theorem Scene.resolve_eq_some {s : Scene} {v : Value} {id : String} {n : Node}
    (h : s.resolve v = .ok (some (id, n))) : v = .text id ∧ s.arena.find? id = some n := by
  unfold resolve at h
  cases hk : v.asKey with
  | error e =>
    rw [hk] at h
    cases h
  | ok w =>
    rw [hk] at h
    obtain rfl := Value.asKey_eq_ok hk
    cases w with
    | text key =>
      obtain ⟨m, hm, he⟩ := Option.map_eq_some_iff.mp (Except.ok.inj h)
      obtain ⟨rfl, rfl⟩ := Prod.mk.inj he
      exact ⟨rfl, hm⟩
    | _ => cases h

theorem Scene.removeNode_text {s : Scene} {id : String} {n : Node}
    (hn : s.arena.find? id = some n) (hroot : id ≠ s.root) : s.removeNode (.text id) =
      .done { s with retired := s.arena.walk id ++ s.retired }
        (s.withoutNodes id n.parent (s.arena.walk id)) true
        [.removed id ((s.arena.walk id).length - 1)] (.nodeRemoved id (s.arena.walk id)) := by
  have hne : ¬ (Value.text id == .text s.root) = true := by simpa [Value.sameKey_text] using hroot
  rw [removeNode, if_neg hne, resolve_text, hn]
  rfl

theorem Scene.removeNode_text_declined {s : Scene} {id : String}
    (h : id = s.root ∨ s.arena.find? id = none) :
    ∃ notices, s.removeNode (.text id) = .declined s false notices := by
  by_cases hroot : id = s.root
  · have hsame : (Value.text id == .text s.root) = true := by
      simpa [Value.sameKey_text] using hroot
    exact ⟨_, by rw [removeNode, if_pos hsame]⟩
  · have hne : ¬ (Value.text id == .text s.root) = true := by
      simpa [Value.sameKey_text] using hroot
    exact ⟨_, by rw [removeNode, if_neg hne, resolve_text, h.resolve_left hroot]; rfl⟩

theorem IdSupply.fresh_eq_some {taken : String → Bool} {attempts : Nat} {ids ids' : IdSupply}
    {id : String} (h : ids.fresh taken attempts = (.ok (some id), ids')) : taken id = false := by
  induction attempts generalizing ids with
  | zero => simp [fresh] at h
  | succ attempts ih =>
    unfold fresh at h
    split at h
    · simp at h
    · next next ids'' _ =>
      by_cases ht : taken next = true
      · rw [if_pos ht] at h
        exact ih h
      · rw [if_neg ht, Prod.mk.injEq, Except.ok.injEq, Option.some.injEq] at h
        rw [← h.1]
        exact Bool.not_eq_true _ ▸ ht

namespace Request

theorem add_cases (s : Scene) (parent name type : Value) (ids : IdSupply) :
    ((add parent name type).perform s ids).1.Rejected s ∨
      ((add parent name type).perform s ids).1.Accepted s
        (name.obstacle? Value.maxNesting) := by
  simp only [perform, Scene.addNode]
  cases hres : s.resolve parent with
  | error e => exact .inl ⟨rfl, rfl, rfl⟩
  | ok found =>
    rcases found with _ | ⟨id, n⟩
    · exact .inl ⟨rfl, rfl, rfl⟩
    · cases NodeType.parse? type with
      | none => exact .inl ⟨rfl, rfl, rfl⟩
      | some t =>
        rcases hf : ids.fresh s.isTaken Scene.maxAttempts with ⟨_ | _ | fresh, ids'⟩
        · exact .inl ⟨rfl, rfl, rfl⟩
        · exact .inl ⟨rfl, rfl, rfl⟩
        · have hparent := (Scene.resolve_eq_some hres).2
          have hnotice : (Notice.added t name fresh id).obstacle? = _ :=
            Notice.obstacle?_of_values_eq rfl
          exact .inr ⟨rfl, by rw [← hnotice]; exact List.findSome?_singleton, _, _, rfl, rfl,
            .added hparent (IdSupply.fresh_eq_some hf)⟩

theorem remove_cases (s : Scene) (id : Value) (ids : IdSupply) :
    ((remove id).perform s ids).1.Rejected s ∨ ((remove id).perform s ids).1.Accepted s none := by
  simp only [perform, Scene.removeNode]
  by_cases hroot : (id == .text s.root) = true
  · rw [if_pos hroot]
    exact .inl ⟨rfl, rfl, rfl⟩
  · rw [if_neg hroot]
    cases hres : s.resolve id with
    | error e => exact .inl ⟨rfl, rfl, rfl⟩
    | ok found =>
      rcases found with _ | ⟨key, n⟩
      · exact .inl ⟨rfl, rfl, rfl⟩
      · obtain ⟨rfl, hn⟩ := Scene.resolve_eq_some hres
        have hne : key ≠ s.root := by simpa [Value.sameKey_text] using hroot
        exact .inr ⟨rfl, rfl, _, _, rfl, rfl, .removed hn hne⟩

theorem set_cases (s : Scene) (id key v : Value) (ids : IdSupply) :
    ((set id key v).perform s ids).1.Rejected s ∨
      ((set id key v).perform s ids).1.Accepted s none := by
  simp only [perform, Scene.setProperty]
  cases hres : s.resolve id with
  | error e => exact .inl ⟨rfl, rfl, rfl⟩
  | ok found =>
    rcases found with _ | ⟨id, n⟩
    · exact .inl ⟨rfl, rfl, rfl⟩
    · cases Property.decode v with
      | error e => cases e <;> exact .inl ⟨rfl, rfl, rfl⟩
      | ok p =>
        cases key.asKey with
        | error e => exact .inl ⟨rfl, rfl, rfl⟩
        | ok key =>
          exact .inr ⟨rfl, rfl, _, _, rfl, rfl, .propertySet (Scene.resolve_eq_some hres).2⟩

theorem unset_cases (s : Scene) (id key : Value) (ids : IdSupply) :
    ((unset id key).perform s ids).1.Rejected s ∨
      ((unset id key).perform s ids).1.Accepted s none := by
  simp only [perform, Scene.removeProperty]
  cases hres : s.resolve id with
  | error e => exact .inl ⟨rfl, rfl, rfl⟩
  | ok found =>
    rcases found with _ | ⟨id, n⟩
    · exact .inl ⟨rfl, rfl, rfl⟩
    · cases key.asKey with
      | error e => exact .inl ⟨rfl, rfl, rfl⟩
      | ok key =>
        by_cases hkey : n.properties.contains key = true
        · simp only [hkey, if_true]
          exact .inr ⟨rfl, rfl, _, _, rfl, rfl,
            .propertyDropped (Scene.resolve_eq_some hres).2 hkey⟩
        · simp only [hkey]
          exact .inl ⟨rfl, rfl, rfl⟩

theorem rename_cases (s : Scene) (id name : Value) (ids : IdSupply) :
    ((rename id name).perform s ids).1.Rejected s ∨
      ((rename id name).perform s ids).1.Accepted s none := by
  simp only [perform, Scene.renameNode]
  cases hres : s.resolve id with
  | error e => exact .inl ⟨rfl, rfl, rfl⟩
  | ok found =>
    rcases found with _ | ⟨id, n⟩
    · exact .inl ⟨rfl, rfl, rfl⟩
    · exact .inr ⟨rfl, rfl, _, _, rfl, rfl, .renamed (Scene.resolve_eq_some hres).2⟩

theorem perform_cases (r : Request) (s : Scene) (ids : IdSupply) :
    (r.perform s ids).1.Rejected s ∨ (r.perform s ids).1.Accepted s r.remarkObstacle? := by
  cases r with
  | add parent name type => exact add_cases s parent name type ids
  | remove id => exact remove_cases s id ids
  | set id key v => exact set_cases s id key v ids
  | unset id key => exact unset_cases s id key ids
  | rename id name => exact rename_cases s id name ids

end Request

namespace Scene

def edits (s : Scene) (ids : IdSupply) : List Request → List (Edit Answer)
  | [] => []
  | r :: rs => (r.perform s ids).1 :: (r.perform s ids).1.scene.edits (r.perform s ids).2 rs

def after (s : Scene) (ids : IdSupply) : List Request → Scene
  | [] => s
  | r :: rs => (r.perform s ids).1.scene.after (r.perform s ids).2 rs

theorem after_induction {P : Scene → Prop}
    (hstep : ∀ {s t answer a}, Step s answer a t → P s → P t) {s : Scene} (h : P s)
    (ids : IdSupply) (rs : List Request) : P (s.after ids rs) := by
  induction rs generalizing s ids with
  | nil => exact h
  | cons r rs ih =>
    apply ih
    rcases r.perform_cases s ids with ⟨_, hs, _⟩ | ⟨_, _, answer, a, _, _, ht⟩
    · rwa [hs]
    · exact hstep ht h

theorem revision_after (s : Scene) (ids : IdSupply) (rs : List Request) :
    (s.after ids rs).revision = s.revision + ((s.edits ids rs).filter Edit.succeeded).length := by
  induction rs generalizing s ids with
  | nil => rfl
  | cons r rs ih =>
    simp only [after, edits, ih]
    rcases r.perform_cases s ids with ⟨hf, hs, _⟩ | ⟨hf, _, _, _, _, _, ht⟩
    · rw [hs, List.filter_cons_of_neg (by simp [hf])]
    · rw [ht.revision_eq, List.filter_cons_of_pos hf, List.length_cons]
      omega

end Scene

end SceneEditor
