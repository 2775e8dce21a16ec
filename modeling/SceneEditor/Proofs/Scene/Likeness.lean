import SceneEditor.Proofs.Scene.Records
import SceneEditor.Proofs.Script.Atomicity
import SceneEditor.Scene.Query

namespace SceneEditor

namespace IdSupply

variable {ids ids' : IdSupply}

def Same (ids ids' : IdSupply) : Prop :=
  ∀ k, ids.answer (ids.requests + k) = ids'.answer (ids'.requests + k)

theorem Same.next_eq (h : ids.Same ids') : ids.next.1 = ids'.next.1 := by
  have hnow := h 0
  simp only [Nat.add_zero] at hnow
  simp only [next, hnow]

theorem Same.next (h : ids.Same ids') : ids.next.2.Same ids'.next.2 := by
  intro k
  have hlater := h (1 + k)
  simpa only [IdSupply.next, Nat.add_assoc] using hlater

section Fresh

variable (ids) (taken : String → Bool) (attempts : Nat)

theorem fresh_succ : ids.fresh taken (attempts + 1) = match ids.next.1 with
    | .error e => (.error e, ids.next.2)
    | .ok id =>
      if taken id then ids.next.2.fresh taken attempts else (.ok (some id), ids.next.2) := by
  rw [fresh]
  rcases ids.next with ⟨_ | _, _⟩ <;> rfl

theorem fresh_of_next {attempts : Nat} (hpos : 0 < attempts)
    (h : ∀ id ∈ ids.next.1.toOption, taken id = false) :
    ids.fresh taken attempts = (ids.next.1.map some, ids.next.2) := by
  obtain ⟨k, rfl⟩ : ∃ k, attempts = k + 1 := ⟨attempts - 1, by omega⟩
  rw [fresh_succ]
  cases hn : ids.next.1 with
  | error e => rfl
  | ok id =>
    rw [hn] at h
    simp [h id rfl, Except.map]

theorem requests_le_fresh : ids.requests ≤ (ids.fresh taken attempts).2.requests := by
  induction attempts generalizing ids with
  | zero => exact Nat.le_refl _
  | succ attempts ih =>
    rw [fresh_succ]
    split
    · exact Nat.le_succ _
    · split
      · exact Nat.le_trans (Nat.le_succ _) (ih ids.next.2)
      · exact Nat.le_succ _

theorem requests_lt_fresh {attempts : Nat} (hpos : 0 < attempts) :
    ids.requests < (ids.fresh taken attempts).2.requests := by
  obtain ⟨k, rfl⟩ : ∃ k, attempts = k + 1 := ⟨attempts - 1, by omega⟩
  rw [fresh_succ]
  split
  · exact Nat.lt_succ_self _
  · split
    · exact Nat.lt_of_succ_le (requests_le_fresh ids.next.2 taken k)
    · exact Nat.lt_succ_self _

end Fresh

end IdSupply

namespace Scene

variable {s t : Scene} {ids ids' : IdSupply}

/-- The scenes differ at most in the order of their nodes, in the identifiers of former nodes, in
the count of their edits, and in whether they are bound. -/
structure IsLike (s t : Scene) : Prop where
  name_eq : s.name = t.name
  root_eq : s.root = t.root
  find?_eq : ∀ id, s.arena.find? id = t.arena.find? id

structure Agrees (s t : Scene) : Prop where
  node : ∀ id, s.getNode id = t.getNode id
  property : ∀ id key request default,
    s.getProperty id key request default = t.getProperty id key request default
  children : ∀ id, s.childrenOf id = t.childrenOf id
  subtree : ∀ id, s.subtree id = t.subtree id
  contains : ∀ id, s.contains id = t.contains id
  count : s.count = t.count
  document : s.toDocument = t.toDocument
  program : ∀ (registry : Registry) (layout : Layout) (j k : Nat),
    Program.generate registry layout (s.snapshot j) = Program.generate registry layout (t.snapshot k)

theorem isLike_iff (hs : s.WellFormed) (ht : t.WellFormed) :
    s.IsLike t ↔ s.toDocument = t.toDocument := by
  constructor
  · exact fun h => toDocument_congr h.name_eq h.root_eq h.find?_eq
  · intro h
    have hobject := h
    rw [toDocument_eq, toDocument_eq] at hobject
    simp only [Value.object.injEq, List.cons.injEq, Prod.mk.injEq, true_and, Value.text.injEq]
      at hobject
    refine ⟨hobject.1, hobject.2.1, fun id => ?_⟩
    rw [← Arena.find?_ofRecords hs, h, Arena.find?_ofRecords ht]

namespace IsLike

theorem resolve_eq (h : s.IsLike t) (id : Value) : s.resolve id = t.resolve id := by
  simp only [resolve, h.find?_eq]

theorem walk_eq (h : s.IsLike t) (id : String) : s.arena.walk id = t.arena.walk id :=
  Arena.walk_congr h.find?_eq id

theorem count_eq (h : s.IsLike t) (hs : s.WellFormed) (ht : t.WellFormed) :
    s.count = t.count := by
  have hlisted : s.listed = t.listed := by
    rw [listed, listed, h.root_eq, h.walk_eq]
    exact List.filterMap_congr fun id _ => h.find?_eq id
  have hlength {u : Scene} (hu : u.WellFormed) : u.count = u.listed.length := by
    rw [← List.length_map (fun n : Node => (n.id, n)), (isListing_listed hu).once.length_eq]
    rfl
  rw [hlength hs, hlength ht, hlisted]

theorem agrees (h : s.IsLike t) (hs : s.WellFormed) (ht : t.WellFormed) : s.Agrees t where
  node id := by simp only [getNode, h.resolve_eq]
  property id key request default := by
    simp only [getProperty, getProperty.read, h.resolve_eq]
  children id := by simp only [childrenOf, h.resolve_eq]
  subtree id := by simp only [subtree, h.resolve_eq, h.walk_eq]
  contains id := by simp only [Scene.contains, h.resolve_eq]
  count := h.count_eq hs ht
  document := (isLike_iff hs ht).mp h
  program := fun _ _ _ _ => Program.generate_congr h.root_eq h.find?_eq

end IsLike

end Scene

/-- Two edits, one of each of two scenes, come to the same: they have the same answer, the same
remarks and the same announcement, count as much, and leave scenes that are alike and are bound if
the two were. -/
structure Edit.Matches {α : Type} (s t : Scene) (e e' : Edit α) : Prop where
  answer_eq : e.answer = e'.answer
  notices_eq : e.notices = e'.notices
  announcement_eq : e.announcement = e'.announcement
  revision_eq : e.scene.revision + t.revision = e'.scene.revision + s.revision
  bound_eq : s.bound = t.bound → e.scene.bound = e'.scene.bound
  scene : e.scene.IsLike e'.scene

namespace Edit.Matches

variable {α β : Type} {s t : Scene} {e e' : Edit α}

theorem map (h : e.Matches s t e') (f : α → β) : (e.map f).Matches s t (e'.map f) where
  answer_eq := congrArg (Except.map f) h.answer_eq
  notices_eq := h.notices_eq
  announcement_eq := h.announcement_eq
  revision_eq := h.revision_eq
  bound_eq := h.bound_eq
  scene := h.scene

theorem announced_eq {e e' : Edit Answer} (h : e.Matches s t e') (hb : s.bound = t.bound) :
    e.announced = e'.announced := by
  rw [announced, announced, h.bound_eq hb, h.announcement_eq]

theorem declined (h : s.IsLike t) (answer : α) (notices : List Notice) :
    (declined s answer notices).Matches s t (declined t answer notices) :=
  ⟨rfl, rfl, rfl, Nat.add_comm _ _, id, h⟩

theorem failed (h : s.IsLike t) (e : Cause) : (failed s e : Edit α).Matches s t (failed t e) :=
  ⟨rfl, rfl, rfl, Nat.add_comm _ _, id, h⟩

theorem done {s' t' : Scene} (h : s'.IsLike t')
    (hs : s'.revision = s.revision ∧ s'.bound = s.bound)
    (ht : t'.revision = t.revision ∧ t'.bound = t.bound) {a b : Arena} (hab : ∀ id, a.find? id = b.find? id)
    (answer : α) (notices : List Notice) (announcement : Announcement) :
    (done s' a answer notices announcement).Matches s t
      (done t' b answer notices announcement) where
  answer_eq := rfl
  notices_eq := rfl
  announcement_eq := rfl
  revision_eq := by
    simp only [Edit.done, hs.1, ht.1]
    omega
  bound_eq hb := (hs.2.trans hb).trans ht.2.symm
  scene := ⟨h.name_eq, h.root_eq, hab⟩

theorem changed (h : s.IsLike t) (id : String) (change : Node → Node) (answer : α)
    (announcement : Announcement) :
    (Edit.done s (s.withChange id change) answer [] announcement).Matches s t
      (Edit.done t (t.withChange id change) answer [] announcement) := by
  apply done h ⟨rfl, rfl⟩ ⟨rfl, rfl⟩
  intro key
  rw [Scene.find?_withChange, Scene.find?_withChange, h.find?_eq]

end Edit.Matches

namespace Scene

variable {s t : Scene} {ids ids' : IdSupply}

/-- Whenever a request of a history asks the supply, an identifier that it is offered is not in
use. -/
def IsServed (s : Scene) (ids : IdSupply) : List Request → Prop
  | [] => True
  | r :: rs =>
    ((r.perform s ids).2.requests = ids.requests ∨
      ∀ id ∈ ids.next.1.toOption, s.isTaken id = false) ∧
    (r.perform s ids).1.scene.IsServed (r.perform s ids).2 rs

instance decidableIsServed : (s : Scene) → (ids : IdSupply) → (rs : List Request) →
    Decidable (s.IsServed ids rs)
  | _, _, [] => .isTrue trivial
  | s, ids, r :: rs =>
    have := decidableIsServed (r.perform s ids).1.scene (r.perform s ids).2 rs
    inferInstanceAs (Decidable (_ ∧ _))

section AddNode

variable {parent type : Value} {kind : NodeType} {found : String × Node}

theorem requests_addNode_ne (hparent : s.resolve parent = .ok (some found))
    (htype : NodeType.parse? type = some kind) (name : Value) (ids : IdSupply) :
    (s.addNode parent name type ids).2.requests ≠ ids.requests := by
  have hsupply : (s.addNode parent name type ids).2 = (ids.fresh s.isTaken maxAttempts).2 := by
    obtain ⟨id, n⟩ := found
    simp only [addNode, hparent, htype]
    split <;> next hf => rw [hf]
  rw [hsupply]
  exact Nat.ne_of_gt (ids.requests_lt_fresh s.isTaken (by decide))

theorem addNode_of_new {name : Value} (hparent : s.resolve parent = .ok (some found))
    (htype : NodeType.parse? type = some kind)
    (hnew : ∀ id ∈ ids.next.1.toOption, s.isTaken id = false) :
    s.addNode parent name type ids = match ids.next.1 with
      | .error e => (.failed s e, ids.next.2)
      | .ok id => (.done s (s.withNode id name kind found.1) (some id) [.added kind name id found.1]
          (.nodeAdded id found.1), ids.next.2) := by
  obtain ⟨id, n⟩ := found
  rw [addNode, hparent]
  have hpos : 0 < maxAttempts := by decide
  simp only [htype, ids.fresh_of_next s.isTaken hpos hnew]
  cases ids.next.1 <;> rfl

end AddNode

namespace IsLike

theorem removeNode (h : s.IsLike t) (id : Value) :
    (s.removeNode id).Matches s t (t.removeNode id) := by
  have hroot : (id == .text s.root) = (id == .text t.root) := by rw [h.root_eq]
  unfold Scene.removeNode
  rw [hroot, h.resolve_eq]
  split
  · exact .declined h _ _
  · split
    · exact .failed h _
    · exact .declined h _ _
    · simp only [h.walk_eq]
      apply Edit.Matches.done
      · exact ⟨h.name_eq, h.root_eq, h.find?_eq⟩
      · exact ⟨rfl, rfl⟩
      · exact ⟨rfl, rfl⟩
      · intro x
        simp only [find?_withoutNodes, h.find?_eq]

theorem setProperty (h : s.IsLike t) (id key v : Value) :
    (s.setProperty id key v).Matches s t (t.setProperty id key v) := by
  unfold Scene.setProperty
  rw [h.resolve_eq]
  split
  · exact .failed h _
  · exact .declined h _ _
  · split
    · exact .declined h _ _
    · exact .failed h _
    · split
      · exact .failed h _
      · exact .changed h _ _ _ _

theorem removeProperty (h : s.IsLike t) (id key : Value) :
    (s.removeProperty id key).Matches s t (t.removeProperty id key) := by
  unfold Scene.removeProperty
  rw [h.resolve_eq]
  split
  · exact .failed h _
  · exact .declined h _ _
  · split
    · exact .failed h _
    · split
      · exact .changed h _ _ _ _
      · exact .declined h _ _

theorem renameNode (h : s.IsLike t) (id name : Value) :
    (s.renameNode id name).Matches s t (t.renameNode id name) := by
  unfold Scene.renameNode
  rw [h.resolve_eq]
  split
  · exact .failed h _
  · exact .declined h _ _
  · exact .changed h _ _ _ _

theorem addNode (h : s.IsLike t) (hids : ids.Same ids') (parent name type : Value)
    (hs : (s.addNode parent name type ids).2.requests = ids.requests ∨
      ∀ id ∈ ids.next.1.toOption, s.isTaken id = false)
    (ht : (t.addNode parent name type ids').2.requests = ids'.requests ∨
      ∀ id ∈ ids'.next.1.toOption, t.isTaken id = false) :
    (s.addNode parent name type ids).1.Matches s t (t.addNode parent name type ids').1 ∧
      (s.addNode parent name type ids).2.Same (t.addNode parent name type ids').2 := by
  have hres := h.resolve_eq parent
  rcases hparent : t.resolve parent with e | _ | ⟨key, n⟩ <;> rw [hparent] at hres
  · simp only [Scene.addNode, hres, hparent]
    exact ⟨.failed h e, hids⟩
  · simp only [Scene.addNode, hres, hparent]
    exact ⟨.declined h _ _, hids⟩
  · cases htype : NodeType.parse? type with
    | none =>
      simp only [Scene.addNode, hres, hparent, htype]
      exact ⟨.declined h _ _, hids⟩
    | some type =>
      -- Both supplies are asked now, so what they offer first is new to both scenes.
      have hs' := hs.resolve_left (requests_addNode_ne hres htype name ids)
      have ht' := ht.resolve_left (requests_addNode_ne hparent htype name ids')
      rw [addNode_of_new hres htype hs', addNode_of_new hparent htype ht', hids.next_eq]
      cases ids'.next.1 with
      | error e => exact ⟨.failed h e, hids.next⟩
      | ok id =>
        refine ⟨.done h ⟨rfl, rfl⟩ ⟨rfl, rfl⟩ (fun x => ?_) _ _ _, hids.next⟩
        simp only [find?_withNode, h.find?_eq]

theorem perform (h : s.IsLike t) (hids : ids.Same ids') (r : Request)
    (hs : (r.perform s ids).2.requests = ids.requests ∨
      ∀ id ∈ ids.next.1.toOption, s.isTaken id = false)
    (ht : (r.perform t ids').2.requests = ids'.requests ∨
      ∀ id ∈ ids'.next.1.toOption, t.isTaken id = false) :
    (r.perform s ids).1.Matches s t (r.perform t ids').1 ∧
      (r.perform s ids).2.Same (r.perform t ids').2 := by
  cases r with
  | add parent name type =>
    obtain ⟨hedit, hsame⟩ := h.addNode hids parent name type hs ht
    exact ⟨hedit.map _, hsame⟩
  | remove id => exact ⟨(h.removeNode id).map _, hids⟩
  | set id key v => exact ⟨(h.setProperty id key v).map _, hids⟩
  | unset id key => exact ⟨(h.removeProperty id key).map _, hids⟩
  | rename id name => exact ⟨(h.renameNode id name).map _, hids⟩

theorem edits (h : s.IsLike t) (hs : s.WellFormed) (ht : t.WellFormed) (hids : ids.Same ids')
    {rs : List Request} (hserved : s.IsServed ids rs) (hserved' : t.IsServed ids' rs) :
    List.Forall₂ (fun e e' => e.Matches s t e' ∧ e.scene.Agrees e'.scene)
      (s.edits ids rs) (t.edits ids' rs) := by
  induction rs generalizing s t ids ids' with
  | nil => exact .nil
  | cons r rs ih =>
    obtain ⟨hmatches, hsame⟩ := h.perform hids r hserved.1 hserved'.1
    have hs' : (r.perform s ids).1.scene.WellFormed := hs.after ids [r]
    have ht' : (r.perform t ids').1.scene.WellFormed := ht.after ids' [r]
    refine .cons ⟨hmatches, hmatches.scene.agrees hs' ht'⟩ ?_
    -- What follows is counted from the scenes after the first edit.
    have hrest := ih hmatches.scene hs' ht' hsame hserved.2 hserved'.2
    apply hrest.imp
    rintro e e' ⟨he, hagrees⟩
    refine ⟨{ he with revision_eq := ?_, bound_eq := he.bound_eq ∘ hmatches.bound_eq }, hagrees⟩
    have hfirst := hmatches.revision_eq
    have hlater := he.revision_eq
    omega

end IsLike

/-- The document of a scene tells all that can be learned from it. Two scenes with the same document
answer all questions the same way and have the same programs, and this stays so after each request
of a history, as long as both are offered the same identifiers and none that was in use before. Each
request has the same answer, counts the same, and gives both the same to announce; if the two are
both bound or both not, they announce the same. -/
theorem document_tells_all (hs : s.Reachable) (ht : t.Reachable) (h : s.toDocument = t.toDocument)
    (hids : ids.Same ids') {rs : List Request} (hserved : s.IsServed ids rs)
    (hserved' : t.IsServed ids' rs) :
    s.Agrees t ∧ List.Forall₂ (fun e e' => e.Matches s t e' ∧ e.scene.Agrees e'.scene ∧
      (s.bound = t.bound → e.announced = e'.announced)) (s.edits ids rs) (t.edits ids' rs) := by
  have hlike := (isLike_iff hs.wellFormed ht.wellFormed).mpr h
  refine ⟨hlike.agrees hs.wellFormed ht.wellFormed, ?_⟩
  apply (hlike.edits hs.wellFormed ht.wellFormed hids hserved hserved').imp
  rintro e e' ⟨hmatches, hagrees⟩
  exact ⟨hmatches, hagrees, hmatches.announced_eq⟩

theorem document_tells_all_of_loaded :
    let s := (single (.text "Scene") "n1" (.text "Root") true).after ⟨IdSupply.numbered, 1⟩ [
      .add (.text "n1") (.text "A") (.text "Container"),
      .add (.text "n1") (.text "B") (.text "Rectangle"),
      .add (.text "n2") (.text "C") (.text "Sprite"),
      .add (.text "n1") (.text "D") (.text "Text"), .remove (.text "n5"),
      .set (.text "n4") (.text "x") (.object [(.text "Number", .number .nan)])]
    let t := restored "Scene" s.root s.listed true
    let ids : IdSupply := ⟨IdSupply.numbered, 5⟩
    let ids' : IdSupply := ⟨fun k => IdSupply.numbered (k + 3), 2⟩
    let rs : List Request := [
      .add (.text "n4") (.text "E") (.text "Rectangle"), .rename (.text "n3") (.text "F"),
      .unset (.text "n6") (.text "color"), .remove (.text "n2"),
      .add (.text "n2") (.text "G") (.text "Text"), .add (.text "n1") (.text "H") (.text "Text")]
    s.Reachable ∧ t.Reachable ∧ s.toDocument = t.toDocument ∧ ids.Same ids' ∧
      s.IsServed ids rs ∧ t.IsServed ids' rs ∧
      (s.arena.keys, s.retired, s.revision) = (["n1", "n2", "n3", "n4"], ["n5"], 6) ∧
      (t.arena.keys, t.retired, t.revision) = (["n1", "n2", "n4", "n3"], [], 0) ∧
      (s.after ids rs).arena.keys = ["n1", "n3", "n7"] ∧
      List.Forall₂ (fun e e' => e.Matches s t e' ∧ e.scene.Agrees e'.scene ∧
        (s.bound = t.bound → e.announced = e'.announced)) (s.edits ids rs) (t.edits ids' rs) := by
  intro s t ids ids' rs
  have hcreated : (create (.text "Scene") (.text "Root") true ⟨IdSupply.numbered, 0⟩).1 =
      .ok (single (.text "Scene") "n1" (.text "Root") true) := rfl
  have hs : s.Reachable := (Reachable.built (.created hcreated)).after _ _
  have htextual : s.IsTextual := by decide +kernel
  have hname : s.name = .text "Scene" :=
    after_induction (P := (·.name = .text "Scene")) (fun h hn => by cases h <;> exact hn) rfl _ _
  have hloaded : (ofDocument s.toDocument (.text "Root") true ⟨IdSupply.numbered, 0⟩).1 = .ok t :=
    (ofDocument_eq_ok_iff (htextual.toDocument_isJson hs.wellFormed) rfl).mpr
      ⟨"Scene", s.root, s.listed, htextual.isSceneDocument hs.wellFormed hname, rfl⟩
  have ht : t.Reachable := .built (.loaded hloaded)
  have hdocument : s.toDocument = t.toDocument :=
    (restored_restores hs.wellFormed hname true).document.symm
  have hids : ids.Same ids' := by
    intro k
    simp only [ids, ids', show 2 + k + 3 = 5 + k by omega]
  have hserved : s.IsServed ids rs := by decide +kernel
  have hserved' : t.IsServed ids' rs := by decide +kernel
  refine ⟨hs, ht, hdocument, hids, hserved, hserved', ?_, ?_, ?_,
    (document_tells_all hs ht hdocument hids hserved hserved').2⟩ <;> decide +kernel

end Scene

end SceneEditor
