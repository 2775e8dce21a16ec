import SceneEditor.Proofs.Scene.WellFormed

namespace SceneEditor

def Edit.given? (e : Edit Answer) : Option String :=
  match e.answer with
  | .ok (.id id) => id
  | _ => none

namespace Scene

variable {s t u : Scene} {id : String} {r : Request} {ids : IdSupply} {rs : List Request}

def issued (s : Scene) (ids : IdSupply) (rs : List Request) : List String :=
  (s.edits ids rs).filterMap Edit.given?

/-- The identifiers whose nodes were there before some request of a history and not after it. -/
def removed (s : Scene) (ids : IdSupply) : List Request → List String
  | [] => []
  | r :: rs => s.arena.keys.filter (fun id => !(r.perform s ids).1.scene.arena.contains id) ++
      (r.perform s ids).1.scene.removed (r.perform s ids).2 rs

structure Precedes (s t : Scene) : Prop where
  root_eq : t.root = s.root
  taken : ∀ {id}, s.isTaken id = true → t.isTaken id = true
  retired : ∀ {id}, id ∈ s.retired → id ∈ t.retired

namespace Precedes

theorem refl (s : Scene) : s.Precedes s := ⟨rfl, fun h => h, fun h => h⟩

theorem trans (h : s.Precedes t) (h' : t.Precedes u) : s.Precedes u where
  root_eq := h'.root_eq.trans h.root_eq
  taken hid := h'.taken (h.taken hid)
  retired hid := h'.retired (h.retired hid)

end Precedes

theorem isTaken_iff : s.isTaken id = true ↔ s.arena.contains id = true ∨ id ∈ s.retired := by
  simp [isTaken]

theorem contains_withChange (s : Scene) (id : String) (change : Node → Node) (key : String) :
    (s.withChange id change).contains key = s.arena.contains key := by
  simp [Table.contains_eq_isSome, find?_withChange]

theorem contains_withNode (s : Scene) (id : String) (name : Value) (type : NodeType)
    (parent key : String) : (s.withNode id name type parent).contains key = true ↔
      key = id ∨ s.arena.contains key = true := by
  by_cases hk : key = id <;> simp [Table.contains_eq_isSome, find?_withNode, hk]

theorem contains_withoutNodes (s : Scene) (id : String) (parent : Option String)
    (doomed : List String) (key : String) : (s.withoutNodes id parent doomed).contains key = true ↔
      key ∉ doomed ∧ s.arena.contains key = true := by
  by_cases hk : key ∈ doomed <;> simp [Table.contains_eq_isSome, find?_withoutNodes, hk]

namespace Step

variable {answer : Answer} {a : Announcement}

theorem precedes (h : s.Step answer a t) : s.Precedes t := by
  cases h with
  | added _ _ =>
    refine ⟨rfl, fun hid => ?_, fun hid => hid⟩
    simp only [isTaken_iff, contains_withNode] at hid ⊢
    tauto
  | removed _ _ =>
    refine ⟨rfl, fun hid => ?_, List.mem_append_right _⟩
    simp only [isTaken_iff, contains_withoutNodes, List.mem_append] at hid ⊢
    tauto
  | propertySet _ | propertyDropped _ _ | renamed _ =>
    refine ⟨rfl, fun hid => ?_, fun hid => hid⟩
    simpa only [isTaken_iff, contains_withChange] using hid

theorem given (h : s.Step (.id (some id)) a t) : s.isTaken id = false ∧ t.isTaken id = true := by
  cases h with
  | added _ hid =>
    refine ⟨hid, ?_⟩
    simp [isTaken_iff, contains_withNode]

theorem retired_of_removed (h : s.Step answer a t) (hs : s.arena.contains id = true)
    (ht : t.arena.contains id = false) : id ∈ t.retired := by
  cases h with
  | added _ _ =>
    rw [(contains_withNode ..).mpr (.inr hs)] at ht
    cases ht
  | removed _ _ =>
    apply List.mem_append_left
    by_contra hid
    rw [(contains_withoutNodes ..).mpr ⟨hid, hs⟩] at ht
    cases ht
  | propertySet _ | propertyDropped _ _ | renamed _ =>
    rw [contains_withChange, hs] at ht
    cases ht

end Step

end Scene

namespace Request

variable {s : Scene} {id : String} (r : Request) (ids : IdSupply)

theorem precedes (s : Scene) : s.Precedes (r.perform s ids).1.scene := by
  rcases r.perform_cases s ids with ⟨_, hs, _⟩ | ⟨_, _, _, _, _, _, ht⟩
  · rw [hs]
    exact .refl s
  · exact ht.precedes

theorem given (h : (r.perform s ids).1.given? = some id) :
    s.isTaken id = false ∧ (r.perform s ids).1.scene.isTaken id = true := by
  unfold Edit.given? at h
  split at h
  · next o ho =>
    subst h
    rcases r.perform_cases s ids with ⟨hf, _⟩ | ⟨_, _, answer, a, hanswer, _, ht⟩
    · simp [Edit.succeeded, ho, Answer.succeeded] at hf
    · rw [ho] at hanswer
      cases hanswer
      exact ht.given
  · cases h

theorem retired_of_removed (hs : s.arena.contains id = true)
    (ht : (r.perform s ids).1.scene.arena.contains id = false) :
    id ∈ (r.perform s ids).1.scene.retired := by
  rcases r.perform_cases s ids with ⟨_, hsame, _⟩ | ⟨_, _, _, _, _, _, hstep⟩
  · rw [hsame, hs] at ht
    cases ht
  · exact hstep.retired_of_removed hs ht

theorem arena_of_remove (h : ((remove (.text id)).perform s ids).1.succeeded = true) :
    ∃ parent, ((remove (.text id)).perform s ids).1.scene.arena =
      s.withoutNodes id parent (s.arena.walk id) := by
  have hkept (hno : id = s.root ∨ s.arena.find? id = none) : False := by
    obtain ⟨notices, hdeclined⟩ := Scene.removeNode_text_declined hno
    rw [perform, hdeclined] at h
    cases h
  cases hn : s.arena.find? id with
  | none => exact (hkept (.inr hn)).elim
  | some n =>
    have hroot : id ≠ s.root := fun hroot => hkept (.inl hroot)
    exact ⟨n.parent, by rw [perform, Scene.removeNode_text hn hroot]; rfl⟩

end Request

namespace Scene

variable {s t : Scene} {id : String} {ids : IdSupply} {rs : List Request}

theorem precedes_after (s : Scene) (ids : IdSupply) (rs : List Request) :
    s.Precedes (s.after ids rs) := by
  induction rs generalizing s ids with
  | nil => exact .refl s
  | cons r rs ih => exact (r.precedes ids s).trans (ih _ _)

theorem issued_cons (s : Scene) (ids : IdSupply) (r : Request) (rs : List Request) :
    s.issued ids (r :: rs) = (r.perform s ids).1.given?.toList ++
      (r.perform s ids).1.scene.issued (r.perform s ids).2 rs := by
  rw [issued, edits, List.filterMap_cons]
  cases (r.perform s ids).1.given? <;> rfl

theorem isTaken_of_mem_issued (h : id ∈ s.issued ids rs) :
    s.isTaken id = false ∧ (s.after ids rs).isTaken id = true := by
  induction rs generalizing s ids with
  | nil => cases h
  | cons r rs ih =>
    rw [issued_cons] at h
    rcases List.mem_append.mp h with h | h
    · obtain ⟨hnew, htaken⟩ := r.given ids (Option.mem_toList.mp h)
      exact ⟨hnew, (precedes_after _ _ rs).taken htaken⟩
    · obtain ⟨hnew, htaken⟩ := ih h
      refine ⟨?_, htaken⟩
      by_contra hold
      rw [(r.precedes ids s).taken (by simpa using hold)] at hnew
      cases hnew

theorem nodup_issued (s : Scene) (ids : IdSupply) (rs : List Request) :
    (s.issued ids rs).Nodup := by
  induction rs generalizing s ids with
  | nil => exact List.nodup_nil
  | cons r rs ih =>
    rw [issued_cons]
    cases hg : (r.perform s ids).1.given? with
    | none => exact ih _ _
    | some id =>
      apply List.nodup_cons.mpr
      refine ⟨fun hid => ?_, ih _ _⟩
      have hnew := (isTaken_of_mem_issued hid).1
      rw [(r.given ids hg).2] at hnew
      cases hnew

theorem retired_of_mem_removed (h : id ∈ s.removed ids rs) : id ∈ (s.after ids rs).retired := by
  induction rs generalizing s ids with
  | nil => cases h
  | cons r rs ih =>
    rw [removed] at h
    rcases List.mem_append.mp h with h | h
    · obtain ⟨hkey, hgone⟩ := List.mem_filter.mp h
      rw [Table.mem_keys_iff, ← Table.contains_eq_isSome] at hkey
      exact (precedes_after _ _ rs).retired (r.retired_of_removed ids hkey (by simpa using hgone))
    · exact ih h

theorem notMem_issued (h : s.isTaken id = true) (ids : IdSupply) (rs : List Request) :
    id ∉ s.issued ids rs := by
  intro hid
  rw [(isTaken_of_mem_issued hid).1] at h
  cases h

theorem WellFormed.contains_eq_false_of_removed (h : s.WellFormed)
    (hid : id ∈ s.removed ids rs) (ids' : IdSupply) (rs' : List Request) :
    ((s.after ids rs).after ids' rs').arena.contains id = false := by
  apply ((h.after ids rs).after ids' rs').retired
  exact (precedes_after _ ids' rs').retired (retired_of_mem_removed hid)

theorem mem_removed_of_reaches {x : String}
    (h : ((Request.remove (.text id)).perform s ids).1.succeeded = true)
    (hx : s.arena.contains x = true) (hr : s.arena.Reaches id x) :
    x ∈ s.removed ids [.remove (.text id)] := by
  obtain ⟨parent, harena⟩ := Request.arena_of_remove ids h
  rw [removed, removed, List.append_nil, List.mem_filter]
  constructor
  · rwa [Table.mem_keys_iff, ← Table.contains_eq_isSome]
  · have hdoomed : x ∈ s.arena.walk id := Arena.mem_walk_iff.mpr ⟨hx, hr⟩
    simp [harena, contains_eq_false_iff, find?_withoutNodes, hdoomed]

/-- No identifier is given to two nodes of a scene, whatever the supplies offer: those it was built
with and those that were given out since then are pairwise different. What is in use stays in use,
and a node that was removed, by itself or with a node above it, does not come back. -/
theorem identifiers_given_once (h : s.Built) (ids ids' : IdSupply) (rs rs' : List Request) :
    let t := s.after ids rs
    let u := t.after ids' rs'
    (u.root = s.root ∧ s.root ∈ s.arena.keys) ∧
    (s.arena.keys ++ (s.issued ids rs ++ t.issued ids' rs')).Nodup ∧
    (∀ id ∈ s.removed ids rs, id ∉ t.issued ids' rs' ∧ u.arena.contains id = false) ∧
    (∀ id, t.isTaken id = true → u.isTaken id = true) ∧
    (∀ id ∈ u.retired, u.arena.contains id = false) ∧
    ∀ id x, ((Request.remove (.text id)).perform t ids').1.succeeded = true →
      t.arena.contains x = true → t.arena.Reaches id x →
        (t.after ids' (.remove (.text id) :: rs')).arena.contains x = false := by
  intro t u
  have hs := h.wellFormed
  have hst : s.Precedes t := precedes_after s ids rs
  have htu : t.Precedes u := precedes_after t ids' rs'
  refine ⟨⟨htu.root_eq.trans hst.root_eq, ?_⟩, ?_, ?_, fun _ => htu.taken, ?_, ?_⟩
  · rw [Table.mem_keys_iff, ← Table.contains_eq_isSome]
    exact hs.tree.contains_root
  · have hkeys {id : String} (hid : id ∈ s.arena.keys) : s.isTaken id = true := by
      rw [Table.mem_keys_iff, ← Table.contains_eq_isSome] at hid
      exact isTaken_iff.mpr (.inl hid)
    simp only [List.nodup_append', List.disjoint_append_right]
    refine ⟨s.arena.nodup_keys, ⟨nodup_issued s ids rs, nodup_issued t ids' rs', ?_⟩, ?_, ?_⟩
    · exact fun id hid => notMem_issued (isTaken_of_mem_issued hid).2 ids' rs'
    · exact fun id hid => notMem_issued (hkeys hid) ids rs
    · exact fun id hid => notMem_issued (hst.taken (hkeys hid)) ids' rs'
  · intro id hid
    refine ⟨?_, hs.contains_eq_false_of_removed hid ids' rs'⟩
    apply notMem_issued
    exact isTaken_iff.mpr (.inr (retired_of_mem_removed hid))
  · exact ((hs.after ids rs).after ids' rs').retired
  · intro id x hok hx hr
    exact (hs.after ids rs).contains_eq_false_of_removed (mem_removed_of_reaches hok hx hr) ids' rs'

theorem identifiers_given_once_of_repeats :
    let s := single (.text "Scene") "r" (.text "Root") true
    let ids := IdSupply.ofList ["r", "a", "a", "r", "b"] IdSupply.numbered
    let rs : List Request := [
      .add (.text "r") (.text "A") (.text "Container"),
      .add (.text "a") (.text "B") (.text "Sprite"), .remove (.text "a")]
    let ids' := IdSupply.ofList ["b", "a", "r", "c", "c"] IdSupply.numbered
    let rs' : List Request := [
      .add (.text "r") (.text "C") (.text "Text"), .add (.text "c") (.text "D") (.text "Text")]
    let t := s.after ids rs
    let u := t.after ids' rs'
    s.Built ∧ s.issued ids rs = ["a", "b"] ∧ s.removed ids rs = ["a", "b"] ∧
      t.issued ids' rs' = ["c", "n1"] ∧
      (s.arena.keys ++ (s.issued ids rs ++ t.issued ids' rs')).Nodup ∧
      ∀ id ∈ s.removed ids rs, id ∉ t.issued ids' rs' ∧ u.arena.contains id = false := by
  intro s ids rs ids' rs' t u
  have hcreated : (create (.text "Scene") (.text "Root") true ids).1 = .ok s := rfl
  have hbuilt : s.Built := .created hcreated
  obtain ⟨_, hnodup, hremoved, _⟩ := identifiers_given_once hbuilt ids ids' rs rs'
  refine ⟨hbuilt, ?_, ?_, ?_, hnodup, hremoved⟩ <;> decide +kernel

end Scene

end SceneEditor
