import SceneEditor.Proofs.Scene.Addition
import SceneEditor.Proofs.Session.SaveLoad

namespace SceneEditor

open Reading

theorem Node.id_of_ofDocument_toDocument {n m : Node} (h : Node.ofDocument n.toDocument = .ok m) :
    m.id = n.id := by
  simp only [ofDocument, bind_eq_ok_iff, pure_eq_ok_iff] at h
  obtain ⟨_, _, _, _, _, _, w, hid, id, htext, _, _, _, _, rfl⟩ := h
  obtain rfl : .text n.id = w := Except.ok.inj hid
  exact (Value.toText_eq_ok_iff.mp htext).2

namespace Scene

section InUse

variable {s t : Scene} {id : String} {answer : Answer} {a : Announcement}

theorem Step.isTaken_iff (h : s.Step answer a t) : t.isTaken id = true ↔
    s.isTaken id = true ∨ answer = .id (some id) := by
  cases h with
  | added _ _ =>
    simp only [Scene.isTaken_iff, contains_withNode, Answer.id.injEq, Option.some.injEq]
    tauto
  | @removed key _ _ _ =>
    -- What goes was there, and what goes is retired.
    have hwalk : id ∈ s.arena.walk key → s.arena.contains id = true :=
      fun hid => (Arena.mem_walk_iff.mp hid).1
    simp only [Scene.isTaken_iff, contains_withoutNodes, List.mem_append, reduceCtorEq, or_false]
    tauto
  | propertySet _ | propertyDropped _ _ | renamed _ =>
    simp only [Scene.isTaken_iff, contains_withChange, reduceCtorEq, or_false]

theorem isTaken_perform_iff (s : Scene) (ids : IdSupply) (r : Request) :
    (r.perform s ids).1.scene.isTaken id = true ↔
      s.isTaken id = true ∨ (r.perform s ids).1.given? = some id := by
  rcases r.perform_cases s ids with ⟨hf, hs, _⟩ | ⟨_, _, answer, a, hanswer, _, ht⟩
  · have hnone : (r.perform s ids).1.given? ≠ some id := by
      intro hg
      have hgiven := r.given ids hg
      rw [hs, hgiven.1] at hgiven
      cases hgiven.2
    rw [hs, or_iff_left hnone]
  · rw [ht.isTaken_iff, Edit.given?, hanswer]
    cases answer <;> simp

theorem isTaken_after_iff (s : Scene) (ids : IdSupply) (rs : List Request) :
    (s.after ids rs).isTaken id = true ↔ s.isTaken id = true ∨ id ∈ s.issued ids rs := by
  induction rs generalizing s ids with
  | nil => simp [after, issued, edits]
  | cons r rs ih =>
    rw [after, ih, isTaken_perform_iff, issued_cons, List.mem_append, Option.mem_toList, or_assoc]

end InUse

/-- A scene that is read from what another one was written as, at once or from a file. -/
inductive Reread (t r : Scene) : Prop
  | document {rootName : Value} {bound : Bool} {ids : IdSupply}
      (h : (ofDocument t.toDocument rootName bound ids).1 = .ok r)
  | file {rootName v : Value} {bound : Bool} {ids : IdSupply} {files files' : Files} {path : String}
      (ht : t.IsTextual) (hsaved : files.writeDocument path t.toDocument = (.ok (), files'))
      (hread : files'.readDocument path = .ok v) (h : (ofDocument v rootName bound ids).1 = .ok r)

section Reread

variable {s t r : Scene} {ids : IdSupply} {rs : List Request} {id : String}

theorem fieldsOf_toDocument {name root : String} {ns : List Node}
    (h : fieldsOf t.toDocument = .ok (name, root, ns)) :
    root = t.root ∧ ns.map Node.id = t.listed.map Node.id := by
  rw [toDocument_eq] at h
  simp only [fieldsOf, bind_eq_ok_iff, pure_eq_ok_iff] at h
  obtain ⟨_, _, _, _, w, hroot, root', htext, v, hnodes, items, hitems, ns', hread, hfields⟩ := h
  obtain rfl : .text t.root = w := Except.ok.inj hroot
  obtain rfl : t.root = root' := Except.ok.inj htext
  obtain rfl : .list (t.listed.map Node.toDocument) = v := Except.ok.inj hnodes
  obtain rfl : t.listed.map Node.toDocument = items := Except.ok.inj hitems
  obtain ⟨-, rfl, rfl⟩ := Prod.mk.inj hfields |>.imp_right Prod.mk.inj
  refine ⟨rfl, ?_⟩
  rw [mapM_eq_ok_iff, List.forall₂_map_left_iff] at hread
  rw [eq_comm, ← List.forall₂_eq_eq_eq, List.forall₂_map_left_iff, List.forall₂_map_right_iff]
  exact hread.imp fun n m hm => (Node.id_of_ofDocument_toDocument hm).symm

theorem contains_listed (h : t.WellFormed) (id : String) :
    t.arena.contains id = true ↔ id ∈ t.listed.map Node.id := by
  have hkeys := (isListing_listed h).once.map Prod.fst
  rw [List.map_map] at hkeys
  rw [Table.contains_eq_isSome, ← Table.mem_keys_iff]
  exact hkeys.mem_iff.symm

namespace Reread

theorem exists_ofDocument (h : t.Reread r) (ht : t.WellFormed) :
    ∃ rootName bound ids, (ofDocument t.toDocument rootName bound ids).1 = .ok r := by
  cases h with
  | document h => exact ⟨_, _, _, h⟩
  | @file rootName v bound ids files files' path htextual hsaved hread h =>
    have hback := Document.readsBack (htextual.toDocument_isLegible ht)
    cases hfile : Files.fileName path with
    | error e =>
      have hwrite : files.write path (.ok (Document.print 0 t.toDocument).text) = .error e := by
        rw [Files.write, hfile]
        rfl
      simp only [Files.writeDocument, hwrite] at hsaved
      cases hsaved
    | ok file =>
      obtain ⟨_, hsaved', hread'⟩ : ∃ files'', files.writeDocument path t.toDocument =
          (.ok (), files'') ∧ files''.readDocument path = .ok t.toDocument :=
        Files.writeDocument_of_fileName hfile hback
      obtain rfl := congrArg Prod.snd (hsaved.symm.trans hsaved')
      obtain rfl := Except.ok.inj (hread.symm.trans hread')
      exact ⟨_, _, _, h⟩

theorem built (h : t.Reread r) : r.Built := by
  cases h with
  | document h => exact .loaded h
  | file _ _ _ h => exact .loaded h

theorem retired_eq_nil (h : t.Reread r) : r.retired = [] := by
  cases h with
  | document h => exact (ofDocument_eq_ok h).2.1
  | file _ _ _ h => exact (ofDocument_eq_ok h).2.1

theorem contains_iff (h : t.Reread r) (ht : t.WellFormed) (id : String) :
    r.arena.contains id = true ↔ t.arena.contains id = true := by
  obtain ⟨rootName, bound, ids, hread⟩ := h.exists_ofDocument ht
  obtain ⟨name, root, ns, hfields, hnodup, _, harena⟩ := fields_of_ofDocument hread
  rw [contains_listed ht, ← (fieldsOf_toDocument hfields).2, Table.contains_eq_isSome,
    ← Table.mem_keys_iff, harena, Table.keys, Arena.entries_ofNodes hnodup, List.map_map]
  rfl

theorem isTaken_iff (h : t.Reread r) (ht : t.WellFormed) (id : String) :
    r.isTaken id = true ↔ t.arena.contains id = true := by
  rw [Scene.isTaken_iff, h.contains_iff ht, h.retired_eq_nil]
  simp

end Reread

theorem exists_reread (h : t.IsTextual) (ht : t.WellFormed) (rootName : Value) (bound : Bool)
    {fresh path file : String} (hids : ids.next.1 = .ok fresh) (files : Files)
    (hfile : Files.fileName path = .ok file) :
    ∃ files' v r, files.writeDocument path t.toDocument = (.ok (), files') ∧
      files'.readDocument path = .ok v ∧ (ofDocument v rootName bound ids).1 = .ok r ∧
      (ofDocument t.toDocument rootName bound ids).1 = .ok r := by
  have hback := Document.readsBack (h.toDocument_isLegible ht)
  obtain ⟨files', hsaved, hread⟩ : ∃ files', files.writeDocument path t.toDocument =
      (.ok (), files') ∧ files'.readDocument path = .ok t.toDocument :=
    Files.writeDocument_of_fileName hfile hback
  obtain ⟨r, hr, -⟩ := exists_ofDocument_toDocument h ht rootName bound hids
  exact ⟨files', _, r, hsaved, hread, hr, hr⟩

theorem answer_addNode_of_next {parent x : String} {type : Value} {kind : NodeType}
    (hparent : s.arena.contains parent = true) (hkind : type.Names kind)
    (hids : ids.next.1 = .ok x) (hnew : s.isTaken x = false) (name : Value) :
    (s.addNode (.text parent) name type ids).1.answer = .ok (some x) := by
  obtain ⟨n, hn⟩ := Arena.exists_of_contains hparent
  have hres : s.resolve (.text parent) = .ok (some (parent, n)) := by
    rw [resolve_text, hn]
    rfl
  have hoffered : ∀ id ∈ ids.next.1.toOption, s.isTaken id = false := by
    rw [hids]
    rintro id ⟨⟩
    exact hnew
  rw [addNode_of_new hres (NodeType.parse?_eq_some_iff_names.mpr hkind) hoffered, hids]
  rfl

theorem isTaken_eq_false_of_retired (h : s.WellFormed) (hid : id ∈ s.retired)
    (hr : s.Reread r) : r.isTaken id = false := by
  rw [← Bool.not_eq_true, hr.isTaken_iff h, h.retired id hid]
  exact Bool.false_ne_true

/-- What a scene has removed it does not give out again, for as long as it is kept. A scene that is
read from its document, at once or from a file, gives out neither what the nodes in the document
have nor anything twice, nor what it has removed itself. But what was removed before is new to it:
it gives that out as soon as it is offered. -/
theorem removed_until_reread (h : s.Reachable) (ids : IdSupply) (rs : List Request) :
    let t := s.after ids rs
    (∀ x ∈ s.removed ids rs ++ s.retired, ∀ ids' rs', x ∉ t.issued ids' rs') ∧
    ∀ r, t.Reread r →
      (∀ id, r.isTaken id = true ↔ t.arena.contains id = true) ∧
      ∀ ids' rs', let u := r.after ids' rs'
        ((r.issued ids' rs').Nodup ∧ ∀ x ∈ r.issued ids' rs', t.arena.contains x = false) ∧
        (∀ x ∈ r.removed ids' rs', ∀ ids'' rs'', x ∉ u.issued ids'' rs'') ∧
        ∀ x ∈ s.removed ids rs ++ s.retired, x ∉ r.issued ids' rs' →
          ∀ parent name type kind (ids'' : IdSupply), u.arena.contains parent = true →
            Value.Names type kind → ids''.next.1 = .ok x →
              (u.addNode (.text parent) name type ids'').1.answer = .ok (some x) := by
  intro t
  have ht : t.WellFormed := (h.after ids rs).wellFormed
  have hgone : ∀ x ∈ s.removed ids rs ++ s.retired, x ∈ t.retired := by
    intro x hx
    rcases List.mem_append.mp hx with hx | hx
    · exact retired_of_mem_removed hx
    · exact (precedes_after s ids rs).retired hx
  refine ⟨fun x hx => notMem_issued (Scene.isTaken_iff.mpr (.inr (hgone x hx))), fun r hr => ?_⟩
  refine ⟨hr.isTaken_iff ht, fun ids' rs' => ⟨⟨nodup_issued r ids' rs', ?_⟩, ?_, ?_⟩⟩
  · intro x hx
    rw [← Bool.not_eq_true, ← hr.isTaken_iff ht, (isTaken_of_mem_issued hx).1]
    exact Bool.false_ne_true
  · exact fun x hx =>
      notMem_issued (Scene.isTaken_iff.mpr (.inr (retired_of_mem_removed hx)))
  · intro x hx hnew parent name type kind ids'' hparent hkind hids
    apply answer_addNode_of_next hparent hkind hids
    rw [← Bool.not_eq_true, isTaken_after_iff,
      isTaken_eq_false_of_retired ht (hgone x hx) hr]
    exact not_or.mpr ⟨Bool.false_ne_true, hnew⟩

/-- A removed identifier that the supply offers again to the scene that was read: the scene that
removed it would refuse it. -/
theorem removed_given_again :
    let ids (k : Nat) : IdSupply :=
      ⟨(IdSupply.ofList ["r", "a", "t", "a", "b"] IdSupply.numbered).answer, k⟩
    let s := single (.text "Scene") "r" (.text "Root") true
    let add : Request := .add (.text "r") (.text "A") (.text "Container")
    let rs : List Request := [add, .remove (.text "a")]
    let t := s.after (ids 1) rs
    s.Reachable ∧ "a" ∈ s.removed (ids 1) rs ∧ t.issued (ids 3) [add] = ["b"] ∧
      ∃ files files' v r, (ofDocument t.toDocument (.text "Root") true (ids 2)).1 = .ok r ∧
        Files.writeDocument files "s" t.toDocument = (.ok (), files') ∧
        files'.readDocument "s" = .ok v ∧ (ofDocument v (.text "Root") true (ids 2)).1 = .ok r ∧
        t.Reread r ∧ r.issued (ids 3) [add] = ["a"] := by
  intro ids s add rs t
  have hcreated : (create (.text "Scene") (.text "Root") true (ids 0)).1 = .ok s := rfl
  have hs : s.Reachable := .built (.created hcreated)
  have htextual : t.IsTextual := by decide +kernel
  have hfile : Files.fileName "s" = .ok "s" := by cbv
  have hissued : ((ofDocument t.toDocument (.text "Root") true (ids 2)).1.map
      (·.issued (ids 3) [add])).toOption = some ["a"] := by decide +kernel
  have hids : (ids 2).next.1 = .ok "t" := rfl
  obtain ⟨files', v, r, hsaved, hread, hloaded, hr⟩ := exists_reread htextual
    (hs.after (ids 1) rs).wellFormed (.text "Root") true hids .empty hfile
  rw [hr] at hissued
  exact ⟨hs, by decide +kernel, by decide +kernel, .empty, files', v, r, hr, hsaved, hread, hloaded,
    .document hr, Option.some.inj hissued⟩

theorem removed_until_reread_of_two :
    let ids (k : Nat) : IdSupply := ⟨(IdSupply.ofList
      ["r", "a", "b", "t", "r", "c", "c", "a", "a", "b"] IdSupply.numbered).answer, k⟩
    let s := single (.text "Scene") "r" (.text "Root") true
    let add (parent : String) : Request := .add (.text parent) (.text "A") (.text "Container")
    let rs : List Request := [add "r", add "a", .remove (.text "a")]
    let t := s.after (ids 1) rs
    let rs' : List Request := [add "r", .remove (.text "c"), add "r"]
    s.Reachable ∧ s.removed (ids 1) rs = ["a", "b"] ∧
      (∀ x ∈ ["a", "b"], ∀ ids' rs', x ∉ t.issued ids' rs') ∧
      ∃ r, t.Reread r ∧ r.issued (ids 4) rs' = ["c", "a"] ∧
        (∀ ids'' rs'', "c" ∉ (r.after (ids 4) rs').issued ids'' rs'') ∧
        ((r.after (ids 4) rs').addNode (.text "r") (.text "A") (.text "Text") (ids 9)).1.answer =
          .ok (some "b") := by
  intro ids s add rs t rs'
  have hcreated : (create (.text "Scene") (.text "Root") true (ids 0)).1 = .ok s := rfl
  have hs : s.Reachable := .built (.created hcreated)
  have htextual : t.IsTextual := by decide +kernel
  have hremoved : s.removed (ids 1) rs = ["a", "b"] := by decide +kernel
  have hread : ((ofDocument t.toDocument (.text "Root") true (ids 3)).1.map fun r =>
      (r.issued (ids 4) rs', r.removed (ids 4) rs',
        (r.after (ids 4) rs').arena.contains "r")).toOption =
      some (["c", "a"], ["c"], true) := by decide +kernel
  have hids : (ids 3).next.1 = .ok "t" := rfl
  obtain ⟨r, hr, -⟩ := exists_ofDocument_toDocument htextual (hs.after (ids 1) rs).wellFormed
    (.text "Root") true hids
  rw [hr] at hread
  obtain ⟨hissued, hlost, hroot⟩ := Option.some.inj hread |> Prod.mk.inj |>.imp_right Prod.mk.inj
  obtain ⟨hkept, hreread⟩ := removed_until_reread hs (ids 1) rs
  obtain ⟨-, hrun⟩ := hreread r (.document hr)
  obtain ⟨-, hretired, hagain⟩ := hrun (ids 4) rs'
  rw [hremoved] at hkept hagain
  rw [hlost] at hretired
  refine ⟨hs, hremoved, fun x hx => hkept x (List.mem_append_left _ hx), r, .document hr, hissued,
    hretired "c" (List.mem_singleton_self _), ?_⟩
  have hnew : "b" ∉ r.issued (ids 4) rs' := by
    rw [hissued]
    decide
  exact hagain "b" (by simp) hnew "r" _ _ .text _ hroot (.inr (.inl rfl)) rfl

end Reread

end Scene

end SceneEditor
