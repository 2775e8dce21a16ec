import SceneEditor.Proofs.Scene.Addition
import SceneEditor.Proofs.Scene.PropertyStore
import SceneEditor.Proofs.Scene.Walks

namespace SceneEditor

/-- The edit has this answer, and keeps it when all there is to remark on it is put in writing. -/
structure Edit.Returns {α : Type} (e : Edit α) (answer : α) : Prop where
  answer_eq : e.answer = .ok answer
  notices : ∀ n ∈ e.notices, n.IsShowable
  written_eq : e.written = e

namespace Edit

variable {α : Type} {s : Scene} {answer : α}

theorem returns_declined {notices : List Notice} (h : ∀ n ∈ notices, n.IsShowable) :
    (declined s answer notices).Returns answer := ⟨rfl, h, written_of_isShowable h⟩

theorem returns_done {arena : Arena} {notices : List Notice} {a : Announcement}
    (h : ∀ n ∈ notices, n.IsShowable) : (done s arena answer notices a).Returns answer :=
  ⟨rfl, h, written_of_isShowable h⟩

end Edit

theorem Property.isShowable_of_decode {v : Value} {e : PropertyError}
    (he : decode v = .error (.property e)) (h : v.IsShowable) : ∀ w ∈ e.values, w.IsShowable :=
  fun _ hw => h.part (hasPart_of_mem_values he hw)

theorem IdSupply.Offers.exists_fresh {ids : IdSupply} {taken : String → Bool} {offer : Nat → String}
    {n : Nat} (h : ids.Offers n offer) : ∃ o ids', ids.fresh taken n = (.ok o, ids') := by
  by_cases htaken : ∀ k < n, taken (offer k) = true
  · exact ⟨none, _, h.fresh_of_taken htaken⟩
  · obtain ⟨k, hk, hfree, hbefore⟩ := exists_first htaken
    exact ⟨some (offer k), _, h.fresh_of_first hk hfree hbefore⟩

namespace Scene

variable {s : Scene} {id : String} {v type request : Value} {ids : IdSupply} {offer : Nat → String}

theorem exists_returns_addNode (s : Scene) (parent name : String) (htype : type.IsShowable)
    (hids : ids.Offers maxAttempts offer) :
    ∃ o, (s.addNode (.text parent) (.text name) type ids).1.Returns o := by
  rw [addNode, resolve_text]
  cases s.arena.find? parent with
  | none =>
    exact ⟨none, Edit.returns_declined
      (by simp [Notice.IsShowable, Notice.values])⟩
  | some n =>
    simp only [Option.map_some]
    cases NodeType.parse? type with
    | none => exact ⟨none, Edit.returns_declined (by simpa [Notice.IsShowable, Notice.values])⟩
    | some kind =>
      obtain ⟨o, ids', hfresh⟩ : ∃ o ids', ids.fresh s.isTaken maxAttempts = (.ok o, ids') :=
        hids.exists_fresh
      simp only [hfresh]
      cases o with
      | none => exact ⟨none, Edit.returns_declined (by simp [Notice.IsShowable, Notice.values])⟩
      | some id =>
        exact ⟨some id, Edit.returns_done
          (by simp [Notice.IsShowable, Notice.values])⟩

theorem returns_removeNode (s : Scene) (id : String) :
    (s.removeNode (.text id)).Returns (s.arena.contains id && decide (id ≠ s.root)) := by
  by_cases hroot : id = s.root
  · have hsame : (Value.text id == .text s.root) = true := by
      simpa [Value.sameKey_text] using hroot
    rw [removeNode, if_pos hsame, decide_eq_false (not_not.mpr hroot), Bool.and_false]
    exact Edit.returns_declined (by simp [Notice.IsShowable, Notice.values])
  · have hne : ¬ (Value.text id == .text s.root) = true := by
      simpa [Value.sameKey_text] using hroot
    rw [removeNode, if_neg hne, resolve_text, decide_eq_true hroot, Bool.and_true,
      Table.contains_eq_isSome]
    cases s.arena.find? id with
    | none =>
      exact Edit.returns_declined
        (by simp [Notice.IsShowable, Notice.values])
    | some n => exact Edit.returns_done (by simp [Notice.IsShowable, Notice.values])

theorem returns_removeProperty (s : Scene) (id key : String) :
    (s.removeProperty (.text id) (.text key)).Returns
      ((s.arena.find? id).any fun n => n.properties.contains (.text key)) := by
  cases hn : s.arena.find? id with
  | none =>
    rw [removeProperty, resolve_text, hn]
    exact Edit.returns_declined (List.forall_mem_nil _)
  | some n =>
    rw [removeProperty_text hn, Option.any_some]
    split
    · next hkey =>
      rw [hkey]
      exact Edit.returns_done (List.forall_mem_nil _)
    · next hkey =>
      rw [Bool.not_eq_true] at hkey
      rw [hkey]
      exact Edit.returns_declined (List.forall_mem_nil _)

theorem returns_renameNode (s : Scene) (id : String) (name : Value) :
    (s.renameNode (.text id) name).Returns (s.arena.contains id) := by
  rw [renameNode, resolve_text, Table.contains_eq_isSome]
  cases s.arena.find? id with
  | none => exact Edit.returns_declined (List.forall_mem_nil _)
  | some n => exact Edit.returns_done (List.forall_mem_nil _)

theorem returns_setProperty (s : Scene) (id key : String) (hv : v.IsShowable)
    (h : s.arena.contains id = false ∨ ∀ payload, v ≠ .property none payload) :
    (s.setProperty (.text id) (.text key) v).Returns
      (s.arena.contains id && (Property.decode v).isOk) := by
  rw [Table.contains_eq_isSome] at h ⊢
  cases hn : s.arena.find? id with
  | none =>
    rw [setProperty, resolve_text, hn]
    exact Edit.returns_declined (by simp [Notice.IsShowable, Notice.values])
  | some n =>
    rw [hn] at h
    rcases Property.decode_cases v with ⟨payload, hp⟩ | ⟨p, hp⟩ | ⟨e, hp⟩
    · exact absurd hp (h.resolve_left Bool.noConfusion payload)
    · rw [setProperty_text hn key hp, hp]
      exact Edit.returns_done (List.forall_mem_nil _)
    · have hdeclined : s.setProperty (.text id) (.text key) v =
          .declined s false [.notProperty id (.text key) e] := by
        rw [setProperty, resolve_text, hn]
        simp only [Option.map_some, hp]
      rw [hdeclined, hp]
      refine Edit.returns_declined fun notice hnotice w hw => ?_
      obtain rfl := List.mem_singleton.mp hnotice
      rcases List.mem_append.mp hw with hw | hw
      · exact Property.isShowable_of_decode hp hv w hw
      · rw [List.mem_singleton.mp hw]
        exact Value.isShowable_text key

theorem setProperty_of_kindless (key payload : Value) (h : s.arena.contains id = true) :
    s.setProperty (.text id) key (.property none payload) = .failed s .kindless := by
  obtain ⟨n, hn⟩ := Arena.exists_of_contains h
  rw [setProperty, resolve_text, hn]
  rfl

theorem getProperty_text (s : Scene) (id key : String) (default : Value)
    (hrequest : request.IsShowable) :
    (s.getProperty (.text id) (.text key) request default).1 =
      .ok (((PropertyKind.ofRequest? request).bind fun k => (s.arena.find? id).bind fun n =>
        n.payload? (.text key) k).getD default) := by
  cases hr : PropertyKind.ofRequest? request with
  | none =>
    rw [getProperty_of_no_kind s _ _ default hr, hrequest]
    rfl
  | some k =>
    rw [getProperty_of_request s _ _ default (PropertyKind.ofRequest?_eq_some_iff.mp hr)]
    cases hn : s.arena.find? id with
    | none =>
      simp only [getProperty.read, resolve_text, hn]
      rfl
    | some n => exact read_text hn rfl

theorem isShowable_of_getProperty (s : Scene) (id key default : Value)
    (hrequest : request.IsShowable) :
    ∀ n ∈ (s.getProperty id key request default).2, n.IsShowable := by
  cases hr : PropertyKind.ofRequest? request with
  | none =>
    rw [getProperty_of_no_kind s id key default hr, hrequest]
    simpa [Notice.IsShowable, Notice.values]
  | some k =>
    rw [getProperty_of_request s id key default (PropertyKind.ofRequest?_eq_some_iff.mp hr)]
    exact List.forall_mem_nil _

/-- Among values that can be put in writing there is one to which a scene has no answer: a property of
no kind that is handed over for a node makes the edit fail. Every other edit and every question has
an answer, and there is nothing to remark on it that cannot be written. A property is declined just
when the node is not there or the value is not read as a property. -/
theorem returns_unless_kindless (s : Scene) (id key name : String) (default : Value)
    (hv : v.IsShowable) (htype : type.IsShowable) (hrequest : request.IsShowable)
    (hids : ids.Offers maxAttempts offer) :
    (∃ o, (s.addNode (.text id) (.text name) type ids).1.Returns o) ∧
    (s.removeNode (.text id)).Returns (s.arena.contains id && decide (id ≠ s.root)) ∧
    (s.removeProperty (.text id) (.text key)).Returns
      ((s.arena.find? id).any fun n => n.properties.contains (.text key)) ∧
    (s.renameNode (.text id) (.text name)).Returns (s.arena.contains id) ∧
    (s.getNode (.text id) = .ok (s.arena.find? id) ∧
      s.contains (.text id) = .ok (s.arena.contains id) ∧
      s.childrenOf (.text id) = .ok (((s.arena.find? id).map Node.children).getD []) ∧
      s.subtree (.text id) = .ok (s.arena.walk id)) ∧
    ((s.getProperty (.text id) (.text key) request default).1 =
        .ok (((PropertyKind.ofRequest? request).bind fun k => (s.arena.find? id).bind fun n =>
          n.payload? (.text key) k).getD default) ∧
      ∀ n ∈ (s.getProperty (.text id) (.text key) request default).2, n.IsShowable) ∧
    (s.arena.contains id = true ∧ (∃ payload, v = .property none payload) ∧
        s.setProperty (.text id) (.text key) v = .failed s .kindless ∨
      (s.arena.contains id = false ∨ ∀ payload, v ≠ .property none payload) ∧
        (s.setProperty (.text id) (.text key) v).Returns
          (s.arena.contains id && (Property.decode v).isOk)) := by
  refine ⟨exists_returns_addNode s id name htype hids, returns_removeNode s id,
    returns_removeProperty s id key, returns_renameNode s id (.text name), ⟨?_, ?_, ?_,
    subtree_text s id⟩, ⟨getProperty_text s id key default hrequest,
    isShowable_of_getProperty s _ _ default hrequest⟩, ?_⟩
  · rw [getNode, resolve_text]
    cases s.arena.find? id <;> rfl
  · rw [Scene.contains, resolve_text, Table.contains_eq_isSome]
    cases s.arena.find? id <;> rfl
  · rw [childrenOf, resolve_text]
    cases s.arena.find? id <;> rfl
  · by_cases h : s.arena.contains id = false ∨ ∀ payload, v ≠ .property none payload
    · exact .inr ⟨h, returns_setProperty s id key hv h⟩
    · rw [not_or, Bool.not_eq_false, not_forall_not] at h
      obtain ⟨hid, payload, rfl⟩ := h
      exact .inl ⟨hid, ⟨payload, rfl⟩, setProperty_of_kindless (.text key) payload hid⟩

theorem setProperty_fails_of_kindless :
    let s := single (.text "Scene") "r" (.text "Root") true
    let v : Value := .property none (.whole 1)
    s.Reachable ∧ s.arena.contains "r" = true ∧ v.IsShowable ∧
      (s.setProperty (.text "r") (.text "x") v).answer = .error .kindless ∧
      Cause.kindless.family = .member := by
  intro s v
  have hcreated : (create (.text "Scene") (.text "Root") true ⟨fun _ => .ok "r", 0⟩).1 = .ok s :=
    rfl
  have hs : s.Reachable := .built (.created hcreated)
  have hv : v.IsShowable := by decide +kernel
  have hroot : s.arena.contains "r" = true := by decide +kernel
  exact ⟨hs, hroot, hv, congrArg Edit.answer (setProperty_of_kindless _ _ hroot), rfl⟩

theorem returns_unless_kindless_of_large :
    let s := single (.text "Scene") "r" (.text "Root") true
    let v : Value := .object [(.text "Color", .whole 0x100000000)]
    let type : Value := .list [.whole 1]
    let request : Value := .builtin .whole
    let ids : IdSupply := ⟨IdSupply.numbered, 0⟩
    v.IsShowable ∧ type.IsShowable ∧ request.IsShowable ∧
      ids.Offers maxAttempts (fun k => "n" ++ Value.wholeText (k + 1)) ∧
      (∃ o, (s.addNode (.text "r") (.text "A") type ids).1.Returns o) ∧
      (s.setProperty (.text "r") (.text "x") v).Returns false ∧
      (s.getProperty (.text "r") (.text "x") request .null).1 = .ok .null := by
  intro s v type request ids
  have hv : v.IsShowable := by decide +kernel
  have htype : type.IsShowable := by decide +kernel
  have hrequest : (Value.builtin .whole).IsShowable := rfl
  have hids : ids.Offers maxAttempts (fun k => "n" ++ Value.wholeText (k + 1)) := by
    intro k _
    simp only [ids, IdSupply.numbered, Nat.zero_add]
  obtain ⟨hadd, -, -, -, -, ⟨hread, -⟩, hset⟩ :=
    returns_unless_kindless s "r" "x" "A" .null hv htype hrequest hids
  refine ⟨hv, htype, hrequest, hids, hadd, ?_, hread⟩
  have hdeclined : (s.arena.contains "r" && (Property.decode v).isOk) = false := by
    decide +kernel
  rcases hset with ⟨-, ⟨payload, hp⟩, -⟩ | ⟨-, hset⟩
  · injection hp
  · rwa [hdeclined] at hset

end Scene

end SceneEditor
