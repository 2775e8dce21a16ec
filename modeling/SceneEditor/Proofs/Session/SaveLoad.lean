import Mathlib
import SceneEditor.Proofs.Document.ReadBack
import SceneEditor.Proofs.Scene.RoundTrip
import SceneEditor.Proofs.Session.Cache

namespace SceneEditor

namespace Files

variable {files : Files} {path file : String} {v : Value}

theorem writeDocument_of_fileName (hfile : fileName path = .ok file)
    (hv : Document.ReadsBack v) : ∃ files', files.writeDocument path v = (.ok (), files') ∧
      files'.readDocument path = .ok v := by
  have hwrite : files.write path (.ok (Document.print 0 v).text) =
      .ok ⟨files.table.insert file (.ok (Document.print 0 v).text)⟩ := by
    rw [write, hfile]
    rfl
  refine ⟨⟨files.table.insert file (.ok (Document.print 0 v).text)⟩, ?_, ?_⟩
  · simp only [writeDocument, hwrite, hv.complete]
  · have hread : (⟨files.table.insert file (.ok (Document.print 0 v).text)⟩ : Files).read path =
        .ok (Document.print 0 v).text := by
      rw [read, hfile]
      simp only [bind, Except.bind, Table.find?_insert_self]
      rfl
    rw [readDocument, hread]
    exact hv.parse_text

end Files

namespace Session

variable {η : Type}

theorem load_of_document (s : Session η) {files : Files} {path : String} {v : Value} {r : Scene}
    (hv : files.readDocument path = .ok v)
    (hr : (Scene.ofDocument v s.settings.rootName true s.ids).1 = .ok r) :
    (s.load files path).1 = .ok () ∧ (s.load files path).2.scene = r := by
  rcases hd : Scene.ofDocument v s.settings.rootName true s.ids with ⟨e | scene, ids⟩
  · rw [hd] at hr
    cases hr
  · rw [hd] at hr
    obtain rfl := Except.ok.inj hr
    simp only [load, hv, enterDocument, hd, true_and]
    exact scene_enter { s with ids := ids } scene

theorem load_save (s : Session η) (h : s.scene.IsTextual) (hs : s.scene.WellFormed)
    (hread : Document.ReadsBack s.scene.toDocument) (files : Files) {path file fresh : String}
    (hfile : Files.fileName path = .ok file) (hids : s.ids.next.1 = .ok fresh) :
    (s.save files path).1 = .ok () ∧
      ((s.save files path).2.2.load (s.save files path).2.1 path).1 = .ok () ∧
      ((s.save files path).2.2.load (s.save files path).2.1 path).2.scene.Restores s.scene := by
  obtain ⟨files', hwrite, hdocument⟩ := Files.writeDocument_of_fileName hfile hread
  have hsave : s.save files path = (.ok (), files', s.note [.saved s.scene.name path]) := by
    rw [save, hwrite]
  obtain ⟨r, hr, hrestores⟩ := Scene.exists_ofDocument_toDocument h hs s.settings.rootName true hids
  obtain ⟨hok, hscene⟩ := load_of_document (s.note [.saved s.scene.name path]) hdocument hr
  rw [hsave]
  exact ⟨rfl, hok, hscene ▸ hrestores⟩

end Session

/-- The document of a scene lists every node once, the root first and the others after their
parents. The scene that is read from it, at once or from a file that was saved, takes the place of
the scene. -/
theorem Scene.restored_round_trip {s : Scene} (h : s.Reachable) (ht : s.IsTextual) :
    (∃ ns, s.arena.IsListing s.root ns ∧ ns.length = s.count ∧
      s.toDocument.HasField "nodes" (.list (ns.map Node.toDocument))) ∧
    (∀ (rootName : Value) (bound : Bool) {ids : IdSupply} {fresh : String},
      ids.next.1 = .ok fresh →
        ∃ r, (ofDocument s.toDocument rootName bound ids).1 = .ok r ∧ r.Restores s) ∧
    ∀ {η : Type} (session : Session η) (files : Files) {path file fresh : String},
      session.scene = s → Files.fileName path = .ok file → session.ids.next.1 = .ok fresh →
        (session.save files path).1 = .ok () ∧
          ((session.save files path).2.2.load (session.save files path).2.1 path).1 = .ok () ∧
          ((session.save files path).2.2.load (session.save files path).2.1 path).2.scene.Restores
            s := by
  have hs := h.wellFormed
  refine ⟨⟨s.listed, isListing_listed hs, ?_, ?_⟩, ?_, ?_⟩
  · rw [← List.length_map (fun n : Node => (n.id, n)), (isListing_listed hs).once.length_eq]
    rfl
  · rw [toDocument_eq]
    exact ⟨_, rfl, by simp⟩
  · exact fun rootName bound ids fresh => exists_ofDocument_toDocument ht hs rootName bound
  · rintro η session files path file fresh rfl hfile hids
    have hread := Document.readsBack (ht.toDocument_isLegible hs)
    exact session.load_save ht hs hread files hfile hids

theorem Scene.restored_round_trip_of_doubles :
    let number (x : Number.Double) : Value := .object [(.text "Number", .number x)]
    let s := (single (.text "Scene") "n1" (.text "Root") true).after ⟨IdSupply.numbered, 1⟩ [
      .add (.text "n1") (.text "a\né😀") (.text "Rectangle"),
      .set (.text "n2") (.text "x") (number .nan),
      .set (.text "n2") (.text "y") (number (.zero true)),
      .set (.text "n2") (.text "width") (number (.infinity true)),
      .unset (.text "n2") (.text "height")]
    let session : Session Unit := {
      settings := {}, emitters := .builtin, ids := ⟨IdSupply.numbered, 2⟩, scenes := [s]
      current := 0, current_lt := Nat.one_pos, cache := none, bridge := .empty, snapshots := 0
      log := [] }
    let saved := session.save .empty "./s"
    s.Reachable ∧ s.IsTextual ∧ Files.fileName "./s" = .ok "s" ∧
      (∃ r, (ofDocument s.toDocument (.text "Root") true ⟨IdSupply.numbered, 2⟩).1 = .ok r ∧
        r.Restores s) ∧
      saved.1 = .ok () ∧ (saved.2.2.load saved.2.1 "./s").1 = .ok () ∧
      (saved.2.2.load saved.2.1 "./s").2.scene.Restores s := by
  intro number s session saved
  have hcreated : (create (.text "Scene") (.text "Root") true ⟨IdSupply.numbered, 0⟩).1 =
      .ok (single (.text "Scene") "n1" (.text "Root") true) := rfl
  have hs : s.Reachable := (Reachable.built (.created hcreated)).after _ _
  have htextual : s.IsTextual := by decide +kernel
  have hfile : Files.fileName "./s" = .ok "s" := by cbv
  obtain ⟨_, hread, hsave⟩ := restored_round_trip hs htextual
  exact ⟨hs, htextual, hfile, hread (.text "Root") true rfl,
    hsave session .empty rfl hfile rfl⟩

end SceneEditor
