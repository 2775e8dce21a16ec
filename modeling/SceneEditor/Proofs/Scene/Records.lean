import SceneEditor.Proofs.Scene.RoundTrip

namespace SceneEditor

def Value.idOf? : Value → Option (Option String)
  | null => some none
  | text id => some (some id)
  | _ => none

def Properties.ofRecord? : Value → Option Properties
  | .object es => some (Table.ofList (es.filterMap fun e =>
      (Property.decode e.2).toOption.map (e.1, ·)))
  | _ => none

/-- The node that a record is of. Unlike a document that is read into a scene, a record is taken as
it is: nothing may be missing, and nothing becomes text. -/
def Node.ofRecord? (v : Value) : Option Node := do
  let id ← (v.field? "id").bind Value.idOf?
  let name ← v.field? "name"
  let type ← (v.field? "node_type").bind NodeType.parse?
  let parent ← (v.field? "parent_id").bind Value.idOf?
  let children ← (v.field? "children").bind Node.idsOf?
  let properties ← (v.field? "properties").bind Properties.ofRecord?
  return ⟨← id, name, type, parent, children, properties⟩

def Arena.ofRecords (v : Value) : Arena :=
  match v.field? "nodes" with
  | some (.list vs) => .ofNodes (vs.filterMap Node.ofRecord?)
  | _ => .empty

theorem Value.idOf?_ofId? (id : Option String) : idOf? (ofId? id) = some id := by
  cases id <;> rfl

theorem Properties.ofRecord?_toDocument (ps : Properties) :
    ofRecord? ps.toDocument = some ps := by
  have hentry (e : Value × Property) :
      (Property.decode e.2.toDocument).toOption.map (e.1, ·) = some e := by
    rw [Property.decode_toDocument]
    rfl
  simp only [toDocument, ofRecord?, List.filterMap_map, Function.comp_def, hentry,
    List.filterMap_some, Table.ofList_entries]

theorem Node.ofRecord?_toDocument (n : Node) : ofRecord? n.toDocument = some n := by
  have hid : (n.toDocument.field? "id").bind Value.idOf? = some (some n.id) := rfl
  have hname : n.toDocument.field? "name" = some n.name := rfl
  have htype : (n.toDocument.field? "node_type").bind NodeType.parse? = some n.type :=
    NodeType.parse?_name n.type
  have hparent : (n.toDocument.field? "parent_id").bind Value.idOf? = some n.parent :=
    Value.idOf?_ofId? n.parent
  have hchildren : (n.toDocument.field? "children").bind idsOf? = some n.children :=
    idsOf?_eq_some_iff.mpr rfl
  have hproperties : (n.toDocument.field? "properties").bind Properties.ofRecord? =
      some n.properties := n.properties.ofRecord?_toDocument
  rw [ofRecord?, hid, hname, htype, hparent, hchildren, hproperties]
  rfl

theorem Arena.find?_ofRecords {s : Scene} (h : s.WellFormed) (id : String) :
    (ofRecords s.toDocument).find? id = s.arena.find? id := by
  have hnodes : s.toDocument.field? "nodes" = some (.list (s.listed.map Node.toDocument)) := by
    rw [Scene.toDocument_eq]
    rfl
  rw [ofRecords, hnodes]
  simp only [List.filterMap_map, Function.comp_def, Node.ofRecord?_toDocument,
    List.filterMap_some]
  exact (Scene.isListing_listed h).find?_ofNodes id

end SceneEditor
