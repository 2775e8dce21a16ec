import SceneEditor.Proofs.Program.Attempt
import SceneEditor.Proofs.Scene.Document
import SceneEditor.Proofs.Scene.WellFormed

namespace SceneEditor

open Reading

def PropertyKind.Holds : PropertyKind → Value → Prop
  | string, v => ∃ s, v = .text s
  | number, v => ∃ x, v = .number x
  | boolean, v => ∃ b, v = .flag b
  | color, v => ∃ i, v = .whole i ∧ 0 ≤ i ∧ i ≤ 0xffffffff

namespace Property

structure IsCanonical (p : Property) : Prop where
  payload : p.kind.Holds p.payload
  decode_toValue : decode p.toValue = .ok p
  decode_toDocument : decode p.toDocument = .ok p
  unpacks : ∀ c, p = .color c → p.payload.toColor = .ok c

/-- A property is a default, or was read from one of the values. -/
def HasSource (vs : List Value) (p : Property) : Prop :=
  (∃ type : NodeType, p ∈ type.defaults.values) ∨ ∃ v ∈ vs, decode v = .ok p

variable {p : Property} {vs ws : List Value}

theorem HasSource.mono (h : p.HasSource vs) (hsub : vs ⊆ ws) : p.HasSource ws :=
  h.imp_right fun ⟨v, hv, hp⟩ => ⟨v, hsub hv, hp⟩

theorem isCanonical (p : Property) : p.IsCanonical := by
  refine ⟨?_, ?_, p.decode_toDocument, ?_⟩
  · cases p with
    | string s => exact ⟨s, rfl⟩
    | number x => exact ⟨x, rfl⟩
    | boolean b => exact ⟨b, rfl⟩
    | color c =>
      have hlt := c.packed.toNat_lt
      refine ⟨c.toNat, rfl, Int.natCast_nonneg _, ?_⟩
      rw [Color.toNat]
      omega
  · cases p with
    | color c =>
      simp [toValue, decode, kind, payload, ofPayload, Color.ofInt?_toNat, Except.mapError]
    | _ => rfl
  · rintro c rfl
    change Value.toColor (.whole c.toNat) = _
    rw [Value.toColor, Value.toWhole, bind_eq_ok_iff]
    exact ⟨_, rfl, by rw [Color.ofInt?_toNat]; rfl⟩

end Property

def Arena.Stores (a : Arena) (p : Property) : Prop :=
  ∃ id n, a.find? id = some n ∧ p ∈ n.properties.values

namespace Scene

variable {s : Scene} {id : String} {p : Property}

theorem stores_withNode {name : Value} {type : NodeType} {parent : String}
    (h : (s.withNode id name type parent).Stores p) :
    s.arena.Stores p ∨ p ∈ type.defaults.values := by
  obtain ⟨key, n, hn, hp⟩ := h
  rw [find?_withNode] at hn
  split at hn
  · cases hn
    exact .inr hp
  · obtain ⟨m, hm, rfl⟩ := Option.map_eq_some_iff.mp hn
    refine .inl ⟨key, m, hm, ?_⟩
    split at hp <;> exact hp

theorem stores_withoutNodes {parent : Option String} {doomed : List String}
    (h : (s.withoutNodes id parent doomed).Stores p) : s.arena.Stores p := by
  obtain ⟨key, n, hn, hp⟩ := h
  rw [find?_withoutNodes] at hn
  split at hn
  · cases hn
  · obtain ⟨m, hm, rfl⟩ := Option.map_eq_some_iff.mp hn
    refine ⟨key, m, hm, ?_⟩
    split at hp <;> exact hp

theorem stores_withChange {change : Node → Node} (h : (s.withChange id change).Stores p) :
    s.arena.Stores p ∨ ∃ n, s.arena.find? id = some n ∧ p ∈ (change n).properties.values := by
  obtain ⟨key, n, hn, hp⟩ := h
  rw [find?_withChange] at hn
  obtain ⟨m, hm, rfl⟩ := Option.map_eq_some_iff.mp hn
  split at hp
  · next hkey =>
    subst hkey
    exact .inr ⟨m, hm, hp⟩
  · exact .inl ⟨key, m, hm, hp⟩

variable {ids : IdSupply}

theorem stores_addNode {parent name type : Value}
    (h : (s.addNode parent name type ids).1.scene.arena.Stores p) :
    s.arena.Stores p ∨ ∃ type : NodeType, p ∈ type.defaults.values := by
  unfold addNode at h
  split at h
  · exact .inl h
  · exact .inl h
  · split at h
    · exact .inl h
    · split at h
      · exact .inl h
      · exact .inl h
      · exact (stores_withNode h).imp_right fun hp => ⟨_, hp⟩

theorem stores_removeNode {id : Value} (h : (s.removeNode id).scene.arena.Stores p) :
    s.arena.Stores p := by
  unfold removeNode at h
  split at h
  · exact h
  · split at h
    · exact h
    · exact h
    · exact stores_withoutNodes h

theorem stores_setProperty {id key v : Value}
    (h : (s.setProperty id key v).scene.arena.Stores p) :
    s.arena.Stores p ∨ Property.decode v = .ok p := by
  unfold setProperty at h
  split at h
  · exact .inl h
  · exact .inl h
  · split at h
    · exact .inl h
    · exact .inl h
    · next q hq =>
      split at h
      · exact .inl h
      · rcases stores_withChange h with h | ⟨n, hn, hp⟩
        · exact .inl h
        · obtain ⟨e, he, rfl⟩ := List.mem_map.mp hp
          rcases Table.snd_eq_or_mem_of_mem_insert he with heq | he
          · rw [heq]
            exact .inr hq
          · exact .inl ⟨_, n, hn, List.mem_map_of_mem he⟩

theorem stores_removeProperty {id key : Value}
    (h : (s.removeProperty id key).scene.arena.Stores p) : s.arena.Stores p := by
  unfold removeProperty at h
  split at h
  · exact h
  · exact h
  · split at h
    · exact h
    · split at h
      · rcases stores_withChange h with h | ⟨n, hn, hp⟩
        · exact h
        · obtain ⟨e, he, rfl⟩ := List.mem_map.mp hp
          exact ⟨_, n, hn, List.mem_map_of_mem (List.mem_filter.mp he).1⟩
      · exact h

theorem stores_renameNode {id name : Value}
    (h : (s.renameNode id name).scene.arena.Stores p) : s.arena.Stores p := by
  unfold renameNode at h
  split at h
  · exact h
  · exact h
  · rcases stores_withChange h with h | ⟨n, hn, hp⟩
    · exact h
    · exact ⟨_, n, hn, hp⟩

end Scene

theorem Value.field?_of_field {v w : Value} {name : String} (h : v.field name = .ok w) :
    v.field? name = some w := by
  unfold field at h
  split at h
  · split at h
    · next hlookup =>
      cases h
      exact hlookup
    · cases h
  · cases h

theorem Value.items?_of_items {v : Value} {vs : List Value} (h : v.items = .ok vs) :
    v.items? = some vs := by
  unfold items at h
  split at h
  · next hitems =>
    cases h
    exact hitems
  · cases h

def Request.value? : Request → Option Value
  | set _ _ v => some v
  | _ => none

theorem Request.hasSource {r : Request} {s : Scene} {ids : IdSupply} {vs : List Value}
    (hs : ∀ p, s.arena.Stores p → p.HasSource vs) (p : Property)
    (h : (r.perform s ids).1.scene.arena.Stores p) : p.HasSource (vs ++ r.value?.toList) := by
  have hold (hp : s.arena.Stores p) : p.HasSource (vs ++ r.value?.toList) :=
    (hs p hp).mono (List.subset_append_left _ _)
  cases r with
  | add parent name type => exact (Scene.stores_addNode h).elim hold .inl
  | remove id => exact hold (Scene.stores_removeNode h)
  | set id key v =>
    refine (Scene.stores_setProperty h).elim hold fun hv => .inr ⟨v, ?_, hv⟩
    exact List.mem_append_right _ (List.mem_singleton_self v)
  | unset id key => exact hold (Scene.stores_removeProperty h)
  | rename id name => exact hold (Scene.stores_renameNode h)

def Node.propertyValues (v : Value) : List Value :=
  (((v.field? "properties").getD (.object [])).toTable.toOption.map Table.values).getD []

def Scene.propertyValues (v : Value) : List Value :=
  (((v.field? "nodes").bind Value.items?).getD []).flatMap Node.propertyValues

/-- A scene with a text for its name and the values it was built with: none for a fresh one, and
what the document lists for one that was read. -/
inductive Scene.MadeFrom : Scene → List Value → Prop
  | created {name : String} {rootName : Value} {bound : Bool} {ids : IdSupply} {s : Scene}
      (h : (create (.text name) rootName bound ids).1 = .ok s) : MadeFrom s []
  | loaded {v rootName : Value} {bound : Bool} {ids : IdSupply} {s : Scene}
      (h : (ofDocument v rootName bound ids).1 = .ok s) : MadeFrom s (propertyValues v)

theorem Node.exists_decode_of_ofDocument {v : Value} {n : Node} {p : Property}
    (h : ofDocument v = .ok n) (hp : p ∈ n.properties.values) :
    ∃ w ∈ propertyValues v, Property.decode w = .ok p := by
  simp only [ofDocument, bind_eq_ok_iff, pure_eq_ok_iff] at h
  obtain ⟨_, _, _, _, _, _, _, _, _, _, _, _, ps, hps, rfl⟩ := h
  simp only [propertiesOf, bind_eq_ok_iff, readProperties_eq_ok_iff] at hps
  obtain ⟨t, ht, ds, hds, rfl⟩ := hps
  obtain ⟨e, he, rfl⟩ := List.mem_map.mp hp
  obtain ⟨d, hd, hde⟩ := Table.exists_of_mem_ofList he
  obtain ⟨x, hx, _, hdecode⟩ := exists_left_of_forall₂ hds hd
  refine ⟨x.2, ?_, hde ▸ hdecode⟩
  rw [propertyValues, ht]
  exact List.mem_map_of_mem hx

namespace Scene

variable {s : Scene} {vs : List Value} {p : Property}

theorem exists_node_of_fieldsOf {v : Value} {name root : String} {ns : List Node} {n : Node}
    (h : fieldsOf v = .ok (name, root, ns)) (hn : n ∈ ns) :
    ∃ w ∈ ((v.field? "nodes").bind Value.items?).getD [], Node.ofDocument w = .ok n := by
  simp only [fieldsOf, bind_eq_ok_iff, pure_eq_ok_iff, mapM_eq_ok_iff] at h
  obtain ⟨_, _, _, _, _, _, _, _, w, hw, ws, hws, ns, hns, hfields⟩ := h
  obtain ⟨-, -, rfl⟩ := Prod.mk.inj hfields |>.imp_right Prod.mk.inj
  obtain ⟨u, hu, hun⟩ := exists_left_of_forall₂ hns hn
  refine ⟨u, ?_, hun⟩
  rwa [Value.field?_of_field hw, Option.bind_some, Value.items?_of_items hws]

theorem MadeFrom.hasSource (h : s.MadeFrom vs) (p : Property) (hp : s.arena.Stores p) :
    p.HasSource vs := by
  cases h with
  | created h =>
    obtain ⟨root, rfl⟩ := create_eq_ok h
    obtain ⟨id, n, hn, hpn⟩ := hp
    cases List.mem_singleton.mp (Table.mem_entries_iff.mpr hn)
    exact .inl ⟨_, hpn⟩
  | @loaded v _ _ _ _ h =>
    obtain ⟨name, root, ns, hfields, _, _, harena⟩ := fields_of_ofDocument h
    obtain ⟨id, n, hn, hpn⟩ := hp
    rw [harena] at hn
    obtain ⟨e, he, hen⟩ := Table.exists_of_mem_ofList (Table.mem_entries_iff.mpr hn)
    obtain ⟨m, hm, rfl⟩ := List.mem_map.mp he
    obtain rfl : m = n := hen
    obtain ⟨w, hw, hwn⟩ := exists_node_of_fieldsOf hfields hm
    obtain ⟨u, hu, hup⟩ := Node.exists_decode_of_ofDocument hwn hpn
    exact .inr ⟨u, List.mem_flatMap_of_mem hw hu, hup⟩

theorem hasSource_after {ids : IdSupply} {rs : List Request}
    (hs : ∀ p, s.arena.Stores p → p.HasSource vs) (p : Property)
    (hp : (s.after ids rs).arena.Stores p) : p.HasSource (vs ++ rs.filterMap Request.value?) := by
  induction rs generalizing s ids vs with
  | nil => exact (hs p hp).mono (List.subset_append_left _ _)
  | cons r rs ih =>
    have hrest := ih (Request.hasSource hs) hp
    have hvalues : (r :: rs).filterMap Request.value? =
        r.value?.toList ++ rs.filterMap Request.value? := by
      rw [List.filterMap_cons]
      cases r.value? <;> rfl
    rwa [hvalues, ← List.append_assoc]

theorem MadeFrom.isShowable_name (h : s.MadeFrom vs) : s.name.IsShowable := by
  cases h with
  | created h =>
    obtain ⟨root, rfl⟩ := create_eq_ok h
    exact Value.isShowable_text _
  | loaded h =>
    obtain ⟨x, _, _, _, _, hname, _⟩ := fields_of_ofDocument h
    rw [hname]
    exact Value.isShowable_text _

/-- Whatever is asked of a scene, each of its properties is a default or was read from a value that
the scene was built with or asked to store. By its type alone it has a payload of its kind, and is
read as the same property again. Writing the program never fails, and names the effective colours of
rectangles in eight hexadecimal digits. -/
theorem stored_properties_canonical (h : s.MadeFrom vs) (ids : IdSupply) (rs : List Request) :
    let t := s.after ids rs
    (∀ p, t.arena.Stores p →
      p.HasSource (vs ++ rs.filterMap Request.value?) ∧ p.IsCanonical) ∧
    (∀ l k, Program.tryGenerate l (t.snapshot k) =
      .ok (Program.generate .builtin l (t.snapshot k))) ∧
    ∀ id n, t.arena.find? id = some n → n.type = .rectangle → ∃ c digits,
      n.effective "color" (.color .opaqueWhite) = .color c ∧ c.SpelledBy digits ∧
      (Registry.builtin.emitterFor n.type).emit n = some ("rect!(" ++ Emitter.box n ++
        ", color = " ++ ("0x" ++ String.ofList digits) ++ ", border_radius = " ++
        (Emitter.number n "border_radius" (Number.Binary.ofInt 0)).positional ++ ");") := by
  intro t
  have hname : (t.snapshot 0).name.IsShowable :=
    after_induction (P := (·.name.IsShowable)) (fun h hn => by cases h <;> exact hn)
      h.isShowable_name ids rs
  refine ⟨fun p hp => ⟨hasSource_after h.hasSource p hp, p.isCanonical⟩,
    fun l k => Program.tryGenerate_eq l (s := t.snapshot k) hname, ?_⟩
  intro id n _ htype
  obtain ⟨c, digits, hc, hdigits, hrectangle⟩ := Emitter.rectangle_spells_color n
  refine ⟨c, digits, hc, hdigits, ?_⟩
  rw [htype, ← hrectangle]
  rfl

theorem stored_properties_canonical_of_unchecked :
    let s := single (.text "Scene") "n1" (.text "Root") true
    let ids : IdSupply := ⟨IdSupply.numbered, 1⟩
    let set (key : String) (kind : PropertyKind) (payload : Value) : Request :=
      .set (.text "n2") (.text key) (.property (some kind) payload)
    let rs : List Request := [
      .add (.text "n1") (.text "A") (.text "Rectangle"),
      set "color" .color (.whole 0x800affff), set "color" .color (.whole (-1)),
      set "color" .color (.whole 0x100000000), set "label" .string (.whole 5),
      set "label" .boolean (.whole 1), set "x" .number (.text "7")]
    let t := s.after ids rs
    s.MadeFrom [] ∧
      (s.edits ids rs).map Edit.succeeded = [true, true, false, false, false, false, false] ∧
      Program.tryGenerate {} (t.snapshot 0) = .ok ("turbo::go! \x7b\n    rect!(x = 0, y = 0, " ++
        "w = 100, h = 100, color = 0x800AFFFF, border_radius = 0);\n\x7d\n") ∧
      ∀ p, t.arena.Stores p → p.HasSource (rs.filterMap Request.value?) ∧ p.IsCanonical := by
  intro s ids set rs t
  have hcreated : (create (.text "Scene") (.text "Root") true ⟨IdSupply.numbered, 0⟩).1 = .ok s :=
    rfl
  have hs : s.MadeFrom [] := .created hcreated
  obtain ⟨hstored, hprogram, _⟩ := stored_properties_canonical hs ids rs
  have hgenerate : Program.generate .builtin {} (t.snapshot 0) = "turbo::go! \x7b\n    " ++
      "rect!(x = 0, y = 0, w = 100, h = 100, color = 0x800AFFFF, border_radius = 0);\n\x7d\n" := by
    decide +kernel
  refine ⟨hs, by decide +kernel, ?_, hstored⟩
  rw [hprogram, hgenerate]
  rfl

end Scene

end SceneEditor
