import Mathlib.Data.List.Nodup
import SceneEditor.Node.Document
import SceneEditor.Proofs.Property.Refusals
import SceneEditor.Proofs.Table

namespace SceneEditor

open Reading

def Property.IsReadFrom (e : Value × Value) (q : Value × Property) : Prop :=
  (∃ key, e.1.toText = .ok key ∧ q.1 = .text key) ∧ Property.decode e.2 = .ok q.2

/-- Properties are read one by one from a table; what becomes one key is one property. -/
def Properties.AreReadFrom (ps : Properties) (t : Table Value Value) : Prop :=
  ∃ qs, List.Forall₂ Property.IsReadFrom t.entries qs ∧ ps = Table.ofList qs

/-- What a document says of a node. It has to name the type in one of its two spellings, and the
identifier; what else it says has to be of the right form. Identifiers, names and keys may be any
values that can be put in writing. -/
structure Value.Describes (v : Value) (n : Node) : Prop where
  type : ∃ s, v.HasField "node_type" (.text s) ∧ (s = n.type.name ∨ s = n.type.label)
  id : ∃ w, v.HasField "id" w ∧ w.toText = .ok n.id
  name : (∃ w name, v.HasField "name" w ∧ w.toText = .ok name ∧ n.name = .text name) ∨
    v.LacksField "name" ∧ n.name = .text ""
  children : v.HasField "children" (Value.ofIds n.children) ∨
    v.LacksField "children" ∧ n.children = []
  parent : v.HasField "parent_id" (Value.ofId? n.parent) ∨
    v.LacksField "parent_id" ∧ n.parent = none
  properties : (∃ w ps, v.HasField "properties" w ∧ w.Lists ps ∧
      n.properties.AreReadFrom (Table.ofList ps)) ∨
    v.LacksField "properties" ∧ n.properties = .empty

theorem NodeType.ofName?_eq_some_iff {s : String} {t : NodeType} :
    NodeType.ofName? s = some t ↔ s = t.name ∨ s = t.label := by
  constructor
  · intro h
    have hs := List.find?_some h
    rw [Bool.or_eq_true, beq_iff_eq, beq_iff_eq] at hs
    exact hs.imp Eq.symm Eq.symm
  · rintro (rfl | rfl) <;> cases t <;> rfl

theorem NodeType.parse?_eq_some_iff {v : Value} (hv : v.IsJson) {t : NodeType} :
    NodeType.parse? v = some t ↔ ∃ s, v = .text s ∧ (s = t.name ∨ s = t.label) := by
  cases hv <;> simp [NodeType.parse?, NodeType.ofName?_eq_some_iff]

theorem NodeType.parse?_name (t : NodeType) : NodeType.parse? (.text t.name) = some t :=
  NodeType.ofName?_eq_some_iff.mpr (.inl rfl)

namespace Node

variable {v : Value}

theorem typeOf_eq_ok_iff (hv : v.IsJson) {t : NodeType} : typeOf v = .ok t ↔
    ∃ s, v.HasField "node_type" (.text s) ∧ (s = t.name ∨ s = t.label) := by
  simp only [typeOf, bind_eq_ok_iff, Value.field_eq_ok_iff hv]
  constructor
  · rintro ⟨w, hw, h⟩
    split at h
    · next t' ht =>
      obtain rfl := Except.ok.inj h
      obtain ⟨s, rfl, hs⟩ := (NodeType.parse?_eq_some_iff (hv.field hw)).mp ht
      exact ⟨s, hw, hs⟩
    · cases h
  · rintro ⟨s, hw, hs⟩
    refine ⟨_, hw, ?_⟩
    rw [(NodeType.parse?_eq_some_iff (.text s)).mpr ⟨s, rfl, hs⟩]

theorem idsOf?_cons_text (s : String) (vs : List Value) :
    idsOf? (.list (.text s :: vs)) = (idsOf? (.list vs)).map (s :: ·) := by
  simp only [idsOf?, List.mapM_cons, Option.map_eq_bind]
  rfl

theorem idsOf?_eq_some_iff {ids : List String} : idsOf? v = some ids ↔ v = Value.ofIds ids := by
  cases v with
  | list vs =>
    induction vs generalizing ids with
    | nil => cases ids <;> simp [idsOf?, Value.ofIds]
    | cons w vs ih =>
      cases w with
      | text s =>
        rw [idsOf?_cons_text]
        cases ids <;> simp [ih, Value.ofIds, and_comm]
      | _ => cases ids <;> simp [idsOf?, Value.ofIds]
  | _ => simp [idsOf?, Value.ofIds]

theorem childrenOf_eq_ok_iff (hv : v.IsJson) {ids : List String} : childrenOf v = .ok ids ↔
    v.HasField "children" (Value.ofIds ids) ∨ v.LacksField "children" ∧ ids = [] := by
  have hread : childrenOf v = .ok ids ↔
      (v.field? "children").getD (.list []) = Value.ofIds ids := by
    rw [← idsOf?_eq_some_iff, childrenOf]
    cases idsOf? ((v.field? "children").getD (.list [])) <;> simp
  rw [hread, ← Value.field?_eq_some_iff hv, ← Value.field?_eq_none_iff hv]
  cases v.field? "children" with
  | none => cases ids <;> simp [Value.ofIds]
  | some w => simp

theorem parentOf_eq_ok_iff (hv : v.IsJson) {parent : Option String} : parentOf v = .ok parent ↔
    v.HasField "parent_id" (Value.ofId? parent) ∨ v.LacksField "parent_id" ∧ parent = none := by
  rw [← Value.field?_eq_some_iff hv, ← Value.field?_eq_none_iff hv, parentOf]
  cases v.field? "parent_id" with
  | none => simp [eq_comm]
  | some w => cases w <;> cases parent <;> simp [Value.ofId?]

theorem readProperties_eq_ok_iff {ps qs : Properties} {es : List (Value × Value)} :
    readProperties ps es = .ok qs ↔ ∃ ds, List.Forall₂ Property.IsReadFrom es ds ∧
      qs = ds.foldl (fun t d => t.insert d.1 d.2) ps := by
  induction es generalizing ps with
  | nil => simp [readProperties, eq_comm]
  | cons e es ih =>
    simp only [readProperties, bind_eq_ok_iff, ih, List.forall₂_cons_left_iff]
    constructor
    · rintro ⟨key, hkey, p, hp, ds, hds, rfl⟩
      exact ⟨(.text key, p) :: ds, ⟨_, ds, ⟨⟨key, hkey, rfl⟩, hp⟩, hds, rfl⟩, rfl⟩
    · rintro ⟨_, ⟨⟨_, p⟩, ds, ⟨⟨key, hkey, rfl⟩, hp⟩, hds, rfl⟩, rfl⟩
      exact ⟨key, hkey, p, hp, ds, hds, rfl⟩

theorem propertiesOf_eq_ok_iff (hv : v.IsJson) {ps : Properties} : propertiesOf v = .ok ps ↔
    (∃ w qs, v.HasField "properties" w ∧ w.Lists qs ∧ ps.AreReadFrom (Table.ofList qs)) ∨
      v.LacksField "properties" ∧ ps = .empty := by
  have hread : propertiesOf v = .ok ps ↔
      ∃ qs, ((v.field? "properties").getD (.object [])).Lists qs ∧
        ps.AreReadFrom (Table.ofList qs) := by
    simp only [propertiesOf, bind_eq_ok_iff, Value.toTable_eq_ok_iff, readProperties_eq_ok_iff]
    constructor
    · rintro ⟨t, ⟨qs, hqs, rfl⟩, h⟩
      exact ⟨qs, hqs, h⟩
    · rintro ⟨qs, hqs, h⟩
      exact ⟨_, ⟨qs, hqs, rfl⟩, h⟩
  rw [hread, ← Value.field?_eq_none_iff hv]
  simp only [← Value.field?_eq_some_iff hv]
  cases v.field? "properties" with
  | none =>
    have hempty (qs : List (Value × Value)) : (Value.object []).Lists qs ↔ qs = [] := by
      constructor
      · intro h
        cases h with
        | object => rfl
        | pairs hno => exact absurd rfl (hno [])
      · rintro rfl
        exact .object []
    simp [hempty, Properties.AreReadFrom, Table.ofList, Table.empty]
  | some w => simp

theorem ofDocument_eq_ok_iff (hv : v.IsJson) {n : Node} :
    ofDocument v = .ok n ↔ v.Describes n := by
  have hname (s : Value) :
      (∃ name, ((v.field? "name").getD (.text "")).toText = .ok name ∧ s = .text name) ↔
        (∃ w name, v.HasField "name" w ∧ w.toText = .ok name ∧ s = .text name) ∨
          v.LacksField "name" ∧ s = .text "" := by
    rw [← Value.field?_eq_none_iff hv]
    simp only [← Value.field?_eq_some_iff hv]
    cases v.field? "name" <;> simp [eq_comm]
  simp only [ofDocument, bind_eq_ok_iff, pure_eq_ok_iff, typeOf_eq_ok_iff hv,
    childrenOf_eq_ok_iff hv, parentOf_eq_ok_iff hv, Value.field_eq_ok_iff hv,
    propertiesOf_eq_ok_iff hv]
  constructor
  · rintro ⟨type, htype, children, hchildren, parent, hparent, w, hid, id, hw, name, hnamed, ps,
      hps, rfl⟩
    exact ⟨htype, ⟨w, hid, hw⟩, (hname _).mp ⟨name, hnamed, rfl⟩, hchildren, hparent, hps⟩
  · rintro ⟨htype, ⟨w, hid, hw⟩, hnamed, hchildren, hparent, hps⟩
    obtain ⟨name, hnamed, hn⟩ := (hname n.name).mpr hnamed
    refine ⟨_, htype, _, hchildren, _, hparent, w, hid, _, hw, name, hnamed, _, hps, ?_⟩
    rw [← hn]

section Failures

/-- A cause that a document can give: it shows nothing but what the document holds, where there are
no properties in the making. -/
structure Tellable (e : Cause) : Prop where
  ne_kindless : e ≠ .kindless
  ne_nesting : e ≠ .unwritten .nesting
  values_isJson : ∀ v ∈ e.values, v.IsJson

theorem Tellable.of_values_eq_nil {e : Cause} (hkindless : e ≠ .kindless)
    (hnesting : e ≠ .unwritten .nesting) (h : e.values = []) : Tellable e :=
  ⟨hkindless, hnesting, by simp [h]⟩

theorem toText_failsOnly (hv : v.IsJson) : FailsOnly Tellable v.toText := by
  unfold Value.toText
  split
  · exact .ok _
  · next ho =>
    rw [hv.obstacle?_eq ho]
    exact .error (.of_values_eq_nil nofun nofun rfl)

theorem field_failsOnly (v : Value) (name : String) : FailsOnly Tellable (v.field name) := by
  unfold Value.field
  split
  · split
    · exact .ok _
    · exact .error ⟨nofun, nofun, by simp [Cause.values]⟩
  · exact .error (.of_values_eq_nil nofun nofun rfl)

theorem typeOf_failsOnly (hv : v.IsJson) : FailsOnly Tellable (typeOf v) := by
  refine (field_failsOnly v _).bind fun w hw => ?_
  have hjson : w.IsJson := hv.field ((Value.field_eq_ok_iff hv).mp hw)
  split
  · exact .ok _
  · exact .error ⟨nofun, nofun, by simpa [Cause.values]⟩

theorem childrenOf_failsOnly (v : Value) : FailsOnly Tellable (childrenOf v) := by
  unfold childrenOf
  split
  · exact .ok _
  · exact .error (.of_values_eq_nil nofun nofun rfl)

theorem parentOf_failsOnly (v : Value) : FailsOnly Tellable (parentOf v) := by
  unfold parentOf
  split
  · exact .ok _
  · exact .ok _
  · exact .ok _
  · exact .error (.of_values_eq_nil nofun nofun rfl)

theorem items_failsOnly (v : Value) : FailsOnly Tellable v.items := by
  unfold Value.items
  split
  · exact .ok _
  · exact .error (.of_values_eq_nil nofun nofun rfl)

theorem asKey_failsOnly (v : Value) : FailsOnly Tellable v.asKey := by
  unfold Value.asKey
  split
  · exact .error (.of_values_eq_nil nofun nofun rfl)
  · exact .ok _

theorem enterPairs_failsOnly (index : Nat) (t : Table Value Value) (vs : List Value) :
    FailsOnly Tellable (Value.enterPairs index t vs) := by
  induction vs generalizing index t with
  | nil => exact .ok t
  | cons v vs ih =>
    unfold Value.enterPairs
    split
    · exact .error (.of_values_eq_nil nofun nofun rfl)
    · exact (asKey_failsOnly _).bind fun k _ => ih _ _
    · exact .error (.of_values_eq_nil nofun nofun rfl)

theorem toTable_failsOnly (v : Value) : FailsOnly Tellable v.toTable := by
  unfold Value.toTable
  split
  · exact .ok _
  · exact (items_failsOnly v).bind fun vs _ => enterPairs_failsOnly 0 .empty vs

theorem decode_failsOnly (hv : v.IsJson) : FailsOnly Tellable (Property.decode v) := by
  rcases Property.decode_cases v with ⟨payload, rfl⟩ | ⟨p, hp⟩ | ⟨e, he⟩
  · cases hv
  · rw [hp]
    exact .ok p
  · rw [he]
    exact .error ⟨nofun, nofun, fun w hw => hv.part (Property.hasPart_of_mem_values he hw)⟩

theorem readProperties_failsOnly (ps : Properties) {es : List (Value × Value)}
    (h : ∀ e ∈ es, e.1.IsJson ∧ e.2.IsJson) : FailsOnly Tellable (readProperties ps es) := by
  induction es generalizing ps with
  | nil => exact .ok ps
  | cons e es ih =>
    obtain ⟨hkey, hvalue⟩ := h e List.mem_cons_self
    refine (toText_failsOnly hkey).bind fun key _ => ?_
    refine (decode_failsOnly hvalue).bind fun p _ => ?_
    exact ih _ fun e he => h e (List.mem_cons_of_mem _ he)

theorem propertiesOf_failsOnly (hv : v.IsJson) : FailsOnly Tellable (propertiesOf v) := by
  have hfield : ((v.field? "properties").getD (.object [])).IsJson := by
    cases h : v.field? "properties" with
    | none => exact .object nofun .nil nofun
    | some w => exact hv.field ((Value.field?_eq_some_iff hv).mp h)
  refine (toTable_failsOnly _).bind fun t ht => ?_
  obtain ⟨ps, hps, rfl⟩ := Value.toTable_eq_ok_iff.mp ht
  apply readProperties_failsOnly
  intro e he
  constructor
  · obtain ⟨x, hx, hxe⟩ :=
      List.mem_map.mp (Table.mem_of_mem_keys_ofList (List.mem_map_of_mem he))
    rw [← hxe]
    exact (hfield.pairs hps x hx).1
  · obtain ⟨x, hx, hxe⟩ := Table.exists_of_mem_ofList he
    rw [← hxe]
    exact (hfield.pairs hps x hx).2

theorem ofDocument_failsOnly (hv : v.IsJson) : FailsOnly Tellable (ofDocument v) := by
  have hname : ((v.field? "name").getD (.text "")).IsJson := by
    cases h : v.field? "name" with
    | none => exact .text ""
    | some w => exact hv.field ((Value.field?_eq_some_iff hv).mp h)
  refine (typeOf_failsOnly hv).bind fun type _ => ?_
  refine (childrenOf_failsOnly v).bind fun children _ => ?_
  refine (parentOf_failsOnly v).bind fun parent _ => ?_
  refine (field_failsOnly v _).bind fun w hw => ?_
  refine (toText_failsOnly (hv.field ((Value.field_eq_ok_iff hv).mp hw))).bind fun id _ => ?_
  refine (toText_failsOnly hname).bind fun name _ => ?_
  exact (propertiesOf_failsOnly hv).bind fun ps _ => .ok _

end Failures

end Node

theorem Color.ofInt?_toNat (c : Color) : Color.ofInt? c.toNat = some c := by
  have hlt := c.packed.toNat_lt
  have hrange : (0 : Int) ≤ c.toNat ∧ (c.toNat : Int) ≤ 0xffffffff := by
    unfold Color.toNat
    omega
  rw [Color.ofInt?, if_pos hrange, Int.toNat_natCast, Color.toNat, UInt32.ofNat_toNat]

theorem Property.decode_toDocument (p : Property) : Property.decode p.toDocument = .ok p := by
  cases p with
  | color c => simp [toDocument, decode, PropertyKind.ofTag?, PropertyKind.ofName?,
      PropertyKind.all, kind, PropertyKind.name, payload, ofPayload, Color.ofInt?_toNat, Except.mapError]
  | _ => rfl

theorem Color.length_toDigits_toNat (c : Color) :
    (Nat.toDigits 10 (c.toNat : Int).natAbs).length ≤ Text.maxDigits := by
  rw [Nat.length_toDigits_le_iff (by decide) (by decide), Int.natAbs_natCast]
  calc c.toNat < 2 ^ 32 := c.packed.toNat_lt
    _ ≤ 10 ^ 10 := by decide
    _ ≤ 10 ^ Text.maxDigits := Nat.pow_le_pow_right (by decide) (by decide)

theorem Property.toDocument_isLegible (p : Property) : p.toDocument.IsLegible := by
  refine .object ?_ (List.nodup_singleton _) ?_
  · intro e he
    rw [List.mem_singleton.mp he]
    exact ⟨_, rfl⟩
  · intro e he
    rw [List.mem_singleton.mp he]
    cases p with
    | color c => exact .whole c.length_toDigits_toNat
    | _ => constructor

instance Value.decidableIsText : (v : Value) → Decidable (∃ s, v = .text s)
  | .text s => isTrue ⟨s, rfl⟩
  | .null | .flag _ | .whole _ | .number _ | .list _ | .object _ | .property _ _ | .kind _
  | .propertyType _ | .builtin _ | .nodeType _ | .scene _ _ => isFalse nofun

namespace Node

structure IsTextual (n : Node) : Prop where
  name : ∃ s, n.name = .text s
  keys : ∀ e ∈ n.properties.entries, ∃ s, e.1 = .text s

instance (n : Node) : Decidable n.IsTextual :=
  decidable_of_iff ((∃ s, n.name = .text s) ∧ ∀ e ∈ n.properties.entries, ∃ s, e.1 = .text s)
    ⟨fun ⟨hname, hkeys⟩ => ⟨hname, hkeys⟩, fun h => ⟨h.name, h.keys⟩⟩

namespace IsTextual

variable {n : Node}

theorem properties_isLegible (h : n.IsTextual) : n.properties.toDocument.IsLegible := by
  refine .object ?_ ?_ ?_
  · intro e he
    obtain ⟨x, hx, rfl⟩ := List.mem_map.mp he
    exact h.keys x hx
  · rw [List.map_map]
    refine n.properties.distinct.imp_of_mem ?_
    intro a b ha _ hab he
    obtain ⟨x, hx, rfl⟩ := List.mem_map.mp ha
    obtain ⟨s, hs⟩ := h.keys x hx
    rw [← he, hs, Value.sameKey_text, beq_self_eq_true] at hab
    cases hab
  · intro e he
    obtain ⟨x, _, rfl⟩ := List.mem_map.mp he
    exact x.2.toDocument_isLegible

theorem toDocument_isLegible (h : n.IsTextual) : n.toDocument.IsLegible := by
  obtain ⟨name, hname⟩ := h.name
  have hparent : (Value.ofId? n.parent).IsLegible := by
    cases n.parent <;> constructor
  have hchildren : (Value.ofIds n.children).IsLegible := by
    refine .list fun v hv => ?_
    obtain ⟨id, _, rfl⟩ := List.mem_map.mp hv
    exact .text id
  refine .object (by simp) (by simp) ?_
  simp only [List.forall_mem_cons, List.not_mem_nil, false_implies, implies_true, and_true, hname]
  exact ⟨.text _, .text _, .text _, hparent, hchildren, h.properties_isLegible⟩

theorem toDocument_isJson (h : n.IsTextual) : n.toDocument.IsJson := h.toDocument_isLegible.isJson

theorem properties_areReadFrom (h : n.IsTextual) : n.properties.AreReadFrom
    (Table.ofList (n.properties.entries.map fun e => (e.1, e.2.toDocument))) := by
  have hentries : (Table.ofList (n.properties.entries.map fun e => (e.1, e.2.toDocument))).entries =
      n.properties.entries.map fun e => (e.1, e.2.toDocument) := by
    apply Table.entries_ofList
    rw [List.map_map]
    exact n.properties.distinct
  refine ⟨n.properties.entries, ?_, n.properties.ofList_entries.symm⟩
  rw [hentries, List.forall₂_map_left_iff, List.forall₂_same]
  intro e he
  obtain ⟨s, hs⟩ := h.keys e he
  exact ⟨⟨s, by rw [hs]; rfl, hs⟩, e.2.decode_toDocument⟩

theorem describes_toDocument (h : n.IsTextual) : n.toDocument.Describes n := by
  have hfield {name : String} {w : Value}
      (hw : n.toDocument.field? name = some w) : n.toDocument.HasField name w :=
    (Value.field?_eq_some_iff h.toDocument_isJson).mp hw
  obtain ⟨name, hname⟩ := h.name
  refine ⟨⟨_, hfield rfl, .inl rfl⟩, ⟨_, hfield rfl, rfl⟩, .inl ⟨_, name, hfield rfl, ?_, hname⟩,
    .inl (hfield rfl), .inl (hfield rfl), .inl ⟨_, _, hfield rfl, .object _, ?_⟩⟩
  · rw [hname]
    rfl
  · exact h.properties_areReadFrom

theorem ofDocument_toDocument (h : n.IsTextual) : ofDocument n.toDocument = .ok n :=
  (ofDocument_eq_ok_iff h.toDocument_isJson).mpr h.describes_toDocument

end IsTextual

end Node

end SceneEditor
