import SceneEditor.Proofs.Scene.WellFormed
import SceneEditor.Scene.Query

namespace SceneEditor

/-- Reads again what is said to have changed in a node: its name if there is no key, and otherwise
the property under this key, which may be gone. -/
def Node.reread (m n : Node) : Value → Node
  | .null => { m with name := n.name }
  | key => { m with properties := match n.properties.find? key with
      | some p => m.properties.insert key p
      | none => m.properties.erase key }

/-- What an observer makes of a signal. It has its own nodes, and may read those of the scene. -/
def Arena.heed (a : Arena) (s : Scene) : Signal → List Argument → Arena
  | .nodeAdded, [.value (.text id), .value (.text parent)] =>
    match s.getNode (.text id) with
    | .ok (some n) => (a.modify parent (·.addChild id)).insert id n
    | _ => a
  | .nodeRemoved, [.value (.text id), .group ids] =>
    let unlinked := match (a.find? id).bind Node.parent with
      | some parent => a.modify parent (·.dropChild id)
      | none => a
    unlinked.filter fun e => !ids.contains e.1
  | .nodeChanged, [.value (.text id), .value key] =>
    match s.getNode (.text id) with
    | .ok (some n) => a.modify id (·.reread n key)
    | _ => a
  | _, _ => a

def Value.isText : Value → Bool
  | text _ => true
  | _ => false

def Properties.textual (ps : Properties) : Properties := ps.filter fun e => e.1.isText

def Node.textual (n : Node) : Node := { n with properties := n.properties.textual }

def Node.part (whole : Bool) (n : Node) : Node := if whole then n else n.textual

def Arena.Mirrors (a b : Arena) (whole : Bool) : Prop :=
  ∀ id, (a.find? id).map (Node.part whole) = (b.find? id).map (Node.part whole)

/-- The key tells of a property: it does not stand for the name, and what is under it is found. -/
def Value.IsTelling (key : Value) : Prop := key ≠ .null ∧ (key == key) = true

namespace Value

variable {v k : Value} {s : String}

theorem isText_eq_true_iff : v.isText = true ↔ ∃ s, v = text s := by
  cases v <;> simp [isText]

theorem isTelling_text (s : String) : (text s).IsTelling :=
  ⟨nofun, by rw [sameKey_text, beq_self_eq_true]⟩

theorem eq_text_of_text_sameKey (h : (text s == v) = true) : v = text s := by
  cases v with
  | text t =>
    rw [sameKey_text, beq_iff_eq] at h
    rw [h]
  | _ => cases h

theorem eq_text_of_sameKey_text (h : (v == text s) = true) : v = text s := by
  cases v with
  | text t =>
    rw [sameKey_text, beq_iff_eq] at h
    rw [h]
  | number x =>
    change sameKey (number x) (text s) = true at h
    simp [sameKey, numeric?] at h
  | _ => cases h

theorem isText_eq_of_sameKey (h : (v == k) = true) : v.isText = k.isText := by
  cases v with
  | text s => rw [eq_text_of_text_sameKey h]
  | _ =>
    cases k with
    | text s => cases eq_text_of_sameKey_text h
    | _ => rfl

end Value

namespace Properties

variable (ps : Properties) {key : Value}

theorem textual_insert_text (s : String) (p : Property) :
    textual (ps.insert (.text s) p) = ps.textual.insert (.text s) p :=
  Table.filter_insert (fun _ => Value.isText_eq_of_sameKey) ps p

theorem textual_insert_of_not_text (hkey : key.isText = false) (p : Property) :
    textual (ps.insert key p) = ps.textual :=
  (Table.filter_insert (fun _ => Value.isText_eq_of_sameKey) ps p).trans
    (if_neg (by rw [hkey]; exact Bool.false_ne_true))

theorem textual_erase_of_not_text (hkey : key.isText = false) :
    textual (ps.erase key) = ps.textual :=
  (Table.filter_erase (fun _ => Value.isText_eq_of_sameKey) ps).trans
    (if_neg (by rw [hkey]; exact Bool.false_ne_true))

theorem textual_erase_text (s : String) :
    textual (ps.erase (.text s)) = ps.textual.erase (.text s) :=
  Table.filter_erase (fun _ => Value.isText_eq_of_sameKey) ps

end Properties

namespace Node

variable {m n : Node} {whole : Bool} {key : Value}

theorem textual_eq_of_part_eq (h : m.part whole = n.part whole) : m.textual = n.textual := by
  cases whole with
  | false => exact h
  | true => rw [show m = n from h]

theorem parent_eq_of_textual_eq (h : m.textual = n.textual) : m.parent = n.parent := by
  have hparent := congrArg Node.parent h
  exact hparent

theorem textual_withProperties (h : m.textual = n.textual) {ps qs : Properties}
    (hps : ps.textual = qs.textual) :
    textual { m with properties := ps } = textual { n with properties := qs } := by
  have hnode := congrArg (fun n : Node => { n with properties := ps.textual }) h
  exact hnode.trans (by rw [hps]; rfl)

theorem part_congr {f : Node → Node} (hf : ∀ n : Node, (f n).textual = f n.textual)
    (h : m.part whole = n.part whole) : (f m).part whole = (f n).part whole := by
  cases whole with
  | false =>
    change (f m).textual = (f n).textual
    rw [hf, hf, show m.textual = n.textual from h]
  | true => rw [show m = n from h]

theorem reread_of_ne_null (m n : Node) (hkey : key ≠ .null) : m.reread n key =
    { m with properties := match n.properties.find? key with
      | some p => m.properties.insert key p
      | none => m.properties.erase key } := by
  cases key with
  | null => exact absurd rfl hkey
  | _ => rfl

theorem reread_insert (m n : Node) (hkey : key.IsTelling) (p : Property) :
    m.reread { n with properties := n.properties.insert key p } key =
      { m with properties := m.properties.insert key p } := by
  rw [reread_of_ne_null _ _ hkey.1]
  simp only [Table.find?_insert_key _ hkey.2]

theorem reread_erase (m n : Node) (hkey : key.IsTelling) :
    m.reread { n with properties := n.properties.erase key } key =
      { m with properties := m.properties.erase key } := by
  rw [reread_of_ne_null _ _ hkey.1]
  simp only [Table.find?_erase_key]

theorem textual_reread_of_not_text (h : m.textual = n.textual) (hkey : key.isText = false)
    {ps : Properties} (hps : ps.textual = n.properties.textual) :
    (m.reread { n with properties := ps } key).textual = textual { n with properties := ps } := by
  have hproperties : m.properties.textual = n.properties.textual := congrArg Node.properties h
  by_cases hnull : key = .null
  · have hname : n.textual.name = m.textual.name := congrArg Node.name h.symm
    have hsame : m.reread { n with properties := ps } .null = { m with properties := m.properties } := by
      rw [reread, show n.name = m.name from hname]
    rw [hnull, hsame]
    exact textual_withProperties h (hproperties.trans hps.symm)
  · rw [reread_of_ne_null _ _ hnull]
    apply textual_withProperties h
    rw [hps, ← hproperties]
    split
    · exact m.properties.textual_insert_of_not_text hkey _
    · exact m.properties.textual_erase_of_not_text hkey

theorem textual_reread_insert (h : m.textual = n.textual) (key : Value) (p : Property) :
    (m.reread { n with properties := n.properties.insert key p } key).textual =
      textual { n with properties := n.properties.insert key p } := by
  have hproperties : m.properties.textual = n.properties.textual := congrArg Node.properties h
  cases htext : key.isText with
  | false =>
    exact textual_reread_of_not_text h htext (n.properties.textual_insert_of_not_text htext p)
  | true =>
    obtain ⟨s, rfl⟩ := Value.isText_eq_true_iff.mp htext
    rw [reread_insert m n (Value.isTelling_text s)]
    apply textual_withProperties h
    rw [Properties.textual_insert_text, Properties.textual_insert_text, hproperties]

theorem textual_reread_erase (h : m.textual = n.textual) (key : Value) :
    (m.reread { n with properties := n.properties.erase key } key).textual =
      textual { n with properties := n.properties.erase key } := by
  have hproperties : m.properties.textual = n.properties.textual := congrArg Node.properties h
  cases htext : key.isText with
  | false => exact textual_reread_of_not_text h htext (n.properties.textual_erase_of_not_text htext)
  | true =>
    obtain ⟨s, rfl⟩ := Value.isText_eq_true_iff.mp htext
    rw [reread_erase m n (Value.isTelling_text s)]
    apply textual_withProperties h
    rw [Properties.textual_erase_text, Properties.textual_erase_text, hproperties]

theorem part_reread_name (h : m.part whole = n.part whole) (name : Value) :
    (m.reread { n with name := name } .null).part whole = { n with name := name }.part whole :=
  part_congr (f := fun n => { n with name := name }) (fun _ => rfl) h

theorem part_reread_insert (h : m.part whole = n.part whole)
    (hkey : whole = true → key.IsTelling) (p : Property) :
    (m.reread { n with properties := n.properties.insert key p } key).part whole =
      { n with properties := n.properties.insert key p }.part whole := by
  cases whole with
  | false => exact textual_reread_insert h key p
  | true =>
    rw [show m = n from h, reread_insert n n (hkey rfl)]

theorem part_reread_erase (h : m.part whole = n.part whole)
    (hkey : whole = true → key.IsTelling) :
    (m.reread { n with properties := n.properties.erase key } key).part whole =
      { n with properties := n.properties.erase key }.part whole := by
  cases whole with
  | false => exact textual_reread_erase h key
  | true =>
    rw [show m = n from h, reread_erase n n (hkey rfl)]

end Node

theorem Scene.getNode_text (s : Scene) (id : String) :
    s.getNode (.text id) = .ok (s.arena.find? id) := by
  cases h : s.arena.find? id <;>
    simp [getNode, resolve, Value.asKey, Value.unusableKey?, h, bind, Except.bind, pure,
      Except.pure]

namespace Arena.Mirrors

variable {a : Arena} {s t : Scene} {whole : Bool} {id : String} {n : Node}

theorem map_eq {x y : Option Node} {f g : Node → Node}
    (h : x.map (Node.part whole) = y.map (Node.part whole))
    (hfg : ∀ {m n : Node}, m.part whole = n.part whole → (f m).part whole = (g n).part whole) :
    (x.map f).map (Node.part whole) = (y.map g).map (Node.part whole) := by
  cases x <;> cases y
  · rfl
  · cases h
  · cases h
  · exact congrArg some (hfg (Option.some.inj h))

theorem exists_of_find? (h : a.Mirrors s.arena whole) (hn : s.arena.find? id = some n) :
    ∃ m, a.find? id = some m ∧ m.part whole = n.part whole := by
  have hid := h id
  rw [hn] at hid
  exact Option.map_eq_some_iff.mp hid

theorem added (h : a.Mirrors s.arena whole) {parent : String} {name : Value} {type : NodeType}
    (ht : t.arena = s.withNode id name type parent) :
    (a.heed t .nodeAdded [.value (.text id), .value (.text parent)]).Mirrors t.arena whole := by
  have hnew : t.arena.find? id = some (Node.create id name type (some parent)) := by
    rw [ht, Scene.find?_withNode, if_pos rfl]
  intro key
  simp only [heed, Scene.getNode_text, hnew]
  rw [ht, Scene.find?_withNode]
  by_cases hk : key = id
  · rw [if_pos hk, hk, Table.find?_insert_self]
  · rw [if_neg hk, Table.find?_insert_of_ne _ _ hk, Table.find?_modify]
    simp only [beq_iff_eq]
    refine map_eq (h key) fun hmn => ?_
    split
    · exact Node.part_congr (f := (·.addChild id)) (fun _ => rfl) hmn
    · exact hmn

theorem removed (h : a.Mirrors s.arena whole) (hn : s.arena.find? id = some n) {ids : List String}
    (ht : t.arena = s.withoutNodes id n.parent ids) :
    (a.heed t .nodeRemoved [.value (.text id), .group ids]).Mirrors t.arena whole := by
  obtain ⟨m, hm, hmn⟩ := h.exists_of_find? hn
  -- The parent is not announced: the observer has it from its own nodes.
  have hparent : (a.find? id).bind Node.parent = n.parent := by
    rw [hm]
    exact Node.parent_eq_of_textual_eq (Node.textual_eq_of_part_eq hmn)
  have hheed : a.heed t .nodeRemoved [.value (.text id), .group ids] =
      { s with arena := a }.withoutNodes id n.parent ids := by
    simp only [heed, hparent, Scene.withoutNodes]
    cases n.parent <;> rfl
  intro key
  rw [hheed, ht, Scene.find?_withoutNodes, Scene.find?_withoutNodes]
  split
  · rfl
  · refine map_eq (h key) fun hmn => ?_
    split
    · exact Node.part_congr (f := (·.dropChild id)) (fun _ => rfl) hmn
    · exact hmn

theorem changed (h : a.Mirrors s.arena whole) (hn : s.arena.find? id = some n) {key : Value}
    (change : Node → Node) (ht : t.arena = s.withChange id change)
    (hchange : ∀ m : Node, m.part whole = n.part whole →
      (m.reread (change n) key).part whole = (change n).part whole) :
    (a.heed t .nodeChanged [.value (.text id), .value key]).Mirrors t.arena whole := by
  have hnew : t.arena.find? id = some (change n) := by
    rw [ht, Scene.find?_withChange, hn, Option.map_some, if_pos rfl]
  obtain ⟨m, hm, hmn⟩ := h.exists_of_find? hn
  intro other
  simp only [heed, Scene.getNode_text, hnew, Table.find?_modify, beq_iff_eq]
  by_cases ho : other = id
  · subst ho
    rw [hnew, hm, Option.map_some, if_pos rfl, Option.map_some, hchange m hmn, Option.map_some]
  · rw [ht, Scene.find?_withChange]
    simp only [ho, if_false, Option.map_id']
    exact h other

theorem step {answer : Answer} {ann : Announcement} (h : a.Mirrors s.arena whole)
    (ht : s.Step answer ann t)
    (hkey : whole = true → ∀ id key, ann = .nodeChanged id (some key) → key.IsTelling) :
    (a.heed t ann.signal ann.arguments).Mirrors t.arena whole := by
  cases ht with
  | added _ _ => exact h.added rfl
  | removed hn _ => exact h.removed hn rfl
  | @propertySet _ _ key p hn =>
    exact h.changed hn (fun n => { n with properties := n.properties.insert key p }) rfl
      fun m hm => Node.part_reread_insert hm (fun hw => hkey hw _ _ rfl) p
  | @propertyDropped _ _ key hn _ =>
    exact h.changed hn (fun n => { n with properties := n.properties.erase key }) rfl
      fun m hm => Node.part_reread_erase hm fun hw => hkey hw _ _ rfl
  | @renamed _ _ name hn =>
    exact h.changed hn (fun n => { n with name := name }) rfl
      fun m hm => Node.part_reread_name hm name

end Arena.Mirrors

end SceneEditor
