import Mathlib.Data.Nat.Find
import SceneEditor.Proofs.Node.Document
import SceneEditor.Proofs.Scene.Identifiers
import SceneEditor.Proofs.Scene.Likeness

namespace SceneEditor

namespace IdSupply

variable {ids : IdSupply} {taken : String → Bool} {offer : Nat → String} {n k : Nat}

def skip (ids : IdSupply) (k : Nat) : IdSupply := { ids with requests := ids.requests + k }

theorem skip_skip (ids : IdSupply) (j k : Nat) : (ids.skip j).skip k = ids.skip (j + k) := by
  simp only [skip, Nat.add_assoc]

def Offers (ids : IdSupply) (n : Nat) (offer : Nat → String) : Prop :=
  ∀ k < n, ids.answer (ids.requests + k) = .ok (offer k)

namespace Offers

theorem next_eq (h : ids.Offers (n + 1) offer) : ids.next = (.ok (offer 0), ids.skip 1) := by
  rw [next, ← Nat.add_zero ids.requests, h 0 n.succ_pos]
  rfl

theorem skip_one (h : ids.Offers (n + 1) offer) :
    (ids.skip 1).Offers n fun k => offer (k + 1) := by
  intro k hk
  rw [← h (k + 1) (Nat.succ_lt_succ hk), skip, Nat.add_assoc, Nat.add_comm 1 k]

theorem fresh_succ_of_taken (h : ids.Offers (n + 1) offer) (htaken : taken (offer 0) = true) :
    ids.fresh taken (n + 1) = (ids.skip 1).fresh taken n := by
  rw [fresh_succ, h.next_eq]
  exact if_pos htaken

theorem fresh_of_taken (h : ids.Offers n offer) (htaken : ∀ k < n, taken (offer k) = true) :
    ids.fresh taken n = (.ok none, ids.skip n) := by
  induction n generalizing ids offer with
  | zero => rfl
  | succ n ih =>
    have hrest := ih h.skip_one fun k hk => htaken (k + 1) (Nat.succ_lt_succ hk)
    rw [h.fresh_succ_of_taken (htaken 0 n.succ_pos), hrest, skip_skip, Nat.add_comm 1 n]

theorem fresh_of_first (h : ids.Offers n offer) (hk : k < n) (hfree : taken (offer k) = false)
    (hbefore : ∀ j < k, taken (offer j) = true) :
    ids.fresh taken n = (.ok (some (offer k)), ids.skip (k + 1)) := by
  induction k generalizing ids offer n with
  | zero =>
    obtain ⟨m, rfl⟩ : ∃ m, n = m + 1 := ⟨n - 1, by omega⟩
    rw [fresh_succ, h.next_eq]
    exact if_neg (by simp [hfree])
  | succ k ih =>
    obtain ⟨m, rfl⟩ : ∃ m, n = m + 1 := ⟨n - 1, by omega⟩
    have hrest := ih h.skip_one (Nat.lt_of_succ_lt_succ hk) hfree
      fun j hj => hbefore (j + 1) (Nat.succ_lt_succ hj)
    rw [h.fresh_succ_of_taken (hbefore 0 k.succ_pos), hrest, skip_skip, Nat.add_comm 1 (k + 1)]

end Offers

theorem exists_first (h : ¬ ∀ k < n, taken (offer k) = true) :
    ∃ k < n, taken (offer k) = false ∧ ∀ j < k, taken (offer j) = true := by
  push Not at h
  have hspec := Nat.find_spec h
  refine ⟨Nat.find h, hspec.1, eq_false_of_ne_true hspec.2, ?_⟩
  intro j hj
  by_contra hfree
  exact Nat.find_min h hj ⟨Nat.lt_trans hj hspec.1, hfree⟩

end IdSupply

/-- A value names a type if it is the type itself or one of the two spellings of its name. -/
def Value.Names (v : Value) (t : NodeType) : Prop :=
  v = .nodeType t ∨ v = .text t.name ∨ v = .text t.label

theorem NodeType.parse?_eq_some_iff_names {v : Value} {t : NodeType} :
    NodeType.parse? v = some t ↔ v.Names t := by
  cases v <;> simp [NodeType.parse?, NodeType.ofName?_eq_some_iff, Value.Names]

theorem NodeType.parse?_eq_none_iff {v : Value} :
    NodeType.parse? v = none ↔ ∀ t, ¬ v.Names t := by
  simp only [Option.eq_none_iff_forall_ne_some, ne_eq, parse?_eq_some_iff_names]

/-- A node is there that was not there before: without children, with what its type starts with,
after all other nodes and after the other children of its parent. The rest is as it was. -/
structure Edit.Adds (e : Edit (Option String)) (s : Scene) (id : String) (name : Value)
    (type : NodeType) (parent : String) : Prop where
  answer_eq : e.answer = .ok (some id)
  notices_eq : e.notices = [.added type name id parent]
  announcement_eq : e.announcement = some (.nodeAdded id parent)
  entries_eq : e.scene.arena.entries =
    (s.arena.entries.map fun x =>
      (x.1, if x.1 = parent then { x.2 with children := x.2.children ++ [id] } else x.2)) ++
      [(id, ⟨id, name, type, some parent, [], type.defaults⟩)]
  rest_eq : e.scene.name = s.name ∧ e.scene.root = s.root ∧ e.scene.retired = s.retired ∧
    e.scene.bound = s.bound ∧ e.scene.revision = s.revision + 1

namespace Scene

def InUse (s : Scene) (id : String) : Prop := s.arena.contains id = true ∨ id ∈ s.retired

instance (s : Scene) (id : String) : Decidable (s.InUse id) :=
  inferInstanceAs (Decidable (_ ∨ _))

variable {s : Scene} {id parent : String} {name type : Value} {kind : NodeType} {ids : IdSupply}
  {offer : Nat → String}

theorem entries_withNode (hid : s.arena.contains id = false) (name : Value) (kind : NodeType)
    (parent : String) : (s.withNode id name kind parent).entries =
      (s.arena.entries.map fun x =>
        (x.1, if x.1 = parent then { x.2 with children := x.2.children ++ [id] } else x.2)) ++
        [(id, ⟨id, name, kind, some parent, [], kind.defaults⟩)] := by
  have hnew : (s.arena.modify parent (·.addChild id)).contains id = false := by
    rw [Table.contains_eq_isSome, Table.find?_modify, Option.isSome_map,
      ← Table.contains_eq_isSome, hid]
  rw [withNode, Table.entries_insert_of_new hnew]
  simp only [Table.modify, Table.mapValues, beq_iff_eq, Node.addChild, Node.create]

theorem not_inUse_iff : ¬ s.InUse id ↔ s.isTaken id = false := by
  rw [InUse, ← isTaken_iff, Bool.not_eq_true]

theorem addNode_of_no_parent (h : s.arena.contains parent = false) (name type : Value)
    (ids : IdSupply) : s.addNode (.text parent) name type ids =
      (.declined s none [.noParent (.text parent)], ids) := by
  rw [Table.contains_eq_isSome, Option.isSome_eq_false_iff, Option.isNone_iff_eq_none] at h
  rw [addNode, resolve_text, h]
  rfl

theorem addNode_of_no_type (hparent : s.arena.contains parent = true)
    (h : ∀ kind, ¬ type.Names kind) (name : Value) (ids : IdSupply) :
    s.addNode (.text parent) name type ids = (.declined s none [.unknownType type], ids) := by
  obtain ⟨n, hn⟩ := Arena.exists_of_contains hparent
  rw [addNode, resolve_text, hn, NodeType.parse?_eq_none_iff.mpr h]
  rfl

section Placed

variable (hparent : s.arena.contains parent = true) (hkind : type.Names kind)
  (h : ids.Offers maxAttempts offer) (name : Value)

include hparent hkind h

theorem addNode_exhausted (htaken : ∀ k < maxAttempts, s.isTaken (offer k) = true) :
    s.addNode (.text parent) name type ids =
      (.declined s none [.idsExhausted], ids.skip maxAttempts) := by
  obtain ⟨n, hn⟩ := Arena.exists_of_contains hparent
  rw [addNode, resolve_text, hn, NodeType.parse?_eq_some_iff_names.mpr hkind]
  simp only [Option.map_some, h.fresh_of_taken htaken]

theorem addNode_first {k : Nat} (hk : k < maxAttempts) (hfree : s.isTaken (offer k) = false)
    (hbefore : ∀ j < k, s.isTaken (offer j) = true) :
    (s.addNode (.text parent) name type ids).1.Adds s (offer k) name kind parent ∧
      (s.addNode (.text parent) name type ids).2 = ids.skip (k + 1) := by
  obtain ⟨n, hn⟩ := Arena.exists_of_contains hparent
  rw [addNode, resolve_text, hn, NodeType.parse?_eq_some_iff_names.mpr hkind]
  simp only [Option.map_some, h.fresh_of_first hk hfree hbefore]
  exact ⟨⟨rfl, rfl, rfl, entries_withNode (isTaken_eq_false_iff.mp hfree).1 name kind parent,
    rfl, rfl, rfl, rfl, rfl⟩, trivial⟩

theorem addNode_placed : (∀ k < maxAttempts, s.InUse (offer k)) ∧
      s.addNode (.text parent) name type ids =
        (.declined s none [.idsExhausted], ids.skip maxAttempts) ∨
    ∃ k < maxAttempts, (∀ j < k, s.InUse (offer j)) ∧ ¬ s.InUse (offer k) ∧
      (s.addNode (.text parent) name type ids).1.Adds s (offer k) name kind parent ∧
      (s.addNode (.text parent) name type ids).2 = ids.skip (k + 1) := by
  by_cases htaken : ∀ k < maxAttempts, s.isTaken (offer k) = true
  · left
    exact ⟨fun k hk => isTaken_iff.mp (htaken k hk),
      addNode_exhausted hparent hkind h name htaken⟩
  · right
    obtain ⟨k, hk, hfree, hbefore⟩ := IdSupply.exists_first htaken
    exact ⟨k, hk, fun j hj => isTaken_iff.mp (hbefore j hj), not_inUse_iff.mpr hfree,
      addNode_first hparent hkind h name hk hfree hbefore⟩

end Placed

theorem written_of_adds {e : Edit (Option String)} (h : e.Adds s id name kind parent) :
    (name.IsShowable → e.written = e) ∧
      ∀ o, name.obstacle? Value.maxNesting = some o →
        e.written = ⟨.error (.unwritten o), e.scene, [], none⟩ := by
  have hnotice : (Notice.added kind name id parent).obstacle? = name.obstacle? Value.maxNesting :=
    Notice.obstacle?_of_values_eq rfl
  constructor
  · intro hname
    apply Edit.written_of_isShowable
    rw [h.notices_eq, List.forall_mem_singleton, ← Notice.obstacle?_eq_none_iff, hnotice]
    exact hname
  · intro o ho
    apply Edit.written_of_obstacle
    rw [h.notices_eq, List.findSome?_singleton, hnotice, ho]

theorem answer_written_of_adds {e : Edit (Option String)} (h : e.Adds s id name kind parent) :
    e.written.answer ≠ .ok none := by
  cases ho : name.obstacle? Value.maxNesting with
  | none =>
    rw [(written_of_adds h).1 ho, h.answer_eq]
    nofun
  | some o =>
    rw [(written_of_adds h).2 o ho]
    nofun

theorem isShowable_of_names (h : type.Names kind) : type.IsShowable := by
  rcases h with rfl | rfl | rfl <;> rfl

theorem written_of_no_type (s : Scene) (type : Value) {e : Edit (Option String)}
    (he : e = .declined s none [.unknownType type]) : (type.IsShowable → e.written = e) ∧
      ∀ o, type.obstacle? Value.maxNesting = some o → e.written = .failed s (.unwritten o) := by
  have hnotice : (Notice.unknownType type).obstacle? = type.obstacle? Value.maxNesting :=
    Notice.obstacle?_of_values_eq rfl
  subst he
  constructor
  · intro htype
    apply Edit.written_of_isShowable
    rw [Edit.declined, List.forall_mem_singleton, ← Notice.obstacle?_eq_none_iff, hnotice]
    exact htype
  · intro o ho
    apply Edit.written_of_obstacle
    rw [Edit.declined, List.findSome?_singleton, hnotice, ho]

/-- A node is added unless its parent is not there, its type is none, or all that the supply offers
in so many requests is in use. The supply is asked up to the first identifier that is not in use,
which is the one that the node gets, and not at all where it does not matter. Two remarks may fail:
one on a type that is none, with which nothing is lost, and one on a name, with which the node is
there and nobody learns of it. -/
theorem addNode_succeeds_exactly (s : Scene) (parent : String) (name type : Value)
    {ids : IdSupply} {offer : Nat → String} (h : ids.Offers maxAttempts offer) :
    let raw := (s.addNode (.text parent) name type ids).1
    let e := raw.written
    let rest := (s.addNode (.text parent) name type ids).2
    (e.answer = .ok none ↔ s.arena.contains parent = false ∨
      type.IsShowable ∧ ((∀ kind, ¬ type.Names kind) ∨ ∀ k < maxAttempts, s.InUse (offer k))) ∧
    (e.answer = .ok none → e.scene = s ∧ e.announcement = none) ∧
    (s.arena.contains parent = true → ∀ o, type.obstacle? Value.maxNesting = some o →
      e = .failed s (.unwritten o)) ∧
    (s.arena.contains parent = false ∨ (∀ kind, ¬ type.Names kind) → rest = ids) ∧
    ∀ kind, s.arena.contains parent = true → type.Names kind →
      (∀ k < maxAttempts, s.InUse (offer k)) ∧ rest = ids.skip maxAttempts ∨
      ∃ k < maxAttempts, (∀ j < k, s.InUse (offer j)) ∧ ¬ s.InUse (offer k) ∧
        raw.Adds s (offer k) name kind parent ∧ rest = ids.skip (k + 1) ∧
        (name.IsShowable → e = raw) ∧
        ∀ o, name.obstacle? Value.maxNesting = some o →
          e = ⟨.error (.unwritten o), raw.scene, [], none⟩ := by
  intro raw e rest
  by_cases hparent : s.arena.contains parent = true
  swap
  · rw [Bool.not_eq_true] at hparent
    have heq := addNode_of_no_parent hparent name type ids
    have he : e = .declined s none [.noParent (.text parent)] := by simp only [e, raw, heq]; rfl
    have hdead {p : Prop} (hp : s.arena.contains parent = true) : p := by simp [hparent] at hp
    exact ⟨iff_of_true (by rw [he]; rfl) (.inl hparent), fun _ => by rw [he]; exact ⟨rfl, rfl⟩,
      hdead, fun _ => congrArg Prod.snd heq, fun _ => hdead⟩
  have hlive : ¬ s.arena.contains parent = false := by simp [hparent]
  rw [or_iff_right hlive, or_iff_right hlive]
  by_cases hnamed : ∃ kind, type.Names kind
  · obtain ⟨kind, hkind⟩ := hnamed
    have hshown : type.obstacle? Value.maxNesting = none := isShowable_of_names hkind
    have hsome : ¬ ∀ kind, ¬ type.Names kind := fun hnone => hnone kind hkind
    rw [and_iff_right (show type.IsShowable from hshown), or_iff_right hsome]
    have hwritten (o : Obstacle) (ho : type.obstacle? Value.maxNesting = some o) :
        e = .failed s (.unwritten o) := by
      rw [hshown] at ho
      cases ho
    refine ⟨?_, ?_, fun _ => hwritten, fun hnone => absurd hnone hsome, fun kind' _ hkind' => ?_⟩
    · rcases addNode_placed hparent hkind h name with ⟨hall, heq⟩ | ⟨k, hk, _, hfree, hadds, _⟩
      · exact iff_of_true (by simp only [e, raw, heq]; rfl) hall
      · exact iff_of_false (answer_written_of_adds hadds) fun hall => hfree (hall k hk)
    · intro hanswer
      rcases addNode_placed hparent hkind h name with ⟨_, heq⟩ | ⟨k, _, _, _, hadds, _⟩
      · simp only [e, raw, heq]
        exact ⟨rfl, rfl⟩
      · exact absurd hanswer (answer_written_of_adds hadds)
    · rcases addNode_placed hparent hkind' h name with ⟨hall, heq⟩ | ⟨k, hk, hused, hfree, hadds, hrest⟩
      · exact .inl ⟨hall, congrArg Prod.snd heq⟩
      · exact .inr ⟨k, hk, hused, hfree, hadds, hrest, written_of_adds hadds⟩
  · rw [not_exists] at hnamed
    have heq := addNode_of_no_type hparent hnamed name ids
    obtain ⟨hwritten, hfailed⟩ := written_of_no_type s type (congrArg Prod.fst heq)
    have hcases : type.IsShowable ∧ e = raw ∨
        ¬ type.IsShowable ∧ ∃ o, e = .failed s (.unwritten o) := by
      cases ho : type.obstacle? Value.maxNesting with
      | none => exact .inl ⟨ho, hwritten ho⟩
      | some o => exact .inr ⟨by simp [Value.IsShowable, ho], o, hfailed o ho⟩
    have hraw : raw = .declined s none [.unknownType type] := congrArg Prod.fst heq
    refine ⟨?_, ?_, fun _ => hfailed, fun _ => congrArg Prod.snd heq,
      fun kind _ hkind => absurd hkind (hnamed kind)⟩
    · rcases hcases with ⟨hshown, he⟩ | ⟨hshown, o, he⟩
      · exact iff_of_true (by rw [he, hraw]; rfl) ⟨hshown, .inl hnamed⟩
      · exact iff_of_false (by simp [he, Edit.failed]) fun hshown' => hshown hshown'.1
    · intro hanswer
      rcases hcases with ⟨_, he⟩ | ⟨_, o, he⟩
      · rw [he, hraw]
        exact ⟨rfl, rfl⟩
      · rw [he]
        exact ⟨rfl, rfl⟩

theorem addNode_succeeds_exactly_of_repeats :
    let offer : Nat → String := fun k => ["r", "a", "b", "r", "b", "a", "c"].getD k "r"
    let s := (single (.text "Scene") "r" (.text "Root") true).after ⟨fun k => .ok (offer k), 1⟩ [
      .add (.text "r") (.text "A") (.text "Container"),
      .add (.text "a") (.text "B") (.text "SPRITE"), .remove (.text "b")]
    let ids (k : Nat) : IdSupply := ⟨fun k => .ok (offer k), k⟩
    let e (k : Nat) := s.addNode (.text "a") (.text "C") (.nodeType .circle) (ids k)
    s.Reachable ∧ (ids 3).Offers maxAttempts (fun k => offer (3 + k)) ∧
      (e 3).1.Adds s "c" (.text "C") .circle "a" ∧ (e 3).1.written = (e 3).1 ∧ (e 3).2 = ids 7 ∧
      (e 7).1.written.answer = .ok none ∧ (e 7).2 = ids 23 := by
  intro offer s ids e
  have hcreated : (create (.text "Scene") (.text "Root") true (ids 0)).1 =
      .ok (single (.text "Scene") "r" (.text "Root") true) := rfl
  have hs : s.Reachable := (Reachable.built (.created hcreated)).after _ _
  have hoffers (k : Nat) : (ids k).Offers maxAttempts fun j => offer (k + j) := fun _ _ => rfl
  have hparent : s.arena.contains "a" = true := by decide +kernel
  have hfirst : (e 3).1.Adds s "c" (.text "C") .circle "a" ∧ (e 3).1.written = (e 3).1 ∧
      (e 3).2 = ids 7 := by
    have hbefore : ∀ k < 3, s.InUse (offer (3 + k)) := by decide +kernel
    have hnew : ¬ s.InUse (offer (3 + 3)) := by decide +kernel
    obtain ⟨_, _, _, _, hplaced⟩ :=
      addNode_succeeds_exactly s "a" (.text "C") (.nodeType .circle) (hoffers 3)
    rcases hplaced .circle hparent (.inl rfl) with
      ⟨hall, _⟩ | ⟨k, _, hk, hfree, hadds, hrest, hwritten, _⟩
    · exact absurd (hall 3 (by decide)) hnew
    · obtain rfl : k = 3 := by
        rcases Nat.lt_trichotomy k 3 with hlt | heq | hgt
        · exact absurd (hbefore k hlt) hfree
        · exact heq
        · exact absurd (hk 3 hgt) hnew
      exact ⟨hadds, hwritten rfl, hrest⟩
  have hall : ∀ k < maxAttempts, s.InUse (offer (7 + k)) := by decide +kernel
  obtain ⟨hnone, _, _, _, hplaced⟩ :=
    addNode_succeeds_exactly s "a" (.text "C") (.nodeType .circle) (hoffers 7)
  refine ⟨hs, hoffers 3, hfirst.1, hfirst.2.1, hfirst.2.2,
    hnone.mpr (.inr ⟨rfl, .inr hall⟩), ?_⟩
  rcases hplaced .circle hparent (.inl rfl) with ⟨_, hrest⟩ | ⟨k, hk, _, hfree, _⟩
  · exact hrest
  · exact absurd (hall k hk) hfree

/-- A number with too many digits names no type, and yet nothing is not the answer. -/
theorem addNode_fails_of_overlong :
    let s := single (.text "Scene") "r" (.text "Root") true
    let ids : IdSupply := ⟨IdSupply.numbered, 1⟩
    let e := (s.addNode (.text "r") (.text "A") .overlong ids).1
    s.Reachable ∧ (∀ kind, ¬ Value.overlong.Names kind) ∧
      e.written.answer = .error (.unwritten .digits) := by
  intro s ids e
  have hcreated : (create (.text "Scene") (.text "Root") true ⟨fun _ => .ok "r", 0⟩).1 = .ok s :=
    rfl
  have hnamed (kind : NodeType) : ¬ Value.overlong.Names kind := by
    rintro (h | h | h) <;> cases h
  have hroot : s.arena.contains "r" = true := by decide
  have he := congrArg Prod.fst (addNode_of_no_type hroot hnamed (.text "A") ids)
  have hfailed := (written_of_no_type s _ he).2 .digits (Value.obstacle?_overlong _)
  exact ⟨.built (.created hcreated), hnamed, congrArg Edit.answer hfailed⟩

end Scene

end SceneEditor
