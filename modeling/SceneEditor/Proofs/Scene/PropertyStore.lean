import SceneEditor.Program.Emitter
import SceneEditor.Proofs.Scene.Identifiers
import SceneEditor.Proofs.Scene.Observer
import SceneEditor.Proofs.Value.Keys
import SceneEditor.Proofs.Value.Showable
import SceneEditor.Scene.Snapshot

namespace SceneEditor

namespace PropertyKind

def requests (k : PropertyKind) : List Value :=
  [.kind k, .propertyType (some k)] ++
    match k with
    | string => [.builtin .text]
    | number => [.builtin .number]
    | boolean => [.builtin .flag]
    | color => []

theorem ofRequest?_eq_some_iff {r : Value} {k : PropertyKind} :
    ofRequest? r = some k ↔ r ∈ k.requests := by
  cases r with
  | kind j => cases k <;> simp [ofRequest?, requests]
  | propertyType j => cases k <;> simp [ofRequest?, requests]
  | builtin t => cases t <;> cases k <;> simp [ofRequest?, requests]
  | _ => cases k <;> simp [ofRequest?, requests]

end PropertyKind

namespace Scene

variable {s t : Scene} {id : String} {n : Node} {p : Property} {v key r d : Value}
  {k : PropertyKind}

section Reads

theorem getProperty_of_request (s : Scene) (id key d : Value) (hr : r ∈ k.requests) :
    s.getProperty id key r d = (getProperty.read s id key d k, []) := by
  rw [getProperty, PropertyKind.ofRequest?_eq_some_iff.mpr hr]

theorem getProperty_of_no_kind (s : Scene) (id key d : Value)
    (hr : PropertyKind.ofRequest? r = none) : s.getProperty id key r d =
      match r.obstacle? Value.maxNesting with
      | none => (.ok d, [.notKind r])
      | some o => (.error (.unwritten o), []) := by
  have hobstacle : (Notice.notKind r).obstacle? = r.obstacle? Value.maxNesting :=
    Notice.obstacle?_of_values_eq rfl
  rw [getProperty, hr]
  cases ho : r.obstacle? Value.maxNesting <;> simp only [hobstacle, ho]

theorem ofRequest?_of_obstacle {o : Obstacle} (hr : r.obstacle? Value.maxNesting = some o) :
    PropertyKind.ofRequest? r = none := by
  cases r <;> first | rfl | cases hr

theorem getProperty_of_obstacle (s : Scene) (id key d : Value) {o : Obstacle}
    (hr : r.obstacle? Value.maxNesting = some o) :
    s.getProperty id key r d = (.error (.unwritten o), []) := by
  rw [getProperty_of_no_kind s id key d (ofRequest?_of_obstacle hr), hr]

theorem read_text (hn : s.arena.find? id = some n) (hkey : key.unusableKey? = none) :
    getProperty.read s (.text id) key d k = .ok ((n.payload? key k).getD d) := by
  have hasKey : key.asKey = .ok key := Value.asKey_eq_ok_iff.mpr ⟨rfl, hkey⟩
  rw [getProperty.read, resolve_text, hn, hasKey]
  rfl

theorem resolve_congr {id : Value} (hid : ∀ x, id ≠ .text x) : t.resolve id = s.resolve id := by
  unfold resolve
  cases hkey : id.asKey with
  | error e => rfl
  | ok w =>
    obtain ⟨rfl, -⟩ := Value.asKey_eq_ok_iff.mp hkey
    cases id with
    | text x => exact absurd rfl (hid x)
    | _ => rfl

theorem getProperty_congr {id : Value}
    (hnodes : ∀ x, t.arena.contains x = s.arena.contains x)
    (hpayload : ∀ x n m k, id = .text x → key.unusableKey? = none → s.arena.find? x = some n →
      t.arena.find? x = some m → m.payload? key k = n.payload? key k) :
    t.getProperty id key r d = s.getProperty id key r d := by
  have hread (k : PropertyKind) :
      getProperty.read t id key d k = getProperty.read s id key d k := by
    by_cases hid : ∃ x, id = .text x
    · obtain ⟨x, rfl⟩ := hid
      have hnode := hnodes x
      rw [Table.contains_eq_isSome, Table.contains_eq_isSome] at hnode
      rw [getProperty.read, getProperty.read, resolve_text, resolve_text]
      cases hn : s.arena.find? x with
      | none =>
        rw [hn, Option.isSome_none, Option.isSome_eq_false_iff, Option.isNone_iff_eq_none] at hnode
        rw [hnode]
      | some n =>
        rw [hn, Option.isSome_some, Option.isSome_iff_exists] at hnode
        obtain ⟨m, hm⟩ := hnode
        rw [hm]
        cases hkey : key.asKey with
        | error e => rfl
        | ok w =>
          obtain ⟨rfl, husable⟩ := Value.asKey_eq_ok_iff.mp hkey
          have hsame := hpayload x n m k rfl husable hn hm
          simp only [Option.map_some]
          exact congrArg (fun o => Except.ok (Option.getD o d)) hsame
    · rw [getProperty.read, getProperty.read, resolve_congr (not_exists.mp hid)]
  rw [getProperty, getProperty]
  cases PropertyKind.ofRequest? r with
  | none => rfl
  | some k => exact congrArg (·, []) (hread k)

theorem get_snapshot (s : Scene) (number : Nat) (id : String) :
    (s.snapshot number).get (.text id) = .ok (s.arena.find? id) := rfl

theorem getProperty_eq_read {x : Value} (number : Nat)
    (hget : (s.snapshot number).get x = .ok (some n)) (hkey : key.unusableKey? = none)
    (hr : r ∈ k.requests) : s.getProperty x key r d = (.ok (Emitter.read n key k d), []) := by
  obtain ⟨id, rfl, hn⟩ : ∃ id, x = .text id ∧ s.arena.find? id = some n := by
    unfold Snapshot.get at hget
    cases hx : x.asKey with
    | error e =>
      rw [hx] at hget
      cases hget
    | ok w =>
      obtain ⟨rfl, -⟩ := Value.asKey_eq_ok_iff.mp hx
      rw [hx] at hget
      cases x with
      | text id => exact ⟨id, rfl, Except.ok.inj hget⟩
      | _ => cases hget
  rw [getProperty_of_request s _ _ _ hr, read_text hn hkey, Node.payload?, Emitter.read]
  cases n.properties.find? key with
  | none => rfl
  | some p =>
    by_cases hp : p.kind = k <;> simp [Property.payload?, hp]

end Reads

section Writes

variable {key : String}

theorem setProperty_text (hn : s.arena.find? id = some n) (key : String)
    (hv : Property.decode v = .ok p) : s.setProperty (.text id) (.text key) v =
      .done s (s.withChange id fun n => { n with properties := n.properties.insert (.text key) p })
        true [] (.nodeChanged id (some (.text key))) := by
  simp only [setProperty, resolve_text, hn, Option.map_some, hv]
  rfl

theorem arena_setProperty (hn : s.arena.find? id = some n) (key : String)
    (hv : Property.decode v = .ok p) : (s.setProperty (.text id) (.text key) v).scene.arena =
      s.arena.modify id fun n => { n with properties := n.properties.insert (.text key) p } := by
  rw [setProperty_text hn key hv]
  rfl

theorem find?_setProperty (hn : s.arena.find? id = some n) (key : String)
    (hv : Property.decode v = .ok p) :
    (s.setProperty (.text id) (.text key) v).scene.arena.find? id =
      some { n with properties := n.properties.insert (.text key) p } := by
  rw [arena_setProperty hn key hv]
  exact (find?_withChange s id _ id).trans (by rw [hn, Option.map_some, if_pos rfl])

theorem removeProperty_text (hn : s.arena.find? id = some n) (key : String) :
    s.removeProperty (.text id) (.text key) =
      if n.properties.contains (.text key) then
        .done s (s.withChange id fun n => { n with properties := n.properties.erase (.text key) })
          true [] (.nodeChanged id (some (.text key)))
      else .declined s false [] := by
  simp only [removeProperty, resolve_text, hn, Option.map_some]
  rfl

structure Wrote (s t : Scene) (id key : String) (p : Property) : Prop where
  matching : ∀ r ∈ p.kind.requests, ∀ d,
    (t.getProperty (.text id) (.text key) r d).1 = .ok p.payload
  others : ∀ r, r ∉ p.kind.requests → r.IsShowable → ∀ d,
    (t.getProperty (.text id) (.text key) r d).1 = .ok d
  unwritten : ∀ r o, r.obstacle? Value.maxNesting = some o → ∀ d,
    (t.getProperty (.text id) (.text key) r d).1 = .error (.unwritten o)
  apart : ∀ v key' r d, ¬ (v = .text id ∧ key' = .text key) →
    t.getProperty v key' r d = s.getProperty v key' r d
  order : ∀ n, s.arena.find? id = some n → ∃ m, t.arena.find? id = some m ∧
    m.properties.keys = if n.properties.contains (.text key) then n.properties.keys
      else n.properties.keys ++ [.text key]
  nodes : t.arena.keys = s.arena.keys ∧ ∀ x n, s.arena.find? x = some n →
    ∃ m, t.arena.find? x = some m ∧ n.SameLinks m ∧ m.name = n.name ∧ (x ≠ id → m = n)
  root_eq : t.root = s.root
  name_eq : t.name = s.name
  retired_eq : t.retired = s.retired
  bound_eq : t.bound = s.bound

theorem wrote_setProperty (hn : s.arena.find? id = some n) (key : String)
    (hv : Property.decode v = .ok p) :
    s.Wrote (s.setProperty (.text id) (.text key) v).scene id key p := by
  rw [setProperty_text hn key hv]
  let change (n : Node) : Node := { n with properties := n.properties.insert (.text key) p }
  let t := { s with arena := s.withChange id change, revision := s.revision + 1 }
  change s.Wrote t id key p
  have hfound : t.arena.find? id = some (change n) := by
    rw [find?_withChange, hn, Option.map_some, if_pos rfl]
  have hpayload (k : PropertyKind) : (change n).payload? (.text key) k = p.payload? k := by
    rw [Node.payload?, Table.find?_insert_key _ (Value.sameKey_text_self key), Option.bind_some]
  refine ⟨?_, ?_, ?_, ?_, ?_, ⟨Table.keys_modify _ _ _, ?_⟩, rfl, rfl, rfl, rfl⟩
  · intro r hr d
    rw [getProperty_of_request t _ _ d hr, read_text hfound rfl, hpayload, Property.payload?,
      if_pos rfl]
    rfl
  · intro r hr hshown d
    cases hk : PropertyKind.ofRequest? r with
    | none => rw [getProperty_of_no_kind t _ _ d hk, hshown]
    | some k =>
      have hk := PropertyKind.ofRequest?_eq_some_iff.mp hk
      have hne : p.kind ≠ k := by
        rintro rfl
        exact hr hk
      rw [getProperty_of_request t _ _ d hk, read_text hfound rfl, hpayload, Property.payload?,
        if_neg hne]
      rfl
  · intro r o ho d
    rw [getProperty_of_obstacle t _ _ d ho]
  · intro v key' r d hne
    apply getProperty_congr (contains_withChange s id change)
    rintro x n m k rfl - hx hm
    rw [find?_withChange, hx, Option.map_some, Option.some.injEq] at hm
    rw [← hm]
    split
    · next hid =>
      have hkey : key' ≠ .text key := fun he => hne ⟨by rw [hid], he⟩
      have hapart : Table.Apart key' (.text key) := by
        apply Value.apart_of_not_sameKey
        rw [← Bool.not_eq_true]
        exact fun he => hkey (Value.eq_text_of_sameKey_text he)
      rw [Node.payload?, Table.find?_insert_of_apart hapart (Value.sameKey_text_self key)]
      rfl
    · rfl
  · intro n' hn'
    obtain rfl := Option.some.inj (hn.symm.trans hn')
    exact ⟨_, hfound, Table.keys_insert _ _ _⟩
  · intro x m hx
    refine ⟨if x = id then change m else m, ?_, ?_, ?_, fun hne => if_neg hne⟩
    · rw [find?_withChange, hx, Option.map_some]
    · split <;> exact ⟨rfl, rfl, rfl, rfl⟩
    · split <;> rfl

theorem setProperty_setProperty {w : Value} {q : Property} (hn : s.arena.find? id = some n)
    (key : String) (hv : Property.decode v = .ok p) (hw : Property.decode w = .ok q) :
    let t := (s.setProperty (.text id) (.text key) v).scene
    (t.setProperty (.text id) (.text key) w).scene.arena =
      (s.setProperty (.text id) (.text key) w).scene.arena := by
  intro t
  rw [arena_setProperty (find?_setProperty hn key hv) key hw, arena_setProperty hn key hw,
    arena_setProperty hn key hv, Table.modify_modify]
  simp only [Table.insert_insert (Value.sameKey_text_self key)]

theorem getProperty_removeProperty (hn : s.arena.find? id = some n) (key : String) (d : Value)
    (hr : r.IsShowable) :
    ((s.removeProperty (.text id) (.text key)).scene.getProperty (.text id) (.text key) r d).1 =
      .ok d := by
  cases hk : PropertyKind.ofRequest? r with
  | none => rw [getProperty_of_no_kind _ _ _ d hk, hr]
  | some k =>
    rw [getProperty_of_request _ _ _ d (PropertyKind.ofRequest?_eq_some_iff.mp hk),
      removeProperty_text hn]
    split
    · have hfound : (s.withChange id fun n =>
          { n with properties := n.properties.erase (.text key) }).find? id =
            some { n with properties := n.properties.erase (.text key) } := by
        rw [find?_withChange, hn, Option.map_some, if_pos rfl]
      rw [Edit.done, read_text hfound rfl, Node.payload?, Table.find?_erase_key]
      rfl
    · next hkey =>
      rw [Table.contains_eq_isSome, Option.not_isSome_iff_eq_none] at hkey
      rw [Edit.declined, read_text hn rfl, Node.payload?, hkey]
      rfl

theorem removeProperty_setProperty (hn : s.arena.find? id = some n)
    (hkey : n.properties.contains (.text key) = false) (hv : Property.decode v = .ok p) :
    let t := (s.setProperty (.text id) (.text key) v).scene
    (t.removeProperty (.text id) (.text key)).scene.arena = s.arena := by
  intro t
  have hsame := Value.sameKey_text_self key
  rw [removeProperty_text (find?_setProperty hn key hv), if_pos (Table.contains_insert hsame _ _)]
  have harena : (t.withChange id fun n =>
      { n with properties := n.properties.erase (.text key) }) = s.arena := by
    rw [withChange, arena_setProperty hn key hv, Table.modify_modify]
    apply Table.modify_eq_self
    intro m hm
    obtain rfl := Option.some.inj (hn.symm.trans hm)
    simp only [Table.erase_insert_of_new hsame hkey]
  exact harena

end Writes

/-- Writing a property: the reads it answers, what it leaves alone, how it is written again and
taken back, and what the program reads. Only a request that cannot be put in writing gets no
answer. -/
theorem setProperty_stores (hn : s.arena.find? id = some n) (key : String)
    (hv : Property.decode v = .ok p) :
    let e := s.setProperty (.text id) (.text key) v
    e.answer = .ok true ∧ e.written = e ∧ s.Wrote e.scene id key p ∧
    (∀ w q, Property.decode w = .ok q →
      (e.scene.setProperty (.text id) (.text key) w).scene.arena =
        (s.setProperty (.text id) (.text key) w).scene.arena) ∧
    (∀ t ∈ [s, e.scene], ∀ r, r.IsShowable → ∀ d,
      ((t.removeProperty (.text id) (.text key)).scene.getProperty (.text id) (.text key) r d).1 =
        .ok d) ∧
    (n.properties.contains (.text key) = false →
      (e.scene.removeProperty (.text id) (.text key)).scene.arena = s.arena) ∧
    ∀ t ∈ [s, e.scene], ∀ number,
      (∀ x, (t.snapshot number).get (.text x) = .ok (t.arena.find? x)) ∧
      ∀ x m key' k r d, (t.snapshot number).get x = .ok (some m) → key'.unusableKey? = none →
        r ∈ PropertyKind.requests k →
          t.getProperty x key' r d = (.ok (Emitter.read m key' k d), []) := by
  intro e
  have he : e = _ := setProperty_text hn key hv
  have hfound : e.scene.arena.find? id = _ := find?_setProperty hn key hv
  refine ⟨by rw [he]; rfl, by rw [he]; rfl, wrote_setProperty hn key hv, ?_, ?_, ?_, ?_⟩
  · intro w q hw
    exact setProperty_setProperty hn key hv hw
  · rw [List.forall_mem_cons, List.forall_mem_singleton]
    exact ⟨fun r hr d => getProperty_removeProperty hn key d hr,
      fun r hr d => getProperty_removeProperty hfound key d hr⟩
  · intro hkey
    exact removeProperty_setProperty hn hkey hv
  · intro t _ number
    refine ⟨t.get_snapshot number, ?_⟩
    intro x m key' k r d hget hkey hr
    exact getProperty_eq_read number hget hkey hr

theorem setProperty_stores_of_number :
    let s := (single (.text "Scene") "r" (.text "Root") true).after
      (IdSupply.ofList ["a"] IdSupply.numbered) [
        .add (.text "r") (.text "A") (.text "Sprite"),
        .set (.text "a") (.text "width") (.object [(.text "Number", .whole 7)])]
    let three : Property := .number (.ofInt 3)
    let e := s.setProperty (.text "a") (.text "depth") (.object [(.text "Number", .whole 3)])
    let read (r : Value) := (e.scene.getProperty (.text "a") (.text "depth") r .null).1
    (∃ n, s.arena.find? "a" = some n ∧ n.properties.contains (.text "depth") = false) ∧
      Property.decode (.object [(.text "Number", .whole 3)]) = .ok three ∧
      s.Wrote e.scene "a" "depth" three ∧ read (.builtin .number) = .ok three.payload ∧
      read (.builtin .whole) = .ok .null ∧ read (.propertyType none) = .ok .null ∧
      (e.scene.removeProperty (.text "a") (.text "depth")).scene.arena = s.arena := by
  intro s three e read
  have hdecode : Property.decode (.object [(.text "Number", .whole 3)]) = .ok three := rfl
  have hnew : (s.arena.find? "a").map (·.properties.contains (.text "depth")) = some false := by
    decide +kernel
  obtain ⟨n, hn, hkey⟩ := Option.map_eq_some_iff.mp hnew
  obtain ⟨-, -, hwrote, -, -, hback, -⟩ := setProperty_stores hn "depth" hdecode
  refine ⟨⟨n, hn, hkey⟩, hdecode, hwrote, ?_, ?_, ?_, hback hkey⟩
  · apply hwrote.matching
    simp [three, Property.kind, PropertyKind.requests]
  · refine hwrote.others (.builtin .whole) ?_ rfl .null
    simp [three, Property.kind, PropertyKind.requests]
  · refine hwrote.others (.propertyType none) ?_ rfl .null
    simp [three, Property.kind, PropertyKind.requests]

/-- A number with too many digits is no kind, and yet the default is not the answer. -/
theorem getProperty_fails_of_overlong :
    let s := single (.text "Scene") "r" (.text "Root") true
    let three : Value := .object [(.text "Number", .whole 3)]
    let t := (s.setProperty (.text "r") (.text "x") three).scene
    s.Reachable ∧ (s.setProperty (.text "r") (.text "x") three).answer = .ok true ∧
      PropertyKind.ofRequest? .overlong = none ∧
      (t.getProperty (.text "r") (.text "x") .overlong .null).1 = .error (.unwritten .digits) := by
  intro s three t
  have hcreated : (create (.text "Scene") (.text "Root") true ⟨fun _ => .ok "r", 0⟩).1 = .ok s :=
    rfl
  have hset : (s.setProperty (.text "r") (.text "x") three).answer = .ok true := rfl
  have hlong := Value.obstacle?_overlong Value.maxNesting
  exact ⟨.built (.created hcreated), hset, ofRequest?_of_obstacle hlong,
    congrArg Prod.fst (getProperty_of_obstacle t _ _ _ hlong)⟩

end Scene

end SceneEditor
