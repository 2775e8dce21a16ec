import SceneEditor.Property.Decode
import SceneEditor.Proofs.Value.Showable

namespace SceneEditor

inductive Value.HasPart : Value → Value → Prop
  | payload {kind : Option PropertyKind} {v : Value} : HasPart (.property kind v) v
  | key {entries : List (Value × Value)} {e : Value × Value} (he : e ∈ entries) :
      HasPart (.object entries) e.1
  | entry {entries : List (Value × Value)} {e : Value × Value} (he : e ∈ entries) :
      HasPart (.object entries) e.2

namespace Value

variable {v w : Value}

theorem IsShowable.part (hv : v.IsShowable) (h : v.HasPart w) : w.IsShowable := by
  cases h with
  | payload => exact hv.payload
  | key he => exact (isShowable_object_iff.mp hv _ he).1
  | entry he => exact (isShowable_object_iff.mp hv _ he).2

theorem IsJson.part (hv : v.IsJson) (h : v.HasPart w) : w.IsJson := by
  cases h with
  | payload => cases hv
  | key he =>
    obtain ⟨s, hs⟩ := (isJson_object_iff.mp hv).1 _ he
    rw [hs]
    exact .text s
  | entry he => exact (isJson_object_iff.mp hv).2.2 _ he

end Value

namespace Property

variable {v w payload : Value} {k : PropertyKind} {e : PropertyError}

theorem eq_of_mem_values (he : ofPayload k payload = .error e) (hw : w ∈ e.values) :
    w = payload := by
  unfold ofPayload at he
  split at he
  · cases he
  · cases he
  · split at he
    · obtain rfl := Except.error.inj he
      exact List.mem_singleton.mp hw
    · cases he
  · cases he
  · split at he
    · cases he
    · obtain rfl := Except.error.inj he
      exact List.mem_singleton.mp hw
  · split at he
    · cases he
    · obtain rfl := Except.error.inj he
      cases hw
  · obtain rfl := Except.error.inj he
    exact List.mem_singleton.mp hw

theorem hasPart_of_mem_values (he : decode v = .error (.property e)) (hw : w ∈ e.values) :
    v.HasPart w := by
  have hmap {payload : Value} {k : PropertyKind}
      (he : (ofPayload k payload).mapError Cause.property = .error (.property e)) :
      w = payload := by
    cases hp : ofPayload k payload with
    | ok p =>
      rw [hp] at he
      cases he
    | error e' =>
      rw [hp] at he
      obtain rfl := Cause.property.inj (Except.error.inj he)
      exact eq_of_mem_values hp hw
  unfold decode at he
  split at he
  · cases he
  · exact hmap he ▸ .payload
  · next tag payload =>
    split at he
    · exact hmap he ▸ .entry List.mem_cons_self
    · obtain rfl := Cause.property.inj (Except.error.inj he)
      exact List.mem_singleton.mp hw ▸ .key List.mem_cons_self
  · next entries _ =>
    obtain rfl := Cause.property.inj (Except.error.inj he)
    obtain ⟨x, hx, rfl⟩ := List.mem_map.mp hw
    exact .key hx
  · obtain rfl := Cause.property.inj (Except.error.inj he)
    cases hw

theorem decode_cases (v : Value) : (∃ payload, v = .property none payload) ∨
    (∃ p, decode v = .ok p) ∨ ∃ e, decode v = .error (.property e) := by
  have hmap (k : PropertyKind) (payload : Value) :
      (∃ p, (ofPayload k payload).mapError Cause.property = .ok p) ∨
        ∃ e, (ofPayload k payload).mapError Cause.property = .error (.property e) := by
    cases ofPayload k payload with
    | ok p => exact .inl ⟨p, rfl⟩
    | error e => exact .inr ⟨e, rfl⟩
  unfold decode
  split
  · exact .inl ⟨_, rfl⟩
  · exact .inr (hmap _ _)
  · split
    · exact .inr (hmap _ _)
    · exact .inr (.inr ⟨_, rfl⟩)
  · exact .inr (.inr ⟨_, rfl⟩)
  · exact .inr (.inr ⟨_, rfl⟩)

end Property

end SceneEditor
