import SceneEditor.Proofs.Color.Hex
import SceneEditor.Proofs.Number.Nearest
import SceneEditor.Proofs.Scene.Stored

namespace SceneEditor

open Number

def Value.Tags (v : Value) (k : PropertyKind) (payload : Value) : Prop :=
  v = .property (some k) payload ∨ v = .object [(.text k.name, payload)]

/-- The payloads of each kind. Truth values are no numbers, and whole numbers must not be rounded to
an infinity. -/
def PropertyKind.Accepts : PropertyKind → Value → Prop
  | string, v => ∃ s, v = .text s
  | number, v => (∃ x, v = .number x) ∨ ∃ i, v = .whole i ∧ |i| < 2 ^ 1024 - 2 ^ 970
  | boolean, v => ∃ b, v = .flag b
  | color, v => (∃ i, v = .whole i ∧ 0 ≤ i ∧ i ≤ 0xffffffff) ∨
      ∃ s digits, v = .text s ∧ s.toList = '#' :: digits ∧
        (digits.length = 6 ∨ digits.length = 8) ∧ ∀ d ∈ digits, Text.IsHexDigit d

namespace Property

inductive IsMadeOf : Property → Value → Prop
  | string (s : String) : IsMadeOf (.string s) (.text s)
  | number (x : Double) : IsMadeOf (.number x) (.number x)
  | rounded {i : Int} {x : Double} (h : Binary.Rounds i x) : IsMadeOf (.number x) (.whole i)
  | boolean (b : Bool) : IsMadeOf (.boolean b) (.flag b)
  | color (c : Color) : IsMadeOf (.color c) (.whole c.toNat)
  | written {s : String} {c : Color} (h : c.IsWritten s) : IsMadeOf (.color c) (.text s)

end Property

variable {v payload : Value} {k : PropertyKind} {p : Property} {i : Int} {c : Color}

theorem Color.ofInt?_eq_some_iff : Color.ofInt? i = some c ↔ i = c.toNat := by
  constructor
  · intro h
    rw [ofInt?, Option.ite_none_right_eq_some, Option.some.injEq] at h
    obtain ⟨hrange, hc⟩ := h
    have htoNat := (ofNat_eq_iff (by omega)).mp hc
    omega
  · rintro rfl
    exact c.ofInt?_toNat

theorem Color.ofHexValue_eq_ok_iff {s : String} :
    Color.ofHexValue (.text s) = .ok c ↔ c.IsWritten s := by
  rw [← ofHex?_eq_some_iff]
  unfold ofHexValue
  cases hc : ofHex? s with
  | none => simp [hc]
  | some d => simp [hc]

theorem PropertyKind.ofName?_eq_some_iff {s : String} :
    PropertyKind.ofName? s = some k ↔ s = k.name := by
  constructor
  · intro h
    have hs := List.find?_some h
    exact (beq_iff_eq.mp hs).symm
  · rintro rfl
    cases k <;> rfl

namespace Property

theorem kind_and_isMadeOf_of_ofPayload (h : ofPayload k payload = .ok p) :
    p.kind = k ∧ p.IsMadeOf payload := by
  unfold ofPayload at h
  split at h
  · cases h
    exact ⟨rfl, .string _⟩
  · cases h
    exact ⟨rfl, .number _⟩
  · next i =>
    rcases Binary.ofInt_spec (f := .double) (by decide) i with ⟨_, hrounds⟩ | ⟨_, hinfinity⟩
    · obtain ⟨s, e, hc, hfinite⟩ := hrounds.finite
      rw [hfinite] at h hrounds
      cases h
      exact ⟨rfl, .rounded hrounds⟩
    · rw [hinfinity] at h
      cases h
  · cases h
    exact ⟨rfl, .boolean _⟩
  · next i =>
    split at h
    · next c hc =>
      cases h
      rw [Color.ofInt?_eq_some_iff.mp hc]
      exact ⟨rfl, .color c⟩
    · cases h
  · next s =>
    split at h
    · next c hc =>
      cases h
      exact ⟨rfl, .written (Color.ofHexValue_eq_ok_iff.mp hc)⟩
    · cases h
  · cases h

theorem IsMadeOf.ofPayload_eq (h : p.IsMadeOf payload) : ofPayload p.kind payload = .ok p := by
  cases h with
  | @rounded i x h =>
    obtain ⟨s, e, hc, rfl⟩ := h.finite
    have hround := (Binary.ofInt_eq_iff (by decide) rfl).mpr h
    simp only [kind, ofPayload, hround]
  | color c => simp only [kind, ofPayload, c.ofInt?_toNat]
  | written h => simp only [kind, ofPayload, Color.ofHexValue_eq_ok_iff.mpr h]
  | _ => rfl

theorem ofPayload_eq_ok_iff : ofPayload k payload = .ok p ↔ p.kind = k ∧ p.IsMadeOf payload := by
  refine ⟨kind_and_isMadeOf_of_ofPayload, ?_⟩
  rintro ⟨rfl, h⟩
  exact h.ofPayload_eq

theorem accepts_iff : k.Accepts payload ↔ ∃ p : Property, p.kind = k ∧ p.IsMadeOf payload := by
  constructor
  · intro h
    cases k with
    | string =>
      obtain ⟨s, rfl⟩ := h
      exact ⟨_, rfl, .string s⟩
    | boolean =>
      obtain ⟨b, rfl⟩ := h
      exact ⟨_, rfl, .boolean b⟩
    | number =>
      rcases h with ⟨x, rfl⟩ | ⟨i, rfl, hi⟩
      · exact ⟨_, rfl, .number x⟩
      · obtain ⟨x, hx⟩ := Binary.exists_rounds_iff.mpr hi
        exact ⟨_, rfl, .rounded hx⟩
    | color =>
      rcases h with ⟨i, rfl, hi⟩ | ⟨s, digits, rfl, hs⟩
      · obtain ⟨c, rfl⟩ := Color.exists_eq_toNat_iff.mpr hi
        exact ⟨_, rfl, .color c⟩
      · obtain ⟨c, hc⟩ := Color.exists_isWritten_iff.mpr ⟨digits, hs⟩
        exact ⟨_, rfl, .written hc⟩
  · rintro ⟨p, rfl, h⟩
    cases h with
    | string s => exact ⟨s, rfl⟩
    | number x => exact .inl ⟨x, rfl⟩
    | rounded h => exact .inr ⟨_, rfl, Binary.exists_rounds_iff.mp ⟨_, h⟩⟩
    | boolean b => exact ⟨b, rfl⟩
    | color c => exact .inl ⟨_, rfl, Color.exists_eq_toNat_iff.mp ⟨c, rfl⟩⟩
    | written h =>
      obtain ⟨digits, hs⟩ := Color.exists_isWritten_iff.mp ⟨_, h⟩
      exact .inr ⟨_, digits, rfl, hs⟩

theorem decode_of_tags (h : v.Tags k payload) :
    decode v = (ofPayload k payload).mapError .property := by
  rcases h with rfl | rfl
  · rfl
  · have htag : PropertyKind.ofTag? (.text k.name) = some k :=
      PropertyKind.ofName?_eq_some_iff.mpr rfl
    simp only [decode, htag]

section Decode

variable (h : v.IsJson ∨ ∃ k payload, v = .property (some k) payload)

include h

theorem tags_or_error :
    (∃ k payload, v.Tags k payload) ∨ ∃ e, decode v = .error (.property e) := by
  rcases h with h | ⟨k, payload, rfl⟩
  · cases h with
    | @object entries htext =>
      match entries, htext with
      | [], _ => exact .inr ⟨_, rfl⟩
      | _ :: _ :: _, _ => exact .inr ⟨_, rfl⟩
      | [(tag, payload)], htext =>
        obtain ⟨s, rfl⟩ : ∃ s, tag = .text s := htext _ List.mem_cons_self
        cases hk : PropertyKind.ofName? s with
        | none =>
          exact .inr ⟨.unknownTag (.text s), by simp only [decode, PropertyKind.ofTag?, hk]⟩
        | some k =>
          obtain rfl := PropertyKind.ofName?_eq_some_iff.mp hk
          exact .inl ⟨k, payload, .inr rfl⟩
    | _ => exact .inr ⟨_, rfl⟩
  · exact .inl ⟨k, payload, .inl rfl⟩

theorem decode_eq_ok_iff :
    decode v = .ok p ↔ ∃ payload, v.Tags p.kind payload ∧ p.IsMadeOf payload := by
  constructor
  · intro hdecode
    rcases tags_or_error h with ⟨k, payload, htags⟩ | ⟨e, herror⟩
    · rw [decode_of_tags htags, Reading.mapError_eq_ok_iff, ofPayload_eq_ok_iff] at hdecode
      obtain ⟨rfl, hmade⟩ := hdecode
      exact ⟨payload, htags, hmade⟩
    · rw [herror] at hdecode
      cases hdecode
  · rintro ⟨payload, htags, hmade⟩
    rw [decode_of_tags htags, hmade.ofPayload_eq]
    rfl

theorem decode_eq_error {e : Cause} (herror : decode v = .error e) : ∃ pe, e = .property pe := by
  rcases tags_or_error h with ⟨k, payload, htags⟩ | ⟨pe, hproperty⟩
  · rw [decode_of_tags htags] at herror
    cases hp : ofPayload k payload with
    | ok p =>
      rw [hp] at herror
      cases herror
    | error pe =>
      rw [hp] at herror
      exact ⟨pe, (Except.error.inj herror).symm⟩
  · exact ⟨pe, Except.error.inj (herror.symm.trans hproperty)⟩

end Decode

/-- Of documents and properties in the making, those are read as a property that tag a payload which
their kind accepts, and as what is made of it. The property is read back as it is, handed over or
written down, and all else fails as no property. -/
theorem decode_accepts_exactly (h : v.IsJson ∨ ∃ k payload, v = .property (some k) payload) :
    ((∃ p, decode v = .ok p) ↔ ∃ k payload, v.Tags k payload ∧ k.Accepts payload) ∧
    (∀ p, decode v = .ok p ↔ ∃ payload, v.Tags p.kind payload ∧ p.IsMadeOf payload) ∧
    (∀ p, decode v = .ok p → decode p.toValue = .ok p ∧ decode p.toDocument = .ok p) ∧
    ∀ e, decode v = .error e → e.family = .propertyDecode := by
  refine ⟨?_, fun p => decode_eq_ok_iff h, fun p _ => ?_, ?_⟩
  · simp only [decode_eq_ok_iff h, accepts_iff]
    constructor
    · rintro ⟨p, payload, htags, hmade⟩
      exact ⟨p.kind, payload, htags, p, rfl, hmade⟩
    · rintro ⟨_, payload, htags, p, rfl, hmade⟩
      exact ⟨p, payload, htags, hmade⟩
  · exact ⟨p.isCanonical.decode_toValue, p.decode_toDocument⟩
  · intro e herror
    obtain ⟨pe, rfl⟩ := decode_eq_error h herror
    rfl

theorem decode_accepts_exactly_of_tie :
    let v : Value := .object [(.text "Number", .whole (2 ^ 53 + 1))]
    let w : Value := .property (some .color) (.text "#80ff00Ag")
    let x : Double := .finite false (2 ^ 52) 1 (by decide)
    v.IsJson ∧ decode v = .ok (.number x) ∧ Binary.Rounds (2 ^ 53 + 1 : Int) x ∧
      (∃ e, decode w = .error e) ∧ ∀ e, decode w = .error e → e.family = .propertyDecode := by
  intro v w x
  have hv : v.IsJson := by simp [v]
  have hdecode : decode v = .ok (.number x) := rfl
  obtain ⟨_, hmade, _⟩ := decode_accepts_exactly (.inl hv)
  obtain ⟨_, _, _, herror⟩ := decode_accepts_exactly (.inr ⟨.color, .text "#80ff00Ag", rfl⟩)
  obtain ⟨payload, htags, hpayload⟩ := (hmade _).mp hdecode
  rw [Value.Tags, or_iff_right (by nofun)] at htags
  injection htags with hentries
  cases hentries
  cases hpayload with
  | rounded h => exact ⟨hv, hdecode, h, ⟨_, rfl⟩, herror⟩

end Property

end SceneEditor
