import SceneEditor.Program.Attempt
import SceneEditor.Proofs.Node.Effective
import SceneEditor.Proofs.Program.Statements
import SceneEditor.Proofs.Text.Digits
import SceneEditor.Proofs.Value.Showable

namespace SceneEditor

open SceneEditor.Number

structure Color.SpelledBy (c : Color) (digits : List Char) : Prop where
  length_eq : digits.length = 8
  capital : ∀ d ∈ digits, d ∈ "0123456789ABCDEF".toList
  value : Text.hexValue? digits = some c.toNat

theorem Color.exists_hexLiteral_eq (c : Color) :
    ∃ digits, hexLiteral c.toNat = "0x" ++ String.ofList digits ∧ c.SpelledBy digits := by
  have hlt : c.toNat < 16 ^ 8 := c.packed.toNat_lt
  have hlength : ((Nat.toDigits 16 c.toNat).map Char.toUpper).length ≤ 8 := by
    rw [List.length_map]
    exact (Nat.length_toDigits_le_iff (by decide) (by decide)).mpr hlt
  refine ⟨Text.padded 8 ((Nat.toDigits 16 c.toNat).map Char.toUpper), ?_, ?_, ?_, ?_⟩
  · rw [hexLiteral, Int.natAbs_natCast, if_neg (Int.not_lt.mpr (Int.natCast_nonneg _))]
    exact @String.ofList_append ['0', 'x'] _
  · exact Text.length_padded hlength
  · intro d hd
    rcases List.mem_append.mp hd with hd | hd
    · rw [List.eq_of_mem_replicate hd]
      decide
    · obtain ⟨e, he, rfl⟩ := List.mem_map.mp hd
      obtain ⟨k, hk, rfl⟩ := Text.exists_of_mem_toDigits he
      have hall : ∀ k < 16, k.digitChar.toUpper ∈ "0123456789ABCDEF".toList := by decide
      exact hall k hk
  · rw [Text.hexValue?_padded]
    exact Text.hexValue?_map_toDigits (by decide) c.toNat

namespace Emitter

variable (n : Node) (key : String)

theorem read_eq_payload (default : Property) :
    read n (.text key) default.kind default.payload = (n.effective key default).payload := by
  unfold read Node.effective
  cases n.properties.find? (.text key) with
  | none => rfl
  | some p =>
    by_cases hk : p.kind = default.kind
    · simp only [hk, if_true]
    · simp only [hk, if_false]

theorem tryNumber_eq (x : Double) : tryNumber n key x = .ok (number n key x).positional := by
  have hread : read n (.text key) .number (.number x) = .number (number n key x) :=
    (read_eq_payload n key (.number x)).trans (congrArg Property.payload (effective_number n key x))
  rw [tryNumber, hread]
  rfl

theorem tryColor_eq (c : Color) : tryColor n key c = .ok (hexLiteral (color n key c)) := by
  obtain ⟨d, hd, hcolor⟩ := effective_color n key c
  have hread : read n (.text key) .color (.whole c.toNat) = .whole d.toNat :=
    (read_eq_payload n key (.color c)).trans (congrArg Property.payload hd)
  rw [tryColor, hread, hcolor]
  rfl

theorem tryBox_eq : tryBox n = .ok (box n) := by
  simp only [tryBox, tryNumber_eq]
  rfl

theorem trySprite_eq : trySprite n = .ok (sprite n) := by
  have hread : read n (.text "path") .string (.text "default") = .text (text n "path" "default") :=
    (read_eq_payload n "path" (.string "default")).trans
      (congrArg Property.payload (effective_text n "path" "default"))
  rw [trySprite, tryBox_eq, hread]
  rfl

theorem tryRectangle_eq : tryRectangle n = .ok (rectangle n) := by
  simp only [tryRectangle, tryBox_eq, tryColor_eq, tryNumber_eq]
  rfl

theorem tryBuiltin_eq :
    tryBuiltin n = .ok ((Registry.builtin.emitterFor n.type).emit n) := by
  unfold tryBuiltin
  cases n.type with
  | sprite =>
    simp only [trySprite_eq]
    rfl
  | rectangle =>
    simp only [tryRectangle_eq]
    rfl
  | _ => rfl

theorem rectangle_spells_color : ∃ c digits,
    n.effective "color" (.color .opaqueWhite) = .color c ∧ c.SpelledBy digits ∧
      rectangle n = "rect!(" ++ box n ++ ", color = " ++ ("0x" ++ String.ofList digits) ++
        ", border_radius = " ++ (number n "border_radius" (Binary.ofInt 0)).positional ++ ");" := by
  obtain ⟨c, hc, hcolor⟩ := effective_color n "color" .opaqueWhite
  obtain ⟨digits, hliteral, hdigits⟩ := c.exists_hexLiteral_eq
  exact ⟨c, digits, hc, hdigits, by rw [rectangle, hcolor, hliteral]⟩

end Emitter

namespace Program

variable {r : Registry} {l : Layout} {a : Arena}

theorem tryStatementsFrom_eq {emit : Node → Except Cause (Option String)}
    (h : ∀ n, emit n = .ok ((r.emitterFor n.type).emit n)) (seen : List String)
    (stack : List (String × Int)) :
    tryStatementsFrom emit r l a seen stack = .ok (statementsFrom r l a seen stack) := by
  fun_induction tryStatementsFrom emit r l a seen stack with
  | case1 => rw [statementsFrom]
  | case2 seen id depth stack hs ih => rw [ih, statementsFrom_seen hs]
  | case3 seen id depth stack hs hn ih => rw [ih, statementsFrom_absent hn]
  | case4 seen id depth stack hs n hn below ih =>
    rw [ih, h, statementsFrom_found hn hs]
    rfl

theorem tryGenerate_eq (l : Layout) {s : Snapshot} (h : s.name.IsShowable) :
    tryGenerate l s = .ok (generate .builtin l s) := by
  have hnotice (count : Nat) : (Notice.generated count s.name s.revision).obstacle? = none :=
    (Notice.obstacle?_of_values_eq rfl).trans h
  rw [tryGenerate, tryStatementsFrom_eq Emitter.tryBuiltin_eq]
  simp only [bind, Except.bind, hnotice]
  rfl

end Program

end SceneEditor
