import SceneEditor.Proofs.Number.Positional
import SceneEditor.Proofs.Program.Attempt
import SceneEditor.Proofs.Scene.Request
import SceneEditor.Scene.Query

/-!
Statements tell nodes apart. Text goes into a statement as it is, so a path can hold quotes and
whatever else belongs to a statement. All that follows the path are numbers, though, and no number
has a blank in it: a statement is read from its end, field by field, and what is left is the path.
-/

namespace SceneEditor

open SceneEditor.Number
open Document (signText)

namespace Text

theorem append_separator_inj {α : Type} {sep : α} {xs ys us vs : List α} (hu : sep ∉ us)
    (hv : sep ∉ vs) : xs ++ sep :: us = ys ++ sep :: vs ↔ xs = ys ∧ us = vs := by
  have hside {xs ys us vs : List α} (hu : sep ∉ us) {as : List α} (hxs : ys = xs ++ as)
      (has : sep :: us = as ++ sep :: vs) : xs = ys ∧ us = vs := by
    cases as with
    | nil => exact ⟨by rw [hxs, List.append_nil], List.tail_eq_of_cons_eq has⟩
    | cons a as =>
      rw [List.cons_append, List.cons.injEq] at has
      exact absurd (has.2 ▸ List.mem_append_right as List.mem_cons_self) hu
  constructor
  · intro h
    rcases List.append_eq_append_iff.mp h with ⟨as, hxs, has⟩ | ⟨as, hys, has⟩
    · exact hside hu hxs has
    · exact (hside hv hys has).imp Eq.symm Eq.symm
  · rintro ⟨rfl, rfl⟩
    rfl

end Text

namespace Number.Binary

theorem blank_notMem_positional (x : Double) : ' ' ∉ x.positional.toList := by
  cases x with
  | nan => decide
  | infinity negative => cases negative <;> decide
  | finite negative s e h =>
    by_cases hs : s = 0
    · subst hs
      obtain rfl := h.exponent_eq_least
      have hzero : ∀ negative, ' ' ∉ (zero negative : Double).positional.toList := by decide
      exact hzero negative
    · have hsign : ' ' ∉ signText negative := by cases negative <;> decide
      rw [toList_positional h hs, List.mem_append, not_or]
      exact ⟨hsign, fun hmem => ((isNumeral_positional h hs).chars _ hmem).spec.2.1 rfl⟩

end Number.Binary

namespace Color

theorem hexLiteral_injective : Function.Injective fun c : Color => hexLiteral c.toNat := by
  intro c d h
  obtain ⟨digits, hc, hdigits⟩ := c.exists_hexLiteral_eq
  obtain ⟨digits', hd, hdigits'⟩ := d.exists_hexLiteral_eq
  simp only [hc, hd, String.append_right_inj, String.ofList_inj] at h
  have hvalue := hdigits.value
  rw [h, hdigits'.value, Option.some.injEq] at hvalue
  exact congrArg mk (UInt32.toNat_inj.mp hvalue).symm

theorem blank_notMem_hexLiteral (c : Color) : ' ' ∉ (hexLiteral c.toNat).toList := by
  obtain ⟨digits, hc, hdigits⟩ := c.exists_hexLiteral_eq
  have hnot : ' ' ∉ "0123456789ABCDEF".toList := by decide
  rw [hc, String.toList_append, List.mem_append, not_or,
    @String.toList_ofList digits]
  exact ⟨by decide, fun hmem => hnot (hdigits.capital _ hmem)⟩

end Color

namespace Emitter

/-- A part of a statement: a label and, after a blank, how the effective property under a key is
written there. -/
structure Field where
  label : String
  read : String × Property
  written : Node → String
  written_iff : ∀ n m, written n = written m ↔
    n.effective read.1 read.2 = m.effective read.1 read.2
  blank_notMem : ∀ n, ' ' ∉ (written n).toList

namespace Field

def number (label key : String) (default : Double) : Field where
  label := label
  read := (key, .number default)
  written n := (Emitter.number n key default).positional
  written_iff n m := by
    rw [Binary.positional_injective.eq_iff, effective_number, effective_number,
      Property.number.injEq]
  blank_notMem _ := Binary.blank_notMem_positional _

def color (label key : String) (default : Color) : Field where
  label := label
  read := (key, .color default)
  written n := hexLiteral (Emitter.color n key default)
  written_iff n m := by
    obtain ⟨c, hc, hn⟩ := effective_color n key default
    obtain ⟨d, hd, hm⟩ := effective_color m key default
    rw [hn, hm, hc, hd, Property.color.injEq]
    exact Color.hexLiteral_injective.eq_iff
  blank_notMem n := by
    obtain ⟨c, _, hc⟩ := effective_color n key default
    rw [hc]
    exact c.blank_notMem_hexLiteral

def after (n : Node) (s : String) (f : Field) : String := s ++ (f.label ++ " ") ++ f.written n

def box : List Field := [
  number "x =" "x" (Binary.ofInt 0), number ", y =" "y" (Binary.ofInt 0),
  number ", w =" "width" (Binary.ofInt 100), number ", h =" "height" (Binary.ofInt 100)]

def colorAndRadius : List Field := [
  color ", color =" "color" .opaqueWhite,
  number ", border_radius =" "border_radius" (Binary.ofInt 0)]

variable {n m : Node} {s t : String}

theorem after_inj (f : Field) : f.after n s = f.after m t ↔
    s = t ∧ n.effective f.read.1 f.read.2 = m.effective f.read.1 f.read.2 := by
  have htoList (n : Node) (s : String) :
      (f.after n s).toList = (s ++ f.label).toList ++ ' ' :: (f.written n).toList := by
    simp [after]
  rw [← String.toList_inj, htoList, htoList,
    Text.append_separator_inj (f.blank_notMem n) (f.blank_notMem m), String.toList_inj,
    String.toList_inj, String.append_left_inj, f.written_iff]

theorem foldl_after_inj (fields : List Field) :
    fields.foldl (after n) s = fields.foldl (after m) t ↔
      s = t ∧ ∀ e ∈ fields.map read, n.effective e.1 e.2 = m.effective e.1 e.2 := by
  induction fields generalizing s t with
  | nil => simp
  | cons f fields ih =>
    rw [List.foldl_cons, List.foldl_cons, ih, after_inj, List.map_cons, List.forall_mem_cons,
      and_assoc]

theorem append_box : s ++ Emitter.box n = box.foldl (after n) s := by
  simp [Emitter.box, box, after, number, String.append_assoc]

theorem map_read_box : box.map read = NodeType.drawnBox := rfl

theorem map_read_rectangle : (box ++ colorAndRadius).map read = NodeType.drawn .rectangle := rfl

end Field

variable {n m : Node}

theorem text_eq_iff {key s : String} : text n key s = text m key s ↔
    n.effective key (.string s) = m.effective key (.string s) := by
  rw [effective_text, effective_text, Property.string.injEq]

theorem sprite_eq_iff : sprite n = sprite m ↔
    ∀ e ∈ NodeType.drawn .sprite, n.effective e.1 e.2 = m.effective e.1 e.2 := by
  -- What the fields leave over is the path between two fixed texts.
  rw [sprite, sprite, Field.append_box, Field.append_box, String.append_left_inj,
    Field.foldl_after_inj, Field.map_read_box, String.append_left_inj, String.append_right_inj,
    text_eq_iff, NodeType.drawn, List.forall_mem_append, List.forall_mem_singleton, and_comm]

theorem rectangle_eq (n : Node) :
    rectangle n = (Field.box ++ Field.colorAndRadius).foldl (Field.after n) "rect!(" ++ ");" := by
  rw [rectangle, Field.append_box, List.foldl_append]
  simp [Field.colorAndRadius, Field.after, Field.number, Field.color, String.append_assoc]

theorem rectangle_eq_iff : rectangle n = rectangle m ↔
    ∀ e ∈ NodeType.drawn .rectangle, n.effective e.1 e.2 = m.effective e.1 e.2 := by
  rw [rectangle_eq, rectangle_eq, String.append_left_inj, Field.foldl_after_inj,
    Field.map_read_rectangle]
  exact and_iff_right rfl

end Emitter

def NodeType.opening : NodeType → String
  | sprite => "sprite!(\""
  | rectangle => "rect!("
  | t => "// Unimplemented node type: " ++ t.name

theorem NodeType.eq_of_opening_prefix {t u : NodeType}
    (h : t.opening.toList <+: u.opening.toList) : t = u := by
  have hall : ∀ t ∈ all, ∀ u ∈ all, t.opening.toList <+: u.opening.toList → t = u := by
    decide +kernel
  exact hall t (by cases t <;> decide) u (by cases u <;> decide) h

namespace Node

def statement (n : Node) : Option String := (Registry.builtin.emitterFor n.type).emit n

variable {n m : Node}

theorem statement_eq (n : Node) : n.statement = match n.type with
    | .container => none
    | .sprite => some (Emitter.sprite n)
    | .rectangle => some (Emitter.rectangle n)
    | t => some ("// Unimplemented node type: " ++ t.name) := by
  rw [statement]
  cases ht : n.type with
  | container | sprite | rectangle => rfl
  | _ => exact congrArg (fun t : NodeType => some ("// Unimplemented node type: " ++ t.name)) ht

theorem exists_statement_eq (h : n.type ≠ .container) :
    ∃ rest, n.statement = some (n.type.opening ++ rest) := by
  rw [statement_eq]
  cases ht : n.type with
  | container => exact absurd ht h
  | sprite =>
    simp only [Emitter.sprite, String.append_assoc]
    exact ⟨_, rfl⟩
  | rectangle =>
    simp only [Emitter.rectangle, String.append_assoc]
    exact ⟨_, rfl⟩
  | _ => exact ⟨"", by rw [String.append_empty]; rfl⟩

theorem statement_eq_none_iff : n.statement = none ↔ n.type = .container := by
  rw [statement_eq]
  cases n.type <;> simp

theorem type_eq_of_statement_eq (h : n.statement = m.statement) : n.type = m.type := by
  by_cases hn : n.type = .container
  · rw [hn, statement_eq_none_iff.mp (h ▸ statement_eq_none_iff.mpr hn)]
  · have hm : m.type ≠ .container := by
      rwa [ne_eq, ← statement_eq_none_iff, ← h, statement_eq_none_iff]
    obtain ⟨rest, hrest⟩ := exists_statement_eq hn
    obtain ⟨rest', hrest'⟩ := exists_statement_eq hm
    rw [hrest, hrest', Option.some.injEq, ← String.toList_inj, String.toList_append,
      String.toList_append] at h
    have hprefix := List.prefix_append n.type.opening.toList rest.toList
    rw [h] at hprefix
    rcases List.prefix_or_prefix_of_prefix hprefix (List.prefix_append _ _) with hle | hle
    · exact NodeType.eq_of_opening_prefix hle
    · exact (NodeType.eq_of_opening_prefix hle).symm

theorem statement_eq_iff_effective (h : n.type = m.type) : n.statement = m.statement ↔
    ∀ e ∈ n.type.drawn, n.effective e.1 e.2 = m.effective e.1 e.2 := by
  rw [statement_eq, statement_eq, ← h]
  cases n.type with
  | sprite => exact Option.some_inj.trans Emitter.sprite_eq_iff
  | rectangle => exact Option.some_inj.trans Emitter.rectangle_eq_iff
  | _ => exact iff_of_true rfl (List.forall_mem_nil _)

end Node

theorem Scene.getProperty_eq_effective {s : Scene} {id : String} {n : Node}
    (h : s.arena.find? id = some n) (key : String) (default : Property) {request : Value}
    (hrequest : PropertyKind.ofRequest? request = some default.kind) :
    s.getProperty (.text id) (.text key) request default.payload =
      (.ok (n.effective key default).payload, []) := by
  rw [getProperty, hrequest, ← n.getD_payload?]
  simp only [getProperty.read, resolve_text, h]
  rfl

namespace Node

/-- The built-in statements of two nodes are the same exactly if the nodes have the same type and
the same effective properties where their statements look, whatever their paths contain. Numbers are
compared as doubles, with two zeros and one NaN. What is effective is what the scene answers when it
is asked for the key and the kind with that default. -/
theorem statement_eq_iff (n m : Node) :
    (n.statement = none ↔ n.type = .container) ∧
    (n.statement = m.statement ↔
      n.type = m.type ∧ ∀ e ∈ n.type.drawn, n.effective e.1 e.2 = m.effective e.1 e.2) ∧
    ∀ (s : Scene) (id : String), s.arena.find? id = some n →
      ∀ (key : String) (default : Property) (request : Value),
        PropertyKind.ofRequest? request = some default.kind →
        (n.effective key default).kind = default.kind ∧
        s.getProperty (.text id) (.text key) request default.payload =
          (.ok (n.effective key default).payload, []) := by
  refine ⟨statement_eq_none_iff, ?_, fun s id hn key default request hrequest =>
    ⟨n.kind_effective key default, Scene.getProperty_eq_effective hn key default hrequest⟩⟩
  constructor
  · intro h
    have htype := type_eq_of_statement_eq h
    exact ⟨htype, (statement_eq_iff_effective htype).mp h⟩
  · rintro ⟨htype, heffective⟩
    exact (statement_eq_iff_effective htype).mpr heffective

theorem statement_eq_iff_of_disguise :
    let disguise := "a\", x = 0, y = 0, w = 100, h = 100);\nsprite!(\"b"
    let sprite (path : String) (properties : List (Value × Property)) : Node :=
      { create "n2" (.text "A") .sprite (some "n1") with
        properties := .ofList ((.text "path", .string path) :: properties) }
    let n := sprite disguise [(.text "x", .number (Binary.ofInt 0))]
    let m := sprite disguise [(.text "width", .string "100")]
    let single := Scene.single (.text "Scene") "n1" (.text "Root") true
    let s := { single with arena := single.arena.insert "n2" m }
    n.statement = some ("sprite!(\"a\", x = 0, y = 0, w = 100, h = 100);\n" ++
      "sprite!(\"b\", x = 0, y = 0, w = 100, h = 100);") ∧
    (sprite "b" []).statement = some "sprite!(\"b\", x = 0, y = 0, w = 100, h = 100);" ∧
    n.statement = m.statement ∧ n.statement ≠ (sprite "b" []).statement ∧
    s.getProperty (.text "n2") (.text "width") (.builtin .number) (.number (Binary.ofInt 100)) =
      (.ok (.number (Binary.ofInt 100)), []) := by
  intro disguise sprite n m single s
  have hsame : ∀ e ∈ NodeType.drawn .sprite, n.effective e.1 e.2 = m.effective e.1 e.2 := by
    decide +kernel
  have hother : ¬ ∀ e ∈ NodeType.drawn .sprite,
      n.effective e.1 e.2 = (sprite "b" []).effective e.1 e.2 := by
    decide +kernel
  refine ⟨by decide +kernel, by decide +kernel, (statement_eq_iff n m).2.1.mpr ⟨rfl, hsame⟩,
    ?_, ?_⟩
  · exact fun h => hother ((statement_eq_iff n _).2.1.mp h).2
  · exact ((statement_eq_iff m m).2.2 s "n2" rfl "width" (.number (Binary.ofInt 100))
      (.builtin .number) rfl).2

end Node

end SceneEditor
