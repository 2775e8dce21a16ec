import SceneEditor.Proofs.Document.Numbers

namespace SceneEditor.Document

open Text

variable {n : Nat} {opening cs : List Char}

theorem isPrintable_digitChar (hn : n < 16) : IsPrintable n.digitChar := by
  have hall : ∀ k < 16, 32 ≤ k.digitChar.toNat ∧ k.digitChar.toNat ≤ 126 := by decide
  exact hall n hn

theorem isPrintable_of_mem_toDigits {c : Char} (hc : c ∈ Nat.toDigits 16 n) : IsPrintable c := by
  induction n using Nat.strongRecOn with
  | ind n ih =>
    rw [Nat.toDigits_eq_if (by decide)] at hc
    split at hc
    · next hlt =>
      rw [List.mem_singleton.mp hc]
      exact isPrintable_digitChar hlt
    · next hge =>
      rcases List.mem_append.mp hc with hc | hc
      · exact ih (n / 16) (by omega) hc
      · rw [List.mem_singleton.mp hc]
        exact isPrintable_digitChar (by omega)

theorem isPrintable_of_mem_unitEscape {c : Char} (hc : c ∈ unitEscape n) : IsPrintable c := by
  simp only [unitEscape, hexDigits, padded, List.mem_cons, List.mem_append, List.mem_replicate] at hc
  rcases hc with rfl | rfl | ⟨-, rfl⟩ | hc
  · exact ⟨by decide, by decide⟩
  · exact ⟨by decide, by decide⟩
  · exact ⟨by decide, by decide⟩
  · exact isPrintable_of_mem_toDigits hc

theorem readPieces_unit (hn : n < 0x10000) (hcs : cs ≠ []) :
    readPieces opening (unitEscape n ++ cs) = consPiece (.unit n) (readPieces opening cs) := by
  obtain ⟨e, rest, rfl⟩ := List.exists_cons_of_ne_nil hcs
  have hvalue := hexValue?_hexDigits 4 n
  obtain ⟨a, b, c, d, hdigits⟩ := List.length_eq_four.mp (length_hexDigits (by decide) hn)
  rw [hdigits] at hvalue
  rw [unitEscape, hdigits]
  simp only [List.cons_append, List.nil_append]
  rw [readPieces]
  simp only [hvalue]

def IsWrittenAs (c : Char) (ps : List Piece) : Prop :=
  (∀ opening cs, cs ≠ [] → readPieces opening (charText c ++ cs) =
    (readPieces opening cs).map fun r => (ps ++ r.1, r.2)) ∧
  ∀ qs, assemble (ps ++ qs) = c :: assemble qs

theorem isWrittenAs_escape {c d : Char} (htext : charText c = ['\\', d])
    (hd : simpleEscape? d = some c) (hu : d ≠ 'u') : IsWrittenAs c [.char c] := by
  refine ⟨fun opening cs _ => ?_, fun qs => rfl⟩
  rw [htext]
  simp only [List.cons_append, List.nil_append]
  rw [readPieces, hd]
  · rfl
  · exact fun _ _ _ _ _ _ h _ => hu h
  · exact hu

theorem isWrittenAs_self {c : Char} (htext : charText c = [c]) (hquote : c ≠ '"')
    (hslash : c ≠ '\\') (hspace : ¬ c < ' ') : IsWrittenAs c [.char c] := by
  refine ⟨fun opening cs _ => ?_, fun qs => rfl⟩
  rw [htext]
  simp only [List.cons_append, List.nil_append]
  rw [readPieces, if_neg hspace]
  · rfl
  · exact hquote
  · exact fun h _ => hslash h
  · exact fun _ _ _ _ _ _ h _ => hslash h
  · exact fun _ h _ => hslash h
  · exact fun _ _ h _ => hslash h

theorem isWrittenAs_unit {c : Char} (htext : charText c = unitEscape c.toNat)
    (hc : c.toNat < 0x10000) : IsWrittenAs c [.unit c.toNat] := by
  refine ⟨fun opening cs hcs => ?_, fun qs => ?_⟩
  · rw [htext, readPieces_unit hc hcs]
    rfl
  -- No character is half of a pair.
  · have hvalid : c.toNat < 0xd800 ∨ 0xdfff < c.toNat ∧ c.toNat < 0x110000 := c.valid
    have hlone : assemble.loneUnit c.toNat = c := by
      rw [assemble.loneUnit, if_neg (by omega), Char.ofNat_toNat]
    rcases qs with _ | ⟨_ | m, qs⟩
    · exact congrArg (· :: _) hlone
    · exact congrArg (· :: _) hlone
    · have hhigh : ¬ (0xd800 ≤ c.toNat ∧ c.toNat < 0xdc00 ∧ 0xdc00 ≤ m ∧ m < 0xe000) := by omega
      simp only [List.cons_append, List.nil_append]
      rw [assemble, if_neg hhigh, hlone]

theorem isWrittenAs_pair {c : Char}
    (htext : charText c = unitEscape (0xd800 + (c.toNat - 0x10000) / 0x400) ++
      unitEscape (0xdc00 + (c.toNat - 0x10000) % 0x400)) (hc : 0x10000 ≤ c.toNat) :
    IsWrittenAs c [.unit (0xd800 + (c.toNat - 0x10000) / 0x400),
      .unit (0xdc00 + (c.toNat - 0x10000) % 0x400)] := by
  have hvalid : c.toNat < 0xd800 ∨ 0xdfff < c.toNat ∧ c.toNat < 0x110000 := c.valid
  refine ⟨fun opening cs hcs => ?_, fun qs => ?_⟩
  · have hne : unitEscape (0xdc00 + (c.toNat - 0x10000) % 0x400) ++ cs ≠ [] := by
      rw [unitEscape]
      nofun
    rw [htext, List.append_assoc, readPieces_unit (by omega) hne,
      readPieces_unit (by omega) hcs]
    cases readPieces opening cs <;> rfl
  · have hsum : 0x10000 + (0xd800 + (c.toNat - 0x10000) / 0x400 - 0xd800) * 0x400 +
        (0xdc00 + (c.toNat - 0x10000) % 0x400 - 0xdc00) = c.toNat := by omega
    simp only [List.cons_append, List.nil_append]
    rw [assemble, if_pos (by omega), hsum, Char.ofNat_toNat]

theorem charText_cases (c : Char) :
    (∃ d, charText c = ['\\', d] ∧ simpleEscape? d = some c ∧ d ≠ 'u' ∧ IsPrintable d) ∨
    (charText c = [c] ∧ c ≠ '"' ∧ c ≠ '\\' ∧ IsPrintable c) ∨
    (charText c = unitEscape c.toNat ∧ c.toNat < 0x10000) ∨
    (charText c = unitEscape (0xd800 + (c.toNat - 0x10000) / 0x400) ++
      unitEscape (0xdc00 + (c.toNat - 0x10000) % 0x400) ∧ 0x10000 ≤ c.toNat) := by
  unfold charText
  split
  · exact .inl ⟨'"', rfl, rfl, by decide, by decide, by decide⟩
  · exact .inl ⟨'\\', rfl, rfl, by decide, by decide, by decide⟩
  · exact .inl ⟨'n', rfl, rfl, by decide, by decide, by decide⟩
  · exact .inl ⟨'r', rfl, rfl, by decide, by decide, by decide⟩
  · exact .inl ⟨'t', rfl, rfl, by decide, by decide, by decide⟩
  · exact .inl ⟨'b', rfl, rfl, by decide, by decide, by decide⟩
  · exact .inl ⟨'f', rfl, rfl, by decide, by decide, by decide⟩
  · next hquote hslash _ _ _ _ _ =>
    split
    · next h => exact .inr (.inl ⟨rfl, hquote, hslash, h.1, h.2⟩)
    · split
      · next hc => exact .inr (.inr (.inl ⟨rfl, hc⟩))
      · next hc => exact .inr (.inr (.inr ⟨rfl, Nat.le_of_not_lt hc⟩))

theorem exists_isWrittenAs (c : Char) : ∃ ps, IsWrittenAs c ps := by
  rcases charText_cases c with ⟨d, htext, hd, hu, -⟩ | ⟨htext, hquote, hslash, hlow, -⟩ |
    ⟨htext, hc⟩ | ⟨htext, hc⟩
  · exact ⟨_, isWrittenAs_escape htext hd hu⟩
  · exact ⟨_, isWrittenAs_self htext hquote hslash (Nat.not_lt.mpr hlow)⟩
  · exact ⟨_, isWrittenAs_unit htext hc⟩
  · exact ⟨_, isWrittenAs_pair htext hc⟩

theorem isPrintable_of_mem_charText {c d : Char} (hd : d ∈ charText c) : IsPrintable d := by
  rcases charText_cases c with ⟨e, htext, -, -, he⟩ | ⟨htext, -, -, hc⟩ | ⟨htext, -⟩ | ⟨htext, -⟩
  · rw [htext] at hd
    rcases List.mem_pair.mp hd with rfl | rfl
    · exact ⟨by decide, by decide⟩
    · exact he
  · rw [htext] at hd
    rw [List.mem_singleton.mp hd]
    exact hc
  · rw [htext] at hd
    exact isPrintable_of_mem_unitEscape hd
  · rw [htext] at hd
    rcases List.mem_append.mp hd with hd | hd <;> exact isPrintable_of_mem_unitEscape hd

theorem readPieces_flatMap (cs rest : List Char) : ∃ ps,
    readPieces opening (cs.flatMap charText ++ '"' :: rest) = .ok (ps, rest) ∧
      assemble ps = cs := by
  induction cs with
  | nil => exact ⟨[], by rw [List.flatMap_nil, List.nil_append, readPieces], by rw [assemble]⟩
  | cons c cs ih =>
    obtain ⟨ps, hread, hps⟩ := ih
    obtain ⟨qs, hqread, hqs⟩ := exists_isWrittenAs c
    refine ⟨qs ++ ps, ?_, by rw [hqs, hps]⟩
    rw [List.flatMap_cons, List.append_assoc, hqread _ _ (by simp), hread]
    rfl

def textBody (s : String) : List Char := s.toList.flatMap charText ++ ['"']

theorem toList_textText (s : String) : (textText s).toList = '"' :: textBody s := by
  rw [textText, String.toList_ofList, List.cons_append, textBody]

theorem readText_textBody (s : String) (rest : List Char) :
    readText opening (textBody s ++ rest) = .ok (s, rest) := by
  obtain ⟨ps, hread, hps⟩ := @readPieces_flatMap opening s.toList rest
  rw [readText, textBody, List.append_assoc, List.singleton_append, hread]
  simp only [Except.map, hps, String.ofList_toList]

theorem isPrintable_of_mem_textText {s : String} {c : Char} (hc : c ∈ (textText s).toList) :
    IsPrintable c := by
  rw [toList_textText, textBody, List.mem_cons, List.mem_append, List.mem_flatMap,
    List.mem_singleton] at hc
  rcases hc with rfl | ⟨d, -, hc⟩ | rfl
  · exact ⟨by decide, by decide⟩
  · exact isPrintable_of_mem_charText hc
  · exact ⟨by decide, by decide⟩

end SceneEditor.Document
