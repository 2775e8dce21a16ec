import SceneEditor.Files
import SceneEditor.Proofs.Document.Texts
import SceneEditor.Proofs.Value.Json

namespace SceneEditor.Document

open Number Text

structure Draft.Writes (d : Draft) (cs : List Char) : Prop where
  complete : d.fault = none
  toList_eq : d.text.toList = cs

theorem Draft.writes_ofText (s : String) : (ofText s).Writes s.toList := ⟨rfl, rfl⟩

theorem Draft.Writes.append {a b : Draft} {xs ys : List Char} (ha : a.Writes xs)
    (hb : b.Writes ys) : (a ++ b).Writes (xs ++ ys) := by
  have happend : a ++ b = ⟨a.text ++ b.text, b.fault⟩ := by
    change Draft.append a b = _
    rw [Draft.append, ha.complete]
  rw [happend]
  exact ⟨hb.complete, by rw [String.toList_append, ha.toList_eq, hb.toList_eq]⟩

def lineStart (level : Nat) : List Char := '\n' :: List.replicate (2 * level) ' '

theorem writes_newline (level : Nat) : (newline level).Writes (lineStart level) :=
  ⟨rfl, String.toList_ofList⟩

theorem skipSpace_lineStart (level : Nat) (cs : List Char) :
    skipSpace (lineStart level ++ cs) = skipSpace cs := by
  refine List.dropWhile_append_of_pos ?_
  intro c hc
  rcases List.mem_cons.mp hc with rfl | hc
  · rfl
  · rw [List.eq_of_mem_replicate hc]
    rfl

theorem skipSpace_cons {c : Char} (hc : isSpace c = false) (cs : List Char) :
    skipSpace (c :: cs) = c :: cs := List.dropWhile_cons_of_neg (by rw [hc]; nofun)

theorem follows_lineStart (level : Nat) (cs : List Char) : Follows (lineStart level ++ cs) := by
  intro c hc
  exact .inr (Option.some.inj hc).symm

theorem follows_comma (cs : List Char) : Follows (',' :: cs) := by
  intro c hc
  exact .inl (Option.some.inj hc).symm

def IsPlain (cs : List Char) : Prop := ∀ c ∈ cs, c = '\n' ∨ IsPrintable c

namespace IsPlain

variable {xs ys : List Char} {c : Char}

theorem of_printable (h : ∀ c ∈ xs, IsPrintable c) : IsPlain xs := fun c hc => .inr (h c hc)

theorem append (hx : IsPlain xs) (hy : IsPlain ys) : IsPlain (xs ++ ys) := by
  intro c hc
  rcases List.mem_append.mp hc with hc | hc
  · exact hx c hc
  · exact hy c hc

theorem cons (hc : IsPrintable c) (hx : IsPlain xs) : IsPlain (c :: xs) := by
  intro d hd
  rcases List.mem_cons.mp hd with rfl | hd
  · exact .inr hc
  · exact hx d hd

theorem lineStart (level : Nat) : IsPlain (lineStart level) := by
  intro c hc
  rcases List.mem_cons.mp hc with rfl | hc
  · exact .inl rfl
  · rw [List.eq_of_mem_replicate hc]
    exact .inr ⟨by decide, by decide⟩

end IsPlain

/-- Printed with its contents one level deeper than `level`, a value is a text that starts a value,
has plain characters, and is read as this value again. The steps that this takes are no more than
the characters. -/
structure PrintsAs (level : Nat) (v : Value) (cs : List Char) : Prop where
  writes : (print level v).Writes cs
  starts : ∃ c rest, cs = c :: rest ∧ isSpace c = false ∧ c ≠ ']'
  plain : IsPlain cs
  read : ∀ fuel {rest}, cs.length ≤ fuel → Follows rest →
    readValue fuel (cs ++ rest) = .ok (v, rest)

namespace PrintsAs

variable {level : Nat} {v : Value} {cs : List Char}

theorem skipSpace_append (h : PrintsAs level v cs) (rest : List Char) :
    skipSpace (cs ++ rest) = cs ++ rest := by
  obtain ⟨c, tail, rfl, hc, -⟩ := h.starts
  exact skipSpace_cons hc (tail ++ rest)

theorem length_pos (h : PrintsAs level v cs) : 0 < cs.length := by
  obtain ⟨c, tail, rfl, -⟩ := h.starts
  exact Nat.succ_pos _

end PrintsAs

section Plain

variable {level : Nat} {v : Value}

theorem eq_of_isDigit {c : Char} (hc : c.isDigit = true) : c = '0' ∨ c = '1' ∨ c = '2' ∨ c = '3' ∨
    c = '4' ∨ c = '5' ∨ c = '6' ∨ c = '7' ∨ c = '8' ∨ c = '9' := by
  have hall : ∀ k < 10, Char.ofNat (48 + k) ∈ ['0', '1', '2', '3', '4', '5', '6', '7', '8', '9'] := by
    decide
  simp only [Char.isDigit, Bool.and_eq_true, decide_eq_true_eq, ge_iff_le,
    UInt32.le_iff_toNat_le] at hc
  have hlow : 48 ≤ c.toNat := hc.1
  have hhigh : c.toNat ≤ 57 := hc.2
  have hmem := hall (c.toNat - 48) (by omega)
  rw [Nat.add_sub_cancel' hlow, Char.ofNat_toNat] at hmem
  simpa using hmem

theorem readValue_digit {c : Char} (hc : c.isDigit = true) (fuel : Nat) (cs : List Char) :
    readValue (fuel + 1) (c :: cs) = readNumber false (c :: cs) (c :: cs) ∧
      readValue (fuel + 1) ('-' :: c :: cs) = readNumber true ('-' :: c :: cs) (c :: cs) := by
  rcases eq_of_isDigit hc with rfl | rfl | rfl | rfl | rfl | rfl | rfl | rfl | rfl | rfl <;>
    exact ⟨rfl, rfl⟩

theorem printsAs_of_read {c : Char} {cs : List Char} (hwrites : (print level v).Writes (c :: cs))
    (hspace : isSpace c = false) (hbracket : c ≠ ']') (hprintable : ∀ d ∈ c :: cs, IsPrintable d)
    (hread : ∀ fuel {rest}, Follows rest → readValue (fuel + 1) (c :: cs ++ rest) = .ok (v, rest)) :
    PrintsAs level v (c :: cs) where
  writes := hwrites
  starts := ⟨c, cs, rfl, hspace, hbracket⟩
  plain := .of_printable hprintable
  read := by
    intro fuel rest hfuel hrest
    rw [List.length_cons] at hfuel
    obtain ⟨fuel, rfl⟩ : ∃ k, fuel = k + 1 := ⟨fuel - 1, by omega⟩
    exact hread fuel hrest

theorem exists_printsAs_word (s : String) (c : Char) (cs : List Char)
    (hprint : print level v = .ofText s) (hs : s.toList = c :: cs) (hspace : isSpace c = false)
    (hbracket : c ≠ ']') (hprintable : (c :: cs).all (IsPrintable ·))
    (hread : ∀ fuel rest, readValue (fuel + 1) (c :: cs ++ rest) = .ok (v, rest)) :
    ∃ cs, PrintsAs level v cs := by
  have hwrites : (print level v).Writes (c :: cs) := by
    rw [hprint, ← hs]
    exact Draft.writes_ofText s
  have hall : ∀ d ∈ c :: cs, IsPrintable d := fun d hd =>
    of_decide_eq_true (List.all_eq_true.mp hprintable d hd)
  exact ⟨c :: cs, printsAs_of_read hwrites hspace hbracket hall fun fuel rest _ => hread fuel rest⟩

theorem exists_printsAs_null : ∃ cs, PrintsAs level .null cs :=
  exists_printsAs_word "null" 'n' ['u', 'l', 'l'] rfl rfl rfl (by decide) rfl fun _ _ => rfl

theorem exists_printsAs_flag (b : Bool) : ∃ cs, PrintsAs level (.flag b) cs := by
  cases b with
  | false =>
    exact exists_printsAs_word "false" 'f' ['a', 'l', 's', 'e'] rfl rfl rfl (by decide) rfl
      fun _ _ => rfl
  | true =>
    exact exists_printsAs_word "true" 't' ['r', 'u', 'e'] rfl rfl rfl (by decide) rfl
      fun _ _ => rfl

theorem exists_printsAs_of_magnitude {negative : Bool} {body : List Char}
    (hwrites : (print level v).Writes (signText negative ++ body))
    (h : IsMagnitude negative body v) : ∃ cs, PrintsAs level v cs := by
  obtain ⟨⟨c, cs, rfl, hc⟩, hprintable, hread⟩ := h
  cases negative with
  | false =>
    have hspecial : isSpace c = false ∧ c ≠ ']' := by
      rcases eq_of_isDigit hc with rfl | rfl | rfl | rfl | rfl | rfl | rfl | rfl | rfl | rfl <;>
        exact ⟨rfl, by decide⟩
    refine ⟨_, printsAs_of_read hwrites hspecial.1 hspecial.2 hprintable fun fuel rest hrest => ?_⟩
    exact (readValue_digit hc fuel (cs ++ rest)).1.trans (hread _ hrest)
  | true =>
    refine ⟨_, printsAs_of_read hwrites rfl (by decide) ?_ fun fuel rest hrest => ?_⟩
    · intro d hd
      rcases List.mem_cons.mp hd with rfl | hd
      · exact ⟨by decide, by decide⟩
      · exact hprintable d hd
    · exact (readValue_digit hc fuel (cs ++ rest)).2.trans (hread _ hrest)

theorem exists_printsAs_whole {i : Int} (hi : (Nat.toDigits 10 i.natAbs).length ≤ maxDigits) :
    ∃ cs, PrintsAs level (.whole i) cs := by
  obtain ⟨negative, body, htext, h⟩ := exists_magnitude_whole hi
  exact exists_printsAs_of_magnitude ⟨rfl, htext⟩ h

theorem exists_printsAs_number (x : Double) : ∃ cs, PrintsAs level (.number x) cs := by
  cases x with
  | nan =>
    exact exists_printsAs_word "NaN" 'N' ['a', 'N'] rfl rfl rfl (by decide) rfl
      fun _ _ => rfl
  | infinity negative =>
    cases negative with
    | false =>
      exact exists_printsAs_word "Infinity" 'I' ['n', 'f', 'i', 'n', 'i', 't', 'y'] rfl rfl rfl
        (by decide) rfl fun _ _ => rfl
    | true =>
      exact exists_printsAs_word "-Infinity" '-' ['I', 'n', 'f', 'i', 'n', 'i', 't', 'y'] rfl rfl rfl
        (by decide) rfl fun _ _ => rfl
  | finite negative significand exponent h =>
    obtain ⟨body, htext, hmagnitude⟩ := exists_magnitude_finite h
    exact exists_printsAs_of_magnitude ⟨rfl, htext⟩ hmagnitude

theorem printsAs_text (s : String) : PrintsAs level (.text s) ('"' :: textBody s) := by
  refine printsAs_of_read ⟨rfl, toList_textText s⟩ rfl (by decide) ?_ ?_
  · rw [← toList_textText]
    exact fun _ => isPrintable_of_mem_textText
  · intro fuel rest _
    rw [List.cons_append, readValue, readText_textBody]
    rfl

end Plain

section Nested

variable {level : Nat}

theorem exists_printItems {v : Value} {cv : List Char} (hv : PrintsAs level v cv) {vs : List Value}
    (hvs : ∀ w ∈ vs, ∃ cw, PrintsAs level w cw) : ∃ cs, (printItems level vs).Writes cs ∧
      IsPlain cs ∧ ∀ fuel outer rest, (cv ++ cs).length < fuel →
        readItems fuel (cv ++ (cs ++ (lineStart outer ++ ']' :: rest))) = .ok (v :: vs, rest) := by
  induction vs generalizing v cv with
  | nil =>
    refine ⟨[], ⟨rfl, rfl⟩, nofun, fun fuel outer rest hfuel => ?_⟩
    obtain ⟨fuel, rfl⟩ : ∃ k, fuel = k + 1 := ⟨fuel - 1, by omega⟩
    have hread := hv.read fuel (by simpa using Nat.lt_succ_iff.mp hfuel)
      (follows_lineStart outer (']' :: rest))
    rw [List.nil_append, readItems, hread]
    simp only [skipSpace_lineStart, skipSpace_cons (c := ']') rfl]
  | cons w vs ih =>
    obtain ⟨cw, hw⟩ := hvs w List.mem_cons_self
    obtain ⟨cs, hwrites, hplain, hread⟩ := ih hw fun w hw => hvs w (List.mem_cons_of_mem _ hw)
    refine ⟨',' :: (lineStart level ++ (cw ++ cs)), ?_, ?_, ?_⟩
    · have hall := (((Draft.writes_ofText ",").append (writes_newline level)).append
        hw.writes).append hwrites
      rw [printItems]
      simpa using hall
    · exact .cons ⟨by decide, by decide⟩ ((IsPlain.lineStart level).append (hw.plain.append hplain))
    · intro fuel outer rest hfuel
      obtain ⟨fuel, rfl⟩ : ∃ k, fuel = k + 1 := ⟨fuel - 1, by omega⟩
      -- An item has at least one character, and so there are enough steps for the rest.
      simp only [List.length_append, List.length_cons] at hfuel
      have hpos := hv.length_pos
      have hfirst := hv.read fuel (by omega)
        (follows_comma (lineStart level ++ (cw ++ cs) ++ (lineStart outer ++ ']' :: rest)))
      have hrest := hread fuel outer rest (by rw [List.length_append]; omega)
      rw [List.cons_append, readItems, hfirst]
      simp only [skipSpace_cons (c := ',') rfl, List.append_assoc, skipSpace_lineStart,
        hw.skipSpace_append, hrest]
      rfl

def entryChars (key : String) (cv : List Char) : List Char :=
  '"' :: (textBody key ++ ':' :: ' ' :: cv)

theorem writes_printEntry {separator : Draft} {xs cv : List Char} {v : Value}
    (hseparator : separator.Writes xs) (hv : PrintsAs level v cv) (key : String) :
    (printEntry level separator (.text key, v)).Writes (xs ++ entryChars key cv) := by
  have hkey : (Draft.ofText (textText key ++ ": ")).Writes ('"' :: textBody key ++ [':', ' ']) :=
    ⟨rfl, by rw [← toList_textText]; exact String.toList_append⟩
  have hall := (hseparator.append hkey).append hv.writes
  rw [printEntry, keyText?]
  simpa [entryChars] using hall

theorem isPlain_entryChars {cv : List Char} (hv : IsPlain cv) (key : String) :
    IsPlain (entryChars key cv) := by
  have hkey : IsPlain ('"' :: textBody key) := by
    rw [← toList_textText]
    exact .of_printable fun c => isPrintable_of_mem_textText
  exact hkey.append (.cons ⟨by decide, by decide⟩ (.cons ⟨by decide, by decide⟩ hv))

theorem readEntries_last {v : Value} {cv : List Char} (hv : PrintsAs level v cv) (key : String)
    {fuel : Nat} (hfuel : cv.length ≤ fuel) (table : Table Value Value) (outer : Nat)
    (rest : List Char) :
    readEntries (fuel + 1) table (entryChars key cv ++ (lineStart outer ++ '\x7d' :: rest)) =
      .ok (table.insert (.text key) v, rest) := by
  have hread := hv.read fuel hfuel (follows_lineStart outer ('\x7d' :: rest))
  have hspace (xs : List Char) : skipSpace (' ' :: (cv ++ xs)) = cv ++ xs := hv.skipSpace_append xs
  simp only [entryChars, List.cons_append, List.append_assoc]
  rw [readEntries, readText_textBody]
  simp only [skipSpace_cons (c := ':') rfl, hspace, hread, skipSpace_lineStart,
    skipSpace_cons (c := '\x7d') rfl]

theorem readEntries_next {v : Value} {cv : List Char} (hv : PrintsAs level v cv) (key : String)
    {fuel : Nat} (hfuel : cv.length ≤ fuel) (table : Table Value Value) (rest : List Char) :
    readEntries (fuel + 1) table (entryChars key cv ++ (',' :: rest)) =
      readEntries fuel (table.insert (.text key) v) (skipSpace rest) := by
  have hread := hv.read fuel hfuel (follows_comma rest)
  have hspace (xs : List Char) : skipSpace (' ' :: (cv ++ xs)) = cv ++ xs := hv.skipSpace_append xs
  simp only [entryChars, List.cons_append, List.append_assoc]
  rw [readEntries, readText_textBody]
  simp only [skipSpace_cons (c := ':') rfl, hspace, hread, skipSpace_cons (c := ',') rfl]

theorem exists_printEntries {v : Value} {cv : List Char} (hv : PrintsAs level v cv) (key : String)
    {es : List (Value × Value)}
    (hes : ∀ e ∈ es, ∃ key, e.1 = .text key ∧ ∃ cw, PrintsAs level e.2 cw) :
    ∃ cs, (printEntries level es).Writes cs ∧ IsPlain cs ∧ ∀ fuel table outer rest,
      (entryChars key cv ++ cs).length < fuel →
        readEntries fuel table (entryChars key cv ++ (cs ++ (lineStart outer ++ '\x7d' :: rest))) =
          .ok (((.text key, v) :: es).foldl (fun t e => t.insert e.1 e.2) table, rest) := by
  have hshort (key : String) (cv : List Char) : cv.length + 3 ≤ (entryChars key cv).length := by
    simp only [entryChars, List.length_cons, List.length_append]
    omega
  induction es generalizing v cv key with
  | nil =>
    refine ⟨[], ⟨rfl, rfl⟩, nofun, fun fuel table outer rest hfuel => ?_⟩
    have hlength := hshort key cv
    rw [List.append_nil] at hfuel
    obtain ⟨fuel, rfl⟩ : ∃ k, fuel = k + 1 := ⟨fuel - 1, by omega⟩
    exact readEntries_last hv key (by omega) table outer rest
  | cons e es ih =>
    obtain ⟨next, hnext, cw, hw⟩ := hes e List.mem_cons_self
    obtain ⟨cs, hwrites, hplain, hread⟩ := ih hw next fun e he => hes e (List.mem_cons_of_mem _ he)
    refine ⟨',' :: (lineStart level ++ (entryChars next cw ++ cs)), ?_, ?_, ?_⟩
    · have hseparator := (Draft.writes_ofText ",").append (writes_newline level)
      have hall := (writes_printEntry hseparator hw next).append hwrites
      rw [printEntries, show e = (.text next, e.2) from Prod.ext hnext rfl]
      simpa using hall
    · exact .cons ⟨by decide, by decide⟩ ((IsPlain.lineStart level).append
        ((isPlain_entryChars hw.plain next).append hplain))
    · intro fuel table outer rest hfuel
      have hlength := hshort key cv
      obtain ⟨fuel, rfl⟩ : ∃ k, fuel = k + 1 := ⟨fuel - 1, by omega⟩
      simp only [List.length_append, List.length_cons] at hfuel
      have hrest := hread fuel (table.insert (.text key) v) outer rest
        (by rw [List.length_append]; omega)
      have hspace (xs : List Char) : skipSpace (entryChars next cw ++ xs) = entryChars next cw ++ xs :=
        skipSpace_cons rfl _
      rw [List.cons_append, readEntries_next hv key (by omega)]
      simp only [List.append_assoc, skipSpace_lineStart, hspace, hrest, List.foldl_cons, hnext]

theorem exists_printsAs_list {items : List Value}
    (h : ∀ v ∈ items, ∀ level, ∃ cs, PrintsAs level v cs) :
    ∃ cs, PrintsAs level (.list items) cs := by
  cases items with
  | nil =>
    exact exists_printsAs_word "[]" '[' [']'] rfl rfl rfl (by decide) rfl fun _ _ => rfl
  | cons v vs =>
    obtain ⟨cv, hv⟩ := h v List.mem_cons_self (level + 1)
    obtain ⟨cs, hwrites, hplain, hread⟩ :=
      exists_printItems hv fun w hw => h w (List.mem_cons_of_mem _ hw) (level + 1)
    refine ⟨'[' :: (lineStart (level + 1) ++ (cv ++ (cs ++ (lineStart level ++ [']'])))), ?_, ?_, ?_, ?_⟩
    · have hall := (((((Draft.writes_ofText "[").append (writes_newline (level + 1))).append
        hv.writes).append hwrites).append (writes_newline level)).append (Draft.writes_ofText "]")
      rw [print]
      simpa using hall
    · exact ⟨_, _, rfl, rfl, by decide⟩
    · exact .cons ⟨by decide, by decide⟩ ((IsPlain.lineStart _).append (hv.plain.append
        (hplain.append ((IsPlain.lineStart _).append (.cons ⟨by decide, by decide⟩ nofun)))))
    · intro fuel rest hfuel _
      simp only [List.length_cons, List.length_append] at hfuel
      obtain ⟨fuel, rfl⟩ : ∃ k, fuel = k + 1 := ⟨fuel - 1, by omega⟩
      have hitems := hread fuel level rest (by rw [List.length_append]; omega)
      obtain ⟨c, tail, hcv, _, hbracket⟩ := hv.starts
      have hspace := hv.skipSpace_append (cs ++ (lineStart level ++ ']' :: rest))
      rw [List.cons_append, readValue]
      simp only [List.append_assoc, skipSpace_lineStart, List.singleton_append, hspace]
      -- The list is not empty: the first item does not start with the closing bracket.
      split
      · next heq =>
        rw [hcv, List.cons_append] at heq
        exact absurd (List.cons.inj heq).1 hbracket
      · rw [hitems]
        rfl

theorem entries_ofList_of_text {entries : List (Value × Value)}
    (htext : ∀ e ∈ entries, ∃ key, e.1 = .text key) (hdistinct : (entries.map Prod.fst).Nodup) :
    (Table.ofList entries).entries = entries := by
  apply Table.entries_ofList
  apply List.Pairwise.imp_of_mem _ hdistinct
  intro a b ha hb hne
  obtain ⟨x, hx, rfl⟩ := List.mem_map.mp ha
  obtain ⟨y, hy, rfl⟩ := List.mem_map.mp hb
  obtain ⟨s, hs⟩ := htext x hx
  obtain ⟨t, ht⟩ := htext y hy
  rw [hs, ht] at hne ⊢
  simpa [Value.sameKey_text] using hne

theorem exists_printsAs_object {entries : List (Value × Value)}
    (htext : ∀ e ∈ entries, ∃ key, e.1 = .text key) (hdistinct : (entries.map Prod.fst).Nodup)
    (h : ∀ e ∈ entries, ∀ level, ∃ cs, PrintsAs level e.2 cs) :
    ∃ cs, PrintsAs level (.object entries) cs := by
  have hkeys := entries_ofList_of_text htext hdistinct
  cases entries with
  | nil =>
    exact exists_printsAs_word "\x7b\x7d" '\x7b' ['\x7d'] rfl rfl rfl (by decide) rfl
      fun _ _ => rfl
  | cons e es =>
    obtain ⟨key, hkey⟩ := htext e List.mem_cons_self
    obtain ⟨cv, hv⟩ := h e List.mem_cons_self (level + 1)
    obtain ⟨cs, hwrites, hplain, hread⟩ := exists_printEntries hv key fun e he =>
      let ⟨key, hkey⟩ := htext e (List.mem_cons_of_mem _ he)
      ⟨key, hkey, h e (List.mem_cons_of_mem _ he) (level + 1)⟩
    have he : e = (.text key, e.2) := Prod.ext hkey rfl
    refine ⟨'\x7b' :: (lineStart (level + 1) ++
      (entryChars key cv ++ (cs ++ (lineStart level ++ ['\x7d'])))), ?_, ?_, ?_, ?_⟩
    · have hentry := writes_printEntry (Draft.writes_ofText "") hv key
      have hall := (((((Draft.writes_ofText "\x7b").append (writes_newline (level + 1))).append
        hentry).append hwrites).append (writes_newline level)).append (Draft.writes_ofText "\x7d")
      rw [print, he]
      simpa using hall
    · exact ⟨_, _, rfl, rfl, by decide⟩
    · exact .cons ⟨by decide, by decide⟩ ((IsPlain.lineStart _).append
        ((isPlain_entryChars hv.plain key).append (hplain.append
          ((IsPlain.lineStart _).append (.cons ⟨by decide, by decide⟩ nofun)))))
    · intro fuel rest hfuel _
      simp only [List.length_cons, List.length_append] at hfuel
      obtain ⟨fuel, rfl⟩ : ∃ k, fuel = k + 1 := ⟨fuel - 1, by omega⟩
      have hentries := hread fuel .empty level rest (by rw [List.length_append]; omega)
      have hspace : skipSpace (entryChars key cv ++ (cs ++ (lineStart level ++ '\x7d' :: rest))) =
          entryChars key cv ++ (cs ++ (lineStart level ++ '\x7d' :: rest)) := skipSpace_cons rfl _
      rw [List.cons_append, readValue]
      simp only [List.append_assoc, skipSpace_lineStart, List.singleton_append, hspace]
      split
      · next heq =>
        rw [entryChars, List.cons_append] at heq
        exact absurd (List.cons.inj heq).1 (by decide)
      · rw [hentries, ← he]
        exact congrArg (fun entries => Except.ok (Value.object entries, rest)) hkeys

end Nested

variable {v : Value}

theorem exists_printsAs (h : v.IsLegible) (level : Nat) : ∃ cs, PrintsAs level v cs := by
  induction h generalizing level with
  | null => exact exists_printsAs_null
  | flag b => exact exists_printsAs_flag b
  | whole hi => exact exists_printsAs_whole hi
  | number x => exact exists_printsAs_number x
  | text s => exact ⟨_, printsAs_text s⟩
  | list _ ih => exact exists_printsAs_list ih
  | object htext hdistinct _ ih => exact exists_printsAs_object htext hdistinct ih

theorem unifyLines_of_isPlain {cs : List Char} (h : IsPlain cs) : Files.unifyLines cs = cs := by
  induction cs with
  | nil => rfl
  | cons c cs ih =>
    have hne : c ≠ '\r' := by
      rintro rfl
      exact absurd (h '\r' List.mem_cons_self) (by decide)
    rw [Files.unifyLines, ih fun d hd => h d (List.mem_cons_of_mem _ hd)]
    · exact fun _ hr _ => hne hr
    · exact hne

/-- The text of a document is read as this document again, also after the line ends have been made
uniform. -/
structure ReadsBack (v : Value) : Prop where
  complete : (print 0 v).fault = none
  parse_text : parse (String.ofList (Files.unifyLines (print 0 v).text.toList)) = .ok v

theorem readsBack (h : v.IsLegible) : ReadsBack v := by
  obtain ⟨cs, hwrites, ⟨c, tail, rfl, hspace, -⟩, hplain, hread⟩ := exists_printsAs h 0
  refine ⟨hwrites.complete, ?_⟩
  have hend : Follows [] := nofun
  have hvalue := hread _ (Nat.le_succ (c :: tail).length) hend
  rw [List.append_nil] at hvalue
  rw [hwrites.toList_eq, unifyLines_of_isPlain hplain, parse, String.toList_ofList]
  split
  · next heq =>
    rw [(List.cons.inj heq).1] at hplain
    exact absurd (hplain '\ufeff' List.mem_cons_self) (by decide)
  · rw [skipSpace_cons hspace, hvalue]
    rfl

end SceneEditor.Document
