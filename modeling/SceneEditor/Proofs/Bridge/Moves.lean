import Mathlib.Data.Set.Card
import SceneEditor.Bridge

namespace SceneEditor

namespace Bridge

inductive Move (η : Type) where
  | connect (signal : Signal) (handler : η)
  | disconnect (number : Nat)

namespace Move

variable {η : Type} {ms : List (Move η)} {m : Move η} {link : Link η}

def isConnect : Move η → Bool
  | connect _ _ => true
  | disconnect _ => false

def made (ms : List (Move η)) : Nat := ms.countP isConnect

/-- A connection that was made and not disconnected since. -/
def Open (ms : List (Move η)) (link : Link η) : Prop :=
  ∃ before after, ms = before ++ connect link.signal link.handler :: after ∧
    made before = link.number ∧ disconnect link.number ∉ after

theorem not_open_nil : ¬ Open [] link := by
  rintro ⟨before, after, h, -⟩
  simp at h

theorem open_concat_iff : Open (ms ++ [m]) link ↔
    (m = connect link.signal link.handler ∧ made ms = link.number) ∨
      (Open ms link ∧ m ≠ disconnect link.number) := by
  constructor
  · rintro ⟨before, after, h, hmade, hopen⟩
    rcases List.eq_nil_or_concat' after with rfl | ⟨after, x, rfl⟩
    · obtain ⟨rfl, hm⟩ := List.append_inj' h rfl
      exact .inl ⟨List.singleton_inj.mp hm, hmade⟩
    · rw [← List.cons_append, ← List.append_assoc] at h
      obtain ⟨rfl, hm⟩ := List.append_inj' h rfl
      obtain rfl := List.singleton_inj.mp hm
      rw [List.mem_append, List.mem_singleton, not_or] at hopen
      exact .inr ⟨⟨before, after, rfl, hmade, hopen.1⟩, Ne.symm hopen.2⟩
  · rintro (⟨rfl, hmade⟩ | ⟨⟨before, after, rfl, hmade, hopen⟩, hm⟩)
    · exact ⟨ms, [], rfl, hmade, List.not_mem_nil⟩
    · refine ⟨before, after ++ [m], by simp, hmade, ?_⟩
      rw [List.mem_append, List.mem_singleton, not_or]
      exact ⟨hopen, hm.symm⟩

theorem made_concat : made (ms ++ [m]) = made ms + if m.isConnect then 1 else 0 := by
  rw [made, List.countP_append, List.countP_singleton, made]

theorem Open.number_lt (h : Open ms link) : link.number < made ms := by
  obtain ⟨before, after, rfl, hmade, -⟩ := h
  rw [made, List.countP_append, List.countP_cons_of_pos rfl]
  rw [made] at hmade
  omega

theorem not_open_of_disconnect {before after : List (Move η)} (hn : link.number < made before) :
    ¬ Open (before ++ disconnect link.number :: after) link := by
  rintro ⟨xs, ys, h, hmade, hopen⟩
  rcases List.append_eq_append_iff.mp h with ⟨zs, rfl, -⟩ | ⟨zs, rfl, hzs⟩
  · -- The connection would have been made after it was disconnected.
    rw [made, List.countP_append] at hmade
    rw [made] at hn
    omega
  · cases zs with
    | nil => cases hzs
    | cons z zs =>
      obtain ⟨-, rfl⟩ := List.cons.inj hzs
      exact hopen (List.mem_append_right _ List.mem_cons_self)

end Move

variable {η σ : Type} {b : Bridge η} {ms : List (Move η)} {signal : Signal} {link : Link η}
  {n : Nat}

def move (b : Bridge η) : Move η → Bridge η
  | .connect signal handler => (b.connect signal handler).2
  | .disconnect number => b.disconnect number

def replay (ms : List (Move η)) : Bridge η := ms.foldl move empty

structure Records (b : Bridge η) (ms : List (Move η)) : Prop where
  next_eq : b.next = Move.made ms
  mem_links_iff : ∀ link, link ∈ b.links ↔ Move.Open ms link
  sorted : b.links.Pairwise (·.number < ·.number)

theorem records_empty : (empty : Bridge η).Records [] where
  next_eq := rfl
  mem_links_iff := fun _ => iff_of_false List.not_mem_nil Move.not_open_nil
  sorted := .nil

namespace Records

theorem number_lt (h : b.Records ms) (hlink : link ∈ b.links) : link.number < b.next := by
  rw [h.next_eq]
  exact ((h.mem_links_iff link).mp hlink).number_lt

theorem move (h : b.Records ms) (m : Move η) : (b.move m).Records (ms ++ [m]) := by
  cases m with
  | connect signal handler =>
    refine ⟨?_, ?_, ?_⟩
    · rw [Move.made_concat, ← h.next_eq]
      rfl
    · intro link
      rw [Move.open_concat_iff, ← h.mem_links_iff, ← h.next_eq]
      have hlinks : (b.move (.connect signal handler)).links =
          b.links ++ [⟨b.next, signal, handler⟩] := rfl
      obtain ⟨number, signal', handler'⟩ := link
      rw [hlinks, List.mem_append, List.mem_singleton, or_comm, Link.mk.injEq, Move.connect.injEq]
      apply or_congr
      · constructor
        · rintro ⟨rfl, rfl, rfl⟩
          exact ⟨⟨rfl, rfl⟩, rfl⟩
        · rintro ⟨⟨rfl, rfl⟩, rfl⟩
          exact ⟨rfl, rfl, rfl⟩
      · exact (and_iff_left nofun).symm
    · apply List.pairwise_append.mpr
      refine ⟨h.sorted, List.pairwise_singleton _ _, ?_⟩
      intro link hlink new hnew
      obtain rfl := List.mem_singleton.mp hnew
      exact h.number_lt hlink
  | disconnect n =>
    refine ⟨?_, ?_, h.sorted.filter _⟩
    · rw [Move.made_concat, ← h.next_eq]
      rfl
    · intro link
      rw [Move.open_concat_iff, ← h.mem_links_iff]
      have hlinks : (b.move (.disconnect n)).links = b.links.filter (·.number ≠ n) := rfl
      rw [hlinks, List.mem_filter, or_iff_right (fun hc => nomatch hc.1), decide_eq_true_iff,
        ne_eq, ne_eq, Move.disconnect.injEq, eq_comm]

theorem moves (h : b.Records ms) (ms' : List (Move η)) :
    (ms'.foldl Bridge.move b).Records (ms ++ ms') := by
  induction ms' generalizing b ms with
  | nil => rwa [List.append_nil]
  | cons m ms' ih =>
    rw [List.append_cons]
    exact ih (h.move m)

end Records

theorem records_replay (ms : List (Move η)) : (replay ms).Records ms := records_empty.moves ms

theorem mem_disconnect_iff : link ∈ (b.disconnect n).links ↔ link ∈ b.links ∧ link.number ≠ n := by
  rw [disconnect, List.mem_filter, decide_eq_true_iff]

theorem disconnect_eq_self (h : ∀ link ∈ b.links, link.number ≠ n) : b.disconnect n = b := by
  have hstay : b.links.filter (·.number ≠ n) = b.links :=
    List.filter_eq_self.mpr fun link hlink => decide_eq_true (h link hlink)
  rw [disconnect, hstay]

namespace Records

theorem nodup_numbers (h : b.Records ms) : (b.links.map Link.number).Nodup :=
  List.pairwise_map.mpr (h.sorted.imp Nat.ne_of_lt)

theorem eq_of_number_eq (h : b.Records ms) {link link' : Link η} (hlink : link ∈ b.links)
    (hlink' : link' ∈ b.links) (he : link.number = link'.number) : link = link' :=
  List.inj_on_of_nodup_map h.nodup_numbers hlink hlink' he

theorem mem_observers_iff (h : b.Records ms) :
    link ∈ b.observers signal ↔ Move.Open ms link ∧ link.signal = signal := by
  rw [observers, List.mem_filter, h.mem_links_iff, decide_eq_true_iff]

theorem handlerCount_eq (h : b.Records ms) (signal : Signal) :
    b.handlerCount signal = Set.ncard {link | Move.Open ms link ∧ link.signal = signal} := by
  classical
  have hset : {link | Move.Open ms link ∧ link.signal = signal} =
      ((b.observers signal).toFinset : Set (Link η)) := by
    ext link
    rw [Finset.mem_coe, List.mem_toFinset]
    exact h.mem_observers_iff.symm
  have hnodup : (b.observers signal).Nodup := h.nodup_numbers.of_map.filter _
  rw [hset, Set.ncard_coe_finset, List.toFinset_card_of_nodup hnodup, handlerCount]

end Records

end Bridge

end SceneEditor
