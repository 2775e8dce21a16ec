import Mathlib.Data.List.Perm.Basic
import Mathlib.Data.String.Basic
import Mathlib.Logic.Function.Iterate
import SceneEditor.Proofs.Arena.Audit

/-!
What the search of the audit meets, and how often, on any arena. All that comes onto the stack is
taken from it once: the root, and what is listed by the nodes that are reached. The first time an
identifier is reached, every other time it is met again. So the counts follow from the lists of
children alone, and nothing is met again unless something else is wrong as well.
-/

namespace SceneEditor

def Violation.isOfSearch : Violation → Bool
  | reachedAgain _ => true
  | unreachable _ => true
  | _ => false

namespace Arena

open Relation

variable {a : Arena} {root key : String}

def childrenAt (a : Arena) (id : String) : List String :=
  match a.find? id with
  | some n => n.children
  | none => []

instance (a : Arena) (root key : String) : Decidable (a.Reaches root key) :=
  decidable_of_iff _ mem_reachFrom_root_iff

def listings (a : Arena) (root : String) : List String :=
  (a.entries.filter fun e => a.Reaches root e.1).flatMap fun e => e.2.children

structure Frontier where
  stack : List String
  reached : List String
  again : List String

namespace Frontier

def start (root : String) : Frontier := ⟨[root], [], []⟩

/-- One round: an identifier is taken from the stack. It is noted if it was reached before; if not,
its children come onto the stack, provided that there is such a node. -/
def round (a : Arena) (s : Frontier) : Frontier :=
  match s.stack with
  | [] => s
  | id :: stack =>
    if id ∈ s.reached then ⟨stack, s.reached, s.again ++ [id]⟩
    else ⟨(a.childrenAt id).reverse ++ stack, id :: s.reached, s.again⟩

theorem round_of_mem {id : String} {stack reached again : List String} (h : id ∈ reached) :
    round a ⟨id :: stack, reached, again⟩ = ⟨stack, reached, again ++ [id]⟩ := if_pos h

theorem round_of_notMem {id : String} {stack reached again : List String} (h : id ∉ reached) :
    round a ⟨id :: stack, reached, again⟩ =
      ⟨(a.childrenAt id).reverse ++ stack, id :: reached, again⟩ := if_neg h

end Frontier

theorem reachFrom_of_mem {id : String} {reached : List String} (stack : List String)
    (h : id ∈ reached) : a.reachFrom reached (id :: stack) =
      (id :: (a.reachFrom reached stack).1, (a.reachFrom reached stack).2) := by
  rw [reachFrom, dif_pos h]

theorem reachFrom_of_notMem {id : String} {reached : List String} (stack : List String)
    (h : id ∉ reached) : a.reachFrom reached (id :: stack) =
      a.reachFrom (id :: reached) ((a.childrenAt id).reverse ++ stack) := by
  rw [reachFrom, dif_neg h, childrenAt]
  split <;> split <;> simp_all

theorem reachFrom_induction {P : List String → List String → Prop}
    (done : ∀ reached, P reached [])
    (again : ∀ reached id stack, id ∈ reached → P reached stack → P reached (id :: stack))
    (new : ∀ reached id stack, id ∉ reached →
      P (id :: reached) ((a.childrenAt id).reverse ++ stack) → P reached (id :: stack))
    (reached stack : List String) : P reached stack := by
  fun_induction reachFrom a reached stack with
  | case1 reached => exact done reached
  | case2 reached id stack hid _ _ _ ih => exact again reached id stack hid ih
  | case3 reached id stack hid hn ih =>
    refine new reached id stack hid ?_
    simpa only [childrenAt, hn, List.reverse_nil, List.nil_append] using ih
  | case4 reached id stack hid n hn ih =>
    refine new reached id stack hid ?_
    simpa only [childrenAt, hn] using ih

theorem rounds_eq (a : Arena) (reached stack : List String) : ∃ k,
    k + reached.length = (a.reachFrom reached stack).1.length +
      (a.reachFrom reached stack).2.length ∧
    ∀ again, (Frontier.round a)^[k] ⟨stack, reached, again⟩ =
      ⟨[], (a.reachFrom reached stack).2, again ++ (a.reachFrom reached stack).1⟩ := by
  induction reached, stack using a.reachFrom_induction with
  | done reached => exact ⟨0, by simp [reachFrom]⟩
  | again reached id stack hid ih =>
    obtain ⟨k, hk, hrounds⟩ := ih
    refine ⟨k + 1, ?_, fun again => ?_⟩
    · simp only [reachFrom_of_mem stack hid, List.length_cons]
      omega
    · rw [Function.iterate_succ_apply, Frontier.round_of_mem hid, hrounds,
        reachFrom_of_mem stack hid, List.append_assoc, List.singleton_append]
  | new reached id stack hid ih =>
    obtain ⟨k, hk, hrounds⟩ := ih
    rw [List.length_cons] at hk
    refine ⟨k + 1, ?_, fun again => ?_⟩
    · rw [reachFrom_of_notMem stack hid]
      omega
    · rw [Function.iterate_succ_apply, Frontier.round_of_notMem hid, hrounds,
        reachFrom_of_notMem stack hid]

theorem exists_met (a : Arena) (reached stack : List String) : ∃ met,
    (a.reachFrom reached stack).2 = met ++ reached ∧ (∀ x ∈ met, x ∉ reached) ∧ met.Nodup ∧
    ((a.reachFrom reached stack).1 ++ met).Perm (stack ++ met.flatMap a.childrenAt) := by
  induction reached, stack using a.reachFrom_induction with
  | done reached => exact ⟨[], by simp [reachFrom]⟩
  | again reached id stack hid ih =>
    obtain ⟨met, hall, hnew, hnodup, hperm⟩ := ih
    rw [reachFrom_of_mem stack hid]
    exact ⟨met, hall, hnew, hnodup, hperm.cons id⟩
  | new reached id stack hid ih =>
    obtain ⟨met, hall, hnew, hnodup, hperm⟩ := ih
    rw [reachFrom_of_notMem stack hid]
    refine ⟨met ++ [id], by rw [hall, List.append_assoc, List.singleton_append], ?_, ?_, ?_⟩
    · intro x hx
      rcases List.mem_append.mp hx with hx | hx
      · exact fun hm => hnew x hx (List.mem_cons_of_mem _ hm)
      · exact List.mem_singleton.mp hx ▸ hid
    · rw [List.nodup_append']
      refine ⟨hnodup, List.nodup_singleton id, ?_⟩
      rw [List.disjoint_singleton]
      exact fun hm => hnew id hm List.mem_cons_self
    · rw [List.perm_iff_count] at hperm ⊢
      intro c
      have hc := hperm c
      simp only [List.count_append, List.count_reverse, List.flatMap_append,
        List.flatMap_singleton, List.count_cons, List.count_nil] at hc ⊢
      omega

theorem nodup_reachFrom_root (a : Arena) (root : String) : (a.reachFrom [] [root]).2.Nodup := by
  obtain ⟨met, hall, _, hnodup, _⟩ := a.exists_met [] [root]
  rwa [hall, List.append_nil]

theorem listings_perm (a : Arena) (root : String) :
    (a.listings root).Perm ((a.reachFrom [] [root]).2.flatMap a.childrenAt) := by
  have hnodes : (((a.entries.filter fun e => a.Reaches root e.1).map Prod.fst)).Perm
      ((a.reachFrom [] [root]).2.filter a.contains) := by
    rw [List.perm_ext_iff_of_nodup]
    · intro key
      rw [List.mem_filter, mem_reachFrom_root_iff, Table.contains_eq_isSome, ← Table.mem_keys_iff,
        Table.keys]
      simp only [List.mem_map, List.mem_filter, decide_eq_true_eq]
      constructor
      · rintro ⟨e, ⟨he, hr⟩, rfl⟩
        exact ⟨hr, e, he, rfl⟩
      · rintro ⟨hr, e, he, rfl⟩
        exact ⟨e, ⟨he, hr⟩, rfl⟩
    · exact a.nodup_keys.sublist (List.filter_sublist.map _)
    · exact (nodup_reachFrom_root a root).filter _
  have hlists : a.listings root =
      ((a.entries.filter fun e => a.Reaches root e.1).map Prod.fst).flatMap a.childrenAt := by
    rw [listings, List.flatMap_map]
    refine List.flatMap_congr fun e he => ?_
    rw [childrenAt, Table.mem_entries_iff.mp (List.mem_filter.mp he).1]
  have hdangling : ((a.reachFrom [] [root]).2.filter fun id => !a.contains id).flatMap a.childrenAt =
      [] := by
    rw [List.flatMap_eq_nil_iff]
    intro id hid
    have hnone : a.find? id = none := by
      simpa [Table.contains_eq_isSome] using (List.mem_filter.mp hid).2
    rw [childrenAt, hnone]
  have hsplit := (List.filter_append_perm a.contains (a.reachFrom [] [root]).2).flatMap_right
    a.childrenAt
  rw [List.flatMap_append, hdangling, List.append_nil] at hsplit
  rw [hlists]
  exact (hnodes.flatMap_right _).trans hsplit

theorem met_perm (a : Arena) (root : String) :
    ((a.reachFrom [] [root]).1 ++ (a.reachFrom [] [root]).2).Perm (root :: a.listings root) := by
  obtain ⟨met, hall, _, _, hperm⟩ := a.exists_met [] [root]
  rw [List.append_nil] at hall
  rw [← hall] at hperm
  exact hperm.trans ((a.listings_perm root).symm.cons root)

theorem count_again (h : a.Reaches root key) : (a.reachFrom [] [root]).1.count key + 1 =
    (a.listings root).count key + if key = root then 1 else 0 := by
  have hcount := (a.met_perm root).count_eq key
  have honce : (a.reachFrom [] [root]).2.count key = 1 :=
    List.count_eq_one_of_mem (a.nodup_reachFrom_root root) (mem_reachFrom_root_iff.mpr h)
  rw [List.count_append, honce, List.count_cons] at hcount
  simpa only [beq_iff_eq, eq_comm (a := root)] using hcount

theorem reaches_of_mem_again (h : key ∈ (a.reachFrom [] [root]).1) : a.Reaches root key := by
  have hmem := (a.met_perm root).mem_iff.mp (List.mem_append_left _ h)
  rcases List.mem_cons.mp hmem with rfl | hmem
  · exact .refl
  · obtain ⟨e, he, hkey⟩ := List.mem_flatMap.mp hmem
    obtain ⟨he, hr⟩ := List.mem_filter.mp he
    exact (of_decide_eq_true hr).tail ⟨e.2, Table.mem_entries_iff.mp he, hkey⟩

theorem rounds_start (a : Arena) (root : String) :
    (Frontier.round a)^[(a.listings root).length + 1] (.start root) =
      ⟨[], (a.reachFrom [] [root]).2, (a.reachFrom [] [root]).1⟩ := by
  obtain ⟨k, hk, hrounds⟩ := a.rounds_eq [] [root]
  have hlength := (a.met_perm root).length_eq
  rw [List.length_append, List.length_cons] at hlength
  rw [List.length_nil, Nat.add_zero] at hk
  rw [← hlength, ← hk]
  exact hrounds []

section Findings

variable {n : Node} {v : Violation}

theorem isOfSearch_of_mem_singleton {w : Violation} (h : v ∈ [w]) (hw : w.isOfSearch = false) :
    v.isOfSearch = false := by
  rw [List.mem_singleton.mp h]
  exact hw

theorem isOfSearch_rootViolations (h : v ∈ rootViolations n) : v.isOfSearch = false := by
  rcases List.mem_append.mp h with h | h <;> split at h
  · exact isOfSearch_of_mem_singleton h rfl
  · cases h
  · cases h
  · exact isOfSearch_of_mem_singleton h rfl

theorem isOfSearch_parentViolations (h : v ∈ parentViolations a key n) : v.isOfSearch = false := by
  unfold parentViolations at h
  split at h
  · exact isOfSearch_of_mem_singleton h rfl
  · split at h
    · exact isOfSearch_of_mem_singleton h rfl
    · split at h
      · cases h
      · exact isOfSearch_of_mem_singleton h rfl

theorem isOfSearch_childViolations {child : String} (h : v ∈ childViolations a key child) :
    v.isOfSearch = false := by
  unfold childViolations at h
  split at h
  · exact isOfSearch_of_mem_singleton h rfl
  · split at h
    · cases h
    · exact isOfSearch_of_mem_singleton h rfl

theorem isOfSearch_entryViolations (h : v ∈ entryViolations a root key n) :
    v.isOfSearch = false := by
  rcases List.mem_append.mp h with h | h
  · rcases List.mem_append.mp h with h | h <;> split at h
    · cases h
    · exact isOfSearch_of_mem_singleton h rfl
    · cases h
    · exact isOfSearch_parentViolations h
  · obtain ⟨child, _, h⟩ := List.mem_flatMap.mp h
    exact isOfSearch_childViolations h

end Findings

def localViolations (a : Arena) (root : String) (n : Node) : List Violation :=
  rootViolations n ++ a.entries.flatMap fun e => entryViolations a root e.1 e.2

def lost (a : Arena) (root : String) : List String :=
  (a.keys.filter fun key => !(a.reachFrom [] [root]).2.contains key).mergeSort
    (fun x y => decide (x ≤ y))

theorem audit_eq {n : Node} (h : a.find? root = some n) : a.audit root =
    a.localViolations root n ++ (a.reachFrom [] [root]).1.map .reachedAgain ++
      (a.lost root).map .unreachable := by
  rw [audit, h]
  rfl

theorem mem_lost_iff : key ∈ a.lost root ↔ a.contains key = true ∧ ¬ a.Reaches root key := by
  rw [lost, List.mem_mergeSort, List.mem_filter, Table.mem_keys_iff, ← Table.contains_eq_isSome]
  simp [mem_reachFrom_root_iff]

theorem pairwise_lost (a : Arena) (root : String) : (a.lost root).Pairwise (· < ·) := by
  have hsorted : (a.lost root).Pairwise (· ≤ ·) := by
    have htrans (x y z : String) (hxy : decide (x ≤ y) = true) (hyz : decide (y ≤ z) = true) :
        decide (x ≤ z) = true :=
      decide_eq_true (le_trans (of_decide_eq_true hxy) (of_decide_eq_true hyz))
    have htotal (x y : String) : (decide (x ≤ y) || decide (y ≤ x)) = true := by
      simpa using le_total x y
    have h := List.pairwise_mergeSort htrans htotal
      (a.keys.filter fun key => !(a.reachFrom [] [root]).2.contains key)
    simpa only [lost, decide_eq_true_eq] using h
  have hnodup : (a.lost root).Nodup :=
    (List.mergeSort_perm _ _).nodup_iff.mpr (a.nodup_keys.filter _)
  exact (hsorted.and hnodup).imp fun h => lt_of_le_of_ne h.1 h.2

theorem exists_other_of_again {n : Node} (hn : a.find? root = some n)
    (h : (a.reachFrom [] [root]).1 ≠ []) : a.localViolations root n ≠ [] ∨ a.lost root ≠ [] := by
  by_contra hnone
  obtain ⟨hlocal, hlost⟩ := not_or.mp hnone
  rw [not_not] at hlocal hlost
  obtain ⟨hroot, hentries⟩ := List.append_eq_nil_iff.mp hlocal
  rw [List.flatMap_eq_nil_iff] at hentries
  have htree : a.IsTree root := by
    refine isTree_of_checks ⟨n, hn, hroot⟩ ?_ ?_
    · exact fun key m hm => hentries (key, m) (Table.mem_entries_iff.mpr hm)
    · intro key hkey
      by_contra hr
      have hmem := mem_lost_iff.mpr ⟨hkey, hr⟩
      rw [hlost] at hmem
      cases hmem
  exact h (htree.reachFrom_again (.start a root))

/-- On any arena that has a root, the search of the audit comes to an end, after as many rounds as
there are identifiers to meet. The nodes out of reach are reported once each, in the order of their
identifiers, and each identifier within reach as often as it is listed by nodes within reach, less
the one time that it takes to reach it; the root counts as listed once more. Whenever something is
met again, something else is wrong as well. -/
theorem audit_reports_search (h : a.contains root = true) :
    ∃ (found : List Violation) (again lost : List String),
    a.audit root = found ++ again.map .reachedAgain ++ lost.map .unreachable ∧
    (a.audit root).map Violation.message = found.map Violation.message ++
      again.map (· ++ " is reachable more than once") ++
      lost.map (· ++ " is not reachable from the root") ∧
    (∀ v ∈ found, v.isOfSearch = false) ∧
    (∃ reached, (Frontier.round a)^[(a.listings root).length + 1] (.start root) =
        ⟨[], reached, again⟩ ∧
      reached.Nodup ∧ ∀ key, key ∈ reached ↔ a.Reaches root key) ∧
    (lost.Pairwise (· < ·) ∧
      ∀ key, key ∈ lost ↔ a.contains key = true ∧ ¬ a.Reaches root key) ∧
    (∀ key, a.Reaches root key →
      again.count key + 1 = (a.listings root).count key + if key = root then 1 else 0) ∧
    (∀ key ∈ again, a.Reaches root key) ∧
    (again ≠ [] → found ≠ [] ∨ lost ≠ []) := by
  obtain ⟨n, hn⟩ := exists_of_contains h
  refine ⟨a.localViolations root n, (a.reachFrom [] [root]).1, a.lost root, audit_eq hn, ?_, ?_, ?_,
    ⟨a.pairwise_lost root, fun _ => mem_lost_iff⟩, fun _ => count_again,
    fun _ => reaches_of_mem_again, exists_other_of_again hn⟩
  · rw [audit_eq hn, List.map_append, List.map_append, List.map_map, List.map_map]
    rfl
  · intro v hv
    rcases List.mem_append.mp hv with hv | hv
    · exact isOfSearch_rootViolations hv
    · obtain ⟨e, _, hv⟩ := List.mem_flatMap.mp hv
      exact isOfSearch_entryViolations hv
  · exact ⟨_, a.rounds_start root, a.nodup_reachFrom_root root, fun _ => mem_reachFrom_root_iff⟩

def tangled : Arena := .ofList [
  ("r", { Node.create "r" (.text "root") .container none with children := ["a", "a"] }),
  ("z", Node.create "z" (.text "stray") .sprite (some "r")),
  ("a", { Node.create "a" (.text "a") .sprite (some "r") with children := ["r", "gone"] }),
  ("y", { Node.create "y" (.text "stray") .sprite (some "r") with children := ["a"] })]

theorem audit_reports_search_of_tangled : tangled.contains "r" = true ∧
    ∃ (found : List Violation) (again lost : List String),
      tangled.audit "r" = found ++ again.map .reachedAgain ++ lost.map .unreachable ∧
      (again.count "a", again.count "r", again.count "gone") = (1, 1, 0) ∧
      "y" ∈ lost ∧ "z" ∈ lost ∧ "gone" ∉ lost := by
  have hroot : tangled.contains "r" = true := by decide +kernel
  obtain ⟨found, again, lost, haudit, -, -, -, ⟨-, hlost⟩, hcount, -, -⟩ :=
    audit_reports_search hroot
  have ha := hcount "a" (by decide +kernel)
  have hr := hcount "r" .refl
  have hgone := hcount "gone" (by decide +kernel)
  have hlistings : tangled.listings "r" = ["a", "a", "r", "gone"] := by decide +kernel
  rw [hlistings] at ha hr hgone
  refine ⟨hroot, found, again, lost, haudit, ?_, (hlost "y").mpr (by decide +kernel),
    (hlost "z").mpr (by decide +kernel), fun h => ?_⟩
  · simp at ha hr hgone ⊢
    omega
  · exact absurd ((hlost "gone").mp h).1 (by decide +kernel)

end Arena

end SceneEditor
