import Mathlib.Data.List.Basic
import SeriesBroker.Proofs.Time.Order

/-! # Lists sorted newest first

    Series and joined rows are both sorted by their instant, newest first, with a sort that keeps
    the order of equals. Two facts about such lists carry everything else: sorting does not
    change the sub-list of any one instant (`atInstant_mergeSort`), and a sorted list is put
    together from these sub-lists in descending order (`eq_flatMap_atInstant`).

    Elements are of any type `α`, with their instant given by `key` and the comparison of the
    sort by `le`.
-/

namespace SeriesBroker.Table

variable {α : Type}

/-- The elements of a list at an instant, in their order. -/
def atInstant (key : α → Instant) (t : Instant) (l : List α) : List α :=
  l.filter fun a => key a = t

/-- Instants in strictly descending order. -/
abbrev Descending (ts : List Instant) : Prop := ts.Pairwise fun a b => b.before a = true

/-- Elements in the order of their instants, newest first. -/
abbrev NewestFirst (key : α → Instant) (l : List α) : Prop :=
  l.Pairwise fun a b => ¬ (key a).before (key b) = true

section atInstant

variable {key : α → Instant} {t : Instant}

@[simp] theorem atInstant_nil : atInstant key t [] = [] := rfl

theorem atInstant_cons_eq (key : α → Instant) {a : α} (h : key a = t) (l : List α) :
    atInstant key t (a :: l) = a :: atInstant key t l := by
  simp [atInstant, h]

theorem atInstant_cons_ne (key : α → Instant) {a : α} (h : key a ≠ t) (l : List α) :
    atInstant key t (a :: l) = atInstant key t l := by
  simp [atInstant, h]

theorem atInstant_append (l m : List α) :
    atInstant key t (l ++ m) = atInstant key t l ++ atInstant key t m := by
  simp [atInstant]

theorem mem_atInstant {a : α} {l : List α} : a ∈ atInstant key t l ↔ a ∈ l ∧ key a = t := by
  simp [atInstant]

/-- A list without elements at an instant. -/
theorem atInstant_eq_nil {l : List α} (h : ∀ a ∈ l, key a ≠ t) : atInstant key t l = [] := by
  apply List.filter_eq_nil_iff.2
  intro a ha
  simpa using h a ha

end atInstant

/-! ### Stability -/

section sorting

variable (key : α → Instant) (le : α → α → Bool)

/-- The comparison of a sort newest first is transitive. -/
theorem le_trans_of_key (hle : ∀ a b, le a b = !(key a).before (key b)) (a b c : α)
    (hab : le a b = true) (hbc : le b c = true) : le a c = true := by
  rw [hle] at hab hbc ⊢
  have hac := Instant.not_before_trans (by simpa using hab) (by simpa using hbc)
  simpa using hac

/-- The comparison of a sort newest first is total. -/
theorem le_total_of_key (hle : ∀ a b, le a b = !(key a).before (key b)) (a b : α) :
    (le a b || le b a) = true := by
  rw [hle, hle]
  by_cases hab : (key a).before (key b) = true
  · simp [Instant.before_asymm hab]
  · simp [hab]

/-- A sort newest first gives a list that is newest first. -/
theorem newestFirst_mergeSort (hle : ∀ a b, le a b = !(key a).before (key b)) (l : List α) :
    NewestFirst key (l.mergeSort le) := by
  have hsorted :=
    List.pairwise_mergeSort (le_trans_of_key key le hle) (le_total_of_key key le hle) l
  apply hsorted.imp
  intro a b hab
  rw [hle] at hab
  simpa using hab

/-- Sorting newest first does not change the elements at an instant or their order: they are a
    sorted sub-list before the sort, and so they are one after it. -/
theorem atInstant_mergeSort (hle : ∀ a b, le a b = !(key a).before (key b)) (t : Instant)
    (l : List α) : atInstant key t (l.mergeSort le) = atInstant key t l := by
  have hequal : (atInstant key t l).Pairwise fun a b => le a b = true := by
    apply List.pairwise_of_forall_mem_list
    intro a ha b hb
    rw [hle, (mem_atInstant.1 ha).2, (mem_atInstant.1 hb).2]
    simpa using Instant.not_before_self t
  have hsub : (atInstant key t l).Sublist (l.mergeSort le) :=
    List.sublist_mergeSort (le_trans_of_key key le hle) (le_total_of_key key le hle) hequal
      List.filter_sublist
  have hfiltered : (atInstant key t l).Sublist (atInstant key t (l.mergeSort le)) := by
    have h := hsub.filter fun a => decide (key a = t)
    rwa [show (atInstant key t l).filter (fun a => decide (key a = t)) = atInstant key t l by
      simp [atInstant]] at h
  have hperm := (List.mergeSort_perm l le).filter fun a => decide (key a = t)
  exact (hfiltered.eq_of_length hperm.length_eq.symm).symm

end sorting

/-! ### Groups -/

section groups

variable {key : α → Instant}

/-- In a sorted list without instants after `t`, the elements at `t` come first. -/
theorem eq_atInstant_append_filter {l : List α} (hl : NewestFirst key l) {t : Instant}
    (hmax : ∀ a ∈ l, ¬ t.before (key a) = true) :
    l = atInstant key t l ++ l.filter fun a => key a ≠ t := by
  induction l with
  | nil => rfl
  | cons a l ih =>
    have htail := List.pairwise_cons.1 hl
    by_cases ha : key a = t
    · have hrest := ih htail.2 fun b hb => hmax b (List.mem_cons_of_mem a hb)
      rw [atInstant_cons_eq key ha, List.filter_cons_of_neg (by simpa using ha), List.cons_append,
        ← hrest]
    · -- `a` is older than `t`, so everything after `a` is older as well.
      have hold : ∀ b ∈ a :: l, key b ≠ t := by
        intro b hb heq
        rcases List.mem_cons.1 hb with rfl | hb
        · exact ha heq
        · have hab := htail.1 b hb
          rw [heq] at hab
          exact ha (Instant.eq_of_not_before hab (hmax a List.mem_cons_self))
      rw [atInstant_eq_nil hold, List.nil_append]
      refine (List.filter_eq_self.2 fun b hb => ?_).symm
      simpa using hold b hb

/-- A sorted list is put together from its elements at each instant, for any descending list of
    instants that names all of them. -/
theorem eq_flatMap_atInstant {ts : List Instant} (hts : Descending ts) {l : List α}
    (hl : NewestFirst key l) (hmem : ∀ a ∈ l, key a ∈ ts) :
    l = ts.flatMap fun t => atInstant key t l := by
  induction ts generalizing l with
  | nil =>
    have hnil : l = [] := List.eq_nil_iff_forall_not_mem.2 fun a ha => by
      simpa using hmem a ha
    rw [hnil]
    rfl
  | cons t ts ih =>
    have hts' := List.pairwise_cons.1 hts
    have hmax : ∀ a ∈ l, ¬ t.before (key a) = true := by
      intro a ha
      rcases List.mem_cons.1 (hmem a ha) with heq | hin
      · rw [heq]
        exact Instant.not_before_self t
      · exact Instant.before_asymm (hts'.1 (key a) hin)
    have hrest := ih (l := l.filter fun a => key a ≠ t) hts'.2 (hl.filter _) (by
      intro a ha
      have ha' := List.mem_filter.1 ha
      rcases List.mem_cons.1 (hmem a ha'.1) with heq | hin
      · exact absurd heq (by simpa using ha'.2)
      · exact hin)
    -- Taking `t` away does not touch the other instants.
    have hsame : ∀ u ∈ ts,
        atInstant key u (l.filter fun a => key a ≠ t) = atInstant key u l := by
      intro u hu
      have hne : u ≠ t := by
        intro heq
        have hbefore := hts'.1 u hu
        rw [heq] at hbefore
        exact Instant.not_before_self t hbefore
      unfold atInstant
      rw [List.filter_filter]
      apply List.filter_congr
      intro a _
      by_cases hau : key a = u
      · simp [hau, hne]
      · simp [hau]
    calc l = atInstant key t l ++ l.filter (fun a => key a ≠ t) :=
          eq_atInstant_append_filter hl hmax
      _ = atInstant key t l ++
            ts.flatMap (fun u => atInstant key u (l.filter fun a => key a ≠ t)) := by
          rw [← hrest]
      _ = atInstant key t l ++ ts.flatMap (fun u => atInstant key u l) := by
          rw [List.flatMap_congr hsame]
      _ = (t :: ts).flatMap (fun u => atInstant key u l) := by
          rw [List.flatMap_cons]

end groups

end SeriesBroker.Table
