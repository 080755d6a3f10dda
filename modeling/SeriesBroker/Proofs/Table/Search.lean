import SeriesBroker.Proofs.Table.Newest
import SeriesBroker.Shape.Table

/-! # Searching a sorted series

    The join looks for a row of an instant with a binary search and takes the row out of its
    series. On a series that is sorted newest first this is the same as walking through the
    series from the front: the first row of the instant is found if there is one, exactly this
    row is removed (`takeAt_eq`), and what is left is sorted again (`newestFirst_takeAt`).
-/

namespace SeriesBroker

/-! ### The search for the end of a first part -/

/-- What the search finds in its range, if the numbers that satisfy `holds` come first: all
    below it do, and it does not unless it is the end of the range. -/
theorem firstFailure_spec (holds : Nat → Bool) (low high : Nat) (hrange : low ≤ high)
    (hfirst : ∀ i j, i ≤ j → j < high → holds j = true → holds i = true) :
    low ≤ firstFailure holds low high ∧ firstFailure holds low high ≤ high ∧
      (∀ i, low ≤ i → i < firstFailure holds low high → holds i = true) ∧
      (firstFailure holds low high < high → holds (firstFailure holds low high) = false) := by
  fun_induction firstFailure holds low high with
  | case1 low high hlt middle hholds ih =>
    obtain ⟨hlow, hhigh, hbelow, hat⟩ := ih (by omega) hfirst
    refine ⟨by omega, hhigh, fun i hi hlt => ?_, hat⟩
    by_cases hm : middle + 1 ≤ i
    · exact hbelow i hm hlt
    · exact hfirst i middle (by omega) (by omega) hholds
  | case2 low high hlt middle hholds ih =>
    have hmiddle : middle < high := by omega
    obtain ⟨hlow, hhigh, hbelow, hat⟩ := ih (by omega)
      (fun i j hij hj => hfirst i j hij (by omega))
    refine ⟨hlow, by omega, hbelow, fun _ => ?_⟩
    by_cases hend : firstFailure holds low middle < middle
    · exact hat hend
    · have heq : firstFailure holds low middle = middle := by omega
      rw [heq]
      simpa using hholds
  | case3 low high hlt =>
    exact ⟨Nat.le_refl low, hrange, fun i hi hlt' => by omega, fun h => absurd h hlt⟩

/-- The partition point of a sequence is where its first part ends, if all of that part and
    nothing after it satisfies the condition. -/
theorem partitionPoint_append {α : Type} (holds : α → Bool) (items : Array α)
    {first rest : List α} (hitems : items.toList = first ++ rest)
    (hfirst : ∀ a ∈ first, holds a = true) (hrest : ∀ a ∈ rest, holds a = false) :
    partitionPoint holds items = first.length := by
  have hsize : items.size = first.length + rest.length := by
    rw [← Array.length_toList, hitems, List.length_append]
  -- The condition at a place, read off the two parts.
  have hplace : ∀ i, items[i]?.any holds = true ↔ i < first.length := by
    intro i
    rw [← Array.getElem?_toList, hitems]
    by_cases hi : i < first.length
    · rw [List.getElem?_append_left hi, List.getElem?_eq_getElem hi]
      simpa [hi] using hfirst _ (List.getElem_mem hi)
    · rw [List.getElem?_append_right (by omega)]
      constructor
      · intro hany
        obtain ⟨a, ha, hholds⟩ := (Option.any_eq_true _ _).1 hany
        rw [hrest a (List.mem_of_getElem? ha)] at hholds
        exact absurd hholds (by decide)
      · intro hlt
        exact absurd hlt hi
  obtain ⟨-, hhigh, hbelow, hat⟩ := firstFailure_spec (fun i => items[i]?.any holds) 0 items.size
    (Nat.zero_le _) (fun i j hij _ hj => (hplace i).2 (by have := (hplace j).1 hj; omega))
  show firstFailure (fun i => items[i]?.any holds) 0 items.size = first.length
  generalize hpoint : firstFailure (fun i => items[i]?.any holds) 0 items.size = point at *
  have hle : first.length ≤ point := by
    by_cases hlt : point < first.length
    · have hfalse := hat (by omega)
      rw [(hplace point).2 hlt] at hfalse
      exact absurd hfalse (by decide)
    · omega
  have hge : point ≤ first.length := by
    by_cases hlt : first.length < point
    · have := (hplace first.length).1 (hbelow first.length (Nat.zero_le _) hlt)
      omega
    · omega
  omega

namespace Table

/-! ### Taking a row of an instant -/

/-- A sorted series splits at an instant into the rows after it and the rows from it on. -/
theorem exists_split {rows : List TimedRow} (hrows : NewestFirst TimedRow.instant rows)
    (t : Instant) :
    ∃ newer older, rows = newer ++ older ∧ (∀ row ∈ newer, t.before row.instant = true) ∧
      ∀ row ∈ older, t.before row.instant = false := by
  induction rows with
  | nil => exact ⟨[], [], rfl, by simp, by simp⟩
  | cons row rows ih =>
    have hcons := List.pairwise_cons.1 hrows
    by_cases hrow : t.before row.instant = true
    · obtain ⟨newer, older, rfl, hnewer, holder⟩ := ih hcons.2
      refine ⟨row :: newer, older, rfl, ?_, holder⟩
      intro r hr
      rcases List.mem_cons.1 hr with rfl | hr
      · exact hrow
      · exact hnewer r hr
    · refine ⟨[], row :: rows, rfl, by simp, ?_⟩
      intro r hr
      rcases List.mem_cons.1 hr with rfl | hr
      · simpa using hrow
      · simpa using Instant.not_before_trans hrow (hcons.1 r hr)

/-- In a sorted series without rows after an instant, the rows of the instant come first. -/
theorem instant_ne_of_head {t : Instant} {row : TimedRow} {rows : List TimedRow}
    (hrows : NewestFirst TimedRow.instant (row :: rows)) (hbefore : t.before row.instant = false)
    (hne : row.instant ≠ t) : ∀ r ∈ row :: rows, r.instant ≠ t := by
  intro r hr heq
  rcases List.mem_cons.1 hr with rfl | hr
  · exact hne heq
  · -- A row of the instant that comes later would be after `row`.
    have hle := (List.pairwise_cons.1 hrows).1 r hr
    rw [heq] at hle
    exact hne (Instant.eq_of_not_before hle (by simpa using hbefore))

/-- The place where the search for an instant ends. -/
def searchEnd (t : Instant) (series : Array TimedRow) : Nat :=
  partitionPoint (fun row => t.before row.instant) series

/-- A search ends between the rows after the instant and the others, of which it has the first. -/
theorem exists_searchEnd {series : Array TimedRow}
    (hseries : NewestFirst TimedRow.instant series.toList) (t : Instant) :
    ∃ newer older, series.toList = newer ++ older ∧ searchEnd t series = newer.length ∧
      series[searchEnd t series]? = older.head? ∧
      NewestFirst TimedRow.instant older ∧
      (∀ row ∈ newer, t.before row.instant = true) ∧
      ∀ row ∈ older, t.before row.instant = false := by
  obtain ⟨newer, older, hsplit, hnewer, holder⟩ := exists_split hseries t
  have hplace : searchEnd t series = newer.length :=
    partitionPoint_append _ series hsplit hnewer holder
  rw [hsplit] at hseries
  refine ⟨newer, older, hsplit, hplace, ?_, (List.pairwise_append.1 hseries).2.1, hnewer, holder⟩
  rw [hplace, ← Array.getElem?_toList, hsplit, List.getElem?_append_right (Nat.le_refl _),
    Nat.sub_self, List.head?_eq_getElem?]

/-- No row that is after an instant is one of the instant. -/
theorem instant_ne_of_before {t : Instant} {rows : List TimedRow}
    (h : ∀ row ∈ rows, t.before row.instant = true) : ∀ row ∈ rows, row.instant ≠ t := by
  intro row hrow heq
  have hbefore := h row hrow
  rw [heq] at hbefore
  exact Instant.not_before_self t hbefore

/-- The first row of an instant is found, if there is one, and is taken out. -/
theorem takeAt_eq {series : Array TimedRow} (hseries : NewestFirst TimedRow.instant series.toList)
    (t : Instant) :
    (takeAt t series).1 = (atInstant TimedRow.instant t series.toList).head? ∧
      (takeAt t series).2.toList = series.toList.eraseP (fun row => row.instant = t) := by
  obtain ⟨newer, older, hsplit, hplace, hfound, hsorted, hnewer, holder⟩ :=
    exists_searchEnd hseries t
  -- The search parts the series into rows that are newer than the instant and all others.
  have hne := instant_ne_of_before hnewer
  have hhere : atInstant TimedRow.instant t series.toList = atInstant TimedRow.instant t older := by
    rw [hsplit, atInstant_append, atInstant_eq_nil hne, List.nil_append]
  have herase : series.toList.eraseP (fun row => row.instant = t) =
      newer ++ older.eraseP (fun row => row.instant = t) := by
    rw [hsplit]
    exact List.eraseP_append_right older (fun row hrow => by simpa using hne row hrow)
  rw [hhere, herase]
  unfold takeAt
  rw [searchEnd] at hfound hplace
  simp only [hfound]
  cases older with
  | nil => simpa using hsplit
  | cons row older =>
    by_cases hrow : row.instant = t
    · have hlt : newer.length < series.size := by
        rw [← Array.length_toList, hsplit]
        simp
      simp only [List.head?_cons, hrow, if_true, atInstant_cons_eq TimedRow.instant hrow, hplace,
        Array.eraseIdxIfInBounds, hlt, dif_pos, Array.toList_eraseIdx, hsplit,
        List.eraseIdx_append_of_length_le (Nat.le_refl _), Nat.sub_self, List.eraseIdx_cons_zero,
        List.eraseP_cons_of_pos, decide_true, and_self]
    · -- The row at the place is older, and so are all rows after it.
      have hold := instant_ne_of_head hsorted (holder row List.mem_cons_self) hrow
      simp only [List.head?_cons, hrow, if_false, atInstant_eq_nil hold, List.head?_nil, true_and]
      rw [List.eraseP_of_forall_not (fun r hr => by simpa using hold r hr), hsplit]

/-- What is left of a series is sorted again. -/
theorem newestFirst_takeAt {series : Array TimedRow}
    (hseries : NewestFirst TimedRow.instant series.toList) (t : Instant) :
    NewestFirst TimedRow.instant (takeAt t series).2.toList := by
  rw [(takeAt_eq hseries t).2]
  exact hseries.sublist List.eraseP_sublist

/-- Of the rows of the instant all but the first are left. -/
theorem atInstant_takeAt {series : Array TimedRow}
    (hseries : NewestFirst TimedRow.instant series.toList) (t : Instant) :
    atInstant TimedRow.instant t (takeAt t series).2.toList =
      (atInstant TimedRow.instant t series.toList).tail := by
  rw [(takeAt_eq hseries t).2]
  generalize series.toList = rows
  induction rows with
  | nil => rfl
  | cons row rows ih =>
    by_cases hrow : row.instant = t
    · rw [List.eraseP_cons_of_pos (by simpa using hrow), atInstant_cons_eq TimedRow.instant hrow,
        List.tail_cons]
    · rw [List.eraseP_cons_of_neg (by simpa using hrow), atInstant_cons_ne TimedRow.instant hrow,
        atInstant_cons_ne TimedRow.instant hrow, ih]

/-- The rows of every other instant are left as they are. -/
theorem atInstant_takeAt_ne {series : Array TimedRow}
    (hseries : NewestFirst TimedRow.instant series.toList) {t u : Instant} (hne : u ≠ t) :
    atInstant TimedRow.instant u (takeAt t series).2.toList =
      atInstant TimedRow.instant u series.toList := by
  rw [(takeAt_eq hseries t).2]
  generalize series.toList = rows
  induction rows with
  | nil => rfl
  | cons row rows ih =>
    by_cases hrow : row.instant = t
    · have hrow' : row.instant ≠ u := fun h => hne (h.symm.trans hrow)
      rw [List.eraseP_cons_of_pos (by simpa using hrow), atInstant_cons_ne TimedRow.instant hrow']
    · rw [List.eraseP_cons_of_neg (by simpa using hrow)]
      by_cases hrow' : row.instant = u
      · rw [atInstant_cons_eq TimedRow.instant hrow', atInstant_cons_eq TimedRow.instant hrow', ih]
      · rw [atInstant_cons_ne TimedRow.instant hrow', atInstant_cons_ne TimedRow.instant hrow', ih]

end Table

end SeriesBroker
