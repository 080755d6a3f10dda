import Mathlib.Data.List.Forall2
import Mathlib.Logic.Relation
import SeriesBroker.Proofs.Table.Rows

/-! # The join, search by search

    The join searches a series with a binary search and then takes a row out of it, so the next
    search is on another series than the one that was sorted. Here the join is cut into stages,
    one for each time that one of its loops goes round, and it is shown that no stage has a
    series that is not sorted (`Stage.kept_next`, `kept_of_reaches`).

    Key idea: for each instant, what is left of a series at this instant is the end of what the
    store gave (`LeftOf`). Taking out the first row of one instant makes this end one row shorter
    and changes nothing else, so a search always finds the earliest row that is left
    (`LeftOf.finds`). The same row is found by walking through the series from the front, so the
    table could be made in this way as well (`linearTable`).
-/

namespace SeriesBroker.Table

/-! ### Stages -/

/-- Where the join stands. The first `before` series are empty, and `joined` are the rows that
    were joined so far. -/
inductive Stage where
  /-- No series is being emptied. -/
  | between (before : Nat) (series : List (Array TimedRow)) (joined : List Joined)
  /-- A series is being emptied and has `rows` left. -/
  | draining (before : Nat) (rows : List TimedRow) (later : List (Array TimedRow))
      (joined : List Joined)
  /-- A row looks for rows of its instant. The later series that were searched gave `parts`, and
      others are ahead. -/
  | joining (before : Nat) (row : TimedRow) (rows : List TimedRow)
      (parts : List (Option TimedRow)) (searched ahead : List (Array TimedRow))
      (joined : List Joined)

namespace Stage

/-- The stage that comes next, if the join is not at its end. -/
def next : Stage → Option Stage
  | between _ [] _ => none
  | between before (series :: later) joined =>
    some (draining before series.toList later joined)
  | draining before [] later joined => some (between (before + 1) later joined)
  | draining before (row :: rows) later joined =>
    some (joining before row rows [] [] later joined)
  | joining before row rows parts searched (other :: ahead) joined =>
    some (joining before row rows (parts ++ [(takeAt row.instant other).1])
      (searched ++ [(takeAt row.instant other).2]) ahead joined)
  | joining before row rows parts searched [] joined =>
    some (draining before rows searched
      (joined ++ [⟨row.instant, List.replicate before none ++ some row :: parts⟩]))

/-- The rows of each series that is not empty yet. -/
def undrained : Stage → List (List TimedRow)
  | between _ series _ => series.map (·.toList)
  | draining _ rows later _ => rows :: later.map (·.toList)
  | joining _ row rows _ searched ahead _ => (row :: rows) :: (searched ++ ahead).map (·.toList)

end Stage

/-- A stage that comes at some time after another. -/
abbrev Reaches : Stage → Stage → Prop := Relation.ReflTransGen fun s s' => s.next = some s'

/-- One row is joined with all series that are ahead. -/
theorem reaches_joined (before : Nat) (row : TimedRow) (rows : List TimedRow)
    (parts : List (Option TimedRow)) (searched ahead : List (Array TimedRow))
    (joined : List Joined) :
    Reaches (.joining before row rows parts searched ahead joined)
      (.draining before rows (searched ++ remaining row.instant ahead)
        (joined ++ [⟨row.instant, List.replicate before none ++
          some row :: (parts ++ (ahead.map (takeAt row.instant)).map (·.1))⟩])) := by
  induction ahead generalizing parts searched with
  | nil =>
    refine Relation.ReflTransGen.single ?_
    simp [Stage.next, remaining]
  | cons other ahead ih =>
    refine Relation.ReflTransGen.head rfl ?_
    have hrest := ih (parts ++ [(takeAt row.instant other).1])
      (searched ++ [(takeAt row.instant other).2])
    simpa [remaining] using hrest

/-- All rows of a series are joined. -/
theorem reaches_drained (before : Nat) (rows : List TimedRow) (later : List (Array TimedRow))
    (joined : List Joined) :
    Reaches (.draining before rows later joined)
      (.between (before + 1) (drain rows later).2
        (joined ++ (drain rows later).1.map
          fun j => ⟨j.instant, List.replicate before none ++ j.parts⟩)) := by
  induction rows generalizing later joined with
  | nil =>
    refine Relation.ReflTransGen.single ?_
    simp [Stage.next, drain]
  | cons row rows ih =>
    have hrow := reaches_joined before row rows [] [] later joined
    have hrest := ih (remaining row.instant later) (joined ++ [⟨row.instant,
      List.replicate before none ++ some row :: (later.map (takeAt row.instant)).map (·.1)⟩])
    refine Relation.ReflTransGen.head rfl (Relation.ReflTransGen.trans hrow ?_)
    rw [drain_cons]
    simpa using hrest

/-- The stages end with the rows of the join. -/
theorem reaches_joinFrom (before : Nat) (series : List (Array TimedRow)) (joined : List Joined) :
    Reaches (.between before series joined)
      (.between (before + series.length) [] (joined ++ joinFrom before series)) := by
  fun_induction joinFrom before series generalizing joined with
  | case1 before =>
    rw [List.length_nil, Nat.add_zero, List.append_nil]
  | case2 before series later drained ih =>
    have hseries := reaches_drained before series.toList later joined
    have hrest := ih (joined ++ drained.1.map
      fun j => ⟨j.instant, List.replicate before none ++ j.parts⟩)
    have hlength : before + 1 + drained.2.length = before + (series :: later).length := by
      rw [length_drain, List.length_cons]
      omega
    rw [hlength, List.append_assoc] at hrest
    exact Relation.ReflTransGen.head rfl (Relation.ReflTransGen.trans hseries hrest)

/-! ### What is left of a series -/

/-- The rows that the store gave for an instant, in the order of the store. -/
def storedAt (t : Instant) (rows : List Row) : List TimedRow :=
  (rowsAt t rows).map fun row => ⟨t, row.tail⟩

/-- A series is sorted, and at each instant it has the last of the rows that the store gave. -/
structure LeftOf (rows : List Row) (series : Array TimedRow) : Prop where
  sorted : Sorted series
  suffix : ∀ t, atInstant TimedRow.instant t series.toList <:+ storedAt t rows

/-- Nothing is taken out of a series that was just read. -/
theorem leftOf_sortedSeries (rows : List Row) : LeftOf rows (sortedSeries rows) where
  sorted := sorted_sortedSeries rows
  suffix t := by
    rw [atInstant_sortedSeries]
    exact List.suffix_refl _

/-- Taking a row out leaves the last rows at its instant and all rows at the others. -/
theorem LeftOf.takeAt {rows : List Row} {series : Array TimedRow} (h : LeftOf rows series)
    (t : Instant) : LeftOf rows (takeAt t series).2 where
  sorted := newestFirst_takeAt h.sorted t
  suffix u := by
    by_cases hut : u = t
    · rw [hut, atInstant_takeAt h.sorted]
      exact (List.tail_suffix _).trans (h.suffix t)
    · rw [atInstant_takeAt_ne h.sorted hut]
      exact h.suffix u

/-! ### What a search finds -/

/-- A search for an instant in what is left of the rows of the store. -/
structure Finds (rows : List Row) (t : Instant) (series : Array TimedRow) : Prop where
  sorted : Sorted series
  /-- The rows before the end of the search are after the instant. -/
  newer : ∀ place row, place < searchEnd t series → series[place]? = some row →
    t.before row.instant = true
  /-- The row at the end is not. -/
  first : ∀ row, series[searchEnd t series]? = some row → t.before row.instant = false
  /-- The row at the end is one of the instant if the series has such a row at all. -/
  here_iff : (∃ row, series[searchEnd t series]? = some row ∧ row.instant = t) ↔
    ∃ row ∈ series.toList, row.instant = t
  /-- It is the earliest of those that are left, in the order of the store. -/
  earliest : ∀ row, series[searchEnd t series]? = some row → row.instant = t →
    ∃ taken left, storedAt t rows = taken ++ row :: left ∧
      atInstant TimedRow.instant t series.toList = row :: left

/-- A search in what is left of a series finds the earliest row that is left. -/
theorem LeftOf.finds {rows : List Row} {series : Array TimedRow} (h : LeftOf rows series)
    (t : Instant) : Finds rows t series := by
  obtain ⟨newer, older, hsplit, hplace, hhead, hsorted, hnewer, holder⟩ :=
    exists_searchEnd h.sorted t
  have hne := instant_ne_of_before hnewer
  have hat : atInstant TimedRow.instant t series.toList = atInstant TimedRow.instant t older := by
    rw [hsplit, atInstant_append, atInstant_eq_nil hne, List.nil_append]
  -- A row of the instant is not among the newer ones, and the first of the others is one as well.
  have hfirst : ∀ row ∈ series.toList, row.instant = t →
      ∃ first, older.head? = some first ∧ first.instant = t := by
    intro row hrow hinstant
    rw [hsplit] at hrow
    rcases List.mem_append.1 hrow with hin | hin
    · exact absurd hinstant (hne row hin)
    · cases older with
      | nil => cases hin
      | cons first older =>
        refine ⟨first, rfl, ?_⟩
        by_cases hfirst : first.instant = t
        · exact hfirst
        · have hnone := instant_ne_of_head hsorted (holder first List.mem_cons_self) hfirst
          exact absurd hinstant (hnone row hin)
  refine ⟨h.sorted, ?_, ?_, ?_, ?_⟩
  · intro place row hlt hrow
    rw [hplace] at hlt
    rw [← Array.getElem?_toList, hsplit, List.getElem?_append_left hlt] at hrow
    exact hnewer row (List.mem_of_getElem? hrow)
  · intro row hrow
    rw [hhead] at hrow
    exact holder row (List.mem_of_head? hrow)
  · rw [hhead]
    constructor
    · intro hfound
      obtain ⟨row, hrow, hinstant⟩ := hfound
      refine ⟨row, ?_, hinstant⟩
      rw [hsplit]
      exact List.mem_append_right newer (List.mem_of_head? hrow)
    · intro hexists
      obtain ⟨row, hrow, hinstant⟩ := hexists
      exact hfirst row hrow hinstant
  · intro row hrow hinstant
    rw [hhead] at hrow
    obtain ⟨rest, rfl⟩ := List.head?_eq_some_iff.1 hrow
    rw [atInstant_cons_eq TimedRow.instant hinstant] at hat
    obtain ⟨taken, htaken⟩ := h.suffix t
    exact ⟨taken, atInstant TimedRow.instant t rest, by rw [← hat, htaken], hat⟩

/-! ### Every stage -/

/-- Series that hold what is left of what the store gave are sorted. -/
theorem sorted_of_leftOf {data : List (List Row)} {series : List (Array TimedRow)}
    (h : List.Forall₂ LeftOf data series) : ∀ s ∈ series, Sorted s := by
  induction h with
  | nil =>
    intro s hs
    cases hs
  | cons hleft _ ih =>
    intro s hs
    rcases List.mem_cons.1 hs with heq | hs
    · rw [heq]
      exact hleft.sorted
    · exact ih s hs

/-- A series may be searched, whichever it is. -/
theorem leftOf_searched {data : List (List Row)} {searched ahead : List (Array TimedRow)}
    {other : Array TimedRow} (h : List.Forall₂ LeftOf data (searched ++ other :: ahead))
    (t : Instant) : List.Forall₂ LeftOf data (searched ++ (takeAt t other).2 :: ahead) := by
  induction searched generalizing data with
  | nil =>
    obtain ⟨rows, rest, hleft, hahead, rfl⟩ := List.forall₂_cons_right_iff.1 h
    exact .cons (hleft.takeAt t) hahead
  | cons series searched ih =>
    obtain ⟨rows, rest, hleft, hrest, rfl⟩ := List.forall₂_cons_right_iff.1 h
    exact .cons hleft (ih hrest)

/-- The rows of the store that belong to a series among others. -/
theorem leftOf_other {data : List (List Row)} {searched ahead : List (Array TimedRow)}
    {other : Array TimedRow} (h : List.Forall₂ LeftOf data (searched ++ other :: ahead)) :
    ∃ stored, data[searched.length]? = some stored ∧ LeftOf stored other := by
  induction searched generalizing data with
  | nil =>
    obtain ⟨rows, rest, hleft, -, rfl⟩ := List.forall₂_cons_right_iff.1 h
    exact ⟨rows, rfl, hleft⟩
  | cons series searched ih =>
    obtain ⟨rows, rest, -, hrest, rfl⟩ := List.forall₂_cons_right_iff.1 h
    obtain ⟨stored, hstored, hleft⟩ := ih hrest
    exact ⟨stored, by simpa using hstored, hleft⟩

namespace Stage

/-- What every stage keeps: the series that is being emptied is sorted, and the later ones hold
    what is left of what the store gave for them. -/
def Kept (data : List (List Row)) : Stage → Prop
  | between before series _ => List.Forall₂ LeftOf (data.drop before) series
  | draining before rows later _ =>
    NewestFirst TimedRow.instant rows ∧ List.Forall₂ LeftOf (data.drop (before + 1)) later
  | joining before row rows _ searched ahead _ =>
    NewestFirst TimedRow.instant (row :: rows) ∧
      List.Forall₂ LeftOf (data.drop (before + 1)) (searched ++ ahead)

variable {data : List (List Row)}

/-- The next stage keeps it. -/
theorem kept_next {s s' : Stage} (h : s.Kept data) (hnext : s.next = some s') : s'.Kept data := by
  cases s with
  | between before series joined =>
    cases series with
    | nil => cases hnext
    | cons series later =>
      -- The next series is emptied, and the later ones are matched with those after its rows.
      cases hnext
      obtain ⟨rows, rest, hleft, hlater, hdrop⟩ := List.forall₂_cons_right_iff.1 h
      refine ⟨hleft.sorted, ?_⟩
      rwa [← List.drop_drop, hdrop]
  | draining before rows later joined =>
    obtain ⟨hrows, hlater⟩ := h
    cases rows with
    | nil =>
      cases hnext
      exact hlater
    | cons row rows =>
      cases hnext
      exact ⟨hrows, hlater⟩
  | joining before row rows parts searched ahead joined =>
    obtain ⟨hrows, hlater⟩ := h
    cases ahead with
    | nil =>
      cases hnext
      rw [List.append_nil] at hlater
      exact ⟨(List.pairwise_cons.1 hrows).2, hlater⟩
    | cons other ahead =>
      -- A series from which the first row of an instant is taken has the last ones left.
      cases hnext
      refine ⟨hrows, ?_⟩
      rw [List.append_assoc]
      exact leftOf_searched hlater row.instant

/-- So every stage after one that keeps it does. -/
theorem kept_of_reaches {s s' : Stage} (h : s.Kept data) (hreach : Reaches s s') :
    s'.Kept data := by
  induction hreach with
  | refl => exact h
  | tail _ hnext ih => exact kept_next ih hnext

/-- A kept stage has only sorted series. -/
theorem sorted_undrained {s : Stage} (h : s.Kept data) :
    ∀ rows ∈ s.undrained, NewestFirst TimedRow.instant rows := by
  have hall : ∀ {stored : List (List Row)} {series : List (Array TimedRow)},
      List.Forall₂ LeftOf stored series →
      ∀ rows ∈ series.map (·.toList), NewestFirst TimedRow.instant rows := by
    intro stored series hleft rows hrows
    obtain ⟨s, hs, rfl⟩ := List.mem_map.1 hrows
    exact sorted_of_leftOf hleft s hs
  cases s with
  | between before series joined => exact hall h
  | draining before rows later joined => exact List.forall_mem_cons.2 ⟨h.1, hall h.2⟩
  | joining before row rows parts searched ahead joined =>
    exact List.forall_mem_cons.2 ⟨h.1, hall h.2⟩

end Stage

/-! ### The join without a binary search -/

/-- Take the first row of an instant out of a series, walking through it from the front. -/
def takeFirst (t : Instant) : List TimedRow → Option TimedRow × List TimedRow
  | [] => (none, [])
  | row :: rows =>
    if row.instant = t then (some row, rows)
    else ((takeFirst t rows).1, row :: (takeFirst t rows).2)

/-- Join each row of a series with the first rows of its instant in the later series. -/
def linearDrain : List TimedRow → List (List TimedRow) → List Joined × List (List TimedRow)
  | [], later => ([], later)
  | row :: rows, later =>
    let taken := later.map (takeFirst row.instant)
    let (joined, left) := linearDrain rows (taken.map (·.2))
    (⟨row.instant, some row :: taken.map (·.1)⟩ :: joined, left)

theorem length_linearDrain (rows : List TimedRow) (later : List (List TimedRow)) :
    (linearDrain rows later).2.length = later.length := by
  induction rows generalizing later with
  | nil => rfl
  | cons row rows ih => simp [linearDrain, ih]

/-- Join all series, after `before` others that are empty by now. -/
def linearJoinFrom (before : Nat) : List (List TimedRow) → List Joined
  | [] => []
  | series :: later =>
    let drained := linearDrain series later
    drained.1.map (fun j => ⟨j.instant, List.replicate before none ++ j.parts⟩) ++
      linearJoinFrom (before + 1) drained.2
termination_by series => series.length
decreasing_by exact Nat.lt_succ_of_le (Nat.le_of_eq (length_linearDrain series later))

/-- The table of a batch, made by walking through the later series for each row. -/
def linearTable (requests : List Request) (data : List (List Row)) :
    Except ShapeError (List Row) :=
  if requests.length ≠ data.length then .error (.statementCount requests.length data.length)
  else do
    let series ← timedFrom 0 data
    let joined := linearJoinFrom 0 (series.map (·.toList))
    pure ((joined.mergeSort Joined.newerOrSame).map
      (Joined.row (requests.map (·.columns.length))))

/-- Walking finds the first row of the instant and leaves the others. -/
theorem takeFirst_eq (t : Instant) (rows : List TimedRow) :
    takeFirst t rows = ((atInstant TimedRow.instant t rows).head?,
      rows.eraseP (fun row => row.instant = t)) := by
  induction rows with
  | nil => rfl
  | cons row rows ih =>
    rw [takeFirst]
    by_cases hrow : row.instant = t
    · rw [if_pos hrow, atInstant_cons_eq TimedRow.instant hrow,
        List.eraseP_cons_of_pos (by simpa using hrow), List.head?_cons]
    · rw [if_neg hrow, ih, atInstant_cons_ne TimedRow.instant hrow,
        List.eraseP_cons_of_neg (by simpa using hrow)]

/-- In a sorted series walking finds what the search finds. -/
theorem takeFirst_toList {series : Array TimedRow} (h : Sorted series) (t : Instant) :
    takeFirst t series.toList = ((takeAt t series).1, (takeAt t series).2.toList) := by
  rw [takeFirst_eq, (takeAt_eq h t).1, (takeAt_eq h t).2]

theorem linearDrain_cons (row : TimedRow) (rows : List TimedRow) (later : List (List TimedRow)) :
    linearDrain (row :: rows) later =
      (⟨row.instant, some row :: (later.map (takeFirst row.instant)).map (·.1)⟩ ::
          (linearDrain rows ((later.map (takeFirst row.instant)).map (·.2))).1,
        (linearDrain rows ((later.map (takeFirst row.instant)).map (·.2))).2) := rfl

/-- Draining joins the same rows and leaves the same rows. -/
theorem linearDrain_toList (rows : List TimedRow) {later : List (Array TimedRow)}
    (hlater : ∀ s ∈ later, Sorted s) :
    linearDrain rows (later.map (·.toList)) =
      ((drain rows later).1, (drain rows later).2.map (·.toList)) := by
  induction rows generalizing later with
  | nil => rfl
  | cons row rows ih =>
    have htaken : (later.map (·.toList)).map (takeFirst row.instant) =
        (later.map (takeAt row.instant)).map fun found => (found.1, found.2.toList) := by
      rw [List.map_map, List.map_map]
      apply List.map_congr_left
      intro s hs
      exact takeFirst_toList (hlater s hs) row.instant
    have hparts : ((later.map (·.toList)).map (takeFirst row.instant)).map (·.1) =
        (later.map (takeAt row.instant)).map (·.1) := by
      simp [htaken, Function.comp_def]
    have hleft : ((later.map (·.toList)).map (takeFirst row.instant)).map (·.2) =
        (remaining row.instant later).map (·.toList) := by
      simp [htaken, remaining, Function.comp_def]
    rw [linearDrain_cons, drain_cons, hparts, hleft, ih (sorted_remaining hlater row.instant)]

/-- All series are joined in the same way. -/
theorem linearJoinFrom_toList (before : Nat) {series : List (Array TimedRow)}
    (hseries : ∀ s ∈ series, Sorted s) :
    linearJoinFrom before (series.map (·.toList)) = joinFrom before series := by
  fun_induction joinFrom before series with
  | case1 before => rw [List.map_nil, linearJoinFrom]
  | case2 before series later drained ih =>
    have hlater : ∀ s ∈ later, Sorted s := fun s hs => hseries s (List.mem_cons_of_mem series hs)
    rw [List.map_cons, linearJoinFrom, linearDrain_toList series.toList hlater,
      ih (sorted_drain series.toList hlater)]

/-- The stages of a batch that was just read. -/
theorem kept_start (data : List (List Row)) :
    (Stage.between 0 (data.map sortedSeries) []).Kept data := by
  show List.Forall₂ LeftOf data (data.map sortedSeries)
  induction data with
  | nil => exact .nil
  | cons rows data ih => exact .cons (leftOf_sortedSeries rows) ih

/-- **Every search of the join is right.** The stages of the join end with its rows, and in each
    of them all series that are not empty yet are sorted newest first. So whenever a row is joined
    with a later series, the place where the search ends has a row of the instant if there is one
    in the series at all, and then it is the earliest that is left of what the store gave. The
    table is the same as if the later series were walked through from the front. -/
theorem join_searched (requests : List Request) (data : List (List Row)) :
    (∀ series, timedFrom 0 data = .ok series →
      Reaches (.between 0 series []) (.between series.length [] (joinFrom 0 series)) ∧
      ∀ stage, Reaches (.between 0 series []) stage →
        (∀ rows ∈ stage.undrained, NewestFirst TimedRow.instant rows) ∧
        ∀ before row rows parts searched other ahead joined,
          stage = .joining before row rows parts searched (other :: ahead) joined →
          ∃ stored, data[before + 1 + searched.length]? = some stored ∧
            Finds stored row.instant other) ∧
    linearTable requests data = table requests data := by
  constructor
  · intro series hseries
    have hread := timedFrom_of_stamped (stamped_of_timedFrom hseries) 0
    rw [hseries, Except.ok.injEq] at hread
    have hend := reaches_joinFrom 0 series []
    rw [Nat.zero_add, List.nil_append] at hend
    refine ⟨hend, ?_⟩
    intro stage hreach
    -- What every stage keeps holds at the first one, so it holds at this one.
    have hkept : stage.Kept data := by
      refine Stage.kept_of_reaches ?_ hreach
      rw [hread]
      exact kept_start data
    refine ⟨Stage.sorted_undrained hkept, ?_⟩
    intro before row rows parts searched other ahead joined hstage
    rw [hstage] at hkept
    obtain ⟨stored, hstored, hleft⟩ := leftOf_other hkept.2
    rw [List.getElem?_drop] at hstored
    exact ⟨stored, hstored, hleft.finds row.instant⟩
  · unfold linearTable table
    by_cases hpaired : requests.length = data.length
    · rw [if_neg (not_not_intro hpaired), if_neg (not_not_intro hpaired)]
      cases hseries : timedFrom 0 data with
      | error error => rfl
      | ok series =>
        have hread := timedFrom_of_stamped (stamped_of_timedFrom hseries) 0
        rw [hseries, Except.ok.injEq] at hread
        -- On sorted series walking from the front finds what the binary search finds.
        have hsorted : ∀ s ∈ series, Sorted s := by
          rw [hread]
          exact sorted_of_leftOf (kept_start data)
        show Except.ok (((linearJoinFrom 0 (series.map (·.toList))).mergeSort
          Joined.newerOrSame).map _) = Except.ok ((join series).map _)
        rw [linearJoinFrom_toList 0 hsorted, join]
    · rw [if_pos hpaired, if_pos hpaired]

end SeriesBroker.Table
