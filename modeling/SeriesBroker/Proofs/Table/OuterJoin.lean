import SeriesBroker.Proofs.Table.Join

/-! # The table of a batch, said directly

    What the table of a batch should be can be said without draining and searching. The instants
    of all series are listed newest first. At an instant every series has some rows, in the
    order of the store, and the table has one row for each number that one of the series
    reaches: the timestamp and then, for each request, the cells of its row with that number, or
    nulls if it has none. This is `outerJoin`, and it is what the join computes.
-/

namespace SeriesBroker.Table

/-! ### The outer join -/

/-- The instant that a row starts with. -/
def stamp? : Row → Option Instant
  | .string text :: _ => Timestamp.ofText? text
  | _ => none

/-- The rows that a series has at an instant, in the order of the store. -/
def rowsAt (t : Instant) (rows : List Row) : List Row := rows.filter fun row => stamp? row = some t

/-- Cells that are cut or filled up with nulls to a width. -/
def fitted (width : Nat) (cells : List Scalar) : List Scalar :=
  cells.take width ++ List.replicate (width - cells.length) .null

/-- The cells of a request in a row of the table, taken from a row of its series. -/
def outerBlock (request : Request) : Option Row → List Scalar
  | some row => fitted request.columns.length row.tail
  | none => List.replicate request.columns.length .null

/-- The row of the table that is number `j` at an instant. -/
def outerRow (requests : List Request) (data : List (List Row)) (t : Instant) (j : Nat) : Row :=
  .string (Timestamp.toText t) ::
    (List.zipWith (fun request rows => outerBlock request (rowsAt t rows)[j]?)
      requests data).flatten

/-- The rows of the table at an instant, as many as the series with the most rows has. -/
def outerRows (requests : List Request) (data : List (List Row)) (t : Instant) : List Row :=
  (List.range (depth (data.map (rowsAt t)))).map (outerRow requests data t)

/-- Put an instant into its place in a descending list, if it is not there. -/
def insertInstant (t : Instant) : List Instant → List Instant
  | [] => [t]
  | u :: rest =>
    if u.before t then t :: u :: rest
    else if u = t then u :: rest
    else u :: insertInstant t rest

/-- The instants of a batch in descending order, each once. -/
def instantsOf (data : List (List Row)) : List Instant :=
  (data.flatten.filterMap stamp?).foldr insertInstant []

/-- The outer join of a batch on equal instants. -/
def outerJoin (requests : List Request) (data : List (List Row)) : List Row :=
  (instantsOf data).flatMap (outerRows requests data)

/-! ### The instants of a batch -/

theorem mem_insertInstant {t u : Instant} {ts : List Instant} :
    u ∈ insertInstant t ts ↔ u = t ∨ u ∈ ts := by
  induction ts with
  | nil => simp [insertInstant]
  | cons v ts ih =>
    unfold insertInstant
    split
    · simp
    · split
      · next hvt =>
        subst hvt
        simp
      · rw [List.mem_cons, ih, List.mem_cons]
        exact or_left_comm

theorem descending_insertInstant (t : Instant) {ts : List Instant} (hts : Descending ts) :
    Descending (insertInstant t ts) := by
  induction ts with
  | nil => simp [insertInstant, Descending]
  | cons v ts ih =>
    have hcons := List.pairwise_cons.1 hts
    unfold insertInstant
    split
    · next hvt =>
      refine List.pairwise_cons.2 ⟨fun u hu => ?_, hts⟩
      rcases List.mem_cons.1 hu with rfl | hu
      · exact hvt
      · exact Instant.before_trans (hcons.1 u hu) hvt
    · split
      · exact hts
      · next hvt hne =>
        refine List.pairwise_cons.2 ⟨fun u hu => ?_, ih hcons.2⟩
        rcases mem_insertInstant.1 hu with rfl | hu
        · by_cases huv : u.before v = true
          · exact huv
          · exact absurd (Instant.eq_of_not_before hvt huv) hne
        · exact hcons.1 u hu

/-- The instants of a batch are listed in strictly descending order. -/
theorem descending_instantsOf (data : List (List Row)) : Descending (instantsOf data) := by
  unfold instantsOf
  generalize data.flatten.filterMap stamp? = ts
  induction ts with
  | nil => exact List.Pairwise.nil
  | cons t ts ih => exact descending_insertInstant t ih

/-- The instants of a batch are those that one of its rows starts with. -/
theorem mem_instantsOf {data : List (List Row)} {t : Instant} :
    t ∈ instantsOf data ↔ ∃ rows ∈ data, ∃ row ∈ rows, stamp? row = some t := by
  have hfold : ∀ ts : List Instant, t ∈ ts.foldr insertInstant [] ↔ t ∈ ts := by
    intro ts
    induction ts with
    | nil => rfl
    | cons u ts ih => rw [List.foldr_cons, mem_insertInstant, ih, List.mem_cons]
  rw [instantsOf, hfold, List.mem_filterMap]
  constructor
  · rintro ⟨row, hrow, hstamp⟩
    obtain ⟨rows, hrows, hin⟩ := List.mem_flatten.1 hrow
    exact ⟨rows, hrows, row, hin, hstamp⟩
  · rintro ⟨rows, hrows, row, hin, hstamp⟩
    exact ⟨row, List.mem_flatten.2 ⟨rows, hrows, hin⟩, hstamp⟩

/-! ### Reading the timestamps -/

/-- A row with its timestamp read, if it starts with one. -/
def timed? (row : Row) : Option TimedRow := (stamp? row).map fun t => ⟨t, row.tail⟩

/-- A series with the timestamps of its rows read, sorted newest first. -/
def sortedSeries (rows : List Row) : Array TimedRow :=
  ((rows.filterMap timed?).mergeSort newerOrSame).toArray

theorem timedRow_of_stamp {row : Row} {t : Instant} (h : stamp? row = some t)
    (statement : Nat) : timedRow statement row = .ok ⟨t, row.tail⟩ := by
  cases row with
  | nil => cases h
  | cons cell cells =>
    cases cell with
    | string text =>
      have htext : Timestamp.ofText? text = some t := h
      simp only [timedRow, htext, List.tail_cons]
    | null => cases h
    | bool b => cases h
    | number n => cases h

theorem mapM_timedRow {rows : List Row} (h : ∀ row ∈ rows, (stamp? row).isSome)
    (statement : Nat) : rows.mapM (timedRow statement) = .ok (rows.filterMap timed?) := by
  induction rows with
  | nil => rfl
  | cons row rows ih =>
    obtain ⟨t, ht⟩ := Option.isSome_iff_exists.1 (h row List.mem_cons_self)
    have htimed : timed? row = some ⟨t, row.tail⟩ := by rw [timed?, ht, Option.map_some]
    rw [List.mapM_cons, timedRow_of_stamp ht, ih fun r hr => h r (List.mem_cons_of_mem row hr),
      List.filterMap_cons_some htimed]
    rfl

/-- The timestamps of a batch are read if every row starts with one. -/
theorem timedFrom_of_stamped {data : List (List Row)}
    (h : ∀ rows ∈ data, ∀ row ∈ rows, (stamp? row).isSome) (statement : Nat) :
    timedFrom statement data = .ok (data.map sortedSeries) := by
  induction data generalizing statement with
  | nil => rfl
  | cons rows data ih =>
    have hfirst : timedSeries statement rows = .ok (sortedSeries rows) := by
      rw [timedSeries, mapM_timedRow (h rows List.mem_cons_self)]
      rfl
    rw [timedFrom, hfirst, ih fun r hr => h r (List.mem_cons_of_mem rows hr)]
    rfl

/-- The series are sorted. -/
theorem sorted_sortedSeries (rows : List Row) : Sorted (sortedSeries rows) :=
  newestFirst_mergeSort TimedRow.instant newerOrSame (fun _ _ => rfl) _

/-- Sorting keeps the rows of an instant and the order that the store gave them. -/
theorem atInstant_sortedSeries (t : Instant) (rows : List Row) :
    atInstant TimedRow.instant t (sortedSeries rows).toList =
      (rowsAt t rows).map fun row => ⟨t, row.tail⟩ := by
  show atInstant TimedRow.instant t ((rows.filterMap timed?).mergeSort newerOrSame) = _
  rw [atInstant_mergeSort TimedRow.instant newerOrSame fun _ _ => rfl]
  induction rows with
  | nil => rfl
  | cons row rows ih =>
    cases hstamp : stamp? row with
    | none =>
      have htimed : timed? row = none := by rw [timed?, hstamp, Option.map_none]
      rw [List.filterMap_cons_none htimed, ih, rowsAt, rowsAt,
        List.filter_cons_of_neg (by simp [hstamp])]
    | some u =>
      have htimed : timed? row = some ⟨u, row.tail⟩ := by rw [timed?, hstamp, Option.map_some]
      rw [List.filterMap_cons_some htimed, rowsAt]
      by_cases hut : u = t
      · rw [atInstant_cons_eq TimedRow.instant hut, ih,
          List.filter_cons_of_pos (by simp [hstamp, hut]), List.map_cons, hut, rowsAt]
      · rw [atInstant_cons_ne TimedRow.instant hut, ih,
          List.filter_cons_of_neg (by simp [hstamp, hut]), rowsAt]

/-! ### The table -/

section table

variable (requests : List Request) (data : List (List Row))

/-- The join of sorted series, as the groups of its instants in descending order. -/
theorem join_eq_flatMap :
    join (data.map sortedSeries) =
      (instantsOf data).flatMap fun t =>
        (levels (groups t (data.map sortedSeries))).map fun parts => ⟨t, parts⟩ := by
  have hsorted : ∀ s ∈ data.map sortedSeries, Sorted s := by
    intro s hs
    obtain ⟨rows, _, rfl⟩ := List.mem_map.1 hs
    exact sorted_sortedSeries rows
  have hmem : ∀ j ∈ join (data.map sortedSeries), j.instant ∈ instantsOf data := by
    intro j hj
    obtain ⟨s, hs, row, hrow, hinstant⟩ :=
      exists_row_of_mem_joinFrom hsorted (List.mem_mergeSort.1 hj)
    obtain ⟨rows, hrows, rfl⟩ := List.mem_map.1 hs
    have hat := mem_atInstant.2 ⟨hrow, hinstant⟩
    rw [atInstant_sortedSeries] at hat
    obtain ⟨r, hr, -⟩ := List.mem_map.1 hat
    have hfilter := List.mem_filter.1 hr
    exact mem_instantsOf.2 ⟨rows, hrows, r, hfilter.1, by simpa using hfilter.2⟩
  have hnewest : NewestFirst Joined.instant (join (data.map sortedSeries)) :=
    newestFirst_mergeSort Joined.instant Joined.newerOrSame (fun _ _ => rfl) _
  -- Both sides are sorted newest first, so they are equal if they are equal at each instant.
  refine (eq_flatMap_atInstant (descending_instantsOf data) hnewest hmem).trans ?_
  apply List.flatMap_congr
  intro t _
  rw [join, atInstant_mergeSort Joined.instant Joined.newerOrSame fun _ _ => rfl,
    atInstant_joinFrom t 0 _ hsorted]
  rfl

/-- The groups of sorted series are the rows of the instant without their timestamps. -/
theorem groups_sortedSeries (t : Instant) :
    groups t (data.map sortedSeries) =
      (data.map (rowsAt t)).map (List.map fun row => ⟨t, row.tail⟩) := by
  rw [groups, List.map_map, List.map_map]
  apply List.map_congr_left
  intro rows _
  exact atInstant_sortedSeries t rows

/-- Forgetting the timestamps does not change the number of rows. -/
theorem depth_groups (t : Instant) :
    depth (groups t (data.map sortedSeries)) = depth (data.map (rowsAt t)) := by
  rw [groups_sortedSeries, depth, depth, List.map_map]
  congr 1
  apply List.map_congr_left
  intro rows _
  exact List.length_map _

/-- A block of the table has the cells of its row. -/
theorem block_eq_outerBlock (request : Request) (t : Instant) (row : Option Row) :
    block request.columns.length (row.map fun r => ⟨t, r.tail⟩) = outerBlock request row := by
  cases row with
  | none => rfl
  | some row =>
    show List.rightpad _ _ (row.tail.take _) = row.tail.take _ ++ _
    rw [List.rightpad, List.length_take]
    congr 2
    omega

/-- A level of the groups is written as a row of the outer join. -/
theorem row_level (t : Instant) (j : Nat) :
    Joined.row (requests.map (·.columns.length)) ⟨t, level (groups t (data.map sortedSeries)) j⟩ =
      outerRow requests data t j := by
  have hparts : level (groups t (data.map sortedSeries)) j =
      data.map fun rows => ((rowsAt t rows)[j]?).map fun row => ⟨t, row.tail⟩ := by
    rw [groups_sortedSeries, level, List.map_map, List.map_map]
    apply List.map_congr_left
    intro rows _
    exact List.getElem?_map
  have hblocks : (fun (request : Request) (rows : List Row) =>
        block request.columns.length
          ((rowsAt t rows)[j]?.map fun row => (⟨t, row.tail⟩ : TimedRow))) =
      fun request rows => outerBlock request (rowsAt t rows)[j]? := by
    funext request rows
    exact block_eq_outerBlock request t _
  rw [Joined.row, outerRow, hparts, List.zipWith_map, hblocks]

/-- The rows of the join are the rows of the outer join. -/
theorem map_row_join :
    (join (data.map sortedSeries)).map (Joined.row (requests.map (·.columns.length))) =
      outerJoin requests data := by
  rw [join_eq_flatMap, List.map_flatMap, outerJoin]
  apply List.flatMap_congr
  intro t _
  rw [levels, List.map_map, List.map_map, depth_groups, outerRows]
  apply List.map_congr_left
  intro j _
  exact row_level requests data t j

end table

/-- **The table is the outer join on equal instants.** For a batch whose rows all start with a
    timestamp there is a table, and its rows are, for each instant of the batch in descending
    order, the rows with number 0, 1, ... of all series at that instant side by side. -/
theorem table_eq_outerJoin (requests : List Request) (data : List (List Row))
    (paired : requests.length = data.length)
    (stamped : ∀ rows ∈ data, ∀ row ∈ rows, (stamp? row).isSome) :
    table requests data = .ok (outerJoin requests data) ∧
      Descending (instantsOf data) ∧
      ∀ t, t ∈ instantsOf data ↔ ∃ rows ∈ data, ∃ row ∈ rows, stamp? row = some t := by
  refine ⟨?_, descending_instantsOf data, fun t => mem_instantsOf⟩
  rw [table, if_neg (not_not_intro paired), timedFrom_of_stamped stamped]
  exact congrArg Except.ok (map_row_join requests data)

/-- Two rows of one instant, written with different offsets, join the first row of it in the
    other series only once, and rows are cut and filled up. -/
theorem table_eq_outerJoin_repeated :
    let requests := [Request.ofColumns "m1" ["c1"], Request.ofColumns "m2" ["c2", "c3"]]
    let data := [
      [[.string "2000-01-01T00:00:00Z", .string "a"],
        [.string "2000-01-01T01:00:00+01:00", .string "b", .string "surplus"]],
      [[.string "1999-12-31T00:00:00.5Z", .string "x", .string "y"],
        [.string "2000-01-01T00:00:00Z", .string "z"]]]
    (requests.length = data.length ∧ ∀ rows ∈ data, ∀ row ∈ rows, (stamp? row).isSome) ∧
      table requests data = .ok [
        [.string "2000-01-01T00:00:00Z", .string "a", .string "z", .null],
        [.string "2000-01-01T00:00:00Z", .string "b", .null, .null],
        [.string "1999-12-31T00:00:00.5Z", .null, .string "x", .string "y"]] := by
  intro requests data
  have stamped : ∀ rows ∈ data, ∀ row ∈ rows, (stamp? row).isSome := by decide +kernel
  refine ⟨⟨rfl, stamped⟩, ?_⟩
  rw [(table_eq_outerJoin requests data rfl stamped).1]
  exact congrArg Except.ok (by decide +kernel)

end SeriesBroker.Table
