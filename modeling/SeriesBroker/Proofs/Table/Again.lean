import Mathlib.Algebra.Ring.Nat
import SeriesBroker.Proofs.Table.Timestamps

/-! # The table of a table

    A table is itself a series: its rows start with timestamps, and everything after them can be
    taken for the cells of one request that is as wide as all requests together. The table of this
    series is the same table (`table_again`).

    Key idea: a row of the table reads back as the instant it was written for, so the table has
    at every instant exactly the rows that were written for it, in the same order
    (`rowsAt_outerJoin`), and no instant that the batch did not have (`instantsOf_outerJoin`).
    With one series there is nothing to join, and no row is cut or filled up.
-/

namespace SeriesBroker.Table

variable {requests : List Request} {data : List (List Row)}

/-! ### The table as a series -/

/-- All instants of a batch have a year of four digits. -/
def FourDigitYears (data : List (List Row)) : Prop :=
  ∀ series ∈ data, ∀ row ∈ series, ∀ t ∈ stamp? row, t.HasFourDigitYear

/-- The rows that are written for an instant of such a batch start with it. -/
theorem stamp?_of_mem_outerRows (hyears : FourDigitYears data) {t : Instant}
    (ht : t ∈ instantsOf data) {row : Row} (hrow : row ∈ outerRows requests data t) :
    stamp? row = some t := by
  obtain ⟨j, -, hj⟩ := mem_outerRows.1 hrow
  obtain ⟨series, hseries, source, hsource, hstamp⟩ := mem_instantsOf.1 ht
  have hyear : t.HasFourDigitYear := hyears series hseries source hsource t hstamp
  rw [hj]
  show Timestamp.ofText? (Timestamp.toText t) = some t
  rw [Timestamp.ofText?_toText (regular_of_mem_instantsOf ht), if_pos hyear]

/-- The rows at an instant, if a series is written instant by instant. -/
theorem rowsAt_flatMap {ts : List Instant} (hts : Descending ts) {written : Instant → List Row}
    (hwritten : ∀ t ∈ ts, ∀ row ∈ written t, stamp? row = some t) {t : Instant} (ht : t ∈ ts) :
    rowsAt t (ts.flatMap written) = written t := by
  have hhere : rowsAt t (written t) = written t := by
    apply List.filter_eq_self.2
    intro row hrow
    simpa using hwritten t ht row hrow
  have hnone : ∀ us : List Instant, (∀ u ∈ us, u ∈ ts) → t ∉ us →
      rowsAt t (us.flatMap written) = [] := by
    intro us hus hnot
    apply List.filter_eq_nil_iff.2
    intro row hrow
    obtain ⟨u, hu, hat⟩ := List.mem_flatMap.1 hrow
    have hne : u ≠ t := fun heq => hnot (heq ▸ hu)
    simpa [hwritten u (hus u hu) row hat] using hne
  -- The instant stands at one place only, and nothing is written for it at the others.
  obtain ⟨newer, older, hsplit⟩ := List.append_of_mem ht
  have hnodup := nodup_of_descending hts
  rw [hsplit] at hnodup
  have hnewer : t ∉ newer := by
    intro hin
    exact (List.nodup_append.1 hnodup).2.2 t hin t List.mem_cons_self rfl
  have holder : t ∉ older := (List.nodup_cons.1 (List.nodup_append.1 hnodup).2.1).1
  have hfirst := hnone newer (by intro u hu; simp [hsplit, hu]) hnewer
  have hlast := hnone older (by intro u hu; simp [hsplit, hu]) holder
  unfold rowsAt at hfirst hlast hhere ⊢
  rw [hsplit, List.flatMap_append, List.flatMap_cons, List.filter_append, List.filter_append,
    hfirst, hhere, hlast, List.nil_append, List.append_nil]

/-- At an instant of the batch the table has the rows that were written for it. -/
theorem rowsAt_outerJoin (hyears : FourDigitYears data) {t : Instant} (ht : t ∈ instantsOf data) :
    rowsAt t (outerJoin requests data) = outerRows requests data t := by
  unfold outerJoin
  apply rowsAt_flatMap (descending_instantsOf data) _ ht
  intro u hu row hrow
  exact stamp?_of_mem_outerRows hyears hu hrow

/-- Each row of the table starts with a timestamp. -/
theorem stamped_outerJoin (hyears : FourDigitYears data) :
    Stamped [outerJoin requests data] := by
  intro series hseries row hrow
  rw [List.mem_singleton.1 hseries] at hrow
  obtain ⟨t, ht, hat⟩ := List.mem_flatMap.1 hrow
  rw [stamp?_of_mem_outerRows hyears ht hat]
  rfl

/-- The table has the instants of the batch. -/
theorem instantsOf_outerJoin (hyears : FourDigitYears data) :
    instantsOf [outerJoin requests data] = instantsOf data := by
  apply descending_ext (descending_instantsOf _) (descending_instantsOf data)
  intro t
  rw [mem_instantsOf]
  constructor
  · intro h
    obtain ⟨series, hseries, row, hrow, hstamp⟩ := h
    rw [List.mem_singleton.1 hseries] at hrow
    obtain ⟨u, hu, hat⟩ := List.mem_flatMap.1 hrow
    rw [stamp?_of_mem_outerRows hyears hu hat] at hstamp
    rwa [← Option.some.inj hstamp]
  · intro h
    -- One of the series has a row at the instant, so there is a row with number 0.
    obtain ⟨series, hseries, source, hsource, hstamp⟩ := mem_instantsOf.1 h
    have hat : source ∈ rowsAt t series :=
      List.mem_filter.2 ⟨hsource, by simpa using hstamp⟩
    have hfirst : outerRow requests data t 0 ∈ outerRows requests data t :=
      mem_outerRows.2 ⟨0, ⟨series, hseries, List.length_pos_of_mem hat⟩, rfl⟩
    refine ⟨outerJoin requests data, List.mem_singleton_self _, _, ?_,
      stamp?_of_mem_outerRows hyears h hfirst⟩
    exact List.mem_flatMap.2 ⟨t, h, hfirst⟩

/-! ### The table of the series -/

/-- Cells that have the width already stay as they are. -/
theorem fitted_eq_self {width : Nat} {cells : List Scalar} (h : cells.length = width) :
    fitted width cells = cells := by
  unfold fitted
  rw [List.take_of_length_le (by omega), h, Nat.sub_self, List.replicate_zero, List.append_nil]

/-- The rows of one series that has the width of its request, at an instant at which all its rows
    have the same timestamp. -/
theorem outerRows_singleton {wide : Request} {series : List Row} {t : Instant}
    (hwidth : ∀ row ∈ rowsAt t series, ∃ cells, cells.length = wide.columns.length ∧
      row = .string (Timestamp.toText t) :: cells) :
    outerRows [wide] [series] t = rowsAt t series := by
  have hdepth : depth ([series].map (rowsAt t)) = (rowsAt t series).length :=
    Nat.max_eq_left (Nat.zero_le _)
  unfold outerRows
  rw [hdepth]
  apply List.ext_getElem
  · rw [List.length_map, List.length_range]
  · intro j hj hj'
    obtain ⟨cells, hcells, hrow⟩ := hwidth _ (List.getElem_mem hj')
    rw [List.getElem_map, List.getElem_range, hrow, outerRow_eq]
    congr 1
    show (outerBlock wide (rowsAt t series)[j]? ++ []) = cells
    rw [List.append_nil, List.getElem?_eq_getElem hj', hrow]
    exact fitted_eq_self hcells

/-- All blocks of a row together are as wide as all requests together. -/
theorem length_flatten_outerBlocks (hpaired : requests.length = data.length) (t : Instant)
    (j : Nat) : (outerBlocks requests data t j).flatten.length =
      (requests.map (·.columns.length)).sum := by
  rw [List.length_flatten, map_length_outerBlocks hpaired]

/-- **The table of a table is the same table.** If no instant is outside of the years 0 to 9999,
    then a request that is as wide as all requests of the batch together gets the table back that
    it is given as its only series. -/
theorem table_again {rows : List Row} (h : table requests data = .ok rows)
    (hyears : FourDigitYears data) {wide : Request}
    (hwide : wide.columns.length = (requests.map (·.columns.length)).sum) :
    table [wide] [rows] = .ok rows := by
  obtain ⟨hpaired, -, hrows⟩ := table_eq_ok_iff.1 h
  subst hrows
  refine table_eq_ok_iff.2 ⟨rfl, stamped_outerJoin hyears, ?_⟩
  -- Instant by instant, both tables have the same rows.
  show outerJoin requests data =
    (instantsOf [outerJoin requests data]).flatMap (outerRows [wide] [outerJoin requests data])
  rw [instantsOf_outerJoin hyears]
  apply List.flatMap_congr
  intro t ht
  rw [outerRows_singleton, rowsAt_outerJoin hyears ht]
  intro row hrow
  rw [rowsAt_outerJoin hyears ht] at hrow
  obtain ⟨j, -, hj⟩ := mem_outerRows.1 hrow
  refine ⟨(outerBlocks requests data t j).flatten, ?_, hj⟩
  rw [length_flatten_outerBlocks hpaired, hwide]

/-- A table of two requests with a leap second, a row that was filled up and two rows of one
    instant. -/
theorem table_again_leapSecond :
    let requests := [Request.ofColumns "m1" ["c1"], Request.ofColumns "m2" ["c2", "c3"]]
    let data := [
      [[.string "2017-01-01T00:59:60.50+01:00", .string "a"]],
      [[.string "0000-02-29t00:00:00z", .string "y"],
        [.string "2016-12-31 23:59:60.5Z", .string "x"],
        [.string "2016-12-31 23:59:60.5Z", .string "z", .null, .string "surplus"]]]
    let rows := [
      [.string "2016-12-31T23:59:60.5Z", .string "a", .string "x", .null],
      [.string "2016-12-31T23:59:60.5Z", .null, .string "z", .null],
      [.string "0000-02-29T00:00:00Z", .null, .string "y", .null]]
    let wide := Request.ofColumns "all" ["c1", "c2", "c3"]
    (table requests data = .ok rows ∧ FourDigitYears data ∧
        wide.columns.length = (requests.map (·.columns.length)).sum) ∧
      table [wide] [rows] = .ok rows := by
  intro requests data rows wide
  have h : table requests data = .ok rows := by
    refine table_eq_ok_iff.2 ⟨rfl, ?_, ?_⟩
    · unfold Stamped
      decide +kernel
    · decide +kernel
  have hyears : FourDigitYears data := by
    unfold FourDigitYears
    decide +kernel
  have hwide : wide.columns.length = (requests.map (·.columns.length)).sum := by decide
  exact ⟨⟨h, hyears, hwide⟩, table_again h hyears hwide⟩

end SeriesBroker.Table
