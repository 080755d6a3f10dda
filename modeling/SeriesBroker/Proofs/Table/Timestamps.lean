import SeriesBroker.Proofs.Table.Rows
import SeriesBroker.Proofs.Time.Timestamp

/-! # The timestamps of a table

    A row of the table starts with the timestamp of the instant at which its series were joined.
    This timestamp is written in universal time. An offset can move a timestamp that was read
    over the start of year 0 or the end of year 9999, and then the table has a text that is no
    timestamp any more (`table_signedYear`). This is the only way in which a timestamp is lost:
    in every other row the first cell reads back as the instant of the row (`stamp_of_table`).
-/

namespace SeriesBroker.Table

/-- An instant that a row starts with was read from a text. -/
theorem regular_of_stamp? {row : Row} {t : Instant} (h : stamp? row = some t) : t.Regular := by
  cases row with
  | nil => cases h
  | cons cell cells =>
    cases cell with
    | string text => exact Timestamp.regular_of_ofText? h
    | null => cases h
    | bool b => cases h
    | number n => cases h

/-- The instants of a batch were all read from a text. -/
theorem regular_of_mem_instantsOf {data : List (List Row)} {t : Instant}
    (h : t ∈ instantsOf data) : t.Regular := by
  obtain ⟨series, _, row, _, hstamp⟩ := mem_instantsOf.1 h
  exact regular_of_stamp? hstamp

/-- **The timestamp of a row denotes the instant of the row, if that has a year of four digits.**
    Each row of a table is put together from the rows of one number at one instant, and the text
    in its first cell is read as this instant. If the year of the instant has more digits or is
    negative, the text is not accepted at all. -/
theorem stamp_of_table {requests : List Request} {data : List (List Row)} {rows : List Row}
    (h : table requests data = .ok rows) :
    ∀ row ∈ rows, ∃ (t : Instant) (j : Nat) (text : String),
      (∃ series ∈ data, j < (rowsAt t series).length) ∧
        row = outerRow requests data t j ∧ row.head? = some (.string text) ∧
        Timestamp.ofText? text = if t.HasFourDigitYear then some t else none := by
  obtain ⟨-, -, rfl⟩ := table_eq_ok_iff.1 h
  intro row hrow
  obtain ⟨t, ht, hrow⟩ := List.mem_flatMap.1 hrow
  obtain ⟨j, hj, rfl⟩ := mem_outerRows.1 hrow
  exact ⟨t, j, Timestamp.toText t, hj, rfl, rfl,
    Timestamp.ofText?_toText (regular_of_mem_instantsOf ht)⟩

/-- Two rows of one instant, one of them with a leap second after it, and a row whose instant is
    the last hour of the year before year 0. -/
theorem stamp_of_table_leapSecond :
    let requests := [Request.ofColumns "m1" ["c1"], Request.ofColumns "m2" ["c2"]]
    let data := [
      [[.string "2017-01-01T00:59:60.50+01:00", .string "a"],
        [.string "0000-01-01T00:00:00+01:00", .string "b"]],
      [[.string "2016-12-31T23:59:60.5Z", .string "x"]]]
    let rows := [
      [.string "2016-12-31T23:59:60.5Z", .string "a", .string "x"],
      [.string "-0001-12-31T23:00:00Z", .string "b", .null]]
    table requests data = .ok rows ∧
      ∀ row ∈ rows, ∃ (t : Instant) (j : Nat) (text : String),
        (∃ series ∈ data, j < (rowsAt t series).length) ∧
          row = outerRow requests data t j ∧ row.head? = some (.string text) ∧
          Timestamp.ofText? text = if t.HasFourDigitYear then some t else none := by
  intro requests data rows
  have h : table requests data = .ok rows := by
    refine table_eq_ok_iff.2 ⟨rfl, ?_, ?_⟩
    · unfold Stamped
      decide +kernel
    · decide +kernel
  exact ⟨h, stamp_of_table h⟩

/-- A timestamp that is accepted can become one that is not. -/
theorem table_signedYear :
    let requests := [Request.ofColumns "m" ["c"]]
    let data := [[[.string "0000-01-01T00:00:00+01:00", .string "a"]]]
    ∃ rows, table requests data = .ok rows ∧
      ¬ ∀ row ∈ rows, ∃ text t, row.head? = some (.string text) ∧
        Timestamp.ofText? text = some t := by
  intro requests data
  refine ⟨[[.string "-0001-12-31T23:00:00Z", .string "a"]], ?_, ?_⟩
  · refine table_eq_ok_iff.2 ⟨rfl, ?_, ?_⟩
    · unfold Stamped
      decide +kernel
    · decide +kernel
  · intro hall
    obtain ⟨text, t, htext, hread⟩ := hall _ List.mem_cons_self
    have hsigned : text = "-0001-12-31T23:00:00Z" := by
      simpa using htext.symm
    have hnone : Timestamp.ofText? "-0001-12-31T23:00:00Z" = none := by decide +kernel
    rw [hsigned, hnone] at hread
    cases hread

end SeriesBroker.Table
