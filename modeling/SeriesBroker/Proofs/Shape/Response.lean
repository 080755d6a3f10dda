import SeriesBroker.Proofs.Steps
import SeriesBroker.Proofs.Table.Rows
import SeriesBroker.Shape.Table

/-! # Why an answer has no shape

    Three things can keep the results of a batch from being shaped, and they are looked for one
    after the other: the number of results, the number of series of each statement, and in a table
    the timestamps. Each search stops at the first place that is at fault. So the error that is
    reported is determined by the results alone, however many faults they have (`Misshapen`).
-/

namespace SeriesBroker

open Table (stamp?)

/-! ### Series -/

/-- The rows of a statement that has one series, none if it has no series or several. -/
def StatementResult.onlyRows (r : StatementResult) : List Row :=
  match r.series with
  | [series] => series.rows
  | _ => []

theorem statementRows_of_single {r : StatementResult} (h : r.series.length ≤ 1) (n : Nat) :
    statementRows n r = .ok r.onlyRows := by
  unfold statementRows StatementResult.onlyRows
  match hseries : r.series with
  | [] => rfl
  | [series] => rfl
  | first :: second :: rest =>
    rw [hseries, List.length_cons, List.length_cons] at h
    omega

theorem statementRows_of_several {r : StatementResult} (h : 1 < r.series.length) (n : Nat) :
    statementRows n r = .error (.multipleSeries n r.series.length) := by
  unfold statementRows
  match hseries : r.series with
  | [] => simp [hseries] at h
  | [series] => simp [hseries] at h
  | first :: second :: rest => rfl

/-- If no statement has several series, each gives its rows as they are. -/
theorem perQueryFrom_of_single {results : List StatementResult}
    (h : ∀ r ∈ results, r.series.length ≤ 1) (n : Nat) :
    perQueryFrom n results = .ok (results.map StatementResult.onlyRows) := by
  induction results generalizing n with
  | nil => rfl
  | cons r results ih =>
    obtain ⟨hr, hresults⟩ := List.forall_mem_cons.1 h
    rw [perQueryFrom, statementRows_of_single hr, ih hresults]
    rfl

/-- Otherwise the first statement that has several is reported. -/
theorem perQueryFrom_of_several {before after : List StatementResult} {result : StatementResult}
    (hbefore : ∀ r ∈ before, r.series.length ≤ 1) (h : 1 < result.series.length) (n : Nat) :
    perQueryFrom n (before ++ result :: after) =
      .error (.multipleSeries (n + before.length) result.series.length) := by
  induction before generalizing n with
  | nil =>
    rw [List.nil_append, perQueryFrom, statementRows_of_several h]
    rfl
  | cons r before ih =>
    obtain ⟨hr, hrest⟩ := List.forall_mem_cons.1 hbefore
    have hnumber : n + 1 + before.length = n + (r :: before).length := by
      rw [List.length_cons]
      omega
    rw [List.cons_append, perQueryFrom, statementRows_of_single hr, ih hrest, hnumber]
    rfl

/-! ### Timestamps -/

namespace Table

/-- The text that is reported of a row without a timestamp: its first cell, nothing if there is
    none. -/
theorem timedRow_of_unstamped {row : Row} (h : stamp? row = none) (n : Nat) :
    timedRow n row = .error (.invalidTimestamp n (row.head?.elim "" Scalar.display)) := by
  cases row with
  | nil => rfl
  | cons cell cells =>
    cases cell with
    | string text =>
      have htext : Timestamp.ofText? text = none := h
      simp only [timedRow, htext]
      rfl
    | null => rfl
    | bool b => rfl
    | number x => rfl

theorem exists_timedRow {row : Row} (h : (stamp? row).isSome) (n : Nat) :
    ∃ timed, timedRow n row = .ok timed := by
  obtain ⟨t, ht⟩ := Option.isSome_iff_exists.1 h
  exact ⟨_, timedRow_of_stamp ht n⟩

/-- Of a series the first row without a timestamp is reported. The rows are sorted after all of
    them were read, so it is the first one in the order of the store. -/
theorem timedSeries_of_unstamped {earlier later : List Row} {row : Row}
    (hearlier : ∀ r ∈ earlier, (stamp? r).isSome) (hrow : stamp? row = none) (n : Nat) :
    timedSeries n (earlier ++ row :: later) =
      .error (.invalidTimestamp n (row.head?.elim "" Scalar.display)) := by
  have hread : (earlier ++ row :: later).mapM (timedRow n) = .error _ :=
    mapM_eq_error (fun r hr => exists_timedRow (hearlier r hr) n) (timedRow_of_unstamped hrow n)
  rw [timedSeries, hread]
  rfl

/-- Of a batch the first series that has such a row is reported. -/
theorem timedFrom_of_unstamped {before after : List (List Row)} {earlier later : List Row}
    {row : Row} (hbefore : Stamped before) (hearlier : ∀ r ∈ earlier, (stamp? r).isSome)
    (hrow : stamp? row = none) (n : Nat) :
    timedFrom n (before ++ (earlier ++ row :: later) :: after) =
      .error (.invalidTimestamp (n + before.length) (row.head?.elim "" Scalar.display)) := by
  induction before generalizing n with
  | nil =>
    rw [List.nil_append, timedFrom, timedSeries_of_unstamped hearlier hrow]
    rfl
  | cons rows before ih =>
    obtain ⟨hrows, hrest⟩ := List.forall_mem_cons.1 hbefore
    have hseries : timedSeries n rows = .ok (sortedSeries rows) := by
      rw [timedSeries, mapM_timedRow hrows]
      rfl
    have hnumber : n + 1 + before.length = n + (rows :: before).length := by
      rw [List.length_cons]
      omega
    rw [List.cons_append, timedFrom, hseries, ih hrest, hnumber]
    rfl

end Table

/-! ### The order of the faults -/

/-- The fault of results that have no shape. Each kind of fault is only looked for where there is
    none of the kinds before it, and each is reported at the first place that has it. -/
inductive Misshapen (shape : Shape) (requests : List Request) (results : List StatementResult) :
    ShapeError → Prop where
  | count (h : results.length ≠ requests.length) :
    Misshapen shape requests results (.statementCount requests.length results.length)
  | several (hcount : results.length = requests.length) (before : List StatementResult)
    (result : StatementResult) (after : List StatementResult)
    (hresults : results = before ++ result :: after)
    (hbefore : ∀ r ∈ before, r.series.length ≤ 1) (h : 1 < result.series.length) :
    Misshapen shape requests results (.multipleSeries before.length result.series.length)
  /-- The fault is reported with the number of the statement and with the text of the first cell,
      which is empty for a row without cells. -/
  | unstamped (hcount : results.length = requests.length)
    (hsingle : ∀ r ∈ results, r.series.length ≤ 1) (hshape : shape = .table)
    (before : List StatementResult) (result : StatementResult) (after : List StatementResult)
    (hresults : results = before ++ result :: after)
    (hbefore : ∀ r ∈ before, ∀ row ∈ r.onlyRows, (stamp? row).isSome)
    (earlier : List Row) (row : Row) (later : List Row)
    (hrows : result.onlyRows = earlier ++ row :: later)
    (hearlier : ∀ r ∈ earlier, (stamp? r).isSome) (h : stamp? row = none) :
    Misshapen shape requests results
      (.invalidTimestamp before.length (row.head?.elim "" Scalar.display))

/-- Results that have a shape: one per request, with one series at most, and with timestamps where
    they are needed. -/
structure Shapely (shape : Shape) (requests : List Request) (results : List StatementResult) :
    Prop where
  count : results.length = requests.length
  single : ∀ r ∈ results, r.series.length ≤ 1
  stamped : shape = .table → ∀ r ∈ results, ∀ row ∈ r.onlyRows, (stamp? row).isSome

section

variable {shape : Shape} {requests : List Request} {results : List StatementResult}

/-- Results have a shape or one of the faults. -/
theorem shapely_or_misshapen (shape : Shape) (requests : List Request)
    (results : List StatementResult) :
    Shapely shape requests results ∨ ∃ error, Misshapen shape requests results error := by
  by_cases hcount : results.length = requests.length
  · rcases forall_or_first (fun r : StatementResult => r.series.length ≤ 1) results with
      hsingle | ⟨before, result, after, hresults, hbefore, hresult⟩
    · by_cases hshape : shape = .table
      · rcases forall_or_first
            (fun r : StatementResult => ∀ row ∈ r.onlyRows, (stamp? row).isSome) results with
          hstamped | ⟨before, result, after, hresults, hbefore, hresult⟩
        · exact .inl ⟨hcount, hsingle, fun _ => hstamped⟩
        · -- Of the first statement at fault, the first row at fault.
          rcases forall_or_first (fun row : Row => (stamp? row).isSome) result.onlyRows with
            hall | ⟨earlier, row, later, hrows, hearlier, hrow⟩
          · exact absurd hall hresult
          · have hnone : stamp? row = none := by simpa using hrow
            exact .inr ⟨_, .unstamped hcount hsingle hshape before result after hresults hbefore
              earlier row later hrows hearlier hnone⟩
      · exact .inl ⟨hcount, hsingle, fun htable => absurd htable hshape⟩
    · have hseveral : 1 < result.series.length := by omega
      exact .inr ⟨_, .several hcount before result after hresults hbefore hseveral⟩
  · exact .inr ⟨_, .count hcount⟩

theorem shapeResults_of_misshapen {error : ShapeError}
    (h : Misshapen shape requests results error) :
    shapeResults shape requests results = .error error := by
  cases h with
  | count h => exact if_pos h
  | several hcount before result after hresults hbefore h =>
    have hquery : perQuery results =
        .error (.multipleSeries before.length result.series.length) := by
      rw [perQuery, hresults, perQueryFrom_of_several hbefore h, Nat.zero_add]
    rw [shapeResults, if_neg (not_not_intro hcount), hquery]
    rfl
  | unstamped hcount hsingle hshape before result after hresults hbefore earlier row later hrows
      hearlier h =>
    have hquery : perQuery results = .ok (results.map StatementResult.onlyRows) :=
      perQueryFrom_of_single hsingle 0
    have hlength : requests.length = (results.map StatementResult.onlyRows).length := by
      rw [List.length_map, hcount]
    -- The series of the batch are cut at the fault: those before it, the rows before it, the row.
    have hdata : results.map StatementResult.onlyRows =
        before.map StatementResult.onlyRows ++ (earlier ++ row :: later) ::
          after.map StatementResult.onlyRows := by
      rw [hresults, List.map_append, List.map_cons, hrows]
    have hstamped : Table.Stamped (before.map StatementResult.onlyRows) := by
      intro rows hmem
      obtain ⟨r, hr, rfl⟩ := List.mem_map.1 hmem
      exact hbefore r hr
    have htimed : Table.timedFrom 0 (results.map StatementResult.onlyRows) =
        .error (.invalidTimestamp before.length (row.head?.elim "" Scalar.display)) := by
      rw [hdata, Table.timedFrom_of_unstamped hstamped hearlier h, List.length_map, Nat.zero_add]
    have htable : table requests (results.map StatementResult.onlyRows) =
        .error (.invalidTimestamp before.length (row.head?.elim "" Scalar.display)) := by
      rw [table, if_neg (not_not_intro hlength), htimed]
      rfl
    subst hshape
    rw [shapeResults, if_neg (not_not_intro hcount), hquery]
    show (table requests _).map Shaped.table = _
    rw [htable]
    rfl

/-- Results with a shape get it. -/
theorem shapeResults_of_shapely (h : Shapely shape requests results) :
    ∃ shaped, shapeResults shape requests results = .ok shaped := by
  have hquery : perQuery results = .ok (results.map StatementResult.onlyRows) :=
    perQueryFrom_of_single h.single 0
  rw [shapeResults, if_neg (not_not_intro h.count), hquery]
  cases shape with
  | perQuery => exact ⟨_, rfl⟩
  | table =>
    have hlength : requests.length = (results.map StatementResult.onlyRows).length := by
      rw [List.length_map, h.count]
    have hstamped : Table.Stamped (results.map StatementResult.onlyRows) := by
      intro rows hmem
      obtain ⟨r, hr, rfl⟩ := List.mem_map.1 hmem
      exact h.stamped rfl r hr
    have htable := Table.table_eq_ok_iff.2 ⟨hlength, hstamped, rfl⟩
    refine ⟨.table (Table.outerJoin requests (results.map StatementResult.onlyRows)), ?_⟩
    show (table requests _).map Shaped.table = _
    rw [htable]
    rfl

theorem shapeResults_eq_error {error : ShapeError} :
    shapeResults shape requests results = .error error ↔
      Misshapen shape requests results error := by
  constructor
  · intro h
    rcases shapely_or_misshapen shape requests results with hshapely | ⟨error', hmisshapen⟩
    · obtain ⟨shaped, hshaped⟩ := shapeResults_of_shapely hshapely
      rw [hshaped] at h
      cases h
    · -- The results have no second fault that could be reported.
      rw [shapeResults_of_misshapen hmisshapen] at h
      cases h
      exact hmisshapen
  · exact shapeResults_of_misshapen

theorem shapely_iff : Shapely shape requests results ↔
    ¬ ∃ error, Misshapen shape requests results error := by
  constructor
  · intro hshapely hmisshapen
    obtain ⟨error, hmisshapen⟩ := hmisshapen
    obtain ⟨shaped, hshaped⟩ := shapeResults_of_shapely hshapely
    rw [shapeResults_of_misshapen hmisshapen] at hshaped
    cases hshaped
  · intro hnone
    exact (shapely_or_misshapen shape requests results).resolve_right hnone

end

/-- The rows of a statement without several series are those of all its series. -/
theorem mem_onlyRows {r : StatementResult} (h : r.series.length ≤ 1) {row : Row} :
    row ∈ r.onlyRows ↔ ∃ series ∈ r.series, row ∈ series.rows := by
  unfold StatementResult.onlyRows
  match hseries : r.series with
  | [] => simp
  | [series] => simp
  | first :: second :: rest =>
    rw [hseries, List.length_cons, List.length_cons] at h
    omega

/-- **Results have no shape for one of three reasons, and the first of them is reported.** First
    their number is wrong, then a statement has several series, and then, in a table only, a row
    does not start with a timestamp. Request by request, the rows of each statement are given back
    as they are. -/
theorem shapeResults_error_iff_misshapen (shape : Shape) (requests : List Request)
    (results : List StatementResult) :
    ((∃ error, shapeResults shape requests results = .error error) ↔
      results.length ≠ requests.length ∨
      (∃ result ∈ results, 1 < result.series.length) ∨
      (shape = .table ∧ ∃ result ∈ results, ∃ series ∈ result.series, ∃ row ∈ series.rows,
        stamp? row = none)) ∧
    (∀ error, shapeResults shape requests results = .error error ↔
      Misshapen shape requests results error) ∧
    (∀ shaped, shapeResults .perQuery requests results = .ok shaped ↔
      results.length = requests.length ∧ (∀ result ∈ results, result.series.length ≤ 1) ∧
        shaped = .perQuery (results.map StatementResult.onlyRows)) := by
  refine ⟨?_, fun error => shapeResults_eq_error, fun shaped => ?_⟩
  · -- That no fault is found means the same as that the results have a shape.
    simp only [shapeResults_eq_error]
    rw [← not_iff_not, ← shapely_iff]
    constructor
    · intro hshapely hfault
      rcases hfault with hcount | ⟨result, hresult, hseveral⟩ |
        ⟨hshape, result, hresult, series, hseries, row, hrow, hnone⟩
      · exact hcount hshapely.count
      · have := hshapely.single result hresult
        omega
      · have hmem := (mem_onlyRows (hshapely.single result hresult)).2 ⟨series, hseries, hrow⟩
        have hstamp := hshapely.stamped hshape result hresult row hmem
        rw [hnone] at hstamp
        cases hstamp
    · intro hnofault
      have hsingle : ∀ r ∈ results, r.series.length ≤ 1 := by
        intro r hr
        by_contra hseveral
        exact hnofault (.inr (.inl ⟨r, hr, by omega⟩))
      -- The third fault speaks of series, so it takes the second not to be there.
      refine ⟨?_, hsingle, ?_⟩
      · by_contra hcount
        exact hnofault (.inl hcount)
      · intro hshape r hr row hrow
        obtain ⟨series, hseries, hmem⟩ := (mem_onlyRows (hsingle r hr)).1 hrow
        by_contra hnot
        have hnone : stamp? row = none := by simpa using hnot
        exact hnofault (.inr (.inr ⟨hshape, r, hr, series, hseries, row, hmem, hnone⟩))
  · constructor
    · intro h
      rcases shapely_or_misshapen .perQuery requests results with hshapely | ⟨error, hmisshapen⟩
      · refine ⟨hshapely.count, hshapely.single, ?_⟩
        rw [shapeResults, if_neg (not_not_intro hshapely.count), perQuery,
          perQueryFrom_of_single hshapely.single] at h
        exact (Except.ok.inj h).symm
      · rw [shapeResults_of_misshapen hmisshapen] at h
        cases h
    · intro h
      obtain ⟨hcount, hsingle, hshaped⟩ := h
      rw [shapeResults, if_neg (not_not_intro hcount), perQuery, perQueryFrom_of_single hsingle,
        hshaped]
      rfl

/-- Results with two kinds of fault, results with two rows at fault, and results that only have a
    shape request by request. -/
theorem shapeResults_error_iff_misshapen_severalFaults :
    let requests := [Request.ofColumns "m" ["c"], Request.ofColumns "n" ["d"]]
    let sound : Series := ⟨"m", none, ["time"], [[.string "2000-01-01T00:00:00Z"]]⟩
    let faulty : Series :=
      ⟨"m", none, ["time"], [[.string "2000-01-01T00:00:00Z"], [.bool true], []]⟩
    shapeResults .table requests [⟨0, some [faulty], none⟩, ⟨1, some [sound, sound], none⟩] =
      .error (.multipleSeries 1 2) ∧
    shapeResults .table requests [⟨0, some [sound], none⟩, ⟨1, some [faulty], none⟩] =
      .error (.invalidTimestamp 1 "true") ∧
    shapeResults .perQuery requests [⟨0, none, none⟩, ⟨1, some [faulty], none⟩] =
      .ok (.perQuery [[], faulty.rows]) := by
  intro requests sound faulty
  have hstamp : (stamp? [.string "2000-01-01T00:00:00Z"]).isSome := by decide
  obtain ⟨-, hseveral, -⟩ := shapeResults_error_iff_misshapen .table requests
    [⟨0, some [faulty], none⟩, ⟨1, some [sound, sound], none⟩]
  obtain ⟨-, hunstamped, -⟩ := shapeResults_error_iff_misshapen .table requests
    [⟨0, some [sound], none⟩, ⟨1, some [faulty], none⟩]
  obtain ⟨-, -, hshaped⟩ := shapeResults_error_iff_misshapen .perQuery requests
    [⟨0, none, none⟩, ⟨1, some [faulty], none⟩]
  refine ⟨(hseveral _).2 ?_, (hunstamped _).2 ?_, (hshaped _).2 ⟨rfl, ?_, rfl⟩⟩
  · exact .several rfl [⟨0, some [faulty], none⟩] ⟨1, some [sound, sound], none⟩ [] rfl
      (by simp [StatementResult.series]) (by decide)
  · refine .unstamped rfl (by simp [StatementResult.series]) rfl [⟨0, some [sound], none⟩]
      ⟨1, some [faulty], none⟩ [] rfl ?_ [[.string "2000-01-01T00:00:00Z"]] [.bool true] [[]] rfl
      ?_ rfl
    · simpa [StatementResult.onlyRows, StatementResult.series, sound] using hstamp
    · simpa using hstamp
  · simp [StatementResult.series]

end SeriesBroker
