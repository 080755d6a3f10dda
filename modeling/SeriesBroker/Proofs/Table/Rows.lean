import SeriesBroker.Proofs.Steps
import SeriesBroker.Proofs.Table.OuterJoin

/-! # The rows of a table

    There is a table exactly if each request has a series and each row of a series starts with a
    timestamp, and then it is the outer join (`table_eq_ok_iff`). So what is to be said about a
    table can be said about the outer join.

    A row of the outer join belongs to an instant and to a number at that instant. After its
    timestamp it has one block of cells per request, as wide as the request has columns
    (`map_length_outerBlocks`).
-/

namespace SeriesBroker.Table

/-! ### When there is a table -/

/-- Each row of a batch starts with a timestamp. -/
def Stamped (data : List (List Row)) : Prop :=
  ∀ series ∈ data, ∀ row ∈ series, (stamp? row).isSome

/-- A row whose timestamp was read has one. -/
theorem stamp_of_timedRow {statement : Nat} {row : Row} {timed : TimedRow}
    (h : timedRow statement row = .ok timed) : (stamp? row).isSome := by
  cases hstamp : stamp? row with
  | some t => rfl
  | none =>
    cases row with
    | nil => cases h
    | cons cell cells =>
      cases cell with
      | string text =>
        have htext : Timestamp.ofText? text = none := hstamp
        simp only [timedRow, htext] at h
        cases h
      | null => cases h
      | bool b => cases h
      | number n => cases h

/-- A series whose timestamps were read has one in each row. -/
theorem stamp_of_mapM {statement : Nat} {series : List Row} {timed : List TimedRow}
    (h : series.mapM (timedRow statement) = .ok timed) :
    ∀ row ∈ series, (stamp? row).isSome := by
  induction series generalizing timed with
  | nil =>
    intro row hrow
    cases hrow
  | cons first rest ih =>
    rw [List.mapM_cons] at h
    obtain ⟨timedFirst, hfirst, h⟩ := exists_of_bind_eq_ok h
    obtain ⟨timedRest, hrest, -⟩ := exists_of_bind_eq_ok h
    intro row hrow
    rcases List.mem_cons.1 hrow with heq | hrow
    · rw [heq]
      exact stamp_of_timedRow hfirst
    · exact ih hrest row hrow

/-- A batch whose timestamps were read has one in each row. -/
theorem stamped_of_timedFrom {statement : Nat} {data : List (List Row)}
    {timed : List (Array TimedRow)} (h : timedFrom statement data = .ok timed) : Stamped data := by
  induction data generalizing statement timed with
  | nil =>
    intro series hseries
    cases hseries
  | cons first rest ih =>
    unfold timedFrom timedSeries at h
    obtain ⟨sorted, hsorted, h⟩ := exists_of_bind_eq_ok h
    obtain ⟨timedFirst, hfirst, -⟩ := exists_of_bind_eq_ok hsorted
    obtain ⟨timedRest, hrest, -⟩ := exists_of_bind_eq_ok h
    intro series hseries
    rcases List.mem_cons.1 hseries with heq | hseries
    · rw [heq]
      exact stamp_of_mapM hfirst
    · exact ih hrest series hseries

/-- There is a table exactly if there are as many series as requests and each row starts with a
    timestamp. It is the outer join. -/
theorem table_eq_ok_iff {requests : List Request} {data : List (List Row)} {rows : List Row} :
    table requests data = .ok rows ↔
      requests.length = data.length ∧ Stamped data ∧ rows = outerJoin requests data := by
  have houter : Stamped data →
      (timedFrom 0 data >>= fun series =>
        pure ((join series).map (Joined.row (requests.map (·.columns.length))))) =
        .ok (outerJoin requests data) := by
    intro hstamped
    rw [timedFrom_of_stamped hstamped]
    exact congrArg Except.ok (map_row_join requests data)
  unfold table
  by_cases hpaired : requests.length = data.length
  · rw [if_neg (not_not_intro hpaired)]
    constructor
    · intro h
      obtain ⟨timed, htimed, -⟩ := exists_of_bind_eq_ok h
      have hstamped := stamped_of_timedFrom htimed
      rw [houter hstamped] at h
      exact ⟨hpaired, hstamped, (Except.ok.inj h).symm⟩
    · intro h
      rw [houter h.2.1, h.2.2]
  · rw [if_pos hpaired]
    constructor
    · intro h
      cases h
    · intro h
      exact absurd h.1 hpaired

/-! ### Rows and blocks -/

/-- The blocks of cells of the row that is number `j` at an instant. -/
def outerBlocks (requests : List Request) (data : List (List Row)) (t : Instant) (j : Nat) :
    List (List Scalar) :=
  List.zipWith (fun request series => outerBlock request (rowsAt t series)[j]?) requests data

theorem outerRow_eq (requests : List Request) (data : List (List Row)) (t : Instant) (j : Nat) :
    outerRow requests data t j =
      .string (Timestamp.toText t) :: (outerBlocks requests data t j).flatten := rfl

theorem length_outerBlock (request : Request) (row : Option Row) :
    (outerBlock request row).length = request.columns.length := by
  cases row with
  | none => exact List.length_replicate
  | some row =>
    show (List.take _ _ ++ List.replicate _ _).length = _
    rw [List.length_append, List.length_take, List.length_replicate]
    omega

/-- Each block is as wide as its request. -/
theorem map_length_outerBlocks {requests : List Request} {data : List (List Row)}
    (hpaired : requests.length = data.length) (t : Instant) (j : Nat) :
    (outerBlocks requests data t j).map List.length = requests.map (·.columns.length) := by
  unfold outerBlocks
  induction requests generalizing data with
  | nil => rfl
  | cons request requests ih =>
    cases data with
    | nil => simp at hpaired
    | cons series data =>
      rw [List.zipWith_cons_cons, List.map_cons, List.map_cons, length_outerBlock,
        ih (by simpa using hpaired)]

/-- The rows at an instant have the numbers that one of the series reaches. -/
theorem mem_outerRows {requests : List Request} {data : List (List Row)} {t : Instant} {row : Row} :
    row ∈ outerRows requests data t ↔
      ∃ j, (∃ series ∈ data, j < (rowsAt t series).length) ∧ row = outerRow requests data t j := by
  have hdepth : ∀ {j : Nat} {gs : List (List Row)}, j < depth gs ↔ ∃ g ∈ gs, j < g.length := by
    intro j gs
    induction gs with
    | nil => simp [depth]
    | cons g gs ih =>
      rw [depth_cons, List.exists_mem_cons_iff, ← ih]
      omega
  unfold outerRows
  simp only [List.mem_map, List.mem_range, hdepth, exists_exists_and_eq_and]
  constructor
  · intro h
    obtain ⟨j, hj, hrow⟩ := h
    exact ⟨j, hj, hrow.symm⟩
  · intro h
    obtain ⟨j, hj, hrow⟩ := h
    exact ⟨j, hj, hrow.symm⟩

/-! ### Instants in order -/

theorem nodup_of_descending {ts : List Instant} (hts : Descending ts) : ts.Nodup := by
  apply hts.imp
  intro a b hba heq
  rw [heq] at hba
  exact Instant.not_before_self b hba

/-- Instants in strictly descending order are known by which ones they are. -/
theorem descending_ext {ts us : List Instant} (hts : Descending ts) (hus : Descending us)
    (h : ∀ t, t ∈ ts ↔ t ∈ us) : ts = us := by
  have hperm : ts.Perm us :=
    (List.perm_ext_iff_of_nodup (nodup_of_descending hts) (nodup_of_descending hus)).2 h
  apply List.Perm.eq_of_pairwise _ hts hus hperm
  intro a b _ _ hba hab
  exact absurd hab (Instant.before_asymm hba)

end SeriesBroker.Table
