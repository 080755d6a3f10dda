import Mathlib.Data.List.Forall2
import Mathlib.Data.List.SplitLengths
import SeriesBroker.Proofs.Table.Rows

/-! # The table of a rearranged batch

    The join goes through the series one after the other and takes rows out of the later ones, so
    it looks as if the order of the series mattered. It does not, and neither does the order in
    which a series has its rows, as long as rows of one instant keep theirs. If the requests are
    put into another order, with their series, then each row of the table has its blocks of cells
    in that order and nothing else changes (`table_rearranged`).

    Key idea: the table is known from the groups of rows at each instant. New orders for the rows
    leave every group as it is (`rowsAt_arrange`), and a new order for the series is one for the
    groups (`map_rowsAt_rearranged`).

    A new order is a list of places: the element at the first of them comes first, and so on.
-/

namespace SeriesBroker.Table

/-! ### Lists in another order -/

section arrange

variable {α β γ : Type}

/-- The elements at the given places, in the order of the places. -/
def arrange (places : List Nat) (l : List α) : List α := places.filterMap fun i => l[i]?

theorem arrange_cons (i : Nat) (places : List Nat) (l : List α) :
    arrange (i :: places) l = l[i]?.toList ++ arrange places l := by
  unfold arrange
  cases h : l[i]? with
  | none => rw [List.filterMap_cons_none h]; rfl
  | some a => rw [List.filterMap_cons_some h]; rfl

/-- The order of the list itself. -/
theorem arrange_range (l : List α) : arrange (List.range l.length) l = l := by
  induction l with
  | nil => rfl
  | cons a l ih =>
    have hshift : arrange ((List.range l.length).map Nat.succ) (a :: l) =
        arrange (List.range l.length) l := by
      unfold arrange
      rw [List.filterMap_map]
      rfl
    rw [List.length_cons, List.range_succ_eq_map, arrange_cons, hshift, ih]
    rfl

/-- Every element has exactly one place in the new order. -/
theorem arrange_perm {places : List Nat} {l : List α}
    (h : places.Perm (List.range l.length)) : (arrange places l).Perm l := by
  have hperm : (arrange places l).Perm (arrange (List.range l.length) l) := h.filterMap _
  rwa [arrange_range] at hperm

theorem map_arrange (f : α → β) (places : List Nat) (l : List α) :
    (arrange places l).map f = arrange places (l.map f) := by
  unfold arrange
  rw [List.map_filterMap]
  congr 1
  funext i
  rw [List.getElem?_map]

/-- Two lists side by side get the same new order. -/
theorem arrange_zipWith (f : α → β → γ) (places : List Nat) {l : List α} {m : List β}
    (hlength : l.length = m.length) :
    arrange places (List.zipWith f l m) = List.zipWith f (arrange places l) (arrange places m) := by
  induction places with
  | nil => rfl
  | cons i places ih =>
    rw [arrange_cons, arrange_cons, arrange_cons, ih, List.getElem?_zipWith]
    by_cases hi : i < l.length
    · rw [List.getElem?_eq_getElem hi, List.getElem?_eq_getElem (hlength ▸ hi)]
      rfl
    · rw [List.getElem?_eq_none (by omega), List.getElem?_eq_none (by omega)]
      rfl

/-- Blocks are found again by their lengths. -/
theorem splitLengths_flatten (blocks : List (List α)) :
    (blocks.map List.length).splitLengths blocks.flatten = blocks := by
  induction blocks with
  | nil => rfl
  | cons block blocks ih =>
    rw [List.map_cons, List.flatten_cons, List.splitLengths_cons, List.take_left, List.drop_left,
      ih]

end arrange

/-! ### Rows in another order -/

/-- A new order for the rows of a series, in which rows of one instant keep theirs. -/
structure KeepsInstants (series : List Row) (order : List Nat) : Prop where
  perm : order.Perm (List.range series.length)
  stable : order.Pairwise fun a b =>
    series[a]?.bind stamp? = series[b]?.bind stamp? → a < b

/-- The rows at an instant are the rows at the places that have the instant. -/
theorem rowsAt_arrange_eq (t : Instant) (places : List Nat) (series : List Row) :
    rowsAt t (arrange places series) =
      arrange (places.filter fun i => series[i]?.bind stamp? = some t) series := by
  induction places with
  | nil => rfl
  | cons i places ih =>
    have hsplit : rowsAt t (arrange (i :: places) series) =
        rowsAt t series[i]?.toList ++ rowsAt t (arrange places series) := by
      unfold rowsAt
      rw [arrange_cons, List.filter_append]
    rw [hsplit, ih]
    cases hrow : series[i]? with
    | none =>
      rw [List.filter_cons_of_neg (by simp [hrow])]
      rfl
    | some row =>
      by_cases hstamp : stamp? row = some t
      · rw [List.filter_cons_of_pos (by simp [hrow, hstamp]), arrange_cons, hrow]
        congr 1
        exact List.filter_cons_of_pos (by simpa using hstamp)
      · rw [List.filter_cons_of_neg (by simp [hrow, hstamp])]
        have hnone : rowsAt t (some row).toList = [] :=
          List.filter_cons_of_neg (by simpa using hstamp)
        rw [hnone, List.nil_append]

/-- A new order that keeps the order at each instant does not change the rows at an instant. -/
theorem rowsAt_arrange {series : List Row} {order : List Nat} (h : KeepsInstants series order)
    (t : Instant) : rowsAt t (arrange order series) = rowsAt t series := by
  have hother : rowsAt t (arrange (List.range series.length) series) = rowsAt t series := by
    rw [arrange_range]
  rw [rowsAt_arrange_eq] at hother ⊢
  rw [← hother]
  -- The places of the instant are ascending in both orders.
  have hplaces : order.filter (fun i => series[i]?.bind stamp? = some t) =
      (List.range series.length).filter fun i => series[i]?.bind stamp? = some t := by
    apply List.Perm.eq_of_pairwise _ _ _ (h.perm.filter _)
    · exact (· < ·)
    · intro a b _ _ hab hba
      omega
    · apply List.pairwise_filter.2
      apply h.stable.imp
      intro a b hstable ha hb
      apply hstable
      simp only [decide_eq_true_eq] at ha hb
      rw [ha, hb]
    · exact List.pairwise_lt_range.filter _
  rw [hplaces]

/-! ### Batches in another order -/

/-- The series of a batch with their rows in new orders, and then in a new order themselves. -/
def rearranged (places : List Nat) (orders : List (List Nat)) (data : List (List Row)) :
    List (List Row) :=
  arrange places (List.zipWith arrange orders data)

/-- A row of a table with its blocks of cells in a new order. -/
def arrangeBlocks (widths places : List Nat) (row : Row) : Row :=
  row.take 1 ++ (arrange places (widths.splitLengths (row.drop 1))).flatten

section batch

variable {requests : List Request} {data : List (List Row)} {places : List Nat}
  {orders : List (List Nat)}

theorem length_rearranged (hplaces : places.Perm (List.range data.length))
    (horders : List.Forall₂ KeepsInstants data orders) :
    (rearranged places orders data).length = data.length := by
  have hlength : (List.zipWith arrange orders data).length = data.length := by
    rw [List.length_zipWith, ← horders.length_eq, Nat.min_self]
  unfold rearranged
  rw [(arrange_perm (hlength ▸ hplaces)).length_eq, hlength]

/-- Each series has its rows in a new order. -/
theorem exists_of_mem_rearranged (horders : List.Forall₂ KeepsInstants data orders)
    {series : List Row} (h : series ∈ rearranged places orders data) :
    ∃ old ∈ data, series.Perm old := by
  obtain ⟨i, _, hi⟩ := List.mem_filterMap.1 h
  have hmem := List.mem_of_getElem? hi
  clear h hi
  induction horders with
  | nil => simp at hmem
  | cons hkeeps _ ih =>
    rw [List.zipWith_cons_cons] at hmem
    rcases List.mem_cons.1 hmem with hfirst | hrest
    · exact ⟨_, List.mem_cons_self, hfirst ▸ arrange_perm hkeeps.perm⟩
    · obtain ⟨old, hold, hperm⟩ := ih hrest
      exact ⟨old, List.mem_cons_of_mem _ hold, hperm⟩

/-- The groups of rows at an instant get the new order of their series. -/
theorem map_rowsAt_rearranged (horders : List.Forall₂ KeepsInstants data orders) (t : Instant) :
    (rearranged places orders data).map (rowsAt t) = arrange places (data.map (rowsAt t)) := by
  unfold rearranged
  rw [map_arrange]
  congr 1
  induction horders with
  | nil => rfl
  | cons hkeeps _ ih =>
    rw [List.zipWith_cons_cons, List.map_cons, List.map_cons, rowsAt_arrange hkeeps, ih]

/-- A batch has an instant if one of its groups is not empty. -/
theorem mem_instantsOf_iff_groups {t : Instant} :
    t ∈ instantsOf data ↔ ∃ g ∈ data.map (rowsAt t), g ≠ [] := by
  rw [mem_instantsOf]
  constructor
  · intro h
    obtain ⟨series, hseries, row, hrow, hstamp⟩ := h
    refine ⟨rowsAt t series, List.mem_map.2 ⟨series, hseries, rfl⟩, ?_⟩
    apply List.ne_nil_of_mem
    exact List.mem_filter.2 ⟨hrow, by simpa using hstamp⟩
  · intro h
    obtain ⟨g, hg, hne⟩ := h
    obtain ⟨series, hseries, heq⟩ := List.mem_map.1 hg
    obtain ⟨row, hrow⟩ := List.exists_mem_of_ne_nil g hne
    rw [← heq] at hrow
    have hat := List.mem_filter.1 hrow
    exact ⟨series, hseries, row, hat.1, by simpa using hat.2⟩

theorem depth_perm {α : Type} {gs hs : List (List α)} (h : gs.Perm hs) : depth gs = depth hs :=
  (h.map List.length).foldr_eq' (fun a _ b _ c => Nat.max_left_comm b a c) 0

/-- The blocks of a row are taken from the groups at its instant. -/
theorem outerBlocks_eq_groups (t : Instant) (j : Nat) :
    outerBlocks requests data t j =
      List.zipWith (fun request g => outerBlock request g[j]?) requests
        (data.map (rowsAt t)) := by
  rw [List.zipWith_map_right]
  rfl

theorem arrangeBlocks_outerRow (hpaired : requests.length = data.length) (t : Instant) (j : Nat) :
    arrangeBlocks (requests.map (·.columns.length)) places (outerRow requests data t j) =
      .string (Timestamp.toText t) :: (arrange places (outerBlocks requests data t j)).flatten := by
  have hblocks : (requests.map (·.columns.length)).splitLengths
      (outerBlocks requests data t j).flatten = outerBlocks requests data t j := by
    rw [← map_length_outerBlocks hpaired t j]
    exact splitLengths_flatten _
  unfold arrangeBlocks
  rw [outerRow_eq, List.take_succ_cons, List.take_zero, List.drop_succ_cons, List.drop_zero,
    hblocks]
  rfl

variable (hplaces : places.Perm (List.range requests.length))
  (hpaired : requests.length = data.length)
  (horders : List.Forall₂ KeepsInstants data orders)

include hplaces hpaired horders

theorem groups_rearranged_perm (t : Instant) :
    ((rearranged places orders data).map (rowsAt t)).Perm (data.map (rowsAt t)) := by
  rw [map_rowsAt_rearranged horders]
  apply arrange_perm
  rwa [List.length_map, ← hpaired]

/-- A rearranged batch has the same instants. -/
theorem instantsOf_rearranged : instantsOf (rearranged places orders data) = instantsOf data := by
  apply descending_ext (descending_instantsOf _) (descending_instantsOf data)
  intro t
  rw [mem_instantsOf_iff_groups, mem_instantsOf_iff_groups]
  have hperm := groups_rearranged_perm hplaces hpaired horders t
  constructor
  · intro h
    obtain ⟨g, hg, hne⟩ := h
    exact ⟨g, hperm.mem_iff.1 hg, hne⟩
  · intro h
    obtain ⟨g, hg, hne⟩ := h
    exact ⟨g, hperm.mem_iff.2 hg, hne⟩

omit hplaces in
/-- A row of the rearranged batch has the blocks of the old row in the new order. -/
theorem outerRow_rearranged (t : Instant) (j : Nat) :
    outerRow (arrange places requests) (rearranged places orders data) t j =
      arrangeBlocks (requests.map (·.columns.length)) places (outerRow requests data t j) := by
  rw [arrangeBlocks_outerRow hpaired, outerRow_eq, outerBlocks_eq_groups, outerBlocks_eq_groups,
    map_rowsAt_rearranged horders, arrange_zipWith]
  rw [List.length_map, hpaired]

/-- The rows of the rearranged batch at an instant. -/
theorem outerRows_rearranged (t : Instant) :
    outerRows (arrange places requests) (rearranged places orders data) t =
      (outerRows requests data t).map
        (arrangeBlocks (requests.map (·.columns.length)) places) := by
  unfold outerRows
  rw [depth_perm (groups_rearranged_perm hplaces hpaired horders t), List.map_map]
  apply List.map_congr_left
  intro j _
  exact outerRow_rearranged hpaired horders t j

end batch

/-- **The table does not depend on the order in which data arrives.** Let a batch have a table. If
    its requests and their series are put into another order, and the rows of each series into an
    order in which rows of one instant keep theirs, then there is a table again. It has the same
    rows in the same order, with the same timestamps, and only the blocks of cells within them
    are in the order of the requests. -/
theorem table_rearranged {requests : List Request} {data : List (List Row)} {rows : List Row}
    (h : table requests data = .ok rows) {places : List Nat}
    (hplaces : places.Perm (List.range requests.length)) {orders : List (List Nat)}
    (horders : List.Forall₂ KeepsInstants data orders) :
    table (arrange places requests) (rearranged places orders data) =
      .ok (rows.map (arrangeBlocks (requests.map (·.columns.length)) places)) := by
  obtain ⟨hpaired, hstamped, hrows⟩ := table_eq_ok_iff.1 h
  -- Both tables are outer joins, so nothing is to be said about how they were put together.
  refine table_eq_ok_iff.2 ⟨?_, ?_, ?_⟩
  · rw [(arrange_perm hplaces).length_eq, length_rearranged (hpaired ▸ hplaces) horders, hpaired]
  · intro series hseries row hrow
    obtain ⟨old, hold, hperm⟩ := exists_of_mem_rearranged horders hseries
    exact hstamped old hold row (hperm.mem_iff.1 hrow)
  · rw [hrows, outerJoin, outerJoin, List.map_flatMap,
      instantsOf_rearranged hplaces hpaired horders]
    apply List.flatMap_congr
    intro t _
    exact (outerRows_rearranged hplaces hpaired horders t).symm

/-- Three requests of different widths change their places, and so do the rows of a series that
    has two of them at one instant. -/
theorem table_rearranged_repeated :
    let requests := [Request.ofColumns "m1" ["c1"], Request.ofColumns "m2" ["c2", "c3"],
      Request.ofColumns "m3" []]
    let data := [
      [[.string "2000-01-01T00:00:00Z", .string "a"]],
      [[.string "2000-01-01T00:00:00Z", .string "x", .string "y"],
        [.string "1999-12-31T00:00:00Z", .string "old"],
        [.string "2000-01-01T01:00:00+01:00", .string "z"]],
      []]
    let rows := [
      [.string "2000-01-01T00:00:00Z", .string "a", .string "x", .string "y"],
      [.string "2000-01-01T00:00:00Z", .null, .string "z", .null],
      [.string "1999-12-31T00:00:00Z", .null, .string "old", .null]]
    let places := [1, 2, 0]
    let orders := [[0], [1, 0, 2], []]
    (table requests data = .ok rows ∧ places.Perm (List.range requests.length) ∧
        List.Forall₂ KeepsInstants data orders) ∧
      table [Request.ofColumns "m2" ["c2", "c3"], Request.ofColumns "m3" [],
          Request.ofColumns "m1" ["c1"]]
        [[[.string "1999-12-31T00:00:00Z", .string "old"],
            [.string "2000-01-01T00:00:00Z", .string "x", .string "y"],
            [.string "2000-01-01T01:00:00+01:00", .string "z"]],
          [],
          [[.string "2000-01-01T00:00:00Z", .string "a"]]] =
        .ok [
          [.string "2000-01-01T00:00:00Z", .string "x", .string "y", .string "a"],
          [.string "2000-01-01T00:00:00Z", .string "z", .null, .null],
          [.string "1999-12-31T00:00:00Z", .string "old", .null, .null]] := by
  intro requests data rows places orders
  have h : table requests data = .ok rows := by
    refine table_eq_ok_iff.2 ⟨rfl, ?_, ?_⟩
    · unfold Stamped
      decide +kernel
    · decide +kernel
  have hplaces : places.Perm (List.range requests.length) := by decide
  have horders : List.Forall₂ KeepsInstants data orders :=
    .cons ⟨by decide, by decide +kernel⟩ <| .cons ⟨by decide, by decide +kernel⟩ <|
      .cons ⟨by decide, by decide +kernel⟩ .nil
  refine ⟨⟨h, hplaces, horders⟩, ?_⟩
  exact table_rearranged h hplaces horders

end SeriesBroker.Table
