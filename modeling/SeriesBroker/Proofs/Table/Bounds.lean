import SeriesBroker.Proofs.Steps
import SeriesBroker.Proofs.Table.InPlace
import SeriesBroker.Proofs.Table.Rows

/-! # Every access of the table is in range

    The loops that make a table in place do the same as the join, one for one: a later series
    loses the row that the join takes from it, and the row of the table is filled with the part
    that the join has there. So none of them is stopped by an access, whatever the series are,
    and the rows at the end are those of the table (`drawTable_inRange`).
-/

namespace SeriesBroker.Table

section rows

variable {requests done rest : List Request} {request : Request}
  {parts : List (Option TimedRow)} {d : Draft}

/-- A later series loses its row of the instant, which is added if there is one. The search finds
    a place, and the row is only taken out if there is a row at this place. -/
theorem joinSeries_eq (h : Filled requests done (request :: rest) parts d)
    (other : Array TimedRow) :
    ∃ d', joinSeries requests (layout 1 requests).1 done.length other d =
        .ok (d', (takeAt d.instant other).2) ∧
      d'.instant = d.instant ∧
      Filled requests (done ++ [request]) rest (parts ++ [(takeAt d.instant other).1]) d' := by
  unfold joinSeries takeAt
  dsimp only
  cases hfound : other[partitionPoint (fun row => d.instant.before row.instant) other]? with
  | none => exact ⟨d, rfl, rfl, h.skip⟩
  | some row =>
    dsimp only
    by_cases hrow : row.instant = d.instant
    · -- There is a row at the place, so it can be taken out.
      obtain ⟨d', hadd, hinstant, hfilled⟩ := h.add row
      refine ⟨d', ?_, hinstant, ?_⟩
      · rw [if_pos hrow, if_pos hrow, takeOut, hfound]
        show (d.add requests _ done.length row.cells >>= _) = _
        rw [hadd]
        rfl
      · rw [if_pos hrow]
        exact hfilled
    · rw [if_neg hrow, if_neg hrow]
      exact ⟨d, rfl, rfl, h.skip⟩

/-- All later series lose their rows of the instant, and then the row is complete. -/
theorem joinLater_eq (h : Filled requests done rest parts d) (later : List (Array TimedRow))
    (hlater : rest.length = later.length) :
    ∃ d', joinLater requests (layout 1 requests).1 done.length later d =
        .ok (d', (later.map (takeAt d.instant)).map (·.2)) ∧
      d'.instant = d.instant ∧
      Filled requests requests [] (parts ++ (later.map (takeAt d.instant)).map (·.1)) d' := by
  induction later generalizing done rest parts d with
  | nil =>
    have hrest : rest = [] := List.length_eq_zero_iff.1 hlater
    have hdone : done = requests := by rw [h.whole, hrest, List.append_nil]
    refine ⟨d, rfl, rfl, ?_⟩
    rw [hrest, hdone] at h
    simpa using h
  | cons other others ih =>
    cases rest with
    | nil => simp at hlater
    | cons request rest =>
      obtain ⟨d₁, hseries, hinstant₁, hfilled₁⟩ := joinSeries_eq h other
      obtain ⟨d₂, hothers, hinstant₂, hfilled₂⟩ := ih hfilled₁ (by simpa using hlater)
      rw [hinstant₁] at hothers hinstant₂ hfilled₂
      refine ⟨d₂, ?_, hinstant₂, by simpa using hfilled₂⟩
      rw [List.length_append, List.length_singleton] at hothers
      rw [joinLater, hseries]
      show (joinLater requests _ (done.length + 1) others d₁ >>= _) = _
      rw [hothers]
      rfl

end rows

/-! ### All rows -/

/-- A complete row of the table for joined rows. -/
structure Drawn (requests : List Request) (j : Joined) (d : Draft) : Prop where
  instant : d.instant = j.instant
  filled : Filled requests requests [] j.parts d

/-- Each row of a series becomes a row of the table. -/
theorem drawRows_eq {requests done rest : List Request} {request : Request}
    (hwhole : requests = done ++ request :: rest) (rows : List TimedRow)
    (later : List (Array TimedRow)) (hlater : rest.length = later.length) :
    ∃ drawn : List (Joined × Draft),
      drawRows requests (layout 1 requests).1 (1 + (widths requests).sum) done.length rows later =
        .ok (drawn.map (·.2), (drain rows later).2) ∧
      drawn.map (·.1) = (drain rows later).1.map
        (fun j => ⟨j.instant, List.replicate done.length none ++ j.parts⟩) ∧
      ∀ p ∈ drawn, Drawn requests p.1 p.2 := by
  induction rows generalizing later with
  | nil => exact ⟨[], rfl, rfl, by simp⟩
  | cons row rows ih =>
    -- The blank row gets the cells of this row, then those of the later series, and the rest of
    -- the rows meets the later series without what was taken out of them.
    obtain ⟨d₁, hadd, hinstant₁, hfilled₁⟩ := (filled_blank hwhole row.instant).add row
    obtain ⟨d₂, hjoin, hinstant₂, hfilled₂⟩ := joinLater_eq hfilled₁ later hlater
    have hinstant : d₁.instant = row.instant := hinstant₁
    rw [hinstant] at hjoin hinstant₂ hfilled₂
    obtain ⟨drawn, hrows, hjoined, hdrawn⟩ :=
      ih ((later.map (takeAt row.instant)).map (·.2)) (by simpa using hlater)
    let first : Joined := ⟨row.instant, List.replicate done.length none ++
      some row :: (later.map (takeAt row.instant)).map (·.1)⟩
    refine ⟨(first, d₂) :: drawn, ?_, ?_, ?_⟩
    · rw [List.length_append, List.length_singleton] at hjoin
      rw [drawRows, hadd]
      show (joinLater requests _ (done.length + 1) later d₁ >>= _) = _
      rw [hjoin]
      show (drawRows requests _ _ done.length rows _ >>= _) = _
      rw [hrows]
      rfl
    · rw [List.map_cons, hjoined]
      rfl
    · intro p hp
      rcases List.mem_cons.1 hp with rfl | hp
      · exact ⟨hinstant₂, by simpa [first] using hfilled₂⟩
      · exact hdrawn p hp

/-- Emptying one series after the other gives all joined rows. Those in front are empty by now,
    and the series that comes next is the last one before the cut. -/
theorem drawFrom_eq {requests : List Request} (head rest : List (Array TimedRow))
    (hlength : requests.length = head.length + rest.length) :
    ∃ drawn : List (Joined × Draft),
      drawFrom requests (layout 1 requests).1 (1 + (widths requests).sum) rest.length head.length
        (head ++ rest) = .ok (drawn.map (·.2)) ∧
      drawn.map (·.1) = joinFrom head.length rest ∧
      ∀ p ∈ drawn, Drawn requests p.1 p.2 := by
  generalize hcount : rest.length = count at hlength
  induction count generalizing head rest with
  | zero =>
    have hrest : rest = [] := List.length_eq_zero_iff.1 hcount
    refine ⟨[], rfl, ?_, by simp⟩
    rw [hrest, joinFrom]
    rfl
  | succ count ih =>
    cases rest with
    | nil => simp at hcount
    | cons series later =>
      have hlater : later.length = count := by simpa using hcount
      -- The requests before the series, its own one, and those behind it.
      have hnumber : head.length < requests.length := by omega
      have hdone : (requests.take head.length).length = head.length := by simp; omega
      have hwhole : requests = requests.take head.length ++
          requests[head.length] :: requests.drop (head.length + 1) := by simp
      obtain ⟨drawn, hrows, hjoined, hdrawn⟩ :=
        drawRows_eq hwhole series.toList later (by simp; omega)
      rw [hdone] at hrows hjoined
      have hleft : (drain series.toList later).2.length = count := by
        rw [length_drain, hlater]
      obtain ⟨others, hfrom, hothers, hdrawnOthers⟩ :=
        ih (head ++ [#[]]) (drain series.toList later).2 hleft (by simp; omega)
      have hcut : cut (head ++ series :: later) (head.length + 1) =
          .ok (head ++ [series], later) := by
        have happend := cut_append (head ++ [series]) later
        rwa [List.length_append, List.length_singleton, ← List.append_cons] at happend
      have hfetch : fetch (head ++ [series]) head.length = .ok series := fetch_eq_ok (by simp)
      have hemptied : (head ++ [series]).set head.length #[] = head ++ [#[]] := by simp
      refine ⟨drawn ++ others, ?_, ?_, ?_⟩
      · rw [List.length_append, List.length_singleton] at hfrom
        rw [drawFrom, hcut]
        show (fetch (head ++ [series]) head.length >>= _) = _
        rw [hfetch]
        show (drawRows requests _ _ head.length series.toList later >>= _) = _
        rw [hrows]
        show (drawFrom requests _ _ count (head.length + 1)
          ((head ++ [series]).set head.length #[] ++ (drain series.toList later).2) >>= _) = _
        rw [hemptied, hfrom]
        simp
      · rw [List.map_append, hjoined, hothers, joinFrom]
        simp
      · intro p hp
        rcases List.mem_append.1 hp with hp | hp
        · exact hdrawn p hp
        · exact hdrawnOthers p hp

/-! ### The table -/

/-- With the timestamp in front a complete row is that of the table. -/
theorem Drawn.stamp {requests : List Request} {j : Joined} {d : Draft} (h : Drawn requests j d) :
    d.stamp = .ok { d with cells := j.row (widths requests) } := by
  have hput : put d.cells 0 (.string (Timestamp.toText d.instant)) =
      .ok (j.row (widths requests)) := by
    rw [put, h.filled.cells, h.instant]
    simp [Joined.row, widths]
  rw [Draft.stamp, hput]
  rfl

/-- A row of the table has a timestamp and the blocks of all requests. -/
theorem Drawn.length_row {requests : List Request} {j : Joined} {d : Draft}
    (h : Drawn requests j d) :
    (j.row (widths requests)).length = 1 + (widths requests).sum := by
  have hlength : (widths requests).length = j.parts.length := by
    simpa [widths] using h.filled.length
  rw [Joined.row, List.length_cons, length_flatten_block _ _ hlength, Nat.add_comm]

/-- Sorting and stamping complete rows. -/
theorem mapM_stamp {requests : List Request} {drawn : List (Joined × Draft)}
    (h : ∀ p ∈ drawn, Drawn requests p.1 p.2) :
    ((drawn.map (·.2)).mergeSort Draft.newerOrSame).mapM Draft.stamp =
      .ok ((drawn.mergeSort fun p q => p.1.newerOrSame q.1).map fun p =>
        { p.2 with cells := p.1.row (widths requests) }) := by
  have hsort : (drawn.map (·.2)).mergeSort Draft.newerOrSame =
      (drawn.mergeSort fun p q => p.1.newerOrSame q.1).map (·.2) := by
    refine (List.map_mergeSort fun p hp q hq => ?_).symm
    rw [Joined.newerOrSame, Draft.newerOrSame, (h p hp).instant, (h q hq).instant]
  rw [hsort, List.mapM_map]
  exact mapM_eq_ok fun p hp => (h p (List.mem_mergeSort.1 hp)).stamp

/-- A table of series that are as many as the requests. Its rows are those of the join. -/
theorem drawTable_eq {requests : List Request} {data : List (List Row)}
    {series : List (Array TimedRow)} (hpaired : requests.length = data.length)
    (htimed : timedFrom 0 data = .ok series) :
    ∃ drafts, drawTable requests data = .ok drafts ∧
      drafts.map (·.cells) = (join series).map (Joined.row (widths requests)) ∧
      ∀ d ∈ drafts, d.cells.length = 1 + (widths requests).sum ∧
        ∀ w ∈ d.writes, w.Inside requests := by
  -- No series is lost when the timestamps are read.
  have hseries : series = data.map sortedSeries := by
    have hread := timedFrom_of_stamped (stamped_of_timedFrom htimed) 0
    rw [htimed] at hread
    exact Except.ok.inj hread
  have hlength : requests.length = ([] : List (Array TimedRow)).length + series.length := by
    simp [hseries, hpaired]
  obtain ⟨drawn, hdraw, hjoined, hdrawn⟩ := drawFrom_eq [] series hlength
  refine ⟨(drawn.mergeSort fun p q => p.1.newerOrSame q.1).map fun p =>
    { p.2 with cells := p.1.row (widths requests) }, ?_, ?_, ?_⟩
  · rw [drawTable, if_neg (not_not_intro hpaired), htimed]
    show (drawFrom requests (layout 1 requests).1 (layout 1 requests).2 series.length 0 series >>=
      fun drafts => (drafts.mergeSort Draft.newerOrSame).mapM Draft.stamp) = _
    rw [layout_snd]
    rw [List.length_nil, List.nil_append] at hdraw
    rw [hdraw]
    exact mapM_stamp hdrawn
  · have hsort : join series = (drawn.mergeSort fun p q => p.1.newerOrSame q.1).map (·.1) := by
      have hmap : (drawn.mergeSort fun p q => p.1.newerOrSame q.1).map (·.1) =
          (drawn.map (·.1)).mergeSort Joined.newerOrSame :=
        List.map_mergeSort fun p _ q _ => rfl
      rw [hmap, hjoined]
      rfl
    rw [hsort, List.map_map, List.map_map]
    rfl
  · intro d hd
    obtain ⟨p, hp, rfl⟩ := List.mem_map.1 hd
    have hrow := hdrawn p (List.mem_mergeSort.1 hp)
    exact ⟨hrow.length_row, hrow.filled.inside⟩

/-- **No access is out of range.** If a batch has a table, it can be made in place, each row has a
    cell for the timestamp and one for each column of each request, and every cell that was written
    for a request lies in the block of this request. If it has none, that is found out before
    anything is made. -/
theorem drawTable_inRange (requests : List Request) (data : List (List Row)) :
    (∀ place size, drawTable requests data ≠ .error (.stray place size)) ∧
    match table requests data with
    | .error error => drawTable requests data = .error (.unshaped error)
    | .ok rows => ∃ drafts, drawTable requests data = .ok drafts ∧ drafts.map (·.cells) = rows ∧
        ∀ d ∈ drafts, d.cells.length = 1 + (widths requests).sum ∧
          ∀ w ∈ d.writes, w.Inside requests := by
  by_cases hpaired : requests.length = data.length
  · cases htimed : timedFrom 0 data with
    | error error =>
      have hdraw : drawTable requests data = .error (.unshaped error) := by
        rw [drawTable, if_neg (not_not_intro hpaired), htimed]
      have htable : table requests data = .error error := by
        rw [table, if_neg (not_not_intro hpaired), htimed]
        rfl
      rw [htable]
      exact ⟨by simp [hdraw], hdraw⟩
    | ok series =>
      have htable : table requests data =
          .ok ((join series).map (Joined.row (widths requests))) := by
        rw [table, if_neg (not_not_intro hpaired), htimed]
        rfl
      obtain ⟨drafts, hdraw, hrows⟩ := drawTable_eq hpaired htimed
      rw [htable]
      exact ⟨by simp [hdraw], drafts, hdraw, hrows⟩
  · have hdraw : drawTable requests data =
        .error (.unshaped (.statementCount requests.length data.length)) := by
      rw [drawTable, if_pos hpaired]
    have htable : table requests data =
        .error (.statementCount requests.length data.length) := by
      rw [table, if_pos hpaired]
    rw [htable]
    exact ⟨by simp [hdraw], hdraw⟩

end SeriesBroker.Table
