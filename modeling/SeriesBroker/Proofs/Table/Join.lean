import SeriesBroker.Proofs.Table.Search

/-! # The join, instant by instant

    The join empties one series after the other and takes matching rows out of the later ones.
    Looked at from a single instant this is simple. Every series has a list of rows at the
    instant, its group, and the joined rows at the instant are the levels of these groups: the
    first rows of all groups, then the second rows, and so on until the longest group ends
    (`atInstant_joinFrom`). No row is lost, used twice or joined with a row of another number.

    Key idea: draining a series with `k` rows at an instant drops the first `k` rows from the
    group of each later series (`groups_drain`) and keeps all series sorted (`sorted_drain`), so
    the next series goes on with level number `k`.
-/

namespace SeriesBroker.Table

/-! ### Levels -/

section levels

variable {α : Type}

/-- The elements with number `j` of several lists, nothing for a list that is too short. -/
def level (groups : List (List α)) (j : Nat) : List (Option α) := groups.map (·[j]?)

/-- The length of the longest list. -/
def depth (groups : List (List α)) : Nat := (groups.map List.length).foldr max 0

/-- All levels of several lists. -/
def levels (groups : List (List α)) : List (List (Option α)) :=
  (List.range (depth groups)).map (level groups)

theorem depth_cons (g : List α) (gs : List (List α)) :
    depth (g :: gs) = max g.length (depth gs) := rfl

/-- Empty lists have no levels. -/
theorem depth_eq_zero {groups : List (List α)} (h : ∀ g ∈ groups, g = []) :
    depth groups = 0 := by
  induction groups with
  | nil => rfl
  | cons g gs ih =>
    rw [depth_cons, h g List.mem_cons_self, ih fun g' hg' => h g' (List.mem_cons_of_mem g hg')]
    rfl

theorem level_map_drop (groups : List (List α)) (k j : Nat) :
    level (groups.map (List.drop k)) j = level groups (k + j) := by
  simp [level]

theorem depth_map_drop (groups : List (List α)) (k : Nat) :
    depth (groups.map (List.drop k)) = depth groups - k := by
  induction groups with
  | nil => simp [depth]
  | cons g gs ih =>
    rw [List.map_cons, depth_cons, depth_cons, ih, List.length_drop]
    omega

/-- The levels of a list and others: as long as the list lasts its elements stand in front, and
    then come the levels of what the others have left. -/
theorem levels_cons (g : List α) (gs : List (List α)) :
    levels (g :: gs) =
      (List.range g.length).map (fun j => g[j]? :: level gs j) ++
        (levels (gs.map (List.drop g.length))).map (none :: ·) := by
  have hdepth : depth (g :: gs) = g.length + (depth gs - g.length) := by
    rw [depth_cons]
    omega
  rw [levels, hdepth, List.range_add, List.map_append, levels, depth_map_drop, List.map_map,
    List.map_map]
  congr 1
  apply List.map_congr_left
  intro j _
  show level (g :: gs) (g.length + j) = none :: level (gs.map (List.drop g.length)) j
  rw [level_map_drop]
  show g[g.length + j]? :: level gs (g.length + j) = _
  rw [List.getElem?_eq_none (by omega)]

end levels

/-! ### Groups -/

/-- A series that is sorted newest first. -/
abbrev Sorted (series : Array TimedRow) : Prop := NewestFirst TimedRow.instant series.toList

/-- The rows of each series at an instant. -/
def groups (t : Instant) (series : List (Array TimedRow)) : List (List TimedRow) :=
  series.map fun s => atInstant TimedRow.instant t s.toList

/-- What is left of all later series when the first rows of an instant are taken out. -/
def remaining (t : Instant) (later : List (Array TimedRow)) : List (Array TimedRow) :=
  (later.map (takeAt t)).map (·.2)

section taking

variable {later : List (Array TimedRow)} (hlater : ∀ s ∈ later, Sorted s)

include hlater

/-- What is left is sorted. -/
theorem sorted_remaining (t : Instant) : ∀ s ∈ remaining t later, Sorted s := by
  intro s hs
  simp only [remaining, List.map_map, List.mem_map, Function.comp_apply] at hs
  obtain ⟨s', hs', rfl⟩ := hs
  exact newestFirst_takeAt (hlater s' hs') t

/-- The rows that are taken are the first level. -/
theorem taken_eq_level (t : Instant) :
    (later.map (takeAt t)).map (·.1) = level (groups t later) 0 := by
  rw [level, groups, List.map_map, List.map_map]
  apply List.map_congr_left
  intro s hs
  show (takeAt t s).1 = (atInstant TimedRow.instant t s.toList)[0]?
  rw [(takeAt_eq (hlater s hs) t).1, List.head?_eq_getElem?]

/-- The groups of the instant lose their first rows. -/
theorem groups_remaining (t : Instant) :
    groups t (remaining t later) = (groups t later).map (List.drop 1) := by
  rw [groups, groups, remaining, List.map_map, List.map_map, List.map_map]
  apply List.map_congr_left
  intro s hs
  show atInstant TimedRow.instant t (takeAt t s).2.toList = List.drop 1 _
  rw [atInstant_takeAt (hlater s hs), List.drop_one]

/-- The groups of every other instant are left as they are. -/
theorem groups_remaining_ne {t u : Instant} (hne : t ≠ u) :
    groups t (remaining u later) = groups t later := by
  rw [groups, groups, remaining, List.map_map, List.map_map]
  apply List.map_congr_left
  intro s hs
  exact atInstant_takeAt_ne (hlater s hs) hne

end taking

/-! ### Draining one series -/

/-- Draining a row takes out the rows of its instant and goes on with what is left. -/
theorem drain_cons (row : TimedRow) (rows : List TimedRow) (later : List (Array TimedRow)) :
    drain (row :: rows) later =
      (⟨row.instant, some row :: (later.map (takeAt row.instant)).map (·.1)⟩ ::
          (drain rows (remaining row.instant later)).1,
        (drain rows (remaining row.instant later)).2) := rfl

/-- Draining keeps the later series sorted. -/
theorem sorted_drain (rows : List TimedRow) {later : List (Array TimedRow)}
    (hlater : ∀ s ∈ later, Sorted s) : ∀ s ∈ (drain rows later).2, Sorted s := by
  induction rows generalizing later with
  | nil => exact hlater
  | cons row rows ih =>
    rw [drain_cons]
    exact ih (sorted_remaining hlater row.instant)

/-- Draining a series takes as many rows of an instant from each later series as it has. -/
theorem groups_drain (t : Instant) (rows : List TimedRow) {later : List (Array TimedRow)}
    (hlater : ∀ s ∈ later, Sorted s) :
    groups t (drain rows later).2 =
      (groups t later).map (List.drop (atInstant TimedRow.instant t rows).length) := by
  induction rows generalizing later with
  | nil =>
    show groups t later = (groups t later).map (List.drop 0)
    rw [show (List.drop 0 : List TimedRow → List TimedRow) = id from funext fun _ => rfl,
      List.map_id]
  | cons row rows ih =>
    rw [drain_cons, ih (sorted_remaining hlater row.instant)]
    by_cases hrow : row.instant = t
    · rw [hrow, groups_remaining hlater, atInstant_cons_eq TimedRow.instant hrow, List.map_map]
      apply List.map_congr_left
      intro g _
      show (g.drop 1).drop _ = g.drop _
      rw [List.drop_drop, List.length_cons, Nat.add_comm]
    · rw [groups_remaining_ne hlater (Ne.symm hrow), atInstant_cons_ne TimedRow.instant hrow]

/-- The rows that draining joins at an instant, each with the level of its number. -/
theorem atInstant_drain (t : Instant) (rows : List TimedRow) {later : List (Array TimedRow)}
    (hlater : ∀ s ∈ later, Sorted s) :
    atInstant Joined.instant t (drain rows later).1 =
      (List.range (atInstant TimedRow.instant t rows).length).map fun j =>
        ⟨t, (atInstant TimedRow.instant t rows)[j]? :: level (groups t later) j⟩ := by
  induction rows generalizing later with
  | nil => rfl
  | cons row rows ih =>
    have hrest := ih (sorted_remaining hlater row.instant)
    rw [drain_cons]
    by_cases hrow : row.instant = t
    · -- `row` is number 0 at `t`, and every later number moves on by one.
      rw [atInstant_cons_eq Joined.instant hrow, hrest, hrow, taken_eq_level hlater,
        groups_remaining hlater, atInstant_cons_eq TimedRow.instant hrow, List.length_cons,
        List.range_succ_eq_map, List.map_cons, List.map_map]
      congr 1
      apply List.map_congr_left
      intro j _
      rw [level_map_drop, Nat.add_comm]
      rfl
    · rw [atInstant_cons_ne Joined.instant hrow, hrest, atInstant_cons_ne TimedRow.instant hrow,
        groups_remaining_ne hlater (Ne.symm hrow)]

/-! ### Draining all series -/

/-- The joined rows at an instant are the levels of its groups. -/
theorem atInstant_joinFrom (t : Instant) (before : Nat) (series : List (Array TimedRow))
    (hseries : ∀ s ∈ series, Sorted s) :
    atInstant Joined.instant t (joinFrom before series) =
      (levels (groups t series)).map fun parts => ⟨t, List.replicate before none ++ parts⟩ := by
  fun_induction joinFrom before series with
  | case1 before => rfl
  | case2 before series later drained ih =>
    have hlater : ∀ s ∈ later, Sorted s := fun s hs => hseries s (List.mem_cons_of_mem series hs)
    have hrest := ih (sorted_drain series.toList hlater)
    have hgroups : groups t (series :: later) =
        atInstant TimedRow.instant t series.toList :: groups t later := rfl
    -- The parts before the series are nothing in every joined row.
    have hfirst : ∀ joined : List Joined,
        atInstant Joined.instant t
            (joined.map fun j => ⟨j.instant, List.replicate before none ++ j.parts⟩) =
          (atInstant Joined.instant t joined).map fun j =>
            ⟨j.instant, List.replicate before none ++ j.parts⟩ := by
      intro joined
      rw [atInstant, List.filter_map]
      rfl
    rw [atInstant_append, hfirst, atInstant_drain t series.toList hlater, hrest,
      groups_drain t series.toList hlater, hgroups, levels_cons, List.map_append, List.map_map,
      List.map_map, List.map_map]
    congr 1
    apply List.map_congr_left
    intro parts _
    simp [List.replicate_succ']

/-- The instants of joined rows are instants of the series. -/
theorem exists_row_of_mem_joinFrom {before : Nat} {series : List (Array TimedRow)}
    (hseries : ∀ s ∈ series, Sorted s) {j : Joined} (hj : j ∈ joinFrom before series) :
    ∃ s ∈ series, ∃ row ∈ s.toList, row.instant = j.instant := by
  have hmem : j ∈ atInstant Joined.instant j.instant (joinFrom before series) :=
    mem_atInstant.2 ⟨hj, rfl⟩
  rw [atInstant_joinFrom j.instant before series hseries] at hmem
  -- There is a level, so one of the groups has a row.
  by_cases hall : ∀ g ∈ groups j.instant series, g = []
  · rw [levels, depth_eq_zero hall] at hmem
    simp at hmem
  · simp only [Classical.not_forall] at hall
    obtain ⟨g, hg, hne⟩ := hall
    obtain ⟨s, hs, rfl⟩ := List.mem_map.1 hg
    obtain ⟨row, hrow⟩ := List.exists_mem_of_ne_nil _ hne
    obtain ⟨hin, hinstant⟩ := mem_atInstant.1 hrow
    exact ⟨s, hs, row, hin, hinstant⟩

end SeriesBroker.Table
