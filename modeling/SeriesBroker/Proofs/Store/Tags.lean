import Mathlib.Data.List.Basic
import SeriesBroker.Proofs.SortedMap
import SeriesBroker.Proofs.Steps
import SeriesBroker.Store.Tags

/-! # What is collected of a list of tags

    The rows of the answer are collected one by one. After each row the map holds, for every key,
    the values of the rows so far that have this key, in their order, and it holds no other key
    (`Collected`). So no value is lost, and none comes under another key.

    An answer of another form is refused as a whole, for the first thing that is wrong with it
    (`Envelope.Mislists`).
-/

namespace SeriesBroker

/-! ### The form of the answer -/

/-- A row with the text of a key and the text of a value. -/
def IsTag (row : Row) : Prop := ∃ key value : String, row = [.string key, .string value]

def Envelope.rows (e : Envelope) : List Row := e.results.flatMap fun r => r.series.flatMap (·.rows)

/-- An answer that lists tags: one result with one series at most, and a tag in each row. -/
structure Envelope.ListsTags (e : Envelope) : Prop where
  results : e.results.length ≤ 1
  series : ∀ r ∈ e.results, r.series.length ≤ 1
  rows : ∀ row ∈ e.rows, IsTag row

/-- What is wrong with an answer. Rows are only looked at if there is just one series, and the
    first that is no tag counts. -/
inductive Envelope.Mislists (e : Envelope) : TagFault → Prop where
  | manyResults (h : 1 < e.results.length) : Mislists e .manyResults
  | manySeries {r : StatementResult} (hresults : e.results = [r]) (h : 1 < r.series.length) :
    Mislists e .manySeries
  | row (hresults : e.results.length ≤ 1) (hseries : ∀ r ∈ e.results, r.series.length ≤ 1)
    (before : List Row) (row : Row) (after : List Row) (hrows : e.rows = before ++ row :: after)
    (hbefore : ∀ b ∈ before, IsTag b) (h : ¬ IsTag row) :
    Mislists e (if row.length = 2 then .notTexts else .notPairs)

/-! ### Rows -/

def tagRow (tag : String × String) : Row := [.string tag.1, .string tag.2]

theorem tagOfRow_of_isTag {row : Row} (h : IsTag row) :
    ∃ tag, tagOfRow row = .ok tag ∧ row = tagRow tag := by
  obtain ⟨key, value, rfl⟩ := h
  exact ⟨(key, value), rfl, rfl⟩

theorem tagOfRow_of_not_isTag {row : Row} (h : ¬ IsTag row) :
    tagOfRow row = .error (tagError (if row.length = 2 then .notTexts else .notPairs)) := by
  unfold tagOfRow
  split
  · next key value => exact absurd ⟨key, value, rfl⟩ h
  · rfl
  · next hpair =>
    have hlength : row.length ≠ 2 := by
      intro hlength
      obtain ⟨a, b, rfl⟩ := List.length_eq_two.1 hlength
      exact hpair a b rfl
    rw [if_neg hlength]

/-- If all rows are tags, they are read one for one. -/
theorem mapM_tagOfRow {rows : List Row} (h : ∀ row ∈ rows, IsTag row) :
    ∃ tags, rows.mapM tagOfRow = .ok tags ∧ rows = tags.map tagRow := by
  induction rows with
  | nil => exact ⟨[], rfl, rfl⟩
  | cons row rows ih =>
    obtain ⟨hrow, hrows⟩ := List.forall_mem_cons.1 h
    obtain ⟨tag, htag, hrow⟩ := tagOfRow_of_isTag hrow
    obtain ⟨tags, htags, hrows⟩ := ih hrows
    refine ⟨tag :: tags, ?_, by rw [hrow, hrows, List.map_cons]⟩
    rw [List.mapM_cons, htag, htags]
    rfl

/-! ### Collecting -/

/-- The values that rows have for a key, in the order of the rows. -/
def valuesOf (key : String) (rows : List Row) : List String :=
  rows.filterMap fun row =>
    match row with
    | [.string k, .string value] => if k = key then some value else none
    | _ => none

/-- The tags of some rows: all values of each key, and no more keys than the rows have. -/
structure Collected (tags : TagValues) (rows : List Row) : Prop where
  values : ∀ key, (tags.get? key).getD [] = valuesOf key rows
  keys : ∀ key, key ∈ tags.keys ↔ ∃ value : String, [.string key, .string value] ∈ rows
  count : (tags.values.map List.length).sum = rows.length

theorem collected_empty : Collected SortedMap.empty [] where
  values key := rfl
  keys key := by simp [SortedMap.mem_keys_iff]
  count := rfl

/-- **One more row.** -/
theorem Collected.push {tags : TagValues} {rows : List Row} (h : Collected tags rows)
    (tag : String × String) : Collected (tags.push tag) (rows ++ [tagRow tag]) := by
  obtain ⟨key, value⟩ := tag
  have hget : ∀ k, (TagValues.push tags (key, value)).get? k =
      if k = key then some ((tags.get? key).getD [] ++ [value]) else tags.get? k :=
    fun k => SortedMap.get?_update tags key _ k
  constructor
  · -- The value comes behind those that its key has, and other keys keep theirs.
    intro k
    have hlast : valuesOf k [tagRow (key, value)] = if key = k then [value] else [] := by
      by_cases hk : key = k <;> simp [valuesOf, tagRow, hk]
    have happend : valuesOf k (rows ++ [tagRow (key, value)]) =
        valuesOf k rows ++ valuesOf k [tagRow (key, value)] := List.filterMap_append
    rw [happend, hlast, ← h.values k, hget k]
    by_cases hk : k = key
    · rw [if_pos hk, if_pos hk.symm, hk, Option.getD_some]
    · rw [if_neg hk, if_neg fun heq => hk heq.symm, List.append_nil]
  · -- The key of the new tag is the only one that may be new.
    intro k
    rw [SortedMap.mem_keys_iff, hget k]
    by_cases hk : k = key
    · simp [hk, tagRow]
    · rw [if_neg hk, ← SortedMap.mem_keys_iff, h.keys k]
      simp [tagRow, hk]
  · -- The list of one key gets longer by one.
    have hsum := SortedMap.sum_values_update List.length tags key
      fun old => old.getD [] ++ [value]
    have hcount := h.count
    show ((tags.update key fun old => old.getD [] ++ [value]).values.map List.length).sum = _
    cases hold : tags.get? key with
    | none =>
      simp [hold] at hsum ⊢
      omega
    | some old =>
      simp [hold] at hsum ⊢
      omega

/-- What is collected of all rows. -/
theorem Collected.foldl {tags : TagValues} {rows : List Row} (h : Collected tags rows)
    (later : List (String × String)) :
    Collected (later.foldl TagValues.push tags) (rows ++ later.map tagRow) := by
  induction later generalizing tags rows with
  | nil => simpa using h
  | cons tag later ih =>
    have hnext := ih (h.push tag)
    simpa using hnext

/-! ### The whole answer -/

section answer

variable {e : Envelope}

theorem tagRows_eq (hresults : e.results.length ≤ 1)
    (hseries : ∀ r ∈ e.results, r.series.length ≤ 1) : tagRows e = .ok e.rows := by
  unfold tagRows Envelope.rows
  match he : e.results with
  | [] => rfl
  | [result] =>
    have hsingle := hseries result (by simp [he])
    match hr : result.series with
    | [] => simp [hr]
    | [series] => simp [hr]
    | first :: second :: rest =>
      rw [hr, List.length_cons, List.length_cons] at hsingle
      omega
  | first :: second :: rest =>
    rw [he, List.length_cons, List.length_cons] at hresults
    omega

theorem tagsOf_of_mislists {fault : TagFault} (h : e.Mislists fault) :
    tagsOf e = .error (tagError fault) := by
  cases h with
  | manyResults h =>
    have hrows : tagRows e = .error (tagError .manyResults) := by
      unfold tagRows
      match he : e.results with
      | [] => simp [he] at h
      | [result] => simp [he] at h
      | first :: second :: rest => rfl
    rw [tagsOf, hrows]
    rfl
  | @manySeries r hresults h =>
    have hrows : tagRows e = .error (tagError .manySeries) := by
      unfold tagRows
      rw [hresults]
      match hr : r.series with
      | [] => simp [hr] at h
      | [series] => simp [hr] at h
      | first :: second :: rest => simp [hr]
    rw [tagsOf, hrows]
    rfl
  | row hresults hseries before row after hrows hbefore h =>
    -- The rows before this one are tags, so reading stops at it.
    have hread : (before ++ row :: after).mapM tagOfRow =
        .error (tagError (if row.length = 2 then .notTexts else .notPairs)) := by
      refine mapM_eq_error (fun b hb => ?_) (tagOfRow_of_not_isTag h)
      obtain ⟨tag, htag, -⟩ := tagOfRow_of_isTag (hbefore b hb)
      exact ⟨tag, htag⟩
    rw [tagsOf, tagRows_eq hresults hseries, hrows]
    show (List.mapM tagOfRow (before ++ row :: after) >>= _) = _
    rw [hread]
    rfl

theorem tagsOf_of_listsTags (h : e.ListsTags) :
    ∃ tags, tagsOf e = .ok tags ∧ Collected tags e.rows := by
  obtain ⟨tags, hread, hrows⟩ := mapM_tagOfRow h.rows
  refine ⟨tags.foldl TagValues.push SortedMap.empty, ?_, ?_⟩
  · rw [tagsOf, tagRows_eq h.results h.series]
    show (List.mapM tagOfRow e.rows >>= _) = _
    rw [hread]
    rfl
  · have hall := collected_empty.foldl tags
    rw [List.nil_append, ← hrows] at hall
    exact hall

/-- An answer lists tags, or something is wrong with it. -/
theorem listsTags_or_mislists (e : Envelope) : e.ListsTags ∨ ∃ fault, e.Mislists fault := by
  by_cases hresults : e.results.length ≤ 1
  · by_cases hseries : ∀ r ∈ e.results, r.series.length ≤ 1
    · rcases forall_or_first IsTag e.rows with hrows | ⟨before, row, after, hrows, hbefore, hrow⟩
      · exact .inl ⟨hresults, hseries, hrows⟩
      · exact .inr ⟨_, .row hresults hseries before row after hrows hbefore hrow⟩
    · match he : e.results with
      | [] => simp [he] at hseries
      | [r] =>
        have hmany : 1 < r.series.length := by simpa [he] using hseries
        exact .inr ⟨_, .manySeries he hmany⟩
      | first :: second :: rest =>
        rw [he, List.length_cons, List.length_cons] at hresults
        omega
  · exact .inr ⟨_, .manyResults (by omega)⟩

/-- The tags of an answer are all that its rows have. -/
theorem collected_of_tagsOf {tags : TagValues} (h : tagsOf e = .ok tags) :
    e.ListsTags ∧ Collected tags e.rows := by
  rcases listsTags_or_mislists e with hlists | ⟨fault, hmislists⟩
  · obtain ⟨tags', htags', hcollected⟩ := tagsOf_of_listsTags hlists
    rw [htags'] at h
    cases h
    exact ⟨hlists, hcollected⟩
  · rw [tagsOf_of_mislists hmislists] at h
    cases h

theorem tagsOf_eq_error {error : StoreError} :
    tagsOf e = .error error ↔ ∃ fault, e.Mislists fault ∧ error = tagError fault := by
  constructor
  · intro h
    rcases listsTags_or_mislists e with hlists | ⟨fault, hmislists⟩
    · obtain ⟨tags, htags, -⟩ := tagsOf_of_listsTags hlists
      rw [htags] at h
      cases h
    · rw [tagsOf_of_mislists hmislists] at h
      cases h
      exact ⟨fault, hmislists, rfl⟩
  · intro h
    obtain ⟨fault, hmislists, rfl⟩ := h
    exact tagsOf_of_mislists hmislists

end answer

/-- **Tags are collected by key, or the answer is refused as a whole.** The store is asked once,
    and its error is passed on. Of an answer that lists tags all values of each key are given in
    the order of the rows, and no value is lost. Every other answer is an error, which says what
    is wrong with it first. -/
theorem tags_collected (s : Store) (database measurement : String) :
    (s.tags database measurement).calls = [⟨database, tagQuery measurement⟩] ∧
    match s.answer ⟨database, tagQuery measurement⟩ with
    | .error error => (s.tags database measurement).result = .error error
    | .ok envelope =>
      ((∃ tags, (s.tags database measurement).result = .ok tags) ↔ envelope.ListsTags) ∧
      (∀ tags, (s.tags database measurement).result = .ok tags → Collected tags envelope.rows) ∧
      ∀ error, (s.tags database measurement).result = .error error ↔
        ∃ fault, envelope.Mislists fault ∧ error = .answer (.unexpectedTags fault) := by
  have hresult : (s.tags database measurement).result =
      (s.answer ⟨database, tagQuery measurement⟩).bind tagsOf := rfl
  refine ⟨rfl, ?_⟩
  rw [hresult]
  cases s.answer ⟨database, tagQuery measurement⟩ with
  | error error => rfl
  | ok envelope =>
    refine ⟨⟨?_, ?_⟩, fun tags htags => (collected_of_tagsOf htags).2,
      fun error => tagsOf_eq_error⟩
    · intro hok
      obtain ⟨tags, htags⟩ := hok
      exact (collected_of_tagsOf htags).1
    · intro hlists
      obtain ⟨tags, htags, -⟩ := tagsOf_of_listsTags hlists
      exact ⟨tags, htags⟩

/-- Two keys whose rows alternate, and rows of which the second and the third are no tags. -/
theorem tags_collected_interleaved :
    let answer (rows : List Row) : Store :=
      ⟨fun _ => .ok ⟨[⟨0, some [⟨"m", none, ["key", "value"], rows⟩], none⟩], none⟩, true⟩
    let row (key value : String) : Row := [.string key, .string value]
    (∃ tags, ((answer [row "host" "a", row "region" "eu", row "host" "b"]).tags "db" "m").result =
        .ok tags ∧
      tags.get? "host" = some ["a", "b"] ∧ tags.keys = ["host", "region"]) ∧
    ((answer [row "host" "a", [.string "host", .null], []]).tags "db" "m").result =
      .error (.answer (.unexpectedTags .notTexts)) := by
  intro answer row
  obtain ⟨-, hlists, -, -⟩ := tags_collected
    (answer [row "host" "a", row "region" "eu", row "host" "b"]) "db" "m"
  obtain ⟨-, -, -, herror⟩ := tags_collected
    (answer [row "host" "a", [.string "host", .null], []]) "db" "m"
  constructor
  · obtain ⟨tags, htags⟩ := hlists.2 ⟨by decide, by simp [StatementResult.series],
      by simp [Envelope.rows, StatementResult.series, IsTag, row]⟩
    refine ⟨tags, htags, ?_⟩
    cases htags
    decide
  · rw [herror]
    refine ⟨_, .row (by decide) (by simp [StatementResult.series]) [row "host" "a"]
      [.string "host", .null] [[]] rfl ?_ ?_, rfl⟩
    · simp [IsTag, row]
    · simp [IsTag]

end SeriesBroker
