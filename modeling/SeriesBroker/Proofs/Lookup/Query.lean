import Mathlib.Data.Finset.Card
import Mathlib.Data.List.Sort
import SeriesBroker.Proofs.Lookup.Resolve

/-! # The query of a batch of lookups

    A query for newest values says exactly which measurements and which combinations of a column
    and its arithmetic its lookups ask for. The order of the lookups and their repetitions are
    lost, since both lists in the query are sorted and without repetition; nothing else is, since
    the query can be read back: a selected combination ends at a comma or at a space, and its
    arithmetic is told from the name after it by the words between them.
-/

namespace SeriesBroker

/-! ### What lookups ask for -/

def namedMeasurements (lookups : List Lookup) : Finset String :=
  ((lookups.map Lookup.measurement).filter (· ≠ "")).toFinset

/-- The combinations of a named column and its arithmetic that lookups ask for. -/
def namedTerms (lookups : List Lookup) : Finset (String × String) :=
  ((lookups.map Lookup.term).filter (·.1 ≠ "")).toFinset

theorem mem_namedMeasurements {lookups : List Lookup} {name : String} :
    name ∈ namedMeasurements lookups ↔ name ≠ "" ∧ ∃ l ∈ lookups, l.measurement = name := by
  rw [namedMeasurements, List.mem_toFinset, List.mem_filter, List.mem_map, decide_eq_true_iff,
    and_comm]

theorem mem_namedTerms {lookups : List Lookup} {term : String × String} :
    term ∈ namedTerms lookups ↔ term.1 ≠ "" ∧ ∃ l ∈ lookups, l.term = term := by
  rw [namedTerms, List.mem_toFinset, List.mem_filter, List.mem_map, decide_eq_true_iff, and_comm]

namespace LookupSet

/-! ### The measurements -/

/-- One more lookup adds its measurement, if that has a name. -/
theorem mem_measurements_add (s : LookupSet) (l : Lookup) (name : String) :
    name ∈ (s.add l).measurements.keys ↔
      name ∈ s.measurements.keys ∨ (l.measurement ≠ "" ∧ name = l.measurement) := by
  by_cases hempty : l.measurement = ""
  · have hsame : (s.add l).measurements = s.measurements := by simp [add, hempty]
    simp [hsame, hempty]
  · have hadded : (s.add l).measurements = SortedSet.add s.measurements l.measurement := by
      simp [add, hempty]
    have hget : (SortedSet.add s.measurements l.measurement).get? name =
        if name = l.measurement then some () else s.measurements.get? name :=
      SortedMap.get?_insert _ _ _ _
    rw [hadded, SortedMap.mem_keys_iff, SortedMap.mem_keys_iff, hget]
    by_cases hname : name = l.measurement
    · simp [hname, hempty]
    · simp [hname]

/-- A list of lookups adds the measurements of its members to what was there before. -/
theorem mem_measurements_foldl_add (lookups : List Lookup) (s : LookupSet) (name : String) :
    name ∈ (lookups.foldl add s).measurements.keys ↔
      name ∈ s.measurements.keys ∨ ∃ l ∈ lookups, l.measurement ≠ "" ∧ name = l.measurement := by
  induction lookups generalizing s with
  | nil => simp
  | cons l lookups ih =>
    rw [List.foldl_cons, ih, mem_measurements_add, or_assoc]
    simp only [List.mem_cons, exists_eq_or_imp]

/-- **The measurements of a batch** are those that its lookups name. -/
theorem mem_measurements_ofLookups (lookups : List Lookup) (name : String) :
    name ∈ (ofLookups lookups).measurements.keys ↔ name ∈ namedMeasurements lookups := by
  have hempty : name ∉ empty.measurements.keys := List.not_mem_nil
  rw [ofLookups, mem_measurements_foldl_add, or_iff_right hempty, mem_namedMeasurements]
  constructor
  · rintro ⟨l, hl, hne, rfl⟩
    exact ⟨hne, l, hl, rfl⟩
  · rintro ⟨hne, l, hl, rfl⟩
    exact ⟨l, hl, hne, rfl⟩

/-- The terms of a batch are the combinations that its lookups ask for. -/
theorem mem_terms_iff_namedTerms (lookups : List Lookup) (term : String × String) :
    term ∈ (ofLookups lookups).terms ↔ term ∈ namedTerms lookups := by
  rw [mem_terms_ofLookups, mem_namedTerms]
  constructor
  · rintro ⟨l, hl, hne, rfl⟩
    exact ⟨hne, l, hl, rfl⟩
  · rintro ⟨hne, l, hl, rfl⟩
    exact ⟨l, hl, hne, rfl⟩

/-! ### Nothing to select -/

/-- A part of the set that stays empty with lookups of one kind only is empty after a list of
    them exactly if it was before. -/
theorem isEmpty_foldl_add (part : LookupSet → Bool) (unnamed : Lookup → Bool)
    (hadd : ∀ s l, part (s.add l) = (part s && unnamed l)) (lookups : List Lookup)
    (s : LookupSet) : part (lookups.foldl add s) = (part s && lookups.all unnamed) := by
  induction lookups generalizing s with
  | nil => simp
  | cons l lookups ih => rw [List.foldl_cons, ih, hadd, Bool.and_assoc, List.all_cons]

theorem isEmpty_measurements_add (s : LookupSet) (l : Lookup) :
    (s.add l).measurements.isEmpty = (s.measurements.isEmpty && l.measurement.isEmpty) := by
  by_cases hempty : l.measurement = ""
  · simp [add, hempty]
  · simp [add, hempty, SortedSet.add, SortedMap.insert]

theorem isEmpty_columns_add (s : LookupSet) (l : Lookup) :
    (s.add l).columns.isEmpty = (s.columns.isEmpty && l.column.isEmpty) := by
  by_cases hempty : l.column = ""
  · simp [add, hempty]
  · simp [add, hempty]

/-- There is nothing to select, or nothing to select it from, exactly if no lookup names a
    measurement or no lookup names a column. -/
theorem isEmpty_ofLookups (lookups : List Lookup) : (ofLookups lookups).isEmpty = true ↔
    (∀ l ∈ lookups, l.measurement = "") ∨ ∀ l ∈ lookups, l.column = "" := by
  have hmeasurements : (ofLookups lookups).measurements.isEmpty =
      lookups.all fun l => l.measurement.isEmpty :=
    isEmpty_foldl_add (·.measurements.isEmpty) (·.measurement.isEmpty) isEmpty_measurements_add
      lookups empty
  have hcolumns : (ofLookups lookups).columns.isEmpty = lookups.all fun l => l.column.isEmpty :=
    isEmpty_foldl_add (·.columns.isEmpty) (·.column.isEmpty) isEmpty_columns_add lookups empty
  rw [isEmpty, hmeasurements, hcolumns]
  simp

end LookupSet

namespace Statement

/-! ### Reading a query back -/

/-- A combination of a column with arithmetic that passes the check, or with none. -/
def TermWellFormed (term : String × String) : Prop :=
  ∃ math, MathWellFormed math ∧ term.2 = math.getD ""

/-- The text of a term: its column, its arithmetic, and the name of arithmetic. -/
theorem written_termPieces {math : Option String} (h : MathWellFormed math) (column : String)
    (r : List Char) : ∃ rest,
    written (termPieces (column, math.getD "")) ++ r =
      (quoteName column).toList ++ (written (mathPieces "" math) ++ rest) ∧
    ((math = none ∧ rest = r) ∨ (math.isSome ∧ rest =
      " AS ".toList ++ ((quoteName (column ++ math.getD "")).toList ++ r))) := by
  cases math with
  | none => exact ⟨r, by simp [termPieces, mathPieces], .inl ⟨rfl, rfl⟩⟩
  | some text =>
    have hfull : text.isEmpty = false := by
      obtain ⟨operator, run, htext, _⟩ := Arithmetic.run_of_accepts (h text rfl)
      rw [← Bool.not_eq_true, String.isEmpty_iff]
      rintro rfl
      cases htext
    refine ⟨_, ?_, .inr ⟨rfl, rfl⟩⟩
    have hwords : (Piece.words (text ++ " AS ")).text.toList = text.toList ++ " AS ".toList :=
      String.toList_append
    simp only [termPieces, Option.getD_some, hfull, Bool.false_eq_true, if_false, written_cons,
      written_nil, hwords, Piece.text_name, written_mathPieces, Option.map_some,
      String.empty_append, List.append_assoc, List.append_nil]

/-- A term can be told from what follows it. -/
theorem term_cancel {a b : String × String} (ha : TermWellFormed a) (hb : TermWellFormed b)
    {r s : List Char} (hr : Stops (fun c => c ≠ ' ' ∧ c ≠ ',') r)
    (hs : Stops (fun c => c ≠ ' ' ∧ c ≠ ',') s)
    (h : written (termPieces a) ++ r = written (termPieces b) ++ s) : a = b ∧ r = s := by
  obtain ⟨column, suffix⟩ := a
  obtain ⟨column', suffix'⟩ := b
  obtain ⟨math, hmath, rfl⟩ := ha
  obtain ⟨math', hmath', rfl⟩ := hb
  obtain ⟨rest, htext, hcase⟩ := written_termPieces hmath column r
  obtain ⟨rest', htext', hcase'⟩ := written_termPieces hmath' column' s
  have hstops : ∀ {math : Option String} {column : String} {r rest : List Char},
      Stops (fun c => c ≠ ' ' ∧ c ≠ ',') r → (math = none ∧ rest = r) ∨ (math.isSome ∧ rest =
        " AS ".toList ++ ((quoteName (column ++ math.getD "")).toList ++ r)) →
      Stops (fun c => c ≠ ' ' ∧ c ≠ ',') rest := by
    rintro math column r rest hr (⟨_, rfl⟩ | ⟨_, rfl⟩)
    · exact hr
    · exact .cons (by decide) _
  rw [htext, htext'] at h
  obtain ⟨rfl, hafter⟩ := quoteName_cancel h
  obtain ⟨rfl, hrest⟩ := math_cancel hmath hmath' (hstops hr hcase) (hstops hs hcase') hafter
  refine ⟨rfl, ?_⟩
  -- Both terms have a name of their own, or neither has.
  rcases hcase with ⟨rfl, rfl⟩ | ⟨hsome, rfl⟩
  · rcases hcase' with ⟨_, rfl⟩ | ⟨hsome, _⟩
    · exact hrest
    · cases hsome
  · rcases hcase' with ⟨rfl, _⟩ | ⟨_, rfl⟩
    · cases hsome
    · exact (quoteName_cancel (List.append_cancel_left hrest)).2

/-- The text of a query for newest values, clause by clause. -/
theorem written_newestPieces (s : LookupSet) : written (newestPieces s) = "SELECT ".toList ++
    (List.intercalate ", ".toList (s.terms.map fun term => written (termPieces term)) ++
      (" FROM ".toList ++ (List.intercalate ", ".toList
        (s.measurements.keys.map fun m => (quoteName m).toList) ++
          " ORDER BY time DESC LIMIT 1".toList))) := by
  have hname : (written ∘ fun m => [Piece.name m]) = fun m => (quoteName m).toList := by
    funext m
    simp
  simp only [newestPieces, written_append, written_cons, written_nil, written_joinPieces,
    List.map_map, hname, Piece.text_words, List.append_assoc, List.append_nil]
  rfl

/-- The measurements end where the order starts. -/
theorem measurements_cancel {l m : List String} (hlne : l ≠ []) (hmne : m ≠ [])
    (h : List.intercalate ", ".toList (l.map fun m => (quoteName m).toList) ++
        " ORDER BY time DESC LIMIT 1".toList =
      List.intercalate ", ".toList (m.map fun m => (quoteName m).toList) ++
        " ORDER BY time DESC LIMIT 1".toList) : l = m := by
  have hread : ∀ (a b : String) (r s : List Char), True → True → True → True →
      (quoteName a).toList ++ r = (quoteName b).toList ++ s → a = b ∧ r = s :=
    fun _ _ _ _ _ _ _ _ heq => quoteName_cancel heq
  have hend : ¬ ", ".toList <+: " ORDER BY time DESC LIMIT 1".toList := by decide
  have hall := (joined_cancel hread (fun _ => trivial) (fun _ _ => trivial) (fun _ _ => trivial)
    hlne hmne trivial trivial hend hend h).1
  rwa [List.forall₂_eq_eq_eq] at hall

/-- A query tells the measurements and the terms it was made of. -/
theorem newest_injective {s t : LookupSet} (hs : ∀ term ∈ s.terms, TermWellFormed term)
    (ht : ∀ term ∈ t.terms, TermWellFormed term) (hsterms : s.terms ≠ []) (htterms : t.terms ≠ [])
    (hsnamed : s.measurements.keys ≠ []) (htnamed : t.measurements.keys ≠ [])
    (h : newest s = newest t) : s.terms = t.terms ∧ s.measurements.keys = t.measurements.keys := by
  have hwritten : written (newestPieces s) = written (newestPieces t) := by
    rw [← toList_render, ← toList_render]
    exact congrArg String.toList h
  rw [written_newestPieces, written_newestPieces] at hwritten
  obtain ⟨hterms, hafter⟩ := selected_cancel
    (fun _ _ _ _ ha hb hr hs => term_cancel ha hb hr hs) hs ht hsterms htterms
    (List.append_cancel_left hwritten)
  exact ⟨hterms, measurements_cancel hsnamed htnamed hafter⟩

end Statement

/-! ### Order and repetition -/

namespace LookupSet

instance : Std.Asymm Before := ⟨fun _ _ => Before.asymm⟩

/-- Lookups that ask for the same terms have the same terms in the same order. -/
theorem terms_eq_iff {a b : List Lookup} :
    (ofLookups a).terms = (ofLookups b).terms ↔ namedTerms a = namedTerms b := by
  rw [Finset.ext_iff]
  simp only [← mem_terms_iff_namedTerms]
  exact ⟨fun h term => by rw [h],
    (terms_ascending (ofLookups a)).eq_of_mem_iff (terms_ascending (ofLookups b))⟩

/-- Lookups that name the same measurements have the same measurements in the same order. -/
theorem measurements_eq_iff {a b : List Lookup} :
    (ofLookups a).measurements.keys = (ofLookups b).measurements.keys ↔
      namedMeasurements a = namedMeasurements b := by
  rw [Finset.ext_iff]
  simp only [← mem_measurements_ofLookups]
  exact ⟨fun h name => by rw [h], ((ofLookups a).measurements.keys_ascending).eq_of_mem_iff
    (ofLookups b).measurements.keys_ascending⟩

/-- Each combination is counted once. -/
theorem termCount_ofLookups (lookups : List Lookup) :
    (ofLookups lookups).termCount = (namedTerms lookups).card := by
  have hset : namedTerms lookups = (ofLookups lookups).terms.toFinset := by
    ext term
    rw [List.mem_toFinset, mem_terms_iff_namedTerms]
  rw [hset, List.toFinset_card_of_nodup (terms_nodup _), length_terms]

/-- A set that is not empty names a measurement and has a term. -/
theorem ne_nil_of_isEmpty {lookups : List Lookup} (h : (ofLookups lookups).isEmpty = false) :
    (ofLookups lookups).terms ≠ [] ∧ (ofLookups lookups).measurements.keys ≠ [] := by
  rw [← Bool.not_eq_true, isEmpty_ofLookups, not_or] at h
  obtain ⟨hmeasurement, hcolumn⟩ := h
  push Not at hmeasurement hcolumn
  obtain ⟨l, hl, hnamed⟩ := hmeasurement
  obtain ⟨l', hl', hnamed'⟩ := hcolumn
  constructor
  · exact List.ne_nil_of_mem ((mem_terms_ofLookups lookups _).2 ⟨l', hl', hnamed', rfl⟩)
  · exact List.ne_nil_of_mem ((mem_measurements_ofLookups lookups _).2
      (mem_namedMeasurements.2 ⟨hnamed, l, hl, rfl⟩))

/-- The terms of lookups that pass the check are well formed. -/
theorem wellFormed_of_mem_terms {lookups : List Lookup} (h : checkLookups lookups = .ok ()) :
    ∀ term ∈ (ofLookups lookups).terms, Statement.TermWellFormed term := by
  intro term hterm
  obtain ⟨l, hl, _, rfl⟩ := (mem_terms_ofLookups lookups term).1 hterm
  exact ⟨l.math, checkLookups_eq_ok.1 h l hl, rfl⟩

end LookupSet

open LookupSet (ofLookups)

/-- **The query of a batch of lookups tells what they ask for, and nothing else.** Two batches
    that pass the check and ask for something have the same query exactly if they name the same
    measurements and the same combinations of a column and its arithmetic. Each combination is
    counted once. -/
theorem newest_eq_iff {a b : List Lookup} (ha : checkLookups a = .ok ())
    (hb : checkLookups b = .ok ()) (hafull : (ofLookups a).isEmpty = false)
    (hbfull : (ofLookups b).isEmpty = false) :
    (Statement.newest (ofLookups a) = Statement.newest (ofLookups b) ↔
      namedMeasurements a = namedMeasurements b ∧ namedTerms a = namedTerms b) ∧
    ((∀ l, l ∈ a ↔ l ∈ b) → Statement.newest (ofLookups a) = Statement.newest (ofLookups b)) ∧
    (ofLookups a).termCount = (namedTerms a).card := by
  have hsame : namedMeasurements a = namedMeasurements b ∧ namedTerms a = namedTerms b →
      Statement.newest (ofLookups a) = Statement.newest (ofLookups b) := by
    rintro ⟨hmeasurements, hterms⟩
    rw [Statement.newest, Statement.newest, Statement.newestPieces, Statement.newestPieces,
      LookupSet.terms_eq_iff.2 hterms, LookupSet.measurements_eq_iff.2 hmeasurements]
  refine ⟨⟨fun h => ?_, hsame⟩, fun hmembers => hsame ⟨?_, ?_⟩,
    LookupSet.termCount_ofLookups a⟩
  · obtain ⟨haterms, hanamed⟩ := LookupSet.ne_nil_of_isEmpty hafull
    obtain ⟨hbterms, hbnamed⟩ := LookupSet.ne_nil_of_isEmpty hbfull
    obtain ⟨hterms, hmeasurements⟩ := Statement.newest_injective
      (LookupSet.wellFormed_of_mem_terms ha) (LookupSet.wellFormed_of_mem_terms hb) haterms hbterms
      hanamed hbnamed h
    exact ⟨LookupSet.measurements_eq_iff.1 hmeasurements, LookupSet.terms_eq_iff.1 hterms⟩
  · ext name
    simp only [mem_namedMeasurements, hmembers]
  · ext term
    simp only [mem_namedTerms, hmembers]

/-- Lookups with repetitions, an empty name of each kind, and a column that is called like another
    one with its arithmetic. -/
def repeatedLookups : List Lookup :=
  [⟨"m", "c", some "+5"⟩, ⟨"", "c+5", none⟩, ⟨"m", "c", some "+5"⟩, ⟨"n", "", some "*2"⟩]

/-- The same names and terms in other lookups and in another order. -/
theorem newest_eq_iff_repeatedLookups :
    let other : List Lookup := [⟨"n", "c+5", none⟩, ⟨"m", "c", some "+5"⟩]
    checkLookups repeatedLookups = .ok () ∧ checkLookups other = .ok () ∧
    (ofLookups repeatedLookups).isEmpty = false ∧ (ofLookups other).isEmpty = false ∧
    Statement.newest (ofLookups repeatedLookups) = Statement.newest (ofLookups other) ∧
    Statement.newest (ofLookups repeatedLookups) =
      "SELECT \"c\"+5 AS \"c+5\", \"c+5\" FROM \"m\", \"n\" ORDER BY time DESC LIMIT 1" ∧
    (namedTerms repeatedLookups).card = 2 := by
  intro other
  have ha : checkLookups repeatedLookups = .ok () := by decide
  have hb : checkLookups other = .ok () := by decide
  have hafull : (ofLookups repeatedLookups).isEmpty = false := by decide
  have hbfull : (ofLookups other).isEmpty = false := by decide
  obtain ⟨hiff, -, hcount⟩ := newest_eq_iff ha hb hafull hbfull
  refine ⟨ha, hb, hafull, hbfull, hiff.2 ⟨by decide, by decide⟩, by decide, ?_⟩
  rw [← hcount]
  decide

end SeriesBroker
