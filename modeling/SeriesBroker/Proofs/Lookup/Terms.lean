import SeriesBroker.Proofs.SortedMap
import SeriesBroker.Statement.Newest

/-! # The terms of a query for newest values

    A query for newest values selects each combination of a column and its arithmetic that some
    lookup asks for, and no other (`LookupSet.mem_terms_ofLookups`), in strictly ascending order
    (`LookupSet.terms_ascending`).
-/

namespace SeriesBroker.LookupSet

/-- A set of lookups has a combination of a column and its arithmetic. -/
def Has (s : LookupSet) (term : String × String) : Prop :=
  ∃ maths, s.columns.get? term.1 = some maths ∧ maths.get? term.2 = some ()

/-- The terms are the combinations that the set has. -/
theorem mem_terms (s : LookupSet) (term : String × String) : term ∈ s.terms ↔ s.Has term := by
  obtain ⟨column, math⟩ := term
  rw [terms, List.mem_flatMap]
  constructor
  · rintro ⟨⟨c, maths⟩, hmem, hterm⟩
    obtain ⟨m, hm, heq⟩ := List.mem_map.1 hterm
    cases heq
    obtain ⟨u, hu⟩ := Option.isSome_iff_exists.1 ((maths.mem_keys_iff math).1 hm)
    exact ⟨maths, (s.columns.mem_entries_iff column maths).1 hmem, hu⟩
  · rintro ⟨maths, hcolumn, hmath⟩
    refine ⟨(column, maths), (s.columns.mem_entries_iff column maths).2 hcolumn, ?_⟩
    exact List.mem_map.2 ⟨math, (maths.mem_keys_iff math).2 (by rw [hmath]; rfl), rfl⟩

/-- One more lookup adds its own combination, if its column has a name. -/
theorem has_add (s : LookupSet) (l : Lookup) (term : String × String) :
    (s.add l).Has term ↔ s.Has term ∨ (l.column ≠ "" ∧ term = (l.column, l.suffix)) := by
  obtain ⟨column, math⟩ := term
  unfold Has
  by_cases hempty : l.column = ""
  · -- An empty name asks for nothing.
    have hcolumns : (s.add l).columns = s.columns := by simp [add, hempty]
    rw [hcolumns]
    simp [hempty]
  · have hcolumns : (s.add l).columns = s.columns.update l.column fun old =>
        SortedSet.add (old.getD SortedMap.empty) l.suffix := by simp [add, hempty]
    rw [hcolumns, SortedMap.get?_update]
    by_cases hcolumn : column = l.column
    · subst hcolumn
      rw [if_pos rfl]
      have hset : (SortedSet.add ((s.columns.get? l.column).getD .empty) l.suffix).get? math =
          if math = l.suffix then some ()
          else ((s.columns.get? l.column).getD .empty).get? math :=
        SortedMap.get?_insert _ _ _ _
      simp only [Option.some.injEq, exists_eq_left', hset]
      by_cases hmath : math = l.suffix
      · simp [hmath, hempty]
      · -- The column may be new, and then it has no other arithmetic.
        rw [if_neg hmath]
        cases s.columns.get? l.column with
        | none => simp [hmath]
        | some maths => simp [hmath]
    · rw [if_neg hcolumn]
      simp [hcolumn]

/-- A list of lookups asks for the combinations of its members, after what was there before. -/
theorem has_foldl_add (lookups : List Lookup) (s : LookupSet) (term : String × String) :
    (lookups.foldl add s).Has term ↔
      s.Has term ∨ ∃ l ∈ lookups, l.column ≠ "" ∧ term = (l.column, l.suffix) := by
  induction lookups generalizing s with
  | nil => simp
  | cons l lookups ih =>
    rw [List.foldl_cons, ih, has_add, or_assoc]
    simp only [List.mem_cons, exists_eq_or_imp]

/-- **The terms of a batch** are the combinations that its lookups ask for. -/
theorem mem_terms_ofLookups (lookups : List Lookup) (term : String × String) :
    term ∈ (ofLookups lookups).terms ↔
      ∃ l ∈ lookups, l.column ≠ "" ∧ term = (l.column, l.suffix) := by
  have hempty : ¬ empty.Has term := by
    rintro ⟨maths, hmaths, _⟩
    cases hmaths
  rw [mem_terms, ofLookups, has_foldl_add]
  exact or_iff_right hempty

/-! ### Order -/

/-- Terms are ordered by their columns, and those of one column by their arithmetic. -/
def Before (a b : String × String) : Prop := a.1 < b.1 ∨ (a.1 = b.1 ∧ a.2 < b.2)

theorem not_before_self (a : String × String) : ¬ Before a a := by
  rintro (h | ⟨_, h⟩)
  · exact String.lt_irrefl _ h
  · exact String.lt_irrefl _ h

theorem Before.asymm {a b : String × String} (h : Before a b) : ¬ Before b a := by
  rintro (h' | ⟨heq', h'⟩)
  · rcases h with h | ⟨heq, _⟩
    · exact String.lt_irrefl _ (String.lt_trans h h')
    · exact String.lt_irrefl _ (heq ▸ h')
  · rcases h with h | ⟨_, h⟩
    · exact String.lt_irrefl _ (heq' ▸ h)
    · exact String.lt_irrefl _ (String.lt_trans h h')

/-- The terms are in strictly ascending order, so each stands in the query once. -/
theorem terms_ascending (s : LookupSet) : s.terms.Pairwise Before := by
  rw [terms, List.pairwise_flatMap]
  constructor
  · -- The terms of one column.
    rintro ⟨column, maths⟩ _
    rw [List.pairwise_map]
    exact maths.keys_ascending.imp fun h => .inr ⟨rfl, h⟩
  · -- The terms of two columns.
    refine s.columns.ascending.imp ?_
    rintro ⟨column, maths⟩ ⟨column', maths'⟩ hlt term hterm term' hterm'
    obtain ⟨m, _, rfl⟩ := List.mem_map.1 hterm
    obtain ⟨m', _, rfl⟩ := List.mem_map.1 hterm'
    exact .inl hlt

/-- Each column has one term for each of its steps of arithmetic. -/
theorem length_terms (s : LookupSet) : s.terms.length = s.termCount := by
  unfold terms termCount SortedMap.values
  induction s.columns.entries with
  | nil => rfl
  | cons entry entries ih =>
    rw [List.flatMap_cons, List.length_append, List.length_map, List.map_cons, List.foldr_cons, ih]

theorem terms_nodup (s : LookupSet) : s.terms.Nodup := by
  refine s.terms_ascending.imp ?_
  rintro a b h rfl
  exact not_before_self a h

end SeriesBroker.LookupSet
