import SeriesBroker.Proofs.Lookup.Terms
import SeriesBroker.Proofs.Request.Check
import SeriesBroker.Proofs.Statement.Clauses
import SeriesBroker.Store.Newest

/-! # Which lookups find their own cells

    A term is found again in an answer by its name only, the column with the arithmetic after
    it. Two terms can have one name, if a bare column is called like another column with its
    arithmetic: `c` with `+5`, and `c+5`. Arithmetic is an operator with a number, so there is
    no other way (`append_math_cancel`). Of two such terms the one with arithmetic stands first
    in the query, and it is the one that is found.

    So a lookup finds its own cell in every answer (`FindsOwn`) exactly if no lookup of its batch
    shadows it (`Lookup.Shadows`).
-/

namespace SeriesBroker

/-! ### Terms and names -/

/-- The term of a lookup: its column and its arithmetic. -/
def Lookup.term (l : Lookup) : String × String := (l.column, l.suffix)

/-- The name of a term in an answer. -/
def termName (term : String × String) : String := term.1 ++ term.2

/-- The value of another lookup has the name of the bare column that this lookup asks for. -/
structure Lookup.Shadows (other l : Lookup) : Prop where
  named : other.column ≠ ""
  computed : other.suffix ≠ ""
  bare : l.suffix = ""
  sameName : other.resultName = l.column

/-- A series as the answer to the query for some terms: a column for each of them after the
    timestamp, and a newest row of that width. -/
structure Series.Answers (s : Series) (terms : List (String × String)) (time : String)
    (cells : Row) : Prop where
  columns : s.columns = "time" :: terms.map termName
  newest : s.rows.head? = some (.string time :: cells)
  width : cells.length = terms.length

/-- A lookup of a batch gets the cell of its own term, whatever the store answers. -/
def FindsOwn (lookups : List Lookup) (index : Nat) (l : Lookup) : Prop :=
  ∀ (series : List Series) (found : Series) (time : String) (cells : Row),
    Series.find? series l.measurement = some found →
    found.Answers (LookupSet.ofLookups lookups).terms time cells →
    ∃ cell, cells[(LookupSet.ofLookups lookups).terms.idxOf l.term]? = some cell ∧
      (resolveAll lookups series)[index]? = some ⟨some time, some cell⟩

/-! ### Texts with arithmetic at the end -/

/-- A text can end with arithmetic in one way only: the last operator decides. -/
theorem append_math_cancel {a b m n : String} (hm : Arithmetic.accepts m)
    (hn : Arithmetic.accepts n) (h : a ++ m = b ++ n) : a = b ∧ m = n := by
  obtain ⟨operator, run, hmtext, hoperator, hrun⟩ := Arithmetic.run_of_accepts hm
  obtain ⟨operator', run', hntext, hoperator', hrun'⟩ := Arithmetic.run_of_accepts hn
  have hnot : ∀ d ∈ Arithmetic.operators, ¬ Numeric d := List.all_iff_forall_prop.1 (by decide)
  -- Read backwards, the run ends at the first operator.
  have hback : run.reverse ++ operator :: a.toList.reverse =
      run'.reverse ++ operator' :: b.toList.reverse := by
    have hchars := congrArg (fun s : String => s.toList.reverse) h
    simpa [hmtext, hntext] using hchars
  obtain ⟨hruns, hrest⟩ := Statement.span_cancel
    (fun c hc => hrun.numeric c (List.mem_reverse.1 hc))
    (fun c hc => hrun'.numeric c (List.mem_reverse.1 hc))
    (.cons (hnot operator hoperator) _) (.cons (hnot operator' hoperator') _) hback
  obtain ⟨hoperators, htexts⟩ := List.cons.inj hrest
  refine ⟨String.toList_inj.1 (List.reverse_inj.1 htexts), String.toList_inj.1 ?_⟩
  rw [hmtext, hntext, hoperators, List.reverse_inj.1 hruns]

/-- More text after a text comes later. -/
theorem lt_append (a : String) {m : String} (h : m ≠ "") : a < a ++ m := by
  rw [String.lt_iff, String.toList_append]
  cases hm : m.toList with
  | nil => exact absurd (String.toList_inj.1 (hm.trans rfl)) h
  | cons c rest =>
    have hlt : a.toList ++ [] < a.toList ++ c :: rest :=
      List.append_left_lt (List.nil_lt_cons c rest)
    rwa [List.append_nil] at hlt

/-- A bare column that is not called `time` has no arithmetic that makes it so. -/
theorem append_math_ne_time {a m : String} (hm : Arithmetic.accepts m) : a ++ m ≠ "time" := by
  obtain ⟨operator, run, htext, hoperator, _⟩ := Arithmetic.run_of_accepts hm
  have hnot : ∀ d ∈ Arithmetic.operators, d ∉ "time".toList :=
    List.all_iff_forall_prop.1 (by decide)
  intro h
  apply hnot operator hoperator
  rw [← h, String.toList_append, htext]
  exact List.mem_append_right _ List.mem_cons_self

/-- The arithmetic of a lookup that passes the check is missing or accepted. -/
theorem suffix_of_wellFormed {l : Lookup} (h : MathWellFormed l.math) :
    l.suffix = "" ∨ (l.suffix ≠ "" ∧ Arithmetic.accepts l.suffix) := by
  unfold Lookup.suffix
  cases hmath : l.math with
  | none => exact .inl rfl
  | some text =>
    have haccepts : Arithmetic.accepts text := h text hmath
    refine .inr ⟨?_, haccepts⟩
    rintro rfl
    revert haccepts
    decide

theorem resultName_ne_time {l : Lookup} (h : MathWellFormed l.math) (htime : l.column ≠ "time") :
    l.resultName ≠ "time" := by
  rw [Lookup.resultName]
  rcases suffix_of_wellFormed h with hbare | ⟨_, haccepts⟩
  · rw [hbare, String.append_empty]
    exact htime
  · exact append_math_ne_time haccepts

/-! ### Terms of the same name -/

open LookupSet (Before)

/-- A lookup whose value has the name of another lookup's value has the same term, has a later
    one, or shadows the other lookup. -/
theorem term_of_sameName {l other : Lookup} (hl : MathWellFormed l.math)
    (hother : MathWellFormed other.math) (hnamed : other.column ≠ "")
    (h : other.resultName = l.resultName) :
    other.term = l.term ∨ Before l.term other.term ∨ other.Shadows l := by
  unfold Lookup.resultName at h
  rcases suffix_of_wellFormed hl with hbare | ⟨hcomputed, haccepts⟩
  · -- A bare column is called like another column with arithmetic, or is that very column.
    rw [hbare, String.append_empty] at h
    rcases suffix_of_wellFormed hother with hbare' | ⟨hcomputed', _⟩
    · rw [hbare', String.append_empty] at h
      left
      rw [Lookup.term, Lookup.term, h, hbare, hbare']
    · exact .inr (.inr ⟨hnamed, hcomputed', hbare, h⟩)
  · -- A column with arithmetic can only share its name with a longer bare column.
    rcases suffix_of_wellFormed hother with hbare' | ⟨_, haccepts'⟩
    · rw [hbare', String.append_empty] at h
      right
      left
      left
      show l.column < other.column
      rw [h]
      exact lt_append l.column hcomputed
    · obtain ⟨hcolumn, hsuffix⟩ := append_math_cancel haccepts' haccepts h
      left
      rw [Lookup.term, Lookup.term, hcolumn, hsuffix]

/-- A term with the name of a lookup's own term stands before it exactly if its lookup shadows
    the other one. -/
theorem not_before_iff {lookups : List Lookup} (h : ∀ l ∈ lookups, MathWellFormed l.math)
    {l : Lookup} (hl : l ∈ lookups) :
    (∀ term ∈ (LookupSet.ofLookups lookups).terms, termName term = l.resultName →
      ¬ Before term l.term) ↔ ∀ other ∈ lookups, ¬ other.Shadows l := by
  constructor
  · intro hterms other hother hshadows
    have hmem := (LookupSet.mem_terms_ofLookups lookups other.term).2
      ⟨other, hother, hshadows.named, rfl⟩
    have hname : termName other.term = l.resultName := by
      show other.resultName = l.column ++ l.suffix
      rw [hshadows.sameName, hshadows.bare, String.append_empty]
    refine hterms other.term hmem hname (.inl ?_)
    -- The column of the shadowing lookup is a first part of the bare one, so it comes before.
    show other.column < l.column
    rw [← hshadows.sameName]
    exact lt_append other.column hshadows.computed
  · intro hshadows term hterm hname hbefore
    obtain ⟨other, hother, hnamed, rfl⟩ :=
      (LookupSet.mem_terms_ofLookups lookups term).1 hterm
    rcases term_of_sameName (h l hl) (h other hother) hnamed hname with heq | hlater | hshadow
    · have hself : Before l.term l.term := heq ▸ hbefore
      exact LookupSet.not_before_self _ hself
    · exact hlater.asymm hbefore
    · exact hshadows other hother hshadow

/-! ### Places -/

/-- The first term with the name of a given one is that term itself exactly if none with its
    name stands before it. -/
theorem idxOf?_names_iff {terms : List (String × String)} (hsorted : terms.Pairwise Before)
    {own : String × String} (hown : own ∈ terms) :
    (terms.map termName).idxOf? (termName own) = some (terms.idxOf own) ↔
      ∀ term ∈ terms, termName term = termName own → ¬ Before term own := by
  have hlt := List.idxOf_lt_length_of_mem hown
  have hget : terms[terms.idxOf own] = own := List.getElem_idxOf hlt
  rw [List.idxOf?_eq_some_iff]
  constructor
  · rintro ⟨_, _, hfirst⟩ term hterm hname hbefore
    obtain ⟨j, hj, rfl⟩ := List.mem_iff_getElem.1 hterm
    -- A term before the own one stands at an earlier place.
    have hearlier : j < terms.idxOf own := by
      rcases Nat.lt_trichotomy j (terms.idxOf own) with hlt' | heq | hgt
      · exact hlt'
      · subst heq
        rw [hget] at hbefore
        exact absurd hbefore (LookupSet.not_before_self own)
      · have hafter := List.pairwise_iff_getElem.1 hsorted _ _ hlt hj hgt
        rw [hget] at hafter
        exact absurd hbefore hafter.asymm
    refine hfirst j hearlier ?_
    rw [List.getElem_map]
    exact hname
  · intro hbefore
    refine ⟨by rwa [List.length_map], ?_, fun j hj hname => ?_⟩
    · rw [List.getElem_map, hget]
    · rw [List.getElem_map] at hname
      have hearlier := List.pairwise_iff_getElem.1 hsorted _ _ (Nat.lt_trans hj hlt) hlt hj
      rw [hget] at hearlier
      exact hbefore _ (List.getElem_mem _) hname hearlier

/-- A lookup that has an answer gets the cell of the first term with its name. -/
theorem resolve_of_answers {l : Lookup} (hname : l.resultName ≠ "time") {series : List Series}
    {found : Series} (hfound : Series.find? series l.measurement = some found)
    {terms : List (String × String)} {time : String} {cells : Row}
    (h : found.Answers terms time cells) :
    l.resolve series =
      ⟨some time, ((terms.map termName).idxOf? l.resultName).bind fun place => cells[place]?⟩ := by
  have hnewest : found.newest? = some (.string time :: cells, time) := by
    rw [Series.newest?, h.newest]
    rfl
  have hcolumn : found.columnIndex? l.resultName =
      ((terms.map termName).idxOf? l.resultName).map (· + 1) := by
    have hbeq : ("time" == l.resultName) = false := by simpa using hname.symm
    rw [Series.columnIndex?, h.columns, List.idxOf?_cons, hbeq]
    rfl
  rw [Lookup.resolve, hfound]
  dsimp only
  rw [hnewest]
  dsimp only
  rw [hcolumn]
  cases (terms.map termName).idxOf? l.resultName with
  | none => rfl
  | some place => simp

/-- An answer that tells a given term from all others by its cells. -/
def tellingSeries (measurement : String) (terms : List (String × String))
    (own : String × String) : Series where
  name := measurement
  tags := none
  columns := "time" :: terms.map termName
  rows := [.string "" :: terms.map fun term => .bool (term == own)]

theorem answers_tellingSeries (measurement : String) (terms : List (String × String))
    (own : String × String) : (tellingSeries measurement terms own).Answers terms ""
      (terms.map fun term => .bool (term == own)) :=
  ⟨rfl, rfl, List.length_map _⟩

theorem find?_tellingSeries (measurement : String) (terms : List (String × String))
    (own : String × String) : Series.find? [tellingSeries measurement terms own] measurement =
      some (tellingSeries measurement terms own) := by
  simp [Series.find?, tellingSeries]

/-- In the telling answer a lookup gets its own cell only if its own term is the first with
    its name. -/
theorem idxOf?_of_tellingSeries {l : Lookup} (hname : l.resultName ≠ "time")
    {terms : List (String × String)} (hnodup : terms.Nodup)
    (h : (l.resolve [tellingSeries l.measurement terms l.term]).value = some (.bool true)) :
    (terms.map termName).idxOf? l.resultName = some (terms.idxOf l.term) := by
  rw [resolve_of_answers hname (find?_tellingSeries l.measurement terms l.term)
    (answers_tellingSeries l.measurement terms l.term)] at h
  obtain ⟨place, hidx, hcell⟩ := Option.bind_eq_some_iff.1 h
  obtain ⟨hplace, _, _⟩ := List.idxOf?_eq_some_iff.1 hidx
  rw [List.length_map] at hplace
  rw [List.getElem?_map, List.getElem?_eq_getElem hplace] at hcell
  -- The cell is true, so the term at the place is the own one, which stands nowhere else.
  have hterm : terms[place] = l.term := by simpa using hcell
  have hidxOf := hnodup.idxOf_getElem place hplace
  rw [hterm] at hidxOf
  rw [hidxOf]
  exact hidx

/-- **A lookup finds its own cell exactly if nothing shadows it.** Of the lookups of a batch that
    passes the check, one with a named column other than `time` gets the cell of its own term in
    every answer if and only if its batch has no lookup whose column with its arithmetic is
    called like this one's bare column. -/
theorem findsOwn_iff {lookups : List Lookup} (hcheck : checkLookups lookups = .ok ())
    {index : Nat} {l : Lookup} (hl : lookups[index]? = some l) (hnamed : l.column ≠ "")
    (htime : l.column ≠ "time") :
    FindsOwn lookups index l ↔ ∀ other ∈ lookups, ¬ other.Shadows l := by
  have hwell := checkLookups_eq_ok.1 hcheck
  have hmem := List.mem_of_getElem? hl
  have hname := resultName_ne_time (hwell l hmem) htime
  have hown : l.term ∈ (LookupSet.ofLookups lookups).terms :=
    (LookupSet.mem_terms_ofLookups lookups l.term).2 ⟨l, hmem, hnamed, rfl⟩
  have hlt := List.idxOf_lt_length_of_mem hown
  have hresolve : ∀ series : List Series,
      (resolveAll lookups series)[index]? = some (l.resolve series) := by
    intro series
    rw [resolveAll, List.getElem?_map, hl]
    rfl
  have hplace := (idxOf?_names_iff (LookupSet.terms_ascending _) hown).trans
    (not_before_iff hwell hmem)
  rw [← hplace]
  constructor
  · intro hfinds
    obtain ⟨cell, hcell, hfound⟩ := hfinds _ _ _ _ (find?_tellingSeries l.measurement _ l.term)
      (answers_tellingSeries l.measurement _ l.term)
    rw [List.getElem?_map, List.getElem?_eq_getElem hlt, List.getElem_idxOf hlt] at hcell
    have hcell : cell = .bool true := by simpa using hcell.symm
    rw [hresolve, hcell] at hfound
    exact idxOf?_of_tellingSeries hname (LookupSet.terms_nodup _)
      (congrArg Sample.value (Option.some.inj hfound))
  · intro hidx series found time cells hfound hanswers
    -- The row is as wide as the terms are many, so the own place has a cell.
    have hwidth : (LookupSet.ofLookups lookups).terms.idxOf l.term < cells.length := by
      rw [hanswers.width]
      exact hlt
    have hcell := List.getElem?_eq_getElem hwidth
    refine ⟨_, hcell, ?_⟩
    have hterm : l.resultName = termName l.term := rfl
    rw [hresolve, resolve_of_answers hname hfound hanswers, hterm, hidx, Option.bind_some, hcell]

/-! ### Two lookups of one name -/

/-- A column with arithmetic, and a bare column that is called like it. -/
def shadowedLookups : List Lookup := [⟨"m", "c", some "+5"⟩, ⟨"m", "c+5", none⟩]

/-- The lookup with arithmetic finds its cell in every answer, the bare one does not. -/
theorem findsOwn_iff_shadowedLookups : checkLookups shadowedLookups = .ok () ∧
    FindsOwn shadowedLookups 0 ⟨"m", "c", some "+5"⟩ ∧
    ¬ FindsOwn shadowedLookups 1 ⟨"m", "c+5", none⟩ := by
  have hcheck : checkLookups shadowedLookups = .ok () := by decide
  refine ⟨hcheck, ?_, ?_⟩
  · refine (findsOwn_iff hcheck rfl (by decide) (by decide)).2 ?_
    intro other _ hshadows
    exact absurd hshadows.bare (by decide)
  · intro hfinds
    refine (findsOwn_iff hcheck rfl (by decide) (by decide)).1 hfinds ⟨"m", "c", some "+5"⟩ ?_ ?_
    · exact List.mem_cons_self
    · exact ⟨by decide, by decide, by decide, by decide⟩

/-- An answer to the query of the two lookups. -/
def shadowedAnswer : Series where
  name := "m"
  tags := none
  columns := ["time", "c+5", "c+5"]
  rows := [[.string "2000-01-01T00:00:00Z", .number (.integer 1 (by decide)),
    .number (.integer 2 (by decide))]]

/-- The term of the bare column is the second one and its cell is 2, but its lookup gets the 1
    of the term before it. -/
theorem resolveAll_shadowedAnswer : checkLookups shadowedLookups = .ok () ∧
    shadowedAnswer.Answers (LookupSet.ofLookups shadowedLookups).terms "2000-01-01T00:00:00Z"
      [.number (.integer 1 (by decide)), .number (.integer 2 (by decide))] ∧
    (LookupSet.ofLookups shadowedLookups).terms = [("c", "+5"), ("c+5", "")] ∧
    resolveAll shadowedLookups [shadowedAnswer] =
      [⟨some "2000-01-01T00:00:00Z", some (.number (.integer 1 (by decide)))⟩,
        ⟨some "2000-01-01T00:00:00Z", some (.number (.integer 1 (by decide)))⟩] :=
  ⟨by decide, ⟨by decide, by decide, by decide⟩, by decide, by decide⟩

end SeriesBroker
