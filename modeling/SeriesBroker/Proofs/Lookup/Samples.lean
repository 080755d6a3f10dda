import SeriesBroker.Proofs.Lookup.Query

/-! # Batches of lookups and single lookups

    A batch of lookups is refused, or it asks for nothing, or it takes one call to the store. What
    a lookup finds in the answer depends on the lookup and the answer alone, not on the other
    lookups of its batch. So the samples of a batch are what its lookups would get one by one from
    a store that answers in the same way. The one difference is that a single lookup without a
    time is an error.
-/

namespace SeriesBroker

/-- The call that a batch of lookups takes. -/
def lookupCall (database : String) (lookups : List Lookup) : Call :=
  ⟨database, Statement.newest (LookupSet.ofLookups lookups)⟩

/-! ### Samples of an answer -/

/-- A lookup that found no time found no value. -/
theorem Lookup.value_resolve_of_time (l : Lookup) (series : List Series)
    (h : (l.resolve series).time = none) : (l.resolve series).value = none := by
  unfold Lookup.resolve at h ⊢
  split at h
  · rfl
  · split at h
    · rfl
    · cases h

/-- There are samples exactly if the store answers with a result, and then each lookup is
    resolved in the series of the first one. -/
theorem samplesOf_eq_ok {lookups : List Lookup} {answer : Except StoreError Envelope}
    {samples : List Sample} : samplesOf lookups answer = .ok samples ↔
      ∃ envelope result rest, answer = .ok envelope ∧ envelope.results = result :: rest ∧
        samples = lookups.map (Lookup.resolve result.series) := by
  cases answer with
  | error error =>
    constructor
    · intro h
      cases h
    · rintro ⟨_, _, _, h, _⟩
      cases h
  | ok envelope =>
    obtain ⟨results, error⟩ := envelope
    cases results with
    | nil =>
      constructor
      · intro h
        cases h
      · rintro ⟨_, _, _, h, hresults, _⟩
        cases h
        cases hresults
    | cons result rest =>
      constructor
      · intro h
        exact ⟨_, result, rest, rfl, rfl, (Except.ok.inj h).symm⟩
      · rintro ⟨_, _, _, h, hresults, rfl⟩
        cases h
        cases hresults
        rfl

namespace Store

variable (store : Store) (database : String)

/-! ### The calls of a batch -/

section calls

variable {lookups : List Lookup}

theorem newestValues_of_refused {fault : BatchFault} (h : checkLookups lookups = .error fault) :
    store.newestValues database lookups = .silent (.error (.query (.invalid fault))) := by
  simp only [newestValues, h]

theorem newestValues_of_isEmpty (h : checkLookups lookups = .ok ())
    (hempty : (LookupSet.ofLookups lookups).isEmpty = true) :
    store.newestValues database lookups = .silent (.ok (lookups.map fun _ => .absent)) := by
  simp only [newestValues, h, hempty, if_true]

theorem newestValues_of_asked (h : checkLookups lookups = .ok ())
    (hfull : (LookupSet.ofLookups lookups).isEmpty = false) :
    store.newestValues database lookups =
      ⟨samplesOf lookups (store.answer (lookupCall database lookups)),
        [lookupCall database lookups]⟩ := by
  simp only [newestValues, h, hfull, Bool.false_eq_true, if_false]
  rfl

end calls

/-- A single lookup with names and sound arithmetic takes a call. -/
theorem result_newestValue_of_named {l : Lookup} (hmath : MathWellFormed l.math)
    (hmeasurement : l.measurement ≠ "") (hcolumn : l.column ≠ "") :
    (store.newestValue database l).result =
      (samplesOf [l] (store.answer (lookupCall database [l]))).bind singleSample := by
  have hcheck : checkLookups [l] = .ok () :=
    checkLookups_eq_ok.2 (List.forall_mem_singleton.2 hmath)
  have hfull : (LookupSet.ofLookups [l]).isEmpty = false := by
    rw [← Bool.not_eq_true, LookupSet.isEmpty_ofLookups, List.forall_mem_singleton,
      List.forall_mem_singleton]
    exact not_or.2 ⟨hmeasurement, hcolumn⟩
  rw [newestValue, store.newestValues_of_asked database hcheck hfull]

/-! ### The samples of a batch -/

/-- What the samples of a batch are. -/
structure Sampled (lookups : List Lookup) (samples : List Sample) : Prop where
  /-- Each lookup has its own sample, and all are found in the same series. -/
  inOrder : ∃ series : List Series, samples = resolveAll lookups series
  timed : ∀ sample ∈ samples, sample.time = none → sample.value = none
  /-- A lookup with names gets the same sample alone, from any store that answers as this one
      answers to the batch, unless the sample has no time. -/
  alone : ∀ (index : Nat) (l : Lookup) (sample : Sample), lookups[index]? = some l →
    samples[index]? = some sample → l.measurement ≠ "" → l.column ≠ "" → ∀ other : Store,
      other.answer (lookupCall database [l]) = store.answer (lookupCall database lookups) →
      (other.newestValue database l).result =
        if sample.time.isSome then .ok sample else .error .nullResponse

theorem sampled_of_result {lookups : List Lookup} {samples : List Sample}
    (h : (store.newestValues database lookups).result = .ok samples) :
    store.Sampled database lookups samples := by
  cases hcheck : checkLookups lookups with
  | error fault =>
    rw [store.newestValues_of_refused database hcheck] at h
    cases h
  | ok u =>
    cases hempty : (LookupSet.ofLookups lookups).isEmpty with
    | true =>
      rw [store.newestValues_of_isEmpty database hcheck hempty] at h
      cases h
      refine ⟨⟨[], rfl⟩, ?_, ?_⟩
      · intro sample hsample _
        obtain ⟨_, _, rfl⟩ := List.mem_map.1 hsample
        rfl
      · -- A lookup with both names would have been asked for.
        intro index l sample hl _ hmeasurement hcolumn
        have hmem := List.mem_of_getElem? hl
        rcases (LookupSet.isEmpty_ofLookups lookups).1 hempty with hnone | hnone
        · exact absurd (hnone l hmem) hmeasurement
        · exact absurd (hnone l hmem) hcolumn
    | false =>
      rw [store.newestValues_of_asked database hcheck hempty] at h
      obtain ⟨envelope, result, rest, hanswer, hresults, rfl⟩ := samplesOf_eq_ok.1 h
      refine ⟨⟨result.series, rfl⟩, ?_, ?_⟩
      · intro sample hsample
        obtain ⟨l, _, rfl⟩ := List.mem_map.1 hsample
        exact l.value_resolve_of_time result.series
      · -- Any store that gives the same answer to the single lookup finds the same value.
        intro index l sample hl hsample hmeasurement hcolumn other hsame
        have hmath := checkLookups_eq_ok.1 hcheck l (List.mem_of_getElem? hl)
        rw [List.getElem?_map, hl] at hsample
        have halone : samplesOf [l] (other.answer (lookupCall database [l])) = .ok [sample] := by
          refine samplesOf_eq_ok.2 ⟨envelope, result, rest, hsame.trans hanswer, hresults, ?_⟩
          rw [← Option.some.inj hsample]
          rfl
        rw [other.result_newestValue_of_named database hmath hmeasurement hcolumn, halone]
        rfl

end Store

/-- **A batch of lookups takes one call at most, and gives each lookup what it would get alone.**
    Refused lookups and lookups that name nothing do not reach the store; all others take the one
    call with their query. -/
theorem newestValues_sampled (store : Store) (database : String) (lookups : List Lookup) :
    let run := store.newestValues database lookups
    (∀ fault, checkLookups lookups = .error fault →
      run.calls = [] ∧ run.result = .error (.query (.invalid fault))) ∧
    (checkLookups lookups = .ok () →
      ((∀ l ∈ lookups, l.measurement = "") ∨ ∀ l ∈ lookups, l.column = "") →
      run.calls = [] ∧ run.result = .ok (lookups.map fun _ => .absent)) ∧
    (checkLookups lookups = .ok () →
      (∃ l ∈ lookups, l.measurement ≠ "") → (∃ l ∈ lookups, l.column ≠ "") →
      run.calls = [lookupCall database lookups] ∧
      ((∃ samples, run.result = .ok samples) ↔ ∃ envelope,
        store.answer (lookupCall database lookups) = .ok envelope ∧ envelope.results ≠ [])) ∧
    ∀ samples, run.result = .ok samples → store.Sampled database lookups samples := by
  intro run
  refine ⟨?_, ?_, ?_, fun samples h => store.sampled_of_result database h⟩
  · intro fault hrefused
    simp only [run, store.newestValues_of_refused database hrefused]
    exact ⟨rfl, rfl⟩
  · intro hcheck hnone
    have hempty := (LookupSet.isEmpty_ofLookups lookups).2 hnone
    simp only [run, store.newestValues_of_isEmpty database hcheck hempty]
    exact ⟨rfl, rfl⟩
  · rintro hcheck ⟨l, hl, hmeasurement⟩ ⟨l', hl', hcolumn⟩
    -- A measurement and a column are enough to ask, even if different lookups name them.
    have hfull : (LookupSet.ofLookups lookups).isEmpty = false := by
      rw [← Bool.not_eq_true, LookupSet.isEmpty_ofLookups]
      rintro (hnone | hnone)
      · exact hmeasurement (hnone l hl)
      · exact hcolumn (hnone l' hl')
    simp only [run, store.newestValues_of_asked database hcheck hfull]
    refine ⟨trivial, ⟨?_, ?_⟩⟩
    · rintro ⟨samples, hsamples⟩
      obtain ⟨envelope, result, rest, hanswer, hresults, _⟩ := samplesOf_eq_ok.1 hsamples
      exact ⟨envelope, hanswer, by rw [hresults]; exact List.cons_ne_nil result rest⟩
    · rintro ⟨envelope, hanswer, hresults⟩
      obtain ⟨result, rest, hcons⟩ := List.exists_cons_of_ne_nil hresults
      exact ⟨_, samplesOf_eq_ok.2 ⟨envelope, result, rest, hanswer, hcons, rfl⟩⟩

/-- A store that answers every query with one row of the measurement m. -/
def singleRowStore : Store where
  answer _ := .ok ⟨[⟨0, some [⟨"m", none, ["time", "c+5"],
    [[.string "2000-01-01T00:00:00Z", .bool true]]⟩], none⟩], none⟩
  reachable := true

/-- A lookup that is repeated, one without a measurement and one whose measurement is missing. The
    missing one is an error alone. Arithmetic that is refused and empty names take no call. -/
theorem newestValues_sampled_singleRow :
    let lookups : List Lookup :=
      [⟨"m", "c", some "+5"⟩, ⟨"", "c", none⟩, ⟨"n", "c", none⟩, ⟨"m", "c", some "+5"⟩]
    let found : Sample := ⟨some "2000-01-01T00:00:00Z", some (.bool true)⟩
    let run := singleRowStore.newestValues "db" lookups
    run.calls = [⟨"db",
      "SELECT \"c\", \"c\"+5 AS \"c+5\" FROM \"m\", \"n\" ORDER BY time DESC LIMIT 1"⟩] ∧
    run.result = .ok [found, .absent, .absent, found] ∧
    (singleRowStore.newestValue "db" ⟨"m", "c", some "+5"⟩).result = .ok found ∧
    (singleRowStore.newestValue "db" ⟨"n", "c", none⟩).result = .error .nullResponse ∧
    (singleRowStore.newestValues "db" [⟨"m", "c", some "5"⟩]).calls = [] ∧
    (singleRowStore.newestValues "db" [⟨"m", "", none⟩, ⟨"n", "", none⟩]).result =
      .ok [.absent, .absent] := by
  intro lookups found run
  obtain ⟨-, -, hasked, hsampled⟩ := newestValues_sampled singleRowStore "db" lookups
  obtain ⟨hrefused, -⟩ := newestValues_sampled singleRowStore "db" [⟨"m", "c", some "5"⟩]
  obtain ⟨-, hnothing, -⟩ :=
    newestValues_sampled singleRowStore "db" [⟨"m", "", none⟩, ⟨"n", "", none⟩]
  have hresult : run.result = .ok [found, .absent, .absent, found] := by decide +kernel
  have halone := (hsampled _ hresult).alone
  obtain ⟨hcalls, -⟩ := hasked (by decide) (by decide) (by decide)
  refine ⟨hcalls.trans (by decide +kernel), hresult, ?_, ?_, ?_, ?_⟩
  · exact halone 3 _ found rfl rfl (by decide) (by decide) singleRowStore rfl
  · exact halone 2 _ .absent rfl rfl (by decide) (by decide) singleRowStore rfl
  · exact (hrefused _ rfl).1
  · exact (hnothing (by decide) (.inr (by decide))).2

end SeriesBroker
