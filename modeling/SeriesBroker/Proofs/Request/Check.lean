import SeriesBroker.Request.WellFormed

/-! # The check and the rules

    The rules for requests are given twice, as conditions and as a check that stops at the first
    broken rule. Here each step of the check is shown to pass exactly if its rule is kept, so a
    request passes the check exactly if it is well formed (`Request.check_eq_ok`), and a batch
    does if all its members are (`checkRequests_eq_ok`).
-/

namespace SeriesBroker

/-! ### Steps of a check -/

/-- Two steps pass if each of them does. -/
theorem steps_eq_ok {first : Except Fault Unit} {next : Unit → Except Fault Unit} :
    (first >>= next) = .ok () ↔ first = .ok () ∧ next () = .ok () := by
  cases first with
  | error fault =>
    constructor
    · intro h
      cases h
    · rintro ⟨h, _⟩
      cases h
  | ok u => exact ⟨fun h => ⟨rfl, h⟩, fun h => h.2⟩

/-- A step for each member of a list passes if all of them do. -/
theorem forM_eq_ok {α : Type} {check : α → Except Fault Unit} {l : List α} :
    l.forM check = .ok () ↔ ∀ a ∈ l, check a = .ok () := by
  induction l with
  | nil => exact ⟨fun _ a ha => absurd ha List.not_mem_nil, fun _ => rfl⟩
  | cons a l ih =>
    show (check a >>= fun _ => l.forM check) = .ok () ↔ _
    rw [steps_eq_ok, ih, List.forall_mem_cons]

theorem refuseIf_eq_ok {condition : Bool} {fault : Fault} :
    refuseIf condition fault = .ok () ↔ condition = false := by
  cases condition
  · exact ⟨fun _ => rfl, fun _ => rfl⟩
  · constructor
    · intro h
      cases h
    · intro h
      cases h

/-! ### The parts of a request -/

theorem checkMath_eq_ok {math : Option String} :
    checkMath math = .ok () ↔ MathWellFormed math := by
  cases math with
  | none => simp [checkMath, MathWellFormed]
  | some text => simp [checkMath, MathWellFormed, refuseIf_eq_ok]

theorem checkTimestamp_eq_ok {text : String} :
    checkTimestamp text = .ok () ↔ (Timestamp.ofText? text).isSome := by
  rw [checkTimestamp, refuseIf_eq_ok]
  cases Timestamp.ofText? text <;> simp

theorem Window.check_eq_ok {w : Window} : w.check = .ok () ↔ w.WellFormed := by
  cases w with
  | last duration => simp [Window.check, Window.WellFormed, refuseIf_eq_ok]
  | between start stop =>
    rw [Window.check, steps_eq_ok, checkTimestamp_eq_ok, checkTimestamp_eq_ok]
    exact Iff.rfl

theorem Column.check_eq_ok {windowed : Bool} {c : Column} :
    c.check windowed = .ok () ↔ c.WellFormed windowed := by
  obtain ⟨name, aggregation, math⟩ := c
  -- A column without aggregation goes through two of the four steps.
  cases aggregation with
  | none =>
    show (refuseIf name.isEmpty _ >>= fun _ => checkMath math) = .ok () ↔ _
    rw [steps_eq_ok, refuseIf_eq_ok, checkMath_eq_ok]
    constructor
    · rintro ⟨hname, hmath⟩
      exact ⟨by simpa using hname, by simp, hmath⟩
    · rintro ⟨hname, _, hmath⟩
      exact ⟨by simpa using hname, hmath⟩
  | some tag =>
    show (refuseIf name.isEmpty _ >>= fun _ => refuseIf (!windowed) _ >>= fun _ =>
      refuseIf (Aggregation.ofTag? tag).isNone _ >>= fun _ => checkMath math) = .ok () ↔ _
    rw [steps_eq_ok, steps_eq_ok, steps_eq_ok, refuseIf_eq_ok, refuseIf_eq_ok, refuseIf_eq_ok,
      checkMath_eq_ok]
    constructor
    · rintro ⟨hname, hwindowed, htag, hmath⟩
      refine ⟨by simpa using hname, fun t ht => ?_, hmath⟩
      cases ht
      exact ⟨by simpa using hwindowed, by simpa [Option.isSome_iff_ne_none] using htag⟩
    · rintro ⟨hname, haggregated, hmath⟩
      obtain ⟨hwindowed, htag⟩ := haggregated tag rfl
      exact ⟨by simpa using hname, by simpa using hwindowed,
        by simpa [Option.isSome_iff_ne_none] using htag, hmath⟩

theorem Filter.check_eq_ok {f : Filter} : f.check = .ok () ↔ f.WellFormed := by
  rw [Filter.check, steps_eq_ok, steps_eq_ok, steps_eq_ok, checkMath_eq_ok, refuseIf_eq_ok,
    refuseIf_eq_ok, refuseIf_eq_ok]
  constructor
  · rintro ⟨hmath, hcompared, hnamed, hvalued⟩
    exact ⟨by simpa using hnamed, by simpa [Option.isSome_iff_ne_none] using hcompared, hvalued,
      hmath⟩
  · rintro ⟨hnamed, hcompared, hvalued, hmath⟩
    exact ⟨hmath, by simpa [Option.isSome_iff_ne_none] using hcompared, by simpa using hnamed,
      hvalued⟩

theorem checkLimit_eq_ok {interval : Option String} {limit : Option Int64} :
    checkLimit interval limit = .ok () ↔ ∀ n ∈ limit, 1 ≤ n.toInt ∧ interval = none := by
  cases limit with
  | none => simp [checkLimit]
  | some n =>
    rw [checkLimit, steps_eq_ok, refuseIf_eq_ok, refuseIf_eq_ok]
    simp

theorem checkInterval_eq_ok {interval : Option String} :
    checkInterval interval = .ok () ↔ ∀ text ∈ interval, Duration.accepts text := by
  cases interval with
  | none => simp [checkInterval]
  | some text => simp [checkInterval, refuseIf_eq_ok]

/-! ### Requests and batches -/

def checkWindow : Option Window → Except Fault Unit
  | some w => w.check
  | none => .ok ()

theorem checkWindow_eq_ok {window : Option Window} :
    checkWindow window = .ok () ↔ ∀ w ∈ window, w.WellFormed := by
  cases window with
  | none => simp [checkWindow]
  | some w => simp [checkWindow, Window.check_eq_ok]

/-- The check of a request as a chain of steps. -/
theorem Request.check_eq_steps (r : Request) :
    r.check = (do
      refuseIf r.measurement.isEmpty .emptyMeasurement
      checkWindow r.window
      checkLimit r.interval r.limit
      refuseIf r.columns.isEmpty .noColumns
      r.columns.forM (Column.check r.window.isSome)
      r.filters.forM Filter.check
      checkInterval r.interval) := by
  unfold Request.check
  cases r.window <;> rfl

/-- **A request passes the check exactly if it is well formed.** -/
theorem Request.check_eq_ok {r : Request} : r.check = .ok () ↔ r.WellFormed := by
  rw [Request.check_eq_steps]
  simp only [steps_eq_ok, refuseIf_eq_ok, checkWindow_eq_ok, checkLimit_eq_ok, forM_eq_ok,
    Column.check_eq_ok, Filter.check_eq_ok, checkInterval_eq_ok]
  constructor
  · rintro ⟨hmeasured, hwindow, hlimited, hselected, hcolumns, hfilters, hgrouped⟩
    exact ⟨by simpa using hmeasured, hwindow, hlimited, by simpa using hselected, hcolumns,
      hfilters, hgrouped⟩
  · rintro ⟨hmeasured, hwindow, hlimited, hselected, hcolumns, hfilters, hgrouped⟩
    exact ⟨by simpa using hmeasured, hwindow, hlimited, by simpa using hselected, hcolumns,
      hfilters, hgrouped⟩

/-- A batch passes a check exactly if all its members do, whatever number the first one has. -/
theorem checkFrom_eq_ok {α : Type} {check : α → Except Fault Unit} {index : Nat} {l : List α} :
    checkFrom check index l = .ok () ↔ ∀ a ∈ l, check a = .ok () := by
  induction l generalizing index with
  | nil => simp [checkFrom]
  | cons a l ih =>
    rw [checkFrom, List.forall_mem_cons]
    cases check a with
    | ok u => simpa using ih
    | error fault => simp

/-- A batch of requests passes the check exactly if all requests are well formed. -/
theorem checkRequests_eq_ok {batch : List Request} :
    checkRequests batch = .ok () ↔ ∀ r ∈ batch, r.WellFormed := by
  rw [checkRequests, checkFrom_eq_ok]
  simp only [Request.check_eq_ok]

/-- A batch of lookups passes the check exactly if their arithmetic is well formed. -/
theorem checkLookups_eq_ok {lookups : List Lookup} :
    checkLookups lookups = .ok () ↔ ∀ l ∈ lookups, MathWellFormed l.math := by
  rw [checkLookups, checkFrom_eq_ok]
  simp only [checkMath_eq_ok]

end SeriesBroker
