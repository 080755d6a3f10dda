import SeriesBroker.Proofs.Request.Check
import SeriesBroker.Proofs.Request.Grammar
import SeriesBroker.Proofs.Request.Keywords
import SeriesBroker.Proofs.Steps

/-! # The faults of a batch

    Each rule for requests is given a third time here, by what breaks it and by the fault that
    names it (`Request.Breaks`). A request is well formed exactly if it breaks no rule, and the
    check of a batch reports the first request that breaks one, with a rule that this request
    breaks itself (`checkRequests_ok_iff_and_first_fault`).

    Key idea: a check that fails was refused by one of its steps, and the condition of that step
    is the opposite of a rule.
-/

namespace SeriesBroker

/-! ### Rules that are broken -/

/-- What is wrong with a window. -/
inductive Window.Breaks : Window → Fault → Prop where
  | invalidDuration {text : String} (h : ¬ ∃ amount unit, Duration.Written text amount unit) :
    Breaks (.last text) (.invalidDuration text)
  | invalidStart {start stop : String} (h : Timestamp.ofText? start = none) :
    Breaks (.between start stop) (.invalidTimestamp start)
  | invalidStop {start stop : String} (h : Timestamp.ofText? stop = none) :
    Breaks (.between start stop) (.invalidTimestamp stop)

/-- What is wrong with a column. -/
inductive Column.Breaks (windowed : Bool) (c : Column) : Fault → Prop where
  | emptyName (h : c.name = "") : Breaks windowed c .emptyColumnName
  | aggregationWithoutWindow {tag : String} (htag : c.aggregation = some tag)
    (h : windowed = false) : Breaks windowed c (.aggregationWithoutWindow c.name)
  | unknownAggregation {tag : String} (htag : c.aggregation = some tag) (h : ¬ KnownTag tag) :
    Breaks windowed c (.unknownAggregation tag)
  | invalidMath {text : String} (hmath : c.math = some text) (h : ¬ Arithmetic.Written text) :
    Breaks windowed c (.invalidMath text)

/-- What is wrong with a filter. -/
inductive Filter.Breaks (f : Filter) : Fault → Prop where
  | emptyColumn (h : f.column = "") : Breaks f .emptyFilterColumn
  | unknownComparison (h : f.comparison ∉ ["=", "<>", "!=", ">", ">=", "<", "<="]) :
    Breaks f (.unknownComparison f.comparison)
  | missingValue (h : f.value = .null) : Breaks f (.missingFilterValue f.column)
  | invalidMath {text : String} (hmath : f.math = some text) (h : ¬ Arithmetic.Written text) :
    Breaks f (.invalidMath text)

/-- What is wrong with a request. -/
inductive Request.Breaks (r : Request) : Fault → Prop where
  | emptyMeasurement (h : r.measurement = "") : Breaks r .emptyMeasurement
  | window {w : Window} {fault : Fault} (hw : r.window = some w) (h : w.Breaks fault) :
    Breaks r fault
  | limitTooSmall {n : Int64} (hlimit : r.limit = some n) (h : n.toInt < 1) :
    Breaks r .limitTooSmall
  | limitWithInterval {n : Int64} {text : String} (hlimit : r.limit = some n)
    (h : r.interval = some text) : Breaks r .limitWithInterval
  | noColumns (h : r.columns = []) : Breaks r .noColumns
  | column {c : Column} {fault : Fault} (hc : c ∈ r.columns)
    (h : c.Breaks r.window.isSome fault) : Breaks r fault
  | filter {f : Filter} {fault : Fault} (hf : f ∈ r.filters) (h : f.Breaks fault) :
    Breaks r fault
  | invalidInterval {text : String} (hinterval : r.interval = some text)
    (h : ¬ ∃ amount unit, Duration.Written text amount unit) : Breaks r (.invalidInterval text)

/-! ### Steps that fail -/

/-- Two steps fail as the first one does, or as the second one does after it. -/
theorem steps_eq_error {first : Except Fault Unit} {next : Unit → Except Fault Unit}
    {fault : Fault} : (first >>= next) = .error fault ↔
      first = .error fault ∨ first = .ok () ∧ next () = .error fault := by
  cases first with
  | error fault' => simp [bind, Except.bind]
  | ok u => simp [bind, Except.bind]

/-- A step for each member of a list fails as it does for one of them. -/
theorem exists_of_forM_eq_error {α : Type} {check : α → Except Fault Unit} {l : List α}
    {fault : Fault} (h : l.forM check = .error fault) : ∃ a ∈ l, check a = .error fault := by
  induction l with
  | nil => cases h
  | cons a l ih =>
    rcases steps_eq_error.1 h with ha | ⟨-, hl⟩
    · exact ⟨a, List.mem_cons_self, ha⟩
    · obtain ⟨b, hb, hfault⟩ := ih hl
      exact ⟨b, List.mem_cons_of_mem a hb, hfault⟩

theorem Scalar.isNull_iff {value : Scalar} : value.isNull = true ↔ value = .null := by
  cases value <;> simp [Scalar.isNull]

theorem refuseIf_eq_error {condition : Bool} {fault fault' : Fault} :
    refuseIf condition fault = .error fault' ↔ condition = true ∧ fault' = fault := by
  cases condition <;> simp [refuseIf, eq_comm]

/-- A step that refuses what does not keep a rule. -/
theorem refuseIf_not_eq_error {kept : Bool} {rule : Prop} (h : kept = true ↔ rule)
    {fault fault' : Fault} :
    refuseIf (!kept) fault = .error fault' ↔ ¬ rule ∧ fault' = fault := by
  rw [refuseIf_eq_error, ← h]
  simp

/-- A step that refuses what is not found. -/
theorem refuseIf_isNone_eq_error {α : Type} {found : Option α} {rule : Prop}
    (h : found.isSome = true ↔ rule) {fault fault' : Fault} :
    refuseIf found.isNone fault = .error fault' ↔ ¬ rule ∧ fault' = fault := by
  rw [← Option.not_isSome]
  exact refuseIf_not_eq_error h

theorem checkMath_eq_error {math : Option String} {fault : Fault} :
    checkMath math = .error fault ↔
      ∃ text, math = some text ∧ ¬ Arithmetic.Written text ∧ fault = .invalidMath text := by
  cases math with
  | none => simp [checkMath]
  | some text =>
    rw [checkMath, refuseIf_not_eq_error Arithmetic.accepts_iff]
    simp

theorem checkTimestamp_eq_error {text : String} {fault : Fault} :
    checkTimestamp text = .error fault ↔
      Timestamp.ofText? text = none ∧ fault = .invalidTimestamp text := by
  rw [checkTimestamp, refuseIf_eq_error, Option.isNone_iff_eq_none]

/-! ### A check that fails names a broken rule -/

theorem Window.breaks_of_check {w : Window} {fault : Fault} (h : w.check = .error fault) :
    w.Breaks fault := by
  cases w with
  | last text =>
    obtain ⟨hnot, rfl⟩ := (refuseIf_not_eq_error Duration.accepts_iff).1 h
    exact .invalidDuration hnot
  | between start stop =>
    rcases steps_eq_error.1 h with hstart | ⟨-, hstop⟩
    · obtain ⟨hnone, rfl⟩ := checkTimestamp_eq_error.1 hstart
      exact .invalidStart hnone
    · obtain ⟨hnone, rfl⟩ := checkTimestamp_eq_error.1 hstop
      exact .invalidStop hnone

theorem Column.breaks_of_check {windowed : Bool} {c : Column} {fault : Fault}
    (h : c.check windowed = .error fault) : c.Breaks windowed fault := by
  have hmath : checkMath c.math = .error fault → c.Breaks windowed fault := by
    intro hrefused
    obtain ⟨text, hmath, hnot, rfl⟩ := checkMath_eq_error.1 hrefused
    exact .invalidMath hmath hnot
  unfold Column.check at h
  rcases steps_eq_error.1 h with hname | ⟨-, hrest⟩
  · obtain ⟨hempty, rfl⟩ := refuseIf_eq_error.1 hname
    exact .emptyName (by simpa using hempty)
  · cases htag : c.aggregation with
    | none =>
      rw [htag] at hrest
      exact hmath hrest
    | some tag =>
      rw [htag] at hrest
      rcases steps_eq_error.1 hrest with hwindow | ⟨-, hrest⟩
      · obtain ⟨hunwindowed, rfl⟩ := refuseIf_eq_error.1 hwindow
        exact .aggregationWithoutWindow htag (by simpa using hunwindowed)
      · rcases steps_eq_error.1 hrest with hunknown | ⟨-, hrest⟩
        · obtain ⟨hnot, rfl⟩ := (refuseIf_isNone_eq_error Aggregation.isSome_ofTag?).1 hunknown
          exact .unknownAggregation htag hnot
        · exact hmath hrest

theorem Filter.breaks_of_check {f : Filter} {fault : Fault} (h : f.check = .error fault) :
    f.Breaks fault := by
  unfold Filter.check at h
  rcases steps_eq_error.1 h with hrefused | ⟨-, hrest⟩
  · obtain ⟨text, hmath, hnot, rfl⟩ := checkMath_eq_error.1 hrefused
    exact .invalidMath hmath hnot
  · rcases steps_eq_error.1 hrest with hunknown | ⟨-, hrest⟩
    · obtain ⟨hnot, rfl⟩ := (refuseIf_isNone_eq_error Comparison.isSome_ofSign?).1 hunknown
      exact .unknownComparison hnot
    · rcases steps_eq_error.1 hrest with hcolumn | ⟨-, hvalue⟩
      · obtain ⟨hempty, rfl⟩ := refuseIf_eq_error.1 hcolumn
        exact .emptyColumn (by simpa using hempty)
      · obtain ⟨hnull, rfl⟩ := refuseIf_eq_error.1 hvalue
        exact .missingValue (Scalar.isNull_iff.1 hnull)

/-- **The fault of a request names a rule that it breaks.** -/
theorem Request.breaks_of_check {r : Request} {fault : Fault} (h : r.check = .error fault) :
    r.Breaks fault := by
  rw [Request.check_eq_steps] at h
  -- Each step is either the one that fails or has passed, and then the next one is looked at.
  rcases steps_eq_error.1 h with hmeasurement | ⟨-, h⟩
  · obtain ⟨hempty, rfl⟩ := refuseIf_eq_error.1 hmeasurement
    exact .emptyMeasurement (by simpa using hempty)
  rcases steps_eq_error.1 h with hwindow | ⟨-, h⟩
  · cases hw : r.window with
    | none => simp [checkWindow, hw] at hwindow
    | some w =>
      rw [hw] at hwindow
      exact .window hw (Window.breaks_of_check hwindow)
  rcases steps_eq_error.1 h with hlimit | ⟨-, h⟩
  · cases hn : r.limit with
    | none => simp [checkLimit, hn] at hlimit
    | some n =>
      rw [hn] at hlimit
      rcases steps_eq_error.1 hlimit with hrefused | ⟨-, hinterval⟩
      · obtain ⟨hsmall, rfl⟩ := refuseIf_eq_error.1 hrefused
        exact .limitTooSmall hn (by simpa using hsmall)
      · obtain ⟨hsome, rfl⟩ := refuseIf_eq_error.1 hinterval
        obtain ⟨text, htext⟩ := Option.isSome_iff_exists.1 hsome
        exact .limitWithInterval hn htext
  rcases steps_eq_error.1 h with hcolumns | ⟨-, h⟩
  · obtain ⟨hempty, rfl⟩ := refuseIf_eq_error.1 hcolumns
    exact .noColumns (by simpa using hempty)
  rcases steps_eq_error.1 h with hcolumn | ⟨-, h⟩
  · obtain ⟨c, hc, hfault⟩ := exists_of_forM_eq_error hcolumn
    exact .column hc (Column.breaks_of_check hfault)
  rcases steps_eq_error.1 h with hfilter | ⟨-, hinterval⟩
  · obtain ⟨f, hf, hfault⟩ := exists_of_forM_eq_error hfilter
    exact .filter hf (Filter.breaks_of_check hfault)
  cases htext : r.interval with
  | none => simp [checkInterval, htext] at hinterval
  | some text =>
    rw [htext] at hinterval
    obtain ⟨hnot, rfl⟩ := (refuseIf_not_eq_error Duration.accepts_iff).1 hinterval
    exact .invalidInterval htext hnot

/-! ### A broken rule leaves nothing well formed -/

theorem Window.not_wellFormed_of_breaks {w : Window} {fault : Fault} (h : w.Breaks fault) :
    ¬ w.WellFormed := by
  intro hw
  cases h with
  | invalidDuration h => exact h (Duration.accepts_iff.1 hw)
  | invalidStart h =>
    have hstart := hw.1
    simp [h] at hstart
  | invalidStop h =>
    have hstop := hw.2
    simp [h] at hstop

theorem Column.not_wellFormed_of_breaks {windowed : Bool} {c : Column} {fault : Fault}
    (h : c.Breaks windowed fault) : ¬ c.WellFormed windowed := by
  intro hc
  cases h with
  | emptyName h => exact hc.named h
  | aggregationWithoutWindow htag h =>
    have hwindowed := (hc.aggregated _ htag).1
    rw [h] at hwindowed
    cases hwindowed
  | unknownAggregation htag h => exact h (Aggregation.isSome_ofTag?.1 (hc.aggregated _ htag).2)
  | invalidMath hmath h => exact h (Arithmetic.accepts_iff.1 (hc.math _ hmath))

theorem Filter.not_wellFormed_of_breaks {f : Filter} {fault : Fault} (h : f.Breaks fault) :
    ¬ f.WellFormed := by
  intro hf
  cases h with
  | emptyColumn h => exact hf.named h
  | unknownComparison h => exact h (Comparison.isSome_ofSign?.1 hf.compared)
  | missingValue h =>
    have hvalued := hf.valued
    rw [h] at hvalued
    cases hvalued
  | invalidMath hmath h => exact h (Arithmetic.accepts_iff.1 (hf.math _ hmath))

theorem Request.not_wellFormed_of_breaks {r : Request} {fault : Fault} (h : r.Breaks fault) :
    ¬ r.WellFormed := by
  intro hr
  cases h with
  | emptyMeasurement h => exact hr.measured h
  | window hw h => exact Window.not_wellFormed_of_breaks h (hr.window _ hw)
  | limitTooSmall hlimit h =>
    have hlarge := (hr.limited _ hlimit).1
    omega
  | limitWithInterval hlimit h =>
    have hnone := (hr.limited _ hlimit).2
    rw [h] at hnone
    cases hnone
  | noColumns h => exact hr.selected h
  | column hc h => exact Column.not_wellFormed_of_breaks h (hr.columns _ hc)
  | filter hf h => exact Filter.not_wellFormed_of_breaks h (hr.filters _ hf)
  | invalidInterval hinterval h => exact h (Duration.accepts_iff.1 (hr.grouped _ hinterval))

/-- **A request is well formed exactly if it breaks no rule.** -/
theorem Request.wellFormed_iff {r : Request} : r.WellFormed ↔ ∀ fault, ¬ r.Breaks fault := by
  constructor
  · intro hr fault hfault
    exact Request.not_wellFormed_of_breaks hfault hr
  · intro hnone
    rw [← Request.check_eq_ok]
    cases hcheck : r.check with
    | ok u => rfl
    | error fault => exact absurd (Request.breaks_of_check hcheck) (hnone fault)

/-! ### Batches -/

section batches

variable {α : Type} {check : α → Except Fault Unit}

/-- The first member that does not pass is reported. -/
theorem checkFrom_of_refused {before after : List α} {a : α} {fault : Fault}
    (hbefore : ∀ b ∈ before, check b = .ok ()) (ha : check a = .error fault) (index : Nat) :
    checkFrom check index (before ++ a :: after) = .error ⟨index + before.length, fault⟩ := by
  induction before generalizing index with
  | nil => simp [checkFrom, ha]
  | cons b before ih =>
    obtain ⟨hb, hrest⟩ := List.forall_mem_cons.1 hbefore
    simp only [List.cons_append, checkFrom, hb, ih hrest, List.length_cons]
    congr 2
    omega

/-- If the first part of a batch passes, the second part decides. -/
theorem checkFrom_append (l later : List α) (index : Nat) :
    checkFrom check index (l ++ later) =
      (checkFrom check index l >>= fun _ => checkFrom check (index + l.length) later) := by
  induction l generalizing index with
  | nil => rfl
  | cons a l ih =>
    simp only [List.cons_append, checkFrom]
    cases check a with
    | error fault => rfl
    | ok u =>
      have hindex : index + 1 + l.length = index + (a :: l).length := by
        rw [List.length_cons]
        omega
      simp only [ih, hindex]

variable (check) in
/-- Where the numbers start is where the reported number is counted from. -/
theorem checkFrom_start (l : List α) (start index : Nat) :
    checkFrom check (start + index) l =
      (checkFrom check index l).mapError fun f => ⟨start + f.index, f.fault⟩ := by
  induction l generalizing index with
  | nil => rfl
  | cons a l ih =>
    simp only [checkFrom]
    cases check a with
    | error fault => rfl
    | ok u => exact ih (index + 1)

end batches

/-- **A batch is refused for the first request that is not well formed.** It passes the check if
    all requests are well formed, which is to say that none of them breaks a rule. Otherwise the
    number of the first that is not is reported, with a rule that it breaks. What is appended to a
    batch matters only if the batch passes, and is counted from its end. -/
theorem checkRequests_ok_iff_and_first_fault (batch later : List Request) :
    (checkRequests batch = .ok () ↔ ∀ r ∈ batch, r.WellFormed) ∧
    (∀ r : Request, r.WellFormed ↔ ∀ fault, ¬ r.Breaks fault) ∧
    ((∀ r ∈ batch, r.WellFormed) ∨
      ∃ before r after fault, batch = before ++ r :: after ∧ (∀ b ∈ before, b.WellFormed) ∧
        r.Breaks fault ∧ checkRequests batch = .error ⟨before.length, fault⟩) ∧
    checkRequests (batch ++ later) =
      match checkRequests batch with
      | .error fault => .error fault
      | .ok () => (checkRequests later).mapError fun f => ⟨batch.length + f.index, f.fault⟩ := by
  refine ⟨checkRequests_eq_ok, fun r => Request.wellFormed_iff, ?_, ?_⟩
  · rcases forall_or_first Request.WellFormed batch with
      hall | ⟨before, r, after, hbatch, hbefore, hr⟩
    · exact .inl hall
    · cases hcheck : r.check with
      | ok u => exact absurd (Request.check_eq_ok.1 hcheck) hr
      | error fault =>
        refine .inr ⟨before, r, after, fault, hbatch, hbefore, Request.breaks_of_check hcheck, ?_⟩
        have hpassed : ∀ b ∈ before, b.check = .ok () :=
          fun b hb => Request.check_eq_ok.2 (hbefore b hb)
        rw [hbatch, checkRequests, checkFrom_of_refused hpassed hcheck, Nat.zero_add]
  · have hlater := checkFrom_start Request.check later batch.length 0
    rw [checkRequests, checkFrom_append, Nat.zero_add, checkRequests, checkRequests, ← hlater]
    cases checkFrom Request.check 0 batch with
    | error fault => rfl
    | ok u => rfl

/-- A request with faults in its limit, its column, its filter and its interval behind two sound
    ones, the first of which is a batch of its own. -/
theorem checkRequests_ok_iff_and_first_fault_severalFaults :
    let sound := Request.ofColumns "m" ["c"]
    let faulty : Request :=
      ⟨"n", none, some 0, [⟨"c", some "avg", none⟩], [⟨"", none, "LIKE", .null⟩], some "1 hour"⟩
    (faulty.Breaks (.unknownAggregation "avg") ∧ faulty.Breaks .emptyFilterColumn ∧
      faulty.Breaks (.invalidInterval "1 hour")) ∧
      ¬ faulty.WellFormed ∧
      checkRequests [sound, faulty] = .error ⟨1, .limitTooSmall⟩ ∧
      checkRequests ([sound] ++ [sound, faulty]) = .error ⟨2, .limitTooSmall⟩ := by
  intro sound faulty
  obtain ⟨-, hbreaks, -, happend⟩ := checkRequests_ok_iff_and_first_fault [sound] [sound, faulty]
  have hinterval : ¬ ∃ amount unit, Duration.Written "1 hour" amount unit := by
    rw [← Duration.accepts_iff]
    decide
  have htag : ¬ KnownTag "avg" := by
    rw [← Aggregation.isSome_ofTag?]
    decide
  have hempty : faulty.Breaks .emptyFilterColumn :=
    .filter List.mem_cons_self (.emptyColumn rfl)
  refine ⟨⟨.column List.mem_cons_self (.unknownAggregation rfl htag), hempty,
    .invalidInterval rfl hinterval⟩, ?_, by decide, ?_⟩
  · rw [hbreaks]
    exact fun hnone => hnone _ hempty
  · rw [happend]
    decide

end SeriesBroker
