import Mathlib.Data.List.DropRight
import Mathlib.Data.List.Infix
import Mathlib.Data.Option.Basic
import SeriesBroker.Proofs.Json.Null
import SeriesBroker.Store.Basic

/-! # Answers over HTTP

    What an answer means is decided in a fixed order. A body without a value comes first, then
    the errors that an envelope reports, and only an envelope without errors is judged by its
    status. So no status hides an error of a statement, and an error anywhere in the envelope
    keeps its results back.
-/

namespace SeriesBroker

theorem Text.occursIn_iff {needle text : List Char} :
    Text.occursIn needle text = true ↔ needle <:+: text := by
  induction text with
  | nil => rw [Text.occursIn, List.isEmpty_iff, List.infix_nil]
  | cons c rest ih =>
    rw [Text.occursIn, Bool.or_eq_true, ih, List.isPrefixOf_iff_prefix, List.infix_cons_iff]

theorem Http.isSuccess_iff {status : Nat} :
    Http.isSuccess status = true ↔ 200 ≤ status ∧ status < 300 := by
  rw [Http.isSuccess, Bool.and_eq_true, decide_eq_true_iff, decide_eq_true_iff]

/-! ### Errors of an envelope -/

namespace Envelope

/-- Neither the query nor any of its statements failed. -/
structure Sound (e : Envelope) : Prop where
  query : e.error = none
  statements : ∀ result ∈ e.results, result.error = none

/-- The error that an envelope reports is the one of the query, or else the one of the earliest
    statement that failed. -/
inductive Reports (e : Envelope) (text : String) : Prop where
  | query (h : e.error = some text)
  | statement (hquery : e.error = none) (before : List StatementResult) (failed : StatementResult)
    (after : List StatementResult) (hresults : e.results = before ++ failed :: after)
    (hbefore : ∀ result ∈ before, result.error = none) (hfailed : failed.error = some text)

variable {e : Envelope}

theorem firstError?_eq_none : e.firstError? = none ↔ e.Sound := by
  rw [firstError?, Option.orElse_eq_none, List.findSome?_eq_none_iff]
  exact ⟨fun ⟨hquery, hstatements⟩ => ⟨hquery, hstatements⟩,
    fun hsound => ⟨hsound.query, hsound.statements⟩⟩

theorem firstError?_eq_some {text : String} : e.firstError? = some text ↔ e.Reports text := by
  rw [firstError?, Option.orElse_eq_some, List.findSome?_eq_some_iff]
  constructor
  · rintro (hquery | ⟨hquery, before, failed, after, hresults, hfailed, hbefore⟩)
    · exact .query hquery
    · exact .statement hquery before failed after hresults hbefore hfailed
  · rintro (hquery | ⟨hquery, before, failed, after, hresults, hbefore, hfailed⟩)
    · exact .inl hquery
    · exact .inr ⟨hquery, before, failed, after, hresults, hfailed, hbefore⟩

end Envelope

/-! ### Bodies -/

/-- Whether a body has nothing but white space. -/
def IsBlank (body : List UInt8) : Prop :=
  ∀ byte ∈ body, byte ∈ ([0x20, 0x09, 0x0a, 0x0c, 0x0d] : List UInt8)

theorem all_isSpaceByte {body : List UInt8} : body.all isSpaceByte = true ↔ IsBlank body := by
  simp only [IsBlank, List.all_eq_true, isSpaceByte, Bool.or_eq_true, beq_iff_eq, List.mem_cons,
    List.not_mem_nil, or_false, or_assoc]

theorem read_null_ne_ok (envelope : Envelope) : Envelope.read 0 .null ≠ .ok envelope := by
  intro h
  cases h

section decodeAnswer

variable [Json.FloatReader] {status : Nat} {body : List UInt8}

theorem decodeAnswer_of_isBlank (h : IsBlank body) :
    decodeAnswer status body = .error .nullResponse := by
  rw [decodeAnswer, if_pos (all_isSpaceByte.2 h)]

theorem decodeAnswer_of_isNull (h : Json.IsNull body) :
    decodeAnswer status body = .error .nullResponse := by
  rw [decodeAnswer, Json.decodeBytes_readOptional_eq_none.2 h]
  split
  · rfl
  · rfl

theorem decodeAnswer_of_undecoded {fault : Json.DecodeError} (hblank : ¬ IsBlank body)
    (h : Json.decodeBytes (Json.readOptional Envelope.read) body = .error fault) :
    decodeAnswer status body = .error (undecodedAnswer status body fault) := by
  rw [decodeAnswer, if_neg fun hall => hblank (all_isSpaceByte.1 hall), h]

section envelope

variable {envelope : Envelope} (hblank : ¬ IsBlank body)
  (hdecoded : Json.decodeBytes Envelope.read body = .ok envelope)

include hblank hdecoded

theorem decodeAnswer_of_reports {text : String} (h : envelope.Reports text) :
    decodeAnswer status body = .error (reportedError text) := by
  have hsome := (Json.decodeBytes_readOptional_eq_some (read_null_ne_ok envelope)).2 hdecoded
  simp only [decodeAnswer, if_neg fun hall => hblank (all_isSpaceByte.1 hall), hsome,
    Envelope.firstError?_eq_some.2 h]

theorem decodeAnswer_of_sound (h : envelope.Sound) :
    decodeAnswer status body =
      if Http.isSuccess status then .ok envelope
      else .error (.answer (.unexpectedStatus status)) := by
  have hsome := (Json.decodeBytes_readOptional_eq_some (read_null_ne_ok envelope)).2 hdecoded
  simp only [decodeAnswer, if_neg fun hall => hblank (all_isSpaceByte.1 hall), hsome,
    Envelope.firstError?_eq_none.2 h]

end envelope

end decodeAnswer

/-! ### Meanings -/

theorem reportedError_of_notFound {text : String} (h : "not found".toList <:+: text.toList) :
    reportedError text = .notFound text :=
  if_pos (Text.occursIn_iff.2 h)

theorem reportedError_of_other {text : String} (h : ¬ "not found".toList <:+: text.toList) :
    reportedError text = .answer (.reported text) :=
  if_neg fun hoccurs => h (Text.occursIn_iff.1 hoccurs)

/-- What an answer can mean, with the reasons for all meanings but a fault. -/
inductive Meaning [Json.FloatReader] (status : Nat) (body : List UInt8) :
    Except StoreError Envelope → Prop where
  | absent (h : IsBlank body ∨ Json.IsNull body) : Meaning status body (.error .nullResponse)
  | missing (envelope : Envelope) (text : String) (hblank : ¬ IsBlank body)
    (hdecoded : Json.decodeBytes Envelope.read body = .ok envelope)
    (hreports : envelope.Reports text) (hfound : "not found".toList <:+: text.toList) :
    Meaning status body (.error (.notFound text))
  | fault (fault : AnswerFault) : Meaning status body (.error (.answer fault))
  | accepted (envelope : Envelope) (hblank : ¬ IsBlank body)
    (hdecoded : Json.decodeBytes Envelope.read body = .ok envelope) (hsound : envelope.Sound)
    (hstatus : Http.isSuccess status = true) : Meaning status body (.ok envelope)

theorem meaning_of_decodes [Json.FloatReader] {status : Nat} {body : List UInt8}
    {envelope : Envelope} (hblank : ¬ IsBlank body)
    (hdecoded : Json.decodeBytes Envelope.read body = .ok envelope) :
    Meaning status body (decodeAnswer status body) := by
  cases herror : envelope.firstError? with
  | some text =>
    have hreports := Envelope.firstError?_eq_some.1 herror
    rw [decodeAnswer_of_reports hblank hdecoded hreports]
    by_cases hfound : "not found".toList <:+: text.toList
    · rw [reportedError_of_notFound hfound]
      exact .missing envelope text hblank hdecoded hreports hfound
    · rw [reportedError_of_other hfound]
      exact .fault (.reported text)
  | none =>
    have hsound := Envelope.firstError?_eq_none.1 herror
    rw [decodeAnswer_of_sound hblank hdecoded hsound]
    split
    · next hstatus => exact .accepted envelope hblank hdecoded hsound hstatus
    · exact .fault (.unexpectedStatus status)

/-- Every answer has one of the meanings. -/
theorem meaning_decodeAnswer [Json.FloatReader] (status : Nat) (body : List UInt8) :
    Meaning status body (decodeAnswer status body) := by
  by_cases hblank : IsBlank body
  · rw [decodeAnswer_of_isBlank hblank]
    exact .absent (.inl hblank)
  · cases hread : Json.decodeBytes (Json.readOptional Envelope.read) body with
    | error fault =>
      rw [decodeAnswer_of_undecoded hblank hread]
      exact .fault _
    | ok found =>
      cases found with
      | none =>
        have hnull := Json.decodeBytes_readOptional_eq_none.1 hread
        rw [decodeAnswer_of_isNull hnull]
        exact .absent (.inr hnull)
      | some envelope =>
        exact meaning_of_decodes hblank
          ((Json.decodeBytes_readOptional_eq_some (read_null_ne_ok envelope)).1 hread)

/-- **A body without a value comes before the errors of an envelope, and these before its
    status.** So an envelope is only accepted if no error is left in it. -/
theorem decodeAnswer_ok_iff_sound [Json.FloatReader] (status : Nat) (body : List UInt8) :
    (∀ envelope, decodeAnswer status body = .ok envelope ↔
      ¬ IsBlank body ∧ Json.decodeBytes Envelope.read body = .ok envelope ∧ envelope.Sound ∧
        200 ≤ status ∧ status < 300) ∧
    (decodeAnswer status body = .error .nullResponse ↔ IsBlank body ∨ Json.IsNull body) ∧
    (∀ text, decodeAnswer status body = .error (.notFound text) ↔
      ¬ IsBlank body ∧ ∃ envelope, Json.decodeBytes Envelope.read body = .ok envelope ∧
        envelope.Reports text ∧ "not found".toList <:+: text.toList) ∧
    (∀ envelope text, ¬ IsBlank body → Json.decodeBytes Envelope.read body = .ok envelope →
      envelope.Reports text → ¬ "not found".toList <:+: text.toList →
      decodeAnswer status body = .error (.answer (.reported text))) ∧
    ∀ error, decodeAnswer status body = .error error →
      error = .nullResponse ∨ (∃ text, error = .notFound text) ∨
        ∃ fault, error = .answer fault := by
  -- What an answer means excludes all other meanings, so each outcome has only one reason.
  have hmeaning := meaning_decodeAnswer status body
  refine ⟨fun envelope => ⟨fun h => ?_, ?_⟩, ⟨fun h => ?_, ?_⟩, fun text => ⟨fun h => ?_, ?_⟩, ?_,
    fun error h => ?_⟩
  · rw [h] at hmeaning
    cases hmeaning with
    | accepted _ hblank hdecoded hsound hstatus =>
      exact ⟨hblank, hdecoded, hsound, Http.isSuccess_iff.1 hstatus⟩
  · rintro ⟨hblank, hdecoded, hsound, hstatus⟩
    rw [decodeAnswer_of_sound hblank hdecoded hsound, if_pos (Http.isSuccess_iff.2 hstatus)]
  · rw [h] at hmeaning
    cases hmeaning with
    | absent habsent => exact habsent
  · rintro (hblank | hnull)
    · exact decodeAnswer_of_isBlank hblank
    · exact decodeAnswer_of_isNull hnull
  · rw [h] at hmeaning
    cases hmeaning with
    | missing envelope _ hblank hdecoded hreports hfound =>
      exact ⟨hblank, envelope, hdecoded, hreports, hfound⟩
  · rintro ⟨hblank, envelope, hdecoded, hreports, hfound⟩
    rw [decodeAnswer_of_reports hblank hdecoded hreports, reportedError_of_notFound hfound]
  · intro envelope text hblank hdecoded hreports hfound
    rw [decodeAnswer_of_reports hblank hdecoded hreports, reportedError_of_other hfound]
  · rw [h] at hmeaning
    cases hmeaning with
    | absent => exact .inl rfl
    | missing => exact .inr (.inl ⟨_, rfl⟩)
    | fault fault => exact .inr (.inr ⟨fault, rfl⟩)

/-- The answer to two statements of which the second one failed. -/
def failedAnswer : List UInt8 :=
  Text.bytes "\x7b\"results\":[\x7b\x7d,\x7b\"error\":\"measurement not found: m\"\x7d]\x7d"

/-- A failed statement with a status of success, null with one of failure, an error of another
    kind, and an envelope without errors. -/
theorem decodeAnswer_ok_iff_sound_failedAnswer :
    let refused := Text.bytes "\x7b\"error\":\"timeout\"\x7d"
    let empty := Text.bytes "\x7b\x7d"
    decodeAnswer 200 failedAnswer = .error (.notFound "measurement not found: m") ∧
    decodeAnswer 404 (Text.bytes " null\n") = .error .nullResponse ∧
    decodeAnswer 500 refused = .error (.answer (.reported "timeout")) ∧
    decodeAnswer 204 empty = .ok .empty := by
  intro refused empty
  -- The opening brace is in all three bodies.
  have hblank : ∀ body : List UInt8, 0x7b ∈ body → ¬ IsBlank body := fun _ hmem h =>
    absurd (h 0x7b hmem) (by decide)
  obtain ⟨-, -, hmissing, -, -⟩ := decodeAnswer_ok_iff_sound 200 failedAnswer
  obtain ⟨-, habsent, -, -, -⟩ := decodeAnswer_ok_iff_sound 404 (Text.bytes " null\n")
  obtain ⟨-, -, -, hreported, -⟩ := decodeAnswer_ok_iff_sound 500 refused
  obtain ⟨haccepted, -, -, -, -⟩ := decodeAnswer_ok_iff_sound 204 empty
  refine ⟨(hmissing _).2 ⟨hblank _ (by decide +kernel), ?_⟩, habsent.2 (.inr ?_), ?_, ?_⟩
  · let failed : StatementResult := ⟨0, none, some "measurement not found: m"⟩
    refine ⟨⟨[.empty 0, failed], none⟩, by decide +kernel, ?_, by decide⟩
    exact .statement rfl [.empty 0] failed [] rfl (by simp [StatementResult.empty]) rfl
  · exact ⟨[' '], ['\n'], by simp [Json.spaces], by decide +kernel⟩
  · exact hreported ⟨[], some "timeout"⟩ _ (hblank _ (by decide +kernel)) (by decide +kernel)
      (.query rfl) (by decide)
  · have hsound : Envelope.empty.Sound := ⟨rfl, by simp [Envelope.empty]⟩
    exact (haccepted _).2 ⟨hblank _ (by decide +kernel), by decide +kernel, hsound, by decide,
      by decide⟩

end SeriesBroker
