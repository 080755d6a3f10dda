import Mathlib.Data.List.DropRight
import Mathlib.Data.Option.Basic
import SeriesBroker.Http.Queries
import SeriesBroker.Proofs.Statement.Compile

/-! # When the store is asked for a batch

    A batch goes through several steps, and each of them can end it: the header has to select a
    database, the body has to decode, the batch has to pass the check, there has to be a request
    in it, and it has to be compiled. Here the steps are told once, as the three ways in which
    planning can end (`planBatch_cases`): the store has to be asked, there is nothing to ask, or
    the batch is refused with the status 400.

    So whether the store is asked depends on the header and the body alone (`Asks`). Once it has
    been asked, the status depends on its answer alone (`Answered`). Compiling is the step that
    does not count, since a batch that passes the check has a query.
-/

namespace SeriesBroker

/-! ### Blank texts -/

/-- Nothing is left of a text exactly if it has blanks only. -/
theorem Text.trim_eq_empty {text : String} :
    Text.trim text = "" ↔ ∀ c ∈ text.toList, Text.isBlank c = true := by
  have hempty : Text.trim text = "" ↔
      (text.toList.dropWhile Text.isBlank).rdropWhile Text.isBlank = [] := by
    rw [← String.toList_inj, Text.trim, String.toList_ofList]
    exact Iff.rfl
  rw [hempty, List.rdropWhile_eq_nil_iff]
  constructor
  · intro hrest c hc
    -- A character stands among the first blanks or after them.
    rw [← List.takeWhile_append_dropWhile (p := Text.isBlank) (l := text.toList)] at hc
    rcases List.mem_append.1 hc with hfirst | hlater
    · exact List.mem_takeWhile_imp hfirst
    · exact hrest c hlater
  · intro hblank c hc
    exact hblank c ((List.dropWhile_sublist Text.isBlank).mem hc)

namespace Http

/-! ### The header -/

/-- A value is that of the first header with a name. Names do not depend on case. -/
def FirstHeader (headers : List (String × String)) (name value : String) : Prop :=
  ∃ before written after, headers = before ++ (written, value) :: after ∧
    Text.lowerAscii written = Text.lowerAscii name ∧
    ∀ h ∈ before, Text.lowerAscii h.1 ≠ Text.lowerAscii name

theorem headerValue?_eq_some {headers : List (String × String)} {name value : String} :
    headerValue? headers name = some value ↔ FirstHeader headers name value := by
  unfold headerValue? FirstHeader
  simp only [Option.map_eq_some_iff, List.find?_eq_some_iff_append]
  constructor
  · rintro ⟨⟨written, v⟩, ⟨hname, before, after, hheaders, hbefore⟩, rfl⟩
    exact ⟨before, written, after, hheaders, by simpa using hname,
      fun h hh => by simpa using hbefore h hh⟩
  · rintro ⟨before, written, after, hheaders, hname, hbefore⟩
    exact ⟨(written, value), ⟨by simpa using hname, before, after, hheaders,
      fun h hh => by simpa using hbefore h hh⟩, rfl⟩

/-- The value of the header that selects a database: visible ASCII, spaces and tabs, and not
    blanks only. -/
structure Selects (headers : List (String × String)) (selector value : String) : Prop where
  first : FirstHeader headers selector value
  readable : ∀ c ∈ value.toList, c = '\t' ∨ (0x20 ≤ c.toNat ∧ c.toNat < 0x7f)
  notBlank : ¬ ∀ c ∈ value.toList, Text.isBlank c = true

/-- The database is the value of the header without blanks around it. -/
theorem database?_eq_some {headers : List (String × String)} {selector database : String} :
    database? headers selector = some database ↔
      ∃ value, Selects headers selector value ∧ database = Text.trim value := by
  have hreadable : ∀ value : String, isReadable value = true ↔
      ∀ c ∈ value.toList, c = '\t' ∨ (0x20 ≤ c.toNat ∧ c.toNat < 0x7f) := by
    intro value
    simp [isReadable, List.all_eq_true]
  have hblank : ∀ value : String, (!(Text.trim value).isEmpty) = true ↔
      ¬ ∀ c ∈ value.toList, Text.isBlank c = true := by
    intro value
    rw [← Text.trim_eq_empty]
    simp
  simp only [database?, Option.bind_eq_bind, Option.bind_eq_some_iff, Option.guard_eq_some',
    Option.pure_def, Option.some.injEq, headerValue?_eq_some]
  constructor
  · rintro ⟨value, hfirst, _, htext, _, hfull, rfl⟩
    exact ⟨value, ⟨hfirst, (hreadable value).1 htext, (hblank value).1 hfull⟩, rfl⟩
  · rintro ⟨value, ⟨hfirst, htext, hfull⟩, rfl⟩
    exact ⟨value, hfirst, (), (hreadable value).2 htext, (), (hblank value).2 hfull, rfl⟩

/-! ### The plan -/

/-- A header and a body that the store is asked for: the header selects a database, and the
    body is a batch of well-formed requests, at least one. -/
structure Asks [Json.FloatReader] (headers : List (String × String)) (selector : String)
    (body : List UInt8) (value : String) (batch : List Request) : Prop where
  selects : Selects headers selector value
  decodes : Json.decodeBytes readRequests body = .ok batch
  checked : checkRequests batch = .ok ()
  nonempty : batch ≠ []

/-- A header that selects a database, with a body that is the empty batch. -/
def AsksNothing [Json.FloatReader] (headers : List (String × String)) (selector : String)
    (body : List UInt8) : Prop :=
  (∃ value, Selects headers selector value) ∧ Json.decodeBytes readRequests body = .ok []

/-- A header and a body ask for one batch in one database only. -/
theorem Asks.unique [Json.FloatReader] {headers : List (String × String)} {selector : String}
    {body : List UInt8} {value value' : String} {batch batch' : List Request}
    (h : Asks headers selector body value batch)
    (h' : Asks headers selector body value' batch') : value = value' ∧ batch = batch' := by
  have hvalue := (headerValue?_eq_some.2 h.selects.first).symm.trans
    (headerValue?_eq_some.2 h'.selects.first)
  have hbatch := h.decodes.symm.trans h'.decodes
  exact ⟨Option.some.inj hvalue, Except.ok.inj hbatch⟩

/-- A batch with a request is not the empty batch. -/
theorem Asks.not_asksNothing [Json.FloatReader] {headers : List (String × String)}
    {selector : String} {body : List UInt8} {value : String} {batch : List Request}
    (h : Asks headers selector body value batch) : ¬ AsksNothing headers selector body := by
  rintro ⟨_, hdecodes⟩
  exact h.nonempty (Except.ok.inj (h.decodes.symm.trans hdecodes))

section plan

variable [Json.FloatReader] (headers : List (String × String)) (selector : String)
  (direction : Direction) (body : List UInt8)

/-- **Planning ends in one of three ways.** -/
theorem planBatch_cases :
    (∃ value batch query, Asks headers selector body value batch ∧
      Statement.ofBatch direction batch = .ok query ∧
      planBatch headers selector direction body = .ok (.ask batch ⟨Text.trim value, query⟩)) ∨
    (AsksNothing headers selector body ∧
      planBatch headers selector direction body = .ok .nothing) ∨
    ((¬ ∃ value batch, Asks headers selector body value batch) ∧
      ¬ AsksNothing headers selector body ∧
      ∃ error : ApiError, error.status = 400 ∧
        planBatch headers selector direction body = .error error) := by
  unfold planBatch
  cases hdatabase : database? headers selector with
  | none =>
    have hnone : ∀ value, ¬ Selects headers selector value := by
      intro value hselects
      have hsome := database?_eq_some.2 ⟨value, hselects, rfl⟩
      rw [hdatabase] at hsome
      cases hsome
    refine .inr (.inr ⟨?_, ?_, .missingHeader selector, rfl, rfl⟩)
    · rintro ⟨value, batch, hasks⟩
      exact hnone value hasks.selects
    · rintro ⟨⟨value, hselects⟩, _⟩
      exact hnone value hselects
  | some database =>
    obtain ⟨value, hselects, rfl⟩ := database?_eq_some.1 hdatabase
    cases hbody : Json.decodeBytes readRequests body with
    | error fault =>
      refine .inr (.inr ⟨?_, ?_, .badRequest (.malformed fault), rfl, rfl⟩)
      · rintro ⟨value, batch, hasks⟩
        cases hbody.symm.trans hasks.decodes
      · rintro ⟨_, hdecodes⟩
        cases hbody.symm.trans hdecodes
    | ok batch =>
      cases hcheck : checkRequests batch with
      | error fault =>
        simp only [hcheck, bind, Except.bind, pure, Except.pure]
        refine .inr (.inr ⟨?_, ?_, .query (.invalid fault), rfl, rfl⟩)
        · rintro ⟨value, batch', hasks⟩
          cases hbody.symm.trans hasks.decodes
          cases hcheck.symm.trans hasks.checked
        · rintro ⟨_, hdecodes⟩
          -- The empty batch passes the check.
          cases hbody.symm.trans hdecodes
          cases hcheck
      | ok u =>
        have hquery := Statement.ofBatch_of_check hcheck direction
        simp only [hcheck, hquery, bind, Except.bind, pure, Except.pure]
        by_cases hempty : batch = []
        · subst hempty
          exact .inr (.inl ⟨⟨⟨value, hselects⟩, hbody⟩, rfl⟩)
        · have hfull : batch.isEmpty = false := by simpa using hempty
          refine .inl ⟨value, batch, _, ⟨hselects, hbody, hcheck, hempty⟩, hquery, ?_⟩
          rw [hfull]
          rfl

end plan

/-! ### The answer -/

/-- What the status says of the store's answer to a batch. -/
structure Answered (shape : Shape) (batch : List Request) (answer : Except StoreError Envelope)
    (status : Nat) : Prop where
  /-- All went well exactly if the store answered and its results have the shape. -/
  ok : status = 200 ↔ ∃ envelope shaped, answer = .ok envelope ∧
    shapeResults shape batch envelope.results = .ok shaped
  notFound : status = 404 ↔ ∃ text, answer = .error (.notFound text)
  gateway : status = 502 ↔ (∃ fault, answer = .error (.connection fault)) ∨
    answer = .error .nullResponse
  /-- Such an answer stands for refused lookups, of which a batch has none. -/
  refused : status = 400 ↔ ∃ error, answer = .error (.query error)
  otherwise : status = 200 ∨ status = 404 ∨ status = 502 ∨ status = 400 ∨ status = 500

theorem answered_shapeAnswer (shape : Shape) (batch : List Request)
    (answer : Except StoreError Envelope) (requestId : String) :
    Answered shape batch answer
      (batchResponse requestId (shapeAnswer shape batch answer)).status := by
  cases answer with
  | error error =>
    have hstatus : (batchResponse requestId (shapeAnswer shape batch (.error error))).status =
      (ApiError.store error).status := rfl
    rw [hstatus]
    cases error <;> constructor <;> simp [ApiError.status]
  | ok envelope =>
    cases hshaped : shapeResults shape batch envelope.results with
    | error error =>
      have hstatus : (batchResponse requestId (shapeAnswer shape batch (.ok envelope))).status =
          500 := by
        simp only [shapeAnswer, hshaped]
        rfl
      rw [hstatus]
      constructor <;> simp [hshaped]
    | ok shaped =>
      have hstatus : (batchResponse requestId (shapeAnswer shape batch (.ok envelope))).status =
          200 := by
        simp only [shapeAnswer, hshaped]
        rfl
      rw [hstatus]
      constructor <;> simp [hshaped]

/-- The answer to an empty batch is the empty list in both shapes. -/
theorem toText_empty (shape : Shape) : (Shaped.empty shape).toJson.toText = "[]" := by
  cases shape <;> rfl

section run

variable [Json.FloatReader] (store : Store) {selector : String} (parameters : Parameters)
  {headers : List (String × String)} {body : List UInt8}

/-- A good batch is asked for once, with its query. -/
theorem runBatch_of_asks {value : String} {batch : List Request}
    (h : Asks headers selector body value batch) : ∃ query,
      Statement.ofBatch (Direction.ofParameter parameters.order) batch = .ok query ∧
      runBatch store selector parameters headers body =
        ⟨shapeAnswer (Shape.ofParameter parameters.format) batch
          (store.answer ⟨Text.trim value, query⟩), [⟨Text.trim value, query⟩]⟩ := by
  rcases planBatch_cases headers selector (Direction.ofParameter parameters.order) body with
    ⟨value', batch', query, hasks, hquery, hplan⟩ | ⟨hnothing, _⟩ | ⟨hnone, _⟩
  · obtain ⟨rfl, rfl⟩ := h.unique hasks
    refine ⟨query, hquery, ?_⟩
    simp only [runBatch, hplan]
    rfl
  · exact absurd hnothing h.not_asksNothing
  · exact absurd ⟨value, batch, h⟩ hnone

/-- For an empty batch nothing is asked. -/
theorem runBatch_of_asksNothing (h : AsksNothing headers selector body) :
    runBatch store selector parameters headers body =
      .silent (.ok (.empty (Shape.ofParameter parameters.format))) := by
  rcases planBatch_cases headers selector (Direction.ofParameter parameters.order) body with
    ⟨_, _, _, hasks, _⟩ | ⟨_, hplan⟩ | ⟨_, hnot, _⟩
  · exact absurd h hasks.not_asksNothing
  · simp only [runBatch, hplan]
  · exact absurd h hnot

/-- Any other batch is refused without a call. -/
theorem runBatch_of_refused (h : ¬ ∃ value batch, Asks headers selector body value batch)
    (hnothing : ¬ AsksNothing headers selector body) : ∃ error : ApiError,
      error.status = 400 ∧
      runBatch store selector parameters headers body = .silent (.error error) := by
  rcases planBatch_cases headers selector (Direction.ofParameter parameters.order) body with
    ⟨value, batch, _, hasks, _⟩ | ⟨hasks, _⟩ | ⟨_, _, error, hstatus, hplan⟩
  · exact absurd ⟨value, batch, hasks⟩ h
  · exact absurd hasks hnothing
  · refine ⟨error, hstatus, ?_⟩
    simp only [runBatch, hplan]

/-- Only a good batch takes a call. -/
theorem calls_runBatch_of_not_asks
    (h : ¬ ∃ value batch, Asks headers selector body value batch) :
    (runBatch store selector parameters headers body).calls = [] := by
  by_cases hnothing : AsksNothing headers selector body
  · rw [runBatch_of_asksNothing store parameters hnothing]
    rfl
  · obtain ⟨error, _, hrun⟩ := runBatch_of_refused store parameters h hnothing
    rw [hrun]
    rfl

end run

/-- **The store is asked once at most, and exactly for a selected database and a good batch.**
    Then it gets the query of the batch, and the status tells how it answered. Otherwise the
    status is 400, except that an empty batch is answered with an empty list in both shapes. -/
theorem runBatch_answered [Json.FloatReader] (store : Store) (selector : String)
    (parameters : Parameters) (headers : List (String × String)) (body : List UInt8)
    (requestId : String) :
    let run := runBatch store selector parameters headers body
    let answer := batchResponse requestId run.result
    run.calls.length ≤ 1 ∧
    (run.calls.length = 1 ↔ ∃ value batch, Asks headers selector body value batch) ∧
    (∀ value batch, Asks headers selector body value batch → ∃ query,
      Statement.ofBatch (Direction.ofParameter parameters.order) batch = .ok query ∧
      run.calls = [⟨Text.trim value, query⟩] ∧
      Answered (Shape.ofParameter parameters.format) batch
        (store.answer ⟨Text.trim value, query⟩) answer.status) ∧
    (AsksNothing headers selector body →
      run.calls = [] ∧ answer.status = 200 ∧ answer.body = "[]") ∧
    (run.calls = [] → ¬ AsksNothing headers selector body → answer.status = 400) := by
  intro run answer
  -- Everything depends on whether the store is asked, so both cases give all five parts.
  by_cases hasked : ∃ value batch, Asks headers selector body value batch
  · obtain ⟨value, batch, hasks⟩ := hasked
    obtain ⟨query, hquery, hrun⟩ := runBatch_of_asks store parameters hasks
    have hcalls : run.calls = [⟨Text.trim value, query⟩] := congrArg Exchange.calls hrun
    have hresult : run.result = shapeAnswer (Shape.ofParameter parameters.format) batch
        (store.answer ⟨Text.trim value, query⟩) := congrArg Exchange.result hrun
    rw [hcalls]
    refine ⟨Nat.le_refl 1, ⟨fun _ => ⟨value, batch, hasks⟩, fun _ => rfl⟩, ?_, ?_, ?_⟩
    · -- Whatever header value and batch are named, they are the ones that were asked for.
      intro value' batch' hasks'
      obtain ⟨rfl, rfl⟩ := hasks.unique hasks'
      refine ⟨query, hquery, rfl, ?_⟩
      simp only [answer, hresult]
      exact answered_shapeAnswer _ batch _ requestId
    · intro hnothing
      exact absurd hnothing hasks.not_asksNothing
    · intro hsilent
      cases hsilent
  · have hcalls : run.calls = [] := calls_runBatch_of_not_asks store parameters hasked
    rw [hcalls]
    refine ⟨Nat.zero_le 1, ⟨fun h => absurd h Nat.zero_ne_one, fun h => absurd h hasked⟩, ?_, ?_,
      ?_⟩
    · intro value batch hasks
      exact absurd ⟨value, batch, hasks⟩ hasked
    · intro hnothing
      refine ⟨rfl, ?_⟩
      simp only [answer, run, runBatch_of_asksNothing store parameters hnothing]
      exact ⟨rfl, toText_empty _⟩
    · intro _ hnothing
      obtain ⟨error, hstatus, hrun⟩ := runBatch_of_refused store parameters hasked hnothing
      simp only [answer, run, hrun]
      exact hstatus

/-- Headers of which the second one selects a database. -/
def selectingHeaders : List (String × String) :=
  [("Accept", "*/*"), ("x-userid", " telemetry\t"), ("X-UserId", "other")]

theorem selects_selectingHeaders : Selects selectingHeaders "X-UserId" " telemetry\t" where
  first := headerValue?_eq_some.1 (by decide)
  readable := by simp
  notBlank h := absurd (h 't' (by decide)) (by decide)

/-- A batch for a database that does not exist, and the empty batch. -/
theorem runBatch_answered_selectingHeaders :
    let store : Store := ⟨fun _ => .error (.notFound "database not found: telemetry"), true⟩
    let parameters : Parameters := ⟨some "table", some "ASC"⟩
    let body := Text.bytes "[\x7b\"measurement\":\"m\",\"columns\":[\x7b\"name\":\"c\"\x7d]\x7d]"
    let run := runBatch store "X-UserId" parameters selectingHeaders body
    let silent := runBatch store "X-UserId" parameters selectingHeaders (Text.bytes " []")
    Asks selectingHeaders "X-UserId" body " telemetry\t" [Request.ofColumns "m" ["c"]] ∧
    AsksNothing selectingHeaders "X-UserId" (Text.bytes " []") ∧
    run.calls = [⟨"telemetry", "SELECT \"c\" FROM \"m\" ORDER BY time ASC"⟩] ∧
    (batchResponse "id" run.result).status = 404 ∧
    silent.calls = [] ∧ (batchResponse "id" silent.result).body = "[]" := by
  intro store parameters body run silent
  have hasks : Asks selectingHeaders "X-UserId" body " telemetry\t"
      [Request.ofColumns "m" ["c"]] :=
    ⟨selects_selectingHeaders, by decide +kernel, by decide, by decide⟩
  have hnothing : AsksNothing selectingHeaders "X-UserId" (Text.bytes " []") :=
    ⟨⟨_, selects_selectingHeaders⟩, by decide +kernel⟩
  obtain ⟨-, -, hasked, -, -⟩ :=
    runBatch_answered store "X-UserId" parameters selectingHeaders body "id"
  obtain ⟨-, -, -, hempty, -⟩ :=
    runBatch_answered store "X-UserId" parameters selectingHeaders (Text.bytes " []") "id"
  obtain ⟨query, hquery, hcalls, hanswered⟩ := hasked _ _ hasks
  obtain ⟨hsilent, -, hbody⟩ := hempty hnothing
  have htext : query = "SELECT \"c\" FROM \"m\" ORDER BY time ASC" :=
    Except.ok.inj (hquery.symm.trans (by decide +kernel))
  refine ⟨hasks, hnothing, ?_, hanswered.notFound.2 ⟨_, rfl⟩, hsilent, hbody⟩
  rw [htext] at hcalls
  exact hcalls

end Http

end SeriesBroker
