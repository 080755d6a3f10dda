import SeriesBroker.Command.Run
import SeriesBroker.Http.Queries
import SeriesBroker.Proofs.Statement.Compile

/-! # Checked batches are compiled

    A batch that passes the check has a query in each direction (`Statement.ofBatch_of_check`).
    Both ways into the broker check a batch before they compile it, so the faults of compiling
    are never seen outside: the HTTP interface does not answer one
    (`Http.planBatch_ne_uncompilable`), and on the command line a batch that could be read is
    compiled to a text (`Command.compiled_of_check`), whatever the surroundings are.

    Key idea for the command line: reading a batch is the only place where batches come from, and
    it lets none through that does not pass the check. So what follows the reading may be
    replaced by anything that does the same for checked batches (`Command.readBatch_bind_congr`).
-/

namespace SeriesBroker

namespace Http

/-- Planning a batch fails before it is compiled, or not at all. -/
theorem planBatch_ne_uncompilable [Json.FloatReader] (headers : List (String × String))
    (selector : String) (direction : Direction) (body : List UInt8) (fault : CompileFault) :
    planBatch headers selector direction body ≠ .error (.query (.uncompilable fault)) := by
  intro h
  unfold planBatch at h
  cases hdatabase : database? headers selector with
  | none => simp [hdatabase] at h
  | some database =>
    cases hbody : Json.decodeBytes readRequests body with
    | error decodeFault => simp [hdatabase, hbody, bind, Except.bind] at h
    | ok batch =>
      cases hcheck : checkRequests batch with
      | error checkFault =>
        simp [hdatabase, hbody, hcheck, bind, Except.bind, pure, Except.pure] at h
      | ok u =>
        -- From here on the batch has a query, so the branch with the fault is not taken.
        have hquery := Statement.ofBatch_of_check hcheck direction
        simp only [hdatabase, hbody, hcheck, hquery, bind, Except.bind, pure, Except.pure] at h
        split at h
        · cases h
        · cases h

/-- Neither the store nor the shape of an answer makes a fault of compiling. -/
theorem shapeAnswer_ne_uncompilable (shape : Shape) (requests : List Request)
    (answer : Except StoreError Envelope) (fault : CompileFault) :
    shapeAnswer shape requests answer ≠ .error (.query (.uncompilable fault)) := by
  intro h
  unfold shapeAnswer at h
  split at h
  · cases h
  · split at h
    · cases h
    · cases h

theorem runBatch_ne_uncompilable [Json.FloatReader] (store : Store) (selector : String)
    (parameters : Parameters) (headers : List (String × String)) (body : List UInt8)
    (fault : CompileFault) :
    (runBatch store selector parameters headers body).result ≠
      .error (.query (.uncompilable fault)) := by
  have hplanned := planBatch_ne_uncompilable headers selector
    (Direction.ofParameter parameters.order) body fault
  unfold runBatch
  dsimp only
  split
  · next error hplan =>
    intro h
    apply hplanned
    rw [hplan]
    exact congrArg Except.error (Except.error.inj h)
  · intro h
    cases h
  · exact shapeAnswer_ne_uncompilable _ _ _ fault

end Http

namespace Command

/-- The text of a batch that passes the check. -/
def checkedText (order : String) (batch : List Request) : String :=
  Statement.render (Statement.queryPieces (.ofParameter (some order)) batch)

theorem compiled_of_check {batch : List Request} (h : checkRequests batch = .ok ())
    (order : String) : compiled order batch = .ok (checkedText order batch) := by
  unfold compiled
  rw [Statement.ofBatch_of_check h]
  rfl

/-- Reading a batch fails with a cause, which a fault of compiling does not have. -/
theorem batchOf_ne_uncompilable [Json.FloatReader] (source : String)
    (content : Except FileFault String) (fault : CompileFault) :
    batchOf source content ≠ .error (.ofQuery (.uncompilable fault)) := by
  intro h
  unfold batchOf at h
  split at h
  · exact absurd (congrArg Failure.causes (Except.error.inj h)) (List.cons_ne_nil _ _)
  · split at h
    · exact absurd (congrArg Failure.causes (Except.error.inj h)) (List.cons_ne_nil _ _)
    · split at h
      · exact absurd (congrArg Failure.causes (Except.error.inj h)) (List.cons_ne_nil _ _)
      · cases h

/-- A batch that could be read passes the check. -/
theorem check_of_batchOf [Json.FloatReader] {source : String} {content : Except FileFault String}
    {batch : List Request} (h : batchOf source content = .ok batch) :
    checkRequests batch = .ok () := by
  unfold batchOf at h
  split at h
  · cases h
  · split at h
    · cases h
    · split at h
      · cases h
      · next hcheck =>
        cases h
        exact hcheck

section

variable [Json.FloatReader] {m : Type → Type} [Monad m] [LawfulMonad m] (s : Surroundings m)

/-- What follows the reading of a batch only meets failures and batches that pass the check. -/
theorem readBatch_bind_congr {α : Type} (input : Option String)
    {f g : Except Failure (List Request) → m α}
    (hfailure : ∀ failure, f (.error failure) = g (.error failure))
    (hbatch : ∀ batch, checkRequests batch = .ok () → f (.ok batch) = g (.ok batch)) :
    readBatch s input >>= f = readBatch s input >>= g := by
  have hread : ∀ source content, f (batchOf source content) = g (batchOf source content) := by
    intro source content
    cases h : batchOf source content with
    | error failure => exact hfailure failure
    | ok batch => exact hbatch batch (check_of_batchOf h)
  unfold readBatch
  cases input with
  | none => simp only [bind_assoc, pure_bind, hread]
  | some path => simp only [bind_assoc, pure_bind, hread]

/-- The command that compiles a batch: if the batch can be read, there is a text to print. -/
theorem report_compile [Url.NameReader] (i : Invocation) (input : Option String) (order : String)
    (hcommand : i.command = .compile input order) :
    report s i = readBatch s input >>= fun
      | .error failure => pure (.silent (.error failure))
      | .ok batch => pure (.silent (.ok (statementLines (checkedText order batch)))) := by
  unfold report
  rw [hcommand]
  apply readBatch_bind_congr
  · intro failure
    rfl
  · intro batch hcheck
    show pure (Logged.silent ((compiled order batch).map statementLines)) = _
    rw [compiled_of_check hcheck]
    rfl

/-- The command that runs a batch: if the batch can be read, its text goes to the store. -/
theorem report_query [Url.NameReader] (i : Invocation) (database : String) (input : Option String)
    (shape order : String) (hcommand : i.command = .query database input shape order) :
    report s i = readBatch s input >>= fun
      | .error failure => pure (.silent (.error failure))
      | .ok batch =>
        if batch.isEmpty then pure (.silent (.ok "[]\n"))
        else
          withClient s i fun client =>
            reportOf ((s.reach client).execute ⟨database, checkedText order batch⟩)
              (answerOutput shape batch) := by
  unfold report
  rw [hcommand]
  apply readBatch_bind_congr
  · intro failure
    rfl
  · intro batch hcheck
    show runBatch s i database shape order batch = _
    unfold runBatch
    rw [compiled_of_check hcheck]

end

end Command

/-- **A batch that passes the check is always compiled.** So no request over HTTP is answered with
    a fault of compiling, whatever the store is. On the command line, in any surroundings, reading
    a batch does not fail with such a fault, and a batch that could be read has a text: it is
    printed by the one command, and asked of the store by the other unless the batch is empty. -/
theorem compiles_of_check [Json.FloatReader] [Url.NameReader] :
    (∀ (batch : List Request) (direction : Direction), checkRequests batch = .ok () →
      ∃ query, Statement.ofBatch direction batch = .ok query) ∧
    (∀ (store : Store) (selector : String) (parameters : Http.Parameters)
        (headers : List (String × String)) (body : List UInt8) (fault : CompileFault),
      (Http.runBatch store selector parameters headers body).result ≠
        .error (.query (.uncompilable fault))) ∧
    (∀ (source : String) (content : Except FileFault String) (fault : CompileFault),
      Command.batchOf source content ≠ .error (.ofQuery (.uncompilable fault))) ∧
    (∀ (m : Type → Type) [Monad m] [LawfulMonad m] (s : Surroundings m) (i : Invocation)
        (input : Option String) (order : String), i.command = .compile input order →
      Command.report s i = Command.readBatch s input >>= fun
        | .error failure => pure (.silent (.error failure))
        | .ok batch =>
          pure (.silent (.ok (Command.statementLines (Command.checkedText order batch))))) ∧
    (∀ (m : Type → Type) [Monad m] [LawfulMonad m] (s : Surroundings m) (i : Invocation)
        (database : String) (input : Option String) (shape order : String),
      i.command = .query database input shape order →
      Command.report s i = Command.readBatch s input >>= fun
        | .error failure => pure (.silent (.error failure))
        | .ok batch =>
          if batch.isEmpty then pure (.silent (.ok "[]\n"))
          else
            Command.withClient s i fun client =>
              Command.reportOf
                ((s.reach client).execute ⟨database, Command.checkedText order batch⟩)
                (Command.answerOutput shape batch)) := by
  refine ⟨?_, Http.runBatch_ne_uncompilable, Command.batchOf_ne_uncompilable, ?_, ?_⟩
  · intro batch direction hcheck
    exact ⟨_, Statement.ofBatch_of_check hcheck direction⟩
  · intro m _ _ s i input order hcommand
    exact Command.report_compile s i input order hcommand
  · intro m _ _ s i database input shape order hcommand
    exact Command.report_query s i database input shape order hcommand

/-- A batch with every part that compiling looks at, and both commands on a disk without files. -/
theorem compiles_of_check_everyPart :
    let batch := [{ Request.ofColumns "m" ["c1"] with
      columns := [⟨"c1", some "difference-mean", some "*2"⟩, ⟨"c2", none, none⟩]
      filters := [⟨"c3", some "+1", "<>", .string "x"⟩, ⟨"c4", none, "<=", .bool true⟩]
      window := some (.last "1d")
      interval := some "1h" }]
    let s := Surroundings.inMemory (fun _ => none) "[]"
    let compile : Invocation := ⟨.compile none "asc", none, none, false⟩
    let query : Invocation := ⟨.query "db" none "table" "asc", none, none, false⟩
    (checkRequests batch = .ok () ∧
        ∃ query, Statement.ofBatch .ascending batch = .ok query) ∧
      (compile.command = .compile none "asc" ∧
        Command.report s compile = Command.readBatch s none >>= fun
          | .error failure => pure (.silent (.error failure))
          | .ok batch =>
            pure (.silent (.ok (Command.statementLines (Command.checkedText "asc" batch))))) ∧
      (query.command = .query "db" none "table" "asc" ∧
        Command.report s query = Command.readBatch s none >>= fun
          | .error failure => pure (.silent (.error failure))
          | .ok batch =>
            if batch.isEmpty then pure (.silent (.ok "[]\n"))
            else
              Command.withClient s query fun client =>
                Command.reportOf
                  ((s.reach client).execute ⟨"db", Command.checkedText "asc" batch⟩)
                  (Command.answerOutput "table" batch)) := by
  intro batch s compile query
  have hcheck : checkRequests batch = .ok () := rfl
  obtain ⟨hquery, -, -, hcompile, hrun⟩ := compiles_of_check
  exact ⟨⟨hcheck, hquery batch .ascending hcheck⟩,
    ⟨rfl, hcompile _ s compile none "asc" rfl⟩, ⟨rfl, hrun _ s query "db" none "table" "asc" rfl⟩⟩

end SeriesBroker
