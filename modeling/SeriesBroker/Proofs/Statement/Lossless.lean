import SeriesBroker.Proofs.Statement.Clauses

/-! # No two batches have the same query

    The text of a query determines the batch it was made of, up to numbers with the same text.
    The clauses of a statement are read off one after another, each by its own lemma of
    `SeriesBroker.Proofs.Statement.Clauses`, with all that follows it as the rest. What a clause
    needs of the rest is its first one or two characters.
-/

namespace SeriesBroker

/-- The same request, up to the texts of numbers in filters. -/
structure Request.Same (r s : Request) : Prop where
  measurement : r.measurement = s.measurement
  columns : r.columns = s.columns
  filters : List.Forall₂ Filter.Same r.filters s.filters
  window : r.window = s.window
  limit : r.limit = s.limit
  interval : r.interval = s.interval

namespace Statement

/-! ### Conditions -/

inductive Condition where
  | filter (f : Filter)
  | window (w : Window)

def Condition.pieces : Condition → List Piece
  | .filter f => f.pieces
  | .window w => windowPieces w

/-- A condition that keeps the rules. -/
def Condition.WellFormed : Condition → Prop
  | .filter f => f.WellFormed
  | .window w => w.WellFormed

/-- The same condition, up to the text of a number. -/
def Condition.Same : Condition → Condition → Prop
  | .filter f, .filter g => f.Same g
  | .window v, .window w => v = w
  | _, _ => False

/-- The conditions of filters and a window. -/
def conditions (filters : List Filter) (window : Option Window) : List Condition :=
  filters.map .filter ++ (window.map .window).toList

theorem map_pieces_conditions (r : Request) :
    (conditions r.filters r.window).map Condition.pieces = r.conditions := by
  rw [conditions, Request.conditions, List.map_append, List.map_map]
  cases r.window <;> rfl

theorem wellFormed_of_mem_conditions {r : Request} (h : r.WellFormed) {c : Condition}
    (hc : c ∈ conditions r.filters r.window) : c.WellFormed := by
  rcases List.mem_append.1 hc with hmem | hmem
  · obtain ⟨f, hf, rfl⟩ := List.mem_map.1 hmem
    exact h.filters f hf
  · obtain ⟨w, hw, rfl⟩ := Option.map_eq_some_iff.1 (Option.mem_toList.1 hmem)
    exact h.window w hw

/-- A filter starts with a mark and a window does not. -/
theorem filter_ne_window (f : Filter) (w : Window) (r s : List Char) :
    written f.pieces ++ r ≠ written (windowPieces w) ++ s := by
  intro h
  have hfilter : ∃ more, written f.pieces ++ r = '"' :: more := by
    rw [written_filterPieces]
    exact quoteName_append f.column _
  have hwindow : ∃ more, written (windowPieces w) ++ s = 't' :: more := by
    cases w with
    | last duration => exact ⟨_, written_windowPieces_last duration s⟩
    | between start stop => exact ⟨_, written_windowPieces_between start stop s⟩
  obtain ⟨more, hmore⟩ := hfilter
  obtain ⟨more', hmore'⟩ := hwindow
  rw [hmore, hmore'] at h
  have hhead := (List.cons.inj h).1
  revert hhead
  decide

/-- A condition can be told from what follows it. -/
theorem condition_cancel {a b : Condition} (ha : a.WellFormed) (hb : b.WellFormed)
    {r s : List Char} (hr : Stops (fun c => c ≠ ' ') r) (hs : Stops (fun c => c ≠ ' ') s)
    (h : written a.pieces ++ r = written b.pieces ++ s) : a.Same b ∧ r = s := by
  cases a with
  | filter f =>
    cases b with
    | filter g => exact filter_cancel ha hb hr hs h
    | window w => exact absurd h (filter_ne_window f w r s)
  | window v =>
    cases b with
    | filter g => exact absurd h.symm (filter_ne_window g v s r)
    | window w => exact window_cancel ha hb hr hs h

/-- Of the same conditions, the filters and the windows are the same. -/
theorem same_of_conditions {fs gs : List Filter} {v w : Option Window}
    (h : List.Forall₂ Condition.Same (conditions fs v) (conditions gs w)) :
    List.Forall₂ Filter.Same fs gs ∧ v = w := by
  -- The window is the last condition, so it stands against a filter if the numbers differ.
  induction fs generalizing gs with
  | nil =>
    cases gs with
    | nil =>
      refine ⟨.nil, ?_⟩
      cases v with
      | none =>
        cases w with
        | none => rfl
        | some y => cases h
      | some x =>
        cases w with
        | none => cases h
        | some y =>
          cases h with
          | cons hxy _ => exact congrArg some hxy
    | cons g gs =>
      cases v with
      | none => cases h
      | some x =>
        cases h with
        | cons hxg _ => exact hxg.elim
  | cons f fs ih =>
    cases gs with
    | nil =>
      cases w with
      | none => cases h
      | some y =>
        cases h with
        | cons hfy _ => exact hfy.elim
    | cons g gs =>
      cases h with
      | cons hfg hrest =>
        obtain ⟨hfilters, hwindow⟩ := ih hrest
        exact ⟨.cons hfg hfilters, hwindow⟩

/-! ### The end of a statement -/

/-- The words for the order start neither like a condition nor like the first of them. -/
structure AfterConditions (rest : List Char) : Prop where
  stops : Stops (fun c => c ≠ ' ') rest
  not_and : ¬ " AND ".toList <+: rest
  not_where : ¬ " WHERE ".toList <+: rest

theorem afterConditions_order (direction : Direction) (interval : Option String)
    (rest : List Char) : AfterConditions ((orderWords direction interval).toList ++ rest) := by
  have hwords : ∃ c more, (orderWords direction interval).toList ++ rest = ' ' :: c :: more ∧
      c ≠ 'A' ∧ c ≠ 'W' := by
    cases interval with
    | none =>
      refine ⟨'O', "RDER BY time ".toList ++ direction.keyword.toList ++ rest, ?_, by decide⟩
      rw [toList_orderWords_none]
      rfl
    | some text =>
      refine ⟨'G', "ROUP BY time(".toList ++ (text.toList ++ [')']) ++ rest, ?_, by decide⟩
      rw [toList_orderWords_some]
      rfl
  obtain ⟨c, more, hrest, hand, hwhere⟩ := hwords
  rw [hrest]
  refine ⟨.cons (by decide) _, fun hprefix => ?_, fun hprefix => ?_⟩
  · exact hand (List.cons_prefix_cons.1 (List.cons_prefix_cons.1 hprefix).2).1.symm
  · exact hwhere (List.cons_prefix_cons.1 (List.cons_prefix_cons.1 hprefix).2).1.symm

/-- The conditions can be told from what follows them, also if there are none. -/
theorem where_cancel {l m : List Condition} (hl : ∀ c ∈ l, c.WellFormed)
    (hm : ∀ c ∈ m, c.WellFormed) {r s : List Char} (hr : AfterConditions r)
    (hs : AfterConditions s)
    (h : written (wherePieces (l.map Condition.pieces)) ++ r =
      written (wherePieces (m.map Condition.pieces)) ++ s) :
    List.Forall₂ Condition.Same l m ∧ r = s := by
  have hwritten : ∀ {l : List Condition} {r : List Char}, l ≠ [] →
      written (wherePieces (l.map Condition.pieces)) ++ r = " WHERE ".toList ++
        (List.intercalate " AND ".toList (l.map fun c => written c.pieces) ++ r) := by
    intro l r hne
    have hnonempty : (l.map Condition.pieces).isEmpty = false := by simpa using hne
    rw [wherePieces, hnonempty, if_neg Bool.false_ne_true, written_cons, written_joinPieces,
      List.map_map, List.append_assoc]
    rfl
  have hspace : ∀ r, Stops (fun c => c ≠ ' ') (" AND ".toList ++ r) :=
    fun r => .cons (by decide) _
  -- Conditions on one side only would stand where the order of the other side starts.
  by_cases hlne : l = []
  · by_cases hmne : m = []
    · subst hlne
      subst hmne
      exact ⟨.nil, h⟩
    · subst hlne
      rw [hwritten hmne] at h
      exact absurd ⟨_, h.symm⟩ hr.not_where
  · rw [hwritten hlne] at h
    by_cases hmne : m = []
    · subst hmne
      exact absurd ⟨_, h⟩ hs.not_where
    · rw [hwritten hmne] at h
      exact joined_cancel (fun _ _ _ _ ha hb hr hs => condition_cancel ha hb hr hs) hspace hl hm
        hlne hmne hr.stops hs.stops hr.not_and hs.not_and (List.append_cancel_left h)

/-- The order or the interval can be told from what follows it. -/
theorem order_cancel {direction : Direction} {i j : Option String}
    (hi : ∀ text ∈ i, Duration.accepts text) (hj : ∀ text ∈ j, Duration.accepts text)
    {r s : List Char}
    (h : (orderWords direction i).toList ++ r = (orderWords direction j).toList ++ s) :
    i = j ∧ r = s := by
  -- The two kinds of words differ in their second character.
  have hsome : ∀ (text : String) (r : List Char),
      (orderWords direction (some text)).toList ++ r =
        " GROUP BY time(".toList ++ (text.toList ++ ')' :: r) := by
    intro text r
    rw [toList_orderWords_some, List.append_assoc, List.append_assoc]
    rfl
  have hnone : ∀ r : List Char, (orderWords direction none).toList ++ r =
      " ORDER BY time ".toList ++ (direction.keyword.toList ++ r) := by
    intro r
    rw [toList_orderWords_none, List.append_assoc]
  have hapart : ∀ r s : List Char,
      " GROUP BY time(".toList ++ r ≠ " ORDER BY time ".toList ++ s := by
    intro r s heq
    have hhead := (List.cons.inj (List.cons.inj heq).2).1
    revert hhead
    decide
  have hstops : ∀ r : List Char, Stops (fun c => c ≠ ')') (')' :: r) := .cons (by decide)
  cases i with
  | none =>
    cases j with
    | none => exact ⟨rfl, List.append_cancel_left h⟩
    | some text =>
      rw [hnone, hsome] at h
      exact absurd h.symm (hapart _ _)
  | some text =>
    cases j with
    | none =>
      rw [hnone, hsome] at h
      exact absurd h (hapart _ _)
    | some text' =>
      -- An interval ends at the bracket, as no duration has one.
      rw [hsome, hsome] at h
      obtain ⟨htext, hrest⟩ := span_cancel
        (fun _ hc => (Duration.ne_of_accepts (hi text rfl) hc).2)
        (fun _ hc => (Duration.ne_of_accepts (hj text' rfl) hc).2) (hstops r) (hstops s)
        (List.append_cancel_left h)
      exact ⟨congrArg some (String.toList_inj.1 htext), (List.cons.inj hrest).2⟩

/-- A positive integer can be read back from its text. -/
theorem intText_injective {m n : Int} (hm : 1 ≤ m) (hn : 1 ≤ n)
    (h : Json.intText m = Json.intText n) : m = n := by
  have hpos : ∀ {n : Int}, 1 ≤ n →
      (Nat.ofDigitChars 10 (Json.intText n) 0 : Int) = n := by
    intro n hn
    have hnot : ¬ n < 0 := by omega
    rw [Json.intText, if_neg hnot, Nat.ofDigitChars_ten_toDigits]
    omega
  rw [← hpos hm, ← hpos hn, h]

/-- A limit can be told from the end of its statement. -/
theorem limit_cancel {m n : Option Int64} (hm : ∀ k ∈ m, 1 ≤ k.toInt)
    (hn : ∀ k ∈ n, 1 ≤ k.toInt) {r s : List Char} (hr : Stops (fun c => c ≠ ';') r)
    (hs : Stops (fun c => c ≠ ';') s)
    (h : written (limitPieces m) ++ r = written (limitPieces n) ++ s) : m = n ∧ r = s := by
  have hsome : ∀ (k : Int64) (r : List Char), written (limitPieces (some k)) ++ r =
      " LIMIT ".toList ++ (Json.intText k.toInt ++ r) := by
    intro k r
    simp [limitPieces]
  -- What follows a limit is a semicolon or the end, and no number has a semicolon.
  have hword : ∀ k : Int64, ∀ c ∈ Json.intText k.toInt, c ≠ ';' := by
    intro k c hc
    have hsigns : ∀ d ∈ ['e', '+', '-'], d ≠ ';' := List.all_iff_forall_prop.1 (by decide)
    rcases (Json.decimal_intText k.toInt).mem hc with hnumeric | hsign
    · exact hnumeric.ne (by decide)
    · exact hsigns c hsign
  have hapart : ∀ {r : List Char} (s : List Char), Stops (fun c => c ≠ ';') r →
      r ≠ " LIMIT ".toList ++ s := by
    intro r s hr heq
    exact hr ' ' (by rw [heq]; rfl) (by decide)
  cases m with
  | none =>
    cases n with
    | none => exact ⟨rfl, h⟩
    | some k =>
      rw [hsome] at h
      exact absurd h (hapart _ hr)
  | some k =>
    cases n with
    | none =>
      rw [hsome] at h
      exact absurd h.symm (hapart _ hs)
    | some k' =>
      rw [hsome, hsome] at h
      obtain ⟨hdigits, hrest⟩ := span_cancel (hword k) (hword k') hr hs
        (List.append_cancel_left h)
      have hint := intText_injective (hm k rfl) (hn k' rfl) hdigits
      exact ⟨congrArg some (Int64.toInt_inj.1 hint), hrest⟩

/-! ### Statements and batches -/

/-- The text of a statement, clause by clause. -/
theorem written_requestPieces (r : Request) (direction : Direction) (rest : List Char) :
    written (r.pieces direction) ++ rest = "SELECT ".toList ++
      (List.intercalate ", ".toList (r.columns.map fun c => written c.pieces) ++
        (" FROM ".toList ++ ((quoteName r.measurement).toList ++
          (written (wherePieces ((conditions r.filters r.window).map Condition.pieces)) ++
            ((orderWords direction r.interval).toList ++
              (written (limitPieces r.limit) ++ rest)))))) := by
  rw [map_pieces_conditions]
  simp only [Request.pieces, written_append, written_cons, written_nil, written_joinPieces,
    Piece.text_words, Piece.text_name, List.map_map, List.append_assoc, List.append_nil]
  rfl

/-- The columns end where the measurement is named. -/
theorem columns_cancel {windowed windowed' : Bool} {l m : List Column}
    (hl : ∀ c ∈ l, c.WellFormed windowed) (hm : ∀ c ∈ m, c.WellFormed windowed') (hlne : l ≠ [])
    (hmne : m ≠ []) {r s : List Char}
    (h : List.intercalate ", ".toList (l.map fun c => written c.pieces) ++ (" FROM ".toList ++ r) =
      List.intercalate ", ".toList (m.map fun c => written c.pieces) ++ (" FROM ".toList ++ s)) :
    l = m ∧ r = s := by
  have hread : ∀ (c d : Column) (r s : List Char), (∃ windowed, c.WellFormed windowed) →
      (∃ windowed, d.WellFormed windowed) → Stops (fun c => c ≠ ' ' ∧ c ≠ ',') r →
      Stops (fun c => c ≠ ' ' ∧ c ≠ ',') s → written c.pieces ++ r = written d.pieces ++ s →
      c = d ∧ r = s := by
    rintro c d r s ⟨_, hc⟩ ⟨_, hd⟩ hr hs h
    exact column_cancel hc hd hr hs h
  exact selected_cancel hread (fun c hc => ⟨_, hl c hc⟩) (fun c hc => ⟨_, hm c hc⟩) hlne hmne h

/-- A statement can be told from what follows it: the end, or a semicolon. -/
theorem request_cancel {direction : Direction} {q q' : Request} (hq : q.WellFormed)
    (hq' : q'.WellFormed) {r s : List Char} (hr : Stops (fun c => c ≠ ';') r)
    (hs : Stops (fun c => c ≠ ';') s)
    (h : written (q.pieces direction) ++ r = written (q'.pieces direction) ++ s) :
    q.Same q' ∧ r = s := by
  -- Each clause is cancelled with all that follows it as its rest.
  rw [written_requestPieces, written_requestPieces] at h
  obtain ⟨hcolumns, h⟩ := columns_cancel hq.columns hq'.columns hq.selected hq'.selected
    (List.append_cancel_left h)
  obtain ⟨hmeasurement, h⟩ := quoteName_cancel h
  obtain ⟨hconditions, h⟩ := where_cancel (fun _ => wellFormed_of_mem_conditions hq)
    (fun _ => wellFormed_of_mem_conditions hq') (afterConditions_order direction _ _)
    (afterConditions_order direction _ _) h
  obtain ⟨hfilters, hwindow⟩ := same_of_conditions hconditions
  obtain ⟨hinterval, h⟩ := order_cancel hq.grouped hq'.grouped h
  obtain ⟨hlimit, hrest⟩ := limit_cancel (fun k hk => (hq.limited k hk).1)
    (fun k hk => (hq'.limited k hk).1) hr hs h
  exact ⟨⟨hmeasurement, hcolumns, hfilters, hwindow, hlimit, hinterval⟩, hrest⟩

/-- The query of a batch that has members has text. -/
theorem joined_ne_nil (r : Request) (batch : List Request) (direction : Direction) :
    List.intercalate "; ".toList ((r :: batch).map fun r => written (r.pieces direction)) ≠ [] := by
  intro hnil
  obtain ⟨rest, hrest, _⟩ :=
    joined_cons (fun r => written (Request.pieces direction r)) "; ".toList r batch []
  rw [hnil, written_requestPieces, List.nil_append] at hrest
  have hselect := (List.append_eq_nil_iff.1 hrest.symm).1
  revert hselect
  decide

/-- **A query determines its batch.** If two batches that pass the check become the same query
    in the same direction, they have the same requests in the same order. -/
theorem same_of_ofBatch_eq {direction : Direction} {batch other : List Request}
    (h : checkRequests batch = .ok ()) (hother : checkRequests other = .ok ())
    (heq : ofBatch direction batch = ofBatch direction other) :
    List.Forall₂ Request.Same batch other := by
  have hquery : ∀ {batch : List Request}, checkRequests batch = .ok () →
      ∃ text, ofBatch direction batch = .ok text ∧ text.toList =
        List.intercalate "; ".toList (batch.map fun r => written (r.pieces direction)) := by
    intro batch h
    refine ⟨_, ofBatch_of_check h direction, ?_⟩
    rw [toList_render, queryPieces, written_joinPieces, List.map_map]
    rfl
  obtain ⟨text, htext, hchars⟩ := hquery h
  obtain ⟨text', htext', hchars'⟩ := hquery hother
  rw [htext, htext'] at heq
  cases heq
  have hjoined := hchars.symm.trans hchars'
  -- Only the batch without members has the query without text.
  cases batch with
  | nil =>
    cases other with
    | nil => exact .nil
    | cons q other => exact absurd hjoined.symm (joined_ne_nil q other direction)
  | cons q batch =>
    cases other with
    | nil => exact absurd hjoined (joined_ne_nil q batch direction)
    | cons q' other =>
      have hsemicolon : ∀ r, Stops (fun c => c ≠ ';') ("; ".toList ++ r) :=
        fun r => .cons (by decide) _
      have hend : Stops (fun c => c ≠ ';') [] := fun c hc => by cases hc
      have happend := congrArg (fun l => l ++ []) hjoined
      exact (joined_cancel (fun _ _ _ _ hq hq' hr hs => request_cancel hq hq' hr hs) hsemicolon
        (checkRequests_eq_ok.1 h) (checkRequests_eq_ok.1 hother) (List.cons_ne_nil q batch)
        (List.cons_ne_nil q' other) hend hend (by decide) (by decide) happend).1

/-- A batch whose filter on a column named `time` looks like its window. -/
def timeBatch : List Request :=
  [{ Request.ofColumns "m" ["c; SELECT"] with
      filters := [⟨"time", some "-1", ">", .string "now() - 1d"⟩]
      window := some (.last "1d") }]

/-- The batch passes the check, and is the only one with its query. -/
theorem same_of_ofBatch_eq_timeBatch : checkRequests timeBatch = .ok () ∧
    List.Forall₂ Request.Same timeBatch timeBatch :=
  have h : checkRequests timeBatch = .ok () := by decide
  ⟨h, same_of_ofBatch_eq h h (Eq.refl (ofBatch .ascending timeBatch))⟩

end Statement

end SeriesBroker
