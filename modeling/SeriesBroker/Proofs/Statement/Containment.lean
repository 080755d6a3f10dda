import SeriesBroker.Proofs.Statement.Harmless

/-! # What a caller sends stays in its tokens

    The names and strings of a request are the only texts in a query that a caller can choose
    freely. They can hold marks, backslashes, semicolons and words of the query language, and
    still each of them is read as one token, and the text outside of the tokens is the same
    whatever they are.

    The scan of `SeriesBroker.Proofs.Statement.Scan` finds the tokens of a batch that passes the
    check and the frame around them. What the two are like is put together in `Contained`.
-/

namespace SeriesBroker

/-! ### The texts that are quoted -/

/-- The texts of a filter that are quoted. -/
def Filter.quotedTexts (f : Filter) : List String := f.column :: f.value.asText?.toList

/-- The texts of a window that are quoted. -/
def Window.quotedTexts : Window → List String
  | .last _ => []
  | .between start stop => [start, stop]

/-- The texts of a request that are quoted, in the order in which they are written. -/
def Request.quotedTexts (r : Request) : List String :=
  r.columns.map Column.name ++ [r.measurement] ++ r.filters.flatMap Filter.quotedTexts ++
    r.window.toList.flatMap Window.quotedTexts

/-! ### Requests without their texts -/

/-- A filter without its quoted texts. The kind of its operand stays. -/
def Filter.blanked (f : Filter) : Filter :=
  { f with
    column := ""
    value := match f.value with
      | .string _ => .string ""
      | value => value }

/-- A window without its quoted texts. -/
def Window.blanked : Window → Window
  | .last duration => .last duration
  | .between _ _ => .between "" ""

/-- A request without its quoted texts. Two requests are the same without them if one becomes
    the other by replacing names and strings. -/
def Request.blanked (r : Request) : Request :=
  { r with
    measurement := ""
    window := r.window.map Window.blanked
    columns := r.columns.map fun c => { c with name := "" }
    filters := r.filters.map Filter.blanked }

namespace Statement

/-! ### Tokens -/

theorem tokensOf_mathPieces (before : String) (math : Option String) :
    tokensOf (mathPieces before math) = [] := by
  cases math <;> rfl

theorem tokensOf_columnPieces (c : Column) : tokensOf c.pieces = [c.name] := by
  rw [Column.pieces, tokensOf_append, tokensOf_mathPieces, List.append_nil]
  rcases c.aggregation? with _ | ⟨_, _ | _⟩
  · rfl
  · rfl
  · rfl

theorem tokensOf_filterPieces (f : Filter) : tokensOf f.pieces = f.quotedTexts := by
  have hvalue : f.value.piece.tokens = f.value.asText?.toList := by
    cases f.value <;> rfl
  simp [Filter.pieces, tokensOf_mathPieces, hvalue, Filter.quotedTexts]

theorem tokensOf_windowPieces (w : Window) : tokensOf (windowPieces w) = w.quotedTexts := by
  cases w <;> rfl

theorem tokensOf_wherePieces (conditions : List (List Piece)) :
    tokensOf (wherePieces conditions) = conditions.flatMap tokensOf := by
  cases conditions with
  | nil => rfl
  | cons condition conditions =>
    show tokensOf (.words " WHERE " :: joinPieces " AND " (condition :: conditions)) = _
    rw [tokensOf_cons, tokensOf_joinPieces]
    rfl

theorem tokensOf_limitPieces (limit : Option Int64) : tokensOf (limitPieces limit) = [] := by
  cases limit <;> rfl

/-- The tokens of a statement are the quoted texts of its request. -/
theorem tokensOf_requestPieces (r : Request) (direction : Direction) :
    tokensOf (r.pieces direction) = r.quotedTexts := by
  have hcolumns : (r.columns.map Column.pieces).flatMap tokensOf = r.columns.map Column.name := by
    rw [List.flatMap_map, List.map_eq_flatMap]
    exact List.flatMap_congr fun c _ => tokensOf_columnPieces c
  have hconditions : r.conditions.flatMap tokensOf =
      r.filters.flatMap Filter.quotedTexts ++ r.window.toList.flatMap Window.quotedTexts := by
    rw [Request.conditions, List.flatMap_append, List.flatMap_map]
    congr 1
    · exact List.flatMap_congr fun f _ => tokensOf_filterPieces f
    · cases r.window with
      | none => rfl
      | some w => simp [tokensOf_windowPieces]
  -- All other pieces are words, which are no tokens.
  simp only [Request.pieces, tokensOf_append, tokensOf_cons, tokensOf_nil, tokensOf_joinPieces,
    tokensOf_wherePieces, tokensOf_limitPieces, hcolumns, hconditions,
    Piece.tokens_words, Piece.tokens_name, Request.quotedTexts, List.append_assoc,
    List.nil_append, List.append_nil]

/-! ### Frames -/

theorem frameOf_filterPieces_blanked (f : Filter) :
    frameOf f.blanked.pieces = frameOf f.pieces := by
  have hvalue : f.blanked.value.piece.frame = f.value.piece.frame := by
    unfold Filter.blanked
    cases f.value <;> rfl
  have hmath : f.blanked.math = f.math := rfl
  have hcomparison : f.blanked.comparison = f.comparison := rfl
  simp only [Filter.pieces, frameOf_append, frameOf_cons, frameOf_nil, Piece.frame_name,
    Piece.frame_words, hvalue, hmath, hcomparison]

theorem frameOf_windowPieces_blanked (w : Window) :
    frameOf (windowPieces w.blanked) = frameOf (windowPieces w) := by
  cases w <;> rfl

/-- The frame of conditions depends on the frames of the single ones only. -/
theorem frameOf_wherePieces_congr {conditions others : List (List Piece)}
    (h : conditions.map frameOf = others.map frameOf) :
    frameOf (wherePieces conditions) = frameOf (wherePieces others) := by
  -- Equal frames are equally many, so one list of conditions is empty if the other one is.
  have hempty : conditions.isEmpty = others.isEmpty := by
    have hlength := congrArg List.length h
    rw [List.length_map, List.length_map] at hlength
    rw [Bool.eq_iff_iff, List.isEmpty_iff_length_eq_zero, List.isEmpty_iff_length_eq_zero, hlength]
  unfold wherePieces
  rw [hempty]
  split
  · rfl
  · rw [frameOf_cons, frameOf_cons, frameOf_joinPieces, frameOf_joinPieces, h]

/-- **The frame of a statement does not depend on the quoted texts.** -/
theorem frameOf_requestPieces_blanked (r : Request) (direction : Direction) :
    frameOf (r.blanked.pieces direction) = frameOf (r.pieces direction) := by
  have hcolumns : (r.blanked.columns.map Column.pieces).map frameOf =
      (r.columns.map Column.pieces).map frameOf := by
    simp only [Request.blanked, List.map_map]
    refine List.map_congr_left fun c _ => ?_
    simp only [Function.comp_apply, Column.pieces, frameOf_append]
    rw [frameOf_fieldPieces "" c.name]
    rfl
  have hconditions : r.blanked.conditions.map frameOf = r.conditions.map frameOf := by
    simp only [Request.blanked, Request.conditions, List.map_append, List.map_map]
    congr 1
    · exact List.map_congr_left fun f _ => frameOf_filterPieces_blanked f
    · cases r.window with
      | none => rfl
      | some w => simp [frameOf_windowPieces_blanked]
  have hinterval : r.blanked.interval = r.interval := rfl
  have hlimit : r.blanked.limit = r.limit := rfl
  simp only [Request.pieces, frameOf_append, frameOf_cons, frameOf_joinPieces, hcolumns,
    frameOf_wherePieces_congr hconditions, hinterval, hlimit, Piece.frame_name]

/-! ### Batches -/

/-- Of a character that no part has, as many stand in joined parts as the words bring. -/
theorem count_intercalate {α : Type} [BEq α] [LawfulBEq α] {c : α} {parts : List (List α)}
    (h : ∀ part ∈ parts, c ∉ part) (between : List α) :
    (List.intercalate between parts).count c = (parts.length - 1) * between.count c := by
  induction parts with
  | nil => rw [List.intercalate_nil, List.count_nil, List.length_nil, Nat.zero_mul]
  | cons part parts ih =>
    have hpart : part.count c = 0 := List.count_eq_zero.2 (h part List.mem_cons_self)
    have hrest := ih fun p hp => h p (List.mem_cons_of_mem part hp)
    cases parts with
    | nil => simp [hpart]
    | cons next parts =>
      have hlength : (part :: next :: parts).length - 1 = (next :: parts).length - 1 + 1 := rfl
      rw [List.intercalate_cons_cons, List.count_append, List.count_append, hpart, hrest, hlength,
        Nat.add_mul, Nat.one_mul, Nat.zero_add, Nat.add_comm]

/-- What a reader of a query can rely on who parts it into tokens and the rest. -/
structure Contained (direction : Direction) (batch : List Request) (query : String) : Prop where
  /-- No token is left open. -/
  closed : (scan query).place = .outside
  /-- The tokens are what the caller sent. -/
  tokens : (scan query).tokens = batch.flatMap Request.quotedTexts
  /-- Outside of the tokens, there is a semicolon with a space between every two statements,
      and no statement has one of its own. -/
  parted : ∃ statements, batch.mapM (ofRequest direction) = .ok statements ∧
    (scan query).frame =
      List.intercalate [some ';', some ' '] (statements.map fun text => (scan text).frame) ∧
    ∀ text ∈ statements, some ';' ∉ (scan text).frame
  semicolons : (scan query).frame.count (some ';') = batch.length - 1
  noLineComment : ¬ [some '-', some '-'] <:+: (scan query).frame
  noBlockComment : ¬ [some '/', some '*'] <:+: (scan query).frame
  /-- Other names and strings give another query with the same rest. -/
  fixed : ∀ other : List Request, checkRequests other = .ok () →
    other.map Request.blanked = batch.map Request.blanked →
    ∃ query', ofBatch direction other = .ok query' ∧ (scan query').frame = (scan query).frame

/-- The frame of a query is made of those of its statements. -/
theorem frameOf_queryPieces (direction : Direction) (batch : List Request) :
    frameOf (queryPieces direction batch) =
      List.intercalate [some ';', some ' ']
        (batch.map fun r => frameOf (r.pieces direction)) := by
  rw [queryPieces, frameOf_joinPieces, List.map_map]
  rfl

/-- The frame of a query does not depend on the quoted texts. -/
theorem frameOf_queryPieces_congr (direction : Direction) {batch other : List Request}
    (h : other.map Request.blanked = batch.map Request.blanked) :
    frameOf (queryPieces direction other) = frameOf (queryPieces direction batch) := by
  have hblanked : ∀ batch : List Request,
      (batch.map fun r => frameOf (r.pieces direction)) =
        (batch.map Request.blanked).map fun r => frameOf (r.pieces direction) := by
    intro batch
    rw [List.map_map]
    exact List.map_congr_left fun r _ => (frameOf_requestPieces_blanked r direction).symm
  rw [frameOf_queryPieces, frameOf_queryPieces, hblanked other, hblanked batch, h]

section batch

variable {batch : List Request} (h : ∀ r ∈ batch, r.WellFormed) (direction : Direction)

include h

/-- Whatever holds of harmless frames and of the words between statements, and of whatever is put
    together from what it holds of, holds of the frame of a query. -/
theorem frameOf_queryPieces_induction {P : Frame → Prop} (hnil : P [])
    (happend : ∀ l m, P l → P m → P (l ++ m)) (hbetween : P [some ';', some ' '])
    (hharmless : ∀ frame, Harmless frame → P frame) :
    P (frameOf (queryPieces direction batch)) := by
  rw [frameOf_queryPieces]
  refine intercalate_induction hnil happend hbetween ?_
  intro frame hframe
  obtain ⟨r, hr, rfl⟩ := List.mem_map.1 hframe
  exact hharmless _ (.requestPieces (h r hr) direction)

/-- The scan of a query finds its pieces. -/
theorem scan_queryPieces :
    scan (render (queryPieces direction batch)) =
      ⟨.outside, frameOf (queryPieces direction batch), batch.flatMap Request.quotedTexts⟩ := by
  have hunquoted : Unquoted (frameOf (queryPieces direction batch)) :=
    frameOf_queryPieces_induction h direction (by decide) (fun _ _ => Unquoted.append) (by decide)
      fun _ hframe => hframe.unquoted
  rw [scan_render hunquoted, queryPieces, tokensOf_joinPieces, List.flatMap_map]
  simp only [tokensOf_requestPieces]

/-- No statement has a semicolon outside of its tokens. -/
theorem undivided_requestPieces :
    ∀ frame ∈ batch.map fun r => frameOf (r.pieces direction), some ';' ∉ frame := by
  intro frame hframe
  obtain ⟨r, hr, rfl⟩ := List.mem_map.1 hframe
  exact (Harmless.requestPieces (h r hr) direction).undivided

/-- The statements of a batch, scanned one by one, have the frames of their pieces. -/
theorem map_scan_statements :
    (batch.map fun r => render (r.pieces direction)).map (fun text => (scan text).frame) =
      batch.map fun r => frameOf (r.pieces direction) := by
  rw [List.map_map]
  refine List.map_congr_left fun r hr => ?_
  show (scan (render (r.pieces direction))).frame = frameOf (r.pieces direction)
  rw [scan_render (Harmless.requestPieces (h r hr) direction).unquoted]

end batch

/-- **No text of a caller escapes its token.** A batch that passes the check becomes a query
    whose tokens are the names and strings of the batch, in order, and whose rest has one
    semicolon between statements, opens no comment, and does not depend on the tokens. -/
theorem contained_ofBatch {batch : List Request} (h : checkRequests batch = .ok ())
    (direction : Direction) :
    ∃ query, ofBatch direction batch = .ok query ∧ Contained direction batch query := by
  refine ⟨_, ofBatch_of_check h direction, ?_⟩
  have hwell := checkRequests_eq_ok.1 h
  have hscan := scan_queryPieces hwell direction
  have hundivided := undivided_requestPieces hwell direction
  have hstatements := map_scan_statements hwell direction
  -- Statements open no comment, and neither does what stands between two of them.
  have huncommented : Uncommented (frameOf (queryPieces direction batch)) :=
    frameOf_queryPieces_induction hwell direction (by decide) (fun _ _ => Uncommented.append)
      (by decide) fun _ hframe => hframe.uncommented
  constructor
  case closed => rw [hscan]
  case tokens => rw [hscan]
  case parted =>
    refine ⟨batch.map fun r => render (r.pieces direction),
      mapM_eq_ok fun r hr => ofRequest_of_wellFormed (hwell r hr) direction, ?_, ?_⟩
    · rw [hscan, hstatements]
      exact frameOf_queryPieces direction batch
    · intro text htext
      exact hundivided _ (hstatements ▸ List.mem_map_of_mem htext)
  case semicolons =>
    -- No statement has a semicolon of its own, so only those between statements are counted.
    have hcount := count_intercalate hundivided [some ';', some ' ']
    rw [← frameOf_queryPieces, List.length_map] at hcount
    rw [hscan]
    exact hcount.trans (Nat.mul_one _)
  case noLineComment =>
    rw [hscan]
    exact huncommented.not_infix (by decide)
  case noBlockComment =>
    rw [hscan]
    exact huncommented.not_infix (by decide)
  case fixed =>
    -- The other batch has the same frame because it is the same without its quoted texts.
    intro other hother hblanked
    refine ⟨_, ofBatch_of_check hother direction, ?_⟩
    rw [hscan, scan_queryPieces (checkRequests_eq_ok.1 hother) direction]
    exact frameOf_queryPieces_congr direction hblanked

/-- A batch whose names and strings look like the end of a token and a statement of their own. -/
def hostileBatch : List Request :=
  [{ Request.ofColumns "m\"; DROP" ["c\\", "a\" -- '"] with
      filters := [⟨"f'", some "-1", ">", .string "it's \\\"; /* "⟩]
      window := some (.last "1d") },
    Request.ofColumns "m" ["c"]]

/-- The hostile batch passes the check and is contained. -/
theorem contained_ofBatch_hostileBatch : checkRequests hostileBatch = .ok () ∧
    ∃ query, ofBatch .ascending hostileBatch = .ok query ∧
      Contained .ascending hostileBatch query :=
  have h : checkRequests hostileBatch = .ok () := by decide
  ⟨h, contained_ofBatch h .ascending⟩

end Statement

end SeriesBroker
