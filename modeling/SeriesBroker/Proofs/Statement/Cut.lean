import SeriesBroker.Command.Run
import SeriesBroker.Proofs.Statement.Containment

/-! # Cutting a query into its statements

    The statements of a batch are put together with a semicolon and a space between them, and the
    command line takes the text apart there again. Between tokens only the places between two
    statements look like this. A token can look like it everywhere, and the cut does not know of
    tokens. So the pieces of the text are its statements exactly if no name and no string has a
    semicolon with a space after it (`cut_ofBatch_iff`).

    An empty batch has an empty text, and that is one piece without a statement.
-/

namespace SeriesBroker.Statement

/-! ### Places where a text is cut -/

/-- A text has a semicolon with a space after it. -/
def Divided (text : List Char) : Prop := [';', ' '] <:+: text

theorem divided_cons {c : Char} {text : List Char} :
    Divided (c :: text) ↔ (c = ';' ∧ text.head? = some ' ') ∨ Divided text := by
  unfold Divided
  rw [List.infix_cons_iff, List.cons_prefix_cons]
  have hhead : [' '] <+: text ↔ text.head? = some ' ' := by
    cases text with
    | nil => simp
    | cons d text => simp [List.cons_prefix_cons, eq_comm]
  rw [hhead, eq_comm]

theorem not_divided_nil : ¬ Divided [] := by
  intro h
  have := h.length_le
  simp at this

/-- Two texts that do not meet at a cut. -/
theorem divided_append {l m : List Char} (h : l.getLast? ≠ some ';') :
    Divided (l ++ m) ↔ Divided l ∨ Divided m := by
  induction l with
  | nil => simp [not_divided_nil]
  | cons c l ih =>
    cases l with
    | nil =>
      have hc : c ≠ ';' := by simpa using h
      simp [divided_cons, hc, not_divided_nil]
    | cons d l =>
      have hrest : (d :: l).getLast? ≠ some ';' := by
        rwa [List.getLast?_cons_cons] at h
      have hfirst : Divided (c :: d :: l) ↔ _ := divided_cons
      rw [List.cons_append, divided_cons, ih hrest, hfirst, or_assoc]
      simp

theorem getLast?_ne_of_not_mem {text : List Char} (h : ';' ∉ text) : text.getLast? ≠ some ';' :=
  fun hlast => h (List.mem_of_getLast? hlast)

theorem not_divided_of_not_mem {text : List Char} (h : ';' ∉ text) : ¬ Divided text :=
  fun hdivided => h (hdivided.subset List.mem_cons_self)

/-! ### The pieces of a text -/

theorem cutChars_ne_nil (text : List Char) : cutChars text ≠ [] := by
  fun_induction cutChars text with
  | case1 => simp
  | case2 rest => simp
  | case3 => simp
  | case4 => simp

/-- Where a text is not cut, a character belongs to the first piece. -/
theorem cutChars_cons {c : Char} {text : List Char} (h : ¬ (c = ';' ∧ text.head? = some ' ')) :
    cutChars (c :: text) = (cutChars text).modifyHead (c :: ·) := by
  have huncut : ∀ rest, c = ';' → text = ' ' :: rest → False := by
    intro rest hc htext
    apply h
    rw [htext]
    exact ⟨hc, rfl⟩
  rw [cutChars.eq_3 c text huncut]
  cases hpieces : cutChars text with
  | nil => exact absurd hpieces (cutChars_ne_nil text)
  | cons first others => rfl

/-- **A cut parts a text into two that are cut on their own.** -/
theorem cutChars_append (l m : List Char) :
    cutChars (l ++ ';' :: ' ' :: m) = cutChars l ++ cutChars m := by
  fun_induction cutChars l with
  | case1 => rfl
  | case2 rest ih =>
    show [] :: cutChars (rest ++ ';' :: ' ' :: m) = [] :: (cutChars rest ++ cutChars m)
    rw [ih]
  | case3 c rest hform hpieces ih => exact absurd hpieces (cutChars_ne_nil rest)
  | case4 c rest hform first others hpieces ih =>
    -- What stands after the character is as before, or the semicolon of the cut.
    have hplace : ¬ (c = ';' ∧ (rest ++ ';' :: ' ' :: m).head? = some ' ') := by
      intro h
      cases rest with
      | nil => simp at h
      | cons d rest =>
        have hd : d = ' ' := by simpa using h.2
        exact hform rest h.1 (by rw [hd])
    rw [List.cons_append, cutChars_cons hplace, ih, hpieces]
    rfl

/-- A text that is not divided is one piece. -/
theorem cutChars_of_not_divided {text : List Char} (h : ¬ Divided text) :
    cutChars text = [text] := by
  induction text with
  | nil => rfl
  | cons c text ih =>
    rw [divided_cons, not_or] at h
    rw [cutChars_cons h.1, ih h.2]
    rfl

/-- A divided text is more than one piece. -/
theorem one_lt_length_cutChars {text : List Char} (h : Divided text) :
    1 < (cutChars text).length := by
  obtain ⟨before, after, rfl⟩ := h
  have hcut : cutChars (before ++ [';', ' '] ++ after) = cutChars before ++ cutChars after := by
    rw [List.append_assoc]
    exact cutChars_append before after
  have hbefore := List.length_pos_of_ne_nil (cutChars_ne_nil before)
  have hafter := List.length_pos_of_ne_nil (cutChars_ne_nil after)
  rw [hcut, List.length_append]
  omega

/-- Joined parts are cut into the pieces of each part. -/
theorem cutChars_intercalate {parts : List (List Char)} (h : parts ≠ []) :
    cutChars (List.intercalate [';', ' '] parts) = parts.flatMap cutChars := by
  induction parts with
  | nil => exact absurd rfl h
  | cons part parts ih =>
    cases parts with
    | nil => simp
    | cons next parts =>
      rw [List.intercalate_cons_cons, List.append_assoc, List.flatMap_cons,
        ← ih (List.cons_ne_nil next parts)]
      exact cutChars_append part _

/-- The pieces of parts are the parts themselves only if no part is divided. -/
theorem flatMap_cutChars_eq_iff {parts : List (List Char)} :
    parts.flatMap cutChars = parts ↔ ∀ part ∈ parts, ¬ Divided part := by
  have hatLeast : ∀ parts : List (List Char), parts.length ≤ (parts.flatMap cutChars).length := by
    intro parts
    induction parts with
    | nil => simp
    | cons part parts ih =>
      have hpart := List.length_pos_of_ne_nil (cutChars_ne_nil part)
      rw [List.flatMap_cons, List.length_append, List.length_cons]
      omega
  constructor
  · intro h part hpart hdivided
    -- Each part gives a piece at least, so there is no room for the second piece of one.
    obtain ⟨before, after, rfl⟩ := List.append_of_mem hpart
    have hlength := congrArg List.length h
    have hbefore := hatLeast before
    have hafter := hatLeast after
    have hpieces := one_lt_length_cutChars hdivided
    simp only [List.flatMap_append, List.flatMap_cons, List.length_append,
      List.length_cons] at hlength
    omega
  · intro h
    induction parts with
    | nil => rfl
    | cons part parts ih =>
      obtain ⟨hpart, hparts⟩ := List.forall_mem_cons.1 h
      rw [List.flatMap_cons, cutChars_of_not_divided hpart, ih hparts, List.singleton_append]

/-! ### Tokens -/

theorem head?_escape {mark : Char} (hmark : mark ≠ ' ') (text : List Char) :
    (escape mark text).head? = some ' ' ↔ text.head? = some ' ' := by
  cases text with
  | nil => rfl
  | cons c text =>
    by_cases hc : c = '\\' ∨ c = mark
    · have hspace : c ≠ ' ' := by
        rintro rfl
        rcases hc with h | h
        · exact absurd h (by decide)
        · exact hmark h.symm
      simp [escape, hc, hspace]
    · simp [escape, hc]

/-- Escapes do not divide a text, and they do not keep it together. -/
theorem divided_escape {mark : Char} (hmark : mark ∉ [';', ' ']) (text : List Char) :
    Divided (escape mark text) ↔ Divided text := by
  have hspace : mark ≠ ' ' := by
    rintro rfl
    simp at hmark
  induction text with
  | nil => rfl
  | cons c text ih =>
    have hescape : escape mark (c :: text) =
        (if c = '\\' ∨ c = mark then ['\\', c] else [c]) ++ escape mark text := by
      simp [escape]
    rw [hescape, divided_cons]
    by_cases hc : c = '\\' ∨ c = mark
    · have hsemicolon : c ≠ ';' := by
        rintro rfl
        rcases hc with h | h
        · exact absurd h (by decide)
        · simp [← h] at hmark
      simp [hc, divided_cons, hsemicolon, ih]
    · simp [hc, divided_cons, head?_escape hspace, ih]

theorem divided_quoteWith {mark : Char} (hmark : mark ∉ [';', ' ']) (text : String) :
    Divided (quoteWith mark text).toList ↔ Divided text.toList := by
  have hsemicolon : mark ≠ ';' := by
    rintro rfl
    simp at hmark
  have hspace : mark ≠ ' ' := by
    rintro rfl
    simp at hmark
  rw [quoteWith, String.toList_ofList, List.cons_append, divided_cons]
  have hlast : Divided (escape mark text.toList ++ [mark]) ↔
      Divided (escape mark text.toList) := by
    generalize escape mark text.toList = quoted
    induction quoted with
    | nil => simp [divided_cons, not_divided_nil]
    | cons c quoted ih =>
      rw [List.cons_append, divided_cons, divided_cons, ih]
      cases quoted with
      | nil => simp [hspace]
      | cons d quoted => simp
  rw [hlast, divided_escape hmark]
  simp [hsemicolon]

theorem getLast?_quoteWith (mark : Char) (text : String) :
    (quoteWith mark text).toList.getLast? = some mark := by
  rw [quoteWith, String.toList_ofList, List.getLast?_append]
  rfl

/-- A piece is divided if it is a token with a divided text. -/
theorem divided_piece {p : Piece} (h : some ';' ∉ p.frame) :
    Divided p.text.toList ↔ ∃ text ∈ p.tokens, Divided text.toList := by
  cases p with
  | words text =>
    have hnot : ';' ∉ text.toList := by simpa using h
    simpa using not_divided_of_not_mem hnot
  | name text => simpa [quoteName] using divided_quoteWith (by decide) text
  | literal text => simpa [quoteLiteral] using divided_quoteWith (by decide) text

theorem getLast?_piece_ne {p : Piece} (h : some ';' ∉ p.frame) :
    p.text.toList.getLast? ≠ some ';' := by
  cases p with
  | words text =>
    have hnot : ';' ∉ text.toList := by simpa using h
    exact getLast?_ne_of_not_mem hnot
  | name text => simp [quoteName, getLast?_quoteWith]
  | literal text => simp [quoteLiteral, getLast?_quoteWith]

/-- **Only tokens divide a text** whose words have no semicolon. -/
theorem divided_written {ps : List Piece} (h : some ';' ∉ frameOf ps) :
    Divided (written ps) ↔ ∃ text ∈ tokensOf ps, Divided text.toList := by
  induction ps with
  | nil => simp [not_divided_nil]
  | cons p ps ih =>
    have hp : some ';' ∉ p.frame := fun hmem => h (by simp [hmem])
    have hps : some ';' ∉ frameOf ps := fun hmem => h (by simp [hmem])
    rw [written_cons, divided_append (getLast?_piece_ne hp), divided_piece hp, ih hps,
      tokensOf_cons]
    simp only [List.mem_append, or_and_right, exists_or]

/-! ### Batches -/

theorem render_eq_ofList (ps : List Piece) : render ps = String.ofList (written ps) := by
  rw [← toList_render, String.ofList_toList]

/-- The text of a batch is cut into the pieces of its statements. -/
theorem cut_queryPieces {batch : List Request} (h : batch ≠ []) (direction : Direction) :
    cut (render (queryPieces direction batch)) =
      (batch.map fun r => render (r.pieces direction)).flatMap cut := by
  have hparts : batch.map (fun r => written (r.pieces direction)) ≠ [] := by simpa using h
  have hwritten : written (queryPieces direction batch) =
      List.intercalate [';', ' '] (batch.map fun r => written (r.pieces direction)) := by
    rw [queryPieces, written_joinPieces, List.map_map]
    rfl
  rw [cut, toList_render, hwritten, cutChars_intercalate hparts]
  simp only [List.map_flatMap, List.flatMap_map, cut, toList_render]

/-- A statement is divided if one of the quoted texts of its request is. -/
theorem divided_statement {r : Request} (h : r.WellFormed) (direction : Direction) :
    Divided (written (r.pieces direction)) ↔ ∃ text ∈ r.quotedTexts, Divided text.toList := by
  have hwords : some ';' ∉ frameOf (r.pieces direction) :=
    (Harmless.requestPieces h direction).undivided
  rw [divided_written hwords, tokensOf_requestPieces]

/-- The pieces of the text are the statements if no quoted text is divided. -/
theorem cut_queryPieces_eq_iff {batch : List Request} (hne : batch ≠ [])
    (h : ∀ r ∈ batch, r.WellFormed) (direction : Direction) :
    cut (render (queryPieces direction batch)) =
        (batch.map fun r => render (r.pieces direction)) ↔
      ∀ r ∈ batch, ∀ text ∈ r.quotedTexts, ¬ Divided text.toList := by
  have hchars : cut (render (queryPieces direction batch)) =
      ((batch.map fun r => written (r.pieces direction)).flatMap cutChars).map String.ofList := by
    rw [cut_queryPieces hne]
    simp only [List.map_flatMap, List.flatMap_map, cut, toList_render]
  have hstatements : (batch.map fun r => render (r.pieces direction)) =
      (batch.map fun r => written (r.pieces direction)).map String.ofList := by
    simp only [List.map_map, Function.comp_def, render_eq_ofList]
  have hinjective : Function.Injective (List.map String.ofList) :=
    List.map_injective_iff.2 fun _ _ heq => String.ofList_injective heq
  rw [hchars, hstatements, hinjective.eq_iff, flatMap_cutChars_eq_iff, List.forall_mem_map]
  refine forall₂_congr fun r hr => ?_
  rw [divided_statement (h r hr) direction]
  simp only [not_exists, not_and]

/-- **The pieces that are printed are the statements of the batch, if no name and no string has a
    semicolon with a space after it.** Otherwise a statement is printed in several pieces, and an
    empty batch is printed as one empty piece. -/
theorem cut_ofBatch_iff {batch : List Request} (h : checkRequests batch = .ok ())
    (direction : Direction) :
    ∃ statements query, batch.mapM (ofRequest direction) = .ok statements ∧
      ofBatch direction batch = .ok query ∧
      (∀ order, .ofParameter (some order) = direction →
        Command.compileOutput order batch = .ok (String.join ((cut query).map (· ++ "\n")))) ∧
      (cut query = statements ↔
        batch ≠ [] ∧ ∀ r ∈ batch, ∀ text ∈ r.quotedTexts, ¬ "; ".toList <:+: text.toList) ∧
      (batch ≠ [] → cut query = statements.flatMap cut) ∧
      (batch = [] → cut query = [""]) := by
  have hwell := checkRequests_eq_ok.1 h
  refine ⟨batch.map fun r => render (r.pieces direction), render (queryPieces direction batch),
    mapM_eq_ok fun r hr => ofRequest_of_wellFormed (hwell r hr) direction,
    ofBatch_of_check h direction, ?_, ?_, fun hne => cut_queryPieces hne direction, ?_⟩
  · intro order horder
    rw [Command.compileOutput, Command.compiled, horder, ofBatch_of_check h]
    rfl
  · constructor
    · intro hcut
      have hne : batch ≠ [] := by
        rintro rfl
        cases hcut
      exact ⟨hne, (cut_queryPieces_eq_iff hne hwell direction).1 hcut⟩
    · intro hwhole
      exact (cut_queryPieces_eq_iff hwhole.1 hwell direction).2 hwhole.2
  · rintro rfl
    rfl

/-- A batch with semicolons, spaces and marks in its names and strings, none of them in the place
    of a cut. -/
def undividedBatch : List Request :=
  [{ Request.ofColumns "m;" [" a;b", ";\" "] with
      filters := [⟨"f' ;", none, "=", .string " ;x"⟩]
      window := some (.last "1d") },
    Request.ofColumns " " [";"]]

theorem cut_ofBatch_iff_undividedBatch : checkRequests undividedBatch = .ok () ∧
    ∃ statements query, undividedBatch.mapM (ofRequest .ascending) = .ok statements ∧
      ofBatch .ascending undividedBatch = .ok query ∧ cut query = statements := by
  have h : checkRequests undividedBatch = .ok () := by decide
  obtain ⟨statements, query, hstatements, hquery, -, hwhole, -⟩ := cut_ofBatch_iff h .ascending
  have hundivided : ∀ r ∈ undividedBatch, ∀ text ∈ r.quotedTexts,
      ¬ "; ".toList <:+: text.toList := by
    decide
  exact ⟨h, statements, query, hstatements, hquery, hwhole.2 ⟨List.cons_ne_nil _ _, hundivided⟩⟩

/-- The statement of one request that is printed as two pieces, none of them a statement. -/
theorem cut_dividedName :
    let batch := [Request.ofColumns "m" ["a; b"]]
    checkRequests batch = .ok () ∧
    ∃ statements query, batch.mapM (ofRequest .descending) = .ok statements ∧
      ofBatch .descending batch = .ok query ∧
      statements = ["SELECT \"a; b\" FROM \"m\" ORDER BY time DESC"] ∧
      cut query = ["SELECT \"a", "b\" FROM \"m\" ORDER BY time DESC"] ∧
      cut query ≠ statements := by
  intro batch
  have hcut : cut "SELECT \"a; b\" FROM \"m\" ORDER BY time DESC" =
      ["SELECT \"a", "b\" FROM \"m\" ORDER BY time DESC"] := rfl
  refine ⟨by decide, _, _, rfl, rfl, rfl, hcut, fun heq => ?_⟩
  have hlength := congrArg List.length (hcut.symm.trans heq)
  exact absurd hlength (by decide)

end SeriesBroker.Statement
