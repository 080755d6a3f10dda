import SeriesBroker.Proofs.Number.Text
import SeriesBroker.Proofs.Statement.Cancel
import SeriesBroker.Proofs.Statement.Compile

/-! # The clauses of a statement can be told apart

    Each clause of a well-formed request can be read back from the text of a query. The quoted
    names end at their marks, and the words without marks end at a space, a comma or a bracket
    that they cannot have. Where a clause may be missing, the first characters of what can stand
    in its place decide.

    Numbers are the one exception: what is read back of a number is its text.
-/

namespace SeriesBroker

/-! ### The same parts -/

/-- The same operand. Numbers are compared by their text. -/
def Scalar.Same : Scalar → Scalar → Prop
  | .number m, .number n => (Scalar.number m).display = (Scalar.number n).display
  | a, b => a = b

/-- The same filter, up to the text of a number. -/
structure Filter.Same (f g : Filter) : Prop where
  column : f.column = g.column
  math : f.math = g.math
  comparison : f.comparison = g.comparison
  value : f.value.Same g.value

/-! ### Words -/

theorem Arithmetic.ne_of_accepts {text : String} (h : accepts text) {c : Char}
    (hc : c ∈ text.toList) : c ≠ ' ' ∧ c ≠ ',' := by
  obtain ⟨operator, run, htext, hoperator, hrun⟩ := run_of_accepts h
  have hoperators : ∀ d ∈ operators, d ≠ ' ' ∧ d ≠ ',' :=
    List.all_iff_forall_prop.1 (by decide)
  rw [htext] at hc
  rcases List.mem_cons.1 hc with rfl | hc
  · exact hoperators c hoperator
  · exact ⟨(hrun.numeric c hc).ne (by decide), (hrun.numeric c hc).ne (by decide)⟩

theorem Duration.ne_of_accepts {text : String} (h : accepts text) {c : Char}
    (hc : c ∈ text.toList) : c ≠ ' ' ∧ c ≠ ')' := by
  obtain ⟨run, unit, hunit, htext, hrun⟩ := run_of_accepts h
  have hunits : ∀ unit ∈ units, unit.toList.all fun d => d ≠ ' ' ∧ d ≠ ')' := by decide
  rw [htext] at hc
  rcases List.mem_append.1 hc with hc | hc
  · exact ⟨(hrun.numeric c hc).ne (by decide), (hrun.numeric c hc).ne (by decide)⟩
  · exact List.all_iff_forall_prop.1 (hunits unit hunit) c hc

namespace Statement

/-! ### Columns -/

/-- The words before an aggregated name. -/
def openWords : Option Aggregation → List Char
  | none => []
  | some ⟨summary, false⟩ => (summary.name ++ "(").toList
  | some ⟨summary, true⟩ => ("difference(" ++ summary.name ++ "(").toList

/-- The words after an aggregated name. -/
def closeWords : Option Aggregation → List Char
  | none => []
  | some ⟨_, false⟩ => [')']
  | some ⟨_, true⟩ => [')', ')']

theorem written_fieldPieces (name : String) (a : Option Aggregation) :
    written (fieldPieces name a) = openWords a ++ (quoteName name).toList ++ closeWords a := by
  rcases a with _ | ⟨_, _ | _⟩
  · simp [fieldPieces, openWords, closeWords]
  · simp [fieldPieces, openWords, closeWords]
  · simp [fieldPieces, openWords, closeWords]

/-- All ways to aggregate a column or not. -/
def aggregations : List (Option Aggregation) :=
  none :: Summary.all.flatMap fun s => [some ⟨s, false⟩, some ⟨s, true⟩]

theorem mem_aggregations (a : Option Aggregation) : a ∈ aggregations := by
  rcases a with _ | ⟨summary, _ | _⟩
  · decide
  · cases summary <;> decide
  · cases summary <;> decide

theorem openWords_injective {a b : Option Aggregation} (h : openWords a = openWords b) :
    a = b := by
  have hall : ∀ a ∈ aggregations, ∀ b ∈ aggregations, openWords a = openWords b → a = b := by
    decide
  exact hall a (mem_aggregations a) b (mem_aggregations b) h

theorem ne_of_mem_openWords {a : Option Aggregation} {c : Char} (hc : c ∈ openWords a) :
    c ≠ '"' := by
  have hall : ∀ a ∈ aggregations, (openWords a).all fun c => c ≠ '"' := by decide
  exact List.all_iff_forall_prop.1 (hall a (mem_aggregations a)) c hc

/-- Arithmetic right after a column, as it is written. -/
theorem written_mathPieces (before : String) (math : Option String) :
    written (mathPieces before math) = (math.map fun m => (before ++ m).toList).getD [] := by
  cases math with
  | none => rfl
  | some text => simp [mathPieces]

/-- Arithmetic ends at a space or a comma. There is none exactly if nothing stands before it. -/
theorem math_cancel {math other : Option String} (h : MathWellFormed math)
    (hother : MathWellFormed other) {r s : List Char}
    (hr : Stops (fun c => c ≠ ' ' ∧ c ≠ ',') r) (hs : Stops (fun c => c ≠ ' ' ∧ c ≠ ',') s)
    (heq : written (mathPieces "" math) ++ r = written (mathPieces "" other) ++ s) :
    math = other ∧ r = s := by
  have hchars : ∀ {math : Option String}, MathWellFormed math →
      ∀ c ∈ written (mathPieces "" math), c ≠ ' ' ∧ c ≠ ',' := by
    intro math h c hc
    cases math with
    | none => cases hc
    | some text =>
      rw [written_mathPieces] at hc
      exact Arithmetic.ne_of_accepts (h text rfl) (by simpa using hc)
  have hne : ∀ {text : String}, MathWellFormed (some text) → text.toList ≠ [] := by
    intro text h hnil
    obtain ⟨operator, run, htext, _⟩ := Arithmetic.run_of_accepts (h text rfl)
    rw [hnil] at htext
    cases htext
  obtain ⟨hmath, hrest⟩ := span_cancel (hchars h) (hchars hother) hr hs heq
  -- Missing arithmetic is no text, and accepted arithmetic is some.
  refine ⟨?_, hrest⟩
  rw [written_mathPieces, written_mathPieces] at hmath
  cases math with
  | none =>
    cases other with
    | none => rfl
    | some text => exact absurd hmath.symm (by simpa using hne hother)
  | some text =>
    cases other with
    | none => exact absurd hmath (by simpa using hne h)
    | some text' =>
      have htext : text.toList = text'.toList := by simpa using hmath
      rw [String.toList_inj.1 htext]

/-- A column whose tag names an aggregation has the tag of that aggregation. -/
theorem tag_aggregation? {windowed : Bool} {c : Column} (h : c.WellFormed windowed) :
    c.aggregation?.map Aggregation.tag = c.aggregation := by
  cases htag : c.aggregation with
  | none => simp [Column.aggregation?, htag]
  | some tag =>
    obtain ⟨a, ha⟩ := Option.isSome_iff_exists.1 (h.aggregated tag htag).2
    simp [Column.aggregation?, htag, ha, Aggregation.tag_of_ofTag? ha]

/-- A column can be told from what follows it. -/
theorem column_cancel {windowed windowed' : Bool} {c d : Column} (hc : c.WellFormed windowed)
    (hd : d.WellFormed windowed') {r s : List Char}
    (hr : Stops (fun c => c ≠ ' ' ∧ c ≠ ',') r) (hs : Stops (fun c => c ≠ ' ' ∧ c ≠ ',') s)
    (h : written c.pieces ++ r = written d.pieces ++ s) : c = d ∧ r = s := by
  have hwritten : ∀ (c : Column) (r : List Char), written c.pieces ++ r =
      openWords c.aggregation? ++ ((quoteName c.name).toList ++
        (closeWords c.aggregation? ++ (written (mathPieces "" c.math) ++ r))) := by
    intro c r
    rw [Column.pieces, written_append, written_fieldPieces]
    simp only [List.append_assoc]
  have hquote : ∀ (name : String) (r : List Char),
      Stops (fun c => c ≠ '"') ((quoteName name).toList ++ r) := by
    intro name r
    obtain ⟨more, hmore⟩ := quoteName_append name r
    rw [hmore]
    exact .cons (by decide) more
  -- The aggregation is told by what stands before the name.
  rw [hwritten, hwritten] at h
  obtain ⟨hopen, h⟩ := span_cancel (fun _ => ne_of_mem_openWords) (fun _ => ne_of_mem_openWords)
    (hquote _ _) (hquote _ _) h
  have haggregation := openWords_injective hopen
  obtain ⟨hname, h⟩ := quoteName_cancel h
  rw [haggregation] at h
  obtain ⟨hmath, hrest⟩ := math_cancel hc.math hd.math hr hs (List.append_cancel_left h)
  refine ⟨?_, hrest⟩
  have htag : c.aggregation = d.aggregation := by
    rw [← tag_aggregation? hc, ← tag_aggregation? hd, haggregation]
  obtain ⟨name, aggregation, math⟩ := c
  obtain ⟨name', aggregation', math'⟩ := d
  cases hname
  cases htag
  cases hmath
  rfl

/-! ### Filters -/

/-- A word ends at the first space after it. -/
theorem word_cancel {a b r s : List Char} (ha : ∀ c ∈ a, c ≠ ' ') (hb : ∀ c ∈ b, c ≠ ' ')
    (h : a ++ ' ' :: r = b ++ ' ' :: s) : a = b ∧ r = s := by
  have hspace : ∀ r : List Char, Stops (fun c => c ≠ ' ') (' ' :: r) := .cons (by decide)
  obtain ⟨hab, hrest⟩ := span_cancel ha hb (hspace r) (hspace s) h
  exact ⟨hab, (List.cons.inj hrest).2⟩

/-- A comparison has no space and no operator. -/
theorem ne_of_mem_comparison {text : String} (h : (Comparison.ofSign? text).isSome) {c : Char}
    (hc : c ∈ text.toList) : c ≠ ' ' ∧ c ∉ Arithmetic.operators := by
  obtain ⟨comparison, hcomparison⟩ := Option.isSome_iff_exists.1 h
  have hall : comparison.sign.toList.all fun c => c ≠ ' ' ∧ c ∉ Arithmetic.operators := by
    cases comparison <;> decide
  rw [← Comparison.sign_of_ofSign? hcomparison] at hc
  exact List.all_iff_forall_prop.1 hall c hc

/-- A comparison is not taken for arithmetic. -/
theorem comparison_ne_math {text math : String} (h : (Comparison.ofSign? text).isSome)
    (hmath : Arithmetic.accepts math) : text.toList ≠ math.toList := by
  obtain ⟨operator, run, htext, hoperator, _⟩ := Arithmetic.run_of_accepts hmath
  intro heq
  have hmem : operator ∈ text.toList := by
    rw [heq, htext]
    exact List.mem_cons_self
  exact (ne_of_mem_comparison h hmem).2 hoperator

/-- The arithmetic and the comparison of a filter are two words or one. -/
theorem comparison_cancel {math math' : Option String} {sign sign' : String}
    (hmath : MathWellFormed math) (hmath' : MathWellFormed math')
    (hsign : (Comparison.ofSign? sign).isSome) (hsign' : (Comparison.ofSign? sign').isSome)
    {r s : List Char}
    (h : written (mathPieces " " math) ++ ' ' :: (sign.toList ++ ' ' :: r) =
      written (mathPieces " " math') ++ ' ' :: (sign'.toList ++ ' ' :: s)) :
    math = math' ∧ sign = sign' ∧ r = s := by
  have hwritten : ∀ text : String, written (mathPieces " " (some text)) = ' ' :: text.toList := by
    intro text
    simp [written_mathPieces]
  have hmathWord : ∀ {text : String}, MathWellFormed (some text) →
      ∀ c ∈ text.toList, c ≠ ' ' := fun h c hc => (Arithmetic.ne_of_accepts (h _ rfl) hc).1
  have hsignWord : ∀ {text : String}, (Comparison.ofSign? text).isSome →
      ∀ c ∈ text.toList, c ≠ ' ' := fun h c hc => (ne_of_mem_comparison h hc).1
  -- The word after the column is the arithmetic, or the comparison if there is none.
  cases math with
  | none =>
    cases math' with
    | none =>
      obtain ⟨hword, hrest⟩ := word_cancel (hsignWord hsign) (hsignWord hsign')
        (List.cons.inj h).2
      exact ⟨rfl, String.toList_inj.1 hword, hrest⟩
    | some text' =>
      rw [hwritten] at h
      obtain ⟨hword, _⟩ := word_cancel (hsignWord hsign) (hmathWord hmath') (List.cons.inj h).2
      exact absurd hword (comparison_ne_math hsign (hmath' text' rfl))
  | some text =>
    rw [hwritten] at h
    cases math' with
    | none =>
      obtain ⟨hword, _⟩ := word_cancel (hmathWord hmath) (hsignWord hsign') (List.cons.inj h).2
      exact absurd hword.symm (comparison_ne_math hsign' (hmath text rfl))
    | some text' =>
      rw [hwritten] at h
      obtain ⟨hword, hrest⟩ := word_cancel (hmathWord hmath) (hmathWord hmath')
        (List.cons.inj h).2
      obtain ⟨hword', hrest'⟩ := word_cancel (hsignWord hsign) (hsignWord hsign') hrest
      exact ⟨congrArg some (String.toList_inj.1 hword), String.toList_inj.1 hword', hrest'⟩

/-- An operand without marks has no space and no mark of its own. -/
theorem ne_of_mem_display {value : Scalar} (hnull : value.isNull = false)
    (hstring : value.asText? = none) {c : Char} (hc : c ∈ value.display.toList) :
    c ≠ ' ' ∧ c ≠ '\'' := by
  cases value with
  | null => cases hnull
  | string text => cases hstring
  | bool b =>
    have hall : ∀ b, (Scalar.bool b).display.toList.all fun c => c ≠ ' ' ∧ c ≠ '\'' := by decide
    exact List.all_iff_forall_prop.1 (hall b) c hc
  | number n =>
    have hsigns : ∀ d ∈ ['e', '+', '-'], d ≠ ' ' ∧ d ≠ '\'' :=
      List.all_iff_forall_prop.1 (by decide)
    rw [Scalar.display, String.toList_ofList] at hc
    rcases n.decimal_text.mem hc with hnumeric | hsign
    · exact ⟨hnumeric.ne (by decide), hnumeric.ne (by decide)⟩
    · exact hsigns c hsign

/-- The text of a truth value is no number. -/
theorem display_bool_ne_number (b : Bool) (n : Json.Number) :
    (Scalar.bool b).display ≠ (Scalar.number n).display := by
  intro h
  have hletter : ∀ b, (Scalar.bool b).display.toList.any fun c =>
      ¬ (Numeric c ∨ c ∈ ['e', '+', '-']) := by decide
  obtain ⟨c, hc, hnot⟩ := List.any_iff_exists_prop.1 (hletter b)
  rw [h, Scalar.display, String.toList_ofList] at hc
  exact hnot (n.decimal_text.mem hc)

/-- A literal is not taken for an operand without marks. -/
theorem literal_ne_word {text : String} {word r s : List Char}
    (hword : ∀ c ∈ word, c ≠ ' ' ∧ c ≠ '\'') (hs : Stops (fun c => c ≠ ' ') s) :
    (quoteLiteral text).toList ++ r ≠ word ++ s := by
  intro h
  obtain ⟨more, hmore⟩ := quoteLiteral_append text r
  have hhead : '\'' :: more = word ++ s := hmore.symm.trans h
  cases word with
  | nil =>
    rw [List.nil_append] at hhead
    exact hs '\'' (by rw [← hhead]; rfl) (by decide)
  | cons c word =>
    obtain ⟨hc, _⟩ := List.cons.inj hhead
    exact (hword c List.mem_cons_self).2 hc.symm

/-- Operands without marks that are written the same are the same. -/
theorem same_of_display {a b : Scalar} (hat : a.asText? = none) (hbt : b.asText? = none)
    (ha : a.isNull = false) (hb : b.isNull = false) (h : a.display = b.display) : a.Same b := by
  cases a with
  | null => cases ha
  | string text => cases hat
  | bool x =>
    cases b with
    | null => cases hb
    | string text => cases hbt
    | bool y =>
      have hall : ∀ x y, (Scalar.bool x).display = (Scalar.bool y).display → x = y := by decide
      exact congrArg Scalar.bool (hall x y h)
    | number n => exact absurd h (display_bool_ne_number x n)
  | number m =>
    cases b with
    | null => cases hb
    | string text => cases hbt
    | bool y => exact absurd h.symm (display_bool_ne_number y m)
    | number n => exact h

/-- An operand is a literal or its plain text. -/
theorem literal_or_display (value : Scalar) : (∃ text, value = .string text) ∨
    (value.asText? = none ∧ value.piece.text = value.display) := by
  cases value with
  | string text => exact .inl ⟨text, rfl⟩
  | null => exact .inr ⟨rfl, rfl⟩
  | bool b => exact .inr ⟨rfl, rfl⟩
  | number n => exact .inr ⟨rfl, rfl⟩

/-- An operand can be told from what follows it. -/
theorem operand_cancel {a b : Scalar} (ha : a.isNull = false) (hb : b.isNull = false)
    {r s : List Char} (hr : Stops (fun c => c ≠ ' ') r) (hs : Stops (fun c => c ≠ ' ') s)
    (h : a.piece.text.toList ++ r = b.piece.text.toList ++ s) : a.Same b ∧ r = s := by
  -- A literal is told from a word by its mark; two words are compared up to the next space.
  rcases literal_or_display a with ⟨text, rfl⟩ | ⟨hat, hadisplay⟩
  · rcases literal_or_display b with ⟨text', rfl⟩ | ⟨hbt, hbdisplay⟩
    · obtain ⟨htext, hrest⟩ := quoteLiteral_cancel h
      exact ⟨congrArg Scalar.string htext, hrest⟩
    · rw [hbdisplay] at h
      exact absurd h (literal_ne_word (fun _ => ne_of_mem_display hb hbt) hs)
  · rcases literal_or_display b with ⟨text', rfl⟩ | ⟨hbt, hbdisplay⟩
    · rw [hadisplay] at h
      exact absurd h.symm (literal_ne_word (fun _ => ne_of_mem_display ha hat) hr)
    · rw [hadisplay, hbdisplay] at h
      obtain ⟨hdisplay, hrest⟩ := span_cancel (fun _ hc => (ne_of_mem_display ha hat hc).1)
        (fun _ hc => (ne_of_mem_display hb hbt hc).1) hr hs h
      exact ⟨same_of_display hat hbt ha hb (String.toList_inj.1 hdisplay), hrest⟩

/-- The text of a filter, part by part. -/
theorem written_filterPieces (f : Filter) (r : List Char) : written f.pieces ++ r =
    (quoteName f.column).toList ++ (written (mathPieces " " f.math) ++
      ' ' :: (f.comparison.toList ++ ' ' :: (f.value.piece.text.toList ++ r))) := by
  have hsign : (Piece.words (" " ++ f.comparison ++ " ")).text.toList =
      ' ' :: (f.comparison.toList ++ [' ']) := by
    simp
  simp only [Filter.pieces, written_append, written_cons, written_nil, hsign, Piece.text_name,
    List.append_assoc, List.cons_append, List.nil_append, List.append_nil]

/-- A filter can be told from what follows it. -/
theorem filter_cancel {f g : Filter} (hf : f.WellFormed) (hg : g.WellFormed) {r s : List Char}
    (hr : Stops (fun c => c ≠ ' ') r) (hs : Stops (fun c => c ≠ ' ') s)
    (h : written f.pieces ++ r = written g.pieces ++ s) : f.Same g ∧ r = s := by
  rw [written_filterPieces, written_filterPieces] at h
  obtain ⟨hcolumn, h⟩ := quoteName_cancel h
  obtain ⟨hmath, hcomparison, h⟩ := comparison_cancel hf.math hg.math hf.compared hg.compared h
  obtain ⟨hvalue, hrest⟩ := operand_cancel hf.valued hg.valued hr hs h
  exact ⟨⟨hcolumn, hmath, hcomparison, hvalue⟩, hrest⟩

/-! ### Windows -/

/-- The text of a window with a duration. -/
theorem written_windowPieces_last (duration : String) (r : List Char) :
    written (windowPieces (.last duration)) ++ r =
      "time > now() - ".toList ++ (duration.toList ++ r) := by
  have hwords : (Piece.words ("time > now() - " ++ duration)).text.toList =
      "time > now() - ".toList ++ duration.toList := String.toList_append
  rw [windowPieces, written_cons, written_nil, hwords, List.append_nil, List.append_assoc]

/-- The text of a window with two timestamps. -/
theorem written_windowPieces_between (start stop : String) (r : List Char) :
    written (windowPieces (.between start stop)) ++ r =
      "time > ".toList ++ ((quoteLiteral start).toList ++
        (" AND time < ".toList ++ ((quoteLiteral stop).toList ++ r))) := by
  simp only [windowPieces, written_cons, written_nil, Piece.text_words, Piece.text_literal,
    List.append_assoc, List.append_nil]

/-- A window can be told from what follows it. -/
theorem window_cancel {v w : Window} (hv : v.WellFormed) (hw : w.WellFormed) {r s : List Char}
    (hr : Stops (fun c => c ≠ ' ') r) (hs : Stops (fun c => c ≠ ' ') s)
    (h : written (windowPieces v) ++ r = written (windowPieces w) ++ s) : v = w ∧ r = s := by
  -- After the common words, a duration has `now` and two timestamps have a mark.
  have hkind : ∀ (start : String) (r s : List Char),
      "time > now() - ".toList ++ r ≠ "time > ".toList ++ ((quoteLiteral start).toList ++ s) := by
    intro start r s heq
    obtain ⟨more, hmore⟩ := quoteLiteral_append start s
    rw [hmore] at heq
    have hnow : "time > now() - ".toList = "time > ".toList ++ "now() - ".toList := by decide
    rw [hnow, List.append_assoc] at heq
    have htail := List.append_cancel_left heq
    have hhead := (List.cons.inj htail).1
    revert hhead
    decide
  cases v with
  | last duration =>
    cases w with
    | last duration' =>
      rw [written_windowPieces_last, written_windowPieces_last] at h
      obtain ⟨hduration, hrest⟩ := span_cancel
        (fun _ hc => (Duration.ne_of_accepts hv hc).1)
        (fun _ hc => (Duration.ne_of_accepts hw hc).1) hr hs (List.append_cancel_left h)
      exact ⟨congrArg Window.last (String.toList_inj.1 hduration), hrest⟩
    | between start stop =>
      rw [written_windowPieces_last, written_windowPieces_between] at h
      exact absurd h (hkind start _ _)
  | between start stop =>
    cases w with
    | last duration =>
      rw [written_windowPieces_last, written_windowPieces_between] at h
      exact absurd h.symm (hkind start _ _)
    | between start' stop' =>
      rw [written_windowPieces_between, written_windowPieces_between] at h
      obtain ⟨hstart, h⟩ := quoteLiteral_cancel (List.append_cancel_left h)
      obtain ⟨hstop, hrest⟩ := quoteLiteral_cancel (List.append_cancel_left h)
      exact ⟨by rw [hstart, hstop], hrest⟩

/-! ### Selections -/

/-- What is selected ends where it is said from what. -/
theorem selected_cancel {α : Type} {text : α → List Char} {valid : α → Prop}
    (hread : ∀ a b r s, valid a → valid b → Stops (fun c => c ≠ ' ' ∧ c ≠ ',') r →
      Stops (fun c => c ≠ ' ' ∧ c ≠ ',') s → text a ++ r = text b ++ s → a = b ∧ r = s)
    {l m : List α} (hl : ∀ a ∈ l, valid a) (hm : ∀ a ∈ m, valid a) (hlne : l ≠ [])
    (hmne : m ≠ []) {r s : List Char}
    (h : List.intercalate ", ".toList (l.map text) ++ (" FROM ".toList ++ r) =
      List.intercalate ", ".toList (m.map text) ++ (" FROM ".toList ++ s)) :
    l = m ∧ r = s := by
  have hcomma : ∀ r, Stops (fun c => c ≠ ' ' ∧ c ≠ ',') (", ".toList ++ r) :=
    fun r => .cons (by decide) _
  have hfrom : ∀ r, Stops (fun c => c ≠ ' ' ∧ c ≠ ',') (" FROM ".toList ++ r) :=
    fun r => .cons (by decide) _
  have hend : ∀ r, ¬ ", ".toList <+: " FROM ".toList ++ r := by
    rintro r ⟨more, hmore⟩
    have hhead := (List.cons.inj hmore).1
    revert hhead
    decide
  obtain ⟨hall, hrest⟩ := joined_cancel hread hcomma hl hm hlne hmne (hfrom r) (hfrom s) (hend r)
    (hend s) h
  rw [List.forall₂_eq_eq_eq] at hall
  exact ⟨hall, List.append_cancel_left hrest⟩

end Statement

end SeriesBroker
