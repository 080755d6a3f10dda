import Mathlib.Data.List.Chain
import SeriesBroker.Proofs.Number.Text
import SeriesBroker.Proofs.Statement.Scan

/-! # The words of a statement do no harm

    What stands in a query outside of its quoted tokens must open no token of its own, must not
    part the statement, and must not open a comment. The first two are matters of single
    characters. A comment takes two, `--` or `/*`, and arithmetic brings in either first one,
    so it has to be seen that no `-` and no `/` is left standing at the end of a piece: then the
    pieces can be put together in any way (`Harmless.append`, `Harmless.intercalate`).
-/

namespace SeriesBroker.Statement

/-! ### Comments -/

/-- Two neighbours that open no comment. -/
def Apart (a b : Option Char) : Prop :=
  ¬ (a = some '-' ∧ b = some '-') ∧ ¬ (a = some '/' ∧ b = some '*')

instance : DecidableRel Apart := fun a b => by
  unfold Apart; infer_instance

/-- A frame opens no comment, whatever stands after it. -/
structure Uncommented (frame : Frame) : Prop where
  apart : frame.IsChain Apart
  settled : ∀ c ∈ frame.getLast?, c ≠ some '-' ∧ c ≠ some '/'

instance (frame : Frame) : Decidable (Uncommented frame) :=
  decidable_of_iff (frame.IsChain Apart ∧ ∀ c ∈ frame.getLast?, c ≠ some '-' ∧ c ≠ some '/')
    ⟨fun h => ⟨h.1, h.2⟩, fun h => ⟨h.apart, h.settled⟩⟩

theorem Uncommented.append {l m : Frame} (hl : Uncommented l) (hm : Uncommented m) :
    Uncommented (l ++ m) where
  apart := by
    refine hl.apart.append hm.apart fun a ha b _ => ?_
    -- The first list ends in a character that starts no comment at all.
    have hsettled := hl.settled a ha
    exact ⟨fun h => hsettled.1 h.1, fun h => hsettled.2 h.1⟩
  settled := by
    intro c hc
    rw [List.getLast?_append] at hc
    rcases Option.or_eq_some_iff.1 hc with hc | ⟨_, hc⟩
    · exact hm.settled c hc
    · exact hl.settled c hc

/-- Of two characters that open a comment, none stands after the other. -/
theorem Uncommented.not_infix {frame : Frame} (h : Uncommented frame) {a b : Option Char}
    (hab : ¬ Apart a b) : ¬ [a, b] <:+: frame := by
  rintro ⟨before, after, rfl⟩
  have hchain := h.apart
  rw [List.append_assoc] at hchain
  have htail := hchain.right_of_append
  exact hab (List.isChain_cons_cons.1 htail).1

/-! ### Harmless frames -/

/-- A frame opens no token, parts no statement and opens no comment. -/
structure Harmless (frame : Frame) : Prop where
  unquoted : Unquoted frame
  undivided : some ';' ∉ frame
  uncommented : Uncommented frame

instance (frame : Frame) : Decidable (Harmless frame) :=
  decidable_of_iff (Unquoted frame ∧ some ';' ∉ frame ∧ Uncommented frame)
    ⟨fun h => ⟨h.1, h.2.1, h.2.2⟩, fun h => ⟨h.unquoted, h.undivided, h.uncommented⟩⟩

theorem Unquoted.append {l m : Frame} (hl : Unquoted l) (hm : Unquoted m) :
    Unquoted (l ++ m) := by
  intro c hc
  rcases List.mem_append.1 hc with hc | hc
  · exact hl c hc
  · exact hm c hc

theorem Harmless.append {l m : Frame} (hl : Harmless l) (hm : Harmless m) :
    Harmless (l ++ m) where
  unquoted := hl.unquoted.append hm.unquoted
  undivided := fun h => (List.mem_append.1 h).elim hl.undivided hm.undivided
  uncommented := hl.uncommented.append hm.uncommented

theorem Harmless.intercalate {between : Frame} (hbetween : Harmless between)
    {parts : List Frame} (hparts : ∀ part ∈ parts, Harmless part) :
    Harmless (List.intercalate between parts) :=
  intercalate_induction (by decide) (fun _ _ => Harmless.append) hbetween hparts

/-! ### Texts outside of tokens -/

/-- The characters that do harm on their own or with a neighbour. -/
def harmful : List Char := ['"', '\'', ';', '-', '/', '*']

theorem Harmless.of_quiet {text : List Char} (h : ∀ c ∈ text, c ∉ harmful) :
    Harmless (text.map some) := by
  -- All conditions are about harmful characters, and the text has none of them.
  have hne : ∀ a ∈ text.map some, ∀ d ∈ harmful, a ≠ some d := by
    intro a ha d hd
    obtain ⟨c, hc, rfl⟩ := List.mem_map.1 ha
    intro heq
    exact h c hc (Option.some.inj heq ▸ hd)
  refine ⟨fun a ha => ⟨hne a ha _ (by decide), hne a ha _ (by decide)⟩,
    fun ha => hne _ ha ';' (by decide) rfl, ?_, fun a ha => ?_⟩
  · refine (List.pairwise_of_forall_mem_list fun a ha b _ => ?_).isChain
    exact ⟨fun h => hne a ha '-' (by decide) h.1, fun h => hne a ha '/' (by decide) h.1⟩
  · have hmem := List.mem_of_getLast? ha
    exact ⟨hne a hmem _ (by decide), hne a hmem _ (by decide)⟩

/-- A sign does no harm if there is text after it that starts with no sign. -/
theorem Harmless.cons_sign {sign c : Char} {text : List Char}
    (hsign : sign ∈ Arithmetic.operators) (hc : c ∉ harmful)
    (h : Harmless ((c :: text).map some)) : Harmless ((sign :: c :: text).map some) := by
  have hquoted : ∀ d ∈ Arithmetic.operators, d ≠ '"' ∧ d ≠ '\'' ∧ d ≠ ';' :=
    List.all_iff_forall_prop.1 (by decide)
  obtain ⟨hdouble, hsingle, hsemicolon⟩ := hquoted sign hsign
  refine ⟨fun a ha => ?_, fun ha => ?_, ?_, fun a ha => ?_⟩
  · rcases List.mem_cons.1 ha with rfl | ha
    · exact ⟨by simpa using hdouble, by simpa using hsingle⟩
    · exact h.unquoted a ha
  · rcases List.mem_cons.1 ha with heq | ha
    · exact hsemicolon (Option.some.inj heq).symm
    · exact h.undivided ha
  · -- What follows the sign is neither the second `-` nor the `*` of a comment.
    refine List.isChain_cons_cons.2 ⟨⟨?_, ?_⟩, h.uncommented.apart⟩
    · rintro ⟨_, heq⟩
      exact hc (Option.some.inj heq ▸ by decide)
    · rintro ⟨_, heq⟩
      exact hc (Option.some.inj heq ▸ by decide)
  · refine h.uncommented.settled a ?_
    rwa [List.map_cons, List.map_cons, List.getLast?_cons_cons] at ha

theorem not_harmful_of_numeric {c : Char} (h : Numeric c) : c ∉ harmful := by
  have hharmful : ∀ d ∈ harmful, ¬ Numeric d := List.all_iff_forall_prop.1 (by decide)
  exact fun hc => hharmful c hc h

theorem Harmless.of_run {text : List Char} (h : NumericRun text) : Harmless (text.map some) :=
  .of_quiet fun c hc => not_harmful_of_numeric (h.numeric c hc)

/-- A sign before a run does no harm. -/
theorem Harmless.sign_run {sign : Char} {text : List Char}
    (hsign : sign ∈ Arithmetic.operators) (h : NumericRun text) :
    Harmless ((sign :: text).map some) := by
  cases text with
  | nil => exact absurd rfl h.nonempty
  | cons c text =>
    exact .cons_sign hsign (not_harmful_of_numeric (h.numeric c List.mem_cons_self)) (.of_run h)

theorem Harmless.of_math {math : String} (h : Arithmetic.accepts math) :
    Harmless (math.toList.map some) := by
  obtain ⟨operator, run, htext, hoperator, hrun⟩ := Arithmetic.run_of_accepts h
  rw [htext]
  exact .sign_run hoperator hrun

theorem Harmless.of_duration {duration : String} (h : Duration.accepts duration) :
    Harmless (duration.toList.map some) := by
  obtain ⟨run, unit, hunit, htext, hrun⟩ := Duration.run_of_accepts h
  have hunits : ∀ unit ∈ Duration.units, Harmless (unit.toList.map some) := by decide
  rw [htext, List.map_append]
  exact (Harmless.of_run hrun).append (hunits unit hunit)

theorem Harmless.of_decimal {text : List Char} (h : DecimalText text) :
    Harmless (text.map some) := by
  -- A minus sign can stand before the run that a number starts with.
  have hpower : ∀ {sign : Char} {power : List Char}, sign = '+' ∨ sign = '-' →
      NumericRun power → Harmless (('e' :: sign :: power).map some) := by
    intro sign power hsign hrun
    have hmem : sign ∈ Arithmetic.operators := by
      rcases hsign with rfl | rfl
      · decide
      · decide
    have he : Harmless (['e'].map some) := by decide
    exact he.append (.sign_run hmem hrun)
  cases h with
  | unsigned h =>
    cases h with
    | plain h => exact .of_run h
    | scaled h hsign hrun =>
      rw [List.map_append]
      exact (Harmless.of_run h).append (hpower hsign hrun)
  | negative h =>
    cases h with
    | plain h => exact .sign_run (by decide) h
    | scaled h hsign hrun =>
      rw [← List.cons_append, List.map_append]
      exact (Harmless.sign_run (by decide) h).append (hpower hsign hrun)

/-! ### Clauses -/

theorem Harmless.mathPieces {before : String} (hbefore : Harmless (before.toList.map some))
    {math : Option String} (h : MathWellFormed math) :
    Harmless (frameOf (mathPieces before math)) := by
  cases math with
  | none => exact (by decide : Harmless [])
  | some text =>
    have htext := hbefore.append (Harmless.of_math (h text rfl))
    simpa [Statement.mathPieces] using htext

/-- What stands around a name does not depend on the name. -/
theorem frameOf_fieldPieces (name other : String) (a : Option Aggregation) :
    frameOf (fieldPieces name a) = frameOf (fieldPieces other a) := by
  rcases a with _ | ⟨_, _ | _⟩
  · rfl
  · rfl
  · rfl

theorem Harmless.fieldPieces (name : String) (a : Option Aggregation) :
    Harmless (frameOf (fieldPieces name a)) := by
  rw [frameOf_fieldPieces name ""]
  rcases a with _ | ⟨summary, _ | _⟩
  · decide
  · cases summary <;> decide
  · cases summary <;> decide

theorem Harmless.columnPieces {windowed : Bool} {c : Column} (h : c.WellFormed windowed) :
    Harmless (frameOf c.pieces) := by
  rw [Column.pieces, frameOf_append]
  exact (Harmless.fieldPieces c.name _).append (.mathPieces (by decide) h.math)

/-- A comparison that has a sign does no harm. -/
theorem Harmless.of_comparison {text : String} (h : (Comparison.ofSign? text).isSome) :
    Harmless (text.toList.map some) := by
  obtain ⟨c, hc⟩ := Option.isSome_iff_exists.1 h
  rw [← Comparison.sign_of_ofSign? hc]
  cases c <;> decide

theorem Harmless.scalarPiece (value : Scalar) : Harmless value.piece.frame := by
  cases value with
  | null => decide
  | bool b => cases b <;> decide
  | string text => exact (by decide : Harmless [none])
  | number n =>
    have hn := Harmless.of_decimal n.decimal_text
    simpa [Scalar.piece, Scalar.display] using hn

theorem Harmless.filterPieces {f : Filter} (h : f.WellFormed) : Harmless (frameOf f.pieces) := by
  have hname : Harmless [none] := by decide
  have hspace : Harmless [some ' '] := by decide
  have hmath : Harmless (frameOf (Statement.mathPieces " " f.math)) :=
    .mathPieces (by decide) h.math
  have hsign := (hspace.append (Harmless.of_comparison h.compared)).append hspace
  have hall := ((hname.append hmath).append hsign).append (Harmless.scalarPiece f.value)
  simpa [Filter.pieces] using hall

theorem Harmless.windowPieces {w : Window} (h : w.WellFormed) :
    Harmless (frameOf (windowPieces w)) := by
  cases w with
  | last duration =>
    have hwords : Harmless ("time > now() - ".toList.map some) := by decide
    have hall := hwords.append (Harmless.of_duration h)
    simpa [Statement.windowPieces] using hall
  | between start stop =>
    exact (by decide : Harmless (frameOf (Statement.windowPieces (.between "" ""))))

theorem Harmless.wherePieces {conditions : List (List Piece)}
    (h : ∀ condition ∈ conditions, Harmless (frameOf condition)) :
    Harmless (frameOf (wherePieces conditions)) := by
  unfold Statement.wherePieces
  split
  · decide
  · have hwhere : Harmless (" WHERE ".toList.map some) := by decide
    rw [frameOf_cons, frameOf_joinPieces]
    refine hwhere.append (.intercalate (by decide) fun frame hframe => ?_)
    obtain ⟨condition, hcondition, rfl⟩ := List.mem_map.1 hframe
    exact h condition hcondition

theorem Harmless.orderWords (direction : Direction) {interval : Option String}
    (h : ∀ text ∈ interval, Duration.accepts text) :
    Harmless ((orderWords direction interval).toList.map some) := by
  cases interval with
  | none => cases direction <;> decide
  | some text =>
    have hopen : Harmless (" GROUP BY time(".toList.map some) := by decide
    have hclose : Harmless ([')'].map some) := by decide
    rw [toList_orderWords_some, List.map_append, List.map_append]
    exact hopen.append ((Harmless.of_duration (h text rfl)).append hclose)

theorem Harmless.limitPieces (limit : Option Int64) : Harmless (frameOf (limitPieces limit)) := by
  cases limit with
  | none => exact (by decide : Harmless [])
  | some n =>
    have hwords : Harmless (" LIMIT ".toList.map some) := by decide
    have hall := hwords.append (Harmless.of_decimal (Json.decimal_intText n.toInt))
    simpa [Statement.limitPieces] using hall

/-- **The words of a well-formed request do no harm**, in every clause. -/
theorem Harmless.requestPieces {r : Request} (h : r.WellFormed) (direction : Direction) :
    Harmless (frameOf (r.pieces direction)) := by
  have hselect : Harmless (frameOf [.words "SELECT "]) := by decide
  have hcolumns : Harmless (frameOf (joinPieces ", " (r.columns.map Column.pieces))) := by
    rw [frameOf_joinPieces, List.map_map]
    refine .intercalate (by decide) fun frame hframe => ?_
    obtain ⟨c, hc, rfl⟩ := List.mem_map.1 hframe
    exact .columnPieces (h.columns c hc)
  have hfrom : Harmless (frameOf [.words " FROM ", .name r.measurement]) :=
    (by decide : Harmless (frameOf [.words " FROM ", .name ""]))
  have hwhere : Harmless (frameOf (Statement.wherePieces r.conditions)) := by
    refine .wherePieces fun condition hcondition => ?_
    rcases List.mem_append.1 hcondition with hmem | hmem
    · obtain ⟨f, hf, rfl⟩ := List.mem_map.1 hmem
      exact .filterPieces (h.filters f hf)
    · obtain ⟨w, hw, rfl⟩ := Option.map_eq_some_iff.1 (Option.mem_toList.1 hmem)
      exact .windowPieces (h.window w hw)
  have horder : Harmless (frameOf [.words (Statement.orderWords direction r.interval)]) := by
    simpa using Harmless.orderWords direction h.grouped
  have hall := ((((hselect.append hcolumns).append hfrom).append hwhere).append horder).append
    (Harmless.limitPieces r.limit)
  simpa only [Request.pieces, frameOf_append] using hall

end SeriesBroker.Statement
