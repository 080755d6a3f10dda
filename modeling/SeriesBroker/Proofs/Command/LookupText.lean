import Mathlib.Data.List.TakeWhile
import SeriesBroker.Command.Invocation

/-! # The texts of lookups

    The first two colons part a text (`PartedAtColons`), wherever further ones stand. A text is a
    lookup exactly if it has a colon and both parts before the second one have some text, and each
    lookup whose names have no colons is found again in the text that is written for it
    (`ofText?_iff_parted_at_colons`).
-/

namespace SeriesBroker

/-- The text is parted by its first two colons, or by its only one. -/
inductive PartedAtColons : String → String → String → Option String → Prop where
  | two {measurement column : String} (hmeasurement : ':' ∉ measurement.toList)
      (hcolumn : ':' ∉ column.toList) :
      PartedAtColons (measurement ++ ":" ++ column) measurement column none
  | three {measurement column : String} (hmeasurement : ':' ∉ measurement.toList)
      (hcolumn : ':' ∉ column.toList) (math : String) :
      PartedAtColons (measurement ++ ":" ++ column ++ ":" ++ math) measurement column (some math)

def Lookup.toText (l : Lookup) : String :=
  l.measurement ++ ":" ++ l.column ++ (l.math.map (":" ++ ·)).getD ""

/-- Names that have some text without colons, and a calculation that has some text. -/
structure Lookup.Plain (l : Lookup) : Prop where
  measurement : l.measurement ≠ "" ∧ ':' ∉ l.measurement.toList
  column : l.column ≠ "" ∧ ':' ∉ l.column.toList
  math : l.math ≠ some ""

/-! ### The first colon -/

theorem splitAtColon_append {before : List Char} (h : ':' ∉ before) (after : List Char) :
    splitAtColon (before ++ ':' :: after) = (before, some after) := by
  have hbefore : ∀ c ∈ before, (c != ':') = true := by
    intro c hc
    rw [bne_iff_ne]
    intro heq
    rw [heq] at hc
    exact h hc
  unfold splitAtColon
  rw [List.dropWhile_append_of_pos hbefore, List.takeWhile_append_of_pos hbefore]
  simp

theorem splitAtColon_of_not_mem {text : List Char} (h : ':' ∉ text) :
    splitAtColon text = (text, none) := by
  have hnil : text.dropWhile (· != ':') = [] := by
    rw [List.dropWhile_eq_nil_iff]
    intro c hc
    rw [bne_iff_ne]
    intro heq
    rw [heq] at hc
    exact h hc
  unfold splitAtColon
  rw [hnil]

/-! ### The parts of a text -/

/-- The parts are those that the two cuts find. -/
theorem PartedAtColons.splitAtColon_eq {text measurement column : String} {math : Option String}
    (h : PartedAtColons text measurement column math) :
    ∃ rest, splitAtColon text.toList = (measurement.toList, some rest) ∧
      splitAtColon rest = (column.toList, math.map String.toList) := by
  cases h with
  | two hmeasurement hcolumn =>
    refine ⟨column.toList, ?_, splitAtColon_of_not_mem hcolumn⟩
    have hsplit := splitAtColon_append hmeasurement column.toList
    simpa using hsplit
  | three hmeasurement hcolumn math =>
    refine ⟨column.toList ++ ':' :: math.toList, ?_, splitAtColon_append hcolumn math.toList⟩
    have hsplit := splitAtColon_append hmeasurement (column.toList ++ ':' :: math.toList)
    simpa using hsplit

/-- A text is parted in one way only. -/
theorem PartedAtColons.unique {text m m' c c' : String} {math math' : Option String}
    (h : PartedAtColons text m c math) (h' : PartedAtColons text m' c' math') :
    m = m' ∧ c = c' ∧ math = math' := by
  obtain ⟨rest, htext, hrest⟩ := h.splitAtColon_eq
  obtain ⟨rest', htext', hrest'⟩ := h'.splitAtColon_eq
  rw [htext] at htext'
  obtain ⟨hm, hsame⟩ := Prod.mk.inj htext'
  obtain rfl := Option.some.inj hsame
  rw [hrest] at hrest'
  obtain ⟨hc, hmath⟩ := Prod.mk.inj hrest'
  exact ⟨String.toList_injective hm, String.toList_injective hc,
    Option.map_injective (fun _ _ => String.toList_injective) hmath⟩

/-- A text is cut at its first colon. -/
theorem exists_cut {text : String} (h : ':' ∈ text.toList) :
    ∃ before after : String, text = before ++ ":" ++ after ∧ ':' ∉ before.toList := by
  obtain ⟨before, after, htext, hbefore⟩ := List.eq_append_cons_of_mem h
  refine ⟨String.ofList before, String.ofList after, ?_, by simpa using hbefore⟩
  apply String.toList_injective
  rw [htext]
  simp

theorem exists_parted {text : String} (h : ':' ∈ text.toList) :
    ∃ measurement column math, PartedAtColons text measurement column math := by
  obtain ⟨measurement, rest, rfl, hmeasurement⟩ := exists_cut h
  -- What is behind the first colon is cut once more, if it can be.
  by_cases hrest : ':' ∈ rest.toList
  · obtain ⟨column, math, rfl, hcolumn⟩ := exists_cut hrest
    refine ⟨measurement, column, some math, ?_⟩
    have hparted := PartedAtColons.three hmeasurement hcolumn math
    simpa [String.append_assoc] using hparted
  · exact ⟨measurement, rest, none, .two hmeasurement hrest⟩

theorem PartedAtColons.mem {text measurement column : String} {math : Option String}
    (h : PartedAtColons text measurement column math) : ':' ∈ text.toList := by
  cases h with
  | two => simp
  | three => simp

/-- The lookup of a text is made of its parts, if the names have some text. -/
theorem ofText?_of_parted {text measurement column : String} {math : Option String}
    (h : PartedAtColons text measurement column math) :
    Lookup.ofText? text =
      if measurement = "" ∨ column = "" then none
      else some ⟨measurement, column, math.filter (· ≠ "")⟩ := by
  obtain ⟨rest, htext, hrest⟩ := h.splitAtColon_eq
  unfold Lookup.ofText?
  rw [htext]
  simp only
  rw [hrest]
  simp only
  by_cases hempty : measurement = "" ∨ column = ""
  · rw [if_pos hempty, if_pos (by simpa using hempty)]
  · rw [if_neg hempty, if_neg (by simpa using hempty), String.ofList_toList, String.ofList_toList]
    cases math with
    | none => rfl
    | some math =>
      by_cases hmath : math = ""
      · rw [hmath]
        rfl
      · simp [Option.filter_some, hmath]

/-- The text of a lookup has a colon. -/
theorem mem_of_ofText? {text : String} {l : Lookup} (h : Lookup.ofText? text = some l) :
    ':' ∈ text.toList := by
  by_contra hcolon
  unfold Lookup.ofText? at h
  rw [splitAtColon_of_not_mem hcolon] at h
  cases h

/-- A plain lookup is written with its parts between colons. -/
theorem Lookup.Plain.parted {l : Lookup} (h : l.Plain) :
    PartedAtColons l.toText l.measurement l.column l.math := by
  obtain ⟨measurement, column, math⟩ := l
  cases math with
  | none =>
    have hparted := PartedAtColons.two h.measurement.2 h.column.2
    simpa [Lookup.toText] using hparted
  | some math =>
    have hparted := PartedAtColons.three h.measurement.2 h.column.2 math
    simpa [Lookup.toText, String.append_assoc] using hparted

/-- The lookup of a text has its parts, and an empty calculation is none. -/
theorem ofText?_eq_some_iff {text : String} {l : Lookup} :
    Lookup.ofText? text = some l ↔
      ∃ math, PartedAtColons text l.measurement l.column math ∧ l.measurement ≠ "" ∧
        l.column ≠ "" ∧ l.math = math.filter (· ≠ "") := by
  constructor
  · intro h
    obtain ⟨measurement, column, math, hparted⟩ := exists_parted (mem_of_ofText? h)
    rw [ofText?_of_parted hparted] at h
    split at h
    · cases h
    · next hne =>
      rw [not_or] at hne
      cases h
      exact ⟨math, hparted, hne.1, hne.2, rfl⟩
  · intro h
    obtain ⟨math, hparted, hmeasurement, hcolumn, hmath⟩ := h
    rw [ofText?_of_parted hparted, if_neg (not_or.2 ⟨hmeasurement, hcolumn⟩), ← hmath]

/-- A text has a lookup if it has a colon and both names have some text. -/
theorem isSome_ofText?_iff {text : String} :
    (Lookup.ofText? text).isSome ↔
      ':' ∈ text.toList ∧ ∀ measurement column math,
        PartedAtColons text measurement column math → measurement ≠ "" ∧ column ≠ "" := by
  constructor
  · intro h
    obtain ⟨l, hl⟩ := Option.isSome_iff_exists.1 h
    refine ⟨mem_of_ofText? hl, ?_⟩
    intro measurement column math hparted
    rw [ofText?_of_parted hparted] at hl
    split at hl
    · cases hl
    · next hne => exact not_or.1 hne
  · intro h
    obtain ⟨hcolon, hne⟩ := h
    obtain ⟨measurement, column, math, hparted⟩ := exists_parted hcolon
    rw [ofText?_of_parted hparted, if_neg (not_or.2 (hne _ _ _ hparted))]
    rfl

/-- A plain lookup is found again in its text. -/
theorem ofText?_toText {l : Lookup} (h : l.Plain) : Lookup.ofText? l.toText = some l := by
  refine ofText?_eq_some_iff.2 ⟨l.math, h.parted, h.measurement.1, h.column.1, ?_⟩
  cases hmath : l.math with
  | none => rfl
  | some math =>
    have hne : math ≠ "" := by
      intro hempty
      rw [hempty] at hmath
      exact h.math hmath
    rw [Option.filter_some, if_pos (decide_eq_true hne)]

/-- **What the texts of lookups are.** A text with a colon is parted at its first two colons in
    exactly one way. It has a lookup exactly if it has a colon and the two parts before the second
    one are not empty, and then these are the names and the third part, unless it is empty, the
    calculation. So plain lookups are found again in their texts. -/
theorem ofText?_iff_parted_at_colons :
    (∀ text, ':' ∈ text.toList ↔
      ∃ measurement column math, PartedAtColons text measurement column math) ∧
    (∀ text measurement column math measurement' column' math',
      PartedAtColons text measurement column math →
        PartedAtColons text measurement' column' math' →
          measurement = measurement' ∧ column = column' ∧ math = math') ∧
    (∀ text, (Lookup.ofText? text).isSome ↔
      ':' ∈ text.toList ∧ ∀ measurement column math,
        PartedAtColons text measurement column math → measurement ≠ "" ∧ column ≠ "") ∧
    (∀ text l, Lookup.ofText? text = some l ↔
      ∃ math, PartedAtColons text l.measurement l.column math ∧ l.measurement ≠ "" ∧
        l.column ≠ "" ∧ l.math = math.filter (· ≠ "")) ∧
    ∀ l : Lookup, l.Plain → Lookup.ofText? l.toText = some l := by
  refine ⟨?_, fun _ _ _ _ _ _ _ h h' => h.unique h', fun _ => isSome_ofText?_iff,
    fun _ _ => ofText?_eq_some_iff, fun _ => ofText?_toText⟩
  intro text
  constructor
  · exact exists_parted
  · intro h
    obtain ⟨measurement, column, math, hparted⟩ := h
    exact hparted.mem

/-- A calculation may have colons of its own. -/
theorem ofText?_iff_parted_at_colons_colons :
    Lookup.Plain ⟨"cpu", "load", some "*60:1"⟩ ∧
      Lookup.ofText? "cpu:load:*60:1" = some ⟨"cpu", "load", some "*60:1"⟩ := by
  have hplain : Lookup.Plain ⟨"cpu", "load", some "*60:1"⟩ :=
    ⟨by decide, by decide, by decide⟩
  exact ⟨hplain, ofText?_iff_parted_at_colons.2.2.2.2 _ hplain⟩

example : Lookup.ofText? "cpu:load:" = some ⟨"cpu", "load", none⟩ := by decide

end SeriesBroker
