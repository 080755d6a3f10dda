import SeriesBroker.Proofs.Statement.Cancel

/-! # Quoting delimits

    Every text that is sent to the store holds names and strings that a caller chose, and a reader
    of the text has only the marks to tell them from the rest. The marks are enough. A quoted text
    is read back from its opening mark, the reader stops right behind its closing mark, and this
    is so for every text and whatever follows (`delimits_quotes`).

    Two descriptions of a quoted text carry this:

    - it is made by two replacements, of the backslashes and then of the marks, and the second one
      does not touch what the first one put in (`escape_eq_replaceEach`);
    - it is a spelling of the text between two marks, and a spelling has no mark that is not
      behind a backslash (`readQuoted_eq_some_iff`).
-/

namespace SeriesBroker.Statement

/-! ### Two replacements -/

/-- Put a text in the place of each occurrence of a character. -/
def replaceEach (old : Char) (new : List Char) (text : List Char) : List Char :=
  text.flatMap fun c => if c = old then new else [c]

theorem replaceEach_append (old : Char) (new a b : List Char) :
    replaceEach old new (a ++ b) = replaceEach old new a ++ replaceEach old new b :=
  List.flatMap_append

/-- Doubling the backslashes first and then putting one before each mark is the same as putting
    one before both at once, for a backslash is no mark. -/
theorem escape_eq_replaceEach {mark : Char} (hmark : mark ≠ '\\') (text : List Char) :
    escape mark text =
      replaceEach mark ['\\', mark] (replaceEach '\\' ['\\', '\\'] text) := by
  induction text with
  | nil => rfl
  | cons c text ih =>
    have hescape : escape mark (c :: text) =
        (if c = '\\' ∨ c = mark then ['\\', c] else [c]) ++ escape mark text := rfl
    have hdouble : replaceEach '\\' ['\\', '\\'] (c :: text) =
        (if c = '\\' then ['\\', '\\'] else [c]) ++ replaceEach '\\' ['\\', '\\'] text := rfl
    rw [hescape, hdouble, replaceEach_append, ← ih]
    congr 1
    by_cases hslash : c = '\\'
    · -- Neither of the two backslashes is a mark.
      simp [hslash, replaceEach, Ne.symm hmark]
    · by_cases hc : c = mark
      · simp [hc, hmark, replaceEach]
      · simp [hslash, hc, replaceEach]

/-! ### Spellings -/

/-- A spelling of a text: each character stands for itself, or has a backslash before it. A mark
    and a backslash always have one. -/
inductive Spells (mark : Char) : List Char → List Char → Prop where
  | nil : Spells mark [] []
  | plain {c : Char} {body text : List Char} : c ≠ '\\' → c ≠ mark → Spells mark body text →
      Spells mark (c :: body) (c :: text)
  | guarded {c : Char} {body text : List Char} : Spells mark body text →
      Spells mark ('\\' :: c :: body) (c :: text)

/-- A spelling is read up to the mark behind it. -/
theorem Spells.readEscaped_eq {mark : Char} (hmark : mark ≠ '\\') {body text : List Char}
    (h : Spells mark body text) (rest : List Char) :
    readEscaped mark (body ++ mark :: rest) = some (text, rest) := by
  induction h with
  | nil => simp [readEscaped, hmark]
  | plain hslash hc _ ih => simp [readEscaped, hslash, hc, ih]
  | guarded _ ih => simp [readEscaped, ih]

/-- What is read is a spelling, and the reader stops behind the first mark after it. -/
theorem exists_spells_of_readEscaped {mark : Char} (input text rest : List Char)
    (h : readEscaped mark input = some (text, rest)) :
    ∃ body, Spells mark body text ∧ input = body ++ mark :: rest := by
  fun_induction readEscaped mark input generalizing text with
  | case1 => cases h
  | case2 c input ih =>
    obtain ⟨⟨text', rest'⟩, hread, heq⟩ := Option.map_eq_some_iff.1 h
    cases heq
    obtain ⟨body, hbody, hinput⟩ := ih text' hread
    exact ⟨'\\' :: c :: body, .guarded hbody, by rw [hinput]; rfl⟩
  | case3 input hnone =>
    cases h
    exact ⟨[], .nil, rfl⟩
  | case4 c input hnone hc ih =>
    obtain ⟨⟨text', rest'⟩, hread, heq⟩ := Option.map_eq_some_iff.1 h
    cases heq
    obtain ⟨body, hbody, hinput⟩ := ih text' hread
    have hslash : c ≠ '\\' := by
      -- A backslash that is the last character has nothing behind it to be read.
      intro hslash
      cases input with
      | nil => simp [readEscaped] at hread
      | cons d input => exact hnone d input hslash rfl
    exact ⟨c :: body, .plain hslash hc hbody, by rw [hinput]; rfl⟩

/-- A quoted text is read if it is a spelling between two marks. -/
theorem readQuoted_eq_some_iff {mark : Char} (hmark : mark ≠ '\\') {input text rest : List Char} :
    readQuoted mark input = some (text, rest) ↔
      ∃ body, Spells mark body text ∧ input = mark :: body ++ mark :: rest := by
  constructor
  · intro h
    cases input with
    | nil => cases h
    | cons c input =>
      rw [readQuoted] at h
      by_cases hc : c = mark
      · rw [if_pos hc] at h
        obtain ⟨body, hbody, hinput⟩ := exists_spells_of_readEscaped input text rest h
        exact ⟨body, hbody, by rw [hc, hinput]; rfl⟩
      · rw [if_neg hc] at h
        cases h
  · intro h
    obtain ⟨body, hbody, hinput⟩ := h
    rw [hinput]
    exact (if_pos rfl).trans (hbody.readEscaped_eq hmark rest)

/-- What was read is read again if something is put behind it. -/
theorem readQuoted_append {mark : Char} (hmark : mark ≠ '\\') {input text rest : List Char}
    (h : readQuoted mark input = some (text, rest)) (more : List Char) :
    readQuoted mark (input ++ more) = some (text, rest ++ more) := by
  obtain ⟨body, hbody, hinput⟩ := (readQuoted_eq_some_iff hmark).1 h
  exact (readQuoted_eq_some_iff hmark).2 ⟨body, hbody, by simp [hinput]⟩

/-! ### Ways to quote -/

/-- A way to quote texts with a mark that tells where each of them ends. -/
structure Delimits (mark : Char) (quote : String → String) : Prop where
  /-- Backslashes are doubled, marks get one, and a mark is put at both ends. -/
  made : ∀ text, (quote text).toList =
    mark :: replaceEach mark ['\\', mark] (replaceEach '\\' ['\\', '\\'] text.toList) ++ [mark]
  /-- Whatever follows, reading takes exactly the quoted text and gives the text back. -/
  read : ∀ text rest, readQuoted mark ((quote text).toList ++ rest) = some (text.toList, rest)
  injective : Function.Injective quote
  /-- No text ends before its last mark. -/
  unfinished : ∀ text front back, (quote text).toList = front ++ back → back ≠ [] →
    readQuoted mark front = none
  /-- No text takes in something of what follows. -/
  cancel : ∀ a b rest rest', (quote a).toList ++ rest = (quote b).toList ++ rest' →
    a = b ∧ rest = rest'

/-- Any mark but a backslash tells where a text ends. -/
theorem delimits_quoteWith {mark : Char} (hmark : mark ≠ '\\') :
    Delimits mark (quoteWith mark) where
  made text := by
    rw [quoteWith, String.toList_ofList, escape_eq_replaceEach hmark]
  read := readQuoted_quoteWith hmark
  injective a b h := by
    have hnil : (quoteWith mark a).toList ++ [] = (quoteWith mark b).toList ++ [] := by rw [h]
    exact (quoteWith_cancel hmark hnil).1
  unfinished text front back hsplit hback := by
    cases hfront : readQuoted mark front with
    | none => rfl
    | some found =>
      -- If the front were read, the back would be left over when the whole text is.
      have hwhole := readQuoted_append hmark hfront back
      have hread := readQuoted_quoteWith hmark text []
      rw [List.append_nil, hsplit, hwhole, Option.some.injEq, Prod.mk.injEq] at hread
      exact absurd (List.append_eq_nil_iff.1 hread.2).2 hback
  cancel _ _ _ _ := quoteWith_cancel hmark

/-- **Quoted names and literals end where they say.** Both are made by doubling backslashes and
    guarding marks, are read back whatever follows, and are read from no part of them. So two
    names that are quoted to the same text are the same, and no name reaches into what follows. -/
theorem delimits_quotes : Delimits '"' quoteName ∧ Delimits '\'' quoteLiteral :=
  ⟨delimits_quoteWith (by decide), delimits_quoteWith (by decide)⟩

-- Backslashes at the end, marks of both kinds and a text that looks like the rest of a query.
example : readQuoted '"' ((quoteName "a\\\"; '\\\\").toList ++ "\" = 'b'".toList) =
    some ("a\\\"; '\\\\".toList, "\" = 'b'".toList) := by
  decide

end SeriesBroker.Statement
