import Mathlib.Data.List.Forall2
import SeriesBroker.Statement.Piece

/-! # Texts that end where they say

    To get a value back from a text it has to be known where its part of the text ends. There
    are three ways in a query:

    - a quoted text ends at its closing mark (`quoteWith_cancel`);
    - a word ends before the first character that it cannot have (`span_cancel`);
    - a list ends where no separator follows (`joined_cancel`).

    All three are told in one form: if two values, each followed by anything that may follow,
    give the same text, then the values are the same and so is what follows.
-/

namespace SeriesBroker.Statement

/-! ### Quoted texts -/

/-- An escaped text is read back up to the mark. -/
theorem readEscaped_escape {mark : Char} (hmark : mark ≠ '\\') (text rest : List Char) :
    readEscaped mark (escape mark text ++ mark :: rest) = some (text, rest) := by
  induction text with
  | nil => simp [escape, readEscaped, hmark]
  | cons c text ih =>
    have hescape : escape mark (c :: text) =
        (if c = '\\' ∨ c = mark then ['\\', c] else [c]) ++ escape mark text := by
      simp [escape]
    rw [hescape, List.append_assoc]
    -- With a backslash before it the character stands for itself; otherwise it is no mark.
    by_cases hc : c = '\\' ∨ c = mark
    · rw [if_pos hc]
      simp [readEscaped, ih]
    · obtain ⟨hslash, hother⟩ := not_or.1 hc
      rw [if_neg hc]
      simp [readEscaped, hslash, hother, ih]

/-- A quoted text is read back, whatever stands after it. -/
theorem readQuoted_quoteWith {mark : Char} (hmark : mark ≠ '\\') (text : String)
    (rest : List Char) :
    readQuoted mark ((quoteWith mark text).toList ++ rest) = some (text.toList, rest) := by
  have htext : (quoteWith mark text).toList ++ rest =
      mark :: (escape mark text.toList ++ mark :: rest) := by
    simp [quoteWith]
  rw [htext, readQuoted, if_pos rfl, readEscaped_escape hmark]

theorem quoteWith_cancel {mark : Char} (hmark : mark ≠ '\\') {a b : String} {r s : List Char}
    (h : (quoteWith mark a).toList ++ r = (quoteWith mark b).toList ++ s) : a = b ∧ r = s := by
  have hread := congrArg (readQuoted mark) h
  rw [readQuoted_quoteWith hmark, readQuoted_quoteWith hmark, Option.some.injEq,
    Prod.mk.injEq] at hread
  exact ⟨String.toList_inj.1 hread.1, hread.2⟩

theorem quoteName_cancel {a b : String} {r s : List Char}
    (h : (quoteName a).toList ++ r = (quoteName b).toList ++ s) : a = b ∧ r = s :=
  quoteWith_cancel (by decide) h

theorem quoteLiteral_cancel {a b : String} {r s : List Char}
    (h : (quoteLiteral a).toList ++ r = (quoteLiteral b).toList ++ s) : a = b ∧ r = s :=
  quoteWith_cancel (by decide) h

/-- A name starts with a double quotation mark. -/
theorem quoteName_append (name : String) (rest : List Char) :
    ∃ more, (quoteName name).toList ++ rest = '"' :: more :=
  ⟨escape '"' name.toList ++ ['"'] ++ rest, by simp [quoteName, quoteWith]⟩

/-- A literal starts with a single one. -/
theorem quoteLiteral_append (text : String) (rest : List Char) :
    ∃ more, (quoteLiteral text).toList ++ rest = '\'' :: more :=
  ⟨escape '\'' text.toList ++ ['\''] ++ rest, by simp [quoteLiteral, quoteWith]⟩

/-! ### Words -/

/-- What follows a word is at the end or starts with a character that no word has. -/
def Stops (p : Char → Prop) (rest : List Char) : Prop := ∀ c ∈ rest.head?, ¬ p c

theorem Stops.cons {p : Char → Prop} {c : Char} (h : ¬ p c) (rest : List Char) :
    Stops p (c :: rest) := by
  intro d hd
  cases hd
  exact h

/-- Words end before the first character that they cannot have. -/
theorem span_cancel {p : Char → Prop} {a b r s : List Char} (ha : ∀ c ∈ a, p c)
    (hb : ∀ c ∈ b, p c) (hr : Stops p r) (hs : Stops p s) (h : a ++ r = b ++ s) :
    a = b ∧ r = s := by
  induction a generalizing b with
  | nil =>
    cases b with
    | nil => exact ⟨rfl, h⟩
    | cons d b =>
      -- The longer word would go on where the rest of the shorter one starts.
      rw [List.nil_append, List.cons_append] at h
      exact absurd (hb d List.mem_cons_self) (hr d (by rw [h]; rfl))
  | cons c a ih =>
    cases b with
    | nil =>
      rw [List.nil_append, List.cons_append] at h
      exact absurd (ha c List.mem_cons_self) (hs c (by rw [← h]; rfl))
    | cons d b =>
      rw [List.cons_append, List.cons_append, List.cons.injEq] at h
      obtain ⟨rfl, h⟩ := h
      obtain ⟨rfl, hrest⟩ := ih (fun x hx => ha x (List.mem_cons_of_mem c hx))
        (fun x hx => hb x (List.mem_cons_of_mem c hx)) h
      exact ⟨rfl, hrest⟩

/-! ### Lists -/

/-- The first of several joined values is followed by the end or by a separator. -/
theorem joined_cons {α : Type} (text : α → List Char) (between : List Char) (a : α) (l : List α)
    (r : List Char) :
    ∃ rest, List.intercalate between ((a :: l).map text) ++ r = text a ++ rest ∧
      ((l = [] ∧ rest = r) ∨
        (l ≠ [] ∧ rest = between ++ (List.intercalate between (l.map text) ++ r))) := by
  cases l with
  | nil => exact ⟨r, by simp, .inl ⟨rfl, rfl⟩⟩
  | cons b l =>
    refine ⟨_, ?_, .inr ⟨List.cons_ne_nil b l, rfl⟩⟩
    rw [List.map_cons, List.map_cons, List.intercalate_cons_cons]
    simp only [List.append_assoc]

/-- Lists of values that end where they say end where no separator follows. -/
theorem joined_cancel {α : Type} {text : α → List Char} {valid : α → Prop}
    {same : α → α → Prop} {follows : List Char → Prop} {between : List Char}
    (hread : ∀ a b r s, valid a → valid b → follows r → follows s →
      text a ++ r = text b ++ s → same a b ∧ r = s)
    (hbetween : ∀ r, follows (between ++ r)) {l m : List α} (hl : ∀ a ∈ l, valid a)
    (hm : ∀ a ∈ m, valid a) (hlne : l ≠ []) (hmne : m ≠ []) {r s : List Char} (hr : follows r)
    (hs : follows s) (hrend : ¬ between <+: r) (hsend : ¬ between <+: s)
    (h : List.intercalate between (l.map text) ++ r =
      List.intercalate between (m.map text) ++ s) :
    List.Forall₂ same l m ∧ r = s := by
  have hfollows : ∀ {l : List α} {r rest : List Char}, follows r → (l = [] ∧ rest = r) ∨
      (l ≠ [] ∧ rest = between ++ (List.intercalate between (l.map text) ++ r)) →
      follows rest := by
    rintro l r rest hr (⟨_, rfl⟩ | ⟨_, rfl⟩)
    · exact hr
    · exact hbetween _
  induction l generalizing m with
  | nil => exact absurd rfl hlne
  | cons a l ih =>
    cases m with
    | nil => exact absurd rfl hmne
    | cons b m =>
      obtain ⟨rest, hltext, hlcase⟩ := joined_cons text between a l r
      obtain ⟨rest', hmtext, hmcase⟩ := joined_cons text between b m s
      rw [hltext, hmtext] at h
      obtain ⟨hab, heq⟩ := hread a b rest rest' (hl a List.mem_cons_self)
        (hm b List.mem_cons_self) (hfollows hr hlcase) (hfollows hs hmcase) h
      subst heq
      -- Both lists end here, or both go on: a separator is not mistaken for the end.
      rcases hlcase with ⟨rfl, rfl⟩ | ⟨hne, hlrest⟩
      · rcases hmcase with ⟨rfl, hrs⟩ | ⟨_, hmrest⟩
        · exact ⟨.cons hab .nil, hrs⟩
        · exact absurd ⟨_, hmrest.symm⟩ hrend
      · rcases hmcase with ⟨rfl, rfl⟩ | ⟨hne', hmrest⟩
        · exact absurd ⟨_, hlrest.symm⟩ hsend
        · have hcancel := List.append_cancel_left (hlrest.symm.trans hmrest)
          obtain ⟨hall, hrs⟩ := ih (fun x hx => hl x (List.mem_cons_of_mem a hx))
            (fun x hx => hm x (List.mem_cons_of_mem b hx)) hne hne' hcancel
          exact ⟨.cons hab hall, hrs⟩

end SeriesBroker.Statement
