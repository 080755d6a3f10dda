import Mathlib.Computability.Language
import SeriesBroker.Text.Pattern

/-! # The texts of a pattern

    A pattern stands for a regular language, and the matcher accepts exactly the texts of this
    language (`Pattern.accepts_iff`). Key idea: a text that begins with a character is of a
    pattern exactly if the rest is of the pattern for what may follow this character
    (`Pattern.mem_after`).
-/

namespace SeriesBroker.Text.Pattern

open scoped Computability

def language : Pattern → Language Char
  | nothing => 0
  | empty => 1
  | oneOf set => { text | ∃ c ∈ set, text = [c] }
  | seq first second => first.language * second.language
  | either first second => first.language + second.language
  | many item => item.language∗

/-! ### The texts of each form -/

@[simp] theorem not_mem_nothing (text : List Char) : text ∉ nothing.language :=
  Language.notMem_zero text

@[simp] theorem mem_empty {text : List Char} : text ∈ empty.language ↔ text = [] :=
  Language.mem_one text

@[simp] theorem mem_oneOf {set text : List Char} :
    text ∈ (oneOf set).language ↔ ∃ c ∈ set, text = [c] := Iff.rfl

theorem mem_seq {first second : Pattern} {text : List Char} :
    text ∈ (seq first second).language ↔
      ∃ a ∈ first.language, ∃ b ∈ second.language, a ++ b = text := Language.mem_mul

@[simp] theorem mem_either {first second : Pattern} {text : List Char} :
    text ∈ (either first second).language ↔ text ∈ first.language ∨ text ∈ second.language :=
  Language.mem_add _ _ text

theorem mem_many {item : Pattern} {text : List Char} :
    text ∈ (many item).language ↔
      ∃ parts : List (List Char), text = parts.flatten ∧ ∀ part ∈ parts, part ∈ item.language :=
  Language.mem_kstar

/-- Many characters out of some are a text that has no others. -/
theorem mem_many_oneOf {set text : List Char} :
    text ∈ (many (oneOf set)).language ↔ ∀ c ∈ text, c ∈ set := by
  rw [mem_many]
  constructor
  · intro h c hc
    obtain ⟨parts, rfl, hparts⟩ := h
    obtain ⟨part, hpart, hmem⟩ := List.mem_flatten.1 hc
    obtain ⟨d, hd, rfl⟩ := hparts part hpart
    rwa [List.mem_singleton.1 hmem]
  · intro h
    refine ⟨text.map fun c => [c], by simp [← List.flatMap_def], ?_⟩
    intro part hpart
    obtain ⟨c, hc, rfl⟩ := List.mem_map.1 hpart
    exact ⟨c, h c hc, rfl⟩

theorem mem_atLeastOne_oneOf {set text : List Char} :
    text ∈ (atLeastOne (oneOf set)).language ↔ text ≠ [] ∧ ∀ c ∈ text, c ∈ set := by
  rw [atLeastOne, mem_seq]
  constructor
  · intro h
    obtain ⟨_, ⟨c, hc, rfl⟩, rest, hrest, rfl⟩ := h
    exact ⟨List.cons_ne_nil c _, List.forall_mem_cons.2 ⟨hc, mem_many_oneOf.1 hrest⟩⟩
  · intro h
    obtain ⟨c, rest, rfl⟩ := List.exists_cons_of_ne_nil h.1
    obtain ⟨hc, hrest⟩ := List.forall_mem_cons.1 h.2
    exact ⟨[c], ⟨c, hc, rfl⟩, rest, mem_many_oneOf.2 hrest, rfl⟩

theorem mem_optional {item : Pattern} {text : List Char} :
    text ∈ (optional item).language ↔ text = [] ∨ text ∈ item.language := by
  rw [optional, mem_either, mem_empty]

/-- A character in front of something else. -/
theorem mem_seq_oneOf {set text : List Char} {second : Pattern} :
    text ∈ (seq (oneOf set) second).language ↔
      ∃ c ∈ set, ∃ rest ∈ second.language, text = c :: rest := by
  rw [mem_seq]
  constructor
  · intro h
    obtain ⟨_, ⟨c, hc, rfl⟩, rest, hrest, rfl⟩ := h
    exact ⟨c, hc, rest, hrest, rfl⟩
  · intro h
    obtain ⟨c, hc, rest, hrest, rfl⟩ := h
    exact ⟨[c], ⟨c, hc, rfl⟩, rest, hrest, rfl⟩

theorem mem_word {text : String} {found : List Char} :
    found ∈ (word text).language ↔ found = text.toList := by
  unfold word
  induction text.toList generalizing found with
  | nil => exact mem_empty
  | cons c rest ih =>
    rw [List.foldr_cons, mem_seq_oneOf]
    constructor
    · intro h
      obtain ⟨d, hd, tail, htail, rfl⟩ := h
      rw [List.mem_singleton.1 hd, ih.1 htail]
    · intro h
      exact ⟨c, List.mem_singleton_self c, rest, ih.2 rfl, h⟩

theorem mem_anyOf {patterns : List Pattern} {text : List Char} :
    text ∈ (anyOf patterns).language ↔ ∃ p ∈ patterns, text ∈ p.language := by
  unfold anyOf
  induction patterns with
  | nil => simp
  | cons p patterns ih => rw [List.foldr_cons, mem_either, ih, List.exists_mem_cons_iff]

/-! ### The matcher -/

/-- The empty text is put together from empty texts only. -/
theorem allowsEmpty_iff (p : Pattern) : p.allowsEmpty = true ↔ [] ∈ p.language := by
  induction p with
  | nothing => simp [allowsEmpty]
  | empty => simp [allowsEmpty]
  | oneOf set => simp [allowsEmpty]
  | seq first second ihfirst ihsecond =>
    rw [allowsEmpty, Bool.and_eq_true, ihfirst, ihsecond, mem_seq]
    constructor
    · intro h
      exact ⟨[], h.1, [], h.2, rfl⟩
    · intro h
      obtain ⟨a, ha, b, hb, hab⟩ := h
      obtain ⟨rfl, rfl⟩ := List.append_eq_nil_iff.1 hab
      exact ⟨ha, hb⟩
  | either first second ihfirst ihsecond =>
    rw [allowsEmpty, Bool.or_eq_true, ihfirst, ihsecond, mem_either]
  | many item _ => exact iff_of_true rfl (Language.nil_mem_kstar _)

theorem language_joined (first second : Pattern) :
    (joined first second).language = (seq first second).language := by
  unfold joined
  split
  · exact (zero_mul second.language).symm
  · exact (one_mul second.language).symm
  · rfl

theorem language_choice (first second : Pattern) :
    (choice first second).language = (either first second).language := by
  unfold choice
  split
  · exact (zero_add second.language).symm
  · exact (add_zero first.language).symm
  · rfl

/-- The first character of a sequence is one of its first part, or this part is empty. -/
theorem cons_mem_seq {first second : Pattern} {c : Char} {text : List Char} :
    c :: text ∈ (seq first second).language ↔
      (∃ a b, c :: a ∈ first.language ∧ b ∈ second.language ∧ a ++ b = text) ∨
        ([] ∈ first.language ∧ c :: text ∈ second.language) := by
  rw [mem_seq]
  constructor
  · intro h
    obtain ⟨a, ha, b, hb, hab⟩ := h
    cases a with
    | nil =>
      rw [← hab]
      exact .inr ⟨ha, hb⟩
    | cons d a =>
      obtain ⟨rfl, htext⟩ := List.cons.inj hab
      exact .inl ⟨a, b, ha, hb, htext⟩
  · intro h
    obtain ⟨a, b, ha, hb, htext⟩ | ⟨hempty, hsecond⟩ := h
    · exact ⟨c :: a, ha, b, hb, by rw [← htext, List.cons_append]⟩
    · exact ⟨[], hempty, c :: text, hsecond, rfl⟩

/-- The first character of many texts is one of the first of them that is not empty. -/
theorem cons_mem_many {item : Pattern} {c : Char} {text : List Char} :
    c :: text ∈ (many item).language ↔
      ∃ a b, c :: a ∈ item.language ∧ b ∈ (many item).language ∧ a ++ b = text := by
  constructor
  · intro h
    obtain ⟨parts, htext, hparts⟩ := Language.mem_kstar_iff_exists_nonempty.1 h
    cases parts with
    | nil => cases htext
    | cons part parts =>
      obtain ⟨hpart, hfull⟩ := hparts part List.mem_cons_self
      obtain ⟨d, a, rfl⟩ := List.exists_cons_of_ne_nil hfull
      obtain ⟨rfl, hrest⟩ := List.cons.inj htext
      refine ⟨a, parts.flatten, hpart, mem_many.2 ⟨parts, rfl, ?_⟩, hrest.symm⟩
      exact fun part hmem => (hparts part (List.mem_cons_of_mem _ hmem)).1
  · intro h
    obtain ⟨a, b, ha, hb, rfl⟩ := h
    obtain ⟨parts, rfl, hparts⟩ := mem_many.1 hb
    exact mem_many.2 ⟨(c :: a) :: parts, rfl, List.forall_mem_cons.2 ⟨ha, hparts⟩⟩

/-- What follows in a sequence begins with what follows in its first part. -/
theorem mem_joined_after {first : Pattern} {c : Char}
    (hfirst : ∀ text, text ∈ (first.after c).language ↔ c :: text ∈ first.language)
    (second : Pattern) (text : List Char) :
    text ∈ (joined (first.after c) second).language ↔
      ∃ a b, c :: a ∈ first.language ∧ b ∈ second.language ∧ a ++ b = text := by
  rw [language_joined, mem_seq]
  constructor
  · intro h
    obtain ⟨a, ha, b, hb, hab⟩ := h
    exact ⟨a, b, (hfirst a).1 ha, hb, hab⟩
  · intro h
    obtain ⟨a, b, ha, hb, hab⟩ := h
    exact ⟨a, (hfirst a).2 ha, b, hb, hab⟩

theorem mem_after_oneOf (set : List Char) (c : Char) (text : List Char) :
    text ∈ ((oneOf set).after c).language ↔ c :: text ∈ (oneOf set).language := by
  rw [after, mem_oneOf]
  by_cases hc : set.contains c = true
  · rw [if_pos hc, mem_empty]
    constructor
    · intro h
      exact ⟨c, List.contains_iff_mem.1 hc, by rw [h]⟩
    · intro h
      obtain ⟨d, _, hd⟩ := h
      exact (List.cons.inj hd).2
  · rw [if_neg hc]
    refine iff_of_false (not_mem_nothing text) ?_
    intro h
    obtain ⟨d, hd, htext⟩ := h
    rw [(List.cons.inj htext).1] at hc
    exact hc (List.contains_iff_mem.2 hd)

/-- One step of the matcher: what may follow a character. -/
theorem mem_after (p : Pattern) (c : Char) (text : List Char) :
    text ∈ (p.after c).language ↔ c :: text ∈ p.language := by
  induction p generalizing text with
  | nothing => simp [after]
  | empty => simp [after]
  | oneOf set => exact mem_after_oneOf set c text
  | seq first second ihfirst ihsecond =>
    have hsecond : text ∈ (second.after c).language ↔ c :: text ∈ second.language := ihsecond text
    rw [cons_mem_seq, ← mem_joined_after ihfirst second text, ← allowsEmpty_iff, ← hsecond, after]
    -- The second part is reached only where the first one may be empty.
    by_cases hempty : first.allowsEmpty = true
    · simp only [hempty, if_true, language_choice, mem_either, true_and]
    · simp only [hempty, Bool.false_eq_true, if_false, false_and, or_false]
  | either first second ihfirst ihsecond =>
    have hfirst : text ∈ (first.after c).language ↔ c :: text ∈ first.language := ihfirst text
    have hsecond : text ∈ (second.after c).language ↔ c :: text ∈ second.language := ihsecond text
    rw [after, language_choice, mem_either, mem_either, hfirst, hsecond]
  | many item ih => rw [cons_mem_many, after, mem_joined_after ih (many item) text]

/-- **The matcher accepts the texts of the pattern.** -/
theorem accepts_iff (p : Pattern) (text : List Char) :
    p.accepts text = true ↔ text ∈ p.language := by
  induction text generalizing p with
  | nil => exact allowsEmpty_iff p
  | cons c text ih => exact (ih (p.after c)).trans (mem_after p c text)

end SeriesBroker.Text.Pattern
