import SeriesBroker.Json.Token

/-! # Scanning step by step

    The tokens of a text are found one by one: white space is skipped, the rest of a text is
    scanned on its own, and the first place without a token ends the scan. So each statement on
    tokens is an induction on the text.
-/

namespace SeriesBroker.Json

open Text (Symbol)

variable [FloatReader]

theorem scanOnto_append (inner outer : List Token) (text : List Symbol) :
    scanOnto (inner ++ outer) text = outer.reverse ++ scanOnto inner text := by
  fun_induction scanOnto inner text with
  | case1 inner => rw [scanOnto, List.reverse_append]
  | case2 inner s rest hspace ih => rw [scanOnto, if_pos hspace, ih]
  | case3 inner s rest hspace h =>
    rw [scanOnto, if_neg hspace]
    split
    · rw [← List.cons_append, List.reverse_append]
    · next h' => cases h.symm.trans h'
  | case4 inner s rest hspace t after h _ ih =>
    rw [scanOnto, if_neg hspace]
    split
    · next h' => cases h.symm.trans h'
    · next h' =>
      cases h.symm.trans h'
      exact ih

@[simp] theorem scan_nil : scan [] = [] := by
  rw [scan, scanOnto, List.reverse_nil]

theorem scan_cons_of_isSpace {s : Symbol} (h : isSpace s = true) (rest : List Symbol) :
    scan (s :: rest) = scan rest := by
  rw [scan, scanOnto, if_pos h]
  rfl

theorem scan_of_malformed {s : Symbol} {rest : List Symbol} (h : ¬ isSpace s = true)
    (hnone : readToken (s :: rest) = none) : scan (s :: rest) = [.malformed] := by
  rw [scan, scanOnto, if_neg h]
  split
  · rfl
  · next h' => cases hnone.symm.trans h'

theorem scan_of_readToken {s : Symbol} {rest after : List Symbol} {t : Token}
    (h : ¬ isSpace s = true) (hsome : readToken (s :: rest) = some (t, after)) :
    scan (s :: rest) = t :: scan after := by
  rw [scan, scanOnto, if_neg h]
  split
  · next h' => cases hsome.symm.trans h'
  · next h' =>
    cases hsome.symm.trans h'
    exact scanOnto_append [] [t] after

/-- White space in front is skipped. -/
theorem scan_append_of_isSpace {before : List Symbol} (h : ∀ s ∈ before, isSpace s = true)
    (text : List Symbol) : scan (before ++ text) = scan text := by
  induction before with
  | nil => rfl
  | cons s before ih =>
    obtain ⟨hs, hbefore⟩ := List.forall_mem_cons.1 h
    rw [List.cons_append, scan_cons_of_isSpace hs, ih hbefore]

/-- What the first token of a text is, and that it stands right behind the white space. -/
theorem exists_of_scan_eq_cons {text : List Symbol} {t : Token} {tokens : List Token}
    (h : scan text = t :: tokens) : ∃ before rest, text = before ++ rest ∧
      (∀ s ∈ before, isSpace s = true) ∧
      (readToken rest = none ∧ t = .malformed ∧ tokens = [] ∨
        ∃ after, readToken rest = some (t, after) ∧ tokens = scan after) := by
  induction text with
  | nil => cases scan_nil.symm.trans h
  | cons s rest ih =>
    by_cases hs : isSpace s = true
    · rw [scan_cons_of_isSpace hs] at h
      obtain ⟨before, rest', rfl, hbefore, hfirst⟩ := ih h
      exact ⟨s :: before, rest', rfl, List.forall_mem_cons.2 ⟨hs, hbefore⟩, hfirst⟩
    · refine ⟨[], s :: rest, rfl, by simp, ?_⟩
      cases hread : readToken (s :: rest) with
      | none =>
        rw [scan_of_malformed hs hread] at h
        cases h
        exact .inl ⟨rfl, rfl, rfl⟩
      | some read =>
        obtain ⟨first, after⟩ := read
        rw [scan_of_readToken hs hread] at h
        cases h
        exact .inr ⟨after, rfl, rfl⟩

/-- Only white space has no tokens. -/
theorem scan_eq_nil {text : List Symbol} :
    scan text = [] ↔ ∀ s ∈ text, isSpace s = true := by
  constructor
  · intro h
    induction text with
    | nil => simp
    | cons s rest ih =>
      by_cases hs : isSpace s = true
      · rw [scan_cons_of_isSpace hs] at h
        exact List.forall_mem_cons.2 ⟨hs, ih h⟩
      · cases hread : readToken (s :: rest) with
        | none => cases (scan_of_malformed hs hread).symm.trans h
        | some read => cases (scan_of_readToken hs hread).symm.trans h
  · intro h
    have := scan_append_of_isSpace h []
    rwa [List.append_nil, scan_nil] at this

/-! ### The token of null -/

def nullSymbols : List Symbol := Text.symbols "null"

theorem readNumber_ne_null {text after : List Symbol} :
    readNumber text ≠ some (.null, after) := by
  intro h
  simp only [readNumber, Option.map_eq_some_iff, Prod.mk.injEq, reduceCtorEq, false_and,
    and_false, exists_false] at h

theorem readToken_eq_null {text after : List Symbol} :
    readToken text = some (.null, after) ↔ text = nullSymbols ++ after := by
  constructor
  · intro h
    unfold readToken at h
    split at h
    case h_7 =>
      simp only [Option.map_eq_some_iff, Prod.mk.injEq, reduceCtorEq, false_and, and_false,
        exists_false] at h
    case h_8 =>
      cases h
      rfl
    case h_11 => exact absurd h readNumber_ne_null
    all_goals cases h
  · rintro rfl
    rfl

/-- Null is the only token of a text exactly if nothing but white space stands around it. -/
theorem scan_eq_null {text : List Symbol} : scan text = [.null] ↔
    ∃ before after, text = before ++ nullSymbols ++ after ∧
      (∀ s ∈ before, isSpace s = true) ∧ ∀ s ∈ after, isSpace s = true := by
  constructor
  · intro h
    obtain ⟨before, rest, rfl, hbefore, ⟨_, hmalformed, _⟩ | ⟨after, hread, hafter⟩⟩ :=
      exists_of_scan_eq_cons h
    · cases hmalformed
    · rw [readToken_eq_null] at hread
      rw [hread, ← List.append_assoc]
      exact ⟨before, after, rfl, hbefore, scan_eq_nil.1 hafter.symm⟩
  · rintro ⟨before, after, rfl, hbefore, hafter⟩
    rw [List.append_assoc, scan_append_of_isSpace hbefore]
    have hread : readToken (nullSymbols ++ after) = some (.null, after) := readToken_eq_null.2 rfl
    rw [← scan_eq_nil.2 hafter]
    exact scan_of_readToken (by decide) hread

end SeriesBroker.Json
