import Mathlib.Data.List.Forall2

/-! # Steps over a list

    Many functions do one step for each member of a list and stop at the first that fails. They
    succeed if all steps do, and otherwise fail as the first member does for which a step fails.

    Texts are often put together from a list of parts with the same text between them. What holds
    of such a text is seen part by part as well (`intercalate_induction`).
-/

namespace SeriesBroker

/-- A step that succeeds after another one had a result to start from. -/
theorem exists_of_bind_eq_ok {ε α β : Type} {x : Except ε α} {f : α → Except ε β} {b : β}
    (h : x >>= f = .ok b) : ∃ a, x = .ok a ∧ f a = .ok b := by
  cases x with
  | error fault => cases h
  | ok a => exact ⟨a, rfl, h⟩

/-- What is converted was a result before. -/
theorem exists_of_map_eq_ok {ε α β : Type} {x : Except ε α} {f : α → β} {b : β}
    (h : x.map f = .ok b) : ∃ a, x = .ok a ∧ f a = b := by
  cases x with
  | error fault => cases h
  | ok a => exact ⟨a, rfl, Except.ok.inj h⟩

/-- All members of a list are in order, or there is a first one that is not. -/
theorem forall_or_first {α : Type} (p : α → Prop) (l : List α) :
    (∀ a ∈ l, p a) ∨
      ∃ before a after, l = before ++ a :: after ∧ (∀ b ∈ before, p b) ∧ ¬ p a := by
  induction l with
  | nil => exact .inl (by simp)
  | cons a l ih =>
    by_cases ha : p a
    · rcases ih with hall | ⟨before, b, after, hl, hbefore, hb⟩
      · exact .inl (List.forall_mem_cons.2 ⟨ha, hall⟩)
      · refine .inr ⟨a :: before, b, after, ?_, List.forall_mem_cons.2 ⟨ha, hbefore⟩, hb⟩
        rw [hl, List.cons_append]
    · exact .inr ⟨[], a, l, rfl, by simp, ha⟩

/-- A step for each member of a list succeeds if it does for every member. -/
theorem mapM_eq_ok {ε α β : Type} {f : α → Except ε β} {g : α → β} {l : List α}
    (h : ∀ a ∈ l, f a = .ok (g a)) : l.mapM f = .ok (l.map g) := by
  induction l with
  | nil => rfl
  | cons a l ih =>
    rw [List.mapM_cons, h a List.mem_cons_self, ih fun b hb => h b (List.mem_cons_of_mem a hb)]
    rfl

/-- The results of the steps belong to the members one by one. -/
theorem mapM_eq_ok_iff {ε α β : Type} {f : α → Except ε β} {l : List α} {results : List β} :
    l.mapM f = .ok results ↔ List.Forall₂ (fun a b => f a = .ok b) l results := by
  induction l generalizing results with
  | nil =>
    rw [List.forall₂_nil_left_iff]
    show Except.ok [] = .ok results ↔ results = []
    rw [Except.ok.injEq, eq_comm]
  | cons a l ih =>
    rw [List.mapM_cons, List.forall₂_cons_left_iff]
    constructor
    · intro h
      obtain ⟨b, hb, h⟩ := exists_of_bind_eq_ok h
      obtain ⟨rest, hrest, h⟩ := exists_of_bind_eq_ok h
      cases h
      exact ⟨b, rest, hb, ih.1 hrest, rfl⟩
    · intro h
      obtain ⟨b, rest, hb, hrest, rfl⟩ := h
      rw [hb, ih.2 hrest]
      rfl

/-- A step for each member of a list fails as the first member does for which it fails. -/
theorem mapM_eq_error {ε α β : Type} {f : α → Except ε β} {before after : List α} {a : α} {e : ε}
    (hbefore : ∀ b ∈ before, ∃ c, f b = .ok c) (ha : f a = .error e) :
    (before ++ a :: after).mapM f = .error e := by
  induction before with
  | nil =>
    rw [List.nil_append, List.mapM_cons, ha]
    rfl
  | cons b before ih =>
    obtain ⟨c, hc⟩ := hbefore b List.mem_cons_self
    have hrest := ih fun b' hb' => hbefore b' (List.mem_cons_of_mem b hb')
    rw [List.cons_append, List.mapM_cons, hc, hrest]
    rfl

/-! ### Joined lists -/

/-- What holds of the parts, of the words between them and of whatever is put together from
    what it holds of, holds of the joined parts. -/
theorem intercalate_induction {α : Type} {P : List α → Prop} (hnil : P [])
    (happend : ∀ l m, P l → P m → P (l ++ m)) {between : List α} (hbetween : P between)
    {parts : List (List α)} (hparts : ∀ part ∈ parts, P part) :
    P (List.intercalate between parts) := by
  induction parts with
  | nil => exact hnil
  | cons part parts ih =>
    have hpart := hparts part List.mem_cons_self
    have hrest := ih fun p hp => hparts p (List.mem_cons_of_mem part hp)
    cases parts with
    | nil =>
      rw [List.intercalate_singleton]
      exact hpart
    | cons next parts =>
      rw [List.intercalate_cons_cons]
      exact happend _ _ (happend _ _ hpart hbetween) hrest

end SeriesBroker
