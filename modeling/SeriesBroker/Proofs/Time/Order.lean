import SeriesBroker.Time.Instant

/-! # The order of instants

    Instants are compared by day, second and nanosecond in turn. So they stand on a line: of two
    instants that differ one is before the other, and being before is transitive.
-/

namespace SeriesBroker.Instant

/-- The three comparisons of `before`, as one condition. -/
theorem before_iff (a b : Instant) :
    a.before b = true ↔
      a.day < b.day ∨ (a.day = b.day ∧
        (a.second < b.second ∨ (a.second = b.second ∧ a.nano < b.nano))) := by
  unfold before
  split
  · next hday => simp only [decide_eq_true_eq]; omega
  · split
    · next hday hsecond => simp only [decide_eq_true_eq]; omega
    · next hday hsecond => simp only [decide_eq_true_eq]; omega

/-- Instants are equal if their three numbers are. -/
theorem eq_of_parts {a b : Instant} (hday : a.day = b.day) (hsecond : a.second = b.second)
    (hnano : a.nano = b.nano) : a = b := by
  cases a
  cases b
  simp only at hday hsecond hnano
  subst hday hsecond hnano
  rfl

/-- No instant is before itself. -/
theorem not_before_self (a : Instant) : ¬ a.before a = true := by
  rw [before_iff]
  omega

/-- Being before is transitive. -/
theorem before_trans {a b c : Instant} (hab : a.before b = true) (hbc : b.before c = true) :
    a.before c = true := by
  rw [before_iff] at hab hbc ⊢
  omega

/-- What is before an instant is not after it as well. -/
theorem before_asymm {a b : Instant} (hab : a.before b = true) : ¬ b.before a = true := by
  intro hba
  exact not_before_self a (before_trans hab hba)

/-- Of two instants one is before the other, or they are equal. -/
theorem eq_of_not_before {a b : Instant} (hab : ¬ a.before b = true)
    (hba : ¬ b.before a = true) : a = b := by
  rw [before_iff] at hab hba
  exact eq_of_parts (by omega) (by omega) (by omega)

/-- Not being before is transitive as well, since the order is total. -/
theorem not_before_trans {a b c : Instant} (hab : ¬ a.before b = true)
    (hbc : ¬ b.before c = true) : ¬ a.before c = true := by
  rw [before_iff] at hab hbc ⊢
  omega

end SeriesBroker.Instant
