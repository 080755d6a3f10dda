import SeriesBroker.Request.Basic

/-! # The keywords of a request

    Comparisons and aggregations are given as text. A text that is understood is the sign or the
    tag of what it stands for (`sign_of_ofSign?`, `tag_of_ofTag?`), and the texts that are
    understood are listed here in full.
-/

namespace SeriesBroker

/-! ### Comparisons -/

/-- The sign of the comparison that a text stands for is the text itself. -/
theorem Comparison.sign_of_ofSign? {text : String} {c : Comparison} (h : ofSign? text = some c) :
    c.sign = text := by
  have hfound := List.find?_some h
  simpa using hfound

/-- There are seven signs. -/
theorem Comparison.isSome_ofSign? {text : String} :
    (ofSign? text).isSome = true ↔ text ∈ ["=", "<>", "!=", ">", ">=", "<", "<="] := by
  constructor
  · intro h
    obtain ⟨c, hc⟩ := Option.isSome_iff_exists.1 h
    rw [← sign_of_ofSign? hc]
    cases c <;> decide
  · intro h
    have hall : ∀ sign ∈ ["=", "<>", "!=", ">", ">=", "<", "<="], (ofSign? sign).isSome = true := by
      decide
    exact hall text h

/-! ### Aggregations -/

/-- The tag of an aggregation: one of eight names, which may have a mark before it. -/
def KnownTag (tag : String) : Prop :=
  ∃ name ∈ ["mean", "sum", "count", "median", "min", "max", "first", "last"],
    tag = name ∨ tag = "difference-" ++ name

/-- The tag of an aggregation is the one it was found by. -/
theorem Aggregation.tag_of_ofTag? {text : String} {a : Aggregation} (h : ofTag? text = some a) :
    a.tag = text := by
  have hname : ∀ {name : String} {s : Summary}, Summary.ofName? name = some s → s.name = name := by
    intro name s hs
    simpa using List.find?_some hs
  unfold ofTag? at h
  dsimp only at h
  split at h
  -- The name is what stands after the mark of a difference.
  · next hprefix =>
    obtain ⟨s, hs, rfl⟩ := Option.map_eq_some_iff.1 h
    obtain ⟨rest, hrest⟩ := List.isPrefixOf_iff_prefix.1 hprefix
    rw [← hrest, List.drop_left] at hs
    apply String.toList_inj.1
    show (differenceMark ++ s.name).toList = text.toList
    rw [hname hs, String.toList_append, String.toList_ofList, hrest]
  · obtain ⟨s, hs, rfl⟩ := Option.map_eq_some_iff.1 h
    exact hname hs

theorem Aggregation.isSome_ofTag? {tag : String} : (ofTag? tag).isSome = true ↔ KnownTag tag := by
  constructor
  · intro h
    obtain ⟨⟨summary, difference⟩, ha⟩ := Option.isSome_iff_exists.1 h
    rw [← tag_of_ofTag? ha]
    refine ⟨summary.name, by cases summary <;> decide, ?_⟩
    cases difference with
    | false => exact .inl rfl
    | true => exact .inr rfl
  · intro h
    have hall : ∀ name ∈ ["mean", "sum", "count", "median", "min", "max", "first", "last"],
        (ofTag? name).isSome = true ∧ (ofTag? ("difference-" ++ name)).isSome = true := by
      decide
    obtain ⟨name, hname, hplain | hdifference⟩ := h
    · rw [hplain]
      exact (hall name hname).1
    · rw [hdifference]
      exact (hall name hname).2

end SeriesBroker
