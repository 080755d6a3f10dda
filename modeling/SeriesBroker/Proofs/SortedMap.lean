import Mathlib.Algebra.GroupWithZero.Nat
import SeriesBroker.SortedMap

/-! # The values of sorted maps

    A sorted map is known by the value of each key. An update changes the value of its own key
    and of no other, and an entry is in the map exactly if its key has its value.
-/

namespace SeriesBroker.SortedMap

variable {α : Type}

/-- A key before all keys has no value. -/
theorem lookup_eq_none_of_lt {key : String} {entries : List (String × α)}
    (h : ∀ e ∈ entries, key < e.1) : entries.lookup key = none := by
  rw [List.lookup_eq_none_iff]
  intro e he
  have hne : key ≠ e.1 := fun heq => String.lt_irrefl _ (heq ▸ h e he)
  simpa using hne

/-- An update changes the value of its key only. -/
theorem lookup_updateEntries {key : String} {change : Option α → α}
    {entries : List (String × α)} (h : Ascending entries) (k : String) :
    (updateEntries key change entries).lookup k =
      if k = key then some (change (entries.lookup key)) else entries.lookup k := by
  induction entries with
  | nil =>
    by_cases hk : k = key
    · simp [updateEntries, hk]
    · simp [updateEntries, hk]
  | cons entry rest ih =>
    obtain ⟨first, v⟩ := entry
    have hrest := (List.pairwise_cons.1 h).1
    have htail := ih (List.pairwise_cons.1 h).2
    simp only [updateEntries]
    split
    -- The key is new, and stands before all others.
    · next hlt =>
      have hnone : ((first, v) :: rest).lookup key = none := by
        apply lookup_eq_none_of_lt
        intro e he
        rcases List.mem_cons.1 he with rfl | he
        · exact hlt
        · exact String.lt_trans hlt (hrest e he)
      rw [hnone]
      by_cases hk : k = key
      · simp [hk]
      · have hbeq : (k == key) = false := by simpa using hk
        rw [List.lookup_cons, hbeq, if_neg hk]
    · split
      -- The first key gets the new value.
      · next heq =>
        subst heq
        by_cases hk : k = key
        · simp [hk]
        · have hbeq : (k == key) = false := by simpa using hk
          rw [List.lookup_cons, hbeq, if_neg hk, List.lookup_cons, hbeq]
      -- The key belongs after the first one.
      · next hne =>
        have hkey : (key == first) = false := by simpa using hne
        rw [List.lookup_cons, htail, List.lookup_cons, List.lookup_cons, hkey]
        by_cases hk : k = key
        · rw [hk, hkey, if_pos rfl]
        · simp only [if_neg hk]

/-- An update changes the value of its key only. -/
theorem get?_update (m : SortedMap α) (key : String) (change : Option α → α) (k : String) :
    (m.update key change).get? k = if k = key then some (change (m.get? key)) else m.get? k :=
  lookup_updateEntries m.ascending k

theorem get?_insert (m : SortedMap α) (key : String) (value : α) (k : String) :
    (m.insert key value).get? k = if k = key then some value else m.get? k :=
  get?_update m key _ k

@[simp] theorem get?_empty (k : String) : (empty : SortedMap α).get? k = none := rfl

/-- The entries are the keys with their values. -/
theorem mem_entries_iff (m : SortedMap α) (k : String) (v : α) :
    (k, v) ∈ m.entries ↔ m.get? k = some v := by
  obtain ⟨entries, h⟩ := m
  show (k, v) ∈ entries ↔ entries.lookup k = some v
  induction entries with
  | nil => simp
  | cons entry rest ih =>
    obtain ⟨first, w⟩ := entry
    have hrest := (List.pairwise_cons.1 h).1
    rw [List.mem_cons, List.lookup_cons, ih (List.pairwise_cons.1 h).2]
    by_cases hk : k = first
    · -- A key stands once, so the rest has no entry of it.
      subst hk
      have hnone : rest.lookup k = none := lookup_eq_none_of_lt hrest
      rw [hnone]
      simp [eq_comm]
    · have hbeq : (k == first) = false := by simpa using hk
      rw [hbeq]
      simp [hk]

/-- The keys are those that have a value. -/
theorem mem_keys_iff (m : SortedMap α) (k : String) : k ∈ m.keys ↔ (m.get? k).isSome := by
  rw [keys, List.mem_map, Option.isSome_iff_exists]
  constructor
  · rintro ⟨⟨key, v⟩, hmem, rfl⟩
    exact ⟨v, (m.mem_entries_iff key v).1 hmem⟩
  · rintro ⟨v, hv⟩
    exact ⟨(k, v), (m.mem_entries_iff k v).2 hv, rfl⟩

/-- The keys are in strictly ascending order. -/
theorem keys_ascending (m : SortedMap α) : m.keys.Pairwise (· < ·) :=
  List.pairwise_map.2 m.ascending

/-- A map with an updated key is not empty. -/
@[simp] theorem isEmpty_update (m : SortedMap α) (key : String) (change : Option α → α) :
    (m.update key change).isEmpty = false := by
  obtain ⟨entries, _⟩ := m
  show (updateEntries key change entries).isEmpty = false
  cases entries with
  | nil => rfl
  | cons entry rest =>
    simp only [updateEntries]
    split
    · rfl
    · split
      · rfl
      · rfl

/-! ### Sums of values -/

/-- An update changes the sum of the weights of all values as much as it changes the weight of
    the value of its key. -/
theorem sum_updateEntries (weight : α → Nat) (key : String) (change : Option α → α)
    {entries : List (String × α)} (h : Ascending entries) :
    ((updateEntries key change entries).map fun e => weight e.2).sum +
        (entries.lookup key).elim 0 weight =
      (entries.map fun e => weight e.2).sum + weight (change (entries.lookup key)) := by
  induction entries with
  | nil => simp [updateEntries]
  | cons entry rest ih =>
    obtain ⟨first, v⟩ := entry
    have hrest := (List.pairwise_cons.1 h).1
    have htail := ih (List.pairwise_cons.1 h).2
    by_cases hlt : key < first
    · -- The key is new.
      have hnone : ((first, v) :: rest).lookup key = none := by
        apply lookup_eq_none_of_lt
        intro e he
        rcases List.mem_cons.1 he with rfl | he
        · exact hlt
        · exact String.lt_trans hlt (hrest e he)
      rw [updateEntries, if_pos hlt, hnone]
      simp
      omega
    · by_cases heq : key = first
      · subst heq
        rw [updateEntries, if_neg hlt, if_pos rfl, List.lookup_cons_self]
        simp
        omega
      · -- The entry stays, and the rest changes as the induction says.
        have hbeq : (key == first) = false := by simpa using heq
        have hlookup : ((first, v) :: rest).lookup key = rest.lookup key := by
          rw [List.lookup_cons, hbeq]
        rw [updateEntries, if_neg hlt, if_neg heq, hlookup, List.map_cons, List.map_cons,
          List.sum_cons, List.sum_cons]
        omega

theorem sum_values_update (weight : α → Nat) (m : SortedMap α) (key : String)
    (change : Option α → α) :
    ((m.update key change).values.map weight).sum + (m.get? key).elim 0 weight =
      (m.values.map weight).sum + weight (change (m.get? key)) := by
  have hsum := sum_updateEntries weight key change m.ascending
  simpa [values, update, get?, Function.comp_def] using hsum

/-! ### Maps of lists -/

/-- A key behind all others is added at the end. -/
theorem updateEntries_of_forall_lt {key : String} {change : Option α → α}
    {entries : List (String × α)} (h : ∀ e ∈ entries, e.1 < key) :
    updateEntries key change entries = entries ++ [(key, change none)] := by
  induction entries with
  | nil => rfl
  | cons entry rest ih =>
    obtain ⟨hentry, hrest⟩ := List.forall_mem_cons.1 h
    have hbehind : ¬ key < entry.1 := fun hlt => String.lt_irrefl _ (String.lt_trans hlt hentry)
    have hne : key ≠ entry.1 := fun heq => String.lt_irrefl _ (heq ▸ hentry)
    unfold updateEntries
    rw [if_neg hbehind, if_neg hne, ih hrest]
    rfl

/-- Entries that come in order are added one behind the other. -/
theorem entries_foldl_insert (rest : List (String × α)) (m : SortedMap α)
    (h : Ascending (m.entries ++ rest)) :
    (rest.foldl (fun m entry => m.insert entry.1 entry.2) m).entries = m.entries ++ rest := by
  induction rest generalizing m with
  | nil => exact (List.append_nil _).symm
  | cons entry rest ih =>
    have hbefore : ∀ e ∈ m.entries, e.1 < entry.1 :=
      fun e he => (List.pairwise_append.1 h).2.2 e he entry List.mem_cons_self
    have hinsert : (m.insert entry.1 entry.2).entries = m.entries ++ [entry] :=
      updateEntries_of_forall_lt hbefore
    rw [List.foldl_cons, ih, hinsert, List.append_assoc, List.singleton_append]
    rw [hinsert, List.append_assoc, List.singleton_append]
    exact h

/-- A map is the map of its entries. -/
theorem ofList_entries (m : SortedMap α) : ofList m.entries = m := by
  have hentries : (ofList m.entries).entries = m.entries :=
    entries_foldl_insert m.entries empty m.ascending
  cases hm : ofList m.entries
  rw [hm] at hentries
  cases m
  cases hentries
  rfl

end SeriesBroker.SortedMap
