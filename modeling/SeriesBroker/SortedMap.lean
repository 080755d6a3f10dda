/-! # Maps sorted by key

    A finite map from texts, kept as its entries in ascending order of their keys. Texts are
    ordered by code points. Two maps with the same entries are equal, so a map can stand in a
    value that is compared, encoded and decoded.
-/

namespace SeriesBroker

/-- The keys of a list of entries in strictly ascending order. -/
abbrev Ascending {α : Type} (entries : List (String × α)) : Prop :=
  entries.Pairwise fun a b => a.1 < b.1

/-- A finite map from texts to `α`. -/
structure SortedMap (α : Type) where
  /-- The entries in ascending order of their keys. -/
  entries : List (String × α)
  /-- Each key comes once, and in its place. -/
  ascending : Ascending entries
  deriving DecidableEq

namespace SortedMap

variable {α : Type}

def empty : SortedMap α := ⟨[], .nil⟩

instance : Inhabited (SortedMap α) := ⟨empty⟩

/-- The keys in ascending order. -/
def keys (m : SortedMap α) : List String := m.entries.map (·.1)

/-- The values in the order of their keys. -/
def values (m : SortedMap α) : List α := m.entries.map (·.2)

def isEmpty (m : SortedMap α) : Bool := m.entries.isEmpty

def get? (m : SortedMap α) (key : String) : Option α := m.entries.lookup key

/-! ## Updating one key -/

/-- Give a key the value `change` makes of its old one, in a list of entries. -/
def updateEntries (key : String) (change : Option α → α) :
    List (String × α) → List (String × α)
  | [] => [(key, change none)]
  | (k, v) :: rest =>
    if key < k then (key, change none) :: (k, v) :: rest
    else if key = k then (k, change (some v)) :: rest
    else (k, v) :: updateEntries key change rest

/-- An update adds no key but its own. -/
theorem fst_of_mem_updateEntries {key : String} {change : Option α → α}
    {entries : List (String × α)} {e : String × α}
    (h : e ∈ updateEntries key change entries) : e.1 = key ∨ ∃ e' ∈ entries, e'.1 = e.1 := by
  induction entries with
  | nil =>
    simp only [updateEntries, List.mem_singleton] at h
    exact .inl (by rw [h])
  | cons entry rest ih =>
    obtain ⟨k, v⟩ := entry
    simp only [updateEntries] at h
    split at h
    · rcases List.mem_cons.1 h with rfl | h
      · exact .inl rfl
      · exact .inr ⟨e, h, rfl⟩
    · split at h
      · rcases List.mem_cons.1 h with rfl | h
        · exact .inr ⟨(k, v), List.mem_cons_self, rfl⟩
        · exact .inr ⟨e, List.mem_cons_of_mem _ h, rfl⟩
      · rcases List.mem_cons.1 h with rfl | h
        · exact .inr ⟨(k, v), List.mem_cons_self, rfl⟩
        · rcases ih h with hkey | ⟨e', he', heq⟩
          · exact .inl hkey
          · exact .inr ⟨e', List.mem_cons_of_mem _ he', heq⟩

/-- An update keeps the order. -/
theorem ascending_updateEntries (key : String) (change : Option α → α)
    {entries : List (String × α)} (h : Ascending entries) :
    Ascending (updateEntries key change entries) := by
  induction entries with
  | nil => simp [updateEntries, Ascending]
  | cons entry rest ih =>
    obtain ⟨k, v⟩ := entry
    have head := (List.pairwise_cons.1 h).1
    have tail := (List.pairwise_cons.1 h).2
    simp only [updateEntries]
    split
    · next lt =>
      refine List.pairwise_cons.2 ⟨fun e he => ?_, h⟩
      rcases List.mem_cons.1 he with rfl | he
      · exact lt
      · exact String.lt_trans lt (head e he)
    · next notLt =>
      split
      · exact List.pairwise_cons.2 ⟨head, tail⟩
      · next ne =>
        refine List.pairwise_cons.2 ⟨fun e he => ?_, ih tail⟩
        rcases fst_of_mem_updateEntries he with hkey | ⟨e', he', heq⟩
        · show k < e.1
          rw [hkey]
          apply Classical.byContradiction
          intro notGt
          exact ne (String.le_antisymm (String.not_lt.1 notGt) (String.not_lt.1 notLt))
        · exact heq ▸ head e' he'

/-- Give a key the value `change` makes of its old one. -/
def update (m : SortedMap α) (key : String) (change : Option α → α) : SortedMap α :=
  ⟨updateEntries key change m.entries, ascending_updateEntries key change m.ascending⟩

/-- Give a key a value, in place of an old one. -/
def insert (m : SortedMap α) (key : String) (value : α) : SortedMap α :=
  m.update key fun _ => value

/-- The map of a list of entries. Of several with one key the last counts. -/
def ofList (entries : List (String × α)) : SortedMap α :=
  entries.foldl (fun m entry => m.insert entry.1 entry.2) empty

end SortedMap

abbrev SortedSet := SortedMap Unit

def SortedSet.add (s : SortedSet) (key : String) : SortedSet := SortedMap.insert s key ()

end SeriesBroker
