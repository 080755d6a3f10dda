import Mathlib.Data.List.Forall2
import Mathlib.Data.List.Pairwise
import SeriesBroker.Proofs.Json.Grammar
import SeriesBroker.Proofs.Json.Members

/-! # Members in any order

    Two members of an object may change places if their fields are filled independently of each
    other, and so may all of them (`TakesAll.perm`).

    So the reader of a record finds the same value in a tree whose members stand in another order,
    among unknown ones, and have values that their own readers cannot tell from the old ones
    (`keeps_record`).
-/

namespace SeriesBroker.Json

section record

variable {α : Type} {r : Record α} {level : ℕ}

/-! ### Another order -/

/-- Two fields can be filled in either order, with the same outcome. -/
def Commute (f g : Field α) : Prop :=
  ∀ (level : ℕ) (t u : Tree) (a c : α),
    (∃ b, f.fill level t a = .ok b ∧ g.fill level u b = .ok c) ↔
      ∃ b, g.fill level u a = .ok b ∧ f.fill level t b = .ok c

theorem Commute.symm {f g : Field α} (h : Commute f g) : Commute g f :=
  fun level t u a c => (h level u t a c).symm

/-- Fields that put values of their own into the record commute if their puts do. -/
theorem commute_field {β γ : Type} {read : Reader β} {read' : Reader γ} {put : β → α → α}
    {put' : γ → α → α} (h : ∀ b c a, put' c (put b a) = put b (put' c a)) {name name' : String}
    {required required' : Bool} :
    Commute (field name required read put) (field name' required' read' put') := by
  intro level t u a c
  show (∃ next, (read level t).map (put · a) = .ok next ∧
      (read' level u).map (put' · next) = .ok c) ↔
    ∃ next, (read' level u).map (put' · a) = .ok next ∧ (read level t).map (put · next) = .ok c
  cases read level t with
  | error fault => simp [Except.map]
  | ok b =>
    cases read' level u with
    | error fault => simp [Except.map]
    | ok b' => simp [Except.map, h]

/-- The fields of a record have names of their own and can be filled in any order. -/
structure Record.Independent (r : Record α) : Prop where
  names : r.names.Nodup
  commute : r.fields.Pairwise Commute

/-- Two members change places. -/
theorem Takes.swap (hr : r.Independent) {a next b : α} {one two : Key × Tree}
    (hone : Takes r level a one next) (htwo : Takes r level next two b)
    (hnodup : (r.known [one, two]).Nodup) :
    ∃ next', Takes r level a two next' ∧ Takes r level next' one b := by
  cases hone with
  | skip hunknown hintact => exact ⟨b, htwo, .skip hunknown hintact⟩
  | @fill _ f t hf hfill =>
    cases htwo with
    | skip hunknown hintact => exact ⟨a, .skip hunknown hintact, .fill hf hfill⟩
    | @fill _ g u hg hfill' =>
      rw [known_cons_of_mem (name_mem_names hf), known_cons_of_mem (name_mem_names hg)] at hnodup
      have hne : f ≠ g := by
        intro heq
        rw [heq] at hnodup
        exact (List.nodup_cons.1 hnodup).1 List.mem_cons_self
      have : Std.Symm (Commute (α := α)) := ⟨fun _ _ => Commute.symm⟩
      -- Only fields with different names need to commute, and a name is given once.
      obtain ⟨b', hg', hf'⟩ := (hr.commute.forall hf hg hne level t u a b).1 ⟨next, hfill, hfill'⟩
      exact ⟨b', .fill hg hg', .fill hf hf'⟩

theorem known_perm {members members' : List (Key × Tree)} (h : members.Perm members') :
    (r.known members).Perm (r.known members') := h.filterMap _

/-- **The members of an object do the same in any order**, if no field is given twice. -/
theorem TakesAll.perm (hr : r.Independent) {members members' : List (Key × Tree)}
    (hperm : members.Perm members') {a b : α} (h : TakesAll r level a members b)
    (hnodup : (r.known members).Nodup) : TakesAll r level a members' b := by
  induction hperm generalizing a with
  | nil => exact h
  | @cons member rest rest' _ ih =>
    rw [known_cons] at hnodup
    cases h with
    | cons hmember hrest => exact .cons hmember (ih hrest hnodup.of_append_right)
  | swap one two rest =>
    -- The list starts with `two` and is to start with `one`.
    rw [known_cons, known_cons one rest, ← List.append_assoc, ← known_cons two [one]] at hnodup
    cases h with
    | cons htwo hrest =>
      cases hrest with
      | cons hone hrest =>
        obtain ⟨next', hone', htwo'⟩ := htwo.swap hr hone hnodup.of_append_left
        exact .cons hone' (.cons htwo' hrest)
  | trans hfirst _ ih ih' => exact ih' (ih h hnodup) ((known_perm hfirst).nodup_iff.1 hnodup)

/-! ### The last field -/

/-- The tree gives a value to the field of a name, as a member or at its place. -/
inductive Record.Gives (r : Record α) (name : String) (value : Tree) : Tree → Prop where
  | member {members : List (Key × Tree)} (h : (some name, value) ∈ members) :
    Gives r name value (.object members)
  | item {i : ℕ} {items : List Tree} (hname : r.names[i]? = some name)
      (hitem : items[i]? = some value) : Gives r name value (.array items)

/-- A field that was filled before the others may as well be filled after them. -/
theorem readItems_commute {index : ℕ} {fields : List (Field α)} {f : Field α}
    (hcommute : ∀ g ∈ fields, Commute f g) {items : List Tree} {value : Tree} {a next b : α}
    (hfill : f.fill level value a = .ok next)
    (h : r.readItems level index fields items next = .ok b) :
    ∃ before, f.fill level value before = .ok b := by
  -- At each item the field moves behind the next one, which changes the record before it.
  induction fields generalizing index items a next with
  | nil =>
    cases items with
    | nil =>
      cases h
      exact ⟨a, hfill⟩
    | cons item items => cases h
  | cons g fields ih =>
    obtain ⟨hg, hfields⟩ := List.forall_mem_cons.1 hcommute
    cases items with
    | nil =>
      unfold Record.readItems at h
      split at h
      · cases h
      · exact ih hfields hfill h
    | cons item items =>
      obtain ⟨next', hnext', hrest⟩ := exists_of_bind_eq_ok h
      obtain ⟨a', -, hfill'⟩ := (hg level value item a next').1 ⟨next, hfill, hnext'⟩
      exact ih hfields hfill' hrest

theorem readItems_filled_last {index : ℕ} {fields : List (Field α)}
    (hcommute : fields.Pairwise Commute) {f : Field α} {i : ℕ} (hf : fields[i]? = some f)
    {items : List Tree} {value : Tree} (hitem : items[i]? = some value) {a b : α}
    (h : r.readItems level index fields items a = .ok b) :
    ∃ before, f.fill level value before = .ok b := by
  induction fields generalizing index items a i with
  | nil => cases hf
  | cons g fields ih =>
    obtain ⟨hg, hfields⟩ := List.pairwise_cons.1 hcommute
    cases items with
    | nil => cases hitem
    | cons item items =>
      obtain ⟨next, hnext, hrest⟩ := exists_of_bind_eq_ok h
      cases i with
      | zero =>
        cases hf
        cases hitem
        exact readItems_commute hg hnext hrest
      | succ i => exact ih hfields hf hitem hrest

/-- **Each field can be thought of as the last one that was filled.** -/
theorem filled_last (hr : r.Independent) {f : Field α} (hf : f ∈ r.fields) {value tree : Tree}
    (h : r.Gives f.name value tree) {a : α} (hread : r.read level tree = .ok a) :
    ∃ before, f.fill (level + 1) value before = .ok a := by
  cases h with
  | @member members hmem =>
    -- Its member is put behind all others.
    obtain ⟨-, htakes, hnodup, -⟩ := (read_object_eq_ok hr.names).1 hread
    obtain ⟨front, back, rfl⟩ := List.append_of_mem hmem
    have hperm : (front ++ (some f.name, value) :: back).Perm
        ((front ++ back) ++ [(some f.name, value)]) :=
      List.perm_middle.trans (List.perm_append_singleton _ _).symm
    obtain ⟨before, -, hlast⟩ := takesAll_append.1 (htakes.perm hr hperm hnodup)
    exact ⟨before, (takes_field hr.names hf).1 (takesAll_singleton.1 hlast)⟩
  | @item i items hname hitem =>
    have hplace : r.fields[i]? = some f := by
      rw [Record.names, List.getElem?_map, Option.map_eq_some_iff] at hname
      obtain ⟨g, hg, hgname⟩ := hname
      rwa [← List.inj_on_of_nodup_map hr.names (List.mem_of_getElem? hg) hf hgname]
    unfold Record.read at hread
    simp only at hread
    split at hread
    · exact readItems_filled_last hr.commute hplace hitem hread
    · cases hread

/-- A value that is given to a field is read and put into the record. -/
theorem exists_of_gives {β : Type} (hr : r.Independent) {name : String} {required : Bool}
    {read : Reader β} {put : β → α → α} (hf : field name required read put ∈ r.fields)
    {value tree : Tree} (h : r.Gives name value tree) {a : α}
    (hread : r.read level tree = .ok a) :
    ∃ b before, read (level + 1) value = .ok b ∧ a = put b before := by
  obtain ⟨before, hfill⟩ := filled_last hr hf h hread
  obtain ⟨b, hvalue, rfl⟩ := exists_of_map_eq_ok hfill
  exact ⟨b, before, hvalue, rfl⟩

end record

/-! ### Changes that are not noticed -/

/-- The reader finds the same value in a changed tree, as long as that is complete. -/
def Keeps {α : Type} (read : Reader α) (change : Tree → Tree → Prop) : Prop :=
  ∀ (level : ℕ) (tree tree' : Tree) (a : α), change tree tree' → tree'.intact = true →
    read level tree = .ok a → read level tree' = .ok a

/-- The items are changed one by one. -/
inductive ChangedItems (change : Tree → Tree → Prop) : Tree → Tree → Prop where
  | array {items items' : List Tree} (h : List.Forall₂ change items items') :
    ChangedItems change (.array items) (.array items')

/-- The name stays and the value is changed as the name says. -/
def ChangedMember (within : String → Tree → Tree → Prop) (member member' : Key × Tree) : Prop :=
  member'.1 = member.1 ∧ ∀ name, member.1 = some name → within name member.2 member'.2

/-- Items that stand for fields are changed as the names of the fields say. -/
inductive ChangedFields (within : String → Tree → Tree → Prop) :
    List String → List Tree → List Tree → Prop where
  | nil (names : List String) : ChangedFields within names [] []
  | cons {name : String} {names : List String} {item item' : Tree} {items items' : List Tree}
      (h : within name item item') (hrest : ChangedFields within names items items') :
      ChangedFields within (name :: names) (item :: items) (item' :: items')

/-- The members of a record stand in another order and among unknown ones, and the values of the
    fields may be changed in their own ways. Fields that are written as an array keep their
    places. -/
inductive Record.Rearranged {α : Type} (r : Record α) (within : String → Tree → Tree → Prop) :
    Tree → Tree → Prop where
  | object {members changed added members' : List (Key × Tree)}
      (hchanged : List.Forall₂ (ChangedMember within) members changed)
      (hadded : r.Unknown added) (hperm : (changed ++ added).Perm members') :
      Rearranged r within (.object members) (.object members')
  | array {items items' : List Tree} (h : ChangedFields within r.names items items') :
      Rearranged r within (.array items) (.array items')
  | same (tree : Tree) : Rearranged r within tree tree

section keeps

variable {α β : Type} {read : Reader α} {change : Tree → Tree → Prop}

/-- What is done with the value afterwards does not matter. -/
theorem Keeps.bind (h : Keeps read change) (next : α → Except DecodeError β) :
    Keeps (fun level tree => read level tree >>= next) change := by
  intro level tree tree' b hchange hintact hread
  obtain ⟨a, ha, hb⟩ := exists_of_bind_eq_ok hread
  show read level tree' >>= next = .ok b
  rw [h level tree tree' a hchange hintact ha]
  exact hb

/-- A value that may be absent is neither lost nor found by a change. -/
theorem Keeps.optional (h : Keeps read change)
    (hnull : ∀ tree tree', change tree tree' → (tree = .null ↔ tree' = .null)) :
    Keeps (readOptional read) change := by
  intro level tree tree' value hchange hintact hread
  cases value with
  | none =>
    rw [readOptional_eq_none] at hread ⊢
    exact (hnull tree tree' hchange).1 hread
  | some a =>
    rw [readOptional_eq_some] at hread ⊢
    obtain ⟨hne, hread⟩ := hread
    exact ⟨fun heq => hne ((hnull tree tree' hchange).2 heq),
      h level tree tree' a hchange hintact hread⟩

theorem Keeps.list (h : Keeps read change) : Keeps (readList read) (ChangedItems change) := by
  intro level tree tree' values hchange hintact hread
  cases hchange with
  | @array items items' hitems =>
    have hintact' := Tree.intactItems_iff.1 hintact
    unfold readList at hread ⊢
    simp only at hread ⊢
    split at hread
    · next hlevel =>
      rw [if_pos hlevel]
      rw [mapM_eq_ok_iff] at hread ⊢
      clear hintact
      -- The items, the changed items and their values are gone through together.
      induction hitems generalizing values with
      | nil => exact hread
      | @cons item item' items items' hitem _ ih =>
        obtain ⟨value, rest, hvalue, hrest, rfl⟩ := List.forall₂_cons_left_iff.1 hread
        obtain ⟨hone, hothers⟩ := List.forall_mem_cons.1 hintact'
        exact .cons (h _ item item' value hitem hone hvalue) (ih rest hothers hrest)
    · cases hread

end keeps

/-! ### Rearranged records -/

section record

variable {α β : Type} {r : Record α} {within : String → Tree → Tree → Prop} {level : ℕ}

/-- The field is filled with the same value from a changed tree. -/
def Field.Keeps (f : Field α) (change : Tree → Tree → Prop) : Prop :=
  ∀ (level : ℕ) (tree tree' : Tree) (a b : α), change tree tree' → tree'.intact = true →
    f.fill level tree a = .ok b → f.fill level tree' a = .ok b

theorem Field.keeps_eq (f : Field α) : f.Keeps Eq := by
  intro level tree tree' a b heq _ hfill
  rwa [← heq]

theorem keeps_field {read : Reader β} {change : Tree → Tree → Prop} (h : Keeps read change)
    (name : String) (required : Bool) (put : β → α → α) :
    (field name required read put).Keeps change := by
  intro level tree tree' a b hchange hintact hfill
  obtain ⟨value, hread, rfl⟩ := exists_of_map_eq_ok hfill
  show (read level tree').map (put · a) = .ok (put value a)
  rw [h level tree tree' value hchange hintact hread]
  rfl

theorem Record.Rearranged.null_iff {tree tree' : Tree} (h : r.Rearranged within tree tree') :
    tree = .null ↔ tree' = .null := by
  cases h with
  | object => exact iff_of_false Tree.noConfusion Tree.noConfusion
  | array => exact iff_of_false Tree.noConfusion Tree.noConfusion
  | same => exact Iff.rfl

theorem known_changed {members members' : List (Key × Tree)}
    (h : List.Forall₂ (ChangedMember within) members members') :
    r.known members' = r.known members := by
  induction h with
  | nil => rfl
  | @cons member member' _ _ hmember _ ih =>
    rw [known_cons, known_cons member, ih]
    unfold Record.known
    rw [List.filterMap_cons, List.filterMap_cons, hmember.1]

variable (hfields : ∀ f ∈ r.fields, f.Keeps (within f.name))

include hfields

theorem TakesAll.changed {members members' : List (Key × Tree)} {a b : α}
    (h : TakesAll r level a members b)
    (hchanged : List.Forall₂ (ChangedMember within) members members')
    (hintact : ∀ member ∈ members', member.2.intact = true) :
    TakesAll r level a members' b := by
  -- Both lists are gone through together, and they take the record the same way.
  induction hchanged generalizing a with
  | nil => exact h
  | @cons member member' members members' hmember _ ih =>
    obtain ⟨key', tree'⟩ := member'
    obtain ⟨htree', hrest'⟩ := List.forall_mem_cons.1 hintact
    cases h with
    | cons htakes hrest =>
      refine .cons ?_ (ih hrest hrest')
      obtain ⟨hkey, hvalue⟩ := hmember
      obtain rfl : key' = member.1 := hkey
      cases htakes with
      | skip hunknown _ => exact .skip hunknown htree'
      | @fill _ f tree hf hfill =>
        exact .fill hf (hfields f hf level tree tree' _ _ (hvalue f.name rfl) htree' hfill)

theorem readItems_changed {index : ℕ} {fields : List (Field α)} (hsub : fields ⊆ r.fields)
    {items items' : List Tree} {a b : α}
    (hchanged : ChangedFields within (fields.map (·.name)) items items')
    (hintact : ∀ item ∈ items', item.intact = true)
    (h : r.readItems level index fields items a = .ok b) :
    r.readItems level index fields items' a = .ok b := by
  induction fields generalizing index items items' a with
  | nil =>
    cases hchanged
    exact h
  | cons f fields ih =>
    cases hchanged with
    | nil => exact h
    | @cons _ _ item item' items items' hitem hrest =>
      obtain ⟨hf, hsub⟩ := List.cons_subset.1 hsub
      obtain ⟨hone, hothers⟩ := List.forall_mem_cons.1 hintact
      obtain ⟨next, hnext, hread⟩ := exists_of_bind_eq_ok h
      show (f.fill level item' a >>= fun value =>
        r.readItems level (index + 1) fields items' value) = .ok b
      rw [hfields f hf level item item' a next hitem hone hnext]
      exact ih hsub hrest hothers hread

/-- **A rearranged record has the same value.** -/
theorem keeps_record (hr : r.Independent) : Keeps r.read (r.Rearranged within) := by
  intro level tree tree' a hchange hintact hread
  cases hchange with
  | @object members changed added members' hchanged hadded hperm =>
    have hmembers : ∀ member ∈ changed ++ added, member.2.intact = true := by
      intro member hmember
      exact Tree.intactMembers_iff.1 hintact member (hperm.mem_iff.1 hmember)
    obtain ⟨hintactChanged, hintactAdded⟩ := List.forall_mem_append.1 hmembers
    have hknown : r.known (changed ++ added) = r.known members := by
      rw [known_append_of_unknown changed hadded, known_changed hchanged]
    obtain ⟨hlevel, htakes, hnodup, hrequired⟩ := (read_object_eq_ok hr.names).1 hread
    -- First the values are changed, then the unknown members follow, and then all are put in order.
    have hall : TakesAll r (level + 1) r.blank (changed ++ added) a :=
      takesAll_append.2 ⟨a, htakes.changed hfields hchanged hintactChanged,
        takesAll_of_unknown hadded hintactAdded a⟩
    rw [← hknown] at hnodup hrequired
    refine (read_object_eq_ok hr.names).2 ⟨hlevel, hall.perm hr hperm hnodup, ?_, ?_⟩
    · exact (known_perm hperm).nodup_iff.1 hnodup
    · intro f hf hf'
      exact (known_perm hperm).mem_iff.1 (hrequired f hf hf')
  | @array items items' hitems =>
    unfold Record.read at hread ⊢
    simp only at hread ⊢
    split at hread
    · next hlevel =>
      rw [if_pos hlevel]
      exact readItems_changed hfields (List.Subset.refl _) hitems (Tree.intactItems_iff.1 hintact)
        hread
    · cases hread
  | same => exact hread

end record

end SeriesBroker.Json
