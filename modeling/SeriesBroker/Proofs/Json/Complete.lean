import SeriesBroker.Proofs.Json.Grammar
import SeriesBroker.Proofs.Json.Members

/-! # Only JSON is decoded

    A reader that finds a value only in complete trees refuses every text that is not JSON
    (`exists_isText`). Readers of texts and integers do, and lists and records take it over from
    their parts: a fault of the text stands somewhere among the values that are walked through.
-/

namespace SeriesBroker.Json

/-- The reader finds a value in complete trees only. -/
def WantsComplete {α : Type} (read : Reader α) : Prop :=
  ∀ (level : ℕ) (tree : Tree) (a : α), read level tree = .ok a → tree.intact = true

section parts

variable {α β : Type} {read : Reader α}

/-- **Only JSON is decoded** by a reader that wants complete trees. -/
theorem exists_isText [FloatReader] (h : WantsComplete read) {text : String} {a : α}
    (hread : decode read text = .ok a) : ∃ tree, IsText tree text ∧ read 0 tree = .ok a := by
  obtain ⟨tree, htree, hvalue⟩ := decodeSymbols_eq_ok.1 hread
  exact ⟨tree, Tree.read_eq_iff.1 ⟨htree, h 0 tree a hvalue⟩, hvalue⟩

/-- A text of a tree is decoded as the tree is read. -/
theorem decode_of_isText [FloatReader] {tree : Tree} {text : String} (h : IsText tree text) {a : α}
    (hread : read 0 tree = .ok a) : decode read text = .ok a :=
  decodeSymbols_eq_ok.2 ⟨tree, (Tree.read_eq_iff.2 h).1, hread⟩

theorem wantsComplete_text : WantsComplete readText := by
  intro level tree text h
  cases tree with
  | string text => rfl
  | _ => cases h

theorem wantsComplete_integer (kind : String) (low high : ℤ) :
    WantsComplete (readInteger kind low high) := by
  intro level tree value h
  cases tree with
  | number value => rfl
  | _ => cases h

theorem WantsComplete.map (h : WantsComplete read) (convert : α → β) :
    WantsComplete fun level tree => (read level tree).map convert := by
  intro level tree b hread
  obtain ⟨a, ha, -⟩ := exists_of_map_eq_ok hread
  exact h level tree a ha

theorem WantsComplete.bind (h : WantsComplete read) (next : α → Except DecodeError β) :
    WantsComplete fun level tree => read level tree >>= next := by
  intro level tree b hread
  obtain ⟨a, ha, -⟩ := exists_of_bind_eq_ok hread
  exact h level tree a ha

theorem WantsComplete.optional (h : WantsComplete read) : WantsComplete (readOptional read) := by
  intro level tree value hread
  cases value with
  | none =>
    rw [readOptional_eq_none] at hread
    rw [hread]
    rfl
  | some a => exact h level tree a (readOptional_eq_some.1 hread).2

theorem WantsComplete.list (h : WantsComplete read) : WantsComplete (readList read) := by
  intro level tree values hread
  cases tree with
  | array items =>
    unfold readList at hread
    simp only at hread
    split at hread
    · next =>
      rw [mapM_eq_ok_iff] at hread
      refine Tree.intactItems_iff.2 ?_
      intro item hitem
      obtain ⟨i, hi, rfl⟩ := List.mem_iff_getElem.1 hitem
      exact h _ _ _ (hread.get hi (hread.length_eq ▸ hi))
    · cases hread
  | _ => cases hread

end parts

/-! ### Records -/

section record

variable {α β : Type} {r : Record α} {level : ℕ}

/-- The field is filled from complete trees only. -/
def Field.WantsComplete (f : Field α) : Prop :=
  ∀ (level : ℕ) (tree : Tree) (a b : α), f.fill level tree a = .ok b → tree.intact = true

theorem wantsComplete_field {read : Reader β} (h : Json.WantsComplete read) (name : String)
    (required : Bool) (put : β → α → α) : (field name required read put).WantsComplete := by
  intro level tree a b hfill
  exact h.map (put · a) level tree b hfill

variable (hfields : ∀ f ∈ r.fields, f.WantsComplete)

include hfields

theorem TakesAll.intact {members : List (Key × Tree)} {a b : α}
    (h : TakesAll r level a members b) : ∀ member ∈ members, member.2.intact = true := by
  induction h with
  | nil => simp
  | cons hmember hrest ih =>
    refine List.forall_mem_cons.2 ⟨?_, ih⟩
    -- Of an unknown member the reader asks this itself.
    cases hmember with
    | skip hunknown hintact => exact hintact
    | fill hf hfill => exact hfields _ hf _ _ _ _ hfill

theorem intact_of_readItems {index : ℕ} {fields : List (Field α)} (hsub : fields ⊆ r.fields)
    {items : List Tree} {a b : α} (h : r.readItems level index fields items a = .ok b) :
    ∀ item ∈ items, item.intact = true := by
  induction fields generalizing index items a with
  | nil =>
    cases items with
    | nil => simp
    | cons item items => cases h
  | cons f fields ih =>
    obtain ⟨hf, hsub⟩ := List.cons_subset.1 hsub
    cases items with
    | nil => simp
    | cons item items =>
      obtain ⟨next, hnext, hrest⟩ := exists_of_bind_eq_ok h
      exact List.forall_mem_cons.2 ⟨hfields f hf level item a next hnext, ih hsub hrest⟩

theorem wantsComplete_record (hnames : r.names.Nodup) : Json.WantsComplete r.read := by
  intro level tree a hread
  cases tree with
  | object members =>
    obtain ⟨-, htakes, -⟩ := (read_object_eq_ok hnames).1 hread
    exact Tree.intactMembers_iff.2 (htakes.intact hfields)
  | array items =>
    unfold Record.read at hread
    simp only at hread
    split at hread
    · exact Tree.intactItems_iff.2
        (intact_of_readItems hfields (List.Subset.refl _) hread)
    · cases hread
  | _ => cases hread

end record

end SeriesBroker.Json
