import SeriesBroker.Proofs.Json.Complete
import SeriesBroker.Proofs.Json.Rearranged
import SeriesBroker.Request.Codec

/-! # Batches in any order of members

    A request is an object with a window, columns and filters, which are objects again. On each of
    these levels the order of the members is free and unknown members may be added, so two texts of
    the same batch may look quite different (`decode_rearranged`).
-/

namespace SeriesBroker

open Json (Tree Keeps WantsComplete IsText)

/-! ### What may be rearranged -/

/-- The members of a request whose values may be rearranged themselves. -/
def Request.within : String → Tree → Tree → Prop
  | "time" => Window.record.Rearranged fun _ => Eq
  | "columns" => Json.ChangedItems (Column.record.Rearranged fun _ => Eq)
  | "filters" => Json.ChangedItems (Filter.record.Rearranged fun _ => Eq)
  | _ => Eq

/-- The members of any object of a batch stand in another order and among unknown ones. -/
def BatchRearranged : Tree → Tree → Prop :=
  Json.ChangedItems (Request.record.Rearranged Request.within)

/-! ### The fields of each record -/

theorem independent_window : Window.record.Independent where
  names := by decide
  commute := by simp [Window.record, Json.commute_field]

theorem independent_column : Column.record.Independent where
  names := by decide
  commute := by simp [Column.record, Json.commute_field]

theorem independent_filter : Filter.record.Independent where
  names := by decide
  commute := by simp [Filter.record, Json.commute_field]

theorem independent_request : Request.record.Independent where
  names := by decide
  commute := by simp [Request.record, Json.commute_field]

/-! ### Rearranged parts keep their values -/

theorem keeps_window : Keeps Window.read (Window.record.Rearranged fun _ => Eq) :=
  (Json.keeps_record (fun f _ => f.keeps_eq) independent_window).bind Window.ofBounds

theorem keeps_column : Keeps Column.record.read (Column.record.Rearranged fun _ => Eq) :=
  Json.keeps_record (fun f _ => f.keeps_eq) independent_column

theorem keeps_filter : Keeps Filter.record.read (Filter.record.Rearranged fun _ => Eq) :=
  Json.keeps_record (fun f _ => f.keeps_eq) independent_filter

theorem keeps_request : Keeps Request.record.read (Request.record.Rearranged Request.within) := by
  apply Json.keeps_record _ independent_request
  have htime : Keeps (Json.readOptional Window.read) (Request.within "time") :=
    keeps_window.optional fun _ _ h => h.null_iff
  have hcolumns : Keeps (Json.readList Column.record.read) (Request.within "columns") :=
    keeps_column.list
  have hfilters : Keeps (Json.readList Filter.record.read) (Request.within "filters") :=
    keeps_filter.list
  simp only [Request.record, List.forall_mem_cons]
  exact ⟨Json.Field.keeps_eq _, Json.keeps_field htime _ _ _, Json.Field.keeps_eq _,
    Json.keeps_field hcolumns _ _ _, Json.keeps_field hfilters _ _ _, Json.Field.keeps_eq _,
    List.forall_mem_nil _⟩

/-! ### Batches are JSON -/

theorem wantsComplete_optionalText : WantsComplete readOptionalText :=
  Json.wantsComplete_text.optional

theorem wantsComplete_scalar : WantsComplete Scalar.read := by
  intro level tree value h
  cases tree with
  | array items => cases h
  | object members => cases h
  | broken => cases h
  | _ => rfl

theorem wantsComplete_limit : WantsComplete readLimit :=
  (Json.wantsComplete_integer _ _ _).map Int64.ofInt

theorem wantsComplete_window : WantsComplete Window.read := by
  refine Json.WantsComplete.bind ?_ Window.ofBounds
  apply Json.wantsComplete_record _ independent_window.names
  simp [Window.record, Json.wantsComplete_field, wantsComplete_optionalText]

theorem wantsComplete_column : WantsComplete Column.record.read := by
  apply Json.wantsComplete_record _ independent_column.names
  simp [Column.record, Json.wantsComplete_field, Json.wantsComplete_text,
    wantsComplete_optionalText]

theorem wantsComplete_filter : WantsComplete Filter.record.read := by
  apply Json.wantsComplete_record _ independent_filter.names
  simp [Filter.record, Json.wantsComplete_field, Json.wantsComplete_text,
    wantsComplete_optionalText, wantsComplete_scalar]

theorem wantsComplete_request : WantsComplete Request.record.read := by
  apply Json.wantsComplete_record _ independent_request.names
  simp [Request.record, Json.wantsComplete_field, Json.wantsComplete_text,
    wantsComplete_optionalText, wantsComplete_window.optional, wantsComplete_limit.optional,
    wantsComplete_column.list, wantsComplete_filter.list]

/-- **A batch does not depend on the order of members or on unknown ones.** What is decoded is
    JSON, and every text of a rearranged tree is decoded to the same batch. -/
theorem decode_rearranged [Json.FloatReader] {text : String} {batch : List Request}
    (h : Json.decode readRequests text = .ok batch) :
    (∃ tree, IsText tree text) ∧
      ∀ tree tree' text', IsText tree text → BatchRearranged tree tree' → IsText tree' text' →
        Json.decode readRequests text' = .ok batch := by
  obtain ⟨found, hfound, hread⟩ := Json.exists_isText wantsComplete_request.list h
  refine ⟨⟨found, hfound⟩, ?_⟩
  intro tree tree' text' htext hchange htext'
  -- A text has at most one tree.
  obtain rfl : tree = found := htext.unique hfound
  have hintact : tree'.intact = true := (Tree.read_eq_iff.2 htext').2
  exact Json.decode_of_isText htext'
    (keeps_request.list 0 tree tree' batch hchange hintact hread)

/-- A batch of one request whose objects are made by `write`. -/
def sampleTree (write : List (String × Tree) → Tree) : Tree :=
  .array [write [("measurement", Json.ofText "m"),
    ("time", write [("start", Json.ofText "s"), ("end", Json.ofText "e")]),
    ("columns", .array [write [("name", Json.ofText "c"), ("math", Json.ofText "* 2")]]),
    ("filters", .array [write [("column", Json.ofText "f"), ("type", Json.ofText "eq"),
      ("value", .bool true)]])]]

/-- An object with its members turned around, and a note before them. -/
def turned (members : List (String × Tree)) : Tree :=
  Json.ofMembers (("note", .array [.null, Json.ofMembers []]) :: members.reverse)

def sampleRequest : Request :=
  { Request.blank with
    measurement := "m"
    window := some (.between "s" "e")
    columns := [⟨"c", none, some "* 2"⟩]
    filters := [⟨"f", none, "eq", .bool true⟩] }

theorem rearranged_turned {α : Type} {r : Json.Record α} {within : String → Tree → Tree → Prop}
    (hnote : "note" ∉ r.names) {members members' : List (String × Tree)}
    (h : List.Forall₂ (fun m m' => m'.1 = m.1 ∧ within m.1 m.2 m'.2) members members') :
    r.Rearranged within (Json.ofMembers members) (turned members') := by
  have hchanged : List.Forall₂ (Json.ChangedMember within)
      (members.map fun member => (some member.1, member.2))
      (members'.map fun member => (some member.1, member.2)) := by
    rw [List.forall₂_map_left_iff, List.forall₂_map_right_iff]
    refine h.imp ?_
    intro m m' hm
    refine ⟨congrArg some hm.1, ?_⟩
    intro name hname
    obtain rfl := Option.some.inj hname
    exact hm.2
  have hadded : r.Unknown [(some "note", .array [.null, Json.ofMembers []])] := by
    intro member hmember
    obtain rfl := List.mem_singleton.1 hmember
    exact ⟨"note", rfl, hnote⟩
  refine .object hchanged hadded ?_
  rw [List.map_cons, List.map_reverse]
  exact (List.perm_append_comm).trans ((List.reverse_perm _).symm.append_left _)

theorem rearranged_turned_same {α : Type} {r : Json.Record α} (hnote : "note" ∉ r.names)
    (members : List (String × Tree)) :
    r.Rearranged (fun _ => Eq) (Json.ofMembers members) (turned members) :=
  rearranged_turned hnote (List.forall₂_same.2 fun _ _ => ⟨rfl, rfl⟩)

theorem batchRearranged_turned :
    BatchRearranged (sampleTree Json.ofMembers) (sampleTree turned) := by
  refine .array (.cons (rearranged_turned (by decide) ?_) .nil)
  refine .cons ⟨rfl, rfl⟩ (.cons ⟨rfl, ?_⟩ (.cons ⟨rfl, ?_⟩ (.cons ⟨rfl, ?_⟩ .nil)))
  · exact rearranged_turned_same (by decide) _
  · exact .array (.cons (rearranged_turned_same (by decide) _) .nil)
  · exact .array (.cons (rearranged_turned_same (by decide) _) .nil)

theorem decode_rearranged_turned :
    Json.decode readRequests (sampleTree Json.ofMembers).toText = .ok [sampleRequest] ∧
      BatchRearranged (sampleTree Json.ofMembers) (sampleTree turned) ∧
      Json.decode readRequests (sampleTree turned).toText = .ok [sampleRequest] := by
  have hdecode : Json.decode readRequests (sampleTree Json.ofMembers).toText =
      .ok [sampleRequest] := Json.decode_toText rfl rfl
  exact ⟨hdecode, batchRearranged_turned, (decode_rearranged hdecode).2 _ _ _
    (Json.isText_toText rfl) batchRearranged_turned (Json.isText_toText rfl)⟩

end SeriesBroker
