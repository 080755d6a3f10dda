import SeriesBroker.Proofs.Json.Codec
import SeriesBroker.Request.Codec

/-! # Batches are read back

    A caller's program writes a batch, and the broker reads it. Whatever the batch holds, whether
    or not it would pass the check of well-formed requests, the broker sees what was written
    (`decode_batches`).
-/

namespace SeriesBroker

open Json (Inverts Fills)

/-! ### The parts of a request -/

theorem inverts_scalar : Inverts Scalar.read Scalar.toJson 0 where
  usable := by
    intro value level _
    cases value with
    | null => rfl
    | bool b => rfl
    | number n => rfl
    | string s => rfl
  read_write := by
    intro value level _
    cases value with
    | null => rfl
    | bool b => rfl
    | number n => rfl
    | string s => rfl

theorem fits_toInt (limit : Int64) :
    Json.leastInteger ≤ limit.toInt ∧ limit.toInt < Json.integerBound := by
  have hlow := limit.le_toInt
  have hhigh := limit.toInt_lt
  unfold Json.leastInteger Json.integerBound
  omega

theorem inverts_limit : Inverts readLimit (fun limit => Json.ofInt limit.toInt) 0 where
  usable := fun limit level _ => Json.usable_ofInt (fits_toInt limit) level
  read_write := by
    intro limit level _
    have hlow := limit.le_toInt
    have hhigh := limit.toInt_lt
    have hread : Json.readSigned64 level (Json.ofInt limit.toInt) = .ok limit.toInt :=
      Json.readInteger_ofInt (fits_toInt limit) (by omega) "i64" level
    unfold readLimit
    rw [hread]
    show Except.ok (Int64.ofInt limit.toInt) = _
    rw [Int64.ofInt_toInt]

/-- The members that a window is written with. -/
def Window.bounds : Window → Window.Bounds
  | .last duration => ⟨some duration, none, none⟩
  | .between start stop => ⟨none, some start, some stop⟩

theorem Window.ofBounds_bounds (w : Window) : Window.ofBounds w.bounds = .ok w := by
  cases w with
  | last duration => rfl
  | between start stop => rfl

/-- The members of bounds, each left out if it has no value. -/
def Window.Bounds.toJson (b : Window.Bounds) : Json.Tree :=
  Json.ofMembers (textMember "last" b.last ++ (textMember "start" b.start ++
    (textMember "end" b.stop ++ [])))

theorem inverts_bounds : Inverts Window.record.read Window.Bounds.toJson 1 := by
  apply Json.inverts_record (by decide)
  intro b level hlevel
  apply Json.fills_optional Json.inverts_text hlevel Json.ofText_ne_null _ rfl
  apply Json.fills_optional Json.inverts_text hlevel Json.ofText_ne_null _ rfl
  apply Json.fills_optional Json.inverts_text hlevel Json.ofText_ne_null _ rfl
  exact .nil b

theorem Window.toJson_bounds (w : Window) : w.bounds.toJson = w.toJson := by
  cases w with
  | last duration => rfl
  | between start stop => rfl

theorem Window.toJson_ne_null (w : Window) : w.toJson ≠ .null := by
  cases w with
  | last duration => exact Json.Tree.noConfusion
  | between start stop => exact Json.Tree.noConfusion

/-- Both forms of a window are carried by their bounds. -/
theorem inverts_window : Inverts Window.read Window.toJson 1 := by
  have hcarried : Inverts Window.read (fun w => w.bounds.toJson) 1 := by
    apply inverts_bounds.through
    intro level tree w hread
    show (Window.record.read level tree >>= Window.ofBounds) = .ok w
    rw [hread]
    exact w.ofBounds_bounds
  have hwrite : (fun w : Window => w.bounds.toJson) = Window.toJson :=
    funext Window.toJson_bounds
  rwa [hwrite] at hcarried

theorem inverts_column : Inverts Column.record.read Column.toJson 1 := by
  apply Json.inverts_record (by decide)
  intro c level hlevel
  rw [List.append_assoc, ← List.append_nil (textMember "math" c.math)]
  apply Json.fills_always Json.inverts_text hlevel
  apply Json.fills_optional Json.inverts_text hlevel Json.ofText_ne_null _ rfl
  apply Json.fills_optional Json.inverts_text hlevel Json.ofText_ne_null _ rfl
  exact .nil c

theorem inverts_filter : Inverts Filter.record.read Filter.toJson 1 := by
  apply Json.inverts_record (by decide)
  intro f level hlevel
  rw [List.append_assoc]
  apply Json.fills_always Json.inverts_text hlevel
  apply Json.fills_optional Json.inverts_text hlevel Json.ofText_ne_null _ rfl
  apply Json.fills_always Json.inverts_text hlevel
  apply Json.fills_always inverts_scalar hlevel
  exact .nil f

/-! ### Requests and lookups -/

/-- Without filters their list is not written, and the blank record has none either. -/
theorem fills_filters {level : Nat} {members : List (String × Json.Tree)} {r b : Request}
    (hlevel : level + 2 ≤ Json.Tree.nestingLimit) (filters : List Filter)
    (hblank : { r with filters := [] } = r) {fields : List (Json.Field Request)}
    (hrest : Fills level fields members { r with filters } b) :
    Fills level
      (Json.field "filters" false (Json.readList Filter.record.read)
        (fun v r => { r with filters := v }) :: fields)
      ((if filters.isEmpty then [] else [("filters", .array (filters.map Filter.toJson))]) ++
        members) r b := by
  cases filters with
  | nil =>
    -- No member is read, and the list stays empty.
    rw [hblank] at hrest
    exact .skip rfl hrest
  | cons f filters => exact Json.fills_always inverts_filter.list hlevel _ hrest

theorem inverts_request : Inverts Request.record.read Request.toJson 3 := by
  apply Json.inverts_record (by decide)
  intro r level hlevel
  have hlimit : ∀ limit : Int64, Json.ofInt limit.toInt ≠ .null := fun _ => Json.Tree.noConfusion
  rw [← List.append_nil (textMember "groupTime" r.interval)]
  simp only [List.append_assoc]
  apply Json.fills_always Json.inverts_text (by omega)
  apply Json.fills_optional inverts_window (by omega) Window.toJson_ne_null _ rfl
  apply Json.fills_optional inverts_limit (by omega) hlimit _ rfl
  apply Json.fills_always inverts_column.list (by omega)
  apply fills_filters (by omega) _ rfl
  apply Json.fills_optional Json.inverts_text (by omega) Json.ofText_ne_null _ rfl
  exact .nil r

theorem inverts_lookup : Inverts Lookup.record.read Lookup.toJson 1 := by
  apply Json.inverts_record (by decide)
  intro l level hlevel
  rw [← List.append_nil (textMember "math" l.math)]
  apply Json.fills_always Json.inverts_text hlevel
  apply Json.fills_always Json.inverts_text hlevel
  apply Json.fills_optional Json.inverts_text hlevel Json.ofText_ne_null _ rfl
  exact .nil l

/-- **Decoding undoes encoding for batches**: every batch of requests and every batch of lookups is
    what the broker reads from the text that is written for it. Of the reader of floats nothing
    is asked but that it finds a float again in the text of the float. -/
theorem decode_batches [Json.FloatReader] [Json.LawfulFloatReader] :
    (∀ batch : List Request,
      Json.decode readRequests (batchToJson Request.toJson batch).toText = .ok batch) ∧
    ∀ batch : List Lookup,
      Json.decode readLookups (batchToJson Lookup.toJson batch).toText = .ok batch :=
  ⟨inverts_request.list.decode (by decide), inverts_lookup.list.decode (by decide)⟩

/-- Batches that are read with the nearest floats. -/
theorem decode_batches_nearest :
    @Json.LawfulFloatReader Json.nearestFloat ∧
    (∀ batch : List Request,
      @Json.decode Json.nearestFloat _ readRequests (batchToJson Request.toJson batch).toText =
        .ok batch) ∧
    ∀ batch : List Lookup,
      @Json.decode Json.nearestFloat _ readLookups (batchToJson Lookup.toJson batch).toText =
        .ok batch :=
  ⟨inferInstance, decode_batches⟩

end SeriesBroker
