import SeriesBroker.Proofs.Request.Codec
import SeriesBroker.Proofs.SortedMap
import SeriesBroker.Store.Envelope

/-! # Envelopes are read back

    An envelope that is written and read again is the same envelope (`decode_envelope`): results
    in their order, cells of their kind, and what is absent still absent. A list of series or a
    map of tags is left out only if it is absent; an empty one is written, as an empty array or
    an empty object.
-/

namespace SeriesBroker

open Json (Inverts)

/-! ### The parts of an envelope -/

theorem inverts_rows : Inverts readRows rowsToJson 2 := inverts_scalar.list.list

/-- Tags are carried by their entries, which are written in the order of their keys. -/
theorem inverts_tags : Inverts readTags tagsToJson 1 := by
  apply Json.inverts_text.members.through SortedMap.entries
  intro level tree tags hread
  unfold readTags
  rw [hread]
  exact congrArg Except.ok tags.ofList_entries

theorem fits_toNat (statement : UInt64) :
    Json.leastInteger ≤ statement.toNat ∧ (statement.toNat : Int) < Json.integerBound := by
  have hlt := statement.toNat_lt
  unfold Json.leastInteger Json.integerBound
  omega

theorem inverts_statementId :
    Inverts readStatementId (fun statement => Json.ofInt statement.toNat) 0 where
  usable := fun statement level _ => Json.usable_ofInt (fits_toNat statement) level
  read_write := by
    intro statement level _
    have hlt := statement.toNat_lt
    have hread : Json.readInteger "usize" 0 18446744073709551615 level
        (Json.ofInt statement.toNat) = .ok (statement.toNat : Int) :=
      Json.readInteger_ofInt (fits_toNat statement) (by omega) "usize" level
    unfold readStatementId Json.readUnsigned64
    rw [hread]
    show Except.ok (UInt64.ofNat (Int.toNat statement.toNat)) = _
    rw [Int.toNat_natCast, UInt64.ofNat_toNat]

/-! ### Series, results and the envelope -/

theorem inverts_series : Inverts Series.record.read Series.toJson 3 := by
  apply Json.inverts_record (by decide)
  intro s level hlevel
  have htags : ∀ tags, tagsToJson tags ≠ .null := fun _ => Json.Tree.noConfusion
  rw [List.append_assoc]
  apply Json.fills_always Json.inverts_text (by omega)
  apply Json.fills_optional inverts_tags (by omega) htags _ rfl
  apply Json.fills_always Json.inverts_text.list (by omega)
  apply Json.fills_always inverts_rows (by omega)
  exact .nil s

theorem inverts_result : Inverts StatementResult.record.read StatementResult.toJson 5 := by
  apply Json.inverts_record (by decide)
  intro r level hlevel
  have hseries : ∀ series, batchToJson Series.toJson series ≠ .null :=
    fun _ => Json.Tree.noConfusion
  rw [List.append_assoc, ← List.append_nil (textMember "error" r.error)]
  apply Json.fills_always inverts_statementId (by omega)
  apply Json.fills_optional inverts_series.list (by omega) hseries _ rfl
  apply Json.fills_optional Json.inverts_text (by omega) Json.ofText_ne_null _ rfl
  exact .nil r

theorem inverts_envelope : Inverts Envelope.read Envelope.toJson 7 := by
  apply Json.inverts_record (by decide)
  intro e level hlevel
  rw [← List.append_nil (textMember "error" e.error)]
  apply Json.fills_always inverts_result.list (by omega)
  apply Json.fills_optional Json.inverts_text (by omega) Json.ofText_ne_null _ rfl
  exact .nil e

/-- **Decoding undoes encoding for envelopes**, if the reader of floats finds a float again in
    the text of the float. So two envelopes never have the same text, as one with an absent list
    of series and one with an empty list. -/
theorem decode_envelope [Json.FloatReader] [Json.LawfulFloatReader] :
    (∀ e : Envelope, Json.decode Envelope.read e.toJson.toText = .ok e) ∧
    Function.Injective fun e : Envelope => e.toJson.toText := by
  have hdecode : ∀ e : Envelope, Json.decode Envelope.read e.toJson.toText = .ok e :=
    inverts_envelope.decode (by decide)
  refine ⟨hdecode, ?_⟩
  intro e e' htext
  have heq := congrArg (Json.decode Envelope.read) htext
  simp only [hdecode] at heq
  exact Except.ok.inj heq

/-- Envelopes that are read with the nearest floats. -/
theorem decode_envelope_nearest :
    @Json.LawfulFloatReader Json.nearestFloat ∧
    (∀ e : Envelope,
      @Json.decode Json.nearestFloat _ Envelope.read e.toJson.toText = .ok e) ∧
    Function.Injective fun e : Envelope => e.toJson.toText :=
  ⟨inferInstance, decode_envelope⟩

/-- An absent list of series and an empty one. -/
example : (⟨[⟨0, none, none⟩, ⟨1, some [], none⟩], none⟩ : Envelope).toJson.toText =
    "\x7b\"results\":[\x7b\"statement_id\":0\x7d," ++
      "\x7b\"statement_id\":1,\"series\":[]\x7d]\x7d" := by rfl

end SeriesBroker
