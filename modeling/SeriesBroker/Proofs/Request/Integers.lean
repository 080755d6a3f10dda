import SeriesBroker.Proofs.Json.Complete
import SeriesBroker.Proofs.Json.Integer
import SeriesBroker.Proofs.Request.Rearranged
import SeriesBroker.Proofs.Statement.Compile
import SeriesBroker.Store.Envelope

/-! # Integers stay exact

    An integer of 64 bits, signed or unsigned, is written with the digits that it was read with:
    in JSON, in plain text and in a condition (`integers_exact`). No detour through a float is
    taken, and so no two integers become one.

    A limit is a signed integer. The text of an integer past its range is a number all the same,
    only no limit.
-/

namespace SeriesBroker

open Json (Tree IsText)

/-! ### Where a scalar goes -/

/-- The text of a condition up to its operand. -/
def conditionStart (f : Filter) : String :=
  Statement.render ([.name f.column] ++ Statement.mathPieces " " f.math ++
    [.words (" " ++ f.comparison ++ " ")])

/-- A number stands in a condition with its own text. -/
theorem render_filterPieces {f : Filter} {n : Json.Number} (hvalue : f.value = .number n)
    (hknown : (Comparison.ofSign? f.comparison).isSome) :
    (Statement.filterPieces f).map Statement.render =
      .ok (conditionStart f ++ String.ofList n.text) := by
  obtain ⟨c, hc⟩ := Option.isSome_iff_exists.1 hknown
  have hsign := Comparison.sign_of_ofSign? hc
  have hpieces : Statement.filterPieces f =
      .ok ([.name f.column] ++ Statement.mathPieces " " f.math ++
        [.words (" " ++ f.comparison ++ " ")] ++ [.words (String.ofList n.text)]) := by
    simp only [Statement.filterPieces, hc, hsign, hvalue]
    rfl
  rw [hpieces, conditionStart]
  show Except.ok (Statement.render _) = .ok (Statement.render _ ++ String.ofList n.text)
  rw [Statement.render_append, Statement.render_words]

/-- What is given as the value of a filter is read as its operand. -/
theorem read_operand {level : ℕ} {tree value : Tree} {f : Filter}
    (hread : Filter.record.read level tree = .ok f)
    (hgives : Filter.record.Gives "value" value tree) :
    Scalar.read (level + 1) value = .ok f.value := by
  have hfield : Json.field "value" false Scalar.read (fun v f => { f with value := v }) ∈
      Filter.record.fields := by simp [Filter.record]
  obtain ⟨scalar, before, hscalar, rfl⟩ :=
    Json.exists_of_gives independent_filter hfield hgives hread
  exact hscalar

/-- Items that are read one by one keep their places. -/
theorem getElem?_of_readList {α : Type} {read : Json.Reader α} {level i : ℕ} {items : List Tree}
    {values : List α} (h : Json.readList read level (.array items) = .ok values) {item : Tree}
    (hitem : items[i]? = some item) :
    ∃ value, values[i]? = some value ∧ read (level + 1) item = .ok value := by
  unfold Json.readList at h
  simp only at h
  split at h
  · obtain ⟨hi, rfl⟩ := List.getElem?_eq_some_iff.1 hitem
    have hall := mapM_eq_ok_iff.1 h
    have hi' : i < values.length := hall.length_eq ▸ hi
    exact ⟨values[i], List.getElem?_eq_getElem hi', hall.get hi hi'⟩
  · cases h

/-- A tree inside a row is read as the cell at its place. -/
theorem read_cell {level i j : ℕ} {trees : List (List Tree)} {row : List Tree} {tree : Tree}
    {rows : List Row} (hrows : readRows level (.array (trees.map .array)) = .ok rows)
    (hrow : trees[i]? = some row) (htree : row[j]? = some tree) :
    ∃ cells cell, rows[i]? = some cells ∧ cells[j]? = some cell ∧
      Scalar.read (level + 2) tree = .ok cell := by
  have hitem : (trees.map Tree.array)[i]? = some (.array row) := by
    rw [List.getElem?_map, hrow]
    rfl
  obtain ⟨cells, hcells, hreadRow⟩ := getElem?_of_readList hrows hitem
  obtain ⟨cell, hcell, hreadCell⟩ := getElem?_of_readList hreadRow htree
  exact ⟨cells, cell, hcells, hcell, hreadCell⟩

/-! ### Exact values -/

/-- The scalar is the integer from where it is read to where it is written. -/
structure Exact [Json.FloatReader] (n : ℤ) (s : Scalar) : Prop where
  decoded : Json.decode Scalar.read (toString n) = .ok s
  /-- The text in a row of some series. -/
  cell : ∀ {level i j : ℕ} {trees : List (List Tree)} {row : List Tree} {tree : Tree}
    {rows : List Row}, readRows level (.array (trees.map .array)) = .ok rows →
      trees[i]? = some row → row[j]? = some tree → IsText tree (toString n) →
        ∃ cells, rows[i]? = some cells ∧ cells[j]? = some s
  /-- The text as the value of a filter. -/
  operand : ∀ {level : ℕ} {tree value : Tree} {f : Filter},
    Filter.record.read level tree = .ok f → Filter.record.Gives "value" value tree →
      IsText value (toString n) → f.value = s
  written : s.toJson.toText = toString n
  /-- The text in an indented tree, on any level. -/
  indented : ∀ level : ℕ, s.toJson.pretty level = (toString n).toList
  displayed : s.display = toString n
  compiled : ∀ f : Filter, f.value = s → (Comparison.ofSign? f.comparison).isSome →
    (Statement.filterPieces f).map Statement.render = .ok (conditionStart f ++ toString n)

/-- Two scalars differ wherever they are seen. -/
structure ToldApart (s t : Scalar) : Prop where
  value : s ≠ t
  written : s.toJson.toText ≠ t.toJson.toText
  displayed : s.display ≠ t.display
  compiled : ∀ f : Filter, (Comparison.ofSign? f.comparison).isSome →
    (Statement.filterPieces { f with value := s }).map Statement.render ≠
      (Statement.filterPieces { f with value := t }).map Statement.render

/-- An integer of 64 bits, signed or unsigned, is kept exact. -/
theorem exact_number [Json.FloatReader] {n : ℤ}
    (fits : Json.leastInteger ≤ n ∧ n < Json.integerBound) :
    Exact n (.number (.integer n fits)) := by
  -- Wherever the text stands, it is read as the same scalar.
  have hread : ∀ level tree, IsText tree (toString n) →
      Scalar.read level tree = .ok (.number (.integer n fits)) := by
    intro level tree h
    obtain rfl := h.unique (Json.isText_integer n)
    rw [Json.number?_integerLiteral fits]
    rfl
  constructor
  case decoded =>
    exact Json.decode_of_isText (Json.isText_integer n) (hread 0 _ (Json.isText_integer n))
  case cell =>
    intro level i j trees row tree rows hrows hrow htree htext
    obtain ⟨cells, cell, hcells, hcell, hreadCell⟩ := read_cell hrows hrow htree
    rw [hread _ tree htext] at hreadCell
    cases hreadCell
    exact ⟨cells, hcells, hcell⟩
  case operand =>
    intro level tree value f hfilter hgives htext
    have hvalue := read_operand hfilter hgives
    rw [hread _ value htext] at hvalue
    exact (Except.ok.inj hvalue).symm
  case written => exact Json.ofList_intText n
  case indented => exact fun _ => (Json.toList_toString n).symm
  case displayed => exact Json.ofList_intText n
  case compiled =>
    intro f hvalue hknown
    rw [← Json.ofList_intText n]
    exact render_filterPieces hvalue hknown

theorem toldApart_of_exact [Json.FloatReader] {n m : ℤ} {s t : Scalar} (hs : Exact n s)
    (ht : Exact m t) (hne : n ≠ m) : ToldApart s t := by
  have htext : toString n ≠ toString m := fun h => hne (Json.toString_injective h)
  have hdisplayed : s.display ≠ t.display := by
    rw [hs.displayed, ht.displayed]
    exact htext
  refine ⟨fun h => hdisplayed (congrArg Scalar.display h), ?_, hdisplayed, ?_⟩
  · rw [hs.written, ht.written]
    exact htext
  · -- The conditions are the same up to their operands.
    intro f hf h
    rw [hs.compiled { f with value := s } rfl hf, ht.compiled { f with value := t } rfl hf] at h
    exact htext ((String.append_right_inj _).1 (Except.ok.inj h))

/-! ### Limits -/

/-- A limit is written behind the statement that there is without it. -/
theorem ofRequest_limit (direction : Direction) {r : Request} {limit : Int64}
    (h : r.limit = some limit) :
    Statement.ofRequest direction r =
      (Statement.ofRequest direction { r with limit := none }).map
        (· ++ " LIMIT " ++ toString limit.toInt) := by
  have htext : Statement.limitPieces r.limit = [.words (" LIMIT " ++ toString limit.toInt)] := by
    rw [h, ← Json.ofList_intText]
    rfl
  unfold Statement.ofRequest Statement.requestPieces
  simp only
  cases r.columns.mapM Statement.columnPieces with
  | error fault => rfl
  | ok columns =>
    cases r.filters.mapM Statement.filterPieces with
    | error fault => rfl
    | ok filters =>
      show Except.ok (Statement.render (_ ++ Statement.limitPieces r.limit)) =
        .ok (Statement.render (_ ++ []) ++ " LIMIT " ++ toString limit.toInt)
      rw [htext, Statement.render_append, Statement.render_words, List.append_nil,
        String.append_assoc]

/-- The limit is the integer from where it is read to where it is written. -/
structure LimitExact [Json.FloatReader] (n : ℤ) (limit : Int64) : Prop where
  value : limit.toInt = n
  decoded : Json.decode (Json.readOptional readLimit) (toString n) = .ok (some limit)
  /-- The text as the limit of a request. -/
  given : ∀ {level : ℕ} {tree value : Tree} {r : Request},
    Request.record.read level tree = .ok r → Request.record.Gives "limit" value tree →
      IsText value (toString n) → r.limit = some limit
  /-- A request can be limited that was not before. -/
  accepted : ∀ {level : ℕ} {members : List (Json.Key × Tree)} {value : Tree} {r : Request},
    Request.record.read level (.object members) = .ok r →
      "limit" ∉ Request.record.known members → IsText value (toString n) →
        Request.record.read level (.object (members ++ [(some "limit", value)])) =
          .ok { r with limit := some limit }
  compiled : ∀ (direction : Direction) (r : Request), r.limit = some limit →
    Statement.ofRequest direction r =
      (Statement.ofRequest direction { r with limit := none }).map
        (· ++ " LIMIT " ++ toString n)

theorem readSigned64_number [Json.FloatReader] (n : ℤ) {level : ℕ} {m : ℤ} :
    Json.readSigned64 level (.number (Json.integerLiteral n).number?) = .ok m ↔
      m = n ∧ -2 ^ 63 ≤ n ∧ n < 2 ^ 63 := by
  rw [Json.readSigned64, Json.readInteger_number (by decide) (by decide)]
  omega

/-- The text of an integer is a limit exactly if the integer is signed and of 64 bits. -/
theorem readLimit_eq_ok [Json.FloatReader] {n : ℤ} {level : ℕ} {tree : Tree}
    (htext : IsText tree (toString n)) {limit : Option Int64} :
    Json.readOptional readLimit level tree = .ok limit ↔
      limit = some (Int64.ofInt n) ∧ -2 ^ 63 ≤ n ∧ n < 2 ^ 63 := by
  obtain rfl := htext.unique (Json.isText_integer n)
  cases limit with
  | none =>
    rw [Json.readOptional_eq_none]
    exact iff_of_false Tree.noConfusion fun h => Option.some_ne_none _ h.1.symm
  | some limit =>
    rw [Json.readOptional_eq_some, Option.some.injEq]
    constructor
    · intro h
      obtain ⟨m, hm, hlimit⟩ := exists_of_map_eq_ok h.2
      obtain ⟨rfl, hrange⟩ := (readSigned64_number n).1 hm
      exact ⟨hlimit.symm, hrange⟩
    · intro h
      obtain ⟨rfl, hrange⟩ := h
      refine ⟨Tree.noConfusion, ?_⟩
      unfold readLimit
      rw [(readSigned64_number n).2 ⟨rfl, hrange⟩]
      rfl

theorem limit_mem_fields : Json.field "limit" false (Json.readOptional readLimit)
    (fun v r => { r with limit := v }) ∈ Request.record.fields := by
  simp [Request.record]

theorem limitExact_ofInt [Json.FloatReader] {n : ℤ} (h : -2 ^ 63 ≤ n ∧ n < 2 ^ 63) :
    LimitExact n (Int64.ofInt n) := by
  have hvalue : (Int64.ofInt n).toInt = n := Int64.toInt_ofInt_of_le (by omega) (by omega)
  constructor
  case value => exact hvalue
  case decoded =>
    have htext := Json.isText_integer n
    exact Json.decode_of_isText htext ((readLimit_eq_ok htext).2 ⟨rfl, h⟩)
  case given =>
    intro level tree value r hread hgives htext
    obtain ⟨limit, before, hlimit, rfl⟩ :=
      Json.exists_of_gives independent_request limit_mem_fields hgives hread
    exact ((readLimit_eq_ok htext).1 hlimit).1
  case accepted =>
    intro level members value r hread hnew htext
    refine (Json.read_object_concat independent_request.names limit_mem_fields hread hnew).2 ?_
    show (Json.readOptional readLimit (level + 1) value).map _ = _
    rw [(readLimit_eq_ok htext).2 ⟨rfl, h⟩]
    rfl
  case compiled =>
    intro direction r hr
    rw [ofRequest_limit direction hr, hvalue]

/-- **Integers stay exact.** An integer of 64 bits, signed or unsigned, is kept as a scalar that is
    read from its decimal text and written as that text, so that no two of them become one. As a
    limit an integer is accepted exactly if it is signed and of 64 bits, and then a statement
    ends with its decimal text. -/
theorem integers_exact [Json.FloatReader] (n : ℤ) :
    (-2 ^ 63 ≤ n ∧ n < 2 ^ 64 →
      ∃ s, Exact n s ∧ ∀ m t, Exact m t → n ≠ m → ToldApart s t) ∧
    (-2 ^ 63 ≤ n ∧ n < 2 ^ 63 → ∃ limit, LimitExact n limit) ∧
    (¬ (-2 ^ 63 ≤ n ∧ n < 2 ^ 63) →
      (∀ limit, Json.decode (Json.readOptional readLimit) (toString n) ≠ .ok limit) ∧
        ∀ level tree value r, Request.record.Gives "limit" value tree →
          IsText value (toString n) → Request.record.read level tree ≠ .ok r) := by
  refine ⟨?_, fun h => ⟨Int64.ofInt n, limitExact_ofInt h⟩, ?_⟩
  · intro h
    have hexact := exact_number (n := n) h
    exact ⟨_, hexact, fun _ _ ht hne => toldApart_of_exact hexact ht hne⟩
  · intro h
    constructor
    · intro limit hdecode
      obtain ⟨tree, htext, hread⟩ := Json.exists_isText wantsComplete_limit.optional hdecode
      exact h ((readLimit_eq_ok htext).1 hread).2
    · intro level tree value r hgives htext hread
      obtain ⟨limit, before, hlimit, -⟩ :=
        Json.exists_of_gives independent_request limit_mem_fields hgives hread
      exact h ((readLimit_eq_ok htext).1 hlimit).2

/-- Two integers that are the same float are told apart. The greatest integer that is kept exact is
    no limit, and the least one is. -/
theorem integers_exact_bounds :
    (∃ s t, Exact (2 ^ 53) s ∧ Exact (2 ^ 53 + 1) t ∧ ToldApart s t) ∧
      (∃ s, Exact (2 ^ 64 - 1) s) ∧
      (∀ limit, Json.decode (Json.readOptional readLimit) (toString (2 ^ 64 - 1 : ℤ)) ≠
        .ok limit) ∧
      ∃ limit, LimitExact (-2 ^ 63) limit := by
  obtain ⟨s, hs, hapart⟩ := (integers_exact (2 ^ 53)).1 (by decide)
  obtain ⟨t, ht, -⟩ := (integers_exact (2 ^ 53 + 1)).1 (by decide)
  obtain ⟨hexact, -, hrefused⟩ := integers_exact (2 ^ 64 - 1)
  obtain ⟨u, hu, -⟩ := hexact (by decide)
  obtain ⟨-, haccepted, -⟩ := integers_exact (-2 ^ 63)
  exact ⟨⟨s, t, hs, ht, hapart _ t ht (by decide)⟩, ⟨u, hu⟩, (hrefused (by decide)).1,
    haccepted (by decide)⟩

end SeriesBroker
