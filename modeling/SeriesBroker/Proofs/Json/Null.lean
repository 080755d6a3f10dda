import SeriesBroker.Json.Decode
import SeriesBroker.Proofs.Json.Scan
import SeriesBroker.Proofs.Text.Utf8

/-! # Texts of null

    A value that may be absent is absent in exactly the texts of null: the literal with white
    space around it. What starts inside a container ends as a container or where the text stops,
    so a tree can only be null if the first token is.
-/

namespace SeriesBroker.Json

open Text (Symbol)

/-! ### The tree of null -/

namespace Tree

theorem Frame.close_ne_null (frame : Frame) : frame.close ≠ .null := by
  cases frame with
  | array done => exact Tree.noConfusion
  | object done key => exact Tree.noConfusion

theorem closeAll_ne_null {value : Tree} (h : value ≠ .null) (stack : List Frame) :
    closeAll value stack ≠ .null := by
  induction stack generalizing value with
  | nil => exact h
  | cons frame stack ih => exact ih (Frame.close_ne_null _)

/-- What comes of a token inside a container. -/
inductive Moved (stack : List Frame) (rest : List Token) : Tree × List Token → Prop where
  /-- A container is still open. -/
  | inside (frame : Frame) (outer : List Frame) (await : Await) :
    Moved stack rest (build (frame :: outer) await rest)
  /-- The outermost container was closed. -/
  | closed (frame : Frame) : Moved stack rest (frame.close, rest)
  | stopped : Moved stack rest (closeAll .broken stack, [])

/-- Where an array may end, all other tokens do what they do where a value must come. -/
theorem build_valueOrEnd {token : Token} (h : token ≠ .closeArray) (stack : List Frame)
    (rest : List Token) :
    build stack .valueOrEnd (token :: rest) = build stack .value (token :: rest) := by
  cases token with
  | closeArray => exact absurd rfl h
  | _ => rfl

/-- Where an object may end, all other tokens do what they do where a key must come. -/
theorem build_keyOrEnd {token : Token} (h : token ≠ .closeObject) (frame : Frame)
    (outer : List Frame) (rest : List Token) :
    build (frame :: outer) .keyOrEnd (token :: rest) =
      build (frame :: outer) .key (token :: rest) := by
  cases token with
  | closeObject => exact absurd rfl h
  | string s =>
    cases frame with
    | array done => rfl
    | object done key => rfl
  | _ => rfl

section moved

variable (frame : Frame) (outer : List Frame) (token : Token) (rest : List Token)

/-- A container that is closed ends the tree or stands in the one around it. -/
theorem moved_leave (stack : List Frame) :
    Moved stack rest (match outer with
      | [] => (frame.close, rest)
      | around :: outer => build (around.add frame.close :: outer) .commaOrEnd rest) := by
  cases outer with
  | nil => exact .closed frame
  | cons around outer => exact .inside (around.add frame.close) outer .commaOrEnd

theorem moved_value :
    Moved (frame :: outer) rest (build (frame :: outer) .value (token :: rest)) := by
  cases token with
  | null => exact .inside (frame.add .null) outer .commaOrEnd
  | bool b => exact .inside (frame.add (.bool b)) outer .commaOrEnd
  | number n => exact .inside (frame.add (.number n)) outer .commaOrEnd
  | string s => exact .inside (frame.add (.string s)) outer .commaOrEnd
  | openArray => exact .inside (.array []) (frame :: outer) .valueOrEnd
  | openObject => exact .inside (.object [] none) (frame :: outer) .keyOrEnd
  | _ => exact .stopped

theorem moved_key :
    Moved (frame :: outer) rest (build (frame :: outer) .key (token :: rest)) := by
  cases token with
  | string s =>
    cases frame with
    | array done => exact .stopped
    | object done key => exact .inside (.object done s) outer .colon
  | _ => exact .stopped

theorem moved_commaOrEnd :
    Moved (frame :: outer) rest (build (frame :: outer) .commaOrEnd (token :: rest)) := by
  cases token with
  | comma =>
    cases frame with
    | array done => exact .inside (.array done) outer .value
    | object done key => exact .inside (.object done key) outer .key
  | closeArray =>
    cases frame with
    | array done => exact moved_leave (.array done) outer rest _
    | object done key => exact .stopped
  | closeObject =>
    cases frame with
    | array done => exact .stopped
    | object done key => exact moved_leave (.object done key) outer rest _
  | _ => exact .stopped

/-- Each token keeps a container open, closes the outermost one, or stops the text. -/
theorem moved_build (await : Await) :
    Moved (frame :: outer) rest (build (frame :: outer) await (token :: rest)) := by
  cases await with
  | value => exact moved_value frame outer token rest
  | valueOrEnd =>
    by_cases h : token = .closeArray
    · subst h
      exact moved_leave frame outer rest _
    · rw [build_valueOrEnd h]
      exact moved_value frame outer token rest
  | key => exact moved_key frame outer token rest
  | keyOrEnd =>
    by_cases h : token = .closeObject
    · subst h
      exact moved_leave frame outer rest _
    · rw [build_keyOrEnd h]
      exact moved_key frame outer token rest
  | colon =>
    cases token with
    | colon => exact .inside frame outer .value
    | _ => exact .stopped
  | commaOrEnd => exact moved_commaOrEnd frame outer token rest

end moved

/-- Inside a container no tokens lead to null. -/
theorem build_ne_null (frame : Frame) (outer : List Frame) (await : Await)
    (tokens : List Token) : (build (frame :: outer) await tokens).1 ≠ .null := by
  -- Each token may open or close containers, so the stack is general.
  induction tokens generalizing frame outer await with
  | nil => exact closeAll_ne_null Tree.noConfusion _
  | cons token rest ih =>
    have hmoved := moved_build frame outer token rest await
    generalize build (frame :: outer) await (token :: rest) = result at hmoved ⊢
    cases hmoved with
    | inside frame' outer' await' => exact ih frame' outer' await'
    | closed frame' => exact frame'.close_ne_null
    | stopped => exact closeAll_ne_null Tree.noConfusion _

/-- The tree of a text is null, with nothing behind it, if null is the only token. -/
theorem read_eq_null [FloatReader] {text : List Symbol} :
    Tree.read text = (.null, false) ↔ scan text = [.null] := by
  constructor
  · intro h
    obtain ⟨htree, hrest⟩ := Prod.mk.inj h
    cases htokens : scan text with
    | nil =>
      rw [htokens] at htree
      cases htree
    | cons token rest =>
      rw [htokens] at htree hrest
      -- Only two tokens start more than a literal.
      cases token with
      | null =>
        have hnothing : (!rest.isEmpty) = false := hrest
        rw [Bool.not_eq_false', List.isEmpty_iff] at hnothing
        rw [hnothing]
      | openArray => exact absurd htree (build_ne_null (.array []) [] .valueOrEnd rest)
      | openObject => exact absurd htree (build_ne_null (.object [] none) [] .keyOrEnd rest)
      | _ => cases htree
  · intro h
    rw [Tree.read, h]
    rfl

end Tree

/-! ### Values that may be absent -/

section optional

variable {α : Type} {read : Reader α}

theorem decodeSymbols_eq_ok [FloatReader] {text : List Symbol} {value : α} :
    decodeSymbols read text = .ok value ↔
      ∃ tree, Tree.read text = (tree, false) ∧ read 0 tree = .ok value := by
  unfold decodeSymbols
  obtain ⟨tree, more⟩ := Tree.read text
  cases hread : read 0 tree with
  | error fault => simp [hread, bind, Except.bind]
  | ok found =>
    cases more with
    | true => simp [hread, bind, Except.bind]
    | false => simp [hread, bind, Except.bind]

theorem readOptional_of_ne_null {tree : Tree} (h : tree ≠ .null) (level : Nat) :
    readOptional read level tree = (read level tree).map some := by
  cases tree with
  | null => exact absurd rfl h
  | _ => rfl

theorem readOptional_eq_none {level : Nat} {tree : Tree} :
    readOptional read level tree = .ok none ↔ tree = .null := by
  by_cases h : tree = .null
  · rw [h]
    exact iff_of_true rfl rfl
  · rw [readOptional_of_ne_null h]
    cases read level tree with
    | error fault => simp [Except.map, h]
    | ok value => simp [Except.map, h]

theorem readOptional_eq_some {level : Nat} {tree : Tree} {value : α} :
    readOptional read level tree = .ok (some value) ↔
      tree ≠ .null ∧ read level tree = .ok value := by
  by_cases h : tree = .null
  · simp [h, readOptional]
  · rw [readOptional_of_ne_null h]
    cases read level tree with
    | error fault => simp [Except.map]
    | ok value => simp [Except.map, h]

end optional

/-! ### The bytes of null -/

def spaces : List Char := [' ', '\n', '\t', '\r']

/-- Whether bytes are null with white space around it. -/
def IsNull (bytes : List UInt8) : Prop :=
  ∃ before after : List Char, (∀ c ∈ before ++ after, c ∈ spaces) ∧
    bytes = (before ++ "null".toList ++ after).map Text.asciiByte

theorem isSpace_some {c : Char} : isSpace (some c) = true ↔ c ∈ spaces := by
  simp only [isSpace, spaces, Bool.or_eq_true, beq_iff_eq, Option.some.injEq, List.mem_cons,
    List.not_mem_nil, or_false, or_assoc]

theorem exists_spaces {text : List Symbol} (h : ∀ s ∈ text, isSpace s = true) :
    ∃ chars : List Char, (∀ c ∈ chars, c ∈ spaces) ∧ text = chars.map some := by
  induction text with
  | nil => exact ⟨[], by simp, rfl⟩
  | cons s text ih =>
    obtain ⟨hs, htext⟩ := List.forall_mem_cons.1 h
    obtain ⟨chars, hchars, rfl⟩ := ih htext
    cases s with
    | none => cases hs
    | some c => exact ⟨c :: chars, List.forall_mem_cons.2 ⟨isSpace_some.1 hs, hchars⟩, rfl⟩

theorem isAscii_of_mem {before after : List Char} (h : ∀ c ∈ before ++ after, c ∈ spaces) :
    ∀ c ∈ before ++ "null".toList ++ after, Text.IsAscii c := by
  have hspaces : ∀ c ∈ spaces, Text.IsAscii c := by simp [spaces, Text.IsAscii]
  have hnull : ∀ c ∈ "null".toList, Text.IsAscii c := by simp [Text.IsAscii]
  intro c hc
  rw [List.append_assoc, List.mem_append, List.mem_append] at hc
  rcases hc with hc | hc | hc
  · exact hspaces c (h c (List.mem_append_left after hc))
  · exact hnull c hc
  · exact hspaces c (h c (List.mem_append_right before hc))

/-- Null is the only token of exactly the bytes of null. -/
theorem scan_decodeUtf8_eq_null [FloatReader] {bytes : List UInt8} :
    scan (Text.decodeUtf8 bytes) = [.null] ↔ IsNull bytes := by
  rw [scan_eq_null]
  constructor
  · rintro ⟨front, back, htext, hfront, hback⟩
    obtain ⟨before, hbefore, rfl⟩ := exists_spaces hfront
    obtain ⟨after, hafter, rfl⟩ := exists_spaces hback
    have hspaces := List.forall_mem_append.2 ⟨hbefore, hafter⟩
    refine ⟨before, after, hspaces, (Text.decodeUtf8_eq_map_some (isAscii_of_mem hspaces)).1 ?_⟩
    rw [htext, List.map_append, List.map_append]
    rfl
  · rintro ⟨before, after, hspaces, hbytes⟩
    have htext := (Text.decodeUtf8_eq_map_some (isAscii_of_mem hspaces)).2 hbytes
    obtain ⟨hbefore, hafter⟩ := List.forall_mem_append.1 hspaces
    refine ⟨before.map some, after.map some, ?_, ?_, ?_⟩
    · rw [htext, List.map_append, List.map_append]
      rfl
    · intro s hs
      obtain ⟨c, hc, rfl⟩ := List.mem_map.1 hs
      exact isSpace_some.2 (hbefore c hc)
    · intro s hs
      obtain ⟨c, hc, rfl⟩ := List.mem_map.1 hs
      exact isSpace_some.2 (hafter c hc)

section optional

variable {α : Type} {read : Reader α} {bytes : List UInt8}

/-- A value that may be absent is absent in exactly the bytes of null. -/
theorem decodeBytes_readOptional_eq_none [FloatReader] :
    decodeBytes (readOptional read) bytes = .ok none ↔ IsNull bytes := by
  rw [decodeBytes, decodeSymbols_eq_ok, ← scan_decodeUtf8_eq_null, ← Tree.read_eq_null]
  simp only [readOptional_eq_none, exists_eq_right]

/-- A value that may be absent is read in all other texts as it is read alone, if null is no such
    value itself. -/
theorem decodeBytes_readOptional_eq_some [FloatReader] {value : α} (h : read 0 .null ≠ .ok value) :
    decodeBytes (readOptional read) bytes = .ok (some value) ↔
      decodeBytes read bytes = .ok value := by
  simp only [decodeBytes, decodeSymbols_eq_ok, readOptional_eq_some]
  constructor
  · rintro ⟨tree, htree, -, hread⟩
    exact ⟨tree, htree, hread⟩
  · rintro ⟨tree, htree, hread⟩
    refine ⟨tree, htree, ?_, hread⟩
    rintro rfl
    exact h hread

end optional

end SeriesBroker.Json
