import SeriesBroker.Json.Write
import SeriesBroker.Proofs.Json.Literal
import SeriesBroker.Proofs.Json.Null

/-! # Written trees are read back

    A tree is written as a row of tokens (`tokens`), and reading its text goes through the same
    row: the scan finds the tokens again (`scan_compact`), and they build the tree again
    (`build_tokens`). Both are inductions on the tree, for whatever text follows it and whatever
    containers stand around it.
-/

namespace SeriesBroker.Json

open Text (Symbol)

/-! ### Strings -/

/-- The two digits of a control character are read back. -/
theorem hex4?_byteLower {n : ℕ} (h : n < 0x20) :
    hex4? '0' '0' (Text.hexLower (n / 16)) (Text.hexLower (n % 16)) = some n := by
  revert n
  decide

/-- The numbered escape of a control character is that character. -/
theorem unit_toNat (collected : List Char) {c : Char} (h : c.toNat < 0x20) :
    Draft.unit ⟨collected, true, none⟩ c.toNat = ⟨c :: collected, true, none⟩ := by
  have hhigh : isHighHalf c.toNat = false := by
    simp only [isHighHalf, Bool.and_eq_false_iff, decide_eq_false_iff_not]
    omega
  have hlow : isLowHalf c.toNat = false := by
    simp only [isLowHalf, Bool.and_eq_false_iff, decide_eq_false_iff_not]
    omega
  unfold Draft.unit
  simp only [hhigh, hlow, Bool.false_eq_true, if_false, Char.ofNat_toNat]
  rfl

/-- An escaped character is read as the character. -/
theorem readString_escapeChar (collected : List Char) (c : Char) (rest : List Symbol) :
    readString ⟨collected, true, none⟩ ((escapeChar c).map some ++ rest) =
      readString ⟨c :: collected, true, none⟩ rest := by
  unfold escapeChar
  -- Seven characters have an escape of their own.
  split
  · next heq => subst heq; rfl
  split
  · next heq => subst heq; rfl
  split
  · next heq => subst heq; rfl
  split
  · next heq => subst heq; rfl
  split
  · next heq => subst heq; rfl
  split
  · next heq => subst heq; rfl
  split
  · next heq => subst heq; rfl
  split
  · next hcontrol =>
    show readString _ (some '\\' :: some 'u' :: some '0' :: some '0' ::
      some (Text.hexLower (c.toNat / 16)) :: some (Text.hexLower (c.toNat % 16)) :: rest) = _
    rw [readString, hex4?_byteLower hcontrol]
    simp only
    rw [unit_toNat collected hcontrol]
  · next hquote hslash _ _ _ _ _ hplain =>
    show readString _ (some c :: rest) = _
    rw [readString, if_neg hplain]
    · rfl
    · exact hquote
    · intro _ _ _ _ _ _ hc
      exact hslash hc
    · intro _ _ _ hc
      exact hslash hc
    · exact hslash

/-- **A string literal is read back.** -/
theorem readString_stringLiteral (text : String) (rest : List Symbol) :
    readString .empty ((text.toList.flatMap escapeChar ++ ['"']).map some ++ rest) =
      some (some text, rest) := by
  have hread : ∀ (chars collected : List Char),
      readString ⟨collected, true, none⟩ ((chars.flatMap escapeChar ++ ['"']).map some ++ rest) =
        some (some (String.ofList (collected.reverse ++ chars)), rest) := by
    intro chars
    induction chars with
    | nil =>
      intro collected
      rw [List.append_nil]
      rfl
    | cons c chars ih =>
      intro collected
      rw [List.flatMap_cons, List.append_assoc, List.map_append, List.append_assoc,
        readString_escapeChar, ih, List.reverse_cons, List.append_assoc, List.singleton_append]
  rw [Draft.empty, hread, List.reverse_nil, List.nil_append, String.ofList_toList]

/-! ### Tokens -/

namespace Tree

mutual

def tokens : Tree → List Token
  | .null => [.null]
  | .bool b => [.bool b]
  | .number n => [.number n]
  | .string s => [.string s]
  | .array items => .openArray :: (itemTokens items ++ [.closeArray])
  | .object members => .openObject :: (memberTokens members ++ [.closeObject])
  | .broken => [.malformed]

/-- The tokens of items, parted by commas. -/
def itemTokens : List Tree → List Token
  | [] => []
  | [item] => item.tokens
  | item :: rest => item.tokens ++ .comma :: itemTokens rest

/-- The tokens of members, parted by commas. -/
def memberTokens : List (Key × Tree) → List Token
  | [] => []
  | [(key, value)] => .string key :: .colon :: value.tokens
  | (key, value) :: rest => .string key :: .colon :: (value.tokens ++ .comma :: memberTokens rest)

end

end Tree

theorem scan_string [FloatReader] (key : Key) (h : key.isSome) (rest : List Symbol) :
    scan ((Tree.keyText key).map some ++ rest) = .string key :: scan rest := by
  cases key with
  | none => cases h
  | some text =>
    apply scan_of_readToken (by decide)
    show (readString .empty ((text.toList.flatMap escapeChar ++ ['"']).map some ++ rest)).map _ = _
    rw [readString_stringLiteral]
    rfl

/-- What starts like a number is read as one. -/
theorem readToken_of_number [FloatReader] {c : Char} (h : c.isDigit = true ∨ c = '-')
    (rest : List Symbol) : readToken (some c :: rest) = readNumber (some c :: rest) := by
  unfold readToken
  split
  case h_11 => rfl
  all_goals
    next heq =>
    obtain rfl := Option.some.inj (List.cons.inj heq).1
    exact absurd h (by decide)

theorem scan_number [FloatReader] [LawfulFloatReader] (n : Number) {rest : List Symbol}
    (hrest : Apart rest) : scan (n.text.map some ++ rest) = .number (some n) :: scan rest := by
  obtain ⟨l, hl, hchars, hnumber⟩ := n.exists_literal
  obtain ⟨c, after, hcons, hc⟩ := hl.charsWith_eq_cons (exponentChars l.power)
  have hcons : l.chars = c :: after := hcons
  have hread := readNumber_text n hrest
  rw [← hchars, hcons, List.map_cons, List.cons_append] at hread ⊢
  apply scan_of_readToken
  · intro hspace
    simp only [isSpace, Bool.or_eq_true, beq_iff_eq, Option.some.injEq] at hspace
    rcases hspace with ((rfl | rfl) | rfl) | rfl
    all_goals exact absurd hc (by decide)
  · rw [readToken_of_number hc]
    exact hread

/-- The signs between values end a number. -/
theorem apart_cons {c : Char} (h : c ∈ [',', ']', '\x7d']) (rest : List Symbol) :
    Apart (some c :: rest) := by
  intro d hd
  obtain rfl := Option.some.inj (Option.some.inj hd)
  simp only [List.mem_cons, List.not_mem_nil, or_false] at h
  rcases h with rfl | rfl | rfl
  · decide
  · decide
  · decide

/-! ### The scan -/

namespace Tree

theorem scan_comma [FloatReader] (rest : List Symbol) :
    scan (some ',' :: rest) = .comma :: scan rest :=
  scan_of_readToken (by decide) rfl

theorem scan_colon [FloatReader] (rest : List Symbol) :
    scan (some ':' :: rest) = .colon :: scan rest :=
  scan_of_readToken (by decide) rfl

/-- A member is scanned once its value is. -/
theorem scan_member [FloatReader] {key : Key} (hkey : key.isSome) {value : List Char}
    {found : List Token} {rest : List Symbol} (h : scan (value.map some ++ rest) = found) :
    scan ((keyText key ++ ':' :: value).map some ++ rest) = .string key :: .colon :: found := by
  rw [List.map_append, List.append_assoc, scan_string key hkey, List.map_cons, List.cons_append,
    scan_colon, h]

mutual

/-- **The scan finds the tokens of a tree that can be used.** -/
theorem scan_compact [FloatReader] [LawfulFloatReader] : ∀ (tree : Tree) (level : ℕ)
    (rest : List Symbol), tree.usable level = true → Apart rest →
      scan (tree.compact.map some ++ rest) = tree.tokens ++ scan rest
  | .null, _, rest, _, _ => scan_of_readToken (by decide) rfl
  | .bool true, _, rest, _, _ => scan_of_readToken (by decide) rfl
  | .bool false, _, rest, _, _ => scan_of_readToken (by decide) rfl
  | .number (some n), _, rest, _, hrest => scan_number n hrest
  | .string (some s), _, rest, _, _ => scan_string (some s) rfl rest
  | .array items, level, rest, h, _ => by
    -- The bracket behind the last item ends a number that stands there.
    have hitems := scan_compactItems items (level + 1) (some ']' :: rest)
      (Bool.and_eq_true_iff.1 h).2 (apart_cons (by decide) rest)
    have hopen : scan (some '[' :: ((compactItems items).map some ++ some ']' :: rest)) =
        .openArray :: scan ((compactItems items).map some ++ some ']' :: rest) :=
      scan_of_readToken (by decide) rfl
    have hclose : scan (some ']' :: rest) = .closeArray :: scan rest :=
      scan_of_readToken (by decide) rfl
    rw [hitems, hclose] at hopen
    simpa [compact, tokens] using hopen
  | .object members, level, rest, h, _ => by
    have hmembers := scan_compactMembers members (level + 1) (some '\x7d' :: rest)
      (Bool.and_eq_true_iff.1 h).2 (apart_cons (by decide) rest)
    have hopen : scan (some '\x7b' :: ((compactMembers members).map some ++ some '\x7d' :: rest)) =
        .openObject :: scan ((compactMembers members).map some ++ some '\x7d' :: rest) :=
      scan_of_readToken (by decide) rfl
    have hclose : scan (some '\x7d' :: rest) = .closeObject :: scan rest :=
      scan_of_readToken (by decide) rfl
    rw [hmembers, hclose] at hopen
    simpa [compact, tokens] using hopen

theorem scan_compactItems [FloatReader] [LawfulFloatReader] : ∀ (items : List Tree) (level : ℕ)
    (rest : List Symbol), usableItems level items = true → Apart rest →
      scan ((compactItems items).map some ++ rest) = itemTokens items ++ scan rest
  | [], _, rest, _, _ => rfl
  | [item], level, rest, h, hrest =>
    scan_compact item level rest (Bool.and_eq_true_iff.1 h).1 hrest
  | item :: next :: items, level, rest, h, hrest => by
    obtain ⟨hitem, hitems⟩ := Bool.and_eq_true_iff.1 h
    have hfirst := scan_compact item level
      (some ',' :: ((compactItems (next :: items)).map some ++ rest)) hitem
      (apart_cons (by decide) _)
    have hrest' := scan_compactItems (next :: items) level rest hitems hrest
    rw [scan_comma, hrest'] at hfirst
    show scan ((item.compact ++ ',' :: compactItems (next :: items)).map some ++ rest) =
      (item.tokens ++ .comma :: itemTokens (next :: items)) ++ scan rest
    rw [List.map_append, List.append_assoc, List.append_assoc]
    exact hfirst

theorem scan_compactMembers [FloatReader] [LawfulFloatReader] : ∀ (members : List (Key × Tree))
    (level : ℕ) (rest : List Symbol), usableMembers level members = true → Apart rest →
      scan ((compactMembers members).map some ++ rest) = memberTokens members ++ scan rest
  | [], _, rest, _, _ => rfl
  | [(key, value)], level, rest, h, hrest => by
    obtain ⟨hmember, -⟩ := Bool.and_eq_true_iff.1 h
    obtain ⟨hkey, hvalue⟩ := Bool.and_eq_true_iff.1 hmember
    exact scan_member hkey (scan_compact value level rest hvalue hrest)
  | (key, value) :: next :: members, level, rest, h, hrest => by
    obtain ⟨hmember, hmembers⟩ := Bool.and_eq_true_iff.1 h
    obtain ⟨hkey, hvalue⟩ := Bool.and_eq_true_iff.1 hmember
    have hfirst := scan_compact value level
      (some ',' :: ((compactMembers (next :: members)).map some ++ rest)) hvalue
      (apart_cons (by decide) _)
    have hrest' := scan_compactMembers (next :: members) level rest hmembers hrest
    rw [scan_comma, hrest'] at hfirst
    show scan (((keyText key ++ ':' :: value.compact) ++ ',' ::
        compactMembers (next :: members)).map some ++ rest) =
      .string key :: .colon :: ((value.tokens ++ .comma :: memberTokens (next :: members)) ++
        scan rest)
    rw [List.append_assoc, List.cons_append]
    apply scan_member hkey
    rw [List.map_append, List.append_assoc, List.append_assoc]
    exact hfirst

end

/-! ### The tree -/

/-- What follows a value that is complete: the tree ends, or the value stands in the innermost
    container. -/
def settle (stack : List Frame) (value : Tree) (rest : List Token) : Tree × List Token :=
  match stack with
  | [] => (value, rest)
  | frame :: outer => build (frame.add value :: outer) .commaOrEnd rest

/-- A tree does not start with the end of an array. -/
theorem tokens_eq_cons (tree : Tree) :
    ∃ token rest, tree.tokens = token :: rest ∧ token ≠ .closeArray := by
  cases tree with
  | null => exact ⟨_, _, rfl, by decide⟩
  | bool b => exact ⟨_, _, rfl, Token.noConfusion⟩
  | number n => exact ⟨_, _, rfl, Token.noConfusion⟩
  | string s => exact ⟨_, _, rfl, Token.noConfusion⟩
  | array items => exact ⟨.openArray, _, rfl, by decide⟩
  | object members => exact ⟨.openObject, _, rfl, by decide⟩
  | broken => exact ⟨_, _, rfl, by decide⟩

theorem itemTokens_cons (item : Tree) (items : List Tree) :
    ∃ rest, itemTokens (item :: items) = item.tokens ++ rest := by
  cases items with
  | nil => exact ⟨[], (List.append_nil _).symm⟩
  | cons next items => exact ⟨.comma :: itemTokens (next :: items), rfl⟩

theorem memberTokens_cons (key : Key) (value : Tree) (members : List (Key × Tree)) :
    ∃ rest, memberTokens ((key, value) :: members) = .string key :: rest := by
  cases members with
  | nil => exact ⟨_, rfl⟩
  | cons next members => exact ⟨_, rfl⟩

mutual

/-- **The tokens of a complete tree build the tree**, whatever follows them. -/
theorem build_tokens : ∀ (tree : Tree) (stack : List Frame) (rest : List Token),
    tree.intact = true → build stack .value (tree.tokens ++ rest) = settle stack tree rest
  | .null, _, _, _ => rfl
  | .bool _, _, _, _ => rfl
  | .number _, _, _, _ => rfl
  | .string _, _, _, _ => rfl
  | .array [], _, _, _ => rfl
  | .array (item :: items), stack, rest, h => by
    -- The first token of an item is not the end of the array, so a value must come.
    have hitems := build_itemTokens (item :: items) [] stack rest (List.cons_ne_nil _ _) h
    obtain ⟨after, hafter⟩ := itemTokens_cons item items
    obtain ⟨token, others, htokens, htoken⟩ := tokens_eq_cons item
    show build (.array [] :: stack) .valueOrEnd
      ((itemTokens (item :: items) ++ [.closeArray]) ++ rest) = _
    rw [List.append_assoc, List.singleton_append]
    rw [hafter, htokens, List.cons_append, List.cons_append] at hitems ⊢
    rw [build_valueOrEnd htoken]
    exact hitems
  | .object [], _, _, _ => rfl
  | .object ((key, value) :: members), stack, rest, h => by
    have hmembers := build_memberTokens ((key, value) :: members) [] stack rest
      (List.cons_ne_nil _ _) h
    obtain ⟨after, hafter⟩ := memberTokens_cons key value members
    show build (.object [] none :: stack) .keyOrEnd
      ((memberTokens ((key, value) :: members) ++ [.closeObject]) ++ rest) = _
    rw [List.append_assoc, List.singleton_append]
    rw [hafter, List.cons_append] at hmembers ⊢
    rw [build_keyOrEnd Token.noConfusion]
    exact hmembers

theorem build_itemTokens : ∀ (items done : List Tree) (stack : List Frame) (rest : List Token),
    items ≠ [] → intactItems items = true →
      build (.array done :: stack) .value (itemTokens items ++ .closeArray :: rest) =
        settle stack (.array (done.reverse ++ items)) rest
  | [], _, _, _, hne, _ => absurd rfl hne
  | [item], done, stack, rest, _, h => by
    have hitem := build_tokens item (.array done :: stack) (.closeArray :: rest)
      (Bool.and_eq_true_iff.1 h).1
    rw [← List.reverse_cons]
    exact hitem
  | item :: next :: items, done, stack, rest, _, h => by
    obtain ⟨hintact, hmore⟩ := Bool.and_eq_true_iff.1 h
    have hitem := build_tokens item (.array done :: stack)
      (.comma :: (itemTokens (next :: items) ++ .closeArray :: rest)) hintact
    have hitems := build_itemTokens (next :: items) (item :: done) stack rest
      (List.cons_ne_nil _ _) hmore
    rw [List.reverse_cons, List.append_assoc, List.singleton_append] at hitems
    show build _ _ ((item.tokens ++ .comma :: itemTokens (next :: items)) ++ .closeArray :: rest) =
      _
    rw [List.append_assoc, ← hitems]
    exact hitem

theorem build_memberTokens : ∀ (members done : List (Key × Tree)) (stack : List Frame)
    (rest : List Token), members ≠ [] → intactMembers members = true →
      build (.object done none :: stack) .key (memberTokens members ++ .closeObject :: rest) =
        settle stack (.object (done.reverse ++ members)) rest
  | [], _, _, _, hne, _ => absurd rfl hne
  | [(key, value)], done, stack, rest, _, h => by
    have hvalue := build_tokens value (.object done key :: stack) (.closeObject :: rest)
      (Bool.and_eq_true_iff.1 h).1
    rw [← List.reverse_cons]
    exact hvalue
  | (key, value) :: next :: members, done, stack, rest, _, h => by
    obtain ⟨hintact, hmore⟩ := Bool.and_eq_true_iff.1 h
    have hvalue := build_tokens value (.object done key :: stack)
      (.comma :: (memberTokens (next :: members) ++ .closeObject :: rest)) hintact
    have hmembers := build_memberTokens (next :: members) ((key, value) :: done) stack rest
      (List.cons_ne_nil _ _) hmore
    rw [List.reverse_cons, List.append_assoc, List.singleton_append] at hmembers
    show build (.object done key :: stack) .value
      ((value.tokens ++ .comma :: memberTokens (next :: members)) ++ .closeObject :: rest) = _
    rw [List.append_assoc, ← hmembers]
    exact hvalue

end

mutual

/-- A tree that can be used is complete. -/
theorem intact_of_usable : ∀ (tree : Tree) (level : ℕ), tree.usable level = true →
    tree.intact = true
  | .null, _, _ => rfl
  | .bool _, _, _ => rfl
  | .number _, _, _ => rfl
  | .string _, _, _ => rfl
  | .array items, level, h =>
    intactItems_of_usable items (level + 1) (Bool.and_eq_true_iff.1 h).2
  | .object members, level, h =>
    intactMembers_of_usable members (level + 1) (Bool.and_eq_true_iff.1 h).2

theorem intactItems_of_usable : ∀ (items : List Tree) (level : ℕ),
    usableItems level items = true → intactItems items = true
  | [], _, _ => rfl
  | item :: items, level, h => by
    obtain ⟨hitem, hitems⟩ := Bool.and_eq_true_iff.1 h
    exact Bool.and_eq_true_iff.2
      ⟨intact_of_usable item level hitem, intactItems_of_usable items level hitems⟩

theorem intactMembers_of_usable : ∀ (members : List (Key × Tree)) (level : ℕ),
    usableMembers level members = true → intactMembers members = true
  | [], _, _ => rfl
  | (key, value) :: members, level, h => by
    obtain ⟨hmember, hmembers⟩ := Bool.and_eq_true_iff.1 h
    exact Bool.and_eq_true_iff.2 ⟨intact_of_usable value level (Bool.and_eq_true_iff.1 hmember).2,
      intactMembers_of_usable members level hmembers⟩

end

/-- **A tree that can be used is read back from its text**, with nothing behind it. -/
theorem read_toText [FloatReader] [LawfulFloatReader] {tree : Tree} (h : tree.usable 0 = true) :
    Tree.read (Text.symbols tree.toText) = (tree, false) := by
  have hscan := scan_compact tree 0 [] h (fun c hc => by cases hc)
  have hbuild := build_tokens tree [] [] (intact_of_usable tree 0 h)
  rw [List.append_nil, scan_nil] at hscan
  unfold Tree.read Text.symbols toText
  rw [String.toList_ofList, hscan, hbuild]
  rfl

end Tree

/-- **What a reader makes of a tree it makes of the tree's text.** -/
theorem decode_toText [FloatReader] [LawfulFloatReader] {α : Type} {read : Reader α} {tree : Tree}
    {value : α} (husable : tree.usable 0 = true) (hread : read 0 tree = .ok value) :
    decode read tree.toText = .ok value :=
  decodeSymbols_eq_ok.2 ⟨tree, Tree.read_toText husable, hread⟩

end SeriesBroker.Json
