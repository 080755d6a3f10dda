import SeriesBroker.Proofs.Json.Lexeme

/-! # The texts of a tree

    A text spells a tree if it spells the tokens of the tree in order (`IsText`). The white space
    between them, the escapes in strings and the exponents of numbers are free, so a tree has many
    texts, and each text has at most one tree.

    Reading goes from a text to its tree: what is read as a complete tree is exactly a text of that
    tree (`read_eq_iff`). One direction was shown with the builder of trees. For the other one the
    tokens that were taken so far are told from the containers that are open (`Reached`), and each
    further token keeps this up until the outermost container is closed.
-/

namespace SeriesBroker.Json

/-- What is spelled is JSON. -/
theorem Lexed.json [FloatReader] {tokens : List Token} {text : List Char} (h : Lexed tokens text) :
    .malformed ∉ tokens := by
  induction h with
  | done hafter => simp
  | token hbefore hlexeme h ih =>
    intro hmem
    rcases List.mem_cons.1 hmem with rfl | hmem
    · cases hlexeme
    · exact ih hmem

/-- The text spells the tree. -/
def IsText [FloatReader] (tree : Tree) (text : String) : Prop := Lexed tree.tokens text.toList

namespace Tree

/-! ### Numbers stand apart -/

theorem parted_append {before after : List Token} {t : Token} (ht : t.isNumber = false)
    (hbefore : Parted before) (hafter : Parted after) : Parted (before ++ t :: after) := by
  refine List.isChain_append.2 ⟨hbefore, List.isChain_cons.2 ⟨fun _ _ => .inl ht, hafter⟩, ?_⟩
  intro u _ v hv
  obtain rfl := Option.some.inj hv
  exact .inr ht

theorem parted_cons {after : List Token} {t : Token} (ht : t.isNumber = false)
    (hafter : Parted after) : Parted (t :: after) :=
  parted_append ht List.isChain_nil hafter

mutual

/-- No two numbers of a tree are neighbours. -/
theorem parted_tokens : ∀ tree : Tree, Parted tree.tokens
  | .null | .bool _ | .number _ | .string _ | .broken => List.isChain_singleton _
  | .array items => parted_cons rfl (parted_append rfl (parted_itemTokens items) List.isChain_nil)
  | .object members =>
    parted_cons rfl (parted_append rfl (parted_memberTokens members) List.isChain_nil)

theorem parted_itemTokens : ∀ items : List Tree, Parted (itemTokens items)
  | [] => List.isChain_nil
  | [item] => parted_tokens item
  | item :: next :: items =>
    parted_append rfl (parted_tokens item) (parted_itemTokens (next :: items))

theorem parted_memberTokens : ∀ members : List (Key × Tree), Parted (memberTokens members)
  | [] => List.isChain_nil
  | [(_, value)] => parted_cons rfl (parted_cons rfl (parted_tokens value))
  | (_, value) :: next :: members =>
    parted_cons rfl (parted_cons rfl
      (parted_append rfl (parted_tokens value) (parted_memberTokens (next :: members))))

end

/-! ### Complete trees -/

theorem intactItems_iff {items : List Tree} :
    intactItems items = true ↔ ∀ item ∈ items, item.intact = true := by
  induction items with
  | nil => simp [intactItems]
  | cons item items ih =>
    rw [intactItems, Bool.and_eq_true, ih, List.forall_mem_cons]

theorem intactMembers_iff {members : List (Key × Tree)} :
    intactMembers members = true ↔ ∀ member ∈ members, member.2.intact = true := by
  induction members with
  | nil => simp [intactMembers]
  | cons member members ih =>
    rw [intactMembers, Bool.and_eq_true, ih, List.forall_mem_cons]

mutual

/-- A tree is complete exactly if its tokens are all JSON. -/
theorem intact_iff : ∀ tree : Tree, tree.intact = true ↔ .malformed ∉ tree.tokens
  | .null | .bool _ | .number _ | .string _ | .broken => by simp [intact, tokens]
  | .array items => by simp [intact, tokens, intactItems_iff_tokens items]
  | .object members => by simp [intact, tokens, intactMembers_iff_tokens members]

theorem intactItems_iff_tokens : ∀ items : List Tree,
    intactItems items = true ↔ .malformed ∉ itemTokens items
  | [] => by simp [intactItems, itemTokens]
  | [item] => by simp [intactItems, itemTokens, intact_iff item]
  | item :: next :: items => by
    have hrest := intactItems_iff_tokens (next :: items)
    rw [intactItems, Bool.and_eq_true, hrest, intact_iff item]
    simp [itemTokens]

theorem intactMembers_iff_tokens : ∀ members : List (Key × Tree),
    intactMembers members = true ↔ .malformed ∉ memberTokens members
  | [] => by simp [intactMembers, memberTokens]
  | [(_, value)] => by simp [intactMembers, memberTokens, intact_iff value]
  | (_, value) :: next :: members => by
    have hrest := intactMembers_iff_tokens (next :: members)
    rw [intactMembers, Bool.and_eq_true, hrest, intact_iff value]
    simp [memberTokens]

end

/-- Where the text stops inside containers, the tree stays incomplete. -/
theorem not_intact_closeAll {value : Tree} (h : value.intact = false) (stack : List Frame) :
    (closeAll value stack).intact = false := by
  induction stack generalizing value with
  | nil => exact h
  | cons frame stack ih =>
    apply ih
    rw [← Bool.not_eq_true] at h ⊢
    intro hclosed
    cases frame with
    | array done =>
      exact h (intactItems_iff.1 hclosed value (by simp))
    | object done key =>
      exact h (intactMembers_iff.1 hclosed (key, value) (by simp))

/-! ### What was taken so far -/

/-- Items and the commas behind them. -/
def itemsBefore (done : List Tree) : List Token :=
  done.reverse.flatMap fun item => item.tokens ++ [.comma]

/-- Members and the commas behind them. -/
def membersBefore (done : List (Key × Tree)) : List Token :=
  done.reverse.flatMap fun (key, value) => .string key :: .colon :: (value.tokens ++ [.comma])

/-- The tokens of open containers up to the place of the next value. -/
def taken : List Frame → List Token
  | [] => []
  | .array done :: outer => taken outer ++ .openArray :: itemsBefore done
  | .object done key :: outer =>
    taken outer ++ .openObject :: (membersBefore done ++ [.string key, .colon])

/-- What was taken where something is awaited inside open containers. -/
inductive Reached : List Frame → Await → List Token → Prop where
  | value (stack : List Frame) : Reached stack .value (taken stack)
  | firstItem (outer : List Frame) :
    Reached (.array [] :: outer) .valueOrEnd (taken outer ++ [.openArray])
  | firstKey (outer : List Frame) :
    Reached (.object [] none :: outer) .keyOrEnd (taken outer ++ [.openObject])
  | key (done : List (Key × Tree)) (key : Key) (outer : List Frame) :
    Reached (.object done key :: outer) .key (taken outer ++ .openObject :: membersBefore done)
  | colon (done : List (Key × Tree)) (key : Key) (outer : List Frame) :
    Reached (.object done key :: outer) .colon
      (taken outer ++ .openObject :: (membersBefore done ++ [.string key]))
  | item (done : List Tree) (hne : done ≠ []) (outer : List Frame) :
    Reached (.array done :: outer) .commaOrEnd
      (taken outer ++ .openArray :: itemTokens done.reverse)
  | member (done : List (Key × Tree)) (key : Key) (hne : done ≠ []) (outer : List Frame) :
    Reached (.object done key :: outer) .commaOrEnd
      (taken outer ++ .openObject :: memberTokens done.reverse)

/-- The last of several items has no comma behind it. -/
theorem itemTokens_concat (items : List Tree) (item : Tree) :
    itemTokens (items ++ [item]) =
      (items.flatMap fun item => item.tokens ++ [.comma]) ++ item.tokens := by
  induction items with
  | nil => rfl
  | cons first items ih =>
    have hcons : itemTokens (first :: (items ++ [item])) =
        first.tokens ++ .comma :: itemTokens (items ++ [item]) := by
      cases items with
      | nil => rfl
      | cons next items => rfl
    rw [List.cons_append, hcons, ih, List.flatMap_cons]
    simp only [List.append_assoc, List.cons_append, List.nil_append]

theorem memberTokens_concat (members : List (Key × Tree)) (key : Key) (value : Tree) :
    memberTokens (members ++ [(key, value)]) =
      (members.flatMap fun (key, value) =>
        .string key :: .colon :: (value.tokens ++ [.comma])) ++
        .string key :: .colon :: value.tokens := by
  induction members with
  | nil => rfl
  | cons first members ih =>
    have hcons : memberTokens (first :: (members ++ [(key, value)])) =
        .string first.1 :: .colon ::
          (first.2.tokens ++ .comma :: memberTokens (members ++ [(key, value)])) := by
      cases members with
      | nil => rfl
      | cons next members => rfl
    rw [List.cons_append, hcons, ih, List.flatMap_cons]
    simp only [List.cons_append, List.append_assoc, List.nil_append]

/-- A value that is complete was taken whole, and a comma or the end is awaited behind it. -/
theorem reached_add (frame : Frame) (outer : List Frame) (value : Tree) :
    Reached (frame.add value :: outer) .commaOrEnd (taken (frame :: outer) ++ value.tokens) := by
  cases frame with
  | array done =>
    have h := Reached.item (value :: done) (List.cons_ne_nil _ _) outer
    rw [List.reverse_cons, itemTokens_concat] at h
    simpa only [taken, Frame.add, itemsBefore, List.append_assoc, List.cons_append] using h
  | object done key =>
    have h := Reached.member ((key, value) :: done) none (List.cons_ne_nil _ _) outer
    rw [List.reverse_cons, memberTokens_concat] at h
    simpa only [taken, Frame.add, membersBefore, List.append_assoc, List.cons_append,
      List.nil_append] using h

/-! ### What builds a tree -/

section built

variable {rest : List Token} {tree : Tree} {after : List Token}

/-- From this place on a complete tree is built of exactly the tokens that were taken and of those
    that are taken now. -/
def BuildsTaken (rest : List Token) : Prop :=
  ∀ {stack : List Frame} {await : Await} {consumed : List Token} {tree : Tree}
    {after : List Token}, Reached stack await consumed → build stack await rest = (tree, after) →
      tree.intact = true → tree.tokens ++ after = consumed ++ rest

/-- A complete value ends the tree or stands in the innermost container. -/
theorem builds_settle (ih : BuildsTaken rest) {stack : List Frame} (value : Tree)
    (h : settle stack value rest = (tree, after)) (htree : tree.intact = true) :
    tree.tokens ++ after = taken stack ++ (value.tokens ++ rest) := by
  cases stack with
  | nil =>
    cases h
    rfl
  | cons frame outer =>
    rw [← List.append_assoc]
    exact ih (reached_add frame outer value) h htree

theorem not_builds_stopped {stack : List Frame}
    (h : (closeAll .broken stack, ([] : List Token)) = (tree, after)) :
    ¬ tree.intact = true := by
  obtain ⟨rfl, -⟩ := Prod.mk.inj h
  rw [Bool.not_eq_true]
  exact not_intact_closeAll rfl stack

variable {token : Token}

theorem builds_value (ih : BuildsTaken rest) {stack : List Frame}
    (h : build stack .value (token :: rest) = (tree, after)) (htree : tree.intact = true) :
    tree.tokens ++ after = taken stack ++ token :: rest := by
  cases token with
  | null => exact builds_settle ih .null h htree
  | bool b => exact builds_settle ih (.bool b) h htree
  | number n => exact builds_settle ih (.number n) h htree
  | string s => exact builds_settle ih (.string s) h htree
  | openArray =>
    have htaken := ih (.firstItem stack) h htree
    rwa [List.append_assoc] at htaken
  | openObject =>
    have htaken := ih (.firstKey stack) h htree
    rwa [List.append_assoc] at htaken
  | _ => exact absurd htree (not_builds_stopped h)

theorem builds_firstItem (ih : BuildsTaken rest) {outer : List Frame}
    (h : build (.array [] :: outer) .valueOrEnd (token :: rest) = (tree, after))
    (htree : tree.intact = true) :
    tree.tokens ++ after = taken outer ++ .openArray :: token :: rest := by
  by_cases hclose : token = .closeArray
  · subst hclose
    cases outer with
    | nil => exact builds_settle ih (.array []) h htree
    | cons frame outer => exact builds_settle ih (.array []) h htree
  · -- Another token starts the first item.
    rw [build_valueOrEnd hclose] at h
    have htaken := builds_value ih h htree
    rwa [taken, List.append_assoc] at htaken

theorem builds_key (ih : BuildsTaken rest) {done : List (Key × Tree)} {key : Key}
    {outer : List Frame}
    (h : build (.object done key :: outer) .key (token :: rest) = (tree, after))
    (htree : tree.intact = true) :
    tree.tokens ++ after =
      taken outer ++ .openObject :: (membersBefore done ++ token :: rest) := by
  cases token with
  | string s =>
    have htaken := ih (.colon done s outer) h htree
    simpa only [List.append_assoc, List.cons_append, List.nil_append] using htaken
  | _ => exact absurd htree (not_builds_stopped h)

theorem builds_firstKey (ih : BuildsTaken rest) {outer : List Frame}
    (h : build (.object [] none :: outer) .keyOrEnd (token :: rest) = (tree, after))
    (htree : tree.intact = true) :
    tree.tokens ++ after = taken outer ++ .openObject :: token :: rest := by
  by_cases hclose : token = .closeObject
  · subst hclose
    cases outer with
    | nil => exact builds_settle ih (.object []) h htree
    | cons frame outer => exact builds_settle ih (.object []) h htree
  · rw [build_keyOrEnd hclose] at h
    exact builds_key ih h htree

theorem builds_item (ih : BuildsTaken rest) {done : List Tree} (hne : done ≠ [])
    {outer : List Frame}
    (h : build (.array done :: outer) .commaOrEnd (token :: rest) = (tree, after))
    (htree : tree.intact = true) :
    tree.tokens ++ after =
      taken outer ++ .openArray :: (itemTokens done.reverse ++ token :: rest) := by
  cases token with
  | comma =>
    -- With its comma the last item is one of those before the next value.
    have htaken := ih (.value (.array done :: outer)) h htree
    obtain ⟨item, done, rfl⟩ := List.exists_cons_of_ne_nil hne
    rw [List.reverse_cons, itemTokens_concat]
    simpa only [taken, itemsBefore, List.reverse_cons, List.flatMap_append, List.flatMap_cons,
      List.flatMap_nil, List.append_assoc, List.cons_append, List.nil_append] using htaken
  | closeArray =>
    have hsettle : settle outer (.array done.reverse) rest = (tree, after) := by
      cases outer with
      | nil => exact h
      | cons frame outer => exact h
    have htaken := builds_settle ih _ hsettle htree
    simpa only [tokens, List.append_assoc, List.cons_append, List.nil_append] using htaken
  | _ => exact absurd htree (not_builds_stopped h)

theorem builds_member (ih : BuildsTaken rest) {done : List (Key × Tree)} {key : Key}
    (hne : done ≠ []) {outer : List Frame}
    (h : build (.object done key :: outer) .commaOrEnd (token :: rest) = (tree, after))
    (htree : tree.intact = true) :
    tree.tokens ++ after =
      taken outer ++ .openObject :: (memberTokens done.reverse ++ token :: rest) := by
  cases token with
  | comma =>
    have htaken := ih (.key done key outer) h htree
    obtain ⟨⟨name, value⟩, done, rfl⟩ := List.exists_cons_of_ne_nil hne
    rw [List.reverse_cons, memberTokens_concat]
    simpa only [membersBefore, List.reverse_cons, List.flatMap_append, List.flatMap_cons,
      List.flatMap_nil, List.append_assoc, List.cons_append, List.nil_append] using htaken
  | closeObject =>
    have hsettle : settle outer (.object done.reverse) rest = (tree, after) := by
      cases outer with
      | nil => exact h
      | cons frame outer => exact h
    have htaken := builds_settle ih _ hsettle htree
    simpa only [tokens, List.append_assoc, List.cons_append, List.nil_append] using htaken
  | _ => exact absurd htree (not_builds_stopped h)

end built

/-- **A complete tree is built of exactly its tokens.** -/
theorem buildsTaken (rest : List Token) : BuildsTaken rest := by
  -- The induction is on the tokens that are left. At their end something is still awaited, so
  -- the tree is not complete.
  induction rest with
  | nil =>
    intro stack await consumed tree after hreached h htree
    exact absurd htree (not_builds_stopped h)
  | cons token rest ih =>
    intro stack await consumed tree after hreached h htree
    cases hreached with
    | value => exact builds_value ih h htree
    | firstItem outer =>
      rw [List.append_assoc]
      exact builds_firstItem ih h htree
    | firstKey outer =>
      rw [List.append_assoc]
      exact builds_firstKey ih h htree
    | key done key outer =>
      rw [List.append_assoc]
      exact builds_key ih h htree
    | colon done key outer =>
      cases token with
      | colon =>
        have htaken := ih (.value (.object done key :: outer)) h htree
        simpa only [taken, List.append_assoc, List.cons_append, List.nil_append] using htaken
      | _ => exact absurd htree (not_builds_stopped h)
    | item done hne outer =>
      rw [List.append_assoc]
      exact builds_item ih hne h htree
    | member done key hne outer =>
      rw [List.append_assoc]
      exact builds_member ih hne h htree

/-- **A text is read as a complete tree, with nothing behind it, exactly if it spells the tree.** -/
theorem read_eq_iff [FloatReader] {text : String} {tree : Tree} :
    Tree.read (Text.symbols text) = (tree, false) ∧ tree.intact = true ↔ IsText tree text := by
  constructor
  · intro h
    obtain ⟨hread, htree⟩ := h
    obtain ⟨hbuild, hrest⟩ := Prod.mk.inj hread
    have hnothing : (build [] .value (scan (Text.symbols text))).2 = [] := by
      rwa [Bool.not_eq_false', List.isEmpty_iff] at hrest
    have htokens := buildsTaken _ (.value []) (Prod.ext hbuild hnothing) htree
    rw [List.append_nil] at htokens
    exact lexed_of_scan htokens.symm ((intact_iff tree).1 htree)
  · intro h
    have hscan := scan_of_lexed h (parted_tokens tree)
    have htree : tree.intact = true := (intact_iff tree).2 h.json
    have hbuild := build_tokens tree [] [] htree
    rw [List.append_nil] at hbuild
    refine ⟨?_, htree⟩
    unfold Tree.read Text.symbols
    rw [hscan, hbuild]
    rfl

end Tree

/-- The text that is written for a tree spells it. -/
theorem isText_toText [FloatReader] [LawfulFloatReader] {tree : Tree} (h : tree.usable 0 = true) :
    IsText tree tree.toText :=
  Tree.read_eq_iff.1 ⟨Tree.read_toText h, Tree.intact_of_usable tree 0 h⟩

/-- **A text spells at most one tree.** -/
theorem IsText.unique [FloatReader] {tree tree' : Tree} {text : String} (h : IsText tree text)
    (h' : IsText tree' text) : tree = tree' := by
  have hread := (Tree.read_eq_iff.2 h).1
  rw [(Tree.read_eq_iff.2 h').1] at hread
  exact (Prod.mk.inj hread).1.symm

end SeriesBroker.Json
