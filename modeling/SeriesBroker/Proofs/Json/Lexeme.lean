import SeriesBroker.Proofs.Json.Written

/-! # How tokens are spelled

    A JSON text is a row of tokens with white space around and between them (`Lexed`), and each
    token has its spellings (`Lexeme`): a sign or a word has one, a number has one for each way to
    write its exponent, and a character of a string may stand for itself or be escaped in several
    ways.

    Here the spellings are said apart from the scan, and the scan is shown to agree with them in
    both directions. What is spelled is found (`scan_of_lexed`), as long as no two numbers stand
    side by side, and what is found was spelled (`lexed_of_scan`).
-/

namespace SeriesBroker.Json

open Text (Symbol)

/-! ### Spellings -/

/-- What stands between the marks of a string: characters as they are, escapes of one letter, and
    numbered escapes. Each of them adds to the draft of the text. -/
inductive StringBody : Draft → List Char → Draft → Prop where
  | done (d : Draft) : StringBody d [] d
  | plain {d e : Draft} {c : Char} {body : List Char}
      (hplain : 0x20 ≤ c.toNat ∧ c ≠ '"' ∧ c ≠ '\\') (h : StringBody (d.char c) body e) :
      StringBody d (c :: body) e
  | escape {d e : Draft} {letter c : Char} {body : List Char}
      (hletter : shortEscape? letter = some c) (h : StringBody (d.char c) body e) :
      StringBody d ('\\' :: letter :: body) e
  | numbered {d e : Draft} {i j k l : Char} {unit : ℕ} {body : List Char}
      (hunit : hex4? i j k l = some unit) (h : StringBody (d.unit unit) body e) :
      StringBody d ('\\' :: 'u' :: i :: j :: k :: l :: body) e

/-- The spellings of a token. What is not JSON has none. -/
inductive Lexeme [FloatReader] : Token → List Char → Prop where
  | openArray : Lexeme .openArray ['[']
  | closeArray : Lexeme .closeArray [']']
  | openObject : Lexeme .openObject ['\x7b']
  | closeObject : Lexeme .closeObject ['\x7d']
  | comma : Lexeme .comma [',']
  | colon : Lexeme .colon [':']
  | null : Lexeme .null ['n', 'u', 'l', 'l']
  | yes : Lexeme (.bool true) ['t', 'r', 'u', 'e']
  | no : Lexeme (.bool false) ['f', 'a', 'l', 's', 'e']
  | number {l : Literal} {exponent : List Char} (h : l.WellFormed)
      (hexponent : ExponentText l.power exponent) :
      Lexeme (.number l.number?) (l.charsWith exponent)
  | string {body : List Char} {d : Draft} (h : StringBody .empty body d) :
      Lexeme (.string d.text?) ('"' :: (body ++ ['"']))

/-- A text that is nothing but white space. -/
def IsSpaces (text : List Char) : Prop := ∀ c ∈ text, c ∈ spaces

/-- The texts of a row of tokens, with white space around and between them. -/
inductive Lexed [FloatReader] : List Token → List Char → Prop where
  | done {after : List Char} (h : IsSpaces after) : Lexed [] after
  | token {t : Token} {tokens : List Token} {before lexeme rest : List Char}
      (hbefore : IsSpaces before) (hlexeme : Lexeme t lexeme) (h : Lexed tokens rest) :
      Lexed (t :: tokens) (before ++ (lexeme ++ rest))

def Token.isNumber : Token → Bool
  | .number _ => true
  | _ => false

/-- Of two tokens side by side at most one is a number. All others end by themselves. -/
def Parted (tokens : List Token) : Prop :=
  tokens.IsChain fun t u => t.isNumber = false ∨ u.isNumber = false

/-! ### What is spelled is found -/

/-- A string is read to its closing mark, whatever follows. -/
theorem readString_of_body {d e : Draft} {body : List Char} (h : StringBody d body e)
    (rest : List Symbol) :
    readString d ((body ++ ['"']).map some ++ rest) = some (e.text?, rest) := by
  induction h with
  | done d => rfl
  | @plain d e c body hplain h ih =>
    obtain ⟨hcontrol, hquote, hslash⟩ := hplain
    have hnot : ¬ c.toNat < 0x20 := by omega
    show readString d (some c :: ((body ++ ['"']).map some ++ rest)) = _
    rw [readString, if_neg hnot]
    · exact ih
    · exact hquote
    · intro _ _ _ _ _ _ hc
      exact hslash hc
    · intro _ _ _ hc
      exact hslash hc
    · exact hslash
  | @escape d e letter c body hletter h ih =>
    -- No escape of one letter starts like a numbered one.
    have hnot : letter ≠ 'u' := by
      intro heq
      rw [heq] at hletter
      cases hletter
    show readString d (some '\\' :: some letter :: ((body ++ ['"']).map some ++ rest)) = _
    rw [readString, hletter]
    · exact ih
    · intro _ _ _ _ _ _ hu
      exact hnot hu
  | @numbered d e i j k l unit body hunit h ih =>
    show readString d (some '\\' :: some 'u' :: some i :: some j :: some k :: some l ::
      ((body ++ ['"']).map some ++ rest)) = _
    rw [readString, hunit]
    exact ih

/-- A token is read from its spelling. Only a number depends on what follows. -/
theorem readToken_of_lexeme [FloatReader] {t : Token} {lexeme : List Char} (h : Lexeme t lexeme)
    {rest : List Symbol} (hrest : t.isNumber = true → Apart rest) :
    readToken (lexeme.map some ++ rest) = some (t, rest) := by
  cases h with
  | @number l exponent hl hexponent =>
    obtain ⟨c, chars, hchars, hc⟩ := hl.charsWith_eq_cons exponent
    have hread := readNumber_charsWith hl hexponent (hrest rfl)
    rw [hchars, List.map_cons, List.cons_append] at hread ⊢
    rw [readToken_of_number hc, hread]
  | @string body d hbody =>
    have hread := readString_of_body hbody rest
    show (readString .empty ((body ++ ['"']).map some ++ rest)).map _ = _
    rw [hread]
    rfl
  | _ => rfl

/-- The first character of a spelling is no white space. Of a token that is no number it does not
    continue a number either. -/
theorem exists_of_lexeme [FloatReader] {t : Token} {lexeme : List Char} (h : Lexeme t lexeme) :
    ∃ c chars, lexeme = c :: chars ∧ c ∉ spaces ∧
      (t.isNumber = false → c.isDigit = false ∧ c ∉ ['.', 'e', 'E']) := by
  cases h with
  | @number l exponent hl hexponent =>
    obtain ⟨c, chars, hchars, hc⟩ := hl.charsWith_eq_cons exponent
    refine ⟨c, chars, hchars, ?_, fun hnot => Bool.noConfusion hnot⟩
    intro hspace
    simp only [spaces, List.mem_cons, List.not_mem_nil, or_false] at hspace
    rcases hspace with rfl | rfl | rfl | rfl
    all_goals exact absurd hc (by decide)
  | string hbody => exact ⟨'"', _, rfl, by decide, fun _ => by decide⟩
  | _ => exact ⟨_, _, rfl, by decide, fun _ => by decide⟩

/-- White space does not continue a number. -/
theorem not_continues_of_space {c : Char} (h : c ∈ spaces) :
    c.isDigit = false ∧ c ∉ ['.', 'e', 'E'] := by
  simp only [spaces, List.mem_cons, List.not_mem_nil, or_false] at h
  rcases h with rfl | rfl | rfl | rfl
  all_goals exact ⟨rfl, by simp⟩

/-- Tokens of which the first is no number do not continue one. -/
theorem apart_of_lexed [FloatReader] {tokens : List Token} {text : List Char}
    (h : Lexed tokens text) (hfirst : ∀ t ∈ tokens.head?, t.isNumber = false) :
    Apart (text.map some) := by
  intro c hc
  cases h with
  | done hafter =>
    cases text with
    | nil => cases hc
    | cons d after =>
      obtain rfl := Option.some.inj (Option.some.inj hc)
      exact not_continues_of_space (hafter _ List.mem_cons_self)
  | @token t tokens before lexeme rest hbefore hlexeme h =>
    cases before with
    | nil =>
      -- The text starts with the token itself.
      obtain ⟨d, chars, rfl, -, hd⟩ := exists_of_lexeme hlexeme
      obtain rfl := Option.some.inj (Option.some.inj hc)
      exact hd (hfirst t rfl)
    | cons d before =>
      obtain rfl := Option.some.inj (Option.some.inj hc)
      exact not_continues_of_space (hbefore _ List.mem_cons_self)

theorem isSpace_of_mem_map {text : List Char} (h : IsSpaces text) :
    ∀ s ∈ text.map some, isSpace s = true := by
  intro s hs
  obtain ⟨c, hc, rfl⟩ := List.mem_map.1 hs
  exact isSpace_some.2 (h c hc)

/-- **The scan finds the tokens that a text spells**, if no two numbers stand side by side. -/
theorem scan_of_lexed [FloatReader] {tokens : List Token} {text : List Char} (h : Lexed tokens text)
    (hparted : Parted tokens) : scan (text.map some) = tokens := by
  induction h with
  | done hafter => exact scan_eq_nil.2 (isSpace_of_mem_map hafter)
  | @token t tokens before lexeme rest hbefore hlexeme h ih =>
    have hrest : t.isNumber = true → Apart (rest.map some) := by
      intro hnumber
      apply apart_of_lexed h
      intro u hu
      rcases (List.isChain_cons.1 hparted).1 u hu with hfirst | hnext
      · rw [hnumber] at hfirst
        cases hfirst
      · exact hnext
    have hread := readToken_of_lexeme hlexeme hrest
    obtain ⟨c, chars, rfl, hc, -⟩ := exists_of_lexeme hlexeme
    have hspace : ¬ isSpace (some c) = true := fun hspace => hc (isSpace_some.1 hspace)
    rw [List.map_append, List.map_append, scan_append_of_isSpace (isSpace_of_mem_map hbefore)]
    exact (scan_of_readToken hspace hread).trans (congrArg _ (ih hparted.tail))

/-! ### What is found was spelled -/

section found

/-- Symbols that are found in front are the first characters of the text. -/
theorem eq_append_of_map_some (front : List Char) {text : List Char} {rest : List Symbol}
    (h : text.map some = front.map some ++ rest) :
    ∃ back, text = front ++ back ∧ rest = back.map some := by
  obtain ⟨first, back, rfl, hfirst, hback⟩ := List.map_eq_append_iff.1 h
  rw [List.map_injective_iff.2 (Option.some_injective Char) hfirst]
  exact ⟨back, rfl, hback.symm⟩

theorem exists_of_readDigits {text digits : List Char} {rest : List Symbol}
    (h : readDigits (text.map some) = (digits, rest)) :
    ∃ back, text = digits ++ back ∧ rest = back.map some ∧ ∀ c ∈ digits, c.isDigit = true := by
  have hdigits : ((text.map some).takeWhile isDigitSymbol).filterMap id =
      text.takeWhile Char.isDigit := by
    rw [List.takeWhile_map, List.filterMap_map]
    exact List.filterMap_some
  have hrest : (text.map some).dropWhile isDigitSymbol =
      (text.dropWhile Char.isDigit).map some := List.dropWhile_map
  unfold readDigits at h
  rw [hdigits, hrest] at h
  obtain ⟨rfl, rfl⟩ := Prod.mk.inj h
  exact ⟨_, List.takeWhile_append_dropWhile.symm, rfl, fun c hc => List.mem_takeWhile_imp hc⟩

theorem exists_of_readFraction {text : List Char} {fraction : Option (List Char)}
    {rest : List Symbol} (h : readFraction (text.map some) = some (fraction, rest)) :
    ∃ back, text = fractionChars fraction ++ back ∧ rest = back.map some ∧
      fraction ≠ some [] ∧ ∀ digits ∈ fraction, ∀ c ∈ digits, c.isDigit = true := by
  unfold readFraction at h
  split at h
  · next after heq =>
    obtain ⟨back, rfl, rfl⟩ := eq_append_of_map_some ['.'] heq
    split at h
    · cases h
    · next digits after hne hread =>
      cases h
      obtain ⟨back, rfl, rfl, hdigits⟩ := exists_of_readDigits hread
      refine ⟨back, rfl, rfl, fun heq => hne (Option.some.inj heq), ?_⟩
      intro found hfound
      obtain rfl := Option.some.inj hfound
      exact hdigits
  · cases h
    exact ⟨text, rfl, rfl, by simp, by simp⟩

theorem exists_of_readSign {text : List Char} {negative : Bool} {rest : List Symbol}
    (h : readSign (text.map some) = (negative, rest)) :
    ∃ sign back, text = sign ++ back ∧ rest = back.map some ∧ SignText negative sign := by
  unfold readSign at h
  split at h
  · next heq =>
    cases h
    obtain ⟨back, rfl, rfl⟩ := eq_append_of_map_some ['-'] heq
    exact ⟨['-'], back, rfl, rfl, .minus⟩
  · next heq =>
    cases h
    obtain ⟨back, rfl, rfl⟩ := eq_append_of_map_some ['+'] heq
    exact ⟨['+'], back, rfl, rfl, .plus⟩
  · cases h
    exact ⟨[], text, rfl, rfl, .missing⟩

theorem exists_of_readExponent {text : List Char} {power : Option ℤ} {rest : List Symbol}
    (h : readExponent (text.map some) = some (power, rest)) :
    ∃ exponent back, text = exponent ++ back ∧ rest = back.map some ∧
      ExponentText power exponent := by
  unfold readExponent at h
  split at h
  · next letter after heq =>
    obtain ⟨back, rfl, rfl⟩ := eq_append_of_map_some [letter] heq
    split at h
    · next hletter =>
      rcases hread : readSign (back.map some) with ⟨negative, behind⟩
      rw [hread] at h
      simp only at h
      obtain ⟨sign, back, rfl, rfl, hsign⟩ := exists_of_readSign hread
      split at h
      · cases h
      · next digits after hne hread =>
        cases h
        obtain ⟨back, rfl, rfl, hdigits⟩ := exists_of_readDigits hread
        refine ⟨letter :: (sign ++ digits), back, ?_, rfl,
          .written hletter hsign (fun heq => hne heq) hdigits⟩
        simp only [List.cons_append, List.nil_append, List.append_assoc]
    · cases h
      exact ⟨[], letter :: back, rfl, rfl, .missing⟩
  · cases h
    exact ⟨[], text, rfl, rfl, .missing⟩

theorem exists_of_readUnsigned {negative : Bool} {text : List Char} {l : Literal}
    {rest : List Symbol} (h : readUnsigned negative (text.map some) = some (l, rest)) :
    ∃ exponent back, text = l.whole ++ (fractionChars l.fraction ++ exponent) ++ back ∧
      rest = back.map some ∧ l.negative = negative ∧ l.WellFormed ∧
      ExponentText l.power exponent := by
  unfold readUnsigned at h
  split at h
  · cases h
  · cases h
  · next whole after hne halone hread =>
    obtain ⟨back, rfl, rfl, hwhole⟩ := exists_of_readDigits hread
    simp only [Option.bind_eq_bind, Option.bind_eq_some_iff, Option.pure_def, Option.some.injEq,
      Prod.mk.injEq] at h
    obtain ⟨⟨fraction, one⟩, hfraction, ⟨power, two⟩, hpower, rfl, rfl⟩ := h
    obtain ⟨back, rfl, rfl, hne', hdigits⟩ := exists_of_readFraction hfraction
    obtain ⟨exponent, back, rfl, htwo, hexponent⟩ := exists_of_readExponent hpower
    refine ⟨exponent, back, ?_, htwo, rfl, ⟨fun heq => hne heq, hwhole, ?_, hne', hdigits⟩,
      hexponent⟩
    · simp only [List.append_assoc]
    · -- A second digit after a leading zero was refused.
      intro others hothers
      cases others with
      | nil => rfl
      | cons d others => exact absurd hothers (halone d others)

theorem exists_of_readNumber [FloatReader] {text : List Char} {t : Token} {rest : List Symbol}
    (h : readNumber (text.map some) = some (t, rest)) :
    ∃ lexeme back, text = lexeme ++ back ∧ rest = back.map some ∧ Lexeme t lexeme := by
  unfold readNumber at h
  simp only [Option.map_eq_some_iff, Prod.mk.injEq, Prod.exists] at h
  obtain ⟨l, after, hl, rfl, rfl⟩ := h
  split at hl
  · next heq =>
    obtain ⟨back, rfl, rfl⟩ := eq_append_of_map_some ['-'] heq
    obtain ⟨exponent, back, rfl, hafter, hnegative, hform, hexponent⟩ := exists_of_readUnsigned hl
    refine ⟨l.charsWith exponent, back, ?_, hafter, .number hform hexponent⟩
    rw [Literal.charsWith, hnegative]
    rfl
  · obtain ⟨exponent, back, rfl, hafter, hnegative, hform, hexponent⟩ := exists_of_readUnsigned hl
    refine ⟨l.charsWith exponent, back, ?_, hafter, .number hform hexponent⟩
    rw [Literal.charsWith, hnegative]
    rfl

theorem exists_of_readString {d : Draft} {text : List Char} {found : Option String}
    {rest : List Symbol} (h : readString d (text.map some) = some (found, rest)) :
    ∃ body back e, text = body ++ '"' :: back ∧ rest = back.map some ∧ StringBody d body e ∧
      found = e.text? := by
  generalize hsymbols : text.map some = symbols at h
  -- Each step takes the characters of one part of the string off the text.
  fun_induction readString d symbols generalizing text with
  | case1 => cases h
  | case2 =>
    cases text with
    | nil => cases hsymbols
    | cons c back => cases hsymbols
  | case3 d rest =>
    obtain ⟨back, rfl, rfl⟩ := eq_append_of_map_some ['"'] hsymbols
    cases h
    exact ⟨[], back, d, rfl, rfl, .done d, rfl⟩
  | case4 => cases h
  | case5 d i j k l rest unit hunit ih =>
    obtain ⟨back, rfl, hback⟩ := eq_append_of_map_some ['\\', 'u', i, j, k, l] hsymbols
    obtain ⟨body, back, e, rfl, hrest, hbody, hfound⟩ := ih hback.symm h
    exact ⟨_, back, e, rfl, hrest, .numbered hunit hbody, hfound⟩
  | case6 d letter rest hnot c hletter ih =>
    obtain ⟨back, rfl, hback⟩ := eq_append_of_map_some ['\\', letter] hsymbols
    obtain ⟨body, back, e, rfl, hrest, hbody, hfound⟩ := ih hback.symm h
    exact ⟨_, back, e, rfl, hrest, .escape hletter hbody, hfound⟩
  | case7 => cases h
  | case8 => cases h
  | case9 => cases h
  | case10 d c rest hquote _ _ hslash hplain ih =>
    obtain ⟨back, rfl, hback⟩ := eq_append_of_map_some [c] hsymbols
    obtain ⟨body, back, e, rfl, hrest, hbody, hfound⟩ := ih hback.symm h
    exact ⟨_, back, e, rfl, hrest, .plain ⟨by omega, hquote, hslash⟩ hbody, hfound⟩

/-- A token is found at its own spelling. -/
theorem exists_of_front [FloatReader] {t : Token} {front text : List Char}
    (hlexeme : Lexeme t front) {rest : List Symbol} (h : text.map some = front.map some ++ rest) :
    ∃ lexeme back, text = lexeme ++ back ∧ rest = back.map some ∧ Lexeme t lexeme := by
  obtain ⟨back, htext, hrest⟩ := eq_append_of_map_some front h
  exact ⟨front, back, htext, hrest, hlexeme⟩

theorem exists_of_readToken [FloatReader] {text : List Char} {t : Token} {rest : List Symbol}
    (h : readToken (text.map some) = some (t, rest)) :
    ∃ lexeme back, text = lexeme ++ back ∧ rest = back.map some ∧ Lexeme t lexeme := by
  generalize hsymbols : text.map some = symbols at h
  unfold readToken at h
  split at h
  case h_7 =>
    -- Behind the opening mark stands the string.
    simp only [Option.map_eq_some_iff, Prod.mk.injEq, Prod.exists] at h
    obtain ⟨found, after, hread, rfl, rfl⟩ := h
    obtain ⟨back, rfl, rfl⟩ := eq_append_of_map_some ['"'] hsymbols
    obtain ⟨body, back, d, rfl, rfl, hbody, rfl⟩ := exists_of_readString hread
    exact ⟨'"' :: (body ++ ['"']), back, by simp, rfl, .string hbody⟩
  case h_11 =>
    rw [← hsymbols] at h
    exact exists_of_readNumber h
  -- All other tokens have one spelling.
  case h_1 => cases h; exact exists_of_front .openArray hsymbols
  case h_2 => cases h; exact exists_of_front .closeArray hsymbols
  case h_3 => cases h; exact exists_of_front .openObject hsymbols
  case h_4 => cases h; exact exists_of_front .closeObject hsymbols
  case h_5 => cases h; exact exists_of_front .comma hsymbols
  case h_6 => cases h; exact exists_of_front .colon hsymbols
  case h_8 => cases h; exact exists_of_front .null hsymbols
  case h_9 => cases h; exact exists_of_front .yes hsymbols
  case h_10 => cases h; exact exists_of_front .no hsymbols

end found

/-- **The tokens that the scan finds were spelled by the text**, unless it stopped being JSON. -/
theorem lexed_of_scan [FloatReader] {tokens : List Token} {text : List Char}
    (h : scan (text.map some) = tokens) (hjson : .malformed ∉ tokens) : Lexed tokens text := by
  induction tokens generalizing text with
  | nil =>
    refine .done fun c hc => isSpace_some.1 ?_
    exact scan_eq_nil.1 h (some c) (List.mem_map_of_mem hc)
  | cons t tokens ih =>
    obtain ⟨before, rest, hsplit, hbefore, hfirst⟩ := exists_of_scan_eq_cons h
    obtain ⟨blank, back, rfl, hblank, hrest⟩ := List.map_eq_append_iff.1 hsplit
    rcases hfirst with ⟨_, hmalformed, _⟩ | ⟨after, hread, htokens⟩
    · rw [hmalformed] at hjson
      exact absurd List.mem_cons_self hjson
    · rw [← hrest] at hread
      obtain ⟨lexeme, back, rfl, rfl, hlexeme⟩ := exists_of_readToken hread
      have hspaces : IsSpaces blank := by
        intro c hc
        rw [← hblank] at hbefore
        exact isSpace_some.1 (hbefore (some c) (List.mem_map_of_mem hc))
      have hlater := ih htokens.symm fun hmem => hjson (List.mem_cons_of_mem t hmem)
      exact .token hspaces hlexeme hlater

end SeriesBroker.Json
