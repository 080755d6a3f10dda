import Mathlib.Data.List.TakeWhile
import SeriesBroker.Proofs.Steps
import SeriesBroker.Url.Read

/-! # Parts of URLs without the marks that end them

    The parts of a URL are told apart by colons, slashes, question marks and number signs. Where
    one of these would end a part, reading a URL leaves none in it: it is refused, it was cut at,
    or it is written as an escape. So the scheme has no colon (`colon_not_mem_readScheme`), and
    the user information, the host and the segments of the path have no slash, question mark or
    number sign, they are `Plain`.
-/

namespace SeriesBroker.Url

/-! ### Characters that part a URL -/

/-- No slash, question mark or number sign. -/
def Plain (text : List Char) : Prop := ∀ c ∈ text, endsAuthority .other c = false

@[simp] theorem plain_nil : Plain [] := by simp [Plain]

@[simp] theorem plain_cons {c : Char} {text : List Char} :
    Plain (c :: text) ↔ endsAuthority .other c = false ∧ Plain text := by
  simp [Plain]

@[simp] theorem plain_append {a b : List Char} : Plain (a ++ b) ↔ Plain a ∧ Plain b := by
  simp [Plain, or_imp, forall_and]

theorem endsAuthority_other (c : Char) :
    endsAuthority .other c = true ↔ c = '/' ∨ c = '?' ∨ c = '#' := by
  have hkind : (SchemeKind.other == SchemeKind.web) = false := rfl
  simp [endsAuthority, hkind, or_assoc]

@[simp] theorem endsAuthority_colon : endsAuthority .other ':' = false := rfl

theorem Plain.ne_slash {text : List Char} (h : Plain text) : ∀ c ∈ text, c ≠ '/' := by
  intro c hc hslash
  have hends := h c hc
  rw [hslash] at hends
  cases hends

/-- A set that has the three marks has every mark. -/
theorem endsAuthority_of_not_mem (set : Char → Bool) {c : Char}
    (hset : set '/' = true ∧ set '?' = true ∧ set '#' = true) (hc : set c = false) :
    endsAuthority .other c = false := by
  rw [Bool.eq_false_iff]
  intro hends
  obtain rfl | rfl | rfl := (endsAuthority_other c).1 hends
  · rw [hset.1] at hc
    cases hc
  · rw [hset.2.1] at hc
    cases hc
  · rw [hset.2.2] at hc
    cases hc

theorem plain_hexUpper : ∀ v < 16, endsAuthority .other (Text.hexUpper v) = false := by
  decide +kernel

theorem plain_percentEscape (byte : UInt8) : Plain (Form.percentEscape byte) := by
  have hbyte := byte.toNat_lt
  have hhigh := plain_hexUpper (byte.toNat / 16) (by omega)
  have hlow := plain_hexUpper (byte.toNat % 16) (by omega)
  have hpercent : endsAuthority .other '%' = false := by decide
  simp [Form.percentEscape, Text.byteUpper, hhigh, hlow, hpercent]

/-- Escaping a text leaves only what is not escaped and escapes. -/
theorem plain_escapeBy {set : Char → Bool} {text : List Char}
    (h : ∀ c ∈ text, set c = false → endsAuthority .other c = false) :
    Plain (escapeBy set text) := by
  intro c hc
  obtain ⟨d, hd, hc⟩ := List.mem_flatMap.1 hc
  by_cases hset : set d = true
  · rw [if_pos hset] at hc
    obtain ⟨byte, -, hc⟩ := List.mem_flatMap.1 hc
    exact plain_percentEscape byte c hc
  · rw [if_neg hset, List.mem_singleton] at hc
    rw [hc]
    exact h d hd (by simpa using hset)

theorem plain_digitChar : ∀ v < 16, endsAuthority .other (Nat.digitChar v) = false := by
  decide +kernel

/-- A number has only digits. -/
theorem plain_toDigits {base : Nat} (hbase : 1 < base) (hle : base ≤ 16) (n : Nat) :
    Plain (Nat.toDigits base n) := by
  induction n using Nat.strongRecOn with
  | ind n ih =>
    rw [Nat.toDigits_eq_if hbase]
    by_cases hn : n < base
    · rw [if_pos hn]
      simp [plain_digitChar n (by omega)]
    · have hlt : n / base < n := Nat.div_lt_self (by omega) hbase
      have hmod : n % base < base := Nat.mod_lt n (by omega)
      rw [if_neg hn]
      simp [ih (n / base) hlt, plain_digitChar (n % base) (by omega)]

theorem plain_intercalate {between : List Char} (hbetween : Plain between)
    {parts : List (List Char)} (hparts : ∀ part ∈ parts, Plain part) :
    Plain (List.intercalate between parts) :=
  intercalate_induction plain_nil (fun _ _ ha hb => plain_append.2 ⟨ha, hb⟩) hbetween hparts

/-! ### Hosts -/

theorem plain_ipv4Text (value : Nat) : Plain (ipv4Text value) := by
  refine plain_intercalate (by simp; decide) ?_
  intro part hpart
  obtain ⟨n, -, rfl⟩ := List.mem_map.1 hpart
  exact plain_toDigits (by decide) (by decide) n

theorem plain_ipv6Join (pieces : List Nat) : Plain (ipv6Join pieces) := by
  refine plain_intercalate (by simp) ?_
  intro part hpart
  obtain ⟨n, -, rfl⟩ := List.mem_map.1 hpart
  exact plain_toDigits (by decide) (by decide) n

theorem plain_ipv6Text (pieces : List Nat) : Plain (ipv6Text pieces) := by
  unfold ipv6Text
  dsimp only
  split
  · exact plain_ipv6Join pieces
  · simp [plain_ipv6Join]

theorem plain_readIpv6 {text host : List Char} (h : readIpv6 text = .ok host) : Plain host := by
  have hopen : endsAuthority .other '[' = false := by decide
  have hclose : endsAuthority .other ']' = false := by decide
  unfold readIpv6 at h
  split at h
  · next pieces _ _ =>
    cases h
    simp [plain_ipv6Text, hopen, hclose]
  · cases h

theorem plain_readIpv4 {name host : List Char} (h : readIpv4 name = .ok host) : Plain host := by
  unfold readIpv4 at h
  split at h
  · cases h
  · split at h
    · next value _ =>
      cases h
      exact plain_ipv4Text value
    · cases h

theorem plain_of_isNameChar {name : List Char} (h : name.all isNameChar = true) : Plain name := by
  intro c hc
  have hchar : isNameChar c = true := List.all_eq_true.1 h c hc
  unfold isNameChar at hchar
  simp only [Bool.and_eq_true, Bool.not_eq_true'] at hchar
  exact endsAuthority_of_not_mem forbiddenSigns.contains (by decide) hchar.1.2

theorem plain_readWebHost [NameReader] {text host : List Char} (h : readWebHost text = .ok host) :
    Plain host := by
  unfold readWebHost at h
  split at h
  · exact plain_readIpv6 h
  · split at h
    · cases h
    · next hname =>
      split at h
      · cases h
      · split at h
        · exact plain_readIpv4 h
        · cases h
          exact plain_of_isNameChar (NameReader.allowed hname)

theorem plain_readOtherHost {text host : List Char} (h : readOtherHost text = .ok host) :
    Plain host := by
  unfold readOtherHost at h
  split at h
  · exact plain_readIpv6 h
  · split at h
    · cases h
    · next hany =>
      cases h
      apply plain_escapeBy
      intro c hc _
      rw [Bool.not_eq_true] at hany
      have hnone := List.any_eq_false.1 hany c hc
      rw [Bool.not_eq_true, Bool.or_eq_false_iff] at hnone
      exact endsAuthority_of_not_mem forbiddenSigns.contains (by decide) hnone.1

/-! ### What stands before a host -/

theorem plain_inUserinfo (text : List Char) : Plain (escapeBy inUserinfo text) := by
  apply plain_escapeBy
  intro c _ hc
  exact endsAuthority_of_not_mem inUserinfo (by decide) hc

/-- A user name and a password are escaped, so none of their characters ends the authority. -/
theorem plain_readUserinfo {kind : SchemeKind} {text name rest : List Char}
    {password : Option (List Char)} (h : readUserinfo kind text = .ok (name, password, rest)) :
    Plain name ∧ ∀ word ∈ password, Plain word := by
  unfold readUserinfo at h
  dsimp only at h
  split at h
  · cases h
    simp
  · split at h
    · split at h
      · split at h
        · cases h
        · cases h
          simp
      · cases h
        simp
    · cases h
      refine ⟨plain_inUserinfo _, ?_⟩
      intro word hword
      split at hword
      · cases hword
      · cases hword
        exact plain_inUserinfo _

/-- Lower case makes no letter a colon. -/
theorem eq_colon_of_toLower {c : Char} (h : c.toLower = ':') : c = ':' := by
  unfold Char.toLower at h
  split at h
  · next hupper =>
    have hval : c.val + ('a'.val - 'A'.val) = ':'.val := congrArg Char.val h
    have hcode : c.val = 26 := by
      rw [← UInt32.add_sub_cancel c.val ('a'.val - 'A'.val), hval]
      rfl
    rw [hcode] at hupper
    exact absurd hupper.1 (by decide)
  · exact h

theorem colon_not_mem_readScheme {text scheme rest : List Char}
    (h : readScheme text = .ok (scheme, rest)) : ':' ∉ scheme := by
  unfold readScheme at h
  split at h
  · cases h
  · dsimp only at h
    split at h
    · cases h
      intro hmem
      obtain ⟨c, hc, hlower⟩ := List.mem_map.1 hmem
      have hchar := List.mem_takeWhile_imp hc
      rw [eq_colon_of_toLower hlower] at hchar
      exact absurd hchar (by decide)
    · cases h

/-! ### Segments -/

/-- No part of a text between slashes has one. -/
theorem slash_not_mem_of_mem_splitOn {text part : List Char} (h : part ∈ text.splitOn '/') :
    '/' ∉ part := by
  induction text generalizing part with
  | nil =>
    rw [List.splitOn_nil, List.mem_singleton] at h
    simp [h]
  | cons c text ih =>
    rw [List.splitOn_cons_eq_if_modifyHead] at h
    by_cases hc : c = '/'
    · rw [if_pos (by simpa using hc)] at h
      obtain rfl | h := List.mem_cons.1 h
      · simp
      · exact ih h
    · rw [if_neg (by simpa using hc)] at h
      -- The character goes to the front of the first part.
      cases hsplit : text.splitOn '/' with
      | nil => exact absurd hsplit (List.splitOn_ne_nil _ _)
      | cons front parts =>
        rw [hsplit] at h ih
        obtain rfl | h := List.mem_cons.1 h
        · intro hmem
          obtain hslash | hmem := List.mem_cons.1 hmem
          · exact hc hslash.symm
          · exact ih List.mem_cons_self hmem
        · exact ih (List.mem_cons_of_mem front h)

theorem plain_normalSegment (kind : SchemeKind) (first : Bool) {segment : List Char}
    (h : '/' ∉ segment) : Plain (normalSegment kind first segment) := by
  have hescaped : ∀ text : List Char, '/' ∉ text → Plain (escapeBy inPath text) := by
    intro text htext
    apply plain_escapeBy
    intro c hc hpath
    have hslash : c ≠ '/' := fun heq => htext (heq ▸ hc)
    apply endsAuthority_of_not_mem (fun c => inPath c || c == '/') (by decide)
    simp [hpath, hslash]
  unfold normalSegment
  split
  · next c =>
    split
    · next hdrive =>
      have hc : endsAuthority .other c = false :=
        endsAuthority_of_not_mem (fun c => !c.isAlpha) (by decide) (by simp [hdrive.2.2])
      simp [hc]
    · exact hescaped _ h
  · exact hescaped _ h

/-- Every step keeps the segments so far plain, and adds at most an empty one or one that is put
    into its form. -/
theorem plain_resolveDots (kind : SchemeKind) {segments reversed : List (List Char)}
    (hreversed : ∀ s ∈ reversed, Plain s) (hsegments : ∀ s ∈ segments, '/' ∉ s) :
    ∀ s ∈ resolveDots kind reversed segments, Plain s := by
  induction segments generalizing reversed with
  | nil =>
    intro s hs
    exact hreversed s (List.mem_reverse.1 hs)
  | cons segment rest ih =>
    have hrest : ∀ s ∈ rest, '/' ∉ s := fun s hs => hsegments s (List.mem_cons_of_mem segment hs)
    have hemptied : ∀ sofar : List (List Char), (∀ s ∈ sofar, Plain s) →
        ∀ s ∈ if rest.isEmpty then [] :: sofar else sofar, Plain s := by
      intro sofar hsofar
      split
      · exact List.forall_mem_cons.2 ⟨plain_nil, hsofar⟩
      · exact hsofar
    unfold resolveDots
    dsimp only
    -- Two dots drop a segment, one dot adds none, and any other segment is written plainly.
    split
    · refine ih (hemptied _ ?_) hrest
      split
      · exact hreversed
      · exact fun s hs => hreversed s (List.mem_of_mem_drop hs)
    · split
      · exact ih (hemptied _ hreversed) hrest
      · have hplain := plain_normalSegment kind reversed.isEmpty
          (hsegments segment List.mem_cons_self)
        exact ih (List.forall_mem_cons.2 ⟨hplain, hreversed⟩) hrest

theorem plain_readSegments (kind : SchemeKind) (text : List Char) :
    ∀ s ∈ readSegments kind text, Plain s := by
  unfold readSegments
  extract_lets slashed segments
  have hall : ∀ s ∈ segments, Plain s :=
    plain_resolveDots kind (by simp) fun _ hs => slash_not_mem_of_mem_splitOn hs
  split
  · split
    · simp
    · next segments _ _ =>
      intro s hs
      exact hall s ((List.dropWhile_sublist _).subset hs)
  · exact hall

end SeriesBroker.Url
