import SeriesBroker.Proofs.Url.Plain

/-! # The standard form of URLs

    The text of a URL is `scheme:`, then `//` and the authority if there is one, then the path,
    and then the query after a question mark and the fragment after a number sign. Whoever gets
    only the text finds the path again behind the first colon and the authority, up to the first
    question mark or number sign (`pathPart`). That this is the path which was written needs that
    no part has a mark that ends it earlier, and that a path without an authority before it does
    not begin with two slashes. Texts put together from such parts are in the standard form
    (`Parts.Standard`), and so is the text of every URL that was read and has a place for a path
    (`standard_of_ofText`).
-/

namespace SeriesBroker.Url

/-! ### Parts of a text -/

/-- The parts a URL is written from. -/
structure Parts where
  scheme : List Char
  /-- The authority with the two slashes before it, or nothing. -/
  authority : List Char
  path : List Char
  /-- The query and the fragment, each with its mark, or nothing. -/
  tail : List Char

/-- The text that is written from some parts. -/
def Parts.text (p : Parts) : List Char := p.scheme ++ ':' :: (p.authority ++ (p.path ++ p.tail))

/-- No part has a mark that would end it, and each begins with its own mark. -/
structure Parts.Standard (p : Parts) : Prop where
  scheme : ':' ∉ p.scheme
  authority : p.authority = [] ∨ ∃ name, p.authority = '/' :: '/' :: name ∧ Plain name
  /-- Two slashes at the front of a path would be those of an authority. -/
  apart : p.authority = [] → ¬ ['/', '/'] <+: p.path
  rooted : ∀ c ∈ p.path.head?, c = '/'
  path : ∀ c ∈ p.path, endsPath c = false
  tail : ∀ c ∈ p.tail.head?, endsPath c = true

/-- What follows the authority, if there is one. -/
def afterAuthority : List Char → List Char
  | '/' :: '/' :: rest => rest.dropWhile fun c => !endsAuthority .other c
  | rest => rest

/-- The path in the text of a URL. -/
def pathPart (text : List Char) : List Char :=
  (afterAuthority ((text.dropWhile (· != ':')).drop 1)).takeWhile fun c => !endsPath c

theorem afterAuthority_of_not_slashes {text : List Char} (h : ¬ ['/', '/'] <+: text) :
    afterAuthority text = text := by
  unfold afterAuthority
  split
  · next rest => exact absurd ⟨rest, rfl⟩ h
  · rfl

theorem endsAuthority_of_endsPath {c : Char} (h : endsPath c = true) :
    endsAuthority .other c = true := by
  simp only [endsPath, Bool.or_eq_true, beq_iff_eq] at h
  exact (endsAuthority_other c).2 (.inr h)

theorem Plain.endsPath_eq {text : List Char} (h : Plain text) :
    ∀ c ∈ text, endsPath c = false := by
  intro c hc
  rw [Bool.eq_false_iff]
  intro hends
  have hplain := h c hc
  rw [endsAuthority_of_endsPath hends] at hplain
  cases hplain

namespace Parts.Standard

variable {p : Parts}

theorem slash_not_mem_tail (h : p.Standard) : '/' ∉ p.tail.head? := by
  intro hmem
  have hends := h.tail '/' hmem
  cases hends

/-- A path without an authority stays one when the tail follows it. -/
theorem not_slashes (h : p.Standard) (hauthority : p.authority = []) :
    ¬ ['/', '/'] <+: p.path ++ p.tail := by
  intro hslashes
  have hpath := h.apart hauthority
  have htail := h.slash_not_mem_tail
  cases hp : p.path with
  | nil =>
    rw [hp, List.nil_append] at hslashes
    obtain ⟨rest, hrest⟩ := hslashes
    rw [← hrest] at htail
    exact htail rfl
  | cons c path =>
    cases path with
    | nil =>
      rw [hp, List.singleton_append, List.cons_prefix_cons] at hslashes
      obtain ⟨rest, hrest⟩ := hslashes.2
      rw [← hrest] at htail
      exact htail rfl
    | cons d path =>
      rw [hp] at hslashes hpath
      simp only [List.cons_append, List.cons_prefix_cons, List.nil_prefix] at hslashes hpath
      exact hpath hslashes

theorem afterAuthority_eq (h : p.Standard) :
    afterAuthority (p.authority ++ (p.path ++ p.tail)) = p.path ++ p.tail := by
  obtain hnone | ⟨name, hname, hplain⟩ := h.authority
  · rw [hnone, List.nil_append]
    exact afterAuthority_of_not_slashes (h.not_slashes hnone)
  · have hpos : ∀ c ∈ name, (!endsAuthority .other c) = true := fun c hc => by simp [hplain c hc]
    rw [hname]
    show (name ++ (p.path ++ p.tail)).dropWhile (fun c => !endsAuthority .other c) = _
    rw [List.dropWhile_append_of_pos hpos]
    -- the path begins with a slash, and a tail without a path with its own mark
    cases hp : p.path with
    | cons c path =>
      have hc : c = '/' := h.rooted c (by simp [hp])
      rw [hc]
      rfl
    | nil =>
      cases ht : p.tail with
      | nil => rfl
      | cons c tail =>
        have hc := endsAuthority_of_endsPath (h.tail c (by simp [ht]))
        rw [List.nil_append, List.dropWhile_cons_of_neg (by simp [hc])]

/-- The path of a text in the standard form is found again. -/
theorem pathPart_text (h : p.Standard) : pathPart p.text = p.path := by
  have hscheme : ∀ c ∈ p.scheme, (c != ':') = true := by
    intro c hc
    exact bne_iff_ne.2 fun heq => h.scheme (heq ▸ hc)
  have htail : p.tail.takeWhile (fun c => !endsPath c) = [] := by
    cases ht : p.tail with
    | nil => rfl
    | cons c tail =>
      rw [List.takeWhile_cons_of_neg]
      simp [h.tail c (by simp [ht])]
  have hrest : (p.text.dropWhile (· != ':')).drop 1 = p.authority ++ (p.path ++ p.tail) := by
    unfold Parts.text
    rw [List.dropWhile_append_of_pos hscheme]
    rfl
  unfold pathPart
  rw [hrest, h.afterAuthority_eq, List.takeWhile_append_of_pos, htail, List.append_nil]
  intro c hc
  simp [h.path c hc]

end Parts.Standard

/-! ### The parts of a URL -/

/-- The parts a URL is written from. -/
def parts (u : Url) : Parts where
  scheme := u.scheme
  authority := u.authorityText
  path := u.pathGuard ++ u.pathText
  tail := markedText '?' u.query ++ markedText '#' u.fragment

theorem text_parts (u : Url) : u.parts.text = u.text := by
  simp [parts, Parts.text, text, List.append_assoc]

/-- The parts of a URL before its query are without the marks that end them. -/
structure PlainParts (u : Url) : Prop where
  scheme : ':' ∉ u.scheme
  username : Plain u.username
  password : ∀ word ∈ u.password, Plain word
  host : ∀ host ∈ u.host, Plain host
  path : ∀ segments, u.path = .segments segments → ∀ s ∈ segments, Plain s

namespace PlainParts

variable {u : Url}

theorem userinfoText (h : u.PlainParts) : Plain u.userinfoText := by
  have hat : endsAuthority .other '@' = false := by decide
  unfold Url.userinfoText
  split
  · exact plain_nil
  · simp [h.username, hat]
  · next password hpassword =>
    have hplain := h.password password hpassword
    simp [h.username, hplain, hat]

theorem authorityText (h : u.PlainParts) :
    u.authorityText = [] ∨ ∃ name, u.authorityText = '/' :: '/' :: name ∧ Plain name := by
  unfold Url.authorityText
  split
  · split
    · exact .inr ⟨[], rfl, plain_nil⟩
    · exact .inl rfl
  · next host hhost =>
    refine .inr ⟨u.userinfoText ++ host ++ _, rfl, ?_⟩
    rw [plain_append, plain_append]
    refine ⟨⟨h.userinfoText, h.host host hhost⟩, ?_⟩
    split
    · simp [plain_toDigits]
    · exact plain_nil

end PlainParts

section Paths

variable {u : Url} {segments : List (List Char)}

theorem pathText_segments (hpath : u.path = .segments segments) :
    u.pathText = segments.flatMap fun s => '/' :: s := by
  unfold pathText
  rw [hpath]

theorem pathGuard_eq_nil_or (u : Url) : u.pathGuard = [] ∨ u.pathGuard = ['/', '.'] := by
  unfold pathGuard
  split
  · exact .inr rfl
  · exact .inl rfl

/-- The guard keeps an empty first segment from being read as the start of an authority. -/
theorem not_slashes_path (hpath : u.path = .segments segments)
    (hplain : ∀ s ∈ segments, Plain s) (hauthority : u.authorityText = []) :
    ¬ ['/', '/'] <+: u.pathGuard ++ u.pathText := by
  rw [pathText_segments hpath]
  unfold pathGuard
  rw [hauthority, hpath]
  cases segments with
  | nil => decide
  | cons segment rest =>
    cases segment with
    | nil =>
      cases rest with
      | nil => decide
      | cons _ _ => simp
    | cons c segment =>
      have hsegment := hplain (c :: segment) List.mem_cons_self
      have hslash := hsegment.ne_slash c List.mem_cons_self
      simp [hslash.symm]

theorem rooted_path (hpath : u.path = .segments segments) :
    ∀ c ∈ (u.pathGuard ++ u.pathText).head?, c = '/' := by
  rw [pathText_segments hpath]
  obtain hguard | hguard := pathGuard_eq_nil_or u
  · rw [hguard]
    cases segments with
    | nil => simp
    | cons segment rest => simp
  · simp [hguard]

theorem endsPath_path (hpath : u.path = .segments segments) (hplain : ∀ s ∈ segments, Plain s) :
    ∀ c ∈ u.pathGuard ++ u.pathText, endsPath c = false := by
  intro c hc
  rw [pathText_segments hpath] at hc
  obtain hc | hc := List.mem_append.1 hc
  · obtain hguard | hguard := pathGuard_eq_nil_or u
    · rw [hguard] at hc
      cases hc
    · have hmarks : ∀ c ∈ ['/', '.'], endsPath c = false := by simp [endsPath]
      rw [hguard] at hc
      exact hmarks c hc
  · obtain ⟨segment, hsegment, hc⟩ := List.mem_flatMap.1 hc
    obtain rfl | hc := List.mem_cons.1 hc
    · decide
    · exact (hplain segment hsegment).endsPath_eq c hc

theorem endsPath_tail (query fragment : Option (List Char)) :
    ∀ c ∈ (markedText '?' query ++ markedText '#' fragment).head?, endsPath c = true := by
  intro c hc
  cases query with
  | some query =>
    cases hc
    rfl
  | none =>
    cases fragment with
    | some fragment =>
      cases hc
      rfl
    | none => cases hc

end Paths

/-- A URL with a place for a path is written in the standard form. -/
theorem PlainParts.standard {u : Url} (h : u.PlainParts) (hplace : u.isUndivided = false) :
    u.parts.Standard := by
  cases hpath : u.path with
  | undivided text => simp [isUndivided, hpath] at hplace
  | segments segments =>
    have hplain := h.path segments hpath
    exact {
      scheme := h.scheme
      authority := h.authorityText
      apart := not_slashes_path hpath hplain
      rooted := rooted_path hpath
      path := endsPath_path hpath hplain
      tail := endsPath_tail u.query u.fragment }

/-! ### URLs that are read -/

theorem PlainParts.readTail {u : Url} (h : u.PlainParts) (kind : SchemeKind) (tail : List Char) :
    (readTail kind u tail).PlainParts :=
  ⟨h.scheme, h.username, h.password, h.host, h.path⟩

theorem plain_readHost [NameReader] {scheme text host rest : List Char} {kind : SchemeKind}
    {port : Option Nat} (h : readHost scheme kind text = .ok (host, port, rest)) :
    Plain host := by
  unfold readHost at h
  extract_lets length after proceed at h
  -- reading the port keeps the host
  have hport : ∀ read, proceed read = .ok (host, port, rest) → read = host := by
    intro read hread
    simp only [proceed] at hread
    clear_value after
    split at hread
    · split at hread
      · cases hread
      · obtain ⟨_, _, hread⟩ := exists_of_bind_eq_ok hread
        cases hread
        rfl
    · cases hread
      rfl
  split at h
  · split at h
    · cases h
    · obtain ⟨read, hread, h⟩ := exists_of_bind_eq_ok h
      exact hport read h ▸ plain_readWebHost hread
  · obtain ⟨read, hread, h⟩ := exists_of_bind_eq_ok h
    exact hport read h ▸ plain_readOtherHost hread

theorem segments_readPath {kind : SchemeKind} {path : List Char}
    {segments : List (List Char)} (h : readPath kind path = .segments segments) :
    ∀ s ∈ segments, Plain s := by
  unfold readPath at h
  split at h
  · cases h
    simp
  all_goals
    cases h
    exact plain_readSegments _ _

theorem plainParts_readAuthority [NameReader] {scheme text : List Char} {kind : SchemeKind}
    {u : Url} (hscheme : ':' ∉ scheme) (h : readAuthority scheme kind text = .ok u) :
    u.PlainParts := by
  obtain ⟨⟨username, password, rest⟩, huserinfo, h⟩ := exists_of_bind_eq_ok h
  obtain ⟨⟨host, port, rest⟩, hhost, h⟩ := exists_of_bind_eq_ok h
  have hplain := plain_readUserinfo huserinfo
  dsimp only at h
  split at h
  · cases h
  · cases h
    refine PlainParts.readTail ⟨hscheme, hplain.1, hplain.2, ?_, ?_⟩ kind _
    · intro read hread
      cases hread
      exact plain_readHost hhost
    · intro segments hsegments
      exact segments_readPath hsegments

/-- A URL without a host has only a scheme and a path. -/
theorem plainParts_ofScheme {scheme : List Char} (hscheme : ':' ∉ scheme) {path : UrlPath}
    (hpath : ∀ segments, path = .segments segments → ∀ s ∈ segments, Plain s) :
    { ofScheme scheme with path }.PlainParts :=
  ⟨hscheme, plain_nil, by simp [ofScheme], by simp [ofScheme], hpath⟩

theorem plainParts_readSegments {scheme : List Char} (hscheme : ':' ∉ scheme)
    (kind : SchemeKind) (text tail : List Char) :
    (readTail kind
      { ofScheme scheme with path := .segments (readSegments kind text) } tail).PlainParts := by
  apply PlainParts.readTail
  apply plainParts_ofScheme hscheme
  intro segments hsegments
  cases hsegments
  exact plain_readSegments kind text

theorem plainParts_readWeb [NameReader] {scheme text : List Char} {u : Url} (hscheme : ':' ∉ scheme)
    (h : readWeb scheme text = .ok u) : u.PlainParts :=
  plainParts_readAuthority hscheme h

theorem plainParts_readOther [NameReader] {scheme text : List Char} {u : Url}
    (hscheme : ':' ∉ scheme) (h : readOther scheme text = .ok u) : u.PlainParts := by
  unfold readOther at h
  extract_lets isPathChar tail at h
  split at h
  · exact plainParts_readAuthority hscheme h
  · cases h
    exact plainParts_readSegments hscheme .other _ tail
  · cases h
    apply PlainParts.readTail
    apply plainParts_ofScheme hscheme
    intro segments hsegments
    cases hsegments

theorem plainParts_readFile [NameReader] {scheme text : List Char} {u : Url}
    (hscheme : ':' ∉ scheme) (h : readFile scheme text = .ok u) : u.PlainParts := by
  unfold readFile at h
  extract_lets isSlash isPathChar tail bare withoutHost at h
  have hwithout : ∀ path, (withoutHost path).PlainParts :=
    fun path => plainParts_readSegments hscheme .file path tail
  split at h
  · split at h
    · -- After two slashes there is a host, unless it is a drive, empty, or the own machine.
      extract_lets name path at h
      split at h
      · cases h
        exact hwithout _
      · split at h
        · cases h
          exact hwithout _
        · obtain ⟨host, hhost, h⟩ := exists_of_bind_eq_ok h
          split at h
          · cases h
            exact hwithout _
          · cases h
            refine PlainParts.readTail ⟨hscheme, plain_nil, ?_, ?_, ?_⟩ .file _
            · simp [bare, ofScheme]
            · intro read hread
              cases hread
              exact plain_readWebHost hhost
            · intro segments hsegments
              cases hsegments
              exact plain_readSegments .file _
    · split at h
      · cases h
        exact hwithout _
      · cases h
        exact hwithout _
  · cases h
    exact hwithout _
  · cases h
    exact hwithout _

theorem plainParts_ofText [NameReader] {text : String} {u : Url} (h : ofText text = .ok u) :
    u.PlainParts := by
  obtain ⟨⟨scheme, rest⟩, hread, h⟩ := exists_of_bind_eq_ok h
  have hscheme := colon_not_mem_readScheme hread
  dsimp only at h
  split at h
  · exact plainParts_readWeb hscheme h
  · exact plainParts_readFile hscheme h
  · exact plainParts_readOther hscheme h

/-- A URL that was read and has a place for a path is written in the standard form. -/
theorem standard_of_ofText [NameReader] {text : String} {u : Url} (h : ofText text = .ok u)
    (hplace : u.isUndivided = false) : u.parts.Standard :=
  (plainParts_ofText h).standard hplace

end SeriesBroker.Url
