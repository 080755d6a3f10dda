import SeriesBroker.Proofs.Url.Standard
import SeriesBroker.Store.Client

/-! # The place of an endpoint

    The URL of an endpoint is made from the text of the base URL: slashes at its end go, and a
    slash and the name of the endpoint follow. Where the text ends with the path, the endpoint is
    below this path, also where the path is all slashes and those before an empty authority go as
    well. Where a query or a fragment follows the path, the name becomes a part of these, and the
    path stays the one of the base URL.

    Key idea: the text of the endpoint is again in the standard form, and its parts are those of
    the base URL with the name below the path or the tail (`Parts.under`). So its path is read off
    from the parts (`Parts.Standard.pathPart_below`).
-/

namespace SeriesBroker.Url

/-! ### Slashes at the end of a text -/

/-- A text without the slashes at its end. -/
def unslashed (text : List Char) : List Char := Text.dropEnd (· == '/') text

/-- The text of a name below a text. -/
def below (text name : List Char) : List Char := unslashed text ++ '/' :: name

theorem unslashed_append (front back : List Char) :
    unslashed (front ++ back) =
      if unslashed back = [] then unslashed front else front ++ unslashed back := by
  simp only [unslashed, Text.dropEnd, List.reverse_append, List.dropWhile_append,
    List.reverse_eq_nil_iff, List.isEmpty_iff]
  split
  · rfl
  · rw [List.reverse_append, List.reverse_reverse]

theorem unslashed_cons {c : Char} (hc : c ≠ '/') (text : List Char) :
    unslashed (c :: text) = c :: unslashed text := by
  have hsingle : unslashed [c] = [c] := by simp [unslashed, Text.dropEnd, hc]
  rw [← List.singleton_append, unslashed_append, hsingle]
  split
  · next htext => rw [htext]
  · rfl

/-- Nothing goes of what comes before a character that is no slash. -/
theorem unslashed_append_cons {c : Char} (hc : c ≠ '/') (front back : List Char) :
    unslashed (front ++ c :: back) = front ++ c :: unslashed back := by
  rw [unslashed_append, unslashed_cons hc, if_neg (List.cons_ne_nil c _)]

theorem unslashed_isPrefix (text : List Char) : unslashed text <+: text := by
  rw [← List.reverse_suffix, unslashed, Text.dropEnd, List.reverse_reverse]
  exact List.dropWhile_suffix _

theorem unslashed_ne_slash (text : List Char) : unslashed text ≠ ['/'] := by
  intro h
  have hfirst : text.reverse.dropWhile (· == '/') = ['/'] := by
    simpa [unslashed, Text.dropEnd] using h
  have hhead := List.head?_dropWhile_not (· == '/') text.reverse
  rw [hfirst] at hhead
  cases hhead

theorem Plain.unslashed_eq {text : List Char} (h : Plain text) : unslashed text = text := by
  induction text with
  | nil => rfl
  | cons c text ih =>
    rw [unslashed_cons (h.ne_slash c List.mem_cons_self), ih (plain_cons.1 h).2]

theorem head?_below {text : List Char} (h : unslashed text ≠ []) (name : List Char) :
    (below text name).head? = text.head? := by
  obtain ⟨rest, hrest⟩ := unslashed_isPrefix text
  obtain ⟨c, kept, hkept⟩ := List.exists_cons_of_ne_nil h
  rw [hkept] at hrest
  rw [below, hkept, ← hrest]
  rfl

/-! ### Names below the text of a URL -/

theorem not_slashes_of_plain {name : List Char} (h : Plain name) :
    ¬ ['/', '/'] <+: '/' :: name := by
  cases name with
  | nil => decide
  | cons c name =>
    have hc := h.ne_slash c List.mem_cons_self
    simp [hc.symm]

/-- A path that is not read as an authority gets no name below it that makes it one. -/
theorem not_slashes_below {path name : List Char} (hpath : ¬ ['/', '/'] <+: path)
    (hroot : ∀ c ∈ path.head?, c = '/') (hname : Plain name) :
    ¬ ['/', '/'] <+: below path name := by
  have hkept := unslashed_isPrefix path
  unfold below
  cases hdrop : unslashed path with
  | nil => exact not_slashes_of_plain hname
  | cons c kept =>
    rw [hdrop] at hkept
    cases kept with
    | nil =>
      -- the only character that is kept would be the slash at the front
      obtain ⟨rest, hrest⟩ := hkept
      have hc : c = '/' := hroot c (by rw [← hrest]; rfl)
      rw [hc] at hdrop
      exact absurd hdrop (unslashed_ne_slash path)
    | cons d kept =>
      intro hslashes
      apply hpath
      have htwo : '/' = c ∧ '/' = d := by simpa using hslashes
      have hfront : ['/', '/'] = [c, d] := by rw [← htwo.1, ← htwo.2]
      rw [hfront]
      exact (List.prefix_append [c, d] kept).trans hkept

namespace Parts

variable {p : Parts} {name : List Char}

/-- The parts of the text of a name below the text of some parts. Where no tail follows, the name
    is below the path, and an authority without a name goes with a path that is all slashes. -/
def under (p : Parts) (name : List Char) : Parts :=
  if p.tail = [] then
    { p with
      authority := if unslashed p.path = [] then unslashed p.authority else p.authority
      path := below p.path name }
  else { p with tail := below p.tail name }

/-- An authority that has a name stays, and of one without a name nothing does. -/
theorem Standard.unslashed_authority (h : p.Standard) :
    unslashed p.authority = [] ∨ unslashed p.authority = p.authority := by
  obtain hnone | ⟨host, hhost, hplain⟩ := h.authority
  · exact .inl (by rw [hnone]; rfl)
  · rw [hhost]
    cases host with
    | nil => exact .inl rfl
    | cons c host =>
      have hc := hplain.ne_slash c List.mem_cons_self
      have hrest := (plain_cons.1 hplain).2.unslashed_eq
      refine .inr ?_
      show unslashed (['/', '/'] ++ c :: host) = ['/', '/'] ++ c :: host
      rw [unslashed_append_cons hc, hrest]

/-- A tail stays, up to slashes at its end, since it begins with its mark. -/
theorem Standard.unslashed_tail (h : p.Standard) (htail : p.tail ≠ []) : unslashed p.tail ≠ [] := by
  obtain ⟨c, tail, hc⟩ := List.exists_cons_of_ne_nil htail
  have hslash : c ≠ '/' := by
    intro hslash
    apply h.slash_not_mem_tail
    rw [hc, hslash]
    rfl
  rw [hc, unslashed_cons hslash]
  exact List.cons_ne_nil c _

theorem Standard.text_under (h : p.Standard) : (p.under name).text = below p.text name := by
  have hcolon : ':' ≠ '/' := by decide
  unfold below Parts.text
  rw [unslashed_append_cons hcolon, unslashed_append]
  by_cases htail : p.tail = []
  · -- the slashes before a path that is all slashes are those of an authority without a name
    rw [under, if_pos htail, htail, List.append_nil]
    by_cases hpath : unslashed p.path = []
    · simp [below, hpath]
    · simp [below, hpath]
  · have hkept := h.unslashed_tail htail
    have hrest : unslashed (p.path ++ p.tail) = p.path ++ unslashed p.tail := by
      rw [unslashed_append, if_neg hkept]
    have hne : p.path ++ unslashed p.tail ≠ [] :=
      fun hnil => hkept (List.append_eq_nil_iff.1 hnil).2
    rw [under, if_neg htail, hrest, if_neg hne]
    simp [below]

theorem Standard.authority_under (h : p.Standard) (htail : p.tail = []) (name : List Char) :
    (p.under name).authority = [] ∨
      ∃ host, (p.under name).authority = '/' :: '/' :: host ∧ Plain host := by
  rw [Parts.under, if_pos htail]
  dsimp only
  split
  · obtain hnone | hsame := h.unslashed_authority
    · exact .inl hnone
    · rw [hsame]
      exact h.authority
  · exact h.authority

theorem Standard.rooted_below (h : p.Standard) : ∀ c ∈ (below p.path name).head?, c = '/' := by
  by_cases hpath : unslashed p.path = []
  · simp [below, hpath]
  · rw [head?_below hpath]
    exact h.rooted

theorem Standard.path_below (h : p.Standard) (hname : Plain name) :
    ∀ c ∈ below p.path name, endsPath c = false := by
  intro c hc
  obtain hc | hc := List.mem_append.1 hc
  · exact h.path c ((unslashed_isPrefix p.path).subset hc)
  · obtain rfl | hc := List.mem_cons.1 hc
    · decide
    · exact hname.endsPath_eq c hc

/-- The text of a name below a text in the standard form is in the standard form again. -/
theorem Standard.under (h : p.Standard) (hname : Plain name) : (p.under name).Standard := by
  by_cases htail : p.tail = []
  · have hauthority := h.authority_under htail name
    rw [Parts.under, if_pos htail] at hauthority ⊢
    refine { h with
      authority := hauthority
      apart := ?_
      rooted := h.rooted_below
      path := h.path_below hname }
    intro hnone
    by_cases hpath : unslashed p.path = []
    · show ¬ ['/', '/'] <+: unslashed p.path ++ '/' :: name
      rw [hpath]
      exact not_slashes_of_plain hname
    · have hsame : p.authority = [] := by simpa [hpath] using hnone
      exact not_slashes_below (h.apart hsame) h.rooted hname
  · rw [Parts.under, if_neg htail]
    refine { h with tail := ?_ }
    show ∀ c ∈ (below p.tail name).head?, endsPath c = true
    rw [head?_below (h.unslashed_tail htail)]
    exact h.tail

theorem path_under (p : Parts) (name : List Char) :
    (p.under name).path = if p.tail = [] then below p.path name else p.path := by
  unfold Parts.under
  split
  · rfl
  · rfl

/-- The path in the text of a name below a text. -/
theorem Standard.pathPart_below (h : p.Standard) (hname : Plain name) :
    pathPart (below p.text name) = if p.tail = [] then below p.path name else p.path := by
  rw [← h.text_under, (h.under hname).pathPart_text, path_under]

end Parts

/-- A text is never its own name below it. -/
theorem below_ne {name : List Char} (hname : Plain name) (hne : name ≠ []) (text : List Char) :
    below text name ≠ text := by
  obtain ⟨c, rest, rfl⟩ := List.exists_cons_of_ne_nil hne
  intro heq
  -- the name has no slash, so nothing goes at the end of a text that ends with it
  have hkept : unslashed (below text (c :: rest)) = below text (c :: rest) := by
    have hc := hname.ne_slash c List.mem_cons_self
    have hrest := (plain_cons.1 hname).2.unslashed_eq
    have hfront : below text (c :: rest) = (unslashed text ++ ['/']) ++ c :: rest := by
      simp [below]
    rw [hfront, unslashed_append_cons hc, hrest]
  rw [heq] at hkept
  have hlonger : text ++ '/' :: c :: rest = text := by
    rw [below, hkept] at heq
    exact heq
  simp at hlonger

end SeriesBroker.Url

namespace SeriesBroker.Client

open Url

/-! ### Endpoints -/

theorem toList_endpoint (c : Client) (name : String) :
    (c.endpoint name).toList = below c.base.text name.toList := by
  rw [endpoint, String.toList_ofList]
  rfl

/-- The base URL of a client is written in the standard form. -/
theorem standard_base [NameReader] {settings : StoreSettings} {c : Client}
    (h : ofSettings settings = .ok c) : c.base.parts.Standard := by
  unfold ofSettings at h
  split at h
  · cases h
  · next base hbase =>
    split at h
    · cases h
    · next hplace =>
      cases h
      exact standard_of_ofText hbase (by simpa using hplace)

theorem tail_parts_eq_nil_iff (u : Url) :
    u.parts.tail = [] ↔ u.query = none ∧ u.fragment = none := by
  cases hquery : u.query <;> cases hfragment : u.fragment <;>
    simp [parts, markedText, hquery, hfragment]

/-- The path of an endpoint is the path of the base URL without the slashes at its end, a slash
    and the name of the endpoint, exactly if the base URL has neither a query nor a fragment. If
    it has one of them, the path of the endpoint is just the path of the base URL. -/
theorem path_endpoint_iff [NameReader] {settings : StoreSettings} {c : Client}
    (h : ofSettings settings = .ok c) {name : String} (hname : name = "query" ∨ name = "ping") :
    pathPart c.base.text = c.base.pathGuard ++ c.base.pathText ∧
    (pathPart (c.endpoint name).toList =
        Text.dropEnd (· == '/') (pathPart c.base.text) ++ '/' :: name.toList ↔
      c.base.query = none ∧ c.base.fragment = none) ∧
    (¬ (c.base.query = none ∧ c.base.fragment = none) →
      pathPart (c.endpoint name).toList = pathPart c.base.text) := by
  have hstandard := standard_base h
  have hplain : Plain name.toList := by
    obtain rfl | rfl := hname
    · simp [Plain, endsAuthority]
    · simp [Plain, endsAuthority]
  have hne : name.toList ≠ [] := by
    obtain rfl | rfl := hname
    · decide
    · decide
  have hbase : pathPart c.base.text = c.base.parts.path := by
    rw [← text_parts, hstandard.pathPart_text]
  have hendpoint := hstandard.pathPart_below hplain
  rw [text_parts, ← toList_endpoint, ← hbase] at hendpoint
  rw [← tail_parts_eq_nil_iff]
  refine ⟨hbase, ?_, ?_⟩
  · constructor
    · intro hbelow
      by_contra htail
      rw [if_neg htail] at hendpoint
      exact below_ne hplain hne _ (hbelow.symm.trans hendpoint)
    · intro htail
      rw [hendpoint, if_pos htail]
      rfl
  · intro htail
    rw [hendpoint, if_neg htail]

/-- The client of a URL as it is read. -/
theorem ofSettings_of_ofText [NameReader] {settings : StoreSettings} {base : Url}
    (h : Url.ofText settings.url = .ok base) (hplace : base.isUndivided = false) :
    ofSettings settings = .ok ⟨settings, base⟩ := by
  unfold ofSettings
  rw [h]
  dsimp only
  rw [hplace]
  rfl

/-- The endpoints of a base URL with several slashes at its end. -/
theorem path_endpoint_iff_slashes :
    let settings := { StoreSettings.standard with url := "http://127.0.0.1:1/base//" }
    ∃ c, ofSettings settings = .ok c ∧
      pathPart (c.endpoint "query").toList = "/base/query".toList ∧
      pathPart (c.endpoint "ping").toList = "/base/ping".toList := by
  intro settings
  have hread : Url.ofText settings.url = .ok
      ⟨"http".toList, [], none, some "127.0.0.1".toList, some 1,
        .segments ["base".toList, [], []], none, none⟩ := by
    decide +kernel
  have h := ofSettings_of_ofText hread rfl
  have hquery := (path_endpoint_iff h (.inl rfl)).2.1.2 ⟨rfl, rfl⟩
  have hping := (path_endpoint_iff h (.inr rfl)).2.1.2 ⟨rfl, rfl⟩
  exact ⟨_, h, hquery.trans (by decide +kernel), hping.trans (by decide +kernel)⟩

/-- The endpoint of a base URL with a query has the path of the base URL, and its name in the
    query. -/
theorem path_endpoint_query :
    let settings := { StoreSettings.standard with url := "http://127.0.0.1:1/base?k=v" }
    ∃ c, ofSettings settings = .ok c ∧
      c.endpoint "query" = "http://127.0.0.1:1/base?k=v/query" ∧
      (Url.ofText (c.endpoint "query")).map (fun u => (u.pathText, u.query)) =
        .ok ("/base".toList, some "k=v/query".toList) ∧
      pathPart (c.endpoint "query").toList ≠
        Text.dropEnd (· == '/') (pathPart c.base.text) ++ '/' :: "query".toList := by
  intro settings
  have hread : Url.ofText settings.url = .ok
      ⟨"http".toList, [], none, some "127.0.0.1".toList, some 1,
        .segments ["base".toList], some "k=v".toList, none⟩ := by
    decide +kernel
  have h := ofSettings_of_ofText hread rfl
  exact ⟨_, h, by decide +kernel, by decide +kernel, by decide +kernel⟩

end SeriesBroker.Client
