import SeriesBroker.Config.Override
import SeriesBroker.Proofs.Request.Grammar

/-! # What overriding does to each setting

    Each setting has texts of its own names that may override it, and no other text touches it.
    A setting that is a text is replaced, a number is replaced if its text is one that fits, and
    the level of the log gives way to debugging (`Overridden`). This says all about the new
    settings, so overriding with the same texts again changes nothing
    (`override_idempotent_and_separate`).
-/

namespace SeriesBroker

/-! ### The rules -/

/-- A number is written with digits and maybe a plus sign before them. -/
inductive NumberText : String → ℕ → Prop where
  | plain {text : String} (h : Digits text.toList) :
    NumberText text (Nat.ofDigitChars 10 text.toList 0)
  | plus {text : String} (h : Digits text.toList) :
    NumberText ("+" ++ text) (Nat.ofDigitChars 10 text.toList 0)

/-- A text that is given replaces the old value. -/
inductive Replaced {α : Type} : Option α → α → α → Prop where
  | given (a old : α) : Replaced (some a) old a
  | kept (old : α) : Replaced none old old

/-- A number below the bound replaces the old one. Any other text is left out of account. -/
inductive Renumbered (bound : ℕ) : Option String → ℕ → ℕ → Prop where
  | given {text : String} {n : ℕ} (h : NumberText text n) (hn : n < bound) (old : ℕ) :
    Renumbered bound (some text) old n
  | invalid {text : String} (h : ∀ n, NumberText text n → bound ≤ n) (old : ℕ) :
    Renumbered bound (some text) old old
  | kept (old : ℕ) : Renumbered bound none old old

/-- Debugging sets the level whatever else is given. -/
inductive Leveled : Option String → Option String → String → String → Prop where
  | debugging {debug : String} (h : debug = "1" ∨ debug = "true" ∨ debug = "yes")
      (level : Option String) (old : String) : Leveled (some debug) level old "debug"
  | given {debug level : Option String} {old new : String}
      (hdebug : debug ≠ some "1" ∧ debug ≠ some "true" ∧ debug ≠ some "yes")
      (h : Replaced level old new) : Leveled debug level old new

/-- What becomes of each setting. -/
structure Overridden (texts : Lookups) (old new : Config) : Prop where
  host : Replaced (texts "API_HOST") old.api.host new.api.host
  port : Renumbered UInt16.size (texts "API_PORT") old.api.port.toNat new.api.port.toNat
  selector : Replaced (texts "USER_HEADER") old.api.selector new.api.selector
  maxBodySize : new.api.maxBodySize = old.api.maxBodySize
  url : Replaced (texts "INFLUX_URL") old.store.url new.store.url
  username : Replaced ((texts "INFLUX_USER").map some) old.store.username new.store.username
  password : Replaced ((texts "INFLUX_PASSWORD").map some) old.store.password new.store.password
  timeout : Renumbered UInt64.size (texts "INFLUX_TIMEOUT_MS") old.store.timeout.toNat
    new.store.timeout.toNat
  level : Leveled (texts "DEBUG") (texts "LOG_LEVEL") old.log.level new.log.level
  form : Replaced (texts "LOG_FORMAT") old.log.form new.log.form

/-! ### The names of each setting -/

/-- The settings one by one. -/
inductive Setting where
  | host
  | port
  | selector
  | maxBodySize
  | url
  | username
  | password
  | timeout
  | level
  | form

def Setting.Value : Setting → Type
  | .port => UInt16
  | .maxBodySize | .timeout => UInt64
  | .username | .password => Option String
  | _ => String

def Setting.value : (s : Setting) → Config → s.Value
  | .host, c => c.api.host
  | .port, c => c.api.port
  | .selector, c => c.api.selector
  | .maxBodySize, c => c.api.maxBodySize
  | .url, c => c.store.url
  | .username, c => c.store.username
  | .password, c => c.store.password
  | .timeout, c => c.store.timeout
  | .level, c => c.log.level
  | .form, c => c.log.form

/-- The names of the texts that a setting depends on. -/
def Setting.names : Setting → List String
  | .host => ["API_HOST"]
  | .port => ["API_PORT"]
  | .selector => ["USER_HEADER"]
  | .maxBodySize => []
  | .url => ["INFLUX_URL"]
  | .username => ["INFLUX_USER"]
  | .password => ["INFLUX_PASSWORD"]
  | .timeout => ["INFLUX_TIMEOUT_MS"]
  | .level => ["LOG_LEVEL", "DEBUG"]
  | .form => ["LOG_FORMAT"]

/-! ### Numbers -/

/-- Digits are read if there are any, and nothing else is. -/
theorem unsignedDigits_eq_some_iff {digits : List Char} {n : ℕ} :
    (if digits.isEmpty || !digits.all Char.isDigit then none
      else some (Nat.ofDigitChars 10 digits 0)) = some n ↔
      Digits digits ∧ Nat.ofDigitChars 10 digits 0 = n := by
  by_cases h : Digits digits
  · have hdigits := digits_iff.1 h
    have hread : ¬ (digits.isEmpty || !digits.all Char.isDigit) = true := by
      simpa using hdigits
    rw [if_neg hread, Option.some.injEq]
    exact (and_iff_right h).symm
  · have hread : (digits.isEmpty || !digits.all Char.isDigit) = true := by
      rw [digits_iff, not_and_or] at h
      simpa [Classical.or_iff_not_imp_left] using h
    rw [if_pos hread]
    exact iff_of_false (by simp) fun hboth => h hboth.1

/-- A plus sign is passed over. -/
theorem numberText_plus_iff {rest : String} {n : ℕ} :
    NumberText ("+" ++ rest) n ↔ Digits rest.toList ∧ Nat.ofDigitChars 10 rest.toList 0 = n := by
  constructor
  · intro h
    generalize htext : "+" ++ rest = text at h
    cases h with
    | plain h =>
      -- The sign itself is no digit.
      rw [← htext] at h
      exact absurd (h.decimal '+' (by simp)) (by decide)
    | plus h =>
      obtain rfl := (String.append_right_inj _).1 htext
      exact ⟨h, rfl⟩
  · intro h
    obtain ⟨h, rfl⟩ := h
    exact .plus h

theorem numberText_iff {text : String} (hplus : ∀ rest, text ≠ "+" ++ rest) {n : ℕ} :
    NumberText text n ↔ Digits text.toList ∧ Nat.ofDigitChars 10 text.toList 0 = n := by
  constructor
  · intro h
    cases h with
    | plain h => exact ⟨h, rfl⟩
    | plus h => exact absurd rfl (hplus _)
  · intro h
    obtain ⟨h, rfl⟩ := h
    exact .plain h

theorem unsigned?_eq_some_iff {text : String} {n : ℕ} :
    Text.unsigned? text = some n ↔ NumberText text n := by
  by_cases hplus : ∃ rest, text = "+" ++ rest
  · obtain ⟨rest, rfl⟩ := hplus
    rw [numberText_plus_iff, ← unsignedDigits_eq_some_iff, Text.unsigned?]
    simp
  · rw [not_exists] at hplus
    rw [numberText_iff hplus, ← unsignedDigits_eq_some_iff, Text.unsigned?]
    split
    · next rest htext =>
      refine absurd (String.toList_injective ?_) (hplus (String.ofList rest))
      rw [htext]
      simp
    · rfl

theorem unsignedBelow?_eq_some_iff {bound : ℕ} {text : String} {n : ℕ} :
    Text.unsignedBelow? bound text = some n ↔ NumberText text n ∧ n < bound := by
  rw [Text.unsignedBelow?, Option.filter_eq_some_iff, unsigned?_eq_some_iff, decide_eq_true_iff]

/-! ### Each rule has one outcome -/

theorem replaced_iff {α : Type} {given : Option α} {old new : α} :
    Replaced given old new ↔ new = given.getD old := by
  constructor
  · intro h
    cases h with
    | given => rfl
    | kept => rfl
  · intro h
    subst h
    cases given with
    | none => exact .kept old
    | some a => exact .given a old

section numbers

variable {α : Type} {bound : ℕ} {toNat : α → ℕ} {ofNat : ℕ → α} (hlt : ∀ a, toNat a < bound)
  (hof : ∀ a, ofNat (toNat a) = a) (hto : ∀ {n}, n < bound → toNat (ofNat n) = n)

include hlt hof hto

/-- A type that counts up to a bound has the numbers below it. -/
theorem map_unsignedBelow?_eq_some_iff {text : String} {a : α} :
    (Text.unsignedBelow? bound text).map ofNat = some a ↔ NumberText text (toNat a) := by
  rw [Option.map_eq_some_iff]
  constructor
  · intro h
    obtain ⟨n, hn, rfl⟩ := h
    obtain ⟨htext, hbound⟩ := unsignedBelow?_eq_some_iff.1 hn
    rwa [hto hbound]
  · intro h
    exact ⟨toNat a, unsignedBelow?_eq_some_iff.2 ⟨h, hlt a⟩, hof a⟩

theorem renumbered_iff {given : Option String} {old new : α} :
    Renumbered bound given (toNat old) (toNat new) ↔
      new = (given.bind fun text => (Text.unsignedBelow? bound text).map ofNat).getD old := by
  have hread : ∀ text a, (Text.unsignedBelow? bound text).map ofNat = some a ↔
      NumberText text (toNat a) :=
    fun _ _ => map_unsignedBelow?_eq_some_iff hlt hof hto
  have hinjective : ∀ a b, toNat a = toNat b → a = b := by
    intro a b h
    rw [← hof a, h, hof b]
  constructor
  · intro h
    -- The rule is about numbers, so the old and the new one are named before it is taken apart.
    generalize hold : toNat old = oldNumber at h
    generalize hnew : toNat new = newNumber at h
    cases h with
    | @given text _ htext hn _ =>
      rw [← hnew, ← hread] at htext
      show new = ((Text.unsignedBelow? bound text).map ofNat).getD old
      rw [htext]
      rfl
    | @invalid text htext _ =>
      have hnone : (Text.unsignedBelow? bound text).map ofNat = none := by
        rw [Option.eq_none_iff_forall_ne_some]
        intro a ha
        exact absurd (htext _ ((hread text a).1 ha)) (hlt a).not_ge
      show new = ((Text.unsignedBelow? bound text).map ofNat).getD old
      rw [hnone]
      exact hinjective _ _ (hnew.trans hold.symm)
    | kept => exact hinjective _ _ (hnew.trans hold.symm)
  · intro h
    subst h
    cases given with
    | none => exact .kept _
    | some text =>
      show Renumbered bound (some text) (toNat old)
        (toNat (((Text.unsignedBelow? bound text).map ofNat).getD old))
      cases htext : (Text.unsignedBelow? bound text).map ofNat with
      | some a => exact .given ((hread text a).1 htext) (hlt a) _
      | none =>
        -- A number below the bound would have been read.
        refine .invalid ?_ _
        intro n hn
        by_contra hbelow
        have hn' := hto (not_le.1 hbelow)
        rw [(hread text (ofNat n)).2 (by rwa [hn'])] at htext
        cases htext

end numbers

theorem renumbered_port {given : Option String} {old new : UInt16} :
    Renumbered UInt16.size given old.toNat new.toNat ↔ new = (given.bind portOf?).getD old :=
  renumbered_iff UInt16.toNat_lt_size (fun _ => UInt16.ofNat_toNat) UInt16.toNat_ofNat_of_lt'

theorem renumbered_timeout {given : Option String} {old new : UInt64} :
    Renumbered UInt64.size given old.toNat new.toNat ↔
      new = (given.bind timeoutOf?).getD old :=
  renumbered_iff UInt64.toNat_lt_size (fun _ => UInt64.ofNat_toNat) UInt64.toNat_ofNat_of_lt'

theorem leveled_iff {debug level : Option String} {old new : String} :
    Leveled debug level old new ↔
      new = if debug.any affirmations.contains then "debug" else level.getD old := by
  have hdebug : debug.any affirmations.contains = true ↔
      debug = some "1" ∨ debug = some "true" ∨ debug = some "yes" := by
    cases debug with
    | none => simp
    | some debug => simp [affirmations]
  constructor
  · intro h
    cases h with
    | debugging h =>
      rw [if_pos (hdebug.2 (by simpa using h))]
    | given hnone h =>
      have hfalse : ¬ debug.any affirmations.contains = true := by
        rw [hdebug, not_or, not_or]
        exact hnone
      rw [if_neg hfalse]
      exact replaced_iff.1 h
  · intro h
    subst h
    split
    · next haffirmed =>
      cases debug with
      | none => cases haffirmed
      | some debug => exact .debugging (by simpa using hdebug.1 haffirmed) level old
    · next hfalse =>
      rw [hdebug, not_or, not_or] at hfalse
      exact .given hfalse (replaced_iff.2 rfl)

/-- **The rules say what overriding does**, setting by setting. -/
theorem overridden_iff {texts : Lookups} {old new : Config} :
    Overridden texts old new ↔ new = old.override texts := by
  have hmap : ∀ (given old : Option String), (given.map some).getD old = given.or old := by
    intro given old
    cases given with
    | none => rfl
    | some text => rfl
  constructor
  · intro h
    obtain ⟨host, port, selector, size, url, username, password, timeout, level, form⟩ := h
    rw [replaced_iff] at host selector url username password form
    rw [hmap] at username password
    rw [renumbered_port] at port
    rw [renumbered_timeout] at timeout
    rw [leveled_iff] at level
    -- Now each component of the new settings is known.
    obtain ⟨⟨_, _, _, _⟩, ⟨_, _, _, _⟩, ⟨_, _⟩⟩ := new
    simp only at host port selector size url username password timeout level form
    subst host port selector size url username password timeout level form
    rfl
  · intro h
    subst h
    exact ⟨replaced_iff.2 rfl, renumbered_port.2 rfl, replaced_iff.2 rfl, rfl, replaced_iff.2 rfl,
      replaced_iff.2 (hmap _ _).symm, replaced_iff.2 (hmap _ _).symm, renumbered_timeout.2 rfl,
      leveled_iff.2 rfl, replaced_iff.2 rfl⟩

/-! ### Overriding again -/

theorem Replaced.again {α : Type} {given : Option α} {old new : α} (h : Replaced given old new) :
    Replaced given new new := by
  cases h with
  | given => exact .given new new
  | kept => exact .kept old

theorem Renumbered.again {bound : ℕ} {given : Option String} {old new : ℕ}
    (h : Renumbered bound given old new) : Renumbered bound given new new := by
  cases h with
  | given htext hn => exact .given htext hn new
  | invalid htext => exact .invalid htext old
  | kept => exact .kept old

theorem Leveled.again {debug level : Option String} {old new : String}
    (h : Leveled debug level old new) : Leveled debug level new new := by
  cases h with
  | debugging hdebug => exact .debugging hdebug level "debug"
  | given hdebug h => exact .given hdebug h.again

/-- What was overridden stays as it is. -/
theorem Overridden.again {texts : Lookups} {old new : Config} (h : Overridden texts old new) :
    Overridden texts new new where
  host := h.host.again
  port := h.port.again
  selector := h.selector.again
  maxBodySize := rfl
  url := h.url.again
  username := h.username.again
  password := h.password.again
  timeout := h.timeout.again
  level := h.level.again
  form := h.form.again

/-! ### What each setting depends on -/

/-- No text belongs to two settings. -/
theorem eq_of_mem_names {s t : Setting} {name : String} (hs : name ∈ s.names)
    (ht : name ∈ t.names) : s = t := by
  cases s
  all_goals
    cases t
    all_goals simp_all [Setting.names]

/-- A setting depends on its old value and on the texts of its own names. -/
theorem value_override {s : Setting} {texts texts' : Lookups} {c c' : Config}
    (hvalue : s.value c' = s.value c) (hnames : ∀ name ∈ s.names, texts' name = texts name) :
    s.value (c'.override texts') = s.value (c.override texts) := by
  cases s
  all_goals
    simp only [Setting.names, List.forall_mem_cons] at hnames
    simp only [Setting.value] at hvalue ⊢
    simp only [Config.override, ApiSettings.override, StoreSettings.override,
      LogSettings.override, hvalue, hnames]
    rfl

/-- **What overriding does.** The new settings are the ones that the rules of all settings describe,
    and no others. Overriding again with the same texts changes nothing. And each setting depends
    on nothing but its old value and the texts of its own names, which no other setting has, so
    the size of bodies depends on its old value alone. -/
theorem override_idempotent_and_separate (texts : Lookups) (c : Config) :
    (∀ new, Overridden texts c new ↔ new = c.override texts) ∧
      (c.override texts).override texts = c.override texts ∧
      (∀ (s : Setting) (texts' : Lookups) (c' : Config), s.value c' = s.value c →
        (∀ name ∈ s.names, texts' name = texts name) →
          s.value (c'.override texts') = s.value (c.override texts)) ∧
      ∀ (s t : Setting) (name : String), name ∈ s.names → name ∈ t.names → s = t := by
  refine ⟨fun _ => overridden_iff, ?_, fun _ _ _ hvalue hnames => value_override hvalue hnames,
    fun _ _ _ hs ht => eq_of_mem_names hs ht⟩
  -- The new settings obey the rules when they are the old ones.
  have hrules : Overridden texts c (c.override texts) := overridden_iff.2 rfl
  exact (overridden_iff.1 hrules.again).symm

/-- A port with a sign and a leading zero, and maybe a level. -/
def portTexts (level : Option String) : Lookups
  | "API_PORT" => some "+080"
  | "LOG_LEVEL" => level
  | _ => none

theorem override_idempotent_and_separate_portTexts :
    Setting.port.value (Config.standard.override (portTexts none)) = (80 : UInt16) ∧
      (∀ name ∈ Setting.port.names, portTexts (some "warn") name = portTexts none name) ∧
      Setting.port.value (Config.standard.override (portTexts (some "warn"))) =
        Setting.port.value (Config.standard.override (portTexts none)) := by
  have hnames : ∀ name ∈ Setting.port.names,
      portTexts (some "warn") name = portTexts none name := by decide
  have hseparate := (override_idempotent_and_separate (portTexts none) .standard).2.2.1
  exact ⟨rfl, hnames, hseparate .port _ .standard rfl hnames⟩

end SeriesBroker
