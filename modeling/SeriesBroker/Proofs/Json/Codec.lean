import SeriesBroker.Proofs.Json.Written
import SeriesBroker.Proofs.Steps

/-! # Readers that undo writers

    A reader undoes a writer (`Inverts`) if every written tree can be used and is read as the value
    it was written for, as long as the containers around it leave room for its own. Then it
    undoes the writer on texts too (`Inverts.decode`).

    Lists, maps and records take this over from their parts. For a record the written members are
    gone through together with the declared fields (`Fills`): a member fills its field, and a
    field without a member keeps the value of the blank record.
-/

namespace SeriesBroker.Json

/-- The reader undoes the writer, whose trees have at most `depth` containers in each other. -/
structure Inverts {α : Type} (read : Reader α) (write : α → Tree) (depth : ℕ) : Prop where
  usable : ∀ (a : α) {level : ℕ}, level + depth ≤ Tree.nestingLimit →
    (write a).usable level = true
  read_write : ∀ (a : α) {level : ℕ}, level + depth ≤ Tree.nestingLimit →
    read level (write a) = .ok a

section parts

variable {α β : Type} {read : Reader α} {write : α → Tree} {depth : ℕ}

/-- **A reader undoes a writer on texts**, if it does on trees. -/
theorem Inverts.decode [FloatReader] [LawfulFloatReader] (h : Inverts read write depth)
    (hdepth : depth ≤ Tree.nestingLimit) (a : α) : decode read (write a).toText = .ok a :=
  decode_toText (h.usable a (by omega)) (h.read_write a (by omega))

/-- Another type is carried by the trees of the first one. -/
theorem Inverts.through (h : Inverts read write depth) (carry : β → α) {read' : Reader β}
    (hread : ∀ level tree b, read level tree = .ok (carry b) → read' level tree = .ok b) :
    Inverts read' (fun b => write (carry b)) depth where
  usable := fun b _ hlevel => h.usable (carry b) hlevel
  read_write := fun b _ hlevel => hread _ _ b (h.read_write (carry b) hlevel)

theorem inverts_text : Inverts readText ofText 0 where
  usable := fun _ _ _ => rfl
  read_write := fun _ _ _ => rfl

theorem ofText_ne_null (text : String) : ofText text ≠ .null := Tree.noConfusion

/-- An integer of 64 bits, signed or unsigned, can be used. -/
theorem usable_ofInt {value : ℤ} (fits : leastInteger ≤ value ∧ value < integerBound)
    (level : ℕ) : (ofInt value).usable level = true := by
  unfold ofInt Number.ofInt?
  rw [dif_pos fits]
  rfl

/-- It is read back by a reader whose limits it keeps. -/
theorem readInteger_ofInt {value low high : ℤ}
    (fits : leastInteger ≤ value ∧ value < integerBound) (hrange : low ≤ value ∧ value ≤ high)
    (kind : String) (level : ℕ) : readInteger kind low high level (ofInt value) = .ok value := by
  unfold ofInt Number.ofInt? readInteger
  rw [dif_pos fits]
  exact if_pos hrange

/-! ### Lists and maps -/

theorem usableItems_of_forall {items : List Tree} {level : ℕ}
    (h : ∀ item ∈ items, item.usable level = true) : Tree.usableItems level items = true := by
  induction items with
  | nil => rfl
  | cons item items ih =>
    obtain ⟨hitem, hitems⟩ := List.forall_mem_cons.1 h
    exact Bool.and_eq_true_iff.2 ⟨hitem, ih hitems⟩

theorem usable_ofMembers {members : List (String × Tree)} {level : ℕ}
    (hlevel : level < Tree.nestingLimit)
    (h : ∀ member ∈ members, member.2.usable (level + 1) = true) :
    (ofMembers members).usable level = true := by
  refine Bool.and_eq_true_iff.2 ⟨decide_eq_true hlevel, ?_⟩
  induction members with
  | nil => rfl
  | cons member members ih =>
    obtain ⟨hmember, hmembers⟩ := List.forall_mem_cons.1 h
    exact Bool.and_eq_true_iff.2 ⟨hmember, ih hmembers⟩

/-- A list is read back item by item. -/
theorem Inverts.list (h : Inverts read write depth) :
    Inverts (readList read) (fun items => .array (items.map write)) (depth + 1) where
  usable := by
    intro items level hlevel
    refine Bool.and_eq_true_iff.2 ⟨decide_eq_true (by omega), usableItems_of_forall ?_⟩
    intro tree htree
    obtain ⟨item, -, rfl⟩ := List.mem_map.1 htree
    exact h.usable item (by omega)
  read_write := by
    intro items level hlevel
    have hroom : level < Tree.nestingLimit := by omega
    have hitems : items.mapM (read (level + 1) ∘ write) = .ok (items.map id) :=
      mapM_eq_ok fun item _ => h.read_write item (by omega)
    show (if level < Tree.nestingLimit then (items.map write).mapM (read (level + 1))
      else .error .malformed) = .ok items
    rw [if_pos hroom, List.mapM_map, hitems, List.map_id]

/-- A map is read back entry by entry. -/
theorem Inverts.members (h : Inverts read write depth) :
    Inverts (readMembers read)
      (fun entries => ofMembers (entries.map fun (key, value) => (key, write value)))
      (depth + 1) where
  usable := by
    intro entries level hlevel
    apply usable_ofMembers (by omega)
    intro member hmember
    obtain ⟨⟨key, value⟩, -, rfl⟩ := List.mem_map.1 hmember
    exact h.usable value (by omega)
  read_write := by
    intro entries level hlevel
    have hroom : level < Tree.nestingLimit := by omega
    have hentries : entries.mapM (fun entry : String × α =>
        (read (level + 1) (write entry.2)).map (entry.1, ·)) = .ok (entries.map id) := by
      apply mapM_eq_ok
      intro entry _
      rw [h.read_write entry.2 (by omega)]
      rfl
    unfold readMembers ofMembers
    simp only
    rw [if_pos hroom, List.map_map, List.mapM_map]
    rw [List.map_id] at hentries
    exact hentries

end parts

/-! ### Records -/

section record

variable {α : Type}

/-- The members fill the fields in their order and make the second record of the first one. Only
    a field that is not required may have no member. -/
inductive Fills (level : ℕ) : List (Field α) → List (String × Tree) → α → α → Prop
  | nil (a : α) : Fills level [] [] a a
  | skip {f : Field α} {fields : List (Field α)} {members : List (String × Tree)} {a b : α}
      (hfree : f.required = false) (h : Fills level fields members a b) :
      Fills level (f :: fields) members a b
  | put {f : Field α} {fields : List (Field α)} {tree : Tree} {members : List (String × Tree)}
      {a next b : α} (husable : tree.usable level = true) (hfill : f.fill level tree a = .ok next)
      (h : Fills level fields members next b) :
      Fills level (f :: fields) ((f.name, tree) :: members) a b

theorem Fills.usable {level : ℕ} {fields : List (Field α)} {members : List (String × Tree)}
    {a b : α} (h : Fills level fields members a b) :
    ∀ member ∈ members, member.2.usable level = true := by
  induction h with
  | nil a => simp
  | skip hfree h ih => exact ih
  | put husable hfill h ih => exact List.forall_mem_cons.2 ⟨husable, ih⟩

/-- The names that were seen before a place among the fields: names of the fields that were
    passed, and of all required ones. -/
structure Passed (before : List (Field α)) (seen : List String) : Prop where
  known : ∀ name ∈ seen, name ∈ before.map (·.name)
  required : ∀ f ∈ before, f.required = true → f.name ∈ seen

theorem passed_nil : Passed ([] : List (Field α)) [] := ⟨by simp, by simp⟩

theorem Passed.skip {before : List (Field α)} {seen : List String} (h : Passed before seen)
    {f : Field α} (hfree : f.required = false) : Passed (before ++ [f]) seen where
  known := by
    intro name hname
    rw [List.map_append]
    exact List.mem_append_left _ (h.known name hname)
  required := by
    intro g hg hrequired
    rcases List.mem_append.1 hg with hg | hg
    · exact h.required g hg hrequired
    · rw [List.mem_singleton.1 hg, hfree] at hrequired
      cases hrequired

theorem Passed.put {before : List (Field α)} {seen : List String} (h : Passed before seen)
    (f : Field α) : Passed (before ++ [f]) (f.name :: seen) where
  known := by
    intro name hname
    rw [List.map_append]
    rcases List.mem_cons.1 hname with rfl | hname
    · exact List.mem_append_right _ List.mem_cons_self
    · exact List.mem_append_left _ (h.known name hname)
  required := by
    intro g hg hrequired
    rcases List.mem_append.1 hg with hg | hg
    · exact List.mem_cons_of_mem _ (h.required g hg hrequired)
    · rw [List.mem_singleton.1 hg]
      exact List.mem_cons_self

variable {r : Record α} (hnames : (r.fields.map (·.name)).Nodup)

include hnames

/-- A field is found by its name. -/
theorem find?_field {before after : List (Field α)} {f : Field α}
    (hfields : r.fields = before ++ f :: after) :
    r.fields.find? (·.name == f.name) = some f := by
  rw [hfields, List.map_append, List.map_cons, List.nodup_append] at hnames
  have hbefore : before.find? (·.name == f.name) = none := by
    rw [List.find?_eq_none]
    intro g hg hname
    have hne := hnames.2.2 g.name (List.mem_map_of_mem hg) f.name List.mem_cons_self
    exact hne (beq_iff_eq.1 hname)
  have hfirst : (f :: after).find? (·.name == f.name) = some f :=
    List.find?_cons_of_pos (beq_self_eq_true f.name)
  rw [hfields, List.find?_append, hbefore, hfirst]
  rfl

/-- Members that fill the fields from some place on are read one after the other. -/
theorem foldlM_readMember {level : ℕ} {fields : List (Field α)}
    {members : List (String × Tree)} {a b : α} (h : Fills level fields members a b)
    {before : List (Field α)} {seen : List String} (hfields : r.fields = before ++ fields)
    (hpassed : Passed before seen) :
    ∃ all, (members.map fun (key, value) => ((some key, value) : Key × Tree)).foldlM
        (r.readMember level) ⟨a, seen⟩ = .ok ⟨b, all⟩ ∧ Passed r.fields all := by
  induction h generalizing before seen with
  | nil a =>
    rw [List.append_nil] at hfields
    rw [hfields]
    exact ⟨seen, rfl, hpassed⟩
  | skip hfree h ih =>
    refine ih ?_ (hpassed.skip hfree)
    rw [hfields, List.append_assoc, List.singleton_append]
  | @put f fields tree members a next b husable hfill h ih =>
    -- All names are different, so this one was not seen at an earlier place.
    have hnew : seen.contains f.name = false := by
      rw [Bool.eq_false_iff]
      intro hcontains
      have hmem := hpassed.known f.name (List.contains_iff_mem.1 hcontains)
      rw [hfields, List.map_append, List.map_cons, List.nodup_append] at hnames
      exact hnames.2.2 f.name hmem f.name List.mem_cons_self rfl
    have hread : r.readMember level ⟨a, seen⟩ (some f.name, tree) =
        .ok ⟨next, f.name :: seen⟩ := by
      unfold Record.readMember
      simp only
      rw [find?_field hnames hfields]
      simp only
      rw [hnew, hfill]
      rfl
    have hfields' : r.fields = (before ++ [f]) ++ fields := by
      rw [hfields, List.append_assoc, List.singleton_append]
    obtain ⟨all, hfold, hall⟩ := ih hfields' (hpassed.put f)
    refine ⟨all, ?_, hall⟩
    rw [List.map_cons, List.foldlM_cons, hread]
    exact hfold

/-- **A record whose members fill its fields is read back.** -/
theorem inverts_record {write : α → List (String × Tree)} {depth : ℕ}
    (h : ∀ (a : α) (level : ℕ), level + depth ≤ Tree.nestingLimit →
      Fills level r.fields (write a) r.blank a) :
    Inverts r.read (fun a => ofMembers (write a)) (depth + 1) where
  usable := fun a _ hlevel => usable_ofMembers (by omega) (h a _ (by omega)).usable
  read_write := by
    intro a level hlevel
    have hroom : level < Tree.nestingLimit := by omega
    obtain ⟨all, hfold, hall⟩ :=
      foldlM_readMember hnames (h a (level + 1) (by omega)) rfl passed_nil
    -- Every place was passed, so no required field is missing at the end.
    have hnone : r.fields.find? (fun f => f.required && !all.contains f.name) = none := by
      rw [List.find?_eq_none]
      intro f hf hmissing
      obtain ⟨hrequired, hunseen⟩ := Bool.and_eq_true_iff.1 hmissing
      have hcontains := List.contains_iff_mem.2 (hall.required f hf hrequired)
      rw [hcontains] at hunseen
      cases hunseen
    unfold Record.read ofMembers
    simp only
    rw [if_pos hroom, hfold]
    show r.finish ⟨a, all⟩ = .ok a
    unfold Record.finish
    rw [hnone]

end record

/-! ### Fields -/

section field

variable {α β : Type} {read : Reader β} {write : β → Tree} {depth level : ℕ}
  {fields : List (Field α)} {members : List (String × Tree)} {a b : α}
  (h : Inverts read write depth) (hlevel : level + depth ≤ Tree.nestingLimit) {name : String}

include h hlevel

/-- A field that is always written. -/
theorem fills_always {required : Bool} {put : β → α → α} (value : β)
    (hrest : Fills level fields members (put value a) b) :
    Fills level (field name required read put :: fields) ((name, write value) :: members) a b := by
  refine .put (h.usable value hlevel) ?_ hrest
  show (read level (write value)).map (put · a) = .ok (put value a)
  rw [h.read_write value hlevel]
  rfl

/-- A field that is written if it has a value, and is absent in the blank record. No value may be
    written as null, since null is read as an absent one. -/
theorem fills_optional (hnull : ∀ value, write value ≠ .null) {put : Option β → α → α}
    (value : Option β) (hblank : put none a = a)
    (hrest : Fills level fields members (put value a) b) :
    Fills level (field name false (readOptional read) put :: fields)
      (optionalMember name (value.map write) ++ members) a b := by
  cases value with
  | none =>
    rw [hblank] at hrest
    exact .skip rfl hrest
  | some value =>
    refine .put (h.usable value hlevel) ?_ hrest
    show (readOptional read level (write value)).map (put · a) = .ok (put (some value) a)
    rw [readOptional_of_ne_null (hnull value), h.read_write value hlevel]
    rfl

end field

end SeriesBroker.Json
