import Mathlib.Data.List.Perm.Basic
import SeriesBroker.Proofs.Json.Codec
import SeriesBroker.Proofs.Steps

/-! # Members of records

    A record is read member by member, in document order. Each member that the record knows fills
    its field, at most once, and all others are skipped. Told as a relation (`Takes`), this says
    what an object means to a record (`read_object_eq_ok`) without the names that the reader
    remembers on its way.
-/

namespace SeriesBroker.Json

section record

variable {α : Type} (r : Record α)

def Record.names : List String := r.fields.map (·.name)

/-- The names of the members that the record knows. -/
def Record.known (members : List (Key × Tree)) : List String :=
  members.filterMap fun member => member.1.filter (· ∈ r.names)

/-! ### Taking members -/

/-- What one member does to the record: an unknown one is skipped, and a known one fills its
    field. -/
inductive Takes (level : ℕ) : α → Key × Tree → α → Prop where
  | skip {a : α} {name : String} {tree : Tree} (hunknown : name ∉ r.names)
      (hintact : tree.intact = true) : Takes level a (some name, tree) a
  | fill {a b : α} {f : Field α} {tree : Tree} (hf : f ∈ r.fields)
      (hfill : f.fill level tree a = .ok b) : Takes level a (some f.name, tree) b

/-- What members do one after the other. -/
inductive TakesAll (level : ℕ) : α → List (Key × Tree) → α → Prop where
  | nil (a : α) : TakesAll level a [] a
  | cons {a next b : α} {member : Key × Tree} {members : List (Key × Tree)}
      (h : Takes r level a member next) (hrest : TakesAll level next members b) :
      TakesAll level a (member :: members) b

variable {r} {level : ℕ}

theorem known_cons_of_mem {name : String} (h : name ∈ r.names) (tree : Tree)
    (members : List (Key × Tree)) :
    r.known ((some name, tree) :: members) = name :: r.known members :=
  List.filterMap_cons_some (Option.filter_some_pos (decide_eq_true h))

theorem known_cons_of_not_mem {name : String} (h : name ∉ r.names) (tree : Tree)
    (members : List (Key × Tree)) : r.known ((some name, tree) :: members) = r.known members := by
  simp [Record.known, h]

theorem name_mem_names {f : Field α} (hf : f ∈ r.fields) : f.name ∈ r.names :=
  List.mem_map_of_mem hf

/-- A field that is found by its name is the field of that name. -/
theorem find?_eq_some_of_mem (hnames : r.names.Nodup) {f : Field α} (hf : f ∈ r.fields) :
    r.fields.find? (·.name == f.name) = some f := by
  obtain ⟨before, after, hfields⟩ := List.append_of_mem hf
  exact find?_field hnames hfields

theorem find?_eq_none_iff {name : String} :
    r.fields.find? (·.name == name) = none ↔ name ∉ r.names := by
  simp [Record.names, List.find?_eq_none]

/-- What is read of an unknown member. -/
theorem readMember_unknown {name : String} (h : name ∉ r.names) (tree : Tree)
    (acc : Gathered α) :
    r.readMember level acc (some name, tree) =
      if tree.intact then .ok acc else .error .malformed := by
  unfold Record.readMember
  simp only
  rw [find?_eq_none_iff.2 h]

/-- What is read of a member that fills a field. -/
theorem readMember_field (hnames : r.names.Nodup) {f : Field α} (hf : f ∈ r.fields) (tree : Tree)
    (acc : Gathered α) :
    r.readMember level acc (some f.name, tree) =
      if acc.seen.contains f.name then .error (.duplicateField f.name)
      else (f.fill level tree acc.value).map fun value => ⟨value, f.name :: acc.seen⟩ := by
  unfold Record.readMember
  simp only
  rw [find?_eq_some_of_mem hnames hf]

/-- Reading a member fails, or it does what the member does, and the field was not filled
    before. -/
theorem readMember_eq_ok (hnames : r.names.Nodup) {a : α} {seen : List String}
    {member : Key × Tree} {next : Gathered α} :
    r.readMember level ⟨a, seen⟩ member = .ok next ↔
      Takes r level a member next.value ∧
        next.seen = (r.known [member]).reverse ++ seen ∧
        ∀ name ∈ r.known [member], name ∉ seen := by
  obtain ⟨b, all⟩ := next
  constructor
  · intro h
    obtain ⟨key, tree⟩ := member
    cases key with
    | none => cases h
    | some name =>
      by_cases hknown : name ∈ r.names
      · obtain ⟨f, hf, rfl⟩ := List.mem_map.1 hknown
        rw [readMember_field hnames hf] at h
        split at h
        · -- The name was seen before.
          cases h
        · next hnew =>
          obtain ⟨value, hfill, hnext⟩ := exists_of_map_eq_ok h
          cases hnext
          rw [known_cons_of_mem hknown]
          refine ⟨.fill hf hfill, rfl, ?_⟩
          intro name hname hseen
          obtain rfl := List.mem_singleton.1 hname
          exact hnew (List.contains_iff_mem.2 hseen)
      · rw [readMember_unknown hknown] at h
        split at h
        · next hintact =>
          cases h
          rw [known_cons_of_not_mem hknown]
          exact ⟨.skip hknown hintact, rfl, by simp [Record.known]⟩
        · cases h
  · intro h
    obtain ⟨htakes, rfl, hnew⟩ := h
    cases htakes with
    | skip hunknown hintact =>
      rw [readMember_unknown hunknown, known_cons_of_not_mem hunknown]
      exact if_pos hintact
    | fill hf hfill =>
      rw [known_cons_of_mem (name_mem_names hf)] at hnew ⊢
      rw [readMember_field hnames hf, if_neg, hfill]
      · rfl
      · intro hcontains
        exact hnew _ List.mem_cons_self (List.contains_iff_mem.1 hcontains)

theorem known_cons (member : Key × Tree) (members : List (Key × Tree)) :
    r.known (member :: members) = r.known [member] ++ r.known members := by
  rw [Record.known, Record.known, Record.known, ← List.filterMap_append, List.singleton_append]

/-- Members are read one after the other as long as no field is filled twice. -/
theorem foldlM_eq_ok (hnames : r.names.Nodup) {members : List (Key × Tree)} {a : α}
    {seen : List String} (hseen : seen.Nodup) {last : Gathered α} :
    members.foldlM (r.readMember level) ⟨a, seen⟩ = .ok last ↔
      TakesAll r level a members last.value ∧ last.seen = (r.known members).reverse ++ seen ∧
        last.seen.Nodup := by
  -- The names that were seen grow by those of each member, so they are general.
  induction members generalizing a seen with
  | nil =>
    constructor
    · intro h
      cases h
      exact ⟨.nil a, rfl, hseen⟩
    · intro h
      obtain ⟨b, all⟩ := last
      obtain ⟨htakes, hall, -⟩ := h
      cases htakes
      cases hall
      rfl
  | cons member members ih =>
    have hone : (r.known [member]).Nodup := by
      unfold Record.known
      rw [List.filterMap_cons]
      split
      · exact List.nodup_nil
      · exact List.nodup_singleton _
    rw [List.foldlM_cons, known_cons, List.reverse_append, List.append_assoc]
    constructor
    · intro h
      obtain ⟨⟨next, seen'⟩, hnext, hlast⟩ := exists_of_bind_eq_ok h
      obtain ⟨htakes, rfl, hnew⟩ := (readMember_eq_ok hnames).1 hnext
      have hseen' : ((r.known [member]).reverse ++ seen).Nodup := by
        refine List.Nodup.append (List.nodup_reverse.2 hone) hseen ?_
        intro name hname
        exact hnew name (List.mem_reverse.1 hname)
      obtain ⟨hrest, hall, hnodup⟩ := (ih hseen').1 hlast
      exact ⟨.cons htakes hrest, hall, hnodup⟩
    · intro h
      obtain ⟨htakes, hall, hnodup⟩ := h
      have hseen' : ((r.known [member]).reverse ++ seen).Nodup := by
        rw [hall] at hnodup
        exact hnodup.of_append_right
      cases htakes with
      | @cons _ next _ _ _ hnext hrest =>
        have hread : r.readMember level ⟨a, seen⟩ member =
            .ok ⟨next, (r.known [member]).reverse ++ seen⟩ := by
          refine (readMember_eq_ok hnames).2 ⟨hnext, rfl, ?_⟩
          intro name hname
          exact List.disjoint_of_nodup_append hseen' (List.mem_reverse.2 hname)
        rw [hread]
        exact (ih hseen').2 ⟨hrest, hall, hnodup⟩

/-- **What an object means to a record**: its members are taken one after the other, no field is
    given twice, and all required ones are given. -/
theorem read_object_eq_ok (hnames : r.names.Nodup) {members : List (Key × Tree)} {a : α} :
    r.read level (.object members) = .ok a ↔
      level < Tree.nestingLimit ∧ TakesAll r (level + 1) r.blank members a ∧
        (r.known members).Nodup ∧
        ∀ f ∈ r.fields, f.required = true → f.name ∈ r.known members := by
  -- The reader looks for a required field whose name was not seen.
  have hmissing : ∀ all : List String,
      r.fields.find? (fun f => f.required && !all.contains f.name) = none ↔
        ∀ f ∈ r.fields, f.required = true → f.name ∈ all := by
    intro all
    simp [List.find?_eq_none]
  by_cases hlevel : level < Tree.nestingLimit
  · have hread : r.read level (.object members) =
        members.foldlM (r.readMember (level + 1)) ⟨r.blank, []⟩ >>= r.finish := if_pos hlevel
    rw [hread]
    constructor
    · intro h
      obtain ⟨⟨b, all⟩, hfold, hfinish⟩ := exists_of_bind_eq_ok h
      obtain ⟨htakes, hall, hnodup⟩ := (foldlM_eq_ok hnames List.nodup_nil).1 hfold
      unfold Record.finish at hfinish
      split at hfinish
      · cases hfinish
      · next hnone =>
        cases hfinish
        -- The names were collected in reverse, which changes neither membership nor repetition.
        have hall' : all = (r.known members).reverse := hall.trans (List.append_nil _)
        simp only at hnone
        rw [hmissing, hall'] at hnone
        rw [hall', List.nodup_reverse] at hnodup
        refine ⟨hlevel, htakes, hnodup, ?_⟩
        intro f hf hrequired
        exact List.mem_reverse.1 (hnone f hf hrequired)
    · intro h
      obtain ⟨-, htakes, hnodup, hrequired⟩ := h
      have hfold : members.foldlM (r.readMember (level + 1)) ⟨r.blank, []⟩ =
          .ok ⟨a, (r.known members).reverse⟩ :=
        (foldlM_eq_ok hnames List.nodup_nil).2
          ⟨htakes, (List.append_nil _).symm, List.nodup_reverse.2 hnodup⟩
      have hnone := (hmissing (r.known members).reverse).2
        fun f hf hfree => List.mem_reverse.2 (hrequired f hf hfree)
      rw [hfold]
      show r.finish ⟨a, (r.known members).reverse⟩ = .ok a
      unfold Record.finish
      rw [hnone]
  · -- Too many containers stand around the record.
    have hread : r.read level (.object members) = .error .malformed := if_neg hlevel
    rw [hread]
    exact iff_of_false (by simp) fun h => hlevel h.1

/-! ### More members -/

theorem takesAll_append {members members' : List (Key × Tree)} {a c : α} :
    TakesAll r level a (members ++ members') c ↔
      ∃ b, TakesAll r level a members b ∧ TakesAll r level b members' c := by
  induction members generalizing a with
  | nil =>
    constructor
    · intro h
      exact ⟨a, .nil a, h⟩
    · intro h
      obtain ⟨b, hnil, h⟩ := h
      cases hnil
      exact h
  | cons member members ih =>
    constructor
    · intro h
      cases h with
      | cons hmember hrest =>
        obtain ⟨b, hfront, hback⟩ := ih.1 hrest
        exact ⟨b, .cons hmember hfront, hback⟩
    · intro h
      obtain ⟨b, hfront, hback⟩ := h
      cases hfront with
      | cons hmember hrest => exact .cons hmember (ih.2 ⟨b, hrest, hback⟩)

theorem takesAll_singleton {member : Key × Tree} {a b : α} :
    TakesAll r level a [member] b ↔ Takes r level a member b := by
  constructor
  · intro h
    cases h with
    | cons hmember hrest =>
      cases hrest
      exact hmember
  · intro h
    exact .cons h (.nil b)

theorem takes_field (hnames : r.names.Nodup) {f : Field α} (hf : f ∈ r.fields) {tree : Tree}
    {a b : α} : Takes r level a (some f.name, tree) b ↔ f.fill level tree a = .ok b := by
  constructor
  · intro h
    generalize hmember : ((some f.name, tree) : Key × Tree) = member at h
    cases h with
    | skip hunknown _ =>
      obtain ⟨hname, -⟩ := Prod.mk.inj hmember
      rw [← Option.some.inj hname] at hunknown
      exact absurd (name_mem_names hf) hunknown
    | fill hg hfill =>
      obtain ⟨hname, rfl⟩ := Prod.mk.inj hmember
      rwa [List.inj_on_of_nodup_map hnames hf hg (Option.some.inj hname)]
  · intro h
    exact .fill hf h

/-- A field that was not given yet is filled from a further member. -/
theorem read_object_concat (hnames : r.names.Nodup) {f : Field α} (hf : f ∈ r.fields)
    {members : List (Key × Tree)} {a b : α} (hread : r.read level (.object members) = .ok a)
    (hnew : f.name ∉ r.known members) {tree : Tree} :
    r.read level (.object (members ++ [(some f.name, tree)])) = .ok b ↔
      f.fill (level + 1) tree a = .ok b := by
  obtain ⟨hlevel, htakes, hnodup, hrequired⟩ := (read_object_eq_ok hnames).1 hread
  have hknown : r.known (members ++ [(some f.name, tree)]) = r.known members ++ [f.name] := by
    unfold Record.known
    rw [List.filterMap_append]
    exact congrArg _ (known_cons_of_mem (name_mem_names hf) tree [])
  rw [read_object_eq_ok hnames, takesAll_append, hknown]
  constructor
  · intro h
    obtain ⟨-, ⟨a', htakes', hlast⟩, -⟩ := h
    -- The members before lead to one record only, since reading is a function.
    have hread' := (read_object_eq_ok hnames).2 ⟨hlevel, htakes', hnodup, hrequired⟩
    rw [hread] at hread'
    cases hread'
    exact (takes_field hnames hf).1 (takesAll_singleton.1 hlast)
  · intro h
    refine ⟨hlevel, ⟨a, htakes, takesAll_singleton.2 ((takes_field hnames hf).2 h)⟩, ?_, ?_⟩
    · refine hnodup.append (List.nodup_singleton _) ?_
      intro name hname hname'
      obtain rfl := List.mem_singleton.1 hname'
      exact hnew hname
    · intro g hg hfree
      exact List.mem_append_left _ (hrequired g hg hfree)

/-- All names of the members are texts, and none is the name of a field. -/
def Record.Unknown (r : Record α) (members : List (Key × Tree)) : Prop :=
  ∀ member ∈ members, ∃ name, member.1 = some name ∧ name ∉ r.names

theorem takesAll_of_unknown {members : List (Key × Tree)} (h : r.Unknown members)
    (hintact : ∀ member ∈ members, member.2.intact = true) (a : α) :
    TakesAll r level a members a := by
  induction members with
  | nil => exact .nil a
  | cons member members ih =>
    obtain ⟨key, tree⟩ := member
    obtain ⟨hmember, hmembers⟩ := List.forall_mem_cons.1 h
    obtain ⟨htree, htrees⟩ := List.forall_mem_cons.1 hintact
    obtain ⟨name, rfl, hunknown⟩ := hmember
    exact .cons (.skip hunknown htree) (ih hmembers htrees)

theorem known_append_of_unknown (members : List (Key × Tree)) {added : List (Key × Tree)}
    (h : r.Unknown added) : r.known (members ++ added) = r.known members := by
  have hnone : r.known added = [] := by
    rw [Record.known, List.filterMap_eq_nil_iff]
    intro member hmember
    obtain ⟨name, hname, hunknown⟩ := h member hmember
    rw [hname, Option.filter_eq_none_iff]
    intro other hother hmem
    obtain rfl := Option.some.inj hother
    exact hunknown (of_decide_eq_true hmem)
  rw [Record.known, List.filterMap_append, ← Record.known, ← Record.known, hnone, List.append_nil]

end record

end SeriesBroker.Json
