import ClavenarSdk.Serde

/-!
# Structs that ignore unknown fields

A derived struct without `deny_unknown_fields` is read from the members that it knows. A field with
a default may be missing, and the positional form may then end early.
-/

namespace ClavenarSdk

/-- The members of a derived struct that ignores unknown fields, from its object or from its
positional form, which may end early. -/
def knownMembers (names : List String) : Json → Except DecodeError (List (String × Json))
  | .object members =>
    let known := members.filter fun m => m.1 ∈ names
    if (known.map Prod.fst).Nodup then .ok known else .error .duplicateField
  | .array items =>
    if items.length ≤ names.length then .ok (names.zip items) else .error .invalidLength
  | _ => .error .invalidType

/-- A field that has a default. -/
def defaultField {α : Type} [Deserialize α] (members : List (String × Json)) (name : String)
    (default : α) : Except DecodeError α :=
  match members.lookup name with
  | some v => fromJson v
  | none => .ok default

/-- The document is read with these members: the known ones of an object, or the items of an
array that is not too long. -/
def Knows (names : List String) (j : Json) (known : List (String × Json)) : Prop :=
  (∃ members, j = .object members ∧ known = members.filter (fun m => m.1 ∈ names) ∧
    (known.map Prod.fst).Nodup) ∨
  ∃ items, j = .array items ∧ items.length ≤ names.length ∧ known = names.zip items

/-- The known members are those that the document is read with. -/
theorem knownMembers_eq_ok_iff {names : List String} {j : Json} {known : List (String × Json)} :
    knownMembers names j = .ok known ↔ Knows names j known := by
  cases j with
  | object members =>
    simp only [knownMembers, Knows, Json.object.injEq, reduceCtorEq, false_and, exists_false,
      or_false, exists_eq_left']
    constructor
    · intro h
      split_ifs at h with hnodup
      obtain rfl := Except.ok.inj h
      exact ⟨rfl, hnodup⟩
    · rintro ⟨rfl, hnodup⟩
      rw [if_pos hnodup]
  | array items =>
    simp only [knownMembers, Knows, Json.array.injEq, reduceCtorEq, false_and, exists_false,
      false_or, exists_eq_left']
    constructor
    · intro h
      split_ifs at h with hlength
      exact ⟨hlength, (Except.ok.inj h).symm⟩
    · rintro ⟨hlength, rfl⟩
      rw [if_pos hlength]
  | null | bool | number | string => simp [knownMembers, Knows]

/-- Members of other names make no difference. -/
theorem knownMembers_filter {names : List String} {members : List (String × Json)}
    (keep : String → Bool) (hkeep : ∀ name ∈ names, keep name = true) :
    knownMembers names (.object (members.filter fun m => keep m.1)) =
      knownMembers names (.object members) := by
  have hknown : ((members.filter fun m => keep m.1).filter fun m => m.1 ∈ names) =
      members.filter fun m => m.1 ∈ names := by
    rw [List.filter_filter]
    exact List.filter_congr fun m _ => by simpa using hkeep m.1
  simp only [knownMembers, hknown]

/-- The names that are read are distinct. -/
theorem Knows.nodup {names : List String} (hnames : names.Nodup) {j : Json}
    {known : List (String × Json)} (h : Knows names j known) : (known.map Prod.fst).Nodup := by
  obtain ⟨_, _, _, hnodup⟩ | ⟨items, _, hlength, rfl⟩ := h
  · exact hnodup
  · rw [List.zip_eq_zip_take_min, List.map_fst_zip (by simp)]
    exact hnames.sublist (List.take_sublist _ _)

/-- The members give this field the value that is written so, or leave it to its default. -/
def Gives {α : Type} [Serialize α] (members : List (String × Json)) (name : String)
    (default a : α) : Prop :=
  (name, toJson a) ∈ members ∨ name ∉ members.map Prod.fst ∧ a = default

/-- Giving a field does not depend on the order of the members. -/
theorem Gives.perm {α : Type} [Serialize α] {members members' : List (String × Json)}
    {name : String} {default a : α} (h : members.Perm members') :
    Gives members name default a ↔ Gives members' name default a := by
  unfold Gives
  rw [h.mem_iff, (h.map Prod.fst).mem_iff]

/-- A name that is not found is none of the names. -/
theorem lookup_eq_none_iff_not_mem {members : List (String × Json)} {name : String} :
    members.lookup name = none ↔ name ∉ members.map Prod.fst := by
  rw [List.lookup_eq_none_iff]
  simp only [List.mem_map, not_exists, not_and, bne_iff_ne]
  grind

/-- A field with a default is read from exactly the members that give it. -/
theorem defaultField_eq_ok_iff {α : Type} [Serialize α] [Deserialize α]
    (hread : ∀ (j : Json) (a : α), fromJson j = .ok a ↔ j = toJson a)
    {members : List (String × Json)} (hnodup : (members.map Prod.fst).Nodup) {name : String}
    {default a : α} :
    defaultField members name default = .ok a ↔ Gives members name default a := by
  unfold defaultField
  cases hlookup : members.lookup name with
  | none =>
    have habsent := lookup_eq_none_iff_not_mem.mp hlookup
    have hmem : (name, toJson a) ∉ members := fun h => habsent (List.mem_map_of_mem h)
    simp [Gives, hmem, habsent, eq_comm]
  | some v =>
    have hmem := mem_of_lookup_eq_some hlookup
    have hpresent : name ∈ members.map Prod.fst := List.mem_map_of_mem hmem
    simp only [Gives, hpresent, not_true, false_and, or_false, hread]
    constructor
    · rintro rfl
      exact hmem
    · intro h
      rw [lookup_eq_some_of_mem hnodup h, Option.some.injEq] at hlookup
      exact hlookup.symm

/-- A field of type `Option` is read from exactly the members that give it. -/
theorem optionalField_eq_ok_iff {α : Type} [Serialize α] [Deserialize α]
    (hread : ∀ (j : Json) (a : α), fromJson j = .ok a ↔ j = toJson a)
    (hnull : ∀ a : α, toJson a ≠ .null) {members : List (String × Json)}
    (hnodup : (members.map Prod.fst).Nodup) {name : String} {a : Option α} :
    optionalField members name = .ok a ↔ Gives members name none a := by
  unfold optionalField
  cases hlookup : members.lookup name with
  | none =>
    have habsent := lookup_eq_none_iff_not_mem.mp hlookup
    have hmem : (name, toJson a) ∉ members := fun h => habsent (List.mem_map_of_mem h)
    simp [Gives, hmem, habsent, eq_comm]
  | some v =>
    have hmem := mem_of_lookup_eq_some hlookup
    have hpresent : name ∈ members.map Prod.fst := List.mem_map_of_mem hmem
    have hvalue : (name, toJson a) ∈ members ↔ v = toJson a := by
      constructor
      · intro h
        rw [lookup_eq_some_of_mem hnodup h, Option.some.injEq] at hlookup
        exact hlookup.symm
      · rintro rfl
        exact hmem
    simp only [Gives, hpresent, not_true, false_and, or_false, hvalue]
    cases a with
    | none =>
      have hwritten : (toJson (none : Option α)) = .null := rfl
      rw [hwritten]
      cases hdecode : (fromJson v : Except DecodeError α) <;> split_ifs <;> simp_all
    | some a =>
      have hwritten : (toJson (some a)) = toJson a := rfl
      rw [hwritten]
      split_ifs with hv
      · have hne : v ≠ toJson a := fun h => hnull a (h.symm.trans hv)
        simpa using hne
      · have hsome : some <$> (fromJson v : Except DecodeError α) = .ok (some a) ↔
            (fromJson v : Except DecodeError α) = .ok a := by
          cases (fromJson v : Except DecodeError α) <;> simp
        rw [hsome, hread]

/-- A text is read from what is written of it only. -/
theorem string_fromJson_iff (j : Json) (s : String) : fromJson j = .ok s ↔ j = toJson s :=
  string_fromJson_eq_ok_iff

/-- So is a list of texts. -/
theorem strings_fromJson_iff (j : Json) (ss : List String) :
    fromJson j = .ok ss ↔ j = toJson ss := by
  have hitems : ∀ (items : List Json) (ss : List String),
      List.Forall₂ (fun item s => fromJson item = .ok s) items ss ↔ items = ss.map toJson := by
    intro items
    induction items with
    | nil => simp only [List.forall₂_nil_left_iff, List.nil_eq, List.map_eq_nil_iff, implies_true]
    | cons item items ih =>
      intro ss
      cases ss with
      | nil => simp only [List.forall₂_nil_right_iff, List.map_nil]
      | cons s ss =>
        rw [List.forall₂_cons, string_fromJson_iff, ih, List.map_cons, List.cons.injEq]
  rw [list_fromJson_eq_ok_iff]
  simp only [hitems]
  constructor
  · rintro ⟨_, rfl, rfl⟩
    rfl
  · rintro rfl
    exact ⟨_, rfl, rfl⟩

/-! ### Fields with defaults, as they are written and read -/

/-- A field of a record: its member, whether that is what a reader takes it to be that does not
find it, whether it is then left out, and how it is read. -/
structure Slot where
  name : String
  value : Json
  atDefault : Bool
  skipped : Bool
  Reads : List (String × Json) → Prop

/-- What is read of an optional field: `null` is written of `None` and of nothing else. -/
def rereadOption {α : Type} [Serialize α] (a : Option α) : Option α :=
  a.filter fun b => toJson b ≠ .null

/-- A value that is not written as `null` is read as it is. -/
theorem rereadOption_eq_self {α : Type} [Serialize α] {a : Option α}
    (h : ∀ b ∈ a, toJson b ≠ .null) : rereadOption a = a := by
  cases a with
  | none => rfl
  | some b => simpa [rereadOption] using h b rfl

/-- What was read as an optional opaque value is read so again. -/
theorem rereadOption_of_optionalField {members : List (String × Json)} {name : String}
    {a : Option Value} (h : optionalField members name = .ok a) : rereadOption a = a :=
  rereadOption_eq_self fun b hb => by
    rw [Option.mem_def.mp hb] at h
    exact optionalField_value_ne_null h

/-- A text is never written as `null`. -/
@[simp] theorem rereadOption_string (a : Option String) : rereadOption a = a :=
  rereadOption_eq_self fun _ _ => by simp [toJson]

namespace Slot

section

variable {α : Type} [Serialize α] [Deserialize α]

/-- A field without a default. -/
def required (name : String) (a : α) : Slot where
  name := name
  value := toJson a
  atDefault := false
  skipped := false
  Reads known := requiredField known name = .ok a

/-- An optional field, written as `null` if there is no value. -/
def option (name : String) (a : Option α) : Slot where
  name := name
  value := toJson a
  atDefault := a.isNone
  skipped := false
  Reads known := optionalField known name = .ok (rereadOption a)

/-- An optional field, left out if there is no value. -/
def ifSome (name : String) (a : Option α) : Slot := { option name a with skipped := true }

/-- A field with a default of its own, always written. -/
def defaulted [DecidableEq α] (name : String) (default a : α) : Slot where
  name := name
  value := toJson a
  atDefault := a = default
  skipped := false
  Reads known := defaultField known name default = .ok a

end

section

variable {α : Type} [Serialize α] [Deserialize α] {known : List (String × Json)} {name : String}

/-- How a field without a default is read. -/
@[simp] theorem reads_required {a : α} :
    (required name a).Reads known ↔ requiredField known name = .ok a := Iff.rfl

/-- How an optional field is read. -/
@[simp] theorem reads_option {a : Option α} :
    (option name a).Reads known ↔ optionalField known name = .ok (rereadOption a) := Iff.rfl

/-- An optional field is read in the same way if it may have been left out. -/
@[simp] theorem reads_ifSome {a : Option α} :
    (ifSome name a).Reads known ↔ optionalField known name = .ok (rereadOption a) := Iff.rfl

/-- How a field with a default of its own is read. -/
@[simp] theorem reads_defaulted [DecidableEq α] {default a : α} :
    (defaulted name default a).Reads known ↔ defaultField known name default = .ok a := Iff.rfl

end

/-- The members of a record. -/
def write (slots : List Slot) : List (String × Json) :=
  (slots.filter fun s => !(s.skipped && s.atDefault)).map fun s => (s.name, s.value)

/-- The members have the field, or lack it where that makes no difference. -/
def ShownIn (known : List (String × Json)) (s : Slot) : Prop :=
  (s.name, s.value) ∈ known ∨ s.atDefault = true ∧ s.name ∉ known.map Prod.fst

/-- The field is read wherever it is shown. -/
def Lawful (s : Slot) : Prop :=
  ∀ known : List (String × Json), (known.map Prod.fst).Nodup → s.ShownIn known → s.Reads known

/-- A record shows its fields. -/
theorem shownIn_write {slots : List Slot} (hnames : (slots.map name).Nodup) :
    ∀ s ∈ slots, s.ShownIn (write slots) := by
  intro s hs
  by_cases hskipped : (s.skipped && s.atDefault) = true
  · refine .inr ⟨(Bool.and_eq_true_iff.mp hskipped).2, fun hmem => ?_⟩
    obtain ⟨f, hf, hname⟩ := List.mem_map.mp hmem
    obtain ⟨s', hs', rfl⟩ := List.mem_map.mp hf
    obtain ⟨hs', hwritten⟩ := List.mem_filter.mp hs'
    obtain rfl := List.inj_on_of_nodup_map hnames hs' hs hname
    simp [hskipped] at hwritten
  · have hwritten : s ∈ slots.filter fun s => !(s.skipped && s.atDefault) := by
      rw [List.mem_filter]
      exact ⟨hs, by simpa [imp_iff_not_or] using hskipped⟩
    exact .inl (List.mem_map.mpr ⟨s, hwritten, rfl⟩)

/-- A record writes no name twice. -/
theorem nodup_write {slots : List Slot} (hnames : (slots.map name).Nodup) :
    ((write slots).map Prod.fst).Nodup := by
  rw [write, List.map_map]
  exact hnames.sublist (List.filter_sublist.map _)

section

variable {α : Type} [Serialize α] [Deserialize α]

/-- A field without a default is read where it is shown if its value survives serialization. -/
theorem lawful_required {name : String} {a : α} (hread : fromJson (toJson a) = .ok a) :
    (required name a).Lawful := by
  rintro known hnodup (hmem | ⟨hdefault, -⟩)
  · exact requiredField_eq_ok_iff.mpr ⟨_, lookup_eq_some_of_mem hnodup hmem, hread⟩
  · cases hdefault

/-- So is an optional field. -/
theorem lawful_option {name : String} {a : Option α}
    (hread : ∀ b ∈ a, fromJson (toJson b) = .ok b) : (option name a).Lawful := by
  intro known hnodup hshown
  change optionalField known name = _
  obtain hmem | ⟨hdefault, habsent⟩ := hshown
  · have hlookup : known.lookup name = some (toJson a) := lookup_eq_some_of_mem hnodup hmem
    rw [optionalField, hlookup]
    cases a with
    | none => rfl
    | some b =>
      change (if toJson b = .null then _ else some <$> fromJson (toJson b)) = _
      rw [hread b rfl]
      by_cases hnull : toJson b = .null <;> simp [rereadOption, Option.filter, hnull]
  · obtain rfl : a = none := Option.isNone_iff_eq_none.mp hdefault
    have hlookup : known.lookup name = none := lookup_eq_none_iff_not_mem.mpr habsent
    rw [optionalField, hlookup]
    rfl

/-- So is an optional field that is left out where it has no value. -/
theorem lawful_ifSome {name : String} {a : Option α}
    (hread : ∀ b ∈ a, fromJson (toJson b) = .ok b) : (ifSome name a).Lawful :=
  fun known hnodup hshown => lawful_option hread known hnodup hshown

/-- So is a field with a default of its own. -/
theorem lawful_defaulted [DecidableEq α] {name : String} {default a : α}
    (hread : fromJson (toJson a) = .ok a) : (defaulted name default a).Lawful := by
  intro known hnodup hshown
  change defaultField known name default = _
  obtain hmem | ⟨hdefault, habsent⟩ := hshown
  · have hlookup : known.lookup name = some (toJson a) := lookup_eq_some_of_mem hnodup hmem
    rw [defaultField, hlookup]
    exact hread
  · obtain rfl : a = default := of_decide_eq_true hdefault
    have hlookup : known.lookup name = none := lookup_eq_none_iff_not_mem.mpr habsent
    rw [defaultField, hlookup]

end

/-- The object has every name of these fields at most once and shows each of them, whatever else it
holds. -/
def ShownBy (slots : List Slot) (j : Json) : Prop :=
  ∃ members, j = .object members ∧
    ((members.map Prod.fst).filter fun name => name ∈ slots.map Slot.name).Nodup ∧
    ∀ s ∈ slots, s.ShownIn members

/-- A record is shown by its own document. -/
theorem shownBy_write {slots : List Slot} (hnames : (slots.map name).Nodup) :
    ShownBy slots (.object (write slots)) :=
  ⟨_, rfl, (nodup_write hnames).filter _, shownIn_write hnames⟩

/-- Where more is shown, less is. -/
theorem ShownBy.mono {slots slots' : List Slot} {j : Json} (h : ShownBy slots j)
    (hsub : slots' ⊆ slots) : ShownBy slots' j := by
  obtain ⟨members, rfl, hnodup, hshown⟩ := h
  refine ⟨members, rfl, ?_, fun s hs => hshown s (hsub hs)⟩
  have hnames : ∀ name, name ∈ slots'.map Slot.name → name ∈ slots.map Slot.name :=
    fun name hname => List.map_subset _ hsub hname
  have hfilter : (members.map Prod.fst).filter (fun name => name ∈ slots'.map Slot.name) =
      ((members.map Prod.fst).filter fun name => name ∈ slots.map Slot.name).filter
        fun name => name ∈ slots'.map Slot.name := by
    rw [List.filter_filter]
    exact List.filter_congr fun name _ => by simpa using hnames name
  rw [hfilter]
  exact hnodup.filter _

/-- Members of other names can be taken out. -/
theorem ShownBy.filter {slots : List Slot} {members : List (String × Json)}
    (h : ShownBy slots (.object members)) (keep : String → Bool)
    (hkeep : ∀ s ∈ slots, keep s.name = true) :
    ShownBy slots (.object (members.filter fun f => keep f.1)) := by
  obtain ⟨_, ⟨⟩, hnodup, hshown⟩ := h
  have hkept : (members.filter fun f => keep f.1).map Prod.fst =
      (members.map Prod.fst).filter keep := by
    rw [List.filter_map]
    rfl
  refine ⟨_, rfl, ?_, fun s hs => ?_⟩
  · rw [hkept, List.filter_filter]
    refine hnodup.sublist (List.monotone_filter_right _ fun name hname => ?_)
    simpa using (Bool.and_eq_true_iff.mp hname).1
  · refine (hshown s hs).imp (fun hmem => ?_) (And.imp_right fun habsent hmem => habsent ?_)
    · exact List.mem_filter.mpr ⟨hmem, hkeep s hs⟩
    · rw [hkept] at hmem
      exact List.mem_of_mem_filter hmem

/-- Members can be put in another order. -/
theorem ShownBy.perm {slots : List Slot} {members members' : List (String × Json)}
    (h : ShownBy slots (.object members)) (hperm : members.Perm members') :
    ShownBy slots (.object members') := by
  obtain ⟨_, ⟨⟩, hnodup, hshown⟩ := h
  have hnames := hperm.map Prod.fst
  refine ⟨_, rfl, (hnames.filter _).nodup_iff.mp hnodup, fun s hs => ?_⟩
  exact (hshown s hs).imp hperm.mem_iff.mp (And.imp_right (mt hnames.mem_iff.mpr))

/-- A member of another name can be added. -/
theorem ShownBy.cons {slots : List Slot} {members : List (String × Json)} {f : String × Json}
    (h : ShownBy slots (.object members)) (hother : f.1 ∉ slots.map name) :
    ShownBy slots (.object (f :: members)) := by
  obtain ⟨_, ⟨⟩, hnodup, hshown⟩ := h
  refine ⟨_, rfl, ?_, fun s hs => ?_⟩
  · rwa [List.map_cons, List.filter_cons_of_neg (by simpa using hother)]
  · have hne : s.name ≠ f.1 := fun heq => hother (heq ▸ List.mem_map_of_mem hs)
    refine (hshown s hs).imp (List.mem_cons_of_mem _) (And.imp_right fun habsent => ?_)
    rw [List.map_cons, List.mem_cons, not_or]
    exact ⟨hne, habsent⟩

/-- A record is read wherever its fields are shown. -/
theorem ShownBy.reads {slots : List Slot} {j : Json} (h : ShownBy slots j)
    (hlawful : ∀ s ∈ slots, s.Lawful) :
    ∃ known, knownMembers (slots.map name) j = .ok known ∧ ∀ s ∈ slots, s.Reads known := by
  obtain ⟨members, rfl, hnodup, hshown⟩ := h
  have hknown : ((members.filter fun f => f.1 ∈ slots.map name).map Prod.fst).Nodup := by
    have hfilter : (members.filter fun f => f.1 ∈ slots.map name).map Prod.fst =
        (members.map Prod.fst).filter fun name => name ∈ slots.map Slot.name := by
      rw [List.filter_map]
      rfl
    rwa [hfilter]
  refine ⟨_, if_pos hknown, fun s hs => hlawful s hs _ hknown ?_⟩
  refine (hshown s hs).imp (fun hmem => ?_) (And.imp_right fun habsent hmem => habsent ?_)
  · exact List.mem_filter.mpr ⟨hmem, by simpa using List.mem_map_of_mem hs⟩
  · exact (List.filter_sublist.map _).subset hmem

end Slot

/-! ### Records that are passed on -/

/-- A document that comes of another when readers pass on what they read. Each writes a document
that shows it, in an order of its own and with members that the next reader may not know. -/
inductive Forwarded {α : Type} [Deserialize α] (slots : α → List Slot) : Json → Json → Prop where
  | refl (j : Json) : Forwarded slots j j
  | pass {j j' j'' : Json} {a : α} (h : Forwarded slots j j') (hread : fromJson j' = .ok a)
      (hshown : Slot.ShownBy (slots a) j'') : Forwarded slots j j''

/-- What is read stays the same however often it is passed on. -/
theorem Forwarded.fromJson_eq {α : Type} [Deserialize α] {slots : α → List Slot} {j j' : Json}
    {a : α} (h : Forwarded slots j j')
    (hpass : ∀ (i i' : Json) (b : α), fromJson i = .ok b → Slot.ShownBy (slots b) i' →
      fromJson i' = .ok b) (hread : fromJson j = .ok a) : fromJson j' = .ok a := by
  induction h with
  | refl => exact hread
  | pass _ hread' hshown ih =>
    obtain rfl := Except.ok.inj (hread'.symm.trans ih)
    exact hpass _ _ _ hread' hshown

end ClavenarSdk
