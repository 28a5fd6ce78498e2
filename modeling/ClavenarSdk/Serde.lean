import ClavenarSdk.Json.Value
import ClavenarSdk.Uuid

/-!
# Derived serialization

`serde` writes a derived struct as an object with its fields in declaration order. A struct
with `deny_unknown_fields` is read from an object with each declared field at most once and
no others, or from an array with one item for each field. A missing or `null` field is read
as `None` where an `Option` is expected, and a missing field is an error elsewhere.
-/

namespace ClavenarSdk

/-- Why a text or document could not be decoded. -/
inductive DecodeError where
  | syntaxError (message : String)
  | invalidType
  | invalidValue
  | invalidLength
  | unknownField (name : String)
  | duplicateField
  | missingField (name : String)
  deriving DecidableEq

/-- `serde::Serialize`. -/
class Serialize (α : Type) where
  toJson : α → Json

/-- `serde::Deserialize`. -/
class Deserialize (α : Type) where
  fromJson : Json → Except DecodeError α

export Serialize (toJson)
export Deserialize (fromJson)

instance : Serialize String := ⟨.string⟩

instance : Deserialize String where
  fromJson
    | .string s => .ok s
    | _ => .error .invalidType

instance : Serialize Bool := ⟨.bool⟩

instance : Deserialize Bool where
  fromJson
    | .bool b => .ok b
    | _ => .error .invalidType

instance : Serialize Value := ⟨Value.json⟩

instance : Deserialize Value := ⟨fun v => .ok (.ofJson v)⟩

instance : Serialize Uuid := ⟨fun u => .string u.toText⟩

instance : Deserialize Uuid where
  fromJson
    | .string s =>
      match Uuid.parse s with
      | some u => .ok u
      | none => .error .invalidValue
    | _ => .error .invalidType

/-- Read an integer in a half-open range. -/
def decodeInt {α : Type} (low high : ℤ) (ofInt : ℤ → α) : Json → Except DecodeError α
  | .number (.int n) => if low ≤ n ∧ n < high then .ok (ofInt n) else .error .invalidValue
  | _ => .error .invalidType

instance : Serialize UInt8 := ⟨fun n => .number (.int n.toNat)⟩

instance : Deserialize UInt8 := ⟨decodeInt 0 (2 ^ 8) fun n => .ofNat n.toNat⟩

instance : Serialize UInt64 := ⟨fun n => .number (.int n.toNat)⟩

instance : Deserialize UInt64 := ⟨decodeInt 0 (2 ^ 64) fun n => .ofNat n.toNat⟩

instance : Serialize Int64 := ⟨fun n => .number (.int n.toInt)⟩

instance : Deserialize Int64 := ⟨decodeInt (-2 ^ 63) (2 ^ 63) Int64.ofInt⟩

instance {α : Type} [Serialize α] : Serialize (List α) := ⟨fun items => .array (items.map toJson)⟩

instance {α : Type} [Serialize α] : Serialize (Option α) := ⟨fun a => (a.map toJson).getD .null⟩

instance {α : Type} [Deserialize α] : Deserialize (List α) where
  fromJson
    | .array items => items.mapM fromJson
    | _ => .error .invalidType

/-- Texts survive serialization. -/
@[simp] theorem string_roundTrips (s : String) : fromJson (toJson s) = .ok s := rfl

/-- Truth values survive serialization. -/
@[simp] theorem bool_roundTrips (b : Bool) : fromJson (toJson b) = .ok b := rfl

/-- Opaque values survive serialization. -/
@[simp] theorem value_roundTrips (v : Value) : fromJson (toJson v) = .ok v := by
  simp [toJson, fromJson]

/-- Identifiers survive serialization. -/
@[simp] theorem uuid_roundTrips (u : Uuid) : fromJson (toJson u) = .ok u := by
  simp [toJson, fromJson, Uuid.parse_toText]

/-- Bytes survive serialization. -/
@[simp] theorem uint8_roundTrips (n : UInt8) : fromJson (toJson n) = .ok n := by
  have hlt : n.toNat < 2 ^ 8 := n.toNat_lt
  have hrange : (0 : ℤ) ≤ n.toNat ∧ (n.toNat : ℤ) < 2 ^ 8 := by omega
  simp only [toJson, fromJson, decodeInt, if_pos hrange, Int.toNat_natCast,
    UInt8.ofNat_toNat]

/-- Unsigned integers survive serialization. -/
@[simp] theorem uint64_roundTrips (n : UInt64) : fromJson (toJson n) = .ok n := by
  have hlt : n.toNat < 2 ^ 64 := n.toNat_lt
  have hrange : (0 : ℤ) ≤ n.toNat ∧ (n.toNat : ℤ) < 2 ^ 64 := by omega
  simp only [toJson, fromJson, decodeInt, if_pos hrange, Int.toNat_natCast,
    UInt64.ofNat_toNat]

/-- Signed integers survive serialization. -/
@[simp] theorem int64_roundTrips (n : Int64) : fromJson (toJson n) = .ok n := by
  have hrange : (-2 ^ 63 : ℤ) ≤ n.toInt ∧ n.toInt < 2 ^ 63 := ⟨n.le_toInt, n.toInt_lt⟩
  simp only [toJson, fromJson, decodeInt, if_pos hrange, Int64.ofInt_toInt]

/-- A list of values that survive serialization survives it. -/
theorem list_roundTrips {α : Type} [Serialize α] [Deserialize α] {items : List α}
    (h : ∀ a ∈ items, fromJson (toJson a) = .ok a) :
    fromJson (toJson items) = .ok items := by
  change (items.map toJson).mapM fromJson = (.ok items : Except DecodeError _)
  induction items with
  | nil => rfl
  | cons a items ih =>
    rw [List.map_cons, List.mapM_cons, h a (by simp),
      ih fun a ha => h a (List.mem_cons_of_mem _ ha)]
    rfl

/-! ### Structs -/

/-- The members of a derived struct, by name, from its object or its positional form. -/
def structMembers (names : List String) : Json → Except DecodeError (List (String × Json))
  | .object members =>
    match members.find? fun m => m.1 ∉ names with
    | some m => .error (.unknownField m.1)
    | none => if (members.map Prod.fst).Nodup then .ok members else .error .duplicateField
  | .array items =>
    if items.length = names.length then .ok (names.zip items) else .error .invalidLength
  | _ => .error .invalidType

/-- A field that must be present. -/
def requiredField {α : Type} [Deserialize α] (members : List (String × Json)) (name : String) :
    Except DecodeError α :=
  match members.lookup name with
  | some v => fromJson v
  | none => .error (.missingField name)

/-- A field of type `Option`: missing and `null` mean `None`. -/
def optionalField {α : Type} [Deserialize α] (members : List (String × Json)) (name : String) :
    Except DecodeError (Option α) :=
  match members.lookup name with
  | none => .ok none
  | some v => if v = .null then .ok none else some <$> fromJson v

/-- An object with distinct declared names is read as it stands. -/
theorem structMembers_object {names : List String} {members : List (String × Json)}
    (hnames : ∀ name ∈ members.map Prod.fst, name ∈ names)
    (hnodup : (members.map Prod.fst).Nodup) :
    structMembers names (.object members) = .ok members := by
  have hfind : members.find? (fun m => m.1 ∉ names) = none := by
    simp only [List.find?_eq_none, decide_eq_true_eq, not_not]
    exact fun m hm => hnames m.1 (List.mem_map.mpr ⟨m, hm, rfl⟩)
  simp only [structMembers, hfind, hnodup, if_true]

/-- A required field is the first member of its name. -/
@[simp] theorem requiredField_cons {α : Type} [Deserialize α] (name name' : String) (v : Json)
    (members : List (String × Json)) :
    (requiredField ((name', v) :: members) name : Except DecodeError α) =
      if name = name' then fromJson v else requiredField members name := by
  by_cases h : name = name'
  · simp [requiredField, h]
  · simp [requiredField, List.lookup_cons, beq_false_of_ne h, h]

/-- An optional field may be missing. -/
@[simp] theorem optionalField_nil {α : Type} [Deserialize α] (name : String) :
    (optionalField [] name : Except DecodeError (Option α)) = .ok none := rfl

/-- An optional field is the first member of its name. -/
@[simp] theorem optionalField_cons {α : Type} [Deserialize α] (name name' : String) (v : Json)
    (members : List (String × Json)) :
    (optionalField ((name', v) :: members) name : Except DecodeError (Option α)) =
      if name = name' then (if v = .null then .ok none else some <$> fromJson v)
      else optionalField members name := by
  by_cases h : name = name'
  · simp [optionalField, h]
  · simp [optionalField, List.lookup_cons, beq_false_of_ne h, h]

/-! ### Reading one field after the other -/

/-- A computation goes on with the value of what succeeded. -/
@[simp] theorem ok_bind {ε α β : Type} (a : α) (f : α → Except ε β) :
    (Except.ok a >>= f) = f a := by
  simp only [bind, Except.bind]

/-- An error ends a computation. -/
@[simp] theorem error_bind {ε α β : Type} (e : ε) (f : α → Except ε β) :
    (Except.error e >>= f) = .error e := rfl

/-- A value is mapped. -/
@[simp] theorem ok_map {ε α β : Type} (a : α) (f : α → β) :
    (f <$> (Except.ok a : Except ε α)) = .ok (f a) := rfl

/-- A pure computation succeeds. -/
@[simp] theorem pure_eq_ok {ε α : Type} (a : α) : (pure a : Except ε α) = .ok a := rfl

/-- Mapping the error does not touch success. -/
theorem mapError_eq_ok_iff {ε ε' α : Type} {x : Except ε α} {f : ε → ε'} {a : α} :
    x.mapError f = .ok a ↔ x = .ok a := by
  cases x <;> simp [Except.mapError]

/-- Two computations succeed one after the other if the second one does on the value of the first.
-/
theorem bind_eq_ok_iff {ε α β : Type} {x : Except ε α} {f : α → Except ε β} {b : β} :
    (x >>= f) = .ok b ↔ ∃ a, x = .ok a ∧ f a = .ok b := by
  cases x <;> simp

/-! ### The documents that a struct is read from -/

/-- The document has these fields: an object with each of them once, in any order, or the
array of their values in declaration order. -/
def SpellsStruct (fields : List (String × Json)) (j : Json) : Prop :=
  j = .array (fields.map Prod.snd) ∨ ∃ members, j = .object members ∧ members.Perm fields

/-- What is looked up is a member. -/
theorem mem_of_lookup_eq_some {members : List (String × Json)} {name : String} {v : Json}
    (h : members.lookup name = some v) : (name, v) ∈ members := by
  obtain ⟨before, after, rfl, -⟩ := List.lookup_eq_some_iff.mp h
  simp

/-- Looking up every name of a list reads the zipped items back. -/
theorem eq_map_snd_of_lookup_zip {fields : List (String × Json)} {items : List Json}
    (hnames : (fields.map Prod.fst).Nodup) (hlength : items.length = fields.length)
    (h : ∀ f ∈ fields, ((fields.map Prod.fst).zip items).lookup f.1 = some f.2) :
    items = fields.map Prod.snd := by
  induction fields generalizing items with
  | nil => simpa using hlength
  | cons f fields ih =>
    obtain ⟨v, items, rfl⟩ := List.exists_cons_of_length_eq_add_one hlength
    have hhead := h f (by simp)
    simp only [List.map_cons, List.zip_cons_cons, List.lookup_cons_self, Option.some.injEq] at hhead
    rw [List.map_cons, hhead]
    rw [List.map_cons, List.nodup_cons] at hnames
    congr 1
    refine ih hnames.2 (by simpa using hlength) fun f' hf' => ?_
    have hne : f'.1 ≠ f.1 := fun heq => hnames.1 (heq ▸ List.mem_map_of_mem hf')
    have htail := h f' (by simp [hf'])
    simpa [List.lookup_cons, beq_false_of_ne hne] using htail

/-- A struct is read from exactly the documents with its fields. -/
theorem spellsStruct_iff {fields : List (String × Json)} {j : Json}
    (hnames : (fields.map Prod.fst).Nodup) :
    SpellsStruct fields j ↔ ∃ members, structMembers (fields.map Prod.fst) j = .ok members ∧
      ∀ f ∈ fields, members.lookup f.1 = some f.2 := by
  have hown : ∀ f ∈ fields, fields.lookup f.1 = some f.2 := fun f hf =>
    lookup_eq_some_of_mem hnames hf
  constructor
  · rintro (rfl | ⟨members, rfl, hperm⟩)
    · refine ⟨fields, ?_, hown⟩
      have hzip := (List.zip_of_prod rfl rfl : fields = _)
      simp [structMembers, ← hzip]
    · have hkeys := hperm.map Prod.fst
      refine ⟨members, structMembers_object (fun name => hkeys.mem_iff.mp)
        (hkeys.nodup_iff.mpr hnames), fun f hf => ?_⟩
      exact lookup_eq_some_of_mem (hkeys.nodup_iff.mpr hnames) (hperm.mem_iff.mpr hf)
  · rintro ⟨members, hmembers, hlookup⟩
    cases j with
    | object members' =>
      simp only [structMembers] at hmembers
      split at hmembers
      · simp at hmembers
      · next hknown =>
        split_ifs at hmembers with hnodup
        obtain rfl := Except.ok.inj hmembers
        refine .inr ⟨members', rfl, ?_⟩
        refine (List.perm_ext_iff_of_nodup (.of_map _ hnodup) (.of_map _ hnames)).mpr fun m => ?_
        refine ⟨fun hm => ?_, fun hm => mem_of_lookup_eq_some (hlookup m hm)⟩
        have hdeclared : m.1 ∈ fields.map Prod.fst := by
          simpa using List.find?_eq_none.mp hknown m hm
        obtain ⟨f, hf, hname⟩ := List.mem_map.mp hdeclared
        have hvalue := hlookup f hf
        rw [hname, lookup_eq_some_of_mem hnodup hm, Option.some.injEq] at hvalue
        rwa [show m = f from Prod.ext hname.symm hvalue]
    | array items =>
      simp only [structMembers] at hmembers
      split_ifs at hmembers with hlength
      obtain rfl := Except.ok.inj hmembers
      rw [List.length_map] at hlength
      exact .inl (congrArg _ (eq_map_snd_of_lookup_zip hnames hlength hlookup))
    | null | bool | number | string => simp [structMembers] at hmembers

/-- An object that is read into a value keeps its fields. -/
theorem spellsStruct_normalize {fields fields' : List (String × Json)}
    (hnames : (fields.map Prod.fst).Nodup)
    (hfields : (fields.map fun f => (f.1, f.2.normalize)) = fields') :
    SpellsStruct fields' (Json.object fields).normalize :=
  .inr ⟨_, rfl, hfields ▸ Json.normalizeMembers_perm hnames⟩

/-- Two sorted objects with the same fields are equal. -/
theorem SpellsStruct.eq_of_sorted {fields members members' : List (String × Json)}
    (h : SpellsStruct fields (.object members)) (h' : SpellsStruct fields (.object members'))
    (hsorted : (Json.object members).Sorted) (hsorted' : (Json.object members').Sorted) :
    members = members' := by
  obtain ⟨⟨⟩⟩ | ⟨_, ⟨⟩, hperm⟩ := h
  obtain ⟨⟨⟩⟩ | ⟨_, ⟨⟩, hperm'⟩ := h'
  cases hsorted with
  | object hnames _ =>
  cases hsorted' with
  | object hnames' _ =>
    have hasymm : ∀ a b : String × Json, a ∈ members → b ∈ members' → a.1 < b.1 → b.1 < a.1 →
        a = b := fun a b _ _ hlt hlt' => absurd hlt (lt_asymm hlt')
    exact List.Perm.eq_of_pairwise hasymm (List.pairwise_map.mp hnames)
      (List.pairwise_map.mp hnames') (hperm.trans hperm'.symm)

/-- An object of fields has exactly these members. -/
theorem SpellsStruct.mem {fields members : List (String × Json)} {m : String × Json}
    (h : SpellsStruct fields (.object members)) : m ∈ members ↔ m ∈ fields := by
  obtain ⟨⟨⟩⟩ | ⟨_, ⟨⟩, hperm⟩ := h
  exact hperm.mem_iff

/-- A required field is read from the member that is found under its name. -/
theorem requiredField_eq_ok_iff {α : Type} [Deserialize α] {members : List (String × Json)}
    {name : String} {a : α} :
    requiredField members name = .ok a ↔
      ∃ v, members.lookup name = some v ∧ fromJson v = .ok a := by
  unfold requiredField
  cases members.lookup name <;> simp

/-- A text is read from itself only. -/
theorem string_fromJson_eq_ok_iff {j : Json} {s : String} :
    fromJson j = .ok s ↔ j = .string s := by
  cases j <;> simp [fromJson]

/-- An opaque value is read from every document of it. -/
theorem value_fromJson_eq_ok_iff {j : Json} {v : Value} : fromJson j = .ok v ↔ .ofJson j = v := by
  simp [fromJson]

/-- `null` is not read as a value of an optional field of any type. -/
theorem optionalField_value_ne_null {members : List (String × Json)} {name : String} {v : Value}
    (h : optionalField members name = .ok (some v)) : v.json ≠ .null := by
  unfold optionalField at h
  cases hlookup : members.lookup name with
  | none => simp [hlookup] at h
  | some w =>
    by_cases hnull : w = .null
    · simp [hlookup, hnull] at h
    · simp only [hlookup, hnull, if_false, fromJson, ok_map, Except.ok.injEq,
        Option.some.injEq] at h
      rw [← h]
      exact fun hnormalize => hnull (Json.normalize_eq_null_iff.mp hnormalize)

/-- A list is read item by item from an array. -/
theorem list_fromJson_eq_ok_iff {α : Type} [Deserialize α] {j : Json} {as : List α} :
    fromJson j = .ok as ↔
      ∃ items, j = .array items ∧ List.Forall₂ (fun item a => fromJson item = .ok a) items as := by
  have hitems : ∀ (items : List Json), items.mapM fromJson = .ok as ↔
      List.Forall₂ (fun item a => fromJson item = .ok a) items as := by
    intro items
    induction items generalizing as with
    | nil => simp [eq_comm]
    | cons item items ih =>
      simp only [List.mapM_cons, bind_eq_ok_iff, pure_eq_ok, Except.ok.injEq,
        List.forall₂_cons_left_iff, ih]
      constructor
      · rintro ⟨a, ha, as, has, rfl⟩
        exact ⟨a, as, ha, has, rfl⟩
      · rintro ⟨a, as, ha, has, rfl⟩
        exact ⟨a, ha, as, has, rfl⟩
  cases j with
  | array items => exact (hitems items).trans (by simp)
  | null | bool | number | string | object => simp [fromJson]

end ClavenarSdk
