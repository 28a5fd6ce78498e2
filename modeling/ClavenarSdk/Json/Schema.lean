import ClavenarSdk.Json.Value

/-!
# JSON schemas

The part of JSON Schema that describes objects with typed members. A schema decides which
documents it accepts. Its patterns are anchored at the start and made of parts of fixed lengths,
so that there is one way to match them.
-/

namespace ClavenarSdk

/-! ### Patterns -/

/-- A part of a regular expression: a text, or so many characters of a class of ranges. -/
inductive PatternPart where
  | text (s : String)
  | chars (ranges : List (Char × Char)) (count : ℕ)

namespace PatternPart

/-- How many characters the part takes. -/
def length : PatternPart → ℕ
  | text s => s.toList.length
  | chars _ count => count

/-- The part takes these characters. -/
def takes : PatternPart → List Char → Bool
  | text s, cs => cs == s.toList
  | chars ranges count, cs =>
    cs.length == count && cs.all fun c => ranges.any fun range => range.1 ≤ c && c ≤ range.2

/-- A part of a pattern takes as many characters as it has. -/
theorem length_of_takes {part : PatternPart} {cs : List Char} (h : part.takes cs = true) :
    cs.length = part.length := by
  cases part with
  | text s => rw [length, eq_of_beq h]
  | chars ranges count => exact eq_of_beq (Bool.and_eq_true_iff.mp h).1

end PatternPart

/-- A regular expression that is anchored at the start, and perhaps at the end. -/
structure Pattern where
  parts : List PatternPart
  toEnd : Bool

namespace Pattern

/-- What is left of a text after these parts. -/
def rest : List PatternPart → List Char → Option (List Char)
  | [], cs => some cs
  | part :: parts, cs =>
    if part.takes (cs.take part.length) then rest parts (cs.drop part.length) else none

/-- The text matches the pattern. -/
def accepts (pattern : Pattern) (s : String) : Bool :=
  (rest pattern.parts s.toList).any fun left => !pattern.toEnd || left.isEmpty

/-- What a part takes is left out of the rest. -/
theorem rest_append {part : PatternPart} {cs : List Char} (h : part.takes cs = true)
    (parts : List PatternPart) (left : List Char) :
    rest (part :: parts) (cs ++ left) = rest parts left := by
  have hlength := PatternPart.length_of_takes h
  rw [rest, ← hlength, List.take_left, List.drop_left, if_pos h]

/-- A pattern is matched by what its parts take, one after the other. -/
theorem accepts_iff {pattern : Pattern} {s : String} :
    pattern.accepts s = true ↔ ∃ pieces left, s.toList = pieces.flatten ++ left ∧
      List.Forall₂ (fun part piece => part.takes piece = true) pattern.parts pieces ∧
      (pattern.toEnd = true → left = []) := by
  have hrest : ∀ (parts : List PatternPart) (cs left : List Char), rest parts cs = some left ↔
      ∃ pieces, cs = pieces.flatten ++ left ∧
        List.Forall₂ (fun part piece => part.takes piece = true) parts pieces := by
    intro parts
    induction parts with
    | nil =>
      intro cs left
      simp only [rest, Option.some.injEq, List.forall₂_nil_left_iff, exists_eq_right,
        List.flatten_nil, List.nil_append]
    | cons part parts ih =>
      intro cs left
      constructor
      · intro h
        rw [rest] at h
        split_ifs at h with htakes
        obtain ⟨pieces, hcs, hpieces⟩ := (ih _ _).mp h
        refine ⟨cs.take part.length :: pieces, ?_, .cons htakes hpieces⟩
        rw [List.flatten_cons, List.append_assoc, ← hcs, List.take_append_drop]
      · rintro ⟨_, rfl, _ | ⟨htakes, hpieces⟩⟩
        rw [List.flatten_cons, List.append_assoc, rest_append htakes]
        exact (ih _ _).mpr ⟨_, rfl, hpieces⟩
  rw [accepts, Option.any_eq_true]
  constructor
  · rintro ⟨left, hleft, hend⟩
    obtain ⟨pieces, htext, hpieces⟩ := (hrest _ _ _).mp hleft
    exact ⟨pieces, left, htext, hpieces, fun h => by simpa [h] using hend⟩
  · rintro ⟨pieces, left, htext, hpieces, hend⟩
    refine ⟨left, (hrest _ _ _).mpr ⟨pieces, htext, hpieces⟩, ?_⟩
    cases h : pattern.toEnd with
    | false => rfl
    | true => simp [hend h]

end Pattern

/-! ### Schemas -/

/-- A schema. Lengths count characters. An integer is written without a fraction. -/
inductive Schema where
  /-- `const`, of a string. -/
  | const (s : String)
  /-- `type: string` with `minLength`, `maxLength` and `pattern`. -/
  | string (minLength : ℕ) (maxLength : Option ℕ) (pattern : Option Pattern)
  /-- `type: integer` with `minimum`. -/
  | integer (minimum : ℤ)
  /-- `type: object` with `required`, `properties` and `additionalProperties`. -/
  | object (required : List String) (properties : List (String × Schema)) (additional : Bool)
  /-- Another type beside `null`. -/
  | nullable (schema : Schema)

namespace Schema

mutual

/-- The document conforms to the schema. -/
def accepts : Schema → Json → Bool
  | .const s, .string t => t == s
  | .string minLength maxLength pattern, .string s =>
    minLength ≤ s.length && maxLength.all (s.length ≤ ·) && pattern.all (·.accepts s)
  | .integer minimum, .number (.int n) => minimum ≤ n
  | .object required properties additional, .object members =>
    required.all (fun name => members.any fun m => m.1 == name) &&
      members.all fun m => acceptsMember properties additional m.1 m.2
  | .nullable schema, v => v == .null || schema.accepts v
  | _, _ => false

/-- The value conforms to the property of this name, or is a member that is not described. -/
def acceptsMember : List (String × Schema) → Bool → String → Json → Bool
  | [], additional, _, _ => additional
  | (key, schema) :: properties, additional, name, v =>
    if name = key then schema.accepts v else acceptsMember properties additional name v

end

/-- A constant is the only document that conforms to it. -/
@[simp] theorem accepts_const_iff {s : String} {v : Json} :
    (Schema.const s).accepts v = true ↔ v = .string s := by
  cases v <;> simp [accepts]

/-- Texts conform by their length and pattern. -/
@[simp] theorem accepts_string_iff {minLength : ℕ} {maxLength : Option ℕ}
    {pattern : Option Pattern} {v : Json} :
    (Schema.string minLength maxLength pattern).accepts v = true ↔ ∃ s, v = .string s ∧
      minLength ≤ s.length ∧ (∀ n ∈ maxLength, s.length ≤ n) ∧
        ∀ p ∈ pattern, p.accepts s = true := by
  cases v with
  | string s => cases maxLength <;> cases pattern <;> simp [accepts, and_assoc]
  | null | bool | number | array | object => simp [accepts]

/-- Integers conform from the minimum on. -/
@[simp] theorem accepts_integer_iff {minimum : ℤ} {v : Json} :
    (Schema.integer minimum).accepts v = true ↔ ∃ n, v = .number (.int n) ∧ minimum ≤ n := by
  cases v with
  | number n => cases n <;> simp [accepts]
  | null | bool | string | array | object => simp [accepts]

/-- Objects conform with the required names and members that conform. -/
theorem accepts_object_iff {required : List String} {properties : List (String × Schema)}
    {additional : Bool} {v : Json} :
    (Schema.object required properties additional).accepts v = true ↔ ∃ members,
      v = .object members ∧ (∀ name ∈ required, name ∈ members.map Prod.fst) ∧
        ∀ m ∈ members, acceptsMember properties additional m.1 m.2 = true := by
  cases v <;> simp [accepts]

/-- A nullable schema also takes `null`. -/
theorem accepts_nullable_iff {schema : Schema} {v : Json} :
    (Schema.nullable schema).accepts v = true ↔ v = .null ∨ schema.accepts v = true := by
  rw [accepts, Bool.or_eq_true, beq_iff_eq]

/-- A member conforms to the schema of its name, and without one where others are allowed. -/
theorem acceptsMember_eq {properties : List (String × Schema)} {additional : Bool} {name : String}
    {v : Json} : acceptsMember properties additional name v =
      ((properties.lookup name).map fun schema => schema.accepts v).getD additional := by
  induction properties with
  | nil => rfl
  | cons property properties ih =>
    obtain ⟨key, schema⟩ := property
    by_cases h : name = key
    · simp [acceptsMember, h]
    · rw [acceptsMember, if_neg h, ih, List.lookup_cons, beq_false_of_ne h]

/-- An object is accepted if its members conform to properties and none is missing. -/
theorem accepts_of_forall {required : List String} {properties : List (String × Schema)}
    {additional : Bool} {members : List (String × Json)}
    (hrequired : ∀ name ∈ required, name ∈ members.map Prod.fst)
    (h : ∀ m ∈ members, ∃ schema, properties.lookup m.1 = some schema ∧ schema.accepts m.2 = true) :
    (Schema.object required properties additional).accepts (.object members) = true := by
  refine accepts_object_iff.mpr ⟨members, rfl, hrequired, fun m hm => ?_⟩
  obtain ⟨schema, hproperty, haccepts⟩ := h m hm
  rw [acceptsMember_eq, hproperty]
  exact haccepts

/-- A member of an accepted object conforms to the property of its name. -/
theorem accepts_of_mem (name : String) (v : Json) {required : List String}
    {properties : List (String × Schema)} {additional : Bool} {members : List (String × Json)}
    (h : (Schema.object required properties additional).accepts (.object members) = true)
    (hmem : (name, v) ∈ members) {schema : Schema}
    (hproperty : properties.lookup name = some schema) : schema.accepts v = true := by
  obtain ⟨_, ⟨⟩, -, hmembers⟩ := accepts_object_iff.mp h
  have hmember := hmembers _ hmem
  rwa [acceptsMember_eq, hproperty] at hmember

/-! ### Conforming values -/

/-- Inserting a member adds its name. -/
theorem mem_map_fst_insertMember {key : String} {v : Json} {members : List (String × Json)}
    {name : String} : name ∈ (Json.insertMember key v members).map Prod.fst ↔
      name = key ∨ name ∈ members.map Prod.fst := by
  induction members with
  | nil => simp [Json.insertMember]
  | cons m members ih =>
    rw [Json.insertMember_cons]
    split_ifs with hlt heq
    · simp
    · simp [heq]
    · rw [List.map_cons, List.mem_cons, ih, List.map_cons, List.mem_cons]
      exact or_left_comm

/-- Normalizing members keeps their names. -/
theorem mem_map_fst_normalizeMembers {members : List (String × Json)} {name : String} :
    name ∈ (Json.normalizeMembers members).map Prod.fst ↔ name ∈ members.map Prod.fst := by
  induction members with
  | nil => rfl
  | cons m members ih =>
    rw [Json.normalizeMembers, mem_map_fst_insertMember, ih, List.map_cons, List.mem_cons]

mutual

/-- Reading a document into a value keeps it in conformance. -/
theorem accepts_normalize (schema : Schema) {v : Json} (h : schema.accepts v = true) :
    schema.accepts v.normalize = true := by
  match schema with
  | .const s =>
    obtain rfl := accepts_const_iff.mp h
    exact h
  | .string minLength maxLength pattern =>
    obtain ⟨s, rfl, -⟩ := accepts_string_iff.mp h
    exact h
  | .integer minimum =>
    obtain ⟨n, rfl, -⟩ := accepts_integer_iff.mp h
    exact h
  | .object required properties additional =>
    obtain ⟨members, rfl, hrequired, hmembers⟩ := accepts_object_iff.mp h
    refine accepts_object_iff.mpr ⟨_, rfl, fun name hname => ?_, fun m hm => ?_⟩
    · exact mem_map_fst_normalizeMembers.mpr (hrequired name hname)
    · obtain ⟨m', hm', rfl⟩ := Json.mem_normalizeMembers hm
      exact acceptsMember_normalize properties (hmembers m' hm')
  | .nullable schema =>
    rcases accepts_nullable_iff.mp h with rfl | h
    · exact accepts_nullable_iff.mpr (.inl rfl)
    · exact accepts_nullable_iff.mpr (.inr (accepts_normalize schema h))

/-- A member that conforms does so normalized. -/
theorem acceptsMember_normalize (properties : List (String × Schema)) {additional : Bool}
    {name : String} {v : Json} (h : acceptsMember properties additional name v = true) :
    acceptsMember properties additional name v.normalize = true := by
  match properties with
  | [] => exact h
  | (key, schema) :: properties =>
    rw [acceptsMember] at h ⊢
    split_ifs at h ⊢ with hname
    · exact accepts_normalize schema h
    · exact acceptsMember_normalize properties h

end

end Schema

end ClavenarSdk
