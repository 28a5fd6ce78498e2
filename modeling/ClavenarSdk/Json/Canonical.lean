import ClavenarSdk.Json.Basic
import ClavenarSdk.Encoding.Readable

/-!
# Canonical JSON text

`canonical_json_value` of `execution.rs` writes a document without white space and with the
members of every object sorted by name. Strings and numbers are written as `serde_json`
writes them. The text determines the document up to the stored order of members.
-/

namespace ClavenarSdk

open Encoding

/-! ### Strings and numbers as `serde_json` writes them -/

/-- One character inside a JSON string literal: quotes, backslashes and control characters
are escaped, everything else is written as it is. -/
def escapeChar (c : Char) : List Char :=
  if c = '\"' then ['\\', '\"']
  else if c = '\\' then ['\\', '\\']
  else if c = '\x08' then ['\\', 'b']
  else if c = '\t' then ['\\', 't']
  else if c = '\n' then ['\\', 'n']
  else if c = '\x0c' then ['\\', 'f']
  else if c = '\r' then ['\\', 'r']
  else if c.toNat < 32 then
    ['\\', 'u', '0', '0', Nat.digitChar (c.toNat / 16), Nat.digitChar (c.toNat % 16)]
  else [c]

/-- A string as a JSON literal. -/
def quote (s : String) : String := "\"" ++ String.ofList (s.toList.flatMap escapeChar) ++ "\""

/-- The text of a number. -/
def Number.text : Number → String
  | .int n => n.repr
  | .float text => text

/-! ### The text of a document -/

mutual

/-- `canonical_json_value`. -/
def canonicalJsonValue : Json → String
  | .null => "null"
  | .bool b => if b then "true" else "false"
  | .number n => n.text
  | .string s => quote s
  | .array items => "[" ++ ",".intercalate (canonicalItems items) ++ "]"
  | .object members =>
    let encoded := canonicalMembers members
    let keys := (encoded.map Prod.fst).insertionSort (· ≤ ·)
    "\x7b" ++ ",".intercalate (keys.map fun key =>
      quote key ++ ":" ++ (encoded.lookup key).getD "") ++ "\x7d"

/-- The canonical texts of the items of an array. -/
def canonicalItems : List Json → List String
  | [] => []
  | v :: items => canonicalJsonValue v :: canonicalItems items

/-- The members of an object with the canonical texts of their values. -/
def canonicalMembers : List (String × Json) → List (String × String)
  | [] => []
  | (key, v) :: members => (key, canonicalJsonValue v) :: canonicalMembers members

end

mutual

/-- The compact text of a document in its stored order, as `serde_json::to_string` writes
it. -/
def Json.text : Json → String
  | .null => "null"
  | .bool b => if b then "true" else "false"
  | .number n => n.text
  | .string s => quote s
  | .array items => "[" ++ ",".intercalate (textItems items) ++ "]"
  | .object members => "\x7b" ++ ",".intercalate (textMembers members) ++ "\x7d"

/-- The compact texts of the items of an array. -/
def Json.textItems : List Json → List String
  | [] => []
  | v :: items => v.text :: textItems items

/-- The compact texts of the members of an object. -/
def Json.textMembers : List (String × Json) → List String
  | [] => []
  | (key, v) :: members => (quote key ++ ":" ++ v.text) :: textMembers members

end

example : canonicalJsonValue (.object [("z", .number (.int 1)),
    ("a", .object [("y", .number (.int 2)), ("b", .number (.int 3))])]) =
    "\x7b\"a\":\x7b\"b\":3,\"y\":2\x7d,\"z\":1\x7d" := by rfl

/-- Items are written one by one. -/
theorem canonicalItems_eq_map (items : List Json) :
    canonicalItems items = items.map canonicalJsonValue := by
  induction items with
  | nil => rfl
  | cons v items ih => simp [canonicalItems, ih]

/-- Members are written one by one. -/
theorem canonicalMembers_eq_map (members : List (String × Json)) :
    canonicalMembers members = members.map fun m => (m.1, canonicalJsonValue m.2) := by
  induction members with
  | nil => rfl
  | cons m members ih => simp [canonicalMembers, ih]

/-! ### Members in the order of their names -/

/-- The members of an object in the order in which `canonical_json_value` writes them. -/
def sortedMembers (members : List (String × Json)) : List (String × Json) :=
  ((members.map Prod.fst).insertionSort (· ≤ ·)).map fun key =>
    (key, (members.lookup key).getD .null)

/-- One member of an object as it is written. -/
def canonicalMember (m : String × Json) : String := quote m.1 ++ ":" ++ canonicalJsonValue m.2

/-- Distinct names make a member the one found under its name. -/
theorem lookup_eq_some_of_mem {β : Type} {members : List (String × β)} {name : String} {v : β}
    (hnames : (members.map Prod.fst).Nodup) (h : (name, v) ∈ members) :
    members.lookup name = some v := by
  induction members with
  | nil => simp at h
  | cons m members ih =>
    obtain ⟨name', w⟩ := m
    simp only [List.map_cons, List.nodup_cons] at hnames
    rcases List.mem_cons.mp h with heq | hmem
    · simp only [Prod.mk.injEq] at heq
      simp [heq.1, heq.2]
    · have hne : name ≠ name' := by
        rintro rfl
        exact hnames.1 (List.mem_map.mpr ⟨_, hmem, rfl⟩)
      rw [List.lookup_cons, beq_false_of_ne hne]
      exact ih hnames.2 hmem

/-- Looking up a name commutes with a change of the values. -/
theorem lookup_map_snd {β γ : Type} (members : List (String × β)) (f : β → γ) (name : String) :
    (members.map fun m => (m.1, f m.2)).lookup name = (members.lookup name).map f := by
  induction members with
  | nil => rfl
  | cons m members ih =>
    obtain ⟨name', v⟩ := m
    simp only [List.map_cons, List.lookup_cons, ih]
    cases name == name' <;> rfl

/-- The names of the sorted members are the sorted names. -/
theorem map_fst_sortedMembers (members : List (String × Json)) :
    (sortedMembers members).map Prod.fst = (members.map Prod.fst).insertionSort (· ≤ ·) := by
  simp [sortedMembers, Function.comp_def]

/-- Sorting rearranges the members of an object. -/
theorem mem_sortedMembers {members : List (String × Json)}
    (hnames : (members.map Prod.fst).Nodup) (m : String × Json) :
    m ∈ sortedMembers members ↔ m ∈ members := by
  simp only [sortedMembers, List.mem_map, List.mem_insertionSort]
  constructor
  · rintro ⟨key, ⟨⟨key', v⟩, hmem, rfl⟩, rfl⟩
    simpa [lookup_eq_some_of_mem hnames hmem] using hmem
  · intro hmem
    refine ⟨m.1, ⟨m, hmem, rfl⟩, ?_⟩
    simp [lookup_eq_some_of_mem hnames (show (m.1, m.2) ∈ members from hmem)]

/-- An object is written with its members in the order of their names. -/
theorem canonicalJsonValue_object {members : List (String × Json)} :
    canonicalJsonValue (.object members) =
      "\x7b" ++ ",".intercalate ((sortedMembers members).map canonicalMember) ++ "\x7d" := by
  rw [canonicalJsonValue, canonicalMembers_eq_map]
  simp only [List.map_map, sortedMembers]
  congr 3
  apply List.map_congr_left
  intro key hkey
  obtain ⟨m, hmem, rfl⟩ := List.mem_map.mp (List.mem_insertionSort _ |>.mp hkey)
  have hsome : (members.lookup m.1).isSome := by
    simp only [List.lookup_isSome_iff]
    exact ⟨m, hmem, by simp⟩
  obtain ⟨v, hv⟩ := Option.isSome_iff_exists.mp hsome
  simp [canonicalMember, lookup_map_snd, hv]

end ClavenarSdk
