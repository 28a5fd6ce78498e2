import ClavenarSdk.Json.Faithful

/-!
# `serde_json::Value`

In the default build of `serde_json` an object is a `BTreeMap`: its members are sorted by
name, and inserting a name again replaces the value. A `Value` is a document in this form,
so equality of values is equality of documents.
-/

namespace ClavenarSdk

namespace Json

/-- Insert a member that an already inserted, later member of the same name overrides. -/
def insertMember (key : String) (v : Json) : List (String × Json) → List (String × Json)
  | [] => [(key, v)]
  | (key', w) :: members =>
    if key < key' then (key, v) :: (key', w) :: members
    else if key = key' then (key', w) :: members
    else (key', w) :: insertMember key v members

mutual

/-- The value that a document denotes: members sorted by name at every level, the last one
of a name kept. -/
def normalize : Json → Json
  | .null => .null
  | .bool b => .bool b
  | .number n => .number n
  | .string s => .string s
  | .array items => .array (normalizeItems items)
  | .object members => .object (normalizeMembers members)

/-- Normalized items of an array. -/
def normalizeItems : List Json → List Json
  | [] => []
  | v :: items => normalize v :: normalizeItems items

/-- Normalized members of an object, inserted into a sorted map. -/
def normalizeMembers : List (String × Json) → List (String × Json)
  | [] => []
  | (key, v) :: members => insertMember key (normalize v) (normalizeMembers members)

end

/-- Only `null` is normalized to `null`. -/
theorem normalize_eq_null_iff {v : Json} : v.normalize = .null ↔ v = .null := by
  cases v <;> simp [normalize]

/-- Items are normalized one by one. -/
theorem normalizeItems_eq_map (items : List Json) : normalizeItems items = items.map normalize := by
  induction items with
  | nil => rfl
  | cons v items ih => simp [normalizeItems, ih]

/-- A member is inserted in order, unless one of its name is there. -/
theorem insertMember_cons (key : String) (v : Json) (m : String × Json)
    (members : List (String × Json)) :
    insertMember key v (m :: members) =
      if key < m.1 then (key, v) :: m :: members
      else if key = m.1 then m :: members
      else m :: insertMember key v members := rfl

/-- Inserting a member adds nothing else. -/
theorem mem_insertMember {key : String} {v : Json} {members : List (String × Json)}
    {m : String × Json} (h : m ∈ insertMember key v members) : m = (key, v) ∨ m ∈ members := by
  induction members with
  | nil => simpa [insertMember] using h
  | cons m' members ih =>
    unfold insertMember at h
    split_ifs at h
    · simpa using h
    · exact .inr h
    · rcases List.mem_cons.mp h with rfl | h
      · exact .inr (by simp)
      · exact (ih h).imp_right (List.mem_cons_of_mem _)

/-- Inserting a member keeps the names sorted. -/
theorem insertMember_sorted {key : String} {v : Json} {members : List (String × Json)}
    (h : (members.map Prod.fst).Pairwise (· < ·)) :
    ((insertMember key v members).map Prod.fst).Pairwise (· < ·) := by
  induction members with
  | nil => simp [insertMember]
  | cons m members ih =>
    have hm := h
    simp only [List.map_cons, List.pairwise_cons] at h
    unfold insertMember
    split_ifs with hlt heq
    · refine List.pairwise_cons.mpr ⟨fun name hname => ?_, hm⟩
      rcases List.mem_cons.mp hname with rfl | hname
      · exact hlt
      · exact hlt.trans (h.1 name hname)
    · exact hm
    · refine List.pairwise_cons.mpr ⟨fun name hname => ?_, ih h.2⟩
      obtain ⟨m', hm', rfl⟩ := List.mem_map.mp hname
      rcases mem_insertMember hm' with rfl | hmem
      · exact lt_of_le_of_ne (not_lt.mp hlt) (Ne.symm heq)
      · exact h.1 _ (List.mem_map.mpr ⟨m', hmem, rfl⟩)

/-- A normalized member comes of a member. -/
theorem mem_normalizeMembers {members : List (String × Json)} {m : String × Json}
    (h : m ∈ normalizeMembers members) : ∃ m' ∈ members, m = (m'.1, normalize m'.2) := by
  induction members with
  | nil => simp [normalizeMembers] at h
  | cons first members ih =>
    rcases mem_insertMember h with rfl | h
    · exact ⟨first, by simp, rfl⟩
    · obtain ⟨m', hm', heq⟩ := ih h
      exact ⟨m', List.mem_cons_of_mem _ hm', heq⟩

/-- Normalized members are sorted by name. -/
theorem normalizeMembers_sorted (members : List (String × Json)) :
    ((normalizeMembers members).map Prod.fst).Pairwise (· < ·) := by
  induction members with
  | nil => simp [normalizeMembers]
  | cons m members ih => exact insertMember_sorted ih

/-- A normalized document is sorted at every level. -/
theorem normalize_sorted (v : Json) : v.normalize.Sorted := by
  induction v with
  | null => exact .null
  | bool b => exact .bool b
  | number n => exact .number trivial
  | string s => exact .string s
  | array items ih =>
    refine .array fun v hv => ?_
    rw [normalizeItems_eq_map] at hv
    obtain ⟨w, hw, rfl⟩ := List.mem_map.mp hv
    exact ih w hw
  | object members ih =>
    refine .object (normalizeMembers_sorted members) fun m hm => ?_
    obtain ⟨m', hm', rfl⟩ := mem_normalizeMembers hm
    exact ih m' hm'

/-- A member whose name is before all others is inserted in front. -/
theorem insertMember_of_forall_lt {key : String} {v : Json} {members : List (String × Json)}
    (h : ∀ m ∈ members, key < m.1) : insertMember key v members = (key, v) :: members := by
  cases members with
  | nil => rfl
  | cons m members => simp [insertMember, h m (by simp)]

/-- Sorted members of normalized values are normalized already. -/
theorem normalizeMembers_of_sorted {members : List (String × Json)}
    (hnames : (members.map Prod.fst).Pairwise (· < ·))
    (h : ∀ m ∈ members, m.2.normalize = m.2) : normalizeMembers members = members := by
  induction members with
  | nil => rfl
  | cons m members ih =>
    simp only [List.map_cons, List.pairwise_cons, List.mem_map, forall_exists_index,
      and_imp] at hnames
    rw [normalizeMembers, ih hnames.2 fun m hm => h m (List.mem_cons_of_mem _ hm),
      h m (by simp), insertMember_of_forall_lt fun m' hm' => hnames.1 _ m' hm' rfl]

/-- Normalizing a sorted document changes nothing. -/
theorem normalize_of_sorted {v : Json} (h : v.Sorted) : v.normalize = v := by
  induction h with
  | null | bool | number | string => rfl
  | array _ ih =>
    rw [normalize, normalizeItems_eq_map]
    congr 1
    exact (List.map_congr_left ih).trans (List.map_id _)
  | object hnames _ ih => rw [normalize, normalizeMembers_of_sorted hnames ih]

/-! ### Members as a rearrangement -/

/-- Inserting a new name adds its member. -/
theorem insertMember_perm {key : String} {v : Json} {members : List (String × Json)}
    (h : key ∉ members.map Prod.fst) :
    (insertMember key v members).Perm ((key, v) :: members) := by
  induction members with
  | nil => exact .refl _
  | cons m members ih =>
    rw [List.map_cons, List.mem_cons, not_or] at h
    rw [insertMember_cons, if_neg h.1]
    split_ifs
    · exact .refl _
    · exact ((ih h.2).cons m).trans (.swap _ _ _)

/-- Reading an object with distinct names into a value rearranges its members. -/
theorem normalizeMembers_perm {members : List (String × Json)}
    (h : (members.map Prod.fst).Nodup) :
    (normalizeMembers members).Perm (members.map fun m => (m.1, m.2.normalize)) := by
  induction members with
  | nil => exact .refl _
  | cons m members ih =>
    rw [List.map_cons, List.nodup_cons] at h
    have hrest := ih h.2
    have hnew : m.1 ∉ (normalizeMembers members).map Prod.fst := by
      rw [(hrest.map Prod.fst).mem_iff]
      simpa [Function.comp_def] using h.1
    exact (insertMember_perm hnew).trans (hrest.cons _)

/-! ### Removing a member -/

/-- The document without the members of this name. -/
def without (name : String) : Json → Json
  | .object members => .object (members.filter fun m => m.1 ≠ name)
  | v => v

/-- Taking a name out commutes with inserting a member. -/
theorem filter_insertMember {key name : String} {v : Json} {members : List (String × Json)}
    (hsorted : (members.map Prod.fst).Pairwise (· < ·)) :
    (insertMember key v members).filter (fun m => m.1 ≠ name) =
      if key = name then members.filter (fun m => m.1 ≠ name)
      else insertMember key v (members.filter fun m => m.1 ≠ name) := by
  induction members with
  | nil => by_cases h : key = name <;> simp [insertMember, h]
  | cons m members ih =>
    obtain ⟨key', w⟩ := m
    simp only [List.map_cons, List.pairwise_cons] at hsorted
    have hrest := ih hsorted.2
    have hlt : ∀ m ∈ members, key' < m.1 := fun m hm =>
      hsorted.1 m.1 (List.mem_map.mpr ⟨m, hm, rfl⟩)
    by_cases hname : key = name
    · simp only [hname, if_true] at hrest ⊢
      rw [insertMember_cons]
      split_ifs
      · rw [List.filter_cons_of_neg (by simp)]
      · rfl
      · simp only [List.filter_cons, hrest]
    · simp only [hname, if_false] at hrest ⊢
      by_cases hname' : key' = name
      · have hdrop : ∀ l : List (String × Json), ((key', w) :: l).filter (fun m => m.1 ≠ name) =
            l.filter (fun m => m.1 ≠ name) :=
          fun l => List.filter_cons_of_neg (by simpa using hname')
        rw [hdrop, insertMember_cons]
        split_ifs with h h'
        · rw [List.filter_cons_of_pos (by simpa using hname), hdrop,
            insertMember_of_forall_lt fun m hm => h.trans (hlt m (List.mem_of_mem_filter hm))]
        · exact absurd (h'.trans hname') hname
        · rw [hdrop, hrest]
      · have hkeep : ∀ l : List (String × Json), ((key', w) :: l).filter (fun m => m.1 ≠ name) =
            (key', w) :: l.filter (fun m => m.1 ≠ name) := fun l =>
          List.filter_cons_of_pos (by simpa using hname')
        rw [hkeep, insertMember_cons, insertMember_cons]
        split_ifs with h h'
        · rw [List.filter_cons_of_pos (by simpa using hname), hkeep]
        · rw [hkeep]
        · rw [hkeep, hrest]

/-- Taking a name out commutes with normalizing. -/
theorem normalizeMembers_filter (name : String) (members : List (String × Json)) :
    (normalizeMembers members).filter (fun m => m.1 ≠ name) =
      normalizeMembers (members.filter fun m => m.1 ≠ name) := by
  induction members with
  | nil => rfl
  | cons m members ih =>
    rw [normalizeMembers, filter_insertMember (normalizeMembers_sorted members), ih]
    by_cases hname : m.1 = name
    · simp [hname]
    · rw [if_neg hname, List.filter_cons_of_pos (by simpa using hname), normalizeMembers]

/-- A member can be removed before or after the document is read into a value. -/
theorem normalize_without (name : String) (v : Json) :
    v.normalize.without name = (v.without name).normalize := by
  cases v with
  | object members => simp only [normalize, without, normalizeMembers_filter]
  | null | bool | number | string | array => rfl

end Json

/-- A `serde_json::Value`: a document whose objects are sorted by member name. -/
structure Value where
  json : Json
  sorted : json.Sorted
  deriving DecidableEq

namespace Value

/-- Values are equal if their documents are. -/
@[ext] theorem ext {v w : Value} (h : v.json = w.json) : v = w := by
  cases v
  cases w
  simpa using h

/-- The value of a document. -/
def ofJson (v : Json) : Value := ⟨v.normalize, v.normalize_sorted⟩

/-- A value is the value of its document. -/
@[simp] theorem ofJson_json (v : Value) : ofJson v.json = v :=
  ext (Json.normalize_of_sorted v.sorted)

/-- The document of a value is normalized. -/
@[simp] theorem normalize_json (v : Value) : v.json.normalize = v.json :=
  Json.normalize_of_sorted v.sorted

/-- All numbers of the value are integers. -/
def Integral (v : Value) : Prop := v.json.Integral

/-- Values with integer numbers are equal when their canonical texts are. -/
theorem eq_of_canonical_eq {v w : Value} (hv : v.Integral) (hw : w.Integral)
    (h : canonicalJsonValue v.json = canonicalJsonValue w.json) : v = w := by
  have hsame := (Json.WellFormed.of_sorted v.sorted hv).same_of_canonical_eq
    (Json.WellFormed.of_sorted w.sorted hw) h
  exact ext (hsame.eq_of_sorted v.sorted w.sorted)

end Value

end ClavenarSdk
