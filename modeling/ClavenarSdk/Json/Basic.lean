import Mathlib.Data.List.Sort
import Mathlib.Data.String.Basic

/-!
# JSON documents

A document keeps the members of an object in the order in which they are stored. A
`serde_json` map has distinct member names, kept sorted by the default map and in
insertion order when `preserve_order` is switched on. Both are predicates on documents.
-/

namespace ClavenarSdk

/-- A JSON number. A float is given by the text that `serde_json` prints for it. -/
inductive Number where
  | int (n : Int)
  | float (text : String)
  deriving DecidableEq

/-- The number is an integer. -/
def Number.IsInt : Number → Prop
  | .int _ => True
  | .float _ => False

/-- A JSON document. -/
inductive Json where
  | null
  | bool (b : Bool)
  | number (n : Number)
  | string (s : String)
  | array (items : List Json)
  | object (members : List (String × Json))

namespace Json

/-- Structural induction with one hypothesis for all items and one for all members. -/
@[elab_as_elim, induction_eliminator]
theorem induct {motive : Json → Prop} (null : motive .null) (bool : ∀ b, motive (.bool b))
    (number : ∀ n, motive (.number n)) (string : ∀ s, motive (.string s))
    (array : ∀ items, (∀ v ∈ items, motive v) → motive (.array items))
    (object : ∀ members, (∀ m ∈ members, motive m.2) → motive (.object members))
    (v : Json) : motive v := by
  refine @Json.rec motive (fun items => ∀ v ∈ items, motive v)
    (fun members => ∀ m ∈ members, motive m.2) (fun m => motive m.2)
    null bool number string array object ?_ ?_ ?_ ?_ ?_ v
  all_goals simp +contextual

mutual

/-- Structural comparison of two documents. -/
def beq : Json → Json → Bool
  | .null, .null => true
  | .bool a, .bool b => a == b
  | .number a, .number b => a == b
  | .string a, .string b => a == b
  | .array a, .array b => beqItems a b
  | .object a, .object b => beqMembers a b
  | _, _ => false

/-- Structural comparison of two lists of items. -/
def beqItems : List Json → List Json → Bool
  | [], [] => true
  | v :: items, w :: items' => beq v w && beqItems items items'
  | _, _ => false

/-- Structural comparison of two lists of members. -/
def beqMembers : List (String × Json) → List (String × Json) → Bool
  | [], [] => true
  | (key, v) :: members, (key', w) :: members' =>
    key == key' && beq v w && beqMembers members members'
  | _, _ => false

end

/-- The comparison of documents decides their equality. -/
theorem beq_iff_eq (v w : Json) : v.beq w = true ↔ v = w := by
  induction v generalizing w with
  | null => cases w <;> simp [beq]
  | bool b => cases w <;> simp [beq]
  | number n => cases w <;> simp [beq]
  | string s => cases w <;> simp [beq]
  | array items ih =>
    have hitems : ∀ items', beqItems items items' = true ↔ items = items' := by
      induction items with
      | nil => intro items'; cases items' <;> simp [beqItems]
      | cons v items ih' =>
        intro items'
        cases items' with
        | nil => simp [beqItems]
        | cons w items' =>
          simp [beqItems, ih v (by simp), ih' fun v hv => ih v (by simp [hv])]
    cases w <;> simp [beq, hitems]
  | object members ih =>
    have hmembers : ∀ members', beqMembers members members' = true ↔ members = members' := by
      induction members with
      | nil => intro members'; cases members' <;> simp [beqMembers]
      | cons m members ih' =>
        intro members'
        obtain ⟨key, v⟩ := m
        cases members' with
        | nil => simp [beqMembers]
        | cons m' members' =>
          obtain ⟨key', w⟩ := m'
          simp [beqMembers, ih (key, v) (by simp), ih' fun m hm => ih m (by simp [hm])]
    cases w <;> simp [beq, hmembers]

instance : DecidableEq Json := fun v w => decidable_of_iff (v.beq w = true) (beq_iff_eq v w)

/-! ### Conditions on every level of a document -/

/-- Every number of the document satisfies `numbers`, and the member names of every object,
in their stored order, satisfy `names`. -/
inductive Checked (numbers : Number → Prop) (names : List String → Prop) : Json → Prop where
  | null : Checked numbers names .null
  | bool (b : Bool) : Checked numbers names (.bool b)
  | number {n : Number} (h : numbers n) : Checked numbers names (.number n)
  | string (s : String) : Checked numbers names (.string s)
  | array {items : List Json} (h : ∀ v ∈ items, Checked numbers names v) :
      Checked numbers names (.array items)
  | object {members : List (String × Json)} (hnames : names (members.map Prod.fst))
      (h : ∀ m ∈ members, Checked numbers names m.2) : Checked numbers names (.object members)

/-- What is checked is also checked for less. -/
theorem Checked.mono {numbers numbers' : Number → Prop} {names names' : List String → Prop}
    {v : Json} (h : v.Checked numbers names) (hnumbers : ∀ n, numbers n → numbers' n)
    (hnames : ∀ keys, names keys → names' keys) : v.Checked numbers' names' := by
  induction h with
  | null => exact .null
  | bool b => exact .bool b
  | number h => exact .number (hnumbers _ h)
  | string s => exact .string s
  | array _ ih => exact .array ih
  | object h _ ih => exact .object (hnames _ h) ih

/-- Two checks are one check for both. -/
theorem Checked.and {numbers numbers' : Number → Prop} {names names' : List String → Prop}
    {v : Json} (h : v.Checked numbers names) (h' : v.Checked numbers' names') :
    v.Checked (fun n => numbers n ∧ numbers' n) (fun keys => names keys ∧ names' keys) := by
  induction h with
  | null => exact .null
  | bool b => exact .bool b
  | number h =>
    cases h' with
    | number h' => exact .number ⟨h, h'⟩
  | string s => exact .string s
  | array _ ih =>
    cases h' with
    | array h' => exact .array fun v hv => ih v hv (h' v hv)
  | object hnames _ ih =>
    cases h' with
    | object hnames' h' => exact .object ⟨hnames, hnames'⟩ fun m hm => ih m hm (h' m hm)

/-- All numbers of the document are integers. -/
def Integral : Json → Prop := Checked Number.IsInt fun _ => True

/-- The members of every object have distinct names, as in every `serde_json` map. -/
def DistinctKeys : Json → Prop := Checked (fun _ => True) List.Nodup

/-- The members of every object are stored in the strict order of their names, as in the
default `serde_json` map. -/
def Sorted : Json → Prop := Checked (fun _ => True) (List.Pairwise (· < ·))

/-- Sorted names are distinct. -/
theorem Sorted.distinctKeys {v : Json} (h : v.Sorted) : v.DistinctKeys :=
  h.mono (fun _ _ => trivial) fun _ hkeys => hkeys.imp ne_of_lt

/-- The members of a sorted object are sorted. -/
theorem Sorted.of_mem {members : List (String × Json)} {m : String × Json}
    (h : (object members).Sorted) (hm : m ∈ members) : m.2.Sorted := by
  cases h with
  | object _ h => exact h m hm

/-! ### Equality up to the order of members -/

/-- The documents differ only in the order in which object members are stored, at any
level: arrays agree item by item, objects have the same member names and agree under each
name. -/
inductive SameUpToOrder : Json → Json → Prop where
  | null : SameUpToOrder .null .null
  | bool (b : Bool) : SameUpToOrder (.bool b) (.bool b)
  | number (n : Number) : SameUpToOrder (.number n) (.number n)
  | string (s : String) : SameUpToOrder (.string s) (.string s)
  | array {items items' : List Json} (hlength : items.length = items'.length)
      (h : ∀ (i : ℕ) (v w : Json), items[i]? = some v → items'[i]? = some w → SameUpToOrder v w) :
      SameUpToOrder (.array items) (.array items')
  | object {members members' : List (String × Json)}
      (hnames : ∀ name, name ∈ members.map Prod.fst ↔ name ∈ members'.map Prod.fst)
      (h : ∀ name v w, (name, v) ∈ members → (name, w) ∈ members' → SameUpToOrder v w) :
      SameUpToOrder (.object members) (.object members')

/-- Sorted documents have one representation: the same up to order means equal. -/
theorem SameUpToOrder.eq_of_sorted {v w : Json} (h : v.SameUpToOrder w) (hv : v.Sorted)
    (hw : w.Sorted) : v = w := by
  induction h with
  | null | bool | number | string => rfl
  | @array items items' hlength _ ih =>
    cases hv with
    | array hv =>
    cases hw with
    | array hw =>
      congr 1
      apply List.ext_getElem hlength
      intro i hi hi'
      exact ih i _ _ (List.getElem?_eq_getElem hi) (List.getElem?_eq_getElem hi')
        (hv _ (List.getElem_mem hi)) (hw _ (List.getElem_mem hi'))
  | @object members members' hnames _ ih =>
    cases hv with
    | object hsorted hv =>
    cases hw with
    | object hsorted' hw =>
      have hkeys : members.map Prod.fst = members'.map Prod.fst :=
        hsorted.eq_of_mem_iff hsorted' hnames
      have hlength : members.length = members'.length := by
        simpa using congrArg List.length hkeys
      congr 1
      apply List.ext_getElem hlength
      intro i hi hi'
      have hkey : members[i].1 = members'[i].1 := by
        simpa [hi, hi'] using congrArg (·[i]?) hkeys
      have hmem' : (members[i].1, members'[i].2) ∈ members' := by
        rw [hkey]
        exact List.getElem_mem hi'
      have hvalue := ih members[i].1 members[i].2 members'[i].2 (List.getElem_mem hi) hmem'
        (hv _ (List.getElem_mem hi)) (hw _ (List.getElem_mem hi'))
      exact Prod.ext hkey hvalue

end Json

end ClavenarSdk
