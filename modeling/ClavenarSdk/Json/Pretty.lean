import ClavenarSdk.Json.Faithful

/-!
# Pretty JSON text

`serde_json::to_vec_pretty` writes every item of an array and every member of an object on a line
of its own, indented by two blanks for each level. A list of readable lines between brackets is
readable.
-/

namespace ClavenarSdk

open Encoding

/-- The blanks at the beginning of a line. -/
def indent (depth : ℕ) : String := String.ofList (List.replicate (2 * depth) ' ')

/-- Lines between brackets, or only the brackets when there are none. -/
def bracket (opening closing : String) (depth : ℕ) (lines : List String) : String :=
  if lines = [] then opening ++ closing
  else opening ++ "\n" ++ ",\n".intercalate lines ++ "\n" ++ indent depth ++ closing

mutual

/-- The pretty text of a document that begins at this depth. -/
def Json.pretty (depth : ℕ) : Json → String
  | .null => "null"
  | .bool b => if b then "true" else "false"
  | .number n => n.text
  | .string s => quote s
  | .array items => bracket "[" "]" depth (prettyItems (depth + 1) items)
  | .object members => bracket "\x7b" "\x7d" depth (prettyMembers (depth + 1) members)

/-- The lines of the items of an array. -/
def Json.prettyItems (depth : ℕ) : List Json → List String
  | [] => []
  | v :: items => (indent depth ++ v.pretty depth) :: prettyItems depth items

/-- The lines of the members of an object. -/
def Json.prettyMembers (depth : ℕ) : List (String × Json) → List String
  | [] => []
  | (key, v) :: members =>
    (indent depth ++ quote key ++ ": " ++ v.pretty depth) :: prettyMembers depth members

end

example : (Json.object [("a", .array []), ("b", .array [.null])]).pretty 0 =
    "\x7b\n  \"a\": [],\n  \"b\": [\n    null\n  ]\n\x7d" := by rfl

/-- Items are written line by line. -/
theorem prettyItems_eq_map (depth : ℕ) (items : List Json) :
    Json.prettyItems depth items = items.map fun v => indent depth ++ v.pretty depth := by
  induction items with
  | nil => rfl
  | cons v items ih => rw [Json.prettyItems, ih, List.map_cons]

/-- The first line is followed by the others, each after a separator. -/
theorem toList_intercalate_cons (sep line : String) (lines : List String) :
    (sep.intercalate (line :: lines)).toList =
      line.toList ++ lines.flatMap fun line => sep.toList ++ line.toList := by
  induction lines generalizing line with
  | nil => simp
  | cons next lines ih =>
    rw [String.intercalate_cons_cons, String.toList_append, String.toList_append, ih,
      List.flatMap_cons, List.append_assoc, List.append_assoc]

/-- The lines of a bracket, with their commas and indentations. -/
theorem toList_bracket_cons (opening closing : String) (depth : ℕ) (line : String)
    (lines : List String) :
    (bracket opening closing depth (line :: lines)).toList =
      opening.toList ++ '\n' :: (line.toList ++
        ((lines.flatMap fun line => ',' :: '\n' :: line.toList) ++
          '\n' :: ((indent depth).toList ++ closing.toList))) := by
  have hbreak : "\n".toList = ['\n'] := by decide
  have hcomma : ",\n".toList = [',', '\n'] := by decide
  rw [bracket, if_neg (List.cons_ne_nil _ _)]
  simp only [String.toList_append, toList_intercalate_cons, hbreak, hcomma, List.append_assoc,
    List.cons_append, List.nil_append]

/-- Readable lines between brackets determine what the lines are of, and what follows. -/
theorem bracket_append_inj {α : Type} {enc : α → String}
    (henc : PrefixCode fun a => (enc a).toList) {opening closing : String} {c : Char}
    (hclosing : closing.toList = [c]) (hc : c ≠ '\n') (depth : ℕ) {l l' : List α}
    {s t : List Char} (h : (bracket opening closing depth (l.map enc)).toList ++ s =
      (bracket opening closing depth (l'.map enc)).toList ++ t) : l = l' ∧ s = t := by
  have hempty : (bracket opening closing depth []).toList = opening.toList ++ [c] := by
    rw [bracket, if_pos rfl, String.toList_append, hclosing]
  have hmore : PrefixCode fun a => ',' :: '\n' :: (enc a).toList := fun a b s t heq =>
    henc a b s t (List.cons.inj (List.cons.inj heq).2).2
  cases l with
  | nil =>
    cases l' with
    | nil => exact ⟨rfl, List.append_cancel_left h⟩
    | cons b l' =>
      rw [List.map_nil, List.map_cons, hempty, toList_bracket_cons, List.append_assoc,
        List.append_assoc, List.append_cancel_left_eq] at h
      exact absurd (List.cons.inj h).1 hc
  | cons a l =>
    cases l' with
    | nil =>
      rw [List.map_nil, List.map_cons, hempty, toList_bracket_cons, List.append_assoc,
        List.append_assoc, List.append_cancel_left_eq] at h
      exact absurd (List.cons.inj h).1.symm hc
    | cons b l' =>
      simp only [List.map_cons, toList_bracket_cons, List.append_assoc,
        List.append_cancel_left_eq, List.cons_append, List.cons.injEq, true_and] at h
      obtain ⟨rfl, hrest⟩ := henc _ _ _ _ h
      rw [List.flatMap_map, List.flatMap_map] at hrest
      have hbreak : ∀ a, ∃ c rest, ',' :: '\n' :: (enc a).toList = c :: rest ∧ c ≠ '\n' :=
        fun a => ⟨',', '\n' :: (enc a).toList, rfl, by decide⟩
      obtain ⟨rfl, hend⟩ := hmore.closed hbreak hrest
      exact ⟨rfl, by simpa using hend⟩

/-- The line of a member. -/
def memberLine (depth : ℕ) (m : String × Json) : String :=
  indent depth ++ quote m.1 ++ ": " ++ m.2.pretty depth

/-- Members are written line by line. -/
theorem prettyMembers_eq_map (depth : ℕ) (members : List (String × Json)) :
    Json.prettyMembers depth members = members.map (memberLine depth) := by
  induction members with
  | nil => rfl
  | cons m members ih => rw [Json.prettyMembers, ih, List.map_cons, memberLine]

/-! ### Documents of one shape -/

/-- The documents of these values are told apart at the front of any text. -/
def ReadsPretty {α : Type} (depth : ℕ) (doc : α → Json) : Prop :=
  ∀ a b s t, ((doc a).pretty depth).toList ++ s = ((doc b).pretty depth).toList ++ t →
    doc a = doc b ∧ s = t

section

variable {α β : Type} {depth : ℕ}

/-- Values that are determined by their documents are told apart by the texts of these. -/
theorem ReadsPretty.prefixCode {doc : α → Json} (h : ReadsPretty depth doc)
    (hdoc : Function.Injective doc) : PrefixCode fun a => ((doc a).pretty depth).toList :=
  fun a b s t heq => (h a b s t heq).imp_left fun heq => hdoc heq

/-- A document that does not depend on anything is readable. -/
theorem readsPretty_const (v : Json) : ReadsPretty depth fun _ : α => v :=
  fun _ _ _ _ h => ⟨rfl, List.append_cancel_left h⟩

/-- A text is readable. -/
theorem readsPretty_string (text : α → String) : ReadsPretty depth fun a => .string (text a) := by
  intro a b s t h
  obtain ⟨htext, hst⟩ := quote_append_inj h
  exact ⟨congrArg Json.string htext, hst⟩

/-- An array of readable items is readable, however many there are. -/
theorem readsPretty_array {item : β → Json}
    (hitem : PrefixCode fun b => ((item b).pretty (depth + 1)).toList) (items : α → List β) :
    ReadsPretty depth fun a => .array ((items a).map item) := by
  intro a b s t h
  have hline : PrefixCode fun b =>
      (indent (depth + 1) ++ (item b).pretty (depth + 1)).toList := by
    intro b b' s t heq
    simp only [String.toList_append, List.append_assoc] at heq
    exact hitem b b' s t (List.append_cancel_left heq)
  simp only [Json.pretty, prettyItems_eq_map, List.map_map, Function.comp_def] at h
  obtain ⟨hitems, hst⟩ := bracket_append_inj hline (c := ']') (by decide) (by decide) depth h
  exact ⟨congrArg (fun l => Json.array (l.map item)) hitems, hst⟩

/-- The value of a member is read from its line. -/
theorem ReadsPretty.memberLine {doc : α → Json} (h : ReadsPretty depth doc) {key : String}
    {a b : α} {s t : List Char} (heq : (memberLine depth (key, doc a)).toList ++ s =
      (memberLine depth (key, doc b)).toList ++ t) : doc a = doc b ∧ s = t := by
  simp only [ClavenarSdk.memberLine, String.toList_append, List.append_assoc,
    List.append_cancel_left_eq] at heq
  exact h a b s t heq

/-- The members of an object after the first. -/
theorem readsPretty_members {fields : List (String × (α → Json))}
    (hfields : ∀ f ∈ fields, ReadsPretty depth f.2) {a b : α} {s t : List Char}
    (h : (fields.flatMap fun f => ',' :: '\n' :: (memberLine depth (f.1, f.2 a)).toList) ++ s =
      (fields.flatMap fun f => ',' :: '\n' :: (memberLine depth (f.1, f.2 b)).toList) ++ t) :
    (∀ f ∈ fields, f.2 a = f.2 b) ∧ s = t := by
  induction fields with
  | nil => exact ⟨by simp, h⟩
  | cons f fields ih =>
    simp only [List.flatMap_cons, List.append_assoc, List.cons_append, List.cons.injEq,
      true_and] at h
    obtain ⟨hf, htail⟩ := (hfields f (by simp)).memberLine h
    obtain ⟨hrest, hst⟩ := ih (fun g hg => hfields g (by simp [hg])) htail
    exact ⟨List.forall_mem_cons.mpr ⟨hf, hrest⟩, hst⟩

/-- An object with the same names and a readable value under each of them is readable. -/
theorem readsPretty_object {fields : List (String × (α → Json))}
    (hfields : ∀ f ∈ fields, ReadsPretty (depth + 1) f.2) :
    ReadsPretty depth fun a => .object (fields.map fun f => (f.1, f.2 a)) := by
  intro a b s t h
  cases fields with
  | nil => exact ⟨rfl, List.append_cancel_left h⟩
  | cons f fields =>
    simp only [Json.pretty, prettyMembers_eq_map, List.map_cons, List.map_map, toList_bracket_cons,
      List.append_assoc, List.append_cancel_left_eq, List.cons_append, List.cons.injEq, true_and,
      List.flatMap_map, Function.comp_apply] at h
    obtain ⟨hf, htail⟩ := (hfields f (by simp)).memberLine h
    obtain ⟨hrest, hend⟩ := readsPretty_members (fun g hg => hfields g (by simp [hg])) htail
    have hvalues : ∀ g ∈ f :: fields, g.2 a = g.2 b := List.forall_mem_cons.mpr ⟨hf, hrest⟩
    have hmembers : ∀ g ∈ f :: fields, (g.1, g.2 a) = (g.1, g.2 b) := fun g hg =>
      congrArg (Prod.mk g.1) (hvalues g hg)
    refine ⟨congrArg Json.object (List.map_congr_left hmembers), ?_⟩
    simpa using hend

end

end ClavenarSdk
