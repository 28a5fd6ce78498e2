import ClavenarSdk.Ledger

/-!
# What a ledger query says

A server reads a query back by splitting and decoding it. Every query carries exactly the
parameters that its method was given: the values are encoded, so none of them contains a
separator.
-/

namespace ClavenarSdk

open Encoding

/-! ### Parameters -/

/-- A parameter: its key and its values. Only `methods` can have more than one. -/
abbrev Param := String × List String

/-- The parameter as it stands in a query. -/
def Param.raw (p : Param) : List Char × List Char :=
  (p.1.toList, separated ',' (p.2.map fun value => (percentEncode value).toList))

/-- The parameters that are present among those that a method can send. -/
def present (slots : List (String × Option (List String))) : List Param :=
  slots.filterMap fun slot => slot.2.map fun values => (slot.1, values)

/-- A parameter with at most one value. -/
def slot {α : Type} (key : String) (value : Option α) (val : α → String) :
    String × Option (List String) :=
  (key, value.map fun v => [val v])

/-- A parameter that is always sent. -/
def always (key value : String) : String × Option (List String) := (key, some [value])

/-- A parameter that is sent, as `true`, when a flag is set. -/
def flag (key : String) (set : Bool) : String × Option (List String) :=
  (key, if set then some ["true"] else none)

/-- The keys that are sent are among the keys that can be sent, in the same order. -/
theorem keys_present_sublist (slots : List (String × Option (List String))) :
    ((present slots).map Prod.fst).Sublist (slots.map Prod.fst) := by
  induction slots with
  | nil => exact .refl _
  | cons s slots ih =>
    obtain ⟨key, value⟩ := s
    cases value with
    | none =>
      have hrest : present ((key, none) :: slots) = present slots := rfl
      rw [hrest, List.map_cons]
      exact ih.cons key
    | some values =>
      have hrest : present ((key, some values) :: slots) = (key, values) :: present slots := rfl
      rw [hrest, List.map_cons, List.map_cons]
      exact ih.cons_cons key

/-- A key that can stand in a query as it is. -/
def IsKey (key : String) : Prop :=
  ∀ c ∈ key.toList, c ≠ '=' ∧ c ≠ '&' ∧ c ≠ '#' ∧ 0x20 < c.toNat

instance (key : String) : Decidable (IsKey key) := inferInstanceAs (Decidable (∀ _ ∈ _, _))

/-- Encoded characters are no separators. -/
theorem not_separator_of_mem_percentEncode {s : String} {c : Char}
    (h : c ∈ (percentEncode s).toList) : c ≠ '&' ∧ c ≠ '#' ∧ c ≠ ',' ∧ 0x20 < c.toNat :=
  forall_mem_percentEncode (P := fun c => c ≠ '&' ∧ c ≠ '#' ∧ c ≠ ',' ∧ 0x20 < c.toNat)
    (by decide) (by decide) (by decide +kernel) h

/-- A parameter under a plain key makes a safe piece, since its values are encoded. -/
theorem Param.pieceSafe {p : Param} (h : IsKey p.1) : PieceSafe p.raw.1 p.raw.2 where
  key := h
  value c hc := by
    rcases mem_separated hc with rfl | ⟨piece, hpiece, hc⟩
    · decide
    · obtain ⟨value, -, rfl⟩ := List.mem_map.mp hpiece
      have hne := not_separator_of_mem_percentEncode hc
      exact ⟨hne.1, hne.2.1, hne.2.2.2⟩

/-! ### Decoding a parameter -/

/-- Decoding the whole value gives the values with commas between them. -/
theorem Param.percentDecode_raw (p : Param) :
    percentDecode p.raw.2 = utf8Bytes (",".intercalate p.2) := by
  rw [Param.raw]
  dsimp only
  induction p.2 with
  | nil => rfl
  | cons value rest ih =>
    cases rest with
    | nil =>
      rw [List.map_singleton, separated_singleton, percentDecode_percentEncode,
        String.intercalate_singleton]
    | cons next rest =>
      have hcomma : ¬EscapeAtHead (',' :: separated ','
          ((next :: rest).map fun value => (percentEncode value).toList)) :=
        not_escapeAtHead_of_ne (by decide)
      have htext : utf8Bytes "," = String.utf8EncodeChar ',' := by decide +kernel
      have hpieces := separated_cons_cons ',' (percentEncode value).toList
        (percentEncode next).toList (rest.map fun value => (percentEncode value).toList)
      rw [List.map_cons] at ih hcomma
      rw [List.map_cons, List.map_cons, hpieces, percentDecode_percentEncode_append,
        percentDecode_cons hcomma, ih,
        String.intercalate_cons_cons, utf8Bytes_append, utf8Bytes_append, htext,
        List.append_assoc]

/-- Splitting the value at commas first gives the values. -/
theorem Param.map_percentDecode_splitOn_raw {p : Param} (h : p.2 ≠ []) :
    (p.raw.2.splitOn ',').map percentDecode = p.2.map utf8Bytes := by
  have hcomma : ∀ piece ∈ p.2.map fun value => (percentEncode value).toList, ',' ∉ piece := by
    intro piece hpiece
    obtain ⟨value, -, rfl⟩ := List.mem_map.mp hpiece
    exact fun hmem => (not_separator_of_mem_percentEncode hmem).2.2.1 rfl
  have hne : (p.2.map fun value => (percentEncode value).toList) ≠ [] := by simpa using h
  have hread : ∀ value ∈ p.2,
      (percentDecode ∘ fun value : String => (percentEncode value).toList) value =
        utf8Bytes value := by
    intro value _
    rw [Function.comp_apply, percentDecode_percentEncode]
  rw [Param.raw, separated, List.splitOn_intercalate ',' hcomma hne, List.map_map,
    List.map_congr_left hread]

/-! ### Building a query -/

/-- The reference goes to this route and carries the parameters that are present in these
slots. -/
def Writes (route : List Char) (reference : String) (slots : List (String × Option (List String))) :
    Prop :=
  Carries route reference.toList ((present slots).map Param.raw) ∧
    ∀ p ∈ present slots, IsKey p.1 ∧ p.2 ≠ []

section

variable {route : List Char} {path : String} {slots : List (String × Option (List String))}
  {α : Type} {text : α → String}

/-- Appending a parameter fills its slot. -/
theorem Writes.pushSlot (h : Writes route path slots) (value : Option α) (key : String)
    (val : α → List String) (hkey : IsKey key) (hval : ∀ v ∈ value, val v ≠ [])
    (htext : ∀ v, (text v).toList = '&' :: ((Param.raw (key, val v)).1 ++
      '=' :: (Param.raw (key, val v)).2)) :
    Writes route (pushSome value text path) (slots ++ [(key, value.map val)]) := by
  cases value with
  | none =>
    have hsame : present (slots ++ [(key, (none : Option α).map val)]) = present slots := by
      rw [present, List.filterMap_append]
      exact List.append_nil _
    rw [Writes, hsame]
    exact h
  | some v =>
    have hmore : present (slots ++ [(key, (some v).map val)]) = present slots ++ [(key, val v)] :=
      List.filterMap_append
    rw [Writes, hmore]
    constructor
    · rw [pushSome, String.toList_append, htext, List.map_append, List.map_singleton]
      exact h.1.append (Param.pieceSafe hkey)
    · intro p hp
      rcases List.mem_append.mp hp with hp | hp
      · exact h.2 p hp
      · rw [List.mem_singleton.mp hp]
        exact ⟨hkey, hval v rfl⟩

/-- Appending a parameter with one value. -/
theorem Writes.pushSome (h : Writes route path slots) (value : Option α) (key : String)
    (val : α → String) (hkey : IsKey key)
    (htext : ∀ v, (text v).toList = '&' :: (key.toList ++ '=' :: (percentEncode (val v)).toList)) :
    Writes route (pushSome value text path) (slots ++ [slot key value val]) := by
  refine h.pushSlot value key (fun v => [val v]) hkey (fun v _ => List.cons_ne_nil _ _) fun v => ?_
  rw [htext, Param.raw, List.map_singleton, separated_singleton]

end

/-- Appending a flag fills its slot. -/
theorem Writes.pushFlag {route : List Char} {path : String}
    {slots : List (String × Option (List String))} (h : Writes route path slots) (set : Bool)
    (key text : String) (hkey : IsKey key)
    (htext : text.toList = '&' :: (key.toList ++ '=' :: "true".toList)) :
    Writes route (if set then path ++ text else path) (slots ++ [flag key set]) := by
  have htrue : (percentEncode "true").toList = "true".toList := by decide +kernel
  have hpush : ∀ value : Option Unit,
      Writes route (ClavenarSdk.pushSome value (fun _ => text) path)
        (slots ++ [slot key value fun _ => "true"]) := fun value =>
    h.pushSome value key (fun _ => "true") hkey fun _ => by rw [htext, htrue]
  cases set with
  | true => exact hpush (some ())
  | false => exact hpush none

/-- A route with the parameters that are always sent. -/
theorem writes_of_separated {reference : String} (route : List Char) (params : List Param)
    (hroute : ∀ c ∈ route, c ≠ '?' ∧ c ≠ '#') (hparams : ∀ p ∈ params, IsKey p.1 ∧ p.2 ≠ [])
    (htext : reference.toList = route ++ '?' :: separated '&'
      ((params.map Param.raw).map fun p => p.1 ++ '=' :: p.2)) :
    Writes route reference (params.map fun p => (p.1, some p.2)) := by
  have hpresent : present (params.map fun p => (p.1, some p.2)) = params := by
    rw [present, List.filterMap_map]
    exact List.filterMap_some
  rw [Writes, hpresent, htext]
  refine ⟨carries_separated hroute fun p hp => ?_, hparams⟩
  obtain ⟨param, hparam, rfl⟩ := List.mem_map.mp hp
  exact Param.pieceSafe (hparams param hparam).1

/-- The text of a truth value is its own encoding. -/
@[simp] theorem percentEncode_boolText (b : Bool) : percentEncode (toString b) = toString b := by
  cases b with
  | false => exact String.toList_injective (by decide +kernel)
  | true => exact String.toList_injective (by decide +kernel)

/-! ### The audit filter -/

/-- Only the empty text is encoded as the empty text. -/
theorem percentEncode_eq_empty_iff {s : String} : percentEncode s = "" ↔ s = "" := by
  constructor
  · intro h
    have hbytes := percentDecode_percentEncode s
    rw [h] at hbytes
    exact utf8Bytes_injective hbytes.symm
  · rintro rfl
    rfl

/-- A list of values is written with commas between the encoded values. -/
theorem toList_intercalate_map_percentEncode (values : List String) :
    (",".intercalate (values.map percentEncode)).toList =
      separated ',' (values.map fun value => (percentEncode value).toList) := by
  induction values with
  | nil => rfl
  | cons value rest ih =>
    cases rest with
    | nil => simp
    | cons next rest =>
      have hcomma : ",".toList = [','] := by decide
      rw [List.map_cons] at ih
      rw [List.map_cons, List.map_cons, List.map_cons, List.map_cons, separated_cons_cons,
        String.intercalate_cons_cons, String.toList_append, String.toList_append, hcomma, ih,
        List.append_assoc, List.singleton_append, List.map_cons]

section

variable [Chrono]

/-- What an audit filter asks for. -/
def AuditFilterParams.slots (filter : AuditFilterParams) : List (String × Option (List String)) :=
  [slot "seq_from" filter.seqFrom Int.repr, slot "seq_to" filter.seqTo Int.repr,
    slot "from" filter.from_ toRfc3339, slot "to" filter.to_ toRfc3339,
    ("methods", if filter.effectiveMethods = [] then none else some filter.effectiveMethods),
    slot "original_method" filter.originalMethod id, slot "reason" filter.reason id,
    slot "verdict" filter.verdict id, slot "brain_delta" filter.brainDelta id]

omit [Chrono] in
/-- The methods are appended when one of them is not blank. -/
theorem AuditFilterParams.push_methods (filter : AuditFilterParams) (path : String) :
    (if filter.methods ≠ [] then
      if ",".intercalate (filter.effectiveMethods.map percentEncode) ≠ "" then
        path ++ "&methods=" ++ ",".intercalate (filter.effectiveMethods.map percentEncode)
      else path
    else path) =
      pushSome (if filter.effectiveMethods = [] then none else some filter.effectiveMethods)
        (fun methods => "&methods=" ++ ",".intercalate (methods.map percentEncode)) path := by
  by_cases hnone : filter.effectiveMethods = []
  · rw [hnone, if_pos rfl]
    simp [pushSome]
  · have hmethods : filter.methods ≠ [] := by
      intro hempty
      rw [AuditFilterParams.effectiveMethods, hempty] at hnone
      exact hnone rfl
    have hjoined : ",".intercalate (filter.effectiveMethods.map percentEncode) ≠ "" := by
      intro hempty
      have hlist := toList_intercalate_map_percentEncode filter.effectiveMethods
      rw [hempty] at hlist
      obtain ⟨method, rest, hcons⟩ := List.exists_cons_of_ne_nil hnone
      have hmem : method ∈ filter.effectiveMethods := by simp [hcons]
      have hblank : trim method ≠ "" := by simpa using (List.mem_filter.mp hmem).2
      have hencoded : percentEncode method ≠ "" := by
        rw [ne_eq, percentEncode_eq_empty_iff]
        rintro rfl
        exact hblank (by decide)
      rw [hcons, List.map_cons] at hlist
      cases rest with
      | nil =>
        rw [List.map_nil, separated_singleton] at hlist
        exact hencoded (String.toList_injective hlist.symm)
      | cons next rest =>
        rw [List.map_cons, separated_cons_cons] at hlist
        simp at hlist
    rw [if_pos hmethods, if_pos hjoined, if_neg hnone, pushSome, String.append_assoc]

/-- Appending a filter fills the slots of the filter. -/
theorem writes_appendQuery {route : List Char} {path : String}
    {slots : List (String × Option (List String))} (h : Writes route path slots)
    (filter : AuditFilterParams) :
    Writes route (filter.appendQuery path) (slots ++ filter.slots) := by
  have hmethods : ∀ methods : List String,
      ("&methods=" ++ ",".intercalate (methods.map percentEncode)).toList =
        '&' :: ((Param.raw ("methods", methods)).1 ++
          '=' :: (Param.raw ("methods", methods)).2) := by
    intro methods
    rw [String.toList_append, toList_intercalate_map_percentEncode, Param.raw]
    simp
  have hnonempty : ∀ methods ∈ (if filter.effectiveMethods = [] then none
      else some filter.effectiveMethods), methods ≠ [] := by
    intro methods hmem
    split_ifs at hmem with hnone
    · simp at hmem
    · rwa [← Option.some.inj hmem]
  have hslots : slots ++ filter.slots = slots ++ [slot "seq_from" filter.seqFrom Int.repr] ++
      [slot "seq_to" filter.seqTo Int.repr] ++ [slot "from" filter.from_ toRfc3339] ++
      [slot "to" filter.to_ toRfc3339] ++ [("methods", (if filter.effectiveMethods = [] then none
        else some filter.effectiveMethods).map id)] ++
      [slot "original_method" filter.originalMethod id] ++ [slot "reason" filter.reason id] ++
      [slot "verdict" filter.verdict id] ++ [slot "brain_delta" filter.brainDelta id] := by
    simp only [AuditFilterParams.slots, Option.map_id_fun, id_eq, List.append_assoc,
      List.cons_append, List.nil_append]
  rw [AuditFilterParams.appendQuery, filter.push_methods, hslots]
  refine Writes.pushSome ?_ _ _ _ (by simp [IsKey]) fun v => by simp
  refine Writes.pushSome ?_ _ _ _ (by simp [IsKey]) fun v => by simp
  refine Writes.pushSome ?_ _ _ _ (by simp [IsKey]) fun v => by simp
  refine Writes.pushSome ?_ _ _ _ (by simp [IsKey]) fun v => by simp
  refine Writes.pushSlot ?_ _ _ _ (by simp [IsKey]) hnonempty hmethods
  refine Writes.pushSome ?_ _ _ _ (by simp [IsKey]) fun v => by simp
  refine Writes.pushSome ?_ _ _ _ (by simp [IsKey]) fun v => by simp
  refine Writes.pushSome ?_ _ _ _ (by simp [IsKey]) fun v => by simp
  exact h.pushSome _ _ _ (by simp [IsKey]) fun v => by simp

end

end ClavenarSdk
