import ClavenarSdk.Json.Canonical
import Mathlib

/-!
# Canonical text commits to one document

Two documents with distinct member names and integer numbers have the same canonical text
exactly when they agree up to the stored order of members. One direction reads the text
back part by part; the other uses that sorting gives a canonical order of distinct names.
-/

namespace ClavenarSdk

open Encoding

/-- The documents that canonical text is compared on: integer numbers, and distinct member
names in every object. -/
def Json.WellFormed : Json → Prop := Json.Checked Number.IsInt List.Nodup

/-- A sorted document of integers is well formed. -/
theorem Json.WellFormed.of_sorted {v : Json} (hsorted : v.Sorted) (hint : v.Integral) :
    v.WellFormed :=
  (hsorted.distinctKeys.and hint).mono (fun _ h => h.2) fun _ h => h.1

/-! ### Reading strings back -/

/-- The value of a lower-case hexadecimal digit. -/
def hexValue (c : Char) : ℕ := if c.isDigit then c.toNat - 48 else c.toNat - 87

/-- Read one escaped character off the front of a text. -/
def unescape : List Char → Option (Char × List Char)
  | '\\' :: 'u' :: '0' :: '0' :: high :: low :: rest =>
    some (Char.ofNat (16 * hexValue high + hexValue low), rest)
  | '\\' :: 'b' :: rest => some ('\x08', rest)
  | '\\' :: 't' :: rest => some ('\t', rest)
  | '\\' :: 'n' :: rest => some ('\n', rest)
  | '\\' :: 'f' :: rest => some ('\x0c', rest)
  | '\\' :: 'r' :: rest => some ('\r', rest)
  | '\\' :: c :: rest => some (c, rest)
  | c :: rest => some (c, rest)
  | [] => none

/-- A hexadecimal digit has the value that it was written of. -/
theorem hexValue_digitChar : ∀ d < 16, hexValue (Nat.digitChar d) = d := by decide

/-- An escaped character is read back, and the rest is left. -/
theorem unescape_escapeChar (c : Char) (rest : List Char) :
    unescape (escapeChar c ++ rest) = some (c, rest) := by
  unfold escapeChar
  by_cases hquote : c = '\"'
  · simp [hquote, unescape]
  by_cases hslash : c = '\\'
  · simp [hslash, unescape]
  by_cases hb : c = '\x08'
  · simp [hb, unescape]
  by_cases ht : c = '\t'
  · simp [ht, unescape]
  by_cases hn : c = '\n'
  · simp [hn, unescape]
  by_cases hf : c = '\x0c'
  · simp [hf, unescape]
  by_cases hr : c = '\r'
  · simp [hr, unescape]
  by_cases hcontrol : c.toNat < 32
  · have hhigh := hexValue_digitChar (c.toNat / 16) (by omega)
    have hlow := hexValue_digitChar (c.toNat % 16) (by omega)
    have hsum : 16 * (c.toNat / 16) + c.toNat % 16 = c.toNat := by omega
    simp [hquote, hslash, hb, ht, hn, hf, hr, hcontrol, unescape, hhigh, hlow, hsum]
  · simp only [hquote, hslash, hb, ht, hn, hf, hr, hcontrol, if_false, List.singleton_append]
    rw [unescape.eq_def]
    split <;> simp_all

/-- Escaped characters form a prefix code. -/
theorem escapeChar_prefixCode : PrefixCode escapeChar := .of_reader unescape_escapeChar

/-- No escaped character begins with the closing quote. -/
theorem escapeChar_ne_quote (c : Char) :
    ∃ first rest, escapeChar c = first :: rest ∧ first ≠ '\"' := by
  unfold escapeChar
  split_ifs with hquote
  all_goals first
    | exact ⟨_, _, rfl, by decide⟩
    | exact ⟨_, _, rfl, hquote⟩

/-- A quoted text is its escaped characters between two marks. -/
theorem toList_quote (s : String) :
    (quote s).toList = '\"' :: (s.toList.flatMap escapeChar ++ ['\"']) := by
  simp [quote, String.toList_append]

/-- A string literal determines the string and what follows it. -/
theorem quote_append_inj {a b : String} {s t : List Char}
    (h : (quote a).toList ++ s = (quote b).toList ++ t) : a = b ∧ s = t := by
  simp only [toList_quote, List.cons_append, List.append_assoc, List.nil_append,
    List.cons.injEq, true_and] at h
  obtain ⟨hab, hst⟩ := escapeChar_prefixCode.closed escapeChar_ne_quote h
  exact ⟨String.toList_inj.mp hab, hst⟩

/-! ### Reading documents back -/

/-- What may follow a complete value: a comma or a closing bracket. -/
def EndsValue (c : Char) : Prop := c = ',' ∨ c = ']' ∨ c = '\x7d'

/-- The text of an integer does not run into what follows it. -/
theorem Number.text_avoids {n : Number} (hn : n.IsInt) :
    ∀ c ∈ n.text.toList, ¬EndsValue c := by
  cases n with
  | float text => exact hn.elim
  | int n =>
    have hdigits : ∀ m : ℕ, ∀ c ∈ m.repr.toList, ¬EndsValue c := by
      intro m c hc
      rw [Nat.toList_repr] at hc
      have hdigit : c.isDigit = true := Nat.isDigit_of_mem_toDigits (by decide) (by decide) hc
      rintro (rfl | rfl | rfl) <;> revert hdigit <;> decide
    intro c hc
    cases n with
    | ofNat m => exact hdigits m c hc
    | negSucc m =>
      simp only [Number.text, Int.repr, String.toList_append] at hc
      rcases List.mem_append.mp hc with hc | hc
      · obtain rfl : c = '-' := by simpa using hc
        simp [EndsValue]
      · exact hdigits _ c hc

/-- The first character of a canonical text tells the kind of its value. -/
inductive FirstChar : Json → Char → Prop where
  | null : FirstChar .null 'n'
  | true : FirstChar (.bool true) 't'
  | false : FirstChar (.bool false) 'f'
  | number {n : Number} {c : Char} (h : c.isDigit = true ∨ c = '-') : FirstChar (.number n) c
  | string {s : String} : FirstChar (.string s) '\"'
  | array {items : List Json} : FirstChar (.array items) '['
  | object {members : List (String × Json)} : FirstChar (.object members) '\x7b'

/-- Different integers have different texts. -/
theorem Number.text_injective {n m : Number} (hn : n.IsInt) (hm : m.IsInt)
    (h : n.text = m.text) : n = m := by
  cases n with
  | float text => exact hn.elim
  | int n =>
    cases m with
    | float text => exact hm.elim
    | int m => rw [Int.repr_injective h]

/-- The text of an integer begins with a digit or a sign. -/
theorem Number.exists_first {n : Number} (hn : n.IsInt) :
    ∃ c rest, n.text.toList = c :: rest ∧ (c.isDigit = true ∨ c = '-') := by
  cases n with
  | float text => exact hn.elim
  | int n =>
    cases n with
    | negSucc m => exact ⟨'-', (m + 1).repr.toList, by simp [Number.text, Int.repr], .inr rfl⟩
    | ofNat m =>
      simp only [Number.text, Int.repr, Nat.toList_repr]
      cases hdigits : Nat.toDigits 10 m with
      | nil => exact absurd hdigits Nat.toDigits_ne_nil
      | cons c rest =>
        refine ⟨c, rest, rfl, .inl (Nat.isDigit_of_mem_toDigits (b := 10) (n := m) ?_ ?_ ?_)⟩
        · decide
        · decide
        · simp [hdigits]

/-- An array is written as its items between brackets, separated by commas. -/
theorem toList_canonical_array (items : List Json) :
    (canonicalJsonValue (.array items)).toList =
      '[' :: (separated ',' (items.map fun v => (canonicalJsonValue v).toList) ++ [']']) := by
  simp [canonicalJsonValue, canonicalItems_eq_map, separated, Function.comp_def]

/-- An object is written as its sorted members between braces, separated by commas. -/
theorem toList_canonical_object (members : List (String × Json)) :
    (canonicalJsonValue (.object members)).toList = '\x7b' :: (separated ','
      ((sortedMembers members).map fun m => (canonicalMember m).toList) ++ ['\x7d']) := by
  simp [canonicalJsonValue_object, separated, Function.comp_def]

/-- The first character of a text tells what kind of document it is of. -/
theorem Json.WellFormed.exists_firstChar {v : Json} (hv : v.WellFormed) :
    ∃ c rest, (canonicalJsonValue v).toList = c :: rest ∧ FirstChar v c := by
  cases hv with
  | null => exact ⟨_, _, rfl, .null⟩
  | bool b => cases b <;> exact ⟨_, _, rfl, by constructor⟩
  | number hn =>
    obtain ⟨c, rest, htext, hc⟩ := Number.exists_first hn
    exact ⟨c, rest, htext, .number hc⟩
  | string s => exact ⟨_, _, toList_quote s, .string⟩
  | array => exact ⟨_, _, toList_canonical_array _, .array⟩
  | object => exact ⟨_, _, toList_canonical_object _, .object⟩

/-- Values with a common first character at the front of equal texts. -/
theorem Json.WellFormed.firstChar_eq {v w : Json} (hv : v.WellFormed) (hw : w.WellFormed)
    {s t : List Char}
    (h : (canonicalJsonValue v).toList ++ s = (canonicalJsonValue w).toList ++ t) :
    ∃ c, FirstChar v c ∧ FirstChar w c := by
  obtain ⟨c, rest, hc, hfirst⟩ := hv.exists_firstChar
  obtain ⟨c', rest', hc', hfirst'⟩ := hw.exists_firstChar
  rw [hc, hc', List.cons_append, List.cons_append, List.cons.injEq] at h
  exact ⟨c, hfirst, h.1 ▸ hfirst'⟩

/-- What every canonical text is read up to. -/
abbrev ReadsValue (v : Json) : Prop :=
  ReadsAs EndsValue Json.WellFormed (fun v => (canonicalJsonValue v).toList) Json.SameUpToOrder v

/-- A member of an object is read with its name. -/
theorem readsAs_canonicalMember {m : String × Json} (h : ReadsValue m.2) :
    ReadsAs EndsValue (fun m => m.2.WellFormed) (fun m => (canonicalMember m).toList)
      (fun m m' => m.1 = m'.1 ∧ m.2.SameUpToOrder m'.2) m := by
  intro m' hm' s t hs ht heq
  simp only [canonicalMember, String.toList_append, List.append_assoc] at heq
  obtain ⟨hname, hrest⟩ := quote_append_inj heq
  obtain ⟨hvalue, hst⟩ := h m'.2 hm' s t hs ht (List.append_cancel_left hrest)
  exact ⟨⟨hname, hvalue⟩, hst⟩

/-- An array is readable if its items are. -/
theorem readsValue_array {items : List Json} (hitems : ∀ v ∈ items, v.WellFormed)
    (ih : ∀ v ∈ items, ReadsValue v) : ReadsValue (.array items) := by
  intro w hw s t hs ht heq
  obtain ⟨c, hc, hc'⟩ := Json.WellFormed.firstChar_eq (.array hitems) hw heq
  cases hc
  cases hc' with
  | number h => simp at h
  | @array items' =>
    cases hw with
    | array hitems' =>
      simp only [toList_canonical_array, List.cons_append, List.append_assoc, List.nil_append,
        List.cons.injEq, true_and] at heq
      have hstart : ∀ v : Json, v.WellFormed → ∃ c rest,
          (canonicalJsonValue v).toList = c :: rest ∧ c ≠ ']' := by
        intro v hv
        obtain ⟨c, rest, htext, hfirst⟩ := hv.exists_firstChar
        refine ⟨c, rest, htext, ?_⟩
        rintro rfl
        cases hfirst with
        | number h => simp at h
      obtain ⟨hall, rfl⟩ := separated_closed (.inl rfl) (.inr (.inl rfl)) (by decide) hstart ih
        hitems hitems' heq
      refine ⟨.array hall.length_eq fun i v w hv hw => ?_, rfl⟩
      obtain ⟨hi, rfl⟩ := List.getElem?_eq_some_iff.mp hv
      obtain ⟨hi', rfl⟩ := List.getElem?_eq_some_iff.mp hw
      exact (List.forall₂_iff_get.mp hall).2 i hi hi'

/-- Related lists of members: equal names in the same order, and related values. -/
theorem forall₂_members {rel : Json → Json → Prop} {l l' : List (String × Json)}
    (h : List.Forall₂ (fun m m' => m.1 = m'.1 ∧ rel m.2 m'.2) l l') :
    l.map Prod.fst = l'.map Prod.fst ∧
      ∀ name v, (name, v) ∈ l → ∃ w, (name, w) ∈ l' ∧ rel v w := by
  induction h with
  | nil => simp
  | @cons m m' l l' hm _ ih =>
    obtain ⟨hname, hrel⟩ := hm
    refine ⟨by simp [hname, ih.1], fun name v hmem => ?_⟩
    rcases List.mem_cons.mp hmem with rfl | hmem
    · exact ⟨m'.2, by simp [show name = m'.1 from hname], hrel⟩
    · obtain ⟨w, hw, hvw⟩ := ih.2 name v hmem
      exact ⟨w, List.mem_cons_of_mem _ hw, hvw⟩

/-- An object is readable if its members are. -/
theorem readsValue_object {members : List (String × Json)}
    (hnames : (members.map Prod.fst).Nodup) (hmembers : ∀ m ∈ members, m.2.WellFormed)
    (ih : ∀ m ∈ members, ReadsValue m.2) : ReadsValue (.object members) := by
  intro w hw s t hs ht heq
  obtain ⟨c, hc, hc'⟩ := Json.WellFormed.firstChar_eq (.object hnames hmembers) hw heq
  cases hc
  cases hc' with
  | number h => simp at h
  | @object members' =>
    cases hw with
    | object hnames' hmembers' =>
      simp only [toList_canonical_object, List.cons_append, List.append_assoc, List.nil_append,
        List.cons.injEq, true_and] at heq
      have hstart : ∀ m : String × Json, m.2.WellFormed → ∃ c rest,
          (canonicalMember m).toList = c :: rest ∧ c ≠ '\x7d' := by
        intro m _
        refine ⟨'\"', m.1.toList.flatMap escapeChar ++ ['\"'] ++ ":".toList ++
          (canonicalJsonValue m.2).toList, ?_, by decide⟩
        simp [canonicalMember, toList_quote]
      obtain ⟨hall, rfl⟩ := separated_closed (.inl rfl) (.inr (.inr rfl)) (by decide) hstart
        (fun m hm => readsAs_canonicalMember (ih m ((mem_sortedMembers hnames m).mp hm)))
        (fun m hm => hmembers m ((mem_sortedMembers hnames m).mp hm))
        (fun m hm => hmembers' m ((mem_sortedMembers hnames' m).mp hm)) heq
      obtain ⟨hkeys, hvalues⟩ := forall₂_members hall
      refine ⟨.object (fun name => ?_) fun name v w hv hw => ?_, rfl⟩
      · rw [map_fst_sortedMembers, map_fst_sortedMembers] at hkeys
        rw [← List.mem_insertionSort (· ≤ ·), hkeys, List.mem_insertionSort]
      · obtain ⟨w', hw', hsame⟩ := hvalues name v ((mem_sortedMembers hnames _).mpr hv)
        have hfound := lookup_eq_some_of_mem hnames' ((mem_sortedMembers hnames' _).mp hw')
        obtain rfl : w' = w := by
          simpa [lookup_eq_some_of_mem hnames' hw] using hfound.symm
        exact hsame

/-- Every canonical text can be read off the front of whatever may follow a value. -/
theorem Json.WellFormed.readsValue {v : Json} (hv : v.WellFormed) : ReadsValue v := by
  induction hv with
  | array hitems ih => exact readsValue_array hitems ih
  | object hnames hmembers ih => exact readsValue_object hnames hmembers ih
  | null =>
    intro w hw s t hs ht heq
    obtain ⟨c, hc, hc'⟩ := Json.WellFormed.firstChar_eq .null hw heq
    cases hc
    cases hc' with
    | number h => simp at h
    | null => exact ⟨.null, List.append_cancel_left heq⟩
  | bool b =>
    intro w hw s t hs ht heq
    obtain ⟨c, hc, hc'⟩ := Json.WellFormed.firstChar_eq (.bool b) hw heq
    cases hc <;> cases hc' with
    | number h => simp at h
    | _ => exact ⟨.bool _, List.append_cancel_left heq⟩
  | string a =>
    intro w hw s t hs ht heq
    obtain ⟨c, hc, hc'⟩ := Json.WellFormed.firstChar_eq (.string a) hw heq
    cases hc
    cases hc' with
    | number h => simp at h
    | string =>
      obtain ⟨rfl, hst⟩ := quote_append_inj heq
      exact ⟨.string _, hst⟩
  | @number n hn =>
    intro w hw s t hs ht heq
    obtain ⟨c, hc, hc'⟩ := Json.WellFormed.firstChar_eq (.number hn) hw heq
    cases hc with
    | number h =>
    cases hw with
    | @number m hm =>
      obtain ⟨htext, hst⟩ := append_inj_of_avoids (Number.text_avoids hn)
        (Number.text_avoids hm) hs ht heq
      obtain rfl : n = m := Number.text_injective hn hm (String.toList_inj.mp htext)
      exact ⟨.number n, hst⟩
    | _ => cases hc' <;> simp at h

/-! ### Order of members does not matter -/

/-- Sorting distinct names gives one list for each set of names. -/
theorem sort_names_eq {keys keys' : List String} (hkeys : keys.Nodup) (hkeys' : keys'.Nodup)
    (h : ∀ name, name ∈ keys ↔ name ∈ keys') :
    keys.insertionSort (· ≤ ·) = keys'.insertionSort (· ≤ ·) := by
  have hperm : (keys.insertionSort (· ≤ ·)).Perm (keys'.insertionSort (· ≤ ·)) :=
    ((List.perm_insertionSort _ keys).trans ((List.perm_ext_iff_of_nodup hkeys hkeys').mpr h)).trans
      (List.perm_insertionSort _ keys').symm
  exact hperm.eq_of_pairwise' (List.pairwise_insertionSort _ _) (List.pairwise_insertionSort _ _)

/-- Documents that are the same up to order have the same canonical text. -/
theorem Json.SameUpToOrder.canonical_eq {v w : Json} (h : v.SameUpToOrder w)
    (hv : v.DistinctKeys) (hw : w.DistinctKeys) : canonicalJsonValue v = canonicalJsonValue w := by
  induction h with
  | null | bool | number | string => rfl
  | @array items items' hlength _ ih =>
    cases hv with
    | array hv =>
    cases hw with
    | array hw =>
      have hitems : items.map canonicalJsonValue = items'.map canonicalJsonValue := by
        apply List.ext_getElem (by simpa using hlength)
        intro i hi hi'
        simp only [List.length_map] at hi hi'
        simpa using ih i _ _ (List.getElem?_eq_getElem hi) (List.getElem?_eq_getElem hi')
          (hv _ (List.getElem_mem hi)) (hw _ (List.getElem_mem hi'))
      simp only [canonicalJsonValue, canonicalItems_eq_map, hitems]
  | @object members members' hnames _ ih =>
    cases hv with
    | object hnodup hv =>
    cases hw with
    | object hnodup' hw =>
      have hmembers : (sortedMembers members).map canonicalMember =
          (sortedMembers members').map canonicalMember := by
        simp only [sortedMembers, ← sort_names_eq hnodup hnodup' hnames, List.map_map]
        apply List.map_congr_left
        intro key hkey
        obtain ⟨⟨name, v⟩, hmem, rfl⟩ := List.mem_map.mp (List.mem_insertionSort _ |>.mp hkey)
        obtain ⟨⟨name', w⟩, hmem', hname⟩ :=
          List.mem_map.mp ((hnames name).mp (List.mem_map.mpr ⟨_, hmem, rfl⟩))
        obtain rfl : name' = name := hname
        have hvalue := ih name' v w hmem hmem' (hv _ hmem) (hw _ hmem')
        simp [canonicalMember, lookup_eq_some_of_mem hnodup hmem,
          lookup_eq_some_of_mem hnodup' hmem', hvalue]
      rw [canonicalJsonValue_object, canonicalJsonValue_object, hmembers]

/-- A well-formed document has distinct names. -/
theorem Json.WellFormed.distinctKeys {v : Json} (h : v.WellFormed) : v.DistinctKeys :=
  h.mono (fun _ _ => trivial) fun _ h => h

/-- Equal canonical texts come from documents that are the same up to order. -/
theorem Json.WellFormed.same_of_canonical_eq {v w : Json} (hv : v.WellFormed)
    (hw : w.WellFormed) (h : canonicalJsonValue v = canonicalJsonValue w) :
    v.SameUpToOrder w :=
  (hv.readsValue w hw [] [] (by simp [StopsAt]) (by simp [StopsAt]) (by simp [h])).1

/-- Canonical text is a faithful encoding that does not depend on the order of members: on
documents with integer numbers and distinct member names, of any depth and size, two texts
are equal exactly when the documents are the same up to the stored order of members. -/
theorem canonicalJsonValue_eq_iff {v w : Json} (hv : v.WellFormed) (hw : w.WellFormed) :
    canonicalJsonValue v = canonicalJsonValue w ↔ v.SameUpToOrder w :=
  ⟨hv.same_of_canonical_eq hw, fun h => h.canonical_eq hv.distinctKeys hw.distinctKeys⟩

/-- Two stored orders of the members of a nested object have one canonical text. -/
theorem canonicalJsonValue_eq_iff_reordered :
    canonicalJsonValue (.object [("z", .array [.null]), ("a", .object [("y", .bool true)])]) =
      canonicalJsonValue (.object [("a", .object [("y", .bool true)]), ("z", .array [.null])]) ↔
    Json.SameUpToOrder (.object [("z", .array [.null]), ("a", .object [("y", .bool true)])])
      (.object [("a", .object [("y", .bool true)]), ("z", .array [.null])]) := by
  have hinner : (Json.object [("y", .bool true)]).WellFormed :=
    .object (by simp) (by simpa using Json.Checked.bool _)
  have houter : (Json.array [.null]).WellFormed := .array (by simpa using Json.Checked.null)
  exact canonicalJsonValue_eq_iff (.object (by simp) (by simpa using ⟨houter, hinner⟩))
    (.object (by simp) (by simpa using ⟨hinner, houter⟩))

end ClavenarSdk
