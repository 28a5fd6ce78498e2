import ClavenarSdk.Encoding.Percent
import ClavenarSdk.Encoding.Readable
import Mathlib.Data.List.DropRight

/-!
# Path-relative references

How a reference such as `a/b?q` is resolved against the path of a hierarchical URL, following
the path states of the WHATWG URL standard: characters are stripped and escaped, the text is
split at slashes, and dot segments are removed. The drive letters of `file` URLs are left out.
-/

namespace Encoding

/-! ### Dot segments -/

/-- A single-dot segment, in any spelling of the dot. -/
def IsSingleDot (segment : List Char) : Prop :=
  segment ∈ [['.'], ['%', '2', 'e'], ['%', '2', 'E']]

/-- A double-dot segment, in any spelling of the dots. -/
def IsDoubleDot (segment : List Char) : Prop :=
  segment ∈ [['.', '.'], ['.', '%', '2', 'e'], ['.', '%', '2', 'E'], ['%', '2', 'e', '.'],
    ['%', '2', 'E', '.'], ['%', '2', 'e', '%', '2', 'e'], ['%', '2', 'e', '%', '2', 'E'],
    ['%', '2', 'E', '%', '2', 'e'], ['%', '2', 'E', '%', '2', 'E']]

instance (segment : List Char) : Decidable (IsSingleDot segment) :=
  inferInstanceAs (Decidable (segment ∈ _))

instance (segment : List Char) : Decidable (IsDoubleDot segment) :=
  inferInstanceAs (Decidable (segment ∈ _))

/-- A segment that does not stand for itself. -/
def IsDot (segment : List Char) : Prop := IsSingleDot segment ∨ IsDoubleDot segment

instance (segment : List Char) : Decidable (IsDot segment) :=
  inferInstanceAs (Decidable (_ ∨ _))

/-- Every spelling of a single dot is read as one. -/
theorem percentDecode_of_isSingleDot {segment : List Char} (h : IsSingleDot segment) :
    percentDecode segment = [0x2e] := by
  simp only [IsSingleDot, List.mem_cons, List.not_mem_nil, or_false] at h
  rcases h with rfl | rfl | rfl <;> decide

/-- Every spelling of two dots is read as two. -/
theorem percentDecode_of_isDoubleDot {segment : List Char} (h : IsDoubleDot segment) :
    percentDecode segment = [0x2e, 0x2e] := by
  simp only [IsDoubleDot, List.mem_cons, List.not_mem_nil, or_false] at h
  rcases h with rfl | rfl | rfl | rfl | rfl | rfl | rfl | rfl | rfl <;> decide

/-- The empty segment is no dot segment. -/
theorem not_isDot_nil : ¬IsDot [] := by decide

/-! ### Walking along a path -/

/-- The path after a segment that a slash follows. -/
def walk (path : List (List Char)) (segment : List Char) : List (List Char) :=
  if IsDoubleDot segment then path.dropLast
  else if IsSingleDot segment then path
  else path ++ [segment]

/-- The path after the last segment. A dot segment at the end leaves an empty one. -/
def arrive (path : List (List Char)) (segment : List Char) : List (List Char) :=
  if IsDoubleDot segment then path.dropLast ++ [[]]
  else if IsSingleDot segment then path ++ [[]]
  else path ++ [segment]

/-- The path at the end of a list of segments. -/
def resolve (path : List (List Char)) : List (List Char) → List (List Char)
  | [] => path
  | [last] => arrive path last
  | segment :: next :: rest => resolve (walk path segment) (next :: rest)

/-- A segment without dots goes down by one. -/
theorem walk_of_not_isDot {path : List (List Char)} {segment : List Char} (h : ¬IsDot segment) :
    walk path segment = path ++ [segment] := by
  rw [IsDot, not_or] at h
  rw [walk, if_neg h.2, if_neg h.1]

/-- So does the last one. -/
theorem arrive_of_not_isDot {path : List (List Char)} {segment : List Char}
    (h : ¬IsDot segment) : arrive path segment = path ++ [segment] := by
  rw [IsDot, not_or] at h
  rw [arrive, if_neg h.2, if_neg h.1]

/-- Segments without dot segments among them are appended. -/
theorem resolve_of_forall_not_isDot {segments : List (List Char)}
    (h : ∀ segment ∈ segments, ¬IsDot segment) (path : List (List Char)) :
    resolve path segments = path ++ segments := by
  induction segments generalizing path with
  | nil => exact (List.append_nil path).symm
  | cons segment rest ih =>
    have hsegment : ¬IsDot segment := h segment (by simp)
    cases rest with
    | nil => exact arrive_of_not_isDot hsegment
    | cons next rest =>
      have hrest := ih (fun s hs => h s (by simp [hs])) (path ++ [segment])
      rw [resolve, walk_of_not_isDot hsegment, hrest, List.append_assoc, List.singleton_append]

/-- Every segment makes the path longer by at most one, and a dot segment does not. -/
theorem length_walk_le (path : List (List Char)) (segment : List Char) :
    (walk path segment).length ≤ path.length + 1 ∧
      (IsDot segment → (walk path segment).length ≤ path.length) := by
  by_cases hdot : IsDot segment
  · have hle : (walk path segment).length ≤ path.length := by
      unfold walk
      split_ifs with hdouble hsingle
      · rw [List.length_dropLast]
        omega
      · exact le_refl _
      · exact absurd hdot (not_or.mpr ⟨hsingle, hdouble⟩)
    exact ⟨hle.trans (Nat.le_succ _), fun _ => hle⟩
  · rw [walk_of_not_isDot hdot, List.length_append, List.length_singleton]
    exact ⟨le_refl _, fun h => absurd h hdot⟩

/-- The last segment adds at most one. -/
theorem length_arrive_le (path : List (List Char)) (segment : List Char) :
    (arrive path segment).length ≤ path.length + 1 := by
  unfold arrive
  split_ifs
  · rw [List.length_append, List.length_dropLast, List.length_singleton]
    omega
  · rw [List.length_append, List.length_singleton]
  · rw [List.length_append, List.length_singleton]

/-- Resolution adds at most one segment for each of the reference. -/
theorem length_resolve_le (path segments : List (List Char)) :
    (resolve path segments).length ≤ path.length + segments.length := by
  induction segments generalizing path with
  | nil => exact le_refl _
  | cons segment rest ih =>
    cases rest with
    | nil => exact length_arrive_le path segment
    | cons next rest =>
      have hwalk := (length_walk_le path segment).1
      have hrest := ih (walk path segment)
      rw [resolve]
      simp only [List.length_cons] at hrest ⊢
      omega

/-- A dot segment before the end makes the path shorter than the segments would have it. -/
theorem length_resolve_lt (before : List (List Char)) {after : List (List Char)}
    {dot : List Char} (h : IsDot dot) (hafter : after ≠ []) (path : List (List Char)) :
    (resolve path (before ++ dot :: after)).length <
      path.length + (before ++ dot :: after).length := by
  induction before generalizing path with
  | nil =>
    obtain ⟨next, rest, rfl⟩ := List.exists_cons_of_ne_nil hafter
    have hwalk := (length_walk_le path dot).2 h
    have hrest := length_resolve_le (walk path dot) (next :: rest)
    rw [List.nil_append, resolve]
    simp only [List.length_cons] at hrest ⊢
    omega
  | cons segment before ih =>
    have hwalk := (length_walk_le path segment).1
    have hrest := ih (walk path segment)
    have hne : before ++ dot :: after ≠ [] := by simp
    obtain ⟨next, rest, heq⟩ := List.exists_cons_of_ne_nil hne
    rw [heq] at hrest
    rw [List.cons_append, heq, resolve]
    simp only [List.length_cons] at hrest ⊢
    omega

/-- A dot segment at the end leaves an empty segment. -/
theorem resolve_append_dot (before : List (List Char)) {dot : List Char} (h : IsDot dot)
    (path : List (List Char)) : ∃ rest, resolve path (before ++ [dot]) = rest ++ [[]] := by
  induction before generalizing path with
  | nil =>
    rw [List.nil_append, resolve, arrive]
    split_ifs with hdouble hsingle
    · exact ⟨path.dropLast, rfl⟩
    · exact ⟨path, rfl⟩
    · exact absurd h (not_or.mpr ⟨hsingle, hdouble⟩)
  | cons segment before ih =>
    obtain ⟨next, rest, heq⟩ := List.exists_cons_of_ne_nil (show before ++ [dot] ≠ [] by simp)
    have htail := ih (walk path segment)
    rw [heq] at htail
    rw [List.cons_append, heq, resolve]
    exact htail

/-! ### Where the segments of a resolved path come from -/

/-- The segments with a dot segment at the end emptied. -/
def settled : List (List Char) → List (List Char)
  | [] => []
  | [last] => [if IsDot last then [] else last]
  | segment :: next :: rest => segment :: settled (next :: rest)

/-- Removing the last segment removes a pushed one if there is any. -/
theorem dropLast_take_append (base pushed : List (List Char)) (k : ℕ) :
    ∃ n left, (base.take k ++ pushed).dropLast = base.take n ++ left ∧ left.Sublist pushed := by
  cases pushed using List.reverseRecOn with
  | nil =>
    refine ⟨min (((base.take k).length) - 1) k, [], ?_, .refl _⟩
    rw [List.append_nil, List.append_nil, List.dropLast_eq_take, List.take_take]
  | append_singleton pushed last =>
    refine ⟨k, pushed, ?_, List.sublist_append_left _ _⟩
    rw [← List.append_assoc, List.dropLast_concat]

/-- One step leaves a beginning of the base and, after it, some of the segments pushed so far. -/
theorem walk_take_append (base pushed : List (List Char)) (k : ℕ) (segment : List Char) :
    ∃ n left, walk (base.take k ++ pushed) segment = base.take n ++ left ∧
      left.Sublist (pushed ++ [segment]) := by
  unfold walk
  split_ifs
  · obtain ⟨n, left, heq, hleft⟩ := dropLast_take_append base pushed k
    exact ⟨n, left, heq, hleft.trans (List.sublist_append_left _ _)⟩
  · exact ⟨k, pushed, rfl, List.sublist_append_left _ _⟩
  · exact ⟨k, pushed ++ [segment], List.append_assoc _ _ _, .refl _⟩

/-- So does the last step. -/
theorem arrive_take_append (base pushed : List (List Char)) (k : ℕ) (segment : List Char) :
    ∃ n left, arrive (base.take k ++ pushed) segment = base.take n ++ left ∧
      left.Sublist (pushed ++ settled [segment]) := by
  by_cases hdot : IsDot segment
  · rw [settled, if_pos hdot]
    unfold arrive
    split_ifs with hdouble hsingle
    · obtain ⟨n, left, heq, hleft⟩ := dropLast_take_append base pushed k
      refine ⟨n, left ++ [[]], ?_, hleft.append (.refl _)⟩
      rw [heq, List.append_assoc]
    · exact ⟨k, pushed ++ [[]], List.append_assoc _ _ _, .refl _⟩
    · exact absurd hdot (not_or.mpr ⟨hsingle, hdouble⟩)
  · rw [settled, if_neg hdot, arrive_of_not_isDot hdot]
    exact ⟨k, pushed ++ [segment], List.append_assoc _ _ _, .refl _⟩

/-- Resolution leaves a beginning of the base and, after it, some of the segments of the reference
in their order. -/
theorem resolve_take_append (base pushed : List (List Char)) (k : ℕ)
    (segments : List (List Char)) :
    ∃ n left, resolve (base.take k ++ pushed) segments = base.take n ++ left ∧
      left.Sublist (pushed ++ settled segments) := by
  induction segments generalizing k pushed with
  | nil => exact ⟨k, pushed, rfl, List.sublist_append_left _ _⟩
  | cons segment rest ih =>
    cases rest with
    | nil => exact arrive_take_append base pushed k segment
    | cons next rest =>
      obtain ⟨n, left, hwalk, hleft⟩ := walk_take_append base pushed k segment
      obtain ⟨m, out, hout, hsub⟩ := ih left n
      refine ⟨m, out, ?_, hsub.trans ?_⟩
      · rw [resolve, hwalk, hout]
      · have hsettled := hleft.append (List.Sublist.refl (settled (next :: rest)))
        rwa [List.append_assoc, List.singleton_append] at hsettled

/-- A resolved path begins with a beginning of the base path, and the rest are segments of the
reference in their order. -/
theorem resolve_eq_take_append (base segments : List (List Char)) :
    ∃ n left, resolve base segments = base.take n ++ left ∧ left.Sublist (settled segments) := by
  have h := resolve_take_append base [] base.length segments
  rwa [List.take_length, List.append_nil, List.nil_append] at h

/-! ### The segments of a reference -/

/-- The characters that are escaped in a path. -/
def inPathSet (c : Char) : Bool :=
  c.toNat ≤ 0x20 || 0x7e < c.toNat || c ∈ ['"', '#', '<', '>', '?', '^', '\x60', '\x7b', '\x7d']

/-- These are the characters that are escaped in a path, where the circumflex may ride through:
it entered the standard late. -/
def EscapesPath (escapes : Char → Bool) : Prop := ∀ c, c ≠ '^' → escapes c = inPathSet c

/-- A segment as it is stored in a path. -/
def encodeSegment (escapes : Char → Bool) (cs : List Char) : List Char :=
  cs.flatMap fun c => if escapes c then (String.utf8EncodeChar c).flatMap escapeByte else [c]

/-- The text without control characters and spaces at its ends and without tabs and line breaks
anywhere. -/
def clean (cs : List Char) : List Char :=
  ((cs.dropWhile fun c => c.toNat ≤ 0x20).rdropWhile fun c => c.toNat ≤ 0x20).filter fun c =>
    c ∉ ['\t', '\n', '\r']

/-- A separator of path segments; special schemes have two. -/
def isSeparator (special : Bool) (c : Char) : Bool := c == '/' || special && c == '\\'

/-- The text begins with a scheme. -/
def hasScheme (cs : List Char) : Bool :=
  let name := cs.takeWhile fun c => c ≠ ':'
  name.length < cs.length && name.head?.any Char.isAlpha &&
    name.all fun c => c.isAlphanum || c ∈ ['+', '-', '.']

/-- The reference has neither scheme nor host, and its path is relative. -/
def isPathRelative (special : Bool) (cs : List Char) : Bool :=
  !hasScheme cs && cs.head?.any fun c => !isSeparator special c && c ∉ ['?', '#']

/-- The path of the reference. -/
def pathPart (cs : List Char) : List Char := cs.takeWhile fun c => c ≠ '?' && c ≠ '#'

/-- Resolve a path-relative reference in the directory with these segments. -/
def resolveReference (escapes : Char → Bool) (special : Bool) (directory : List (List Char))
    (reference : List Char) : Option (List (List Char)) :=
  if isPathRelative special (clean reference) then
    some (resolve directory
      (((pathPart (clean reference)).splitOnP (isSeparator special)).map (encodeSegment escapes)))
  else none

/-- Hexadecimal digits are not escaped. -/
theorem inPathSet_of_hexValue {c : Char} {n : ℕ} (h : hexValue c = some n) :
    inPathSet c = false := by
  have hrange : 48 ≤ c.toNat ∧ c.toNat ≤ 57 ∨ 65 ≤ c.toNat ∧ c.toNat ≤ 70 ∨
      97 ≤ c.toNat ∧ c.toNat ≤ 102 := by
    unfold hexValue at h
    split_ifs at h with h1 h2 h3
    · exact .inl h1
    · exact .inr (.inl h2)
    · exact .inr (.inr h3)
  have hall : ∀ n < 103, 48 ≤ n ∧ n ≤ 57 ∨ 65 ≤ n ∧ n ≤ 70 ∨ 97 ≤ n ∧ n ≤ 102 →
      inPathSet (Char.ofNat n) = false := by decide
  have hc := hall c.toNat (by omega) hrange
  rwa [Char.ofNat_toNat] at hc

/-- The circumflex is in the set, so a character outside it rides through either way. -/
theorem EscapesPath.eq_false {escapes : Char → Bool} (h : EscapesPath escapes) {c : Char}
    (hc : inPathSet c = false) : escapes c = false := by
  have hne : c ≠ '^' := by
    rintro rfl
    exact absurd hc (by decide)
  rw [h c hne, hc]

section

variable {escapes : Char → Bool}

/-- An escaped character is stored as the escapes of its bytes. -/
theorem encodeSegment_cons_of_mem {c : Char} (h : escapes c = true) (cs : List Char) :
    encodeSegment escapes (c :: cs) =
      (String.utf8EncodeChar c).flatMap escapeByte ++ encodeSegment escapes cs := by
  rw [encodeSegment, List.flatMap_cons, if_pos h, encodeSegment]

/-- Any other character is stored as it is. -/
theorem encodeSegment_cons_of_not_mem {c : Char} (h : escapes c = false) (cs : List Char) :
    encodeSegment escapes (c :: cs) = c :: encodeSegment escapes cs := by
  have hneg : ¬escapes c = true := by simp [h]
  rw [encodeSegment, List.flatMap_cons, if_neg hneg, encodeSegment, List.singleton_append]

/-- A segment without characters to escape is stored as it is. -/
theorem encodeSegment_of_forall {cs : List Char} (h : ∀ c ∈ cs, escapes c = false) :
    encodeSegment escapes cs = cs := by
  induction cs with
  | nil => rfl
  | cons c cs ih =>
    rw [encodeSegment_cons_of_not_mem (h c (by simp)), ih fun c hc => h c (by simp [hc])]

/-- Escaped bytes are read back, whatever follows them. -/
theorem percentDecode_escapes (bytes : List UInt8) (rest : List Char) :
    percentDecode (bytes.flatMap escapeByte ++ rest) = bytes ++ percentDecode rest := by
  induction bytes with
  | nil => rfl
  | cons b bytes ih =>
    rw [List.flatMap_cons, List.append_assoc, percentDecode_escapeByte, ih, List.cons_append]

/-- A hexadecimal digit at the front of a stored segment was there before. -/
theorem head_of_encodeSegment {d : Char} {n : ℕ} (hd : hexValue d = some n) {cs tail : List Char}
    (h : encodeSegment escapes cs = d :: tail) :
    ∃ cs', cs = d :: cs' ∧ encodeSegment escapes cs' = tail := by
  cases cs with
  | nil => simp [encodeSegment] at h
  | cons c cs =>
    cases hset : escapes c with
    | true =>
      have hbytes := length_utf8EncodeChar_pos c
      obtain ⟨b, bytes, hb⟩ := List.exists_cons_of_length_pos hbytes
      rw [encodeSegment_cons_of_mem hset, hb, List.flatMap_cons, escapeByte] at h
      have hnone : hexValue '%' = none := by decide
      rw [← (List.cons.inj h).1, hnone] at hd
      cases hd
    | false =>
      rw [encodeSegment_cons_of_not_mem hset] at h
      obtain ⟨rfl, rfl⟩ := List.cons.inj h
      exact ⟨cs, rfl, rfl⟩

/-- Storing a segment in a path does not change what it decodes to. -/
theorem percentDecode_encodeSegment (hescapes : EscapesPath escapes) (cs : List Char) :
    percentDecode (encodeSegment escapes cs) = percentDecode cs := by
  induction cs using percentDecode_induction with
  | nil => rfl
  | escape d e rest high low hd he ih =>
    have hpercent : escapes '%' = false := hescapes.eq_false (by decide)
    have hdigit := hescapes.eq_false (inPathSet_of_hexValue hd)
    have hdigit' := hescapes.eq_false (inPathSet_of_hexValue he)
    rw [encodeSegment_cons_of_not_mem hpercent, encodeSegment_cons_of_not_mem hdigit,
      encodeSegment_cons_of_not_mem hdigit', percentDecode_escape hd he,
      percentDecode_escape hd he, ih]
  | plain c rest hhead ih =>
    cases hset : escapes c with
    | true =>
      rw [encodeSegment_cons_of_mem hset, percentDecode_escapes, percentDecode_cons hhead, ih]
    | false =>
      have hhead' : ¬EscapeAtHead (c :: encodeSegment escapes rest) := by
        rintro ⟨d, e, tail, high, low, heq, hd, he⟩
        obtain ⟨rfl, htail⟩ := List.cons.inj heq
        obtain ⟨rest', rfl, htail'⟩ := head_of_encodeSegment hd htail
        obtain ⟨rest'', rfl, -⟩ := head_of_encodeSegment he htail'
        exact hhead ⟨d, e, rest'', high, low, rfl, hd, he⟩
      rw [encodeSegment_cons_of_not_mem hset, percentDecode_cons hhead',
        percentDecode_cons hhead, ih]

end

/-! ### References that begin with a plain name -/

/-- A slash before any colon shows that there is no scheme. -/
theorem hasScheme_append_slash {lead : List Char} (h : ':' ∉ lead) (rest : List Char) :
    hasScheme (lead ++ '/' :: rest) = false := by
  have hname : ((lead ++ '/' :: rest).takeWhile fun c => c ≠ ':') =
      lead ++ '/' :: rest.takeWhile fun c => c ≠ ':' := by
    have hlead : ∀ c ∈ lead, (decide (c ≠ ':')) = true := by
      intro c hc
      rw [decide_eq_true_eq]
      rintro rfl
      exact h hc
    rw [List.takeWhile_append_of_pos hlead, List.takeWhile_cons_of_pos (by decide)]
  have hslash : ((lead ++ '/' :: rest.takeWhile fun c => c ≠ ':').all fun c =>
      c.isAlphanum || c ∈ ['+', '-', '.']) = false := by
    rw [List.all_append, List.all_cons]
    simp
  rw [hasScheme, hname, hslash, Bool.and_false]

/-- Tabs and line breaks are not printable. -/
theorem filter_eq_self_of_printable {cs : List Char} (h : ∀ c ∈ cs, 0x20 < c.toNat) :
    (cs.filter fun c => c ∉ ['\t', '\n', '\r']) = cs := by
  rw [List.filter_eq_self]
  intro c hc
  have hlow := h c hc
  rw [decide_eq_true_eq]
  simp only [List.mem_cons, List.not_mem_nil, or_false]
  rintro (rfl | rfl | rfl) <;> exact absurd hlow (by decide)

/-- A printable text has nothing to clean away. -/
theorem clean_of_forall {cs : List Char} (h : ∀ c ∈ cs, 0x20 < c.toNat) : clean cs = cs := by
  have hdrop : (cs.dropWhile fun c => c.toNat ≤ 0x20) = cs := by
    cases cs with
    | nil => rfl
    | cons c cs =>
      have hc := h c (by simp)
      rw [List.dropWhile_cons_of_neg]
      simpa using hc
  have hrdrop : (cs.rdropWhile fun c => c.toNat ≤ 0x20) = cs := by
    rw [List.rdropWhile_eq_self_iff]
    intro hne
    have hlast := h _ (List.getLast_mem hne)
    simpa using hlast
  rw [clean, hdrop, hrdrop, filter_eq_self_of_printable h]

/-- A character that means itself everywhere in a path. -/
def isPlain (c : Char) : Bool := !inPathSet c && c ∉ ['/', '\\', ':']

/-- Plain characters are not escaped in a path. -/
theorem inPathSet_of_isPlain {c : Char} (h : isPlain c = true) : inPathSet c = false := by
  rw [isPlain, Bool.and_eq_true, Bool.not_eq_true'] at h
  exact h.1

/-- A segment of plain characters is stored as it is. -/
theorem EscapesPath.encodeSegment_eq {escapes : Char → Bool} (h : EscapesPath escapes)
    {cs : List Char} (hplain : ∀ c ∈ cs, isPlain c = true) : encodeSegment escapes cs = cs :=
  encodeSegment_of_forall fun c hc => h.eq_false (inPathSet_of_isPlain (hplain c hc))

/-- Characters that are not escaped in a path are printable. -/
theorem lt_toNat_of_not_inPathSet {c : Char} (h : inPathSet c = false) : 0x20 < c.toNat := by
  simp only [inPathSet, Bool.or_eq_false_iff, decide_eq_false_iff_not] at h
  omega

/-- Plain characters have no meaning in a reference. -/
theorem ne_of_isPlain {c : Char} (h : isPlain c = true) :
    c ≠ '/' ∧ c ≠ '\\' ∧ c ≠ ':' ∧ c ≠ '?' ∧ c ≠ '#' := by
  refine ⟨?_, ?_, ?_, ?_, ?_⟩ <;> rintro rfl <;> exact absurd h (by decide)

/-- Segments without separators are split where they were put together. -/
theorem splitOnP_separated {special : Bool} {segments : List (List Char)} (hne : segments ≠ [])
    (h : ∀ segment ∈ segments, ∀ c ∈ segment, isSeparator special c = false) :
    (separated '/' segments).splitOnP (isSeparator special) = segments := by
  induction segments with
  | nil => exact absurd rfl hne
  | cons segment rest ih =>
    have hsegment := h segment (by simp)
    cases rest with
    | nil =>
      rw [separated_singleton]
      exact List.splitOnP_eq_singleton hsegment
    | cons next rest =>
      have hslash : isSeparator special '/' = true := by simp [isSeparator]
      rw [separated_cons_cons, List.splitOnP_append_cons_of_forall_mem hsegment '/' hslash,
        ih (by simp) fun s hs => h s (by simp [hs])]

/-- A reference is empty after its path or goes on with a query of printable characters. -/
def IsQuery (tail : List Char) : Prop :=
  tail = [] ∨ ∃ query, tail = '?' :: query ∧ ∀ c ∈ query, 0x20 < c.toNat

/-- A reference made of plain segments is resolved segment by segment. -/
theorem resolveReference_separated {escapes : Char → Bool} (hescapes : EscapesPath escapes)
    {special : Bool} {directory segments : List (List Char)} {lead next : List Char}
    {tail : List Char} (hlead : lead ≠ [])
    (h : ∀ segment ∈ lead :: next :: segments, ∀ c ∈ segment, isPlain c = true)
    (htail : IsQuery tail) :
    resolveReference escapes special directory
        (separated '/' (lead :: next :: segments) ++ tail) =
      some (resolve directory (lead :: next :: segments)) := by
  have hpath : ∀ c ∈ separated '/' (lead :: next :: segments), 0x20 < c.toNat ∧
      c ≠ '?' ∧ c ≠ '#' := by
    intro c hc
    rcases mem_separated hc with rfl | ⟨segment, hsegment, hc⟩
    · decide
    · have hplain := h segment hsegment c hc
      have hne := ne_of_isPlain hplain
      exact ⟨lt_toNat_of_not_inPathSet (inPathSet_of_isPlain hplain), hne.2.2.2.1, hne.2.2.2.2⟩
  have hclean : clean (separated '/' (lead :: next :: segments) ++ tail) =
      separated '/' (lead :: next :: segments) ++ tail := by
    apply clean_of_forall
    intro c hc
    rcases List.mem_append.mp hc with hc | hc
    · exact (hpath c hc).1
    · rcases htail with rfl | ⟨query, rfl, hquery⟩
      · simp at hc
      · rcases List.mem_cons.mp hc with rfl | hc
        · decide
        · exact hquery c hc
  obtain ⟨c, lead, rfl⟩ := List.exists_cons_of_ne_nil hlead
  have hc := ne_of_isPlain (h (c :: lead) (by simp) c (by simp))
  have hcolon : ':' ∉ c :: lead := by
    intro hmem
    exact (ne_of_isPlain (h (c :: lead) (by simp) ':' hmem)).2.2.1 rfl
  have hscheme : hasScheme (separated '/' ((c :: lead) :: next :: segments) ++ tail) = false := by
    rw [separated_cons_cons, List.append_assoc, List.cons_append]
    exact hasScheme_append_slash hcolon _
  have hrelative : isPathRelative special (separated '/' ((c :: lead) :: next :: segments) ++
      tail) = true := by
    rw [isPathRelative, hscheme, separated_cons_cons, List.append_assoc, List.cons_append,
      List.head?_cons, Option.any_some]
    have hsep : isSeparator special c = false := by simp [isSeparator, hc]
    simp [hsep, hc]
  have hpart : pathPart (separated '/' ((c :: lead) :: next :: segments) ++ tail) =
      separated '/' ((c :: lead) :: next :: segments) := by
    have hkeep : ∀ c' ∈ separated '/' ((c :: lead) :: next :: segments),
        (c' ≠ '?' && c' ≠ '#') = true := by
      intro c' hc'
      simp [(hpath c' hc').2]
    rw [pathPart, List.takeWhile_append_of_pos hkeep]
    rcases htail with rfl | ⟨query, rfl, -⟩
    · simp
    · rw [List.takeWhile_cons_of_neg (by simp), List.append_nil]
  have hsplit : (separated '/' ((c :: lead) :: next :: segments)).splitOnP
      (isSeparator special) = (c :: lead) :: next :: segments := by
    refine splitOnP_separated (by simp) fun segment hsegment c' hc' => ?_
    have hplain := ne_of_isPlain (h segment hsegment c' hc')
    simp [isSeparator, hplain]
  have hstored : ((c :: lead) :: next :: segments).map (encodeSegment escapes) =
      (c :: lead) :: next :: segments := by
    have heach : ∀ segment ∈ (c :: lead) :: next :: segments,
        encodeSegment escapes segment = segment :=
      fun segment hsegment => hescapes.encodeSegment_eq (h segment hsegment)
    exact (List.map_congr_left heach).trans (List.map_id _)
  rw [resolveReference, hclean, if_pos hrelative, hpart, hsplit, hstored]

end Encoding
