import ClavenarSdk.Encoding.Percent
import ClavenarSdk.Encoding.Query

/-!
# Form-encoded queries

`application/x-www-form-urlencoded`. A space is written as `+`, letters, digits and four marks
stand for themselves, and all other bytes are escaped. Pairs are appended to the query of a URL
one by one, and read back by splitting and decoding it.
-/

namespace Encoding

/-- The bytes that stand for themselves. -/
def formKeeps (b : UInt8) : Bool :=
  (65 ≤ b.toNat && b.toNat ≤ 90) || (97 ≤ b.toNat && b.toNat ≤ 122) ||
    (48 ≤ b.toNat && b.toNat ≤ 57) || b.toNat == 42 || b.toNat == 45 || b.toNat == 46 ||
    b.toNat == 95

/-- A key or a value as it is written. -/
def formEncode (bytes : List UInt8) : List Char :=
  bytes.flatMap fun b =>
    if formKeeps b then [Char.ofNat b.toNat] else if b = 0x20 then ['+'] else escapeByte b

/-- The reader takes a plus sign for a space. -/
def plusToSpace (c : Char) : Char := if c = '+' then ' ' else c

/-- Read a key or a value. -/
def formDecode (cs : List Char) : List UInt8 := percentDecode (cs.map plusToSpace)

/-- What holds of plus and percent signs, of hexadecimal digits and of the kept characters holds
of every character that is written. -/
theorem forall_mem_formEncode {P : Char → Prop} (hplus : P '+') (hpercent : P '%')
    (hdigit : ∀ n < 16, P (hexUpper n))
    (hkept : ∀ n < 256, formKeeps (UInt8.ofNat n) = true → P (Char.ofNat n)) {bytes : List UInt8}
    {c : Char} (h : c ∈ formEncode bytes) : P c := by
  rw [formEncode, List.mem_flatMap] at h
  obtain ⟨b, -, hc⟩ := h
  have hlt : b.toNat < 256 := b.toNat_lt
  split_ifs at hc with hb hspace
  · rw [List.mem_singleton.mp hc]
    exact hkept b.toNat hlt (by rwa [UInt8.ofNat_toNat])
  · rw [List.mem_singleton.mp hc]
    exact hplus
  · simp only [escapeByte, List.mem_cons, List.not_mem_nil, or_false] at hc
    rcases hc with rfl | rfl | rfl
    · exact hpercent
    · exact hdigit _ (by omega)
    · exact hdigit _ (by omega)

/-- Escapes are read as escapes also after plus signs have become spaces. -/
theorem map_plusToSpace_escapeByte (b : UInt8) :
    (escapeByte b).map plusToSpace = escapeByte b := by
  have hdigit : ∀ n < 16, plusToSpace (hexUpper n) = hexUpper n := by decide
  have hb : b.toNat < 256 := b.toNat_lt
  have hpercent : plusToSpace '%' = '%' := by decide
  simp only [escapeByte, List.map_cons, List.map_nil, hpercent, hdigit (b.toNat / 16) (by omega),
    hdigit (b.toNat % 16) (by omega)]

/-- A written text is read back, whatever follows it. -/
theorem formDecode_formEncode_append (bytes : List UInt8) (rest : List Char) :
    formDecode (formEncode bytes ++ rest) = bytes ++ formDecode rest := by
  have hkept : ∀ n < 256, formKeeps (UInt8.ofNat n) = true → n < 128 ∧
      Char.ofNat n ≠ '%' ∧ plusToSpace (Char.ofNat n) = Char.ofNat n := by decide +kernel
  induction bytes with
  | nil => rfl
  | cons b bytes ih =>
    have hlt : b.toNat < 256 := b.toNat_lt
    rw [formDecode, List.map_append] at ih
    rw [formEncode, List.flatMap_cons, List.append_assoc, ← formEncode, formDecode,
      List.map_append, List.map_append]
    split_ifs with hb hspace
    · obtain ⟨hascii, hpercent, hplus⟩ := hkept b.toNat hlt (by rwa [UInt8.ofNat_toNat])
      rw [List.map_singleton, hplus, List.singleton_append,
        percentDecode_cons (not_escapeAtHead_of_ne hpercent), utf8EncodeChar_ofNat hascii, ih]
      rfl
    · have hchar : plusToSpace '+' = ' ' := by decide
      have hascii : String.utf8EncodeChar ' ' = [0x20] := by decide
      rw [List.map_singleton, hchar, List.singleton_append,
        percentDecode_cons (not_escapeAtHead_of_ne (by decide)), hascii, ih, hspace]
      rfl
    · rw [map_plusToSpace_escapeByte, percentDecode_escapeByte, ih]
      rfl

/-- A form decoder reads the bytes that were encoded. -/
@[simp] theorem formDecode_formEncode (bytes : List UInt8) :
    formDecode (formEncode bytes) = bytes := by
  have h := formDecode_formEncode_append bytes []
  rwa [List.append_nil, show formDecode [] = [] from rfl, List.append_nil] at h

/-- Written keys and values contain no separators. -/
theorem pieceSafe_formEncode (key value : List UInt8) :
    PieceSafe (formEncode key) (formEncode value) where
  key c hc := forall_mem_formEncode
    (P := fun c => c ≠ '=' ∧ c ≠ '&' ∧ c ≠ '#' ∧ 0x20 < c.toNat) (by decide) (by decide)
    (by decide) (by decide +kernel) hc
  value c hc := forall_mem_formEncode (P := fun c => c ≠ '&' ∧ c ≠ '#' ∧ 0x20 < c.toNat)
    (by decide) (by decide) (by decide) (by decide +kernel) hc

/-! ### Pairs -/

/-- Append a pair to the query of a URL. A separator is needed unless the query is empty. -/
def appendPair (query : Option (List Char)) (key value : List UInt8) : Option (List Char) :=
  let start := query.getD []
  some ((if start = [] then [] else start ++ ['&']) ++ (formEncode key ++ '=' :: formEncode value))

/-- The pairs that are read in the query of a URL. -/
def formPairs (query : Option (List Char)) : List (List UInt8 × List UInt8) :=
  (queryPairs (query.getD [])).map fun pair => (formDecode pair.1, formDecode pair.2)

/-- A URL without a query has no pairs. -/
@[simp] theorem formPairs_none : formPairs none = [] := rfl

/-- An appended pair is read back after the pairs that were there. -/
@[simp] theorem formPairs_appendPair (query : Option (List Char)) (key value : List UInt8) :
    formPairs (appendPair query key value) = formPairs query ++ [(key, value)] := by
  have hsafe := pieceSafe_formEncode key value
  have hread : (formDecode (formEncode key), formDecode (formEncode value)) = (key, value) := by
    rw [formDecode_formEncode, formDecode_formEncode]
  simp only [formPairs, appendPair, Option.getD_some]
  by_cases hempty : query.getD [] = []
  · have hpairs : queryPairs (separated '&' ([(formEncode key, formEncode value)].map
        fun pair => pair.1 ++ '=' :: pair.2)) = [(formEncode key, formEncode value)] :=
      queryPairs_separated (by simpa using hsafe)
    have hnone : queryPairs [] = [] := rfl
    rw [List.map_singleton, separated_singleton] at hpairs
    rw [hempty, if_pos rfl, List.nil_append, hpairs, hnone, List.map_singleton, hread]
    rfl
  · rw [if_neg hempty, List.append_assoc, List.singleton_append, queryPairs_append hsafe,
      List.map_append, List.map_singleton, hread]

end Encoding
