import Mathlib.Data.List.Basic
import Mathlib.Data.Char
import Mathlib.Tactic.IntervalCases

/-!
# Percent-encoding

A byte is written as itself or as `%` and two hexadecimal digits. The reader of the
WHATWG URL standard takes an escape wherever two hexadecimal digits follow a `%` and the
UTF-8 bytes of a character elsewhere.
-/

namespace Encoding

/-- The UTF-8 bytes of a text. -/
def utf8 (cs : List Char) : List UInt8 := cs.flatMap String.utf8EncodeChar

/-- The empty text has no bytes. -/
@[simp] theorem utf8_nil : utf8 [] = [] := rfl

/-- The bytes of the first character come before those of the others. -/
@[simp] theorem utf8_cons (c : Char) (cs : List Char) :
    utf8 (c :: cs) = String.utf8EncodeChar c ++ utf8 cs := rfl

/-- The bytes of a text are those of its parts. -/
@[simp] theorem utf8_append (cs ds : List Char) : utf8 (cs ++ ds) = utf8 cs ++ utf8 ds :=
  List.flatMap_append

/-- A text is determined by its bytes. -/
theorem utf8_injective : Function.Injective utf8 := by
  intro cs ds h
  have hbytes : (String.ofList cs).toByteArray = (String.ofList ds).toByteArray := by
    rw [String.toByteArray_ofList, String.toByteArray_ofList]
    exact congrArg List.toByteArray h
  exact String.ofList_injective (String.toByteArray_inj.mp hbytes)

/-- An upper-case hexadecimal digit. -/
def hexUpper (n : ℕ) : Char := if n < 10 then Char.ofNat (48 + n) else Char.ofNat (55 + n)

/-- The value of a hexadecimal digit of either case. -/
def hexValue (c : Char) : Option ℕ :=
  if 48 ≤ c.toNat ∧ c.toNat ≤ 57 then some (c.toNat - 48)
  else if 65 ≤ c.toNat ∧ c.toNat ≤ 70 then some (c.toNat - 55)
  else if 97 ≤ c.toNat ∧ c.toNat ≤ 102 then some (c.toNat - 87)
  else none

/-- An upper-case digit has the value that it was written of. -/
theorem hexValue_hexUpper {n : ℕ} (h : n < 16) : hexValue (hexUpper n) = some n := by
  interval_cases n <;> decide

/-- The escape of a byte. -/
def escapeByte (b : UInt8) : List Char :=
  ['%', hexUpper (b.toNat / 16), hexUpper (b.toNat % 16)]

/-- The bytes that `keep` selects stand for themselves, all others are escaped. -/
def percentEncode (keep : UInt8 → Bool) (bytes : List UInt8) : List Char :=
  bytes.flatMap fun b => if keep b then [Char.ofNat b.toNat] else escapeByte b

/-- Read a percent-encoded text. -/
def percentDecode : List Char → List UInt8
  | [] => []
  | [c] => String.utf8EncodeChar c
  | [c, d] => String.utf8EncodeChar c ++ String.utf8EncodeChar d
  | c :: d :: e :: rest =>
    match c == '%', hexValue d, hexValue e with
    | true, some high, some low => .ofNat (16 * high + low) :: percentDecode rest
    | _, _, _ => String.utf8EncodeChar c ++ percentDecode (d :: e :: rest)

/-! ### Reading -/

/-- The text begins with an escape. -/
def EscapeAtHead (cs : List Char) : Prop :=
  ∃ d e rest high low, cs = '%' :: d :: e :: rest ∧ hexValue d = some high ∧ hexValue e = some low

/-- An escape is read as its byte. -/
theorem percentDecode_escape {d e : Char} {high low : ℕ} (hd : hexValue d = some high)
    (he : hexValue e = some low) (rest : List Char) :
    percentDecode ('%' :: d :: e :: rest) = .ofNat (16 * high + low) :: percentDecode rest := by
  rw [percentDecode, hd, he]
  rfl

/-- A character that begins no escape is read as its own bytes. -/
theorem percentDecode_cons {c : Char} {rest : List Char} (h : ¬EscapeAtHead (c :: rest)) :
    percentDecode (c :: rest) = String.utf8EncodeChar c ++ percentDecode rest := by
  match rest with
  | [] => simp [percentDecode]
  | [d] => rfl
  | d :: e :: rest =>
    rw [percentDecode]
    split
    · next high low hc hd he =>
      have hhead : EscapeAtHead (c :: d :: e :: rest) :=
        ⟨d, e, rest, high, low, by rw [beq_iff_eq.mp hc], hd, he⟩
      exact absurd hhead h
    · rfl

/-- A text is read escape by escape and character by character. -/
@[elab_as_elim]
theorem percentDecode_induction {motive : List Char → Prop} (nil : motive [])
    (escape : ∀ d e rest high low, hexValue d = some high → hexValue e = some low →
      motive rest → motive ('%' :: d :: e :: rest))
    (plain : ∀ c rest, ¬EscapeAtHead (c :: rest) → motive rest → motive (c :: rest))
    (cs : List Char) : motive cs := by
  -- An escape skips three characters, so the induction is on the length.
  induction hn : cs.length using Nat.strong_induction_on generalizing cs with
  | _ n ih =>
    subst hn
    cases cs with
    | nil => exact nil
    | cons c rest =>
      by_cases h : EscapeAtHead (c :: rest)
      · obtain ⟨d, e, tail, high, low, heq, hd, he⟩ := h
        obtain ⟨rfl, rfl⟩ := List.cons.inj heq
        have hshort : tail.length < ('%' :: d :: e :: tail).length := by
          simp only [List.length_cons]
          omega
        exact escape d e tail high low hd he (ih _ hshort tail rfl)
      · exact plain c rest h (ih _ (Nat.lt_succ_self _) rest rfl)

/-- An escaped byte is read back. -/
theorem percentDecode_escapeByte (b : UInt8) (rest : List Char) :
    percentDecode (escapeByte b ++ rest) = b :: percentDecode rest := by
  have hb : b.toNat < 256 := b.toNat_lt
  have hhigh := hexValue_hexUpper (show b.toNat / 16 < 16 by omega)
  have hlow := hexValue_hexUpper (show b.toNat % 16 < 16 by omega)
  have hvalue : 16 * (b.toNat / 16) + b.toNat % 16 = b.toNat := by omega
  rw [escapeByte, List.cons_append, List.cons_append, List.cons_append, List.nil_append,
    percentDecode_escape hhigh hlow, hvalue, UInt8.ofNat_toNat]

/-- An escape begins with a percent sign. -/
theorem not_escapeAtHead_of_ne {c : Char} {rest : List Char} (h : c ≠ '%') :
    ¬EscapeAtHead (c :: rest) := by
  rintro ⟨d, e, tail, high, low, heq, -⟩
  exact h (List.cons.inj heq).1

/-- The character of a byte below 128 has that byte as its encoding. -/
theorem utf8EncodeChar_ofNat {b : UInt8} (h : b.toNat < 128) :
    String.utf8EncodeChar (Char.ofNat b.toNat) = [b] := by
  have hall : ∀ n < 128, String.utf8EncodeChar (Char.ofNat n) = [UInt8.ofNat n] := by decide
  rw [hall _ h, UInt8.ofNat_toNat]

/-- The bytes that stand for themselves are ASCII and not the percent sign. -/
def KeepsPlain (keep : UInt8 → Bool) : Prop :=
  ∀ b, keep b = true → b.toNat < 128 ∧ Char.ofNat b.toNat ≠ '%'

/-- An encoded text is read back, whatever follows it. -/
theorem percentDecode_percentEncode {keep : UInt8 → Bool} (hkeep : KeepsPlain keep)
    (bytes : List UInt8) (rest : List Char) :
    percentDecode (percentEncode keep bytes ++ rest) = bytes ++ percentDecode rest := by
  induction bytes with
  | nil => rfl
  | cons b bytes ih =>
    rw [percentEncode, List.flatMap_cons, List.append_assoc, ← percentEncode]
    split_ifs with hb
    · obtain ⟨hascii, hpercent⟩ := hkeep b hb
      rw [List.singleton_append, percentDecode_cons (not_escapeAtHead_of_ne hpercent),
        utf8EncodeChar_ofNat hascii, ih]
      rfl
    · rw [percentDecode_escapeByte, ih]
      rfl

/-! ### Texts that are read as they stand -/

/-- Somewhere in the text two hexadecimal digits follow a percent sign. -/
def HasEscape (cs : List Char) : Prop :=
  ∃ d e, ['%', d, e] <:+: cs ∧ (hexValue d).isSome ∧ (hexValue e).isSome

/-- A text that begins with an escape has one. -/
theorem EscapeAtHead.hasEscape {cs : List Char} (h : EscapeAtHead cs) : HasEscape cs := by
  obtain ⟨d, e, rest, high, low, rfl, hd, he⟩ := h
  refine ⟨d, e, ⟨[], rest, rfl⟩, ?_, ?_⟩
  · rw [hd]
    rfl
  · rw [he]
    rfl

/-- Where no escape begins, one is in the rest. -/
theorem hasEscape_cons {c : Char} {rest : List Char} (h : ¬EscapeAtHead (c :: rest)) :
    HasEscape (c :: rest) ↔ HasEscape rest := by
  constructor
  · rintro ⟨d, e, hinfix, hd, he⟩
    rcases List.infix_cons_iff.mp hinfix with ⟨tail, heq⟩ | hinfix
    · obtain ⟨high, hhigh⟩ := Option.isSome_iff_exists.mp hd
      obtain ⟨low, hlow⟩ := Option.isSome_iff_exists.mp he
      exact absurd ⟨d, e, tail, high, low, heq.symm, hhigh, hlow⟩ h
    · exact ⟨d, e, hinfix, hd, he⟩
  · rintro ⟨d, e, hinfix, hd, he⟩
    exact ⟨d, e, hinfix.trans (List.suffix_cons c rest).isInfix, hd, he⟩

/-- The empty text has no escape. -/
theorem not_hasEscape_nil : ¬HasEscape [] := by
  rintro ⟨d, e, hinfix, -⟩
  simpa using hinfix.length_le

/-- A text without escapes is read as its own bytes. -/
theorem percentDecode_of_not_hasEscape {cs : List Char} (h : ¬HasEscape cs) :
    percentDecode cs = utf8 cs := by
  induction cs with
  | nil => rfl
  | cons c rest ih =>
    have hhead : ¬EscapeAtHead (c :: rest) := fun hhead => h hhead.hasEscape
    rw [hasEscape_cons hhead] at h
    rw [percentDecode_cons hhead, ih h, utf8_cons]

/-- Every character has a byte. -/
theorem length_utf8EncodeChar_pos (c : Char) : 0 < (String.utf8EncodeChar c).length := by
  rw [String.length_utf8EncodeChar]
  exact c.utf8Size_pos

/-- Reading an escape shortens the text. -/
theorem length_percentDecode (cs : List Char) :
    (percentDecode cs).length ≤ (utf8 cs).length ∧
      (HasEscape cs → (percentDecode cs).length < (utf8 cs).length) := by
  induction cs using percentDecode_induction with
  | nil => exact ⟨le_refl _, fun h => absurd h not_hasEscape_nil⟩
  | escape d e rest high low hd he ih =>
    have hlt : (percentDecode ('%' :: d :: e :: rest)).length <
        (utf8 ('%' :: d :: e :: rest)).length := by
      have hpercent := length_utf8EncodeChar_pos '%'
      have hdpos := length_utf8EncodeChar_pos d
      rw [percentDecode_escape hd he]
      simp only [utf8_cons, List.length_cons, List.length_append]
      omega
    exact ⟨hlt.le, fun _ => hlt⟩
  | plain c rest hhead ih =>
    rw [percentDecode_cons hhead, hasEscape_cons hhead, utf8_cons, List.length_append,
      List.length_append]
    exact ⟨by omega, fun h => Nat.add_lt_add_left (ih.2 h) _⟩

/-- A text is read as its own bytes only if it has no escape: an escape takes three characters for
one byte. -/
theorem percentDecode_eq_utf8_iff {cs : List Char} :
    percentDecode cs = utf8 cs ↔ ¬HasEscape cs := by
  refine ⟨fun h hescape => ?_, percentDecode_of_not_hasEscape⟩
  have hlt := (length_percentDecode cs).2 hescape
  rw [h] at hlt
  exact lt_irrefl _ hlt

end Encoding
