import Mathlib.Algebra.Ring.Nat
import Mathlib.Data.List.Basic

/-!
# Hexadecimal text and UUIDs

`hex::encode` writes lower-case digits. A UUID is sixteen bytes; the `uuid` crate writes it
in the hyphenated form and reads the hyphenated, simple, braced and URN forms.
-/

namespace ClavenarSdk

/-- The two lower-case digits of a byte. -/
def hexByte (b : UInt8) : List Char :=
  [Nat.digitChar (b.toNat / 16), Nat.digitChar (b.toNat % 16)]

/-- `hex::encode`. -/
def hexEncode (bytes : List UInt8) : String := String.ofList (bytes.flatMap hexByte)

/-- The size of a text is the sum of those of its characters. -/
theorem utf8ByteSize_ofList (cs : List Char) :
    (String.ofList cs).utf8ByteSize = (cs.map Char.utf8Size).sum := by
  induction cs with
  | nil => rfl
  | cons c cs ih =>
    have hsplit : String.ofList (c :: cs) = String.singleton c ++ String.ofList cs := by
      apply String.toList_injective
      simp
    rw [hsplit, String.utf8ByteSize_append, String.utf8ByteSize_singleton, ih, List.map_cons,
      List.sum_cons]

/-- Hexadecimal text has two bytes for each byte. -/
theorem utf8ByteSize_hexEncode (bytes : List UInt8) :
    (hexEncode bytes).utf8ByteSize = 2 * bytes.length := by
  have hdigit : ∀ d < 16, (Nat.digitChar d).utf8Size = 1 := by decide
  rw [hexEncode, utf8ByteSize_ofList]
  induction bytes with
  | nil => rfl
  | cons b bytes ih =>
    have hlt : b.toNat < 256 := b.toNat_lt
    simp only [List.flatMap_cons, List.map_append, List.sum_append, ih, hexByte, List.map_cons,
      List.map_nil, List.sum_cons, List.sum_nil, hdigit (b.toNat / 16) (by omega),
      hdigit (b.toNat % 16) (by omega), List.length_cons]
    omega

/-- The value of a hexadecimal digit of either case. -/
def hexDigit (c : Char) : Option ℕ :=
  if '0' ≤ c ∧ c ≤ '9' then some (c.toNat - 48)
  else if 'a' ≤ c ∧ c ≤ 'f' then some (c.toNat - 87)
  else if 'A' ≤ c ∧ c ≤ 'F' then some (c.toNat - 55)
  else none

/-- Read pairs of hexadecimal digits. -/
def hexDecode : List Char → Option (List UInt8)
  | [] => some []
  | [_] => none
  | high :: low :: rest => do
    let h ← hexDigit high
    let l ← hexDigit low
    return UInt8.ofNat (16 * h + l) :: (← hexDecode rest)

/-- A digit has the value that it was written of. -/
theorem hexDigit_digitChar : ∀ d < 16, hexDigit (Nat.digitChar d) = some d := by decide

/-- Hexadecimal digits are read back. -/
theorem hexDecode_flatMap_hexByte (bytes : List UInt8) :
    hexDecode (bytes.flatMap hexByte) = some bytes := by
  induction bytes with
  | nil => rfl
  | cons b bytes ih =>
    have hlt : b.toNat < 256 := b.toNat_lt
    have hsum : 16 * (b.toNat / 16) + b.toNat % 16 = b.toNat := by omega
    simp only [List.flatMap_cons, hexByte, List.cons_append, List.nil_append, hexDecode,
      hexDigit_digitChar (b.toNat / 16) (by omega), hexDigit_digitChar (b.toNat % 16) (by omega),
      ih, hsum, UInt8.ofNat_toNat, bind, Option.bind, pure]

/-- Bytes are determined by their hexadecimal text. -/
theorem hexEncode_injective : Function.Injective hexEncode := by
  intro bytes bytes' h
  have hread := congrArg (fun s => hexDecode s.toList) h
  simpa only [hexEncode, String.toList_ofList, hexDecode_flatMap_hexByte, Option.some.injEq]
    using hread

/-- Every byte has two digits. -/
theorem length_flatMap_hexByte (bytes : List UInt8) :
    (bytes.flatMap hexByte).length = 2 * bytes.length := by
  induction bytes with
  | nil => rfl
  | cons b bytes ih =>
    simp only [List.flatMap_cons, List.length_append, List.length_cons, ih]
    simp only [hexByte, List.length_cons, List.length_nil]
    omega

/-- `uuid::Uuid`. -/
structure Uuid where
  bytes : List UInt8
  length_eq : bytes.length = 16
  deriving DecidableEq

namespace Uuid

/-- `Uuid::is_nil`. -/
def isNil (u : Uuid) : Bool := u.bytes.all (· == 0)

/-- The hyphenated form written by `Display`. -/
def toText (u : Uuid) : String :=
  let digits := u.bytes.flatMap hexByte
  String.ofList (digits.take 8 ++ '-' :: (digits.drop 8).take 4 ++
    '-' :: (digits.drop 12).take 4 ++ '-' :: (digits.drop 16).take 4 ++ '-' :: digits.drop 20)

/-- Sixteen bytes from thirty-two digits. -/
def ofDigits (digits : List Char) : Option Uuid :=
  match hexDecode digits with
  | some bytes => if h : bytes.length = 16 then some ⟨bytes, h⟩ else none
  | none => none

/-- The digits of the hyphenated form. -/
def hyphenated (text : List Char) : Option (List Char) :=
  if [text[8]?, text[13]?, text[18]?, text[23]?] = List.replicate 4 (some '-') then
    some (text.take 8 ++ (text.drop 9).take 4 ++ (text.drop 14).take 4 ++
      (text.drop 19).take 4 ++ text.drop 24)
  else none

/-- `Uuid::parse_str`, on the four textual forms. -/
def parse (s : String) : Option Uuid :=
  let text := s.toList
  if text.length = 32 then ofDigits text
  else if text.length = 36 then hyphenated text >>= ofDigits
  else if text.length = 38 ∧ text.head? = some '\x7b' ∧ text.getLast? = some '\x7d' then
    hyphenated (text.drop 1).dropLast >>= ofDigits
  else if text.length = 45 ∧ text.take 9 = "urn:uuid:".toList then
    hyphenated (text.drop 9) >>= ofDigits
  else none

/-- Reading the displayed form gives the same UUID. -/
theorem parse_toText (u : Uuid) : parse u.toText = some u := by
  have hlength := length_flatMap_hexByte u.bytes
  have hdecode := hexDecode_flatMap_hexByte u.bytes
  rw [u.length_eq] at hlength
  have hdigits : ofDigits (u.bytes.flatMap hexByte) = some u := by
    simp [ofDigits, hdecode, u.length_eq]
  unfold parse toText
  generalize u.bytes.flatMap hexByte = digits at hlength hdigits
  match digits, hlength with
  | [a0, a1, a2, a3, a4, a5, a6, a7, b0, b1, b2, b3, c0, c1, c2, c3, d0, d1, d2, d3,
      e0, e1, e2, e3, e4, e5, e6, e7, e8, e9, ea, eb], _ => simpa [hyphenated] using hdigits

/-- An identifier is determined by its text. -/
theorem toText_injective {u v : Uuid} (h : u.toText = v.toText) : u = v := by
  have hparse : some u = some v := by rw [← parse_toText u, ← parse_toText v, h]
  simpa using hparse

end Uuid

example : (Uuid.parse "354c33ed-e5d3-4af7-a1b8-b009d50b0bc5").map Uuid.toText =
    some "354c33ed-e5d3-4af7-a1b8-b009d50b0bc5" := by decide

end ClavenarSdk
