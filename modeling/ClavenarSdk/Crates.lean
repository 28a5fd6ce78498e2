import ClavenarSdk.Serde
import ClavenarSdk.Json.Canonical

/-!
# Code from other crates

Text parsing, hashing, signing and URL resolution are parameters. They are functions of
their inputs, so signing is deterministic. Base64 is short enough to be written out.
-/

namespace ClavenarSdk

/-- What the SDK uses of the crates it depends on. -/
class Crates where
  /-- `p256::ecdsa::SigningKey`. -/
  SigningKey : Type
  /-- The signature over the UTF-8 bytes of a text, in its fixed-size encoding. -/
  sign : SigningKey → String → List UInt8
  /-- `Sha256::digest` of the UTF-8 bytes of a text. -/
  sha256Digest : String → { bytes : List UInt8 // bytes.length = 32 }
  /-- The document in a text, members in textual order. -/
  parseJson : String → Except DecodeError Json
  /-- `Url::join`, with the error that it displays. -/
  joinUrl : String → String → Except String String
  /-- The error that `FromUtf8Error` displays for these bytes. -/
  utf8Error : List UInt8 → String

export Crates (SigningKey sign sha256Digest parseJson joinUrl utf8Error)

/-- The digit of a six-bit number in the URL-safe alphabet. -/
def base64UrlDigit (n : ℕ) : Char :=
  if n < 26 then Char.ofNat (65 + n)
  else if n < 52 then Char.ofNat (97 + (n - 26))
  else if n < 62 then Char.ofNat (48 + (n - 52))
  else if n = 62 then '-'
  else '_'

/-- The digits of three bytes at a time, without padding at the end. -/
def base64UrlDigits : List UInt8 → List Char
  | [] => []
  | [a] => [base64UrlDigit (a.toNat / 4), base64UrlDigit (a.toNat % 4 * 16)]
  | [a, b] =>
    [base64UrlDigit (a.toNat / 4), base64UrlDigit (a.toNat % 4 * 16 + b.toNat / 16),
      base64UrlDigit (b.toNat % 16 * 4)]
  | a :: b :: c :: rest =>
    base64UrlDigit (a.toNat / 4) :: base64UrlDigit (a.toNat % 4 * 16 + b.toNat / 16) ::
      base64UrlDigit (b.toNat % 16 * 4 + c.toNat / 64) :: base64UrlDigit (c.toNat % 64) ::
      base64UrlDigits rest

/-- `URL_SAFE_NO_PAD.encode`. -/
def base64UrlNoPad (bytes : List UInt8) : String := String.ofList (base64UrlDigits bytes)

variable [Crates]

/-- `sha256`, on the UTF-8 bytes of a text. -/
def sha256 (text : String) : String := "sha256:" ++ hexEncode (sha256Digest text).1

/-- The text of a digest has 71 bytes: the algorithm and 64 digits. -/
theorem utf8ByteSize_sha256 (text : String) : (sha256 text).utf8ByteSize = 71 := by
  rw [sha256, String.utf8ByteSize_append, utf8ByteSize_hexEncode, (sha256Digest text).2]
  rfl

/-- The text of a digest begins with the algorithm. -/
theorem isPrefixOf_sha256 (text : String) :
    "sha256:".toList.isPrefixOf (sha256 text).toList = true := by
  simp [sha256]

end ClavenarSdk
