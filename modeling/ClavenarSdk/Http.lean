import ClavenarSdk.Crates
import ClavenarSdk.Error

/-!
# HTTP requests and responses

A POST as `reqwest` builds it, and the reading of a response body under a size limit. The
chunks of a body come with the response: awaiting them touches nothing that calls share.
-/

namespace ClavenarSdk

/-- `DEFAULT_RESPONSE_BODY_LIMIT`. -/
def defaultResponseBodyLimit : ℕ := 16 * 1024 * 1024

/-- A POST request with a JSON body. -/
structure PostRequest where
  endpoint : String
  headers : List (String × String)
  bearer : Option String
  json : Json

/-- A response: the chunks of its body arrive one by one, and a transport error can end
them. -/
structure Response where
  status : ℕ
  contentLength : Option ℕ
  chunks : List (Except String (List UInt8))

/-- The loop of `read_body_limited`. -/
def readChunks (limit : ℕ) :
    List UInt8 → List (Except String (List UInt8)) → Except ClavenarError (List UInt8)
  | body, [] => .ok body
  | _, .error error :: _ => .error (.transport error)
  | body, .ok chunk :: chunks =>
    -- `checked_add` on a 64-bit `usize`
    if 2 ^ 64 ≤ body.length + chunk.length then .error (.responseTooLarge limit)
    else if limit < body.length + chunk.length then .error (.responseTooLarge limit)
    else readChunks limit (body ++ chunk) chunks

/-- `read_body_limited`. -/
def readBodyLimited (response : Response) (limit : ℕ) : Except ClavenarError (List UInt8) :=
  if response.contentLength.any (limit < ·) then .error (.responseTooLarge limit)
  else readChunks limit [] response.chunks

/-- The UTF-8 bytes of a text. -/
def utf8Bytes (text : String) : List UInt8 := text.toByteArray.data.toList

/-- The text with these UTF-8 bytes, if they are valid. -/
def textOfUtf8 (bytes : List UInt8) : Option String := String.fromUTF8? ⟨⟨bytes⟩⟩

/-- A text is decoded of its bytes. -/
@[simp] theorem textOfUtf8_utf8Bytes (text : String) : textOfUtf8 (utf8Bytes text) = some text := by
  have hvalid : (⟨⟨text.toByteArray.data.toList⟩⟩ : ByteArray).IsValidUTF8 := text.isValidUTF8
  exact dif_pos hvalid

/-! ### The size of a text -/

/-- An escaped character takes at most six bytes for one. -/
theorem sum_escapeChar_le (c : Char) :
    ((escapeChar c).map Char.utf8Size).sum ≤ 6 * c.utf8Size := by
  have hpos : 0 < c.utf8Size := c.utf8Size_pos
  by_cases hlow : c.toNat < 32
  · have hcontrol : ∀ n < 32, ((escapeChar (Char.ofNat n)).map Char.utf8Size).sum ≤ 6 := by decide
    have hc := hcontrol c.toNat hlow
    rw [Char.ofNat_toNat] at hc
    omega
  · have hsum : ((escapeChar c).map Char.utf8Size).sum ≤ 1 + c.utf8Size := by
      by_cases hquote : c = '\"'
      · rw [hquote]
        decide
      by_cases hbackslash : c = '\\'
      · rw [hbackslash]
        decide
      unfold escapeChar
      split_ifs <;> simp_all
    omega

/-- A quoted text takes two bytes for the marks and at most six for each of its own. -/
theorem utf8ByteSize_quote_le (s : String) :
    (quote s).utf8ByteSize ≤ 2 + 6 * s.utf8ByteSize := by
  have hchars : ∀ cs : List Char, ((cs.flatMap escapeChar).map Char.utf8Size).sum ≤
      6 * (cs.map Char.utf8Size).sum := by
    intro cs
    induction cs with
    | nil => simp
    | cons c cs ih =>
      have hchar := sum_escapeChar_le c
      simp only [List.flatMap_cons, List.map_append, List.sum_append, List.map_cons, List.sum_cons]
      omega
  have hs : s.utf8ByteSize = (s.toList.map Char.utf8Size).sum := by
    rw [← utf8ByteSize_ofList, String.ofList_toList]
  have hmark : "\"".utf8ByteSize = 1 := rfl
  have hbody := hchars s.toList
  have hsize := utf8ByteSize_ofList (s.toList.flatMap escapeChar)
  simp only [quote, String.utf8ByteSize_append]
  omega

/-- Pieces are joined with less than a byte for each. -/
theorem utf8ByteSize_intercalate_le (pieces : List String) :
    (",".intercalate pieces).utf8ByteSize ≤ (pieces.map fun p => p.utf8ByteSize + 1).sum := by
  have hcomma : ",".utf8ByteSize = 1 := rfl
  induction pieces with
  | nil => simp
  | cons p rest ih =>
    cases rest with
    | nil => simp
    | cons q rest =>
      simp only [String.intercalate_cons_cons, String.utf8ByteSize_append, List.map_cons,
        List.sum_cons] at ih ⊢
      omega

mutual

/-- A bound on the size of the text of a document. -/
def Json.textBound : Json → ℕ
  | .null => 4
  | .bool _ => 5
  | .number n => n.text.utf8ByteSize
  | .string s => 2 + 6 * s.utf8ByteSize
  | .array items => 2 + textBoundItems items
  | .object members => 2 + textBoundMembers members

/-- The bound for the items of an array. -/
def Json.textBoundItems : List Json → ℕ
  | [] => 0
  | v :: items => v.textBound + 1 + textBoundItems items

/-- The bound for the members of an object. -/
def Json.textBoundMembers : List (String × Json) → ℕ
  | [] => 0
  | (key, v) :: members =>
    2 + 6 * key.utf8ByteSize + 1 + v.textBound + 1 + textBoundMembers members

end

mutual

/-- The text of a document keeps within its bound. -/
theorem Json.utf8ByteSize_text_le (v : Json) : v.text.utf8ByteSize ≤ v.textBound := by
  match v with
  | .null => exact le_refl 4
  | .bool true => exact Nat.le_succ 4
  | .bool false => exact le_refl 5
  | .number n => simp [Json.text, Json.textBound]
  | .string s => exact utf8ByteSize_quote_le s
  | .array items =>
    have hitems := (utf8ByteSize_intercalate_le _).trans (utf8ByteSize_textItems_le items)
    have hopen : "[".utf8ByteSize = 1 := rfl
    have hclose : "]".utf8ByteSize = 1 := rfl
    simp only [Json.text, Json.textBound, String.utf8ByteSize_append]
    omega
  | .object members =>
    have hmembers := (utf8ByteSize_intercalate_le _).trans (utf8ByteSize_textMembers_le members)
    have hopen : "\x7b".utf8ByteSize = 1 := rfl
    have hclose : "\x7d".utf8ByteSize = 1 := rfl
    simp only [Json.text, Json.textBound, String.utf8ByteSize_append]
    omega

/-- So do the texts of items with their commas. -/
theorem Json.utf8ByteSize_textItems_le (items : List Json) :
    ((textItems items).map fun p => p.utf8ByteSize + 1).sum ≤ textBoundItems items := by
  match items with
  | [] => simp [textItems, textBoundItems]
  | v :: items =>
    have hv := utf8ByteSize_text_le v
    have hitems := utf8ByteSize_textItems_le items
    simp only [textItems, textBoundItems, List.map_cons, List.sum_cons]
    omega

/-- So do the texts of members with their commas. -/
theorem Json.utf8ByteSize_textMembers_le (members : List (String × Json)) :
    ((textMembers members).map fun p => p.utf8ByteSize + 1).sum ≤ textBoundMembers members := by
  match members with
  | [] => simp [textMembers, textBoundMembers]
  | (key, v) :: members =>
    have hkey := utf8ByteSize_quote_le key
    have hv := utf8ByteSize_text_le v
    have hmembers := utf8ByteSize_textMembers_le members
    have hcolon : ":".utf8ByteSize = 1 := rfl
    simp only [textMembers, textBoundMembers, List.map_cons, List.sum_cons,
      String.utf8ByteSize_append]
    omega

end

/-- A document whose strings are short has a response within the limit. -/
theorem length_utf8Bytes_text_le {v : Json} (h : v.textBound ≤ defaultResponseBodyLimit) :
    (utf8Bytes v.text).length ≤ defaultResponseBodyLimit :=
  v.utf8ByteSize_text_le.trans h

/-! ### Reading a response -/

variable [Crates]

/-- `read_text_limited`. -/
def readTextLimited (response : Response) : Except ClavenarError String := do
  let body ← readBodyLimited response defaultResponseBodyLimit
  match textOfUtf8 body with
  | some text => .ok text
  | none => .error (.invalidResponse ("response body is not UTF-8: " ++ utf8Error body))

/-- A response whose body arrives in one chunk. -/
def Response.ofText (status : ℕ) (text : String) : Response :=
  ⟨status, none, [.ok (utf8Bytes text)]⟩

/-- A text within the limit is read as it was sent. -/
theorem readTextLimited_ofText {status : ℕ} {text : String}
    (h : (utf8Bytes text).length ≤ defaultResponseBodyLimit) :
    readTextLimited (.ofText status text) = .ok text := by
  have hlimit : defaultResponseBodyLimit < 2 ^ 64 := by decide
  have hfits : ¬2 ^ 64 ≤ ([] ++ utf8Bytes text).length := by
    rw [List.nil_append]
    omega
  have hle : ¬defaultResponseBodyLimit < ([] ++ utf8Bytes text).length := by
    rw [List.nil_append]
    omega
  rw [List.length_append] at hfits hle
  have hbody : readBodyLimited (.ofText status text) defaultResponseBodyLimit =
      .ok (utf8Bytes text) := by
    simp only [readBodyLimited, Response.ofText, Option.any_none, Bool.false_eq_true, if_false,
      readChunks, hfits, hle, List.nil_append]
  simp only [readTextLimited, hbody, ok_bind, textOfUtf8_utf8Bytes]

/-- `execution_http_error`. -/
def executionHttpError (status : ℕ) (body : String) : ClavenarError :=
  if status = 401 then .unauthorized body
  else if status = 400 then .badRequest body
  else .server status body

/-- `serde_json::from_str`. -/
def fromStr {α : Type} [Deserialize α] (raw : String) : Except ClavenarError α :=
  (parseJson raw >>= fromJson).mapError .decode

/-- A value is read from a text that is parsed to a document of it. -/
theorem fromStr_eq {α : Type} [Deserialize α] {raw : String} {j : Json} {a : α}
    (hparse : parseJson raw = .ok j) (hdecode : fromJson j = .ok a) :
    (fromStr raw : Except ClavenarError α) = .ok a := by
  simp only [fromStr, hparse, ok_bind, hdecode, Except.mapError]

end ClavenarSdk
