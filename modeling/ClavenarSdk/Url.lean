import ClavenarSdk.Encoding.Reference
import ClavenarSdk.Http

/-!
# Request URLs

`http.rs`. The clients build a reference for each request and join it to their base URL.
`percent_encode` turns a caller's string into one path segment or one query value; what it
leaves alone are the dots, so the strings `.` and `..` are still dot segments.
-/

namespace ClavenarSdk

open Encoding

/-! ### Percent-encoding -/

/-- A text is its own text. -/
@[simp] theorem toString_text (s : String) : toString s = s := rfl

/-- The bytes that ride through `percent_encode`. -/
def unreserved (b : UInt8) : Bool :=
  (65 ≤ b.toNat && b.toNat ≤ 90) || (97 ≤ b.toNat && b.toNat ≤ 122) ||
    (48 ≤ b.toNat && b.toNat ≤ 57) || b.toNat == 45 || b.toNat == 46 || b.toNat == 95 ||
    b.toNat == 126

/-- `percent_encode`. -/
def percentEncode (s : String) : String :=
  String.ofList (Encoding.percentEncode unreserved (utf8 s.toList))

/-- Unreserved characters are kept as they are. -/
theorem keepsPlain_unreserved : KeepsPlain unreserved := by
  have hall : ∀ n < 256, unreserved (UInt8.ofNat n) = true → n < 128 ∧ Char.ofNat n ≠ '%' := by
    decide +kernel
  intro b hb
  have hlt : b.toNat < 256 := b.toNat_lt
  exact hall b.toNat hlt (by rwa [UInt8.ofNat_toNat])

/-- The bytes of a text are those of its characters. -/
theorem utf8_toList (s : String) : utf8 s.toList = utf8Bytes s := by
  rw [utf8Bytes, ← String.utf8Encode_toList, List.utf8Encode, List.toList_data_toByteArray, utf8]

/-- A text is determined by its bytes. -/
theorem utf8Bytes_injective : Function.Injective utf8Bytes := by
  intro s t h
  rw [← utf8_toList, ← utf8_toList] at h
  exact String.toList_injective (utf8_injective h)

/-- The bytes of two texts are those of one and of the other. -/
@[simp] theorem utf8Bytes_append (s t : String) :
    utf8Bytes (s ++ t) = utf8Bytes s ++ utf8Bytes t := by
  rw [← utf8_toList, ← utf8_toList, ← utf8_toList, String.toList_append, utf8_append]

/-- An encoded string is read back, whatever follows it. -/
theorem percentDecode_percentEncode_append (s : String) (rest : List Char) :
    percentDecode ((percentEncode s).toList ++ rest) = utf8Bytes s ++ percentDecode rest := by
  have h := Encoding.percentDecode_percentEncode keepsPlain_unreserved (utf8 s.toList) rest
  rwa [percentEncode, String.toList_ofList, ← utf8_toList]

/-- An encoded text is read back. -/
theorem percentDecode_percentEncode (s : String) :
    percentDecode (percentEncode s).toList = utf8Bytes s := by
  have h := percentDecode_percentEncode_append s []
  rwa [List.append_nil, show percentDecode [] = [] from rfl, List.append_nil] at h

/-- What holds of the percent sign, of hexadecimal digits and of unreserved characters holds of
every character of an encoded string. -/
theorem forall_mem_percentEncode {P : Char → Prop} (hpercent : P '%')
    (hdigit : ∀ n < 16, P (hexUpper n))
    (hkept : ∀ n < 256, unreserved (UInt8.ofNat n) = true → P (Char.ofNat n)) {s : String}
    {c : Char} (h : c ∈ (percentEncode s).toList) : P c := by
  rw [percentEncode, String.toList_ofList, Encoding.percentEncode, List.mem_flatMap] at h
  obtain ⟨b, -, hc⟩ := h
  have hlt : b.toNat < 256 := b.toNat_lt
  split_ifs at hc with hb
  · rw [List.mem_singleton.mp hc]
    exact hkept b.toNat hlt (by rwa [UInt8.ofNat_toNat])
  · simp only [escapeByte, List.mem_cons, List.not_mem_nil, or_false] at hc
    rcases hc with rfl | rfl | rfl
    · exact hpercent
    · exact hdigit _ (by omega)
    · exact hdigit _ (by omega)

/-- An encoded text has plain characters only. -/
theorem isPlain_of_mem_percentEncode {s : String} {c : Char} (h : c ∈ (percentEncode s).toList) :
    isPlain c = true :=
  forall_mem_percentEncode (P := fun c => isPlain c = true) (by decide) (by decide)
    (by decide +kernel) h

/-- Unreserved text is its own encoding. -/
theorem percentEncode_of_forall {s : String}
    (h : ∀ c ∈ s.toList, c.toNat < 128 ∧ unreserved (UInt8.ofNat c.toNat) = true) :
    percentEncode s = s := by
  have hlist : ∀ cs : List Char,
      (∀ c ∈ cs, c.toNat < 128 ∧ unreserved (UInt8.ofNat c.toNat) = true) →
        Encoding.percentEncode unreserved (utf8 cs) = cs := by
    intro cs hcs
    induction cs with
    | nil => rfl
    | cons c cs ih =>
      obtain ⟨hascii, hkept⟩ := hcs c (by simp)
      have hsmall : (UInt8.ofNat c.toNat).toNat = c.toNat := by
        rw [UInt8.toNat_ofNat']
        omega
      have hbyte := utf8EncodeChar_ofNat (b := UInt8.ofNat c.toNat) (by omega)
      rw [hsmall, Char.ofNat_toNat] at hbyte
      have hrest := ih fun d hd => hcs d (by simp [hd])
      rw [Encoding.percentEncode] at hrest ⊢
      rw [utf8_cons, hbyte, List.singleton_append, List.flatMap_cons, if_pos hkept, hrest,
        hsmall, Char.ofNat_toNat, List.singleton_append]
  rw [percentEncode, hlist _ h, String.ofList_toList]

/-- Digits are unreserved. -/
theorem unreserved_of_mem_natRepr {n : ℕ} {c : Char} (h : c ∈ n.repr.toList) :
    c.toNat < 128 ∧ unreserved (UInt8.ofNat c.toNat) = true := by
  rw [Nat.toList_repr] at h
  have hdigit := Char.isDigit_iff_toNat.mp
    (Nat.isDigit_of_mem_toDigits (by decide) (by decide) h)
  have hzero : '0'.toNat = 48 := rfl
  have hnine : '9'.toNat = 57 := rfl
  have hall : ∀ n < 58, 48 ≤ n → unreserved (UInt8.ofNat n) = true := by decide
  exact ⟨by omega, hall _ (by omega) (by omega)⟩

/-- A number is its own encoding. -/
@[simp] theorem percentEncode_natRepr (n : ℕ) : percentEncode n.repr = n.repr :=
  percentEncode_of_forall fun _ => unreserved_of_mem_natRepr

/-- So is a number with a sign. -/
@[simp] theorem percentEncode_intRepr (n : ℤ) : percentEncode n.repr = n.repr := by
  cases n with
  | ofNat n => exact percentEncode_natRepr n
  | negSucc n =>
    apply percentEncode_of_forall
    intro c hc
    rw [Int.repr, String.toList_append, List.mem_append] at hc
    rcases hc with hc | hc
    · obtain rfl : c = '-' := by simpa using hc
      decide
    · exact unreserved_of_mem_natRepr hc

/-- Only the dots survive as dot segments. -/
theorem isDot_percentEncode_iff {s : String} :
    IsDot (percentEncode s).toList ↔ s = "." ∨ s = ".." := by
  constructor
  · rintro (h | h)
    · have hbytes := percentDecode_of_isSingleDot h
      rw [percentDecode_percentEncode] at hbytes
      exact .inl (utf8Bytes_injective hbytes)
    · have hbytes := percentDecode_of_isDoubleDot h
      rw [percentDecode_percentEncode] at hbytes
      exact .inr (utf8Bytes_injective hbytes)
  · rintro (rfl | rfl)
    · exact .inl (by decide +kernel)
    · exact .inr (by decide +kernel)

/-! ### Base URLs -/

/-- A URL with a hierarchical path, given by the segments of the path. The drive letters of `file`
URLs are left out. -/
structure Url where
  special : Bool
  segments : List (List Char)
  noSlash : ∀ segment ∈ segments, '/' ∉ segment

/-- `Url::path`. -/
def Url.path (url : Url) : List Char := url.segments.flatMap fun segment => '/' :: segment

/-- `Url::set_path` with a slash appended to the path. -/
def Url.withSlash (url : Url) : Url where
  special := url.special
  segments := url.segments ++ [[]]
  noSlash segment h := by
    rcases List.mem_append.mp h with h | h
    · exact url.noSlash segment h
    · rw [List.mem_singleton.mp h]
      simp

/-- What the clients use of the `url` crate. -/
class UrlCrate where
  /-- `Url::parse`, with the error that it displays. -/
  parseUrl : String → Except String Url
  /-- `Url::join`, of which the path segments of the new URL are kept. -/
  joinUrl : Url → String → Option (List (List Char))

export UrlCrate (parseUrl)

/-- `parse_base_url`. -/
def parseBaseUrl [UrlCrate] (s : String) : Except ClavenarError Url := do
  let url ← (parseUrl s).mapError fun e => .invalidConfig ("base_url: " ++ e)
  if url.path.getLast? ≠ some '/' then .ok url.withSlash else .ok url

/-- The URL names a directory: its path ends with a slash. -/
def Url.IsDirectory (url : Url) (directory : List (List Char)) : Prop :=
  url.segments = directory ++ [[]]

/-- A path that ends with a slash has an empty last segment. -/
theorem Url.exists_isDirectory {url : Url} (h : url.path.getLast? = some '/') :
    ∃ directory, url.IsDirectory directory := by
  obtain ⟨special, segments, noSlash⟩ := url
  cases segments using List.reverseRecOn with
  | nil => simp [Url.path] at h
  | append_singleton directory last =>
    cases last using List.reverseRecOn with
    | nil => exact ⟨directory, rfl⟩
    | append_singleton front c =>
      simp only [Url.path, List.flatMap_append, List.flatMap_singleton, ← List.cons_append,
        ← List.append_assoc, List.getLast?_concat, Option.some.injEq] at h
      have hslash := noSlash (front ++ [c]) (by simp)
      rw [h] at hslash
      simp at hslash

/-- Every accepted base URL names a directory. -/
theorem isDirectory_of_parseBaseUrl [UrlCrate] {s : String} {url : Url}
    (h : parseBaseUrl s = .ok url) : ∃ directory, url.IsDirectory directory := by
  rw [parseBaseUrl, bind_eq_ok_iff] at h
  obtain ⟨parsed, -, h⟩ := h
  split_ifs at h with hslash
  · rw [← Except.ok.inj h]
    exact ⟨parsed.segments, rfl⟩
  · rw [← Except.ok.inj h]
    exact Url.exists_isDirectory (not_not.mp hslash)

/-- The path segments of the URL that `Url::join` gives. -/
def Url.join [UrlCrate] (url : Url) (reference : String) : Option (List (List Char)) :=
  UrlCrate.joinUrl url reference

/-- The crate follows the URL standard: a path-relative reference is resolved in the directory of
the base, and it escapes the characters of the path, with or without the circumflex. -/
def JoinsPaths [UrlCrate] : Prop :=
  ∃ escapes, EscapesPath escapes ∧ ∀ (url : Url) (reference : String) segments,
    resolveReference escapes url.special url.segments.dropLast reference.toList = some segments →
      url.join reference = some segments

/-- Below a directory a reference is resolved in that directory. -/
theorem JoinsPaths.exists_join [UrlCrate] (h : JoinsPaths) {url : Url}
    {directory : List (List Char)} (hurl : url.IsDirectory directory) :
    ∃ escapes, EscapesPath escapes ∧ ∀ (reference : String) segments,
      resolveReference escapes url.special directory reference.toList = some segments →
        url.join reference = some segments := by
  obtain ⟨escapes, hescapes, hjoin⟩ := h
  refine ⟨escapes, hescapes, fun reference segments hresolve => hjoin url reference segments ?_⟩
  rw [hurl, List.dropLast_concat, hresolve]

/-! ### References with inserted strings -/

/-- A path segment of a request: a fixed name or a string of the caller. -/
inductive PathPart where
  | literal (name : String)
  | inserted (s : String)

/-- The text of the segment in the reference. -/
def PathPart.text : PathPart → List Char
  | .literal name => name.toList
  | .inserted s => (percentEncode s).toList

/-- The segment of a requested path is the one that was meant. -/
def PathPart.Reads : PathPart → List Char → Prop
  | .literal name, segment => segment = name.toList
  | .inserted s, segment => percentDecode segment = utf8Bytes s

/-- A part is read from its own text. -/
theorem PathPart.reads_text (part : PathPart) : part.Reads part.text := by
  cases part with
  | literal name => rfl
  | inserted s => exact percentDecode_percentEncode s

/-- The name is a path segment as it stands. -/
def IsName (name : String) : Prop :=
  name.toList ≠ [] ∧ (∀ c ∈ name.toList, isPlain c = true) ∧ ¬IsDot name.toList

instance (name : String) : Decidable (IsName name) := inferInstanceAs (Decidable (_ ∧ _ ∧ _))

/-- A word of letters, digits and hyphens. -/
def IsWord (name : String) : Prop :=
  name.toList ≠ [] ∧ ∀ c ∈ name.toList, (c.isAlphanum || c == '-') = true

/-- Letters and digits are ASCII. -/
theorem toNat_lt_of_isAlphanum {c : Char} (h : c.isAlphanum = true) : c.toNat < 128 := by
  simp only [Char.isAlphanum, Char.isAlpha, Char.isUpper, Char.isLower, Char.isDigit,
    Bool.or_eq_true, Bool.and_eq_true, decide_eq_true_eq, ge_iff_le,
    UInt32.le_iff_toNat_le] at h
  have hlast : 'z'.val.toNat = 122 := rfl
  have hval : c.toNat = c.val.toNat := rfl
  grind

/-- A word is a name of a segment. -/
theorem IsWord.isName {name : String} (h : IsWord name) : IsName name := by
  have hall : ∀ n < 128, ((Char.ofNat n).isAlphanum || Char.ofNat n == '-') = true →
      isPlain (Char.ofNat n) = true ∧ Char.ofNat n ≠ '.' ∧ Char.ofNat n ≠ '%' := by
    decide +kernel
  have hword : ∀ c ∈ name.toList, isPlain c = true ∧ c ≠ '.' ∧ c ≠ '%' := by
    intro c hc
    have hchar := h.2 c hc
    have hascii : c.toNat < 128 := by
      rcases Bool.or_eq_true_iff.mp hchar with halnum | hhyphen
      · exact toNat_lt_of_isAlphanum halnum
      · rw [eq_of_beq hhyphen]
        decide
    have hof := hall c.toNat hascii
    rw [Char.ofNat_toNat] at hof
    exact hof hchar
  refine ⟨h.1, fun c hc => (hword c hc).1, fun hdot => ?_⟩
  -- A dot segment begins with a dot or with a percent sign.
  obtain ⟨c, rest, hname⟩ := List.exists_cons_of_ne_nil h.1
  have hhead := (hword c (by simp [hname])).2
  simp only [IsDot, IsSingleDot, IsDoubleDot, hname, List.mem_cons, List.cons.injEq,
    List.not_mem_nil, or_false] at hdot
  grind

/-- A number is a word. -/
theorem isWord_natRepr (n : ℕ) : IsWord n.repr := by
  refine ⟨?_, fun c hc => ?_⟩
  · rw [Nat.toList_repr]
    exact Nat.toDigits_ne_nil
  · rw [Nat.toList_repr] at hc
    have hdigit := Nat.isDigit_of_mem_toDigits (by decide) (by decide) hc
    simp [Char.isAlphanum, hdigit]

/-- So is a number with a sign. -/
@[simp] theorem isWord_intRepr (n : ℤ) : IsWord n.repr := by
  cases n with
  | ofNat n => exact isWord_natRepr n
  | negSucc n =>
    have hlist : (Int.negSucc n).repr.toList = '-' :: (n + 1).repr.toList := by simp [Int.repr]
    refine ⟨by simp [hlist], fun c hc => ?_⟩
    rw [hlist, List.mem_cons] at hc
    rcases hc with rfl | hc
    · decide
    · exact (isWord_natRepr _).2 c hc

/-- The reference consists of these segments, of which the first is a name, and of a query. -/
def Spells (reference : String) (parts : List PathPart) : Prop :=
  (∃ lead next rest, parts = .literal lead :: next :: rest) ∧
    (∀ name, .literal name ∈ parts → IsName name) ∧
      ∃ tail, IsQuery tail ∧
        reference.toList = separated '/' (parts.map PathPart.text) ++ tail

/-- The parts of a reference have plain characters only. -/
theorem Spells.isPlain {reference : String} {parts : List PathPart} (h : Spells reference parts) :
    ∀ segment ∈ parts.map PathPart.text, ∀ c ∈ segment, isPlain c = true := by
  intro segment hsegment c hc
  obtain ⟨part, hpart, rfl⟩ := List.mem_map.mp hsegment
  cases part with
  | literal name => exact (h.2.1 name hpart).2.1 c hc
  | inserted s => exact isPlain_of_mem_percentEncode hc

/-- The reference is resolved segment by segment. -/
theorem Spells.join [UrlCrate] (hjoins : JoinsPaths) {reference : String}
    {parts : List PathPart} (h : Spells reference parts) {url : Url}
    {directory : List (List Char)} (hurl : url.IsDirectory directory) :
    url.join reference = some (resolve directory (parts.map PathPart.text)) := by
  have hplain := h.isPlain
  obtain ⟨⟨lead, next, rest, rfl⟩, hnames, tail, htail, htext⟩ := h
  have hlead : lead.toList ≠ [] := (hnames lead (by simp)).1
  obtain ⟨escapes, hescapes, hjoin⟩ := hjoins.exists_join hurl
  apply hjoin
  rw [htext]
  exact resolveReference_separated hescapes hlead hplain htail

/-- The request goes to the directory, the fixed names and one segment for each inserted string.
-/
def Url.Requests [UrlCrate] (url : Url) (directory : List (List Char)) (reference : String)
    (parts : List PathPart) : Prop :=
  ∃ segments, url.join reference = some (directory ++ segments) ∧
    List.Forall₂ PathPart.Reads parts segments

/-- A request goes where it is meant to if and only if no inserted string is a dot segment. -/
theorem Spells.requests_iff [UrlCrate] (hjoins : JoinsPaths) {reference : String}
    {parts : List PathPart} (h : Spells reference parts) {url : Url}
    {directory : List (List Char)} (hurl : url.IsDirectory directory) :
    url.Requests directory reference parts ↔
      ∀ s, .inserted s ∈ parts → s ≠ "." ∧ s ≠ ".." := by
  have hjoin := h.join hjoins hurl
  constructor
  · rintro ⟨segments, hsegments, hreads⟩ s hs
    rw [hjoin, Option.some.injEq] at hsegments
    by_contra hdots
    have hdot : IsDot (PathPart.inserted s).text := by
      rw [not_and_or, not_not, not_not] at hdots
      exact isDot_percentEncode_iff.mpr hdots
    obtain ⟨before, after, rfl⟩ := List.append_of_mem hs
    rw [List.map_append, List.map_cons] at hsegments
    by_cases hafter : after.map PathPart.text = []
    · -- A dot segment at the end leaves an empty segment, which reads as the empty string.
      obtain ⟨rest, hrest⟩ := resolve_append_dot (before.map PathPart.text) hdot directory
      rw [hafter, hrest] at hsegments
      obtain rfl : after = [] := List.map_eq_nil_iff.mp hafter
      obtain ⟨front, last, rfl⟩ : ∃ front last, segments = front ++ [last] := by
        have hlength := hreads.length_eq
        rw [List.length_append, List.length_singleton] at hlength
        exact ⟨segments.dropLast, segments.getLast (List.ne_nil_of_length_pos (by omega)),
          (List.dropLast_append_getLast _).symm⟩
      rw [← List.append_assoc] at hsegments
      have hlast : last = [] := by simpa using (List.append_inj_right' hsegments rfl).symm
      have hread : (PathPart.inserted s).Reads last := by
        have hrev := List.rel_reverse hreads
        simp only [List.reverse_append, List.reverse_cons, List.reverse_nil, List.nil_append,
          List.singleton_append, List.forall₂_cons] at hrev
        exact hrev.1
      rw [hlast, PathPart.Reads, show percentDecode [] = utf8Bytes "" from rfl] at hread
      obtain rfl := utf8Bytes_injective hread
      simp at hdots
    · have hshort := length_resolve_lt (before.map PathPart.text) hdot hafter directory
      rw [hsegments] at hshort
      have hlength := hreads.length_eq
      simp only [List.length_append, List.length_cons, List.length_map] at hshort hlength
      omega
  · intro hdots
    refine ⟨parts.map PathPart.text, ?_, ?_⟩
    · rw [hjoin, resolve_of_forall_not_isDot]
      intro segment hsegment
      obtain ⟨part, hpart, rfl⟩ := List.mem_map.mp hsegment
      cases part with
      | literal name => exact (h.2.1 name hpart).2.2
      | inserted s =>
        intro hdot
        rcases isDot_percentEncode_iff.mp hdot with rfl | rfl
        · exact (hdots _ hpart).1 rfl
        · exact (hdots _ hpart).2 rfl
    · rw [List.forall₂_map_right_iff, List.forall₂_same]
      exact fun part _ => part.reads_text

namespace Fixture

/-- A base URL with a path. -/
def apiUrl : Url := ⟨true, ["api".toList], by simp⟩

/-- The `url` crate on the base URL `http://h/api`. It leaves a circumflex in a path. -/
@[reducible] def urlCrate : UrlCrate where
  parseUrl s := if s = "http://h/api" then .ok apiUrl else .error "relative URL without a base"
  joinUrl url reference :=
    resolveReference (fun c => inPathSet c && c ≠ '^') url.special url.segments.dropLast
      reference.toList

attribute [local instance] urlCrate

/-- This crate resolves references as the standard describes it. -/
theorem joinsPaths_urlCrate : JoinsPaths :=
  ⟨_, fun c hc => by simp [hc], fun _ _ _ h => h⟩

/-- The base URL of the API is parsed and gets its slash. -/
theorem parseBaseUrl_api : parseBaseUrl "http://h/api" = .ok apiUrl.withSlash := by
  rfl

end Fixture

end ClavenarSdk
