import ClavenarSdk.Json.Pretty
import ClavenarSdk.Ledger
import ClavenarSdk.Pack.Jwks
import ClavenarSdk.Serde.Instant

/-!
# Signed policy packs

`pack.rs`. The signature of a pack is over the digest of its manifest, which is written as pretty
JSON with the signature block blanked. That text is readable, so it determines everything in the
manifest but the signature block, and a signature that verifies for it verifies for no other.
-/

namespace ClavenarSdk

open Encoding

/-- What pack verification uses of the crates it depends on, with the errors that they display. -/
class PackCrates extends KeyCrates where
  /-- `ed25519_dalek::Signature`. -/
  Signature : Type
  /-- `Signature::from_slice`. -/
  signatureFromSlice : List UInt8 → Except String Signature
  /-- `VerifyingKey::verify` accepts the signature for the message. -/
  verifies : VerifyingKey → List UInt8 → Signature → Bool
  /-- `hex::decode`. -/
  decodeHex : String → Except String (List UInt8)
  /-- `Sha256::digest`. -/
  sha256OfBytes : List UInt8 → { bytes : List UInt8 // bytes.length = 32 }

export PackCrates (Signature signatureFromSlice verifies decodeHex sha256OfBytes)

/-! ### Manifests -/

/-- `PackEntry`. -/
structure PackEntry where
  path : String
  contentType : String
  bodySha256 : String
  deriving DecidableEq

/-- `PackSignatureRef`. -/
structure PackSignatureRef where
  sidecar : String
  algorithm : String
  digestAlg : String
  keyId : String
  signedAt : DateTime
  deriving DecidableEq

/-- `PackManifest`. -/
structure PackManifest where
  schemaVersion : String
  name : String
  version : String
  entries : List PackEntry
  generatedAt : DateTime
  signature : Option PackSignatureRef
  deriving DecidableEq

instance : Serialize PackEntry where
  toJson entry := .object [("path", toJson entry.path), ("content_type", toJson entry.contentType),
    ("body_sha256", toJson entry.bodySha256)]

section

variable [ChronoSerde]

instance : Serialize PackSignatureRef where
  toJson signature := .object [("sidecar", toJson signature.sidecar),
    ("algorithm", toJson signature.algorithm), ("digest_alg", toJson signature.digestAlg),
    ("key_id", toJson signature.keyId), ("signed_at", toJson signature.signedAt)]

instance : Serialize PackManifest where
  toJson manifest := .object [("schema_version", toJson manifest.schemaVersion),
    ("name", toJson manifest.name), ("version", toJson manifest.version),
    ("entries", toJson manifest.entries), ("generated_at", toJson manifest.generatedAt),
    ("signature", toJson manifest.signature)]

namespace PackManifest

/-- `PackManifest::canonical_unsigned`. -/
def canonicalUnsigned (manifest : PackManifest) : List UInt8 :=
  utf8Bytes ((toJson { manifest with signature := none }).pretty 0)

/-- The manifests agree on everything but their signature blocks. -/
structure SameContent (m m' : PackManifest) : Prop where
  schemaVersion : m.schemaVersion = m'.schemaVersion
  name : m.name = m'.name
  version : m.version = m'.version
  entries : m.entries = m'.entries
  generatedAt : m.generatedAt = m'.generatedAt

end PackManifest

/-! ### The canonical text -/

omit [ChronoSerde] in
/-- Entries differ as documents. -/
theorem toJson_packEntry_injective : Function.Injective (toJson : PackEntry → Json) := by
  intro a b h
  cases a
  cases b
  simpa [toJson] using h

omit [ChronoSerde] in
/-- Entries are readable, whatever texts they hold. -/
theorem packEntry_prefixCode (depth : ℕ) :
    PrefixCode fun entry : PackEntry => ((toJson entry).pretty depth).toList := by
  have hfields : ∀ f ∈ [("path", fun entry : PackEntry => Json.string entry.path),
      ("content_type", fun entry => .string entry.contentType),
      ("body_sha256", fun entry => .string entry.bodySha256)], ReadsPretty (depth + 1) f.2 := by
    simp [readsPretty_string]
  exact (readsPretty_object hfields).prefixCode toJson_packEntry_injective

/-- The fields that the signature commits to, with the blanked block at the end. -/
def unsignedFields : List (String × (PackManifest → Json)) :=
  [("schema_version", fun m => .string m.schemaVersion), ("name", fun m => .string m.name),
    ("version", fun m => .string m.version), ("entries", fun m => .array (m.entries.map toJson)),
    ("generated_at", fun m => .string (timestampText m.generatedAt)), ("signature", fun _ => .null)]

/-- Every field that is signed is readable. -/
theorem readsPretty_unsignedFields (depth : ℕ) :
    ∀ f ∈ unsignedFields, ReadsPretty depth f.2 := by
  have hentries := readsPretty_array (packEntry_prefixCode (depth + 1)) PackManifest.entries
  simp [unsignedFields, readsPretty_string, readsPretty_const, hentries]

/-- The canonical text is the pretty text of the signed fields. -/
theorem canonicalUnsigned_eq (m : PackManifest) :
    m.canonicalUnsigned =
      utf8Bytes ((Json.object (unsignedFields.map fun f => (f.1, f.2 m))).pretty 0) := rfl

/-- The canonical text determines the content of the manifest, if the text of the instant
determines the instant. -/
theorem canonicalUnsigned_eq_iff {m m' : PackManifest}
    (htext : timestampText m.generatedAt = timestampText m'.generatedAt →
      m.generatedAt = m'.generatedAt) :
    m.canonicalUnsigned = m'.canonicalUnsigned ↔ m.SameContent m' := by
  constructor
  · intro h
    rw [canonicalUnsigned_eq, canonicalUnsigned_eq] at h
    have hpretty := congrArg String.toList (utf8Bytes_injective h)
    have hread := readsPretty_object (readsPretty_unsignedFields 1) m m' [] []
      (congrArg (· ++ []) hpretty)
    have hfields := Json.object.inj hread.1
    simp only [unsignedFields, List.map_cons, List.map_nil, List.cons.injEq, Prod.mk.injEq,
      Json.string.injEq, Json.array.injEq, true_and, and_true] at hfields
    obtain ⟨hschema, hname, hversion, hentries, hgenerated⟩ := hfields
    exact ⟨hschema, hname, hversion, List.map_injective_iff.mpr toJson_packEntry_injective hentries,
      htext hgenerated⟩
  · rintro ⟨hschema, hname, hversion, hentries, hgenerated⟩
    rw [canonicalUnsigned_eq, canonicalUnsigned_eq]
    simp only [unsignedFields, List.map_cons, List.map_nil, hschema, hname, hversion,
      hentries, hgenerated]

/-! ### Verification -/

/-- `PackVerifyOutcome`. -/
inductive PackVerifyOutcome where
  | valid
  /-- The manifest carries no signature block. -/
  | unsigned
  /-- There is a signature, but it does not verify. -/
  | forged (why : String)
  /-- Verification could not be attempted. -/
  | malformed (why : String)
  deriving DecidableEq

variable [PackCrates]

/-- `PackManifest::digest_hex`. -/
def PackManifest.digestHex (manifest : PackManifest) : String :=
  hexEncode (sha256OfBytes manifest.canonicalUnsigned).1

/-- The digest is blind to the signature block and to nothing else. -/
theorem digestHex_eq_iff (htext : Function.Injective timestampText) {m m' : PackManifest}
    (hhash : sha256OfBytes m.canonicalUnsigned = sha256OfBytes m'.canonicalUnsigned →
      m.canonicalUnsigned = m'.canonicalUnsigned) :
    m.digestHex = m'.digestHex ↔ m.SameContent m' := by
  rw [← canonicalUnsigned_eq_iff fun h => htext h]
  constructor
  · exact fun h => hhash (Subtype.ext (hexEncode_injective h))
  · intro h
    rw [PackManifest.digestHex, PackManifest.digestHex, h]

/-- `verify_pack`. -/
def verifyPack (manifest : PackManifest) (sigHex : String) (key : VerifyingKey) :
    PackVerifyOutcome :=
  if manifest.signature.isNone then .unsigned
  else
    let digest := sha256OfBytes manifest.canonicalUnsigned
    match decodeHex (trim sigHex) with
    | .error e => .malformed ("signature hex: " ++ e)
    | .ok raw =>
      match signatureFromSlice raw with
      | .error e => .malformed ("signature bytes: " ++ e)
      | .ok sig =>
        if verifies key digest.1 sig then .valid else .forged "ed25519 verification failed"

/-- The sidecar text holds this signature. -/
def HoldsSignature (sigHex : String) (sig : Signature) : Prop :=
  ∃ raw, decodeHex (trim sigHex) = .ok raw ∧ signatureFromSlice raw = .ok sig

/-- The signature verifies for at most one digest under the key. -/
def VerifiesOnce (key : VerifyingKey) (sig : Signature) : Prop :=
  ∀ d d' : { bytes : List UInt8 // bytes.length = 32 },
    verifies key d.1 sig = true → verifies key d'.1 sig = true → d = d'

section

variable {m m' : PackManifest} {sigHex : String} {key : VerifyingKey}

/-- The outcome for a signature block and a sidecar that holds a signature. -/
theorem verifyPack_of_holdsSignature (hm : m.signature.isSome) {sig : Signature}
    (hsig : HoldsSignature sigHex sig) :
    verifyPack m sigHex key =
      if verifies key (sha256OfBytes m.canonicalUnsigned).1 sig then .valid
      else .forged "ed25519 verification failed" := by
  obtain ⟨raw, hraw, hslice⟩ := hsig
  rw [verifyPack, if_neg (by simpa [Option.isSome_iff_ne_none] using hm), hraw]
  simp only [hslice]

/-- A manifest is valid exactly if it has a signature block and the sidecar holds a signature that
verifies for its digest. -/
theorem verifyPack_eq_valid_iff :
    verifyPack m sigHex key = .valid ↔ m.signature.isSome ∧ ∃ sig, HoldsSignature sigHex sig ∧
      verifies key (sha256OfBytes m.canonicalUnsigned).1 sig = true := by
  constructor
  · intro h
    unfold verifyPack at h
    split_ifs at h with hm
    dsimp only at h
    split at h
    · cases h
    split at h
    · cases h
    split_ifs at h with hverifies
    exact ⟨by simpa [Option.isSome_iff_ne_none] using hm, _, ⟨_, ‹_›, ‹_›⟩, hverifies⟩
  · rintro ⟨hm, sig, hsig, hverifies⟩
    rw [verifyPack_of_holdsSignature hm hsig, if_pos hverifies]

/-- What a present signature block holds does not matter. -/
theorem verifyPack_congr (hm : m.signature.isSome) (hm' : m'.signature.isSome)
    (h : m.canonicalUnsigned = m'.canonicalUnsigned) :
    verifyPack m sigHex key = verifyPack m' sigHex key := by
  have hnone : m.signature.isNone = false := by simpa [Option.isSome_iff_ne_none] using hm
  have hnone' : m'.signature.isNone = false := by simpa [Option.isSome_iff_ne_none] using hm'
  simp only [verifyPack, hnone, hnone', h]

/-- A signature that verifies for one canonical text is forged for another. -/
theorem forged_of_canonicalUnsigned_ne
    (honce : ∀ sig, HoldsSignature sigHex sig → VerifiesOnce key sig)
    (hhash : sha256OfBytes m.canonicalUnsigned = sha256OfBytes m'.canonicalUnsigned →
      m.canonicalUnsigned = m'.canonicalUnsigned)
    (hvalid : verifyPack m sigHex key = .valid) (hm' : m'.signature.isSome)
    (hne : m.canonicalUnsigned ≠ m'.canonicalUnsigned) :
    ∃ why, verifyPack m' sigHex key = .forged why := by
  obtain ⟨-, sig, hsig, hverifies⟩ := verifyPack_eq_valid_iff.mp hvalid
  have hrejected : ¬verifies key (sha256OfBytes m'.canonicalUnsigned).1 sig = true :=
    fun hverifies' => hne (hhash (honce sig hsig _ _ hverifies hverifies'))
  exact ⟨_, by rw [verifyPack_of_holdsSignature hm' hsig, if_neg hrejected]⟩

end

/-- The canonical text determines the manifest but for its signature block, so what a present
block holds does not matter, and a signature that is valid for a manifest is forged for every
manifest with other content. -/
theorem verifyPack_tamper_evident (htext : Function.Injective timestampText) :
    (∀ m m' : PackManifest, m.canonicalUnsigned = m'.canonicalUnsigned ↔ m.SameContent m') ∧
    ∀ (sigHex : String) (key : VerifyingKey),
      (∀ m m' : PackManifest, m.signature.isSome → m'.signature.isSome → m.SameContent m' →
        verifyPack m sigHex key = verifyPack m' sigHex key) ∧
      ((∀ sig, HoldsSignature sigHex sig → VerifiesOnce key sig) → ∀ m m' : PackManifest,
        (sha256OfBytes m.canonicalUnsigned = sha256OfBytes m'.canonicalUnsigned →
          m.canonicalUnsigned = m'.canonicalUnsigned) →
        verifyPack m sigHex key = .valid → m'.signature.isSome → ¬m.SameContent m' →
          ∃ why, verifyPack m' sigHex key = .forged why) := by
  refine ⟨fun m m' => canonicalUnsigned_eq_iff fun h => htext h, fun sigHex key => ⟨?_, ?_⟩⟩
  · intro m m' hm hm' hsame
    exact verifyPack_congr hm hm' ((canonicalUnsigned_eq_iff fun h => htext h).mpr hsame)
  · intro honce m m' hhash hvalid hm' hother
    exact forged_of_canonicalUnsigned_ne honce hhash hvalid hm' fun heq =>
      hother ((canonicalUnsigned_eq_iff fun h => htext h).mp heq)

end

/-- Hexadecimal text has no white space to trim. -/
theorem trim_hexEncode (bytes : List UInt8) : trim (hexEncode bytes) = hexEncode bytes := by
  have hdigit : ∀ d < 16, isWhiteSpace (Nat.digitChar d) = false := by decide
  refine trim_of_forall fun c hc => ?_
  rw [hexEncode, String.toList_ofList, List.mem_flatMap] at hc
  obtain ⟨b, -, hc⟩ := hc
  have hlt : b.toNat < 256 := b.toNat_lt
  simp only [hexByte, List.mem_cons, List.not_mem_nil, or_false] at hc
  obtain rfl | rfl := hc
  · exact hdigit _ (by omega)
  · exact hdigit _ (by omega)

namespace Fixture

attribute [local instance] chronoSerde

/-- A signed pack of one empty policy file. -/
def pack : PackManifest where
  schemaVersion := "1"
  name := "money-moves"
  version := "1"
  entries := [⟨"a.rego", "rego",
    "e3b0c44298fc1c149afbf4c8996fb92427ae41e4649b934ca495991b7852b855"⟩]
  generatedAt := epoch
  signature := some ⟨"pack.sig", "ed25519", "sha256", "clavenar-identity:v3", epoch⟩

/-- The digest of the canonical text of the pack. -/
def packDigest : List UInt8 :=
  [0x40, 0xc2, 0xc7, 0x95, 0x56, 0xde, 0x92, 0x28, 0xee, 0x52, 0x9d, 0x6e, 0x0f, 0xf2, 0x20,
   0x16, 0xd9, 0x12, 0xc7, 0xd8, 0x53, 0xc7, 0x94, 0x93, 0xe8, 0xc6, 0xca, 0x22, 0x95, 0x63,
   0x5b, 0x5d]

/-- The digest of the canonical text of the pack without its entry. -/
def emptiedDigest : List UInt8 :=
  [0x4a, 0x96, 0x1e, 0x16, 0x10, 0x6c, 0xb5, 0x8b, 0xdf, 0x9a, 0xc6, 0x46, 0xc5, 0xf8, 0x3c,
   0xc0, 0x5b, 0xff, 0x05, 0xf2, 0x7a, 0x0e, 0xb2, 0x82, 0x70, 0x8e, 0xe6, 0xda, 0xb0, 0x56,
   0xbf, 0x8a]

/-- The public key of the secret key of 32 nines. -/
def packKey : List UInt8 :=
  [0xfd, 0x17, 0x24, 0x38, 0x5a, 0xa0, 0xc7, 0x5b, 0x64, 0xfb, 0x78, 0xcd, 0x60, 0x2f, 0xa1,
   0xd9, 0x91, 0xfd, 0xeb, 0xf7, 0x6b, 0x13, 0xc5, 0x8e, 0xd7, 0x02, 0xea, 0xc8, 0x35, 0xe9,
   0xf6, 0x18]

/-- The signature of the digest of the pack. -/
def packSignature : List UInt8 :=
  [0x7d, 0x23, 0xb3, 0xd8, 0xea, 0x3d, 0x78, 0x75, 0x2c, 0x4c, 0x66, 0x47, 0x92, 0x37, 0xbe,
   0x53, 0x0f, 0xbe, 0xce, 0x51, 0xae, 0xe2, 0x49, 0xc1, 0x03, 0x86, 0xf9, 0x5b, 0xf7, 0x16,
   0xde, 0xfc, 0x8d, 0xc5, 0xac, 0x76, 0x22, 0x41, 0x63, 0xfd, 0xc6, 0x51, 0xfd, 0x55, 0xec,
   0x86, 0x3a, 0x00, 0x58, 0x46, 0x83, 0x66, 0xc0, 0xa3, 0x51, 0x3e, 0x51, 0x33, 0x64, 0x0a,
   0x7f, 0x44, 0xee, 0x0d]

/-- The crates on the pack and on the pack without its entry. -/
@[reducible] def packCrates : PackCrates where
  toKeyCrates := keyCrates
  Signature := List UInt8
  signatureFromSlice bytes := if bytes.length = 64 then .ok bytes else .error "signature error"
  verifies (key message sig : List UInt8) :=
    decide (key = packKey ∧ message = packDigest ∧ sig = packSignature)
  decodeHex digits :=
    match hexDecode digits.toList with
    | some bytes => .ok bytes
    | none => .error "Odd number of digits"
  sha256OfBytes bytes :=
    if bytes = pack.canonicalUnsigned then ⟨packDigest, rfl⟩ else ⟨emptiedDigest, rfl⟩

attribute [local instance] packCrates

/-- The hexadecimal text of the signature holds the signature. -/
theorem holdsSignature_pack : HoldsSignature (hexEncode packSignature) packSignature := by
  refine ⟨packSignature, ?_, if_pos rfl⟩
  rw [trim_hexEncode]
  simp only [decodeHex, hexEncode, String.toList_ofList, hexDecode_flatMap_hexByte]

/-- The entry cannot be taken out of the pack. -/
theorem verifyPack_tamper_evident_emptied :
    verifyPack pack (hexEncode packSignature) packKey = .valid ∧
      ∃ why, verifyPack { pack with entries := [] } (hexEncode packSignature) packKey =
        .forged why := by
  obtain ⟨hbinds, hclaim⟩ := verifyPack_tamper_evident timestampText_injective
  obtain ⟨-, hforged⟩ := hclaim (hexEncode packSignature) packKey
  have hvalid : verifyPack pack (hexEncode packSignature) packKey = .valid := by
    refine verifyPack_eq_valid_iff.mpr ⟨rfl, packSignature, holdsSignature_pack, ?_⟩
    simp [sha256OfBytes, verifies]
  have hother : ¬pack.SameContent { pack with entries := [] } := fun hsame => by
    simpa [pack] using hsame.entries
  have honce : ∀ sig, HoldsSignature (hexEncode packSignature) sig → VerifiesOnce packKey sig := by
    intro sig _ d d' hd hd'
    simp only [verifies, decide_eq_true_eq] at hd hd'
    exact Subtype.ext (hd.2.1.trans hd'.2.1.symm)
  refine ⟨hvalid, hforged honce pack { pack with entries := [] } (fun hdigest => ?_) hvalid rfl
    hother⟩
  have hne : ({ pack with entries := [] } : PackManifest).canonicalUnsigned ≠
      pack.canonicalUnsigned := fun heq => hother ((hbinds _ _).mp heq.symm)
  simp only [sha256OfBytes, if_true, if_neg hne] at hdigest
  exact absurd hdigest (by decide)

end Fixture

end ClavenarSdk
