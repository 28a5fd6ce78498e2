import ClavenarSdk.Execution.Background
import ClavenarSdk.Execution.Provenance
import ClavenarSdk.Json.Schema

/-!
# The receipt contract

`contracts/execution-receipt-v1.schema.json`. The schema describes authorizations and receipts. A
receipt conforms to it whenever its authorization does, and an authorization is kept in conformance
from the response of the Proxy to the receipt that is sent.
-/

namespace ClavenarSdk

open Interaction ClavenarClient

/-! ### The schema -/

/-- Lower-case hexadecimal digits. -/
def hexRanges : List (Char × Char) := [('0', '9'), ('a', 'f')]

/-- Digits of URL-safe Base64. -/
def base64UrlRanges : List (Char × Char) :=
  [('A', 'Z'), ('a', 'z'), ('0', '9'), ('_', '_'), ('-', '-')]

/-- `$defs/digest`. -/
def digestSchema : Schema :=
  .string 0 none (some ⟨[.text "sha256:", .chars hexRanges 64], true⟩)

/-- `$defs/uuid`. -/
def uuidSchema : Schema :=
  .string 0 none (some ⟨[.chars hexRanges 8, .text "-", .chars hexRanges 4, .text "-",
    .chars hexRanges 4, .text "-", .chars hexRanges 4, .text "-", .chars hexRanges 12], true⟩)

/-- A string that is not empty. -/
def nonemptySchema : Schema := .string 1 none none

/-- A SPIFFE id. -/
def spiffeSchema : Schema := .string 0 none (some ⟨[.text "spiffe://"], false⟩)

/-- `$defs/identitySignature`. -/
def identitySignatureSchema : Schema :=
  .object ["algorithm", "key_id", "value"]
    [("algorithm", .const "Ed25519"), ("key_id", nonemptySchema), ("value", nonemptySchema)] false

/-- `$defs/policyBundle`. -/
def policyBundleSchema : Schema :=
  .object ["schema_version", "version", "hash_sha256", "policy_count"]
    [("schema_version", .integer 1), ("version", nonemptySchema), ("hash_sha256", digestSchema),
     ("policy_count", .integer 0)] false

/-- `decision_principal`. -/
def decisionPrincipalSchema : Schema :=
  .object ["subject", "tenant", "method", "credential"]
    [("subject", nonemptySchema), ("tenant", nonemptySchema), ("method", nonemptySchema),
     ("credential", nonemptySchema)] true

/-- `$defs/authorization`. -/
def authorizationSchema : Schema :=
  .object ["contract", "stage", "authorization_id", "idempotency_id", "correlation_id", "agent_id",
      "agent_spiffe", "tenant", "credential_fingerprint", "method", "tool_name",
      "execution_payload", "payload_sha256", "decision_principal", "policy_bundle",
      "brain_version", "brain_evidence_sha256"]
    [("contract", .const "clavenar.execution/v1"), ("stage", .const "authorization"),
     ("authorization_id", uuidSchema), ("idempotency_id", uuidSchema),
     ("correlation_id", uuidSchema), ("agent_id", nonemptySchema), ("agent_spiffe", spiffeSchema),
     ("tenant", nonemptySchema), ("credential_fingerprint", digestSchema),
     ("method", nonemptySchema), ("tool_name", nonemptySchema),
     ("execution_payload", .object [] [] true), ("payload_sha256", digestSchema),
     ("decision_principal", decisionPrincipalSchema),
     ("modification_diff", .nullable (.object [] [] true)), ("policy_bundle", policyBundleSchema),
     ("brain_version", nonemptySchema), ("brain_evidence_sha256", digestSchema)] false

/-- `$defs/signedAuthorization`. -/
def signedAuthorizationSchema : Schema :=
  .object ["authorization", "identity_signature"]
    [("authorization", authorizationSchema), ("identity_signature", identitySignatureSchema)] false

/-- `$defs/workloadSignature`. -/
def workloadSignatureSchema : Schema :=
  .object ["algorithm", "credential_fingerprint", "value"]
    [("algorithm", .const "ES256"), ("credential_fingerprint", digestSchema),
     ("value", .string 0 none (some ⟨[.chars base64UrlRanges 86], true⟩))] false

/-- `$defs/executionReceipt`. -/
def executionReceiptSchema : Schema :=
  .object ["contract", "stage", "authorization_id", "idempotency_id", "correlation_id", "agent_id",
      "agent_spiffe", "tenant", "credential_fingerprint", "method", "payload_sha256",
      "authorization", "result_sha256", "effect_id", "workload_signature"]
    [("contract", .const "clavenar.execution/v1"), ("stage", .const "execution.completed"),
     ("authorization_id", uuidSchema), ("idempotency_id", uuidSchema),
     ("correlation_id", uuidSchema), ("agent_id", nonemptySchema), ("agent_spiffe", spiffeSchema),
     ("tenant", nonemptySchema), ("credential_fingerprint", digestSchema),
     ("method", nonemptySchema), ("payload_sha256", digestSchema),
     ("authorization", signedAuthorizationSchema), ("result_sha256", digestSchema),
     ("effect_id", .string 1 (some 256) none), ("workload_signature", workloadSignatureSchema)]
    false

/-! ### What the SDK writes -/

/-- A part of a pattern takes a text of its length from its ranges. -/
theorem takes_chars {ranges : List (Char × Char)} {count : ℕ} {cs : List Char}
    (hlength : cs.length = count)
    (h : ∀ c ∈ cs, (ranges.any fun range => range.1 ≤ c && c ≤ range.2) = true) :
    (PatternPart.chars ranges count).takes cs = true := by
  simp only [PatternPart.takes, hlength, beq_self_eq_true, Bool.true_and, List.all_eq_true]
  exact h

/-- A fixed part of a pattern takes its own text. -/
theorem takes_text {s : String} {cs : List Char} (h : s.toList = cs) :
    (PatternPart.text s).takes cs = true := beq_iff_eq.mpr h.symm

/-- Hexadecimal digits lie in the ranges for them. -/
theorem mem_hexRanges {bytes : List UInt8} {c : Char} (hc : c ∈ bytes.flatMap hexByte) :
    (hexRanges.any fun range => range.1 ≤ c && c ≤ range.2) = true := by
  have hdigit : ∀ d < 16, (hexRanges.any fun range =>
      range.1 ≤ Nat.digitChar d && Nat.digitChar d ≤ range.2) = true := by decide
  obtain ⟨b, -, hc⟩ := List.mem_flatMap.mp hc
  have hlt : b.toNat < 256 := b.toNat_lt
  simp only [hexByte, List.mem_cons, List.not_mem_nil, or_false] at hc
  rcases hc with rfl | rfl
  · exact hdigit _ (by omega)
  · exact hdigit _ (by omega)

/-- A string that matches an anchored pattern piece by piece. -/
theorem accepts_pattern {parts : List PatternPart} {s : String} {pieces : List (List Char)}
    (htext : s.toList = pieces.flatten)
    (hpieces : List.Forall₂ (fun part piece => part.takes piece = true) parts pieces) :
    (Schema.string 0 none (some ⟨parts, true⟩)).accepts (.string s) = true := by
  refine Schema.accepts_string_iff.mpr ⟨s, rfl, Nat.zero_le _, by simp, ?_⟩
  rintro _ ⟨⟩
  exact Pattern.accepts_iff.mpr
    ⟨pieces, [], by rw [htext, List.append_nil], hpieces, fun _ => rfl⟩

/-- A digest conforms to the schema for digests. -/
theorem accepts_digest [Crates] (text : String) :
    digestSchema.accepts (.string (sha256 text)) = true := by
  have hbytes : ((sha256Digest text).1.flatMap hexByte).length = 64 := by
    rw [length_flatMap_hexByte, (sha256Digest text).2]
  have htext : (sha256 text).toList =
      ["sha256:".toList, (sha256Digest text).1.flatMap hexByte].flatten := by
    simp [sha256, hexEncode]
  exact accepts_pattern htext
    (.cons (takes_text rfl) (.cons (takes_chars hbytes fun _ => mem_hexRanges) .nil))

/-- An identifier conforms to the schema for identifiers. -/
theorem accepts_uuid (u : Uuid) : uuidSchema.accepts (.string u.toText) = true := by
  have hlength : (u.bytes.flatMap hexByte).length = 32 := by
    rw [length_flatMap_hexByte, u.length_eq]
  have hpiece : ∀ (start count : ℕ), start + count ≤ 32 →
      (PatternPart.chars hexRanges count).takes
        (((u.bytes.flatMap hexByte).drop start).take count) = true := by
    intro start count hle
    refine takes_chars ?_ fun c hc => ?_
    · rw [List.length_take, List.length_drop, hlength]
      omega
    · exact mem_hexRanges (List.mem_of_mem_drop (List.mem_of_mem_take hc))
  have hhyphen : (PatternPart.text "-").takes ['-'] = true := takes_text rfl
  have htext : u.toText.toList = [((u.bytes.flatMap hexByte).drop 0).take 8, ['-'],
      ((u.bytes.flatMap hexByte).drop 8).take 4, ['-'],
      ((u.bytes.flatMap hexByte).drop 12).take 4, ['-'],
      ((u.bytes.flatMap hexByte).drop 16).take 4, ['-'],
      ((u.bytes.flatMap hexByte).drop 20).take 12].flatten := by
    have hlast : ((u.bytes.flatMap hexByte).drop 20).take 12 = (u.bytes.flatMap hexByte).drop 20 :=
      List.take_of_length_le (by rw [List.length_drop, hlength])
    rw [hlast]
    simp [Uuid.toText]
  exact accepts_pattern htext (.cons (hpiece 0 8 (by omega)) (.cons hhyphen
    (.cons (hpiece 8 4 (by omega)) (.cons hhyphen (.cons (hpiece 12 4 (by omega)) (.cons hhyphen
      (.cons (hpiece 16 4 (by omega)) (.cons hhyphen
        (.cons (hpiece 20 12 (by omega)) .nil)))))))))

/-- Three bytes take four digits, and a remainder one digit more than bytes. -/
theorem length_base64UrlDigits (bytes : List UInt8) :
    (base64UrlDigits bytes).length = (4 * bytes.length + 2) / 3 := by
  induction bytes using base64UrlDigits.induct with
  | case1 => rfl
  | case2 a => simp [base64UrlDigits]
  | case3 a b => simp [base64UrlDigits]
  | case4 a b c rest ih =>
    simp only [base64UrlDigits, List.length_cons, ih]
    omega

/-- Base64 digits lie in the ranges for them. -/
theorem mem_base64UrlRanges {bytes : List UInt8} {c : Char} (hc : c ∈ base64UrlDigits bytes) :
    (base64UrlRanges.any fun range => range.1 ≤ c && c ≤ range.2) = true := by
  have hsmall : ∀ n < 64, (base64UrlRanges.any fun range =>
      range.1 ≤ base64UrlDigit n && base64UrlDigit n ≤ range.2) = true := by decide
  have hbyte : ∀ b : UInt8, b.toNat < 256 := fun b => b.toNat_lt
  induction bytes using base64UrlDigits.induct with
  | case1 => simp [base64UrlDigits] at hc
  | case2 a =>
    have ha := hbyte a
    simp only [base64UrlDigits, List.mem_cons, List.not_mem_nil, or_false] at hc
    rcases hc with rfl | rfl <;> exact hsmall _ (by omega)
  | case3 a b =>
    have ha := hbyte a
    have hb := hbyte b
    simp only [base64UrlDigits, List.mem_cons, List.not_mem_nil, or_false] at hc
    rcases hc with rfl | rfl | rfl <;> exact hsmall _ (by omega)
  | case4 a b c rest ih =>
    have ha := hbyte a
    have hb := hbyte b
    have hc' := hbyte c
    simp only [base64UrlDigits, List.mem_cons] at hc
    rcases hc with rfl | rfl | rfl | rfl | hc
    · exact hsmall _ (by omega)
    · exact hsmall _ (by omega)
    · exact hsmall _ (by omega)
    · exact hsmall _ (by omega)
    · exact ih hc

/-- A signature has the length of the schema if and only if it has sixty-four bytes. -/
theorem accepts_signature_iff (bytes : List UInt8) :
    (Schema.string 0 none (some ⟨[.chars base64UrlRanges 86], true⟩)).accepts
      (.string (base64UrlNoPad bytes)) = true ↔ bytes.length = 64 := by
  have hlength := length_base64UrlDigits bytes
  constructor
  · intro h
    obtain ⟨_, ⟨⟩, -, -, hpattern⟩ := Schema.accepts_string_iff.mp h
    obtain ⟨pieces, left, htext, hpieces, hend⟩ := Pattern.accepts_iff.mp (hpattern _ rfl)
    obtain ⟨piece, rfl, htakes⟩ : ∃ piece, pieces = [piece] ∧
        (PatternPart.chars base64UrlRanges 86).takes piece = true := by
      cases hpieces with
      | cons htakes hnil =>
        cases hnil
        exact ⟨_, rfl, htakes⟩
    have hpiece := PatternPart.length_of_takes htakes
    rw [hend rfl, base64UrlNoPad, String.toList_ofList, List.append_nil, List.flatten_singleton]
      at htext
    rw [← htext, hlength, PatternPart.length] at hpiece
    omega
  · intro h
    have htext : (base64UrlNoPad bytes).toList = [base64UrlDigits bytes].flatten := by
      rw [base64UrlNoPad, String.toList_ofList, List.flatten_singleton]
    refine accepts_pattern htext (.cons (takes_chars ?_ fun _ => mem_base64UrlRanges) .nil)
    omega

/-- A text has at most as many characters as bytes. -/
theorem length_le_utf8ByteSize (s : String) : s.length ≤ s.utf8ByteSize := by
  have hsum : ∀ cs : List Char, cs.length ≤ (cs.map Char.utf8Size).sum := by
    intro cs
    induction cs with
    | nil => rfl
    | cons c cs ih =>
      have hpos := c.utf8Size_pos
      simp only [List.length_cons, List.map_cons, List.sum_cons]
      omega
  have hs := hsum s.toList
  rwa [← utf8ByteSize_ofList, String.ofList_toList, String.length_toList] at hs

/-- An effect id is bounded in bytes, so it is bounded in characters. -/
theorem accepts_effectId {effectId : String} (hne : effectId ≠ "")
    (hle : effectId.utf8ByteSize ≤ 256) :
    (Schema.string 1 (some 256) none).accepts (.string effectId) = true := by
  have hlength := length_le_utf8ByteSize effectId
  have hpos : effectId.length ≠ 0 := fun h => hne (String.length_eq_zero_iff.mp h)
  refine Schema.accepts_string_iff.mpr ⟨_, rfl, by omega, ?_, by simp⟩
  rintro _ ⟨⟩
  omega

/-! ### Receipts -/

section

variable [Crates]

/-- A receipt conforms if and only if its authorization does and its signature has sixty-four
bytes: the rest is written by the SDK or copied from the authorization. -/
theorem accepts_receipt_iff {signingKey : SigningKey} {authorization : SignedAuthorization}
    {effect : ExecutionEffect} {text : String}
    (hbounded : effect.effectId ≠ "" ∧ effect.effectId.utf8ByteSize ≤ 256) :
    executionReceiptSchema.accepts
        (toJson (signedReceipt signingKey authorization effect text)) = true ↔
      signedAuthorizationSchema.accepts (toJson authorization) = true ∧
        (sign signingKey text).length = 64 := by
  let claims := authorization.authorization
  let receipt := signedReceipt signingKey authorization effect text
  constructor
  · intro h
    have hsignature := Schema.accepts_of_mem "workload_signature" (toJson receipt.workloadSignature)
      h (by simp [receipt]) rfl
    have hvalue := Schema.accepts_of_mem "value" (toJson receipt.workloadSignature.value)
      hsignature (by simp) rfl
    exact ⟨Schema.accepts_of_mem "authorization" (toJson receipt.authorization) h
      (by simp [receipt]) rfl, (accepts_signature_iff _).mp hvalue⟩
  · rintro ⟨h, hlength⟩
    have hclaims := Schema.accepts_of_mem "authorization" (toJson claims) h (by simp [claims]) rfl
    have hfingerprint := Schema.accepts_of_mem "credential_fingerprint"
      (toJson claims.credentialFingerprint) hclaims (by simp) rfl
    have hsignature :
        workloadSignatureSchema.accepts (toJson receipt.workloadSignature) = true := by
      refine Schema.accepts_of_forall (by simp) ?_
      simp only [List.forall_mem_cons]
      exact ⟨⟨_, rfl, Schema.accepts_const_iff.mpr rfl⟩, ⟨_, rfl, hfingerprint⟩,
        ⟨_, rfl, (accepts_signature_iff _).mpr hlength⟩, by simp⟩
    refine Schema.accepts_of_forall (by simp) ?_
    simp only [List.forall_mem_cons]
    exact ⟨⟨_, rfl, Schema.accepts_const_iff.mpr rfl⟩, ⟨_, rfl, Schema.accepts_const_iff.mpr rfl⟩,
      ⟨_, rfl, accepts_uuid _⟩, ⟨_, rfl, accepts_uuid _⟩, ⟨_, rfl, accepts_uuid _⟩,
      ⟨_, rfl, Schema.accepts_of_mem "agent_id" (toJson claims.agentId) hclaims (by simp) rfl⟩,
      ⟨_, rfl, Schema.accepts_of_mem "agent_spiffe" (toJson claims.agentSpiffe) hclaims (by simp)
        rfl⟩,
      ⟨_, rfl, Schema.accepts_of_mem "tenant" (toJson claims.tenant) hclaims (by simp) rfl⟩,
      ⟨_, rfl, hfingerprint⟩,
      ⟨_, rfl, Schema.accepts_of_mem "method" (toJson claims.method) hclaims (by simp) rfl⟩,
      ⟨_, rfl, Schema.accepts_of_mem "payload_sha256" (toJson claims.payloadSha256) hclaims
        (by simp) rfl⟩,
      ⟨_, rfl, h⟩, ⟨_, rfl, accepts_digest _⟩, ⟨_, rfl, accepts_effectId hbounded.1 hbounded.2⟩,
      ⟨_, rfl, hsignature⟩, by simp⟩

end

/-! ### Responses -/

/-- What is read from a conforming document is written as one. -/
def Schema.Keeps (schema : Schema) (α : Type) [Serialize α] [Deserialize α] : Prop :=
  ∀ (j : Json) (a : α), fromJson j = .ok a → schema.accepts j = true →
    schema.accepts (toJson a) = true

/-- A text is written as it was read. -/
theorem keeps_string (schema : Schema) : schema.Keeps String := by
  intro j s hread h
  obtain rfl := string_fromJson_eq_ok_iff.mp hread
  exact h

/-- An opaque value is written as it was read, up to the order of its members. -/
theorem keeps_value (schema : Schema) : schema.Keeps Value := by
  intro j v hread h
  obtain rfl := value_fromJson_eq_ok_iff.mp hread
  exact schema.accepts_normalize h

/-- An integer is read from a number in its range. -/
theorem decodeInt_eq_ok_iff {α : Type} {low high : ℤ} {ofInt : ℤ → α} {j : Json} {a : α} :
    decodeInt low high ofInt j = .ok a ↔
      ∃ n, j = .number (.int n) ∧ (low ≤ n ∧ n < high) ∧ ofInt n = a := by
  cases j with
  | number n =>
    cases n with
    | int n => by_cases h : low ≤ n ∧ n < high <;> simp [decodeInt, h]
    | float text => simp [decodeInt]
  | null | bool | string | array | object => simp [decodeInt]

/-- A byte is written as it was read. -/
theorem keeps_uint8 (schema : Schema) : schema.Keeps UInt8 := by
  intro j a hread h
  obtain ⟨n, rfl, ⟨hlow, hhigh⟩, rfl⟩ := decodeInt_eq_ok_iff.mp hread
  have hn : ((UInt8.ofNat n.toNat).toNat : ℤ) = n := by
    rw [UInt8.toNat_ofNat']
    omega
  simp only [toJson, hn]
  exact h

/-- A counter is written as it was read. -/
theorem keeps_uint64 (schema : Schema) : schema.Keeps UInt64 := by
  intro j a hread h
  obtain ⟨n, rfl, ⟨hlow, hhigh⟩, rfl⟩ := decodeInt_eq_ok_iff.mp hread
  have hn : ((UInt64.ofNat n.toNat).toNat : ℤ) = n := by
    rw [UInt64.toNat_ofNat']
    omega
  simp only [toJson, hn]
  exact h

section

variable {required : List String} {properties : List (String × Schema)} {additional : Bool}

/-- The fields of a struct are looked up in the object itself. -/
theorem eq_object_of_structMembers {names : List String} {j : Json} {members : List (String × Json)}
    (hmembers : structMembers names j = .ok members)
    (h : (Schema.object required properties additional).accepts j = true) :
    j = .object members := by
  obtain ⟨members', rfl, -⟩ := Schema.accepts_object_iff.mp h
  simp only [structMembers] at hmembers
  split at hmembers
  · simp at hmembers
  · split_ifs at hmembers
    rw [Except.ok.inj hmembers]

/-- An optional value that is present was read from its member. -/
theorem exists_of_optionalField {α : Type} [Deserialize α] {members : List (String × Json)}
    {name : String} {a : α} (h : optionalField members name = .ok (some a)) :
    ∃ v, members.lookup name = some v ∧ fromJson v = .ok a := by
  unfold optionalField at h
  cases hlookup : members.lookup name with
  | none => simp [hlookup] at h
  | some v =>
    refine ⟨v, rfl, ?_⟩
    by_cases hnull : v = .null
    · simp [hlookup, hnull] at h
    · simp only [hlookup, hnull, if_false] at h
      cases hdecode : (fromJson v : Except DecodeError α) with
      | error error => simp [hdecode, Functor.map, Except.map] at h
      | ok b => simpa [hdecode] using h

/-- What is read of a conforming member conforms to the schema of the member. -/
theorem accepts_optionalField {α : Type} [Serialize α] [Deserialize α]
    {members : List (String × Json)} {name : String} {a : α}
    (hread : optionalField members name = .ok (some a))
    (h : (Schema.object required properties additional).accepts (.object members) = true)
    {schema : Schema} (hproperty : properties.lookup name = some schema) (hkeeps : schema.Keeps α) :
    schema.accepts (toJson a) = true := by
  obtain ⟨v, hlookup, hdecode⟩ := exists_of_optionalField hread
  exact hkeeps v a hdecode
    (Schema.accepts_of_mem name v h (mem_of_lookup_eq_some hlookup) hproperty)

/-- A field that is read from a conforming object conforms. -/
theorem accepts_requiredField {α : Type} [Serialize α] [Deserialize α]
    {members : List (String × Json)} {name : String} {a : α}
    (hread : requiredField members name = .ok a)
    (h : (Schema.object required properties additional).accepts (.object members) = true)
    {schema : Schema} (hproperty : properties.lookup name = some schema) (hkeeps : schema.Keeps α) :
    schema.accepts (toJson a) = true := by
  obtain ⟨v, hlookup, hdecode⟩ := requiredField_eq_ok_iff.mp hread
  exact hkeeps v a hdecode
    (Schema.accepts_of_mem name v h (mem_of_lookup_eq_some hlookup) hproperty)

end

/-- A signature is written so as to conform if it was read so. -/
theorem keeps_identitySignature : identitySignatureSchema.Keeps IdentitySignature := by
  intro j signature hread h
  simp only [fromJson, IdentitySignature.deserialize, bind_eq_ok_iff] at hread
  obtain ⟨members, hmembers, algorithm, halgorithm, keyId, hkeyId, value, hvalue,
    hsignature⟩ := hread
  obtain rfl := eq_object_of_structMembers hmembers h
  obtain rfl := Except.ok.inj hsignature
  refine Schema.accepts_of_forall (by simp) ?_
  simp only [List.forall_mem_cons]
  exact ⟨⟨_, rfl, accepts_requiredField halgorithm h rfl (keeps_string _)⟩,
    ⟨_, rfl, accepts_requiredField hkeyId h rfl (keeps_string _)⟩,
    ⟨_, rfl, accepts_requiredField hvalue h rfl (keeps_string _)⟩, by simp⟩

/-- So is the provenance of a policy bundle. -/
theorem keeps_policyBundle : policyBundleSchema.Keeps PolicyBundleProvenance := by
  intro j bundle hread h
  simp only [fromJson, PolicyBundleProvenance.deserialize, bind_eq_ok_iff] at hread
  obtain ⟨members, hmembers, schemaVersion, hschema, version, hversion, hash, hhash, count, hcount,
    hbundle⟩ := hread
  obtain rfl := eq_object_of_structMembers hmembers h
  obtain rfl := Except.ok.inj hbundle
  refine Schema.accepts_of_forall (by simp) ?_
  simp only [List.forall_mem_cons]
  exact ⟨⟨_, rfl, accepts_requiredField hschema h rfl (keeps_uint8 _)⟩,
    ⟨_, rfl, accepts_requiredField hversion h rfl (keeps_string _)⟩,
    ⟨_, rfl, accepts_requiredField hhash h rfl (keeps_string _)⟩,
    ⟨_, rfl, accepts_requiredField hcount h rfl (keeps_uint64 _)⟩, by simp⟩

/-- So is an authorization. -/
theorem keeps_authorization : authorizationSchema.Keeps Authorization := by
  intro j claims hread h
  simp only [fromJson, Authorization.deserialize, bind_eq_ok_iff] at hread
  obtain ⟨members, hmembers, contract, hcontract, stage, hstage, authorizationId,
    hauthorizationId, idempotencyId, hidempotencyId, correlationId, hcorrelationId, agentId,
    hagentId, agentSpiffe, hagentSpiffe, tenant, htenant, fingerprint, hfingerprint, method,
    hmethod, toolName, htoolName, payload, hpayload, payloadSha256, hpayloadSha256, principal,
    hprincipal, diff, hdiff, bundle, hbundle, brainVersion, hbrainVersion, brainEvidence,
    hbrainEvidence, hclaims⟩ := hread
  obtain rfl := eq_object_of_structMembers hmembers h
  obtain rfl := Except.ok.inj hclaims
  have hwritten : ∀ v, diff = some v →
      (Schema.nullable (.object [] [] true)).accepts (toJson v) = true := by
    rintro v rfl
    exact accepts_optionalField hdiff h rfl (keeps_value _)
  refine Schema.accepts_of_forall (by simp) ?_
  simp only [List.forall_mem_append, List.forall_mem_cons]
  refine ⟨⟨⟨⟨_, rfl, accepts_requiredField hcontract h rfl (keeps_string _)⟩,
      ⟨_, rfl, accepts_requiredField hstage h rfl (keeps_string _)⟩,
      ⟨_, rfl, accepts_uuid _⟩, ⟨_, rfl, accepts_uuid _⟩, ⟨_, rfl, accepts_uuid _⟩,
      ⟨_, rfl, accepts_requiredField hagentId h rfl (keeps_string _)⟩,
      ⟨_, rfl, accepts_requiredField hagentSpiffe h rfl (keeps_string _)⟩,
      ⟨_, rfl, accepts_requiredField htenant h rfl (keeps_string _)⟩,
      ⟨_, rfl, accepts_requiredField hfingerprint h rfl (keeps_string _)⟩,
      ⟨_, rfl, accepts_requiredField hmethod h rfl (keeps_string _)⟩,
      ⟨_, rfl, accepts_requiredField htoolName h rfl (keeps_string _)⟩,
      ⟨_, rfl, accepts_requiredField hpayload h rfl (keeps_value _)⟩,
      ⟨_, rfl, accepts_requiredField hpayloadSha256 h rfl (keeps_string _)⟩,
      ⟨_, rfl, accepts_requiredField hprincipal h rfl (keeps_value _)⟩, by simp⟩, ?_⟩,
    ⟨_, rfl, accepts_requiredField hbundle h rfl keeps_policyBundle⟩,
    ⟨_, rfl, accepts_requiredField hbrainVersion h rfl (keeps_string _)⟩,
    ⟨_, rfl, accepts_requiredField hbrainEvidence h rfl (keeps_string _)⟩, by simp⟩
  intro m hm
  obtain ⟨v, hv, rfl⟩ := Option.map_eq_some_iff.mp (Option.mem_toList.mp hm)
  exact ⟨_, rfl, hwritten v hv⟩

/-- So is a signed authorization. -/
theorem keeps_signedAuthorization : signedAuthorizationSchema.Keeps SignedAuthorization := by
  intro j signed hread h
  simp only [fromJson, SignedAuthorization.deserialize, bind_eq_ok_iff] at hread
  obtain ⟨members, hmembers, claims, hclaims, signature, hsignature, hsigned⟩ := hread
  obtain rfl := eq_object_of_structMembers hmembers h
  obtain rfl := Except.ok.inj hsigned
  refine Schema.accepts_of_forall (by simp) ?_
  simp only [List.forall_mem_cons]
  exact ⟨⟨_, rfl, accepts_requiredField hclaims h rfl keeps_authorization⟩,
    ⟨_, rfl, accepts_requiredField hsignature h rfl keeps_identitySignature⟩, by simp⟩

/-! ### Runs -/

/-- Every receipt conforms to the published schema. In every run of any number of calls on any
clients, a receipt that was sent, by whichever call, conforms if and only if the authorization in it
does and its signature has sixty-four bytes; and this authorization was read by a governed call
from a response of the Proxy, so that the receipt conforms whenever that response did. -/
theorem receipts_conform [Crates] {c : Sys MemoryExecutionStore Op Answer ClavenarError ApiResult}
    (h : c.Reachable MemoryExecutionStore.env Allowed) {t : Task Op Answer ClavenarError ApiResult}
    (ht : t ∈ c.tasks) {request : PostRequest} (hop : .postReceipt request ∈ t.invoked) :
    ∃ (signingKey : SigningKey) (authorization : SignedAuthorization) (effect : ExecutionEffect)
      (text : String), request.json = toJson (signedReceipt signingKey authorization effect text) ∧
      (executionReceiptSchema.accepts request.json = true ↔
        signedAuthorizationSchema.accepts (toJson authorization) = true ∧
          (sign signingKey text).length = 64) ∧
      ∃ t' ∈ c.tasks, ∃ decision response raw j,
        (⟨.postDecision decision, .ok response⟩ : Event Answer) ∈ t'.history ∧
        response.status = 200 ∧ readTextLimited response = .ok raw ∧ parseJson raw = .ok j ∧
        fromJson j = .ok authorization ∧
        (signedAuthorizationSchema.accepts j = true → (sign signingKey text).length = 64 →
          executionReceiptSchema.accepts request.json = true) := by
  obtain ⟨completion, hcompletion, hjson⟩ := completion_of_postReceipt h ht hop
  obtain ⟨-, -, -, -, executor, signingKey, authorization, effect, text, -, -, -, hbounded, -, -,
    rfl, t', ht', client, governed, -, -, decision, response, raw, hmem, hstatus, hraw, hread⟩ :=
    authentic_of_mem_completions h hcompletion
  obtain ⟨j, hparse, hdecode⟩ := bind_eq_ok_iff.mp (mapError_eq_ok_iff.mp hread)
  have hsent : request.json = toJson (signedReceipt signingKey authorization effect text) := hjson
  have hiff : executionReceiptSchema.accepts request.json = true ↔
      signedAuthorizationSchema.accepts (toJson authorization) = true ∧
        (sign signingKey text).length = 64 := by
    rw [hsent]
    exact accepts_receipt_iff hbounded
  exact ⟨signingKey, authorization, effect, text, hsent, hiff, t', ht', decision, response, raw, j,
    hmem, hstatus, hraw, hparse, hdecode, fun hconforms hlength =>
      hiff.mpr ⟨keeps_signedAuthorization j authorization hdecode hconforms, hlength⟩⟩

namespace Fixture

attribute [local instance] crates

/-- The authorization of the test conforms, and so does the receipt that is sent for it. -/
theorem receipts_conform_call :
    signedAuthorizationSchema.accepts (toJson authorization) = true ∧
      ∃ c : Sys MemoryExecutionStore Op Answer ClavenarError ApiResult,
        c.Reachable MemoryExecutionStore.env Allowed ∧ ∃ t ∈ c.tasks, ∃ request,
          .postReceipt request ∈ t.invoked ∧ ∃ signingKey claims effect text,
            request.json = toJson (signedReceipt signingKey claims effect text) ∧
            (executionReceiptSchema.accepts request.json = true ↔
              signedAuthorizationSchema.accepts (toJson claims) = true ∧
                (sign signingKey text).length = 64) := by
  have hcall : Sys.Reachable MemoryExecutionStore.env Allowed
      ⟨.initial, [.fresh (call.run (client ()))], []⟩ :=
    (Sys.Reachable.init rfl).spawn ⟨client (), .governed call, rfl⟩
  have hanswered : MemoryExecutionStore.env.Answered .initial
      (confirmed ++ [⟨.markReceiptDelivered entry.outboxId receiptRecorded, .ok ()⟩])
      (committed.deliver 0 entry.outboxId receiptRecorded) :=
    (answered_confirmed (call.run (client ()))).of_restrict.of_restrict.append
      (.cons (answers_marked pending_committed) .nil)
  have hrun := hcall.follow (i := 0) rfl (returns_marked (.ok ())) hanswered
  let task : Task Op Answer ClavenarError ApiResult :=
    ⟨call.run (client ()),
      confirmed ++ [⟨.markReceiptDelivered entry.outboxId receiptRecorded, .ok ()⟩],
      .ready (.done (.ok (call.onCompleted ⟨receiptRecorded, effect.result, effect.effectId⟩)))⟩
  have hsent : .postReceipt (sends entry) ∈ task.invoked := by
    simp [task, Task.invoked, confirmed]
  obtain ⟨signingKey, claims, effect', text, hjson, hiff, -⟩ :=
    receipts_conform hrun List.mem_cons_self hsent
  exact ⟨by decide +kernel, _, hrun, _, List.mem_cons_self, _, hsent, signingKey, claims, effect',
    text, hjson, hiff⟩

end Fixture

end ClavenarSdk
