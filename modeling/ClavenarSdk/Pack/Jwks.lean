import ClavenarSdk.Collections.First
import ClavenarSdk.Crates
import ClavenarSdk.Error

/-!
# Keys in a JWKS document

The key that verifies a policy pack is looked up by its id. Only the first key under the id is
looked at, and neither its type nor its curve is.
-/

namespace ClavenarSdk

open Collections

/-- What key resolution uses of the crates it depends on, with the errors that they display. -/
class KeyCrates where
  /-- `ed25519_dalek::VerifyingKey`. -/
  VerifyingKey : Type
  /-- `VerifyingKey::from_bytes`. -/
  keyFromBytes : { bytes : List UInt8 // bytes.length = 32 } → Except String VerifyingKey
  /-- `URL_SAFE_NO_PAD.decode`. -/
  decodeBase64Url : String → Except String (List UInt8)

export KeyCrates (VerifyingKey keyFromBytes decodeBase64Url)

/-- `Value::get` with a member name. -/
def Json.get (v : Json) (name : String) : Option Json :=
  match v with
  | .object members => members.lookup name
  | _ => none

/-- `Value::as_array`. -/
def Json.asArray : Json → Option (List Json)
  | .array items => some items
  | _ => none

/-- `Value::as_str`. -/
def Json.asStr : Json → Option String
  | .string s => some s
  | _ => none

/-- `ok_or_else` with a configuration error. -/
def orInvalidConfig {α : Type} (message : String) : Option α → Except ClavenarError α
  | some a => .ok a
  | none => .error (.invalidConfig message)

/-- What is found is returned, and otherwise there is a configuration error. -/
theorem orInvalidConfig_eq_ok_iff {α : Type} {message : String} {found : Option α} {a : α} :
    orInvalidConfig message found = .ok a ↔ found = some a := by
  cases found <;> simp [orInvalidConfig]

section

variable [KeyCrates]

/-- The end of `verifying_key_from_jwks`, on the key that was found. -/
def jwkVerifyingKey (jwk : Json) : Except ClavenarError VerifyingKey := do
  let xB64 ← orInvalidConfig "jwks: key missing `x`" (jwk.get "x" >>= Json.asStr)
  let bytes ← (decodeBase64Url xB64).mapError fun e => .invalidConfig ("jwks: x base64url: " ++ e)
  if h : bytes.length = 32 then
    (keyFromBytes ⟨bytes, h⟩).mapError fun e => .invalidConfig ("jwks: invalid ed25519 key: " ++ e)
  else .error (.invalidConfig "jwks: x is not 32 bytes")

/-- `verifying_key_from_jwks`. -/
def verifyingKeyFromJwks (jwks : Value) (keyId : String) : Except ClavenarError VerifyingKey := do
  let keys ← orInvalidConfig "jwks: missing `keys` array" (jwks.json.get "keys" >>= Json.asArray)
  let jwk ← orInvalidConfig ("jwks: no key with kid=" ++ keyId)
    (keys.find? fun k => (k.get "kid" >>= Json.asStr) = some keyId)
  jwkVerifyingKey jwk

/-! ### What is found -/

omit [KeyCrates] in
/-- A member is read as a text exactly if it is one. -/
theorem get_bind_asStr_eq_some_iff {v : Json} {name s : String} :
    (v.get name >>= Json.asStr) = some s ↔ v.get name = some (.string s) := by
  cases hget : v.get name with
  | none => simp
  | some w => cases w <;> simp [Json.asStr]

omit [KeyCrates] in
/-- A member is read as an array exactly if it is one. -/
theorem get_bind_asArray_eq_some_iff {v : Json} {name : String} {items : List Json} :
    (v.get name >>= Json.asArray) = some items ↔ v.get name = some (.array items) := by
  cases hget : v.get name with
  | none => simp
  | some w => cases w <;> simp [Json.asArray]

/-- The key has this id. -/
def HasKid (keyId : String) (jwk : Json) : Prop := jwk.get "kid" = some (.string keyId)

/-- The key is an Ed25519 key, by its type and its curve. -/
def IsEd25519 (jwk : Json) : Prop :=
  jwk.get "kty" = some (.string "OKP") ∧ jwk.get "crv" = some (.string "Ed25519")

instance (keyId : String) (jwk : Json) : Decidable (HasKid keyId jwk) :=
  inferInstanceAs (Decidable (jwk.get "kid" = some (.string keyId)))

instance (jwk : Json) : Decidable (IsEd25519 jwk) :=
  inferInstanceAs (Decidable (jwk.get "kty" = some (.string "OKP") ∧
    jwk.get "crv" = some (.string "Ed25519")))

/-- The `x` of the key is the unpadded base64url form of 32 bytes that are this point. -/
def HasPoint (jwk : Json) (k : VerifyingKey) : Prop :=
  ∃ (x : String) (bytes : { bytes : List UInt8 // bytes.length = 32 }),
    jwk.get "x" = some (.string x) ∧ decodeBase64Url x = .ok bytes.1 ∧ keyFromBytes bytes = .ok k

/-- A key has at most one point. -/
theorem HasPoint.unique {jwk : Json} {k k' : VerifyingKey} (h : HasPoint jwk k)
    (h' : HasPoint jwk k') : k = k' := by
  obtain ⟨x, bytes, hx, hbytes, hk⟩ := h
  obtain ⟨x', bytes', hx', hbytes', hk'⟩ := h'
  obtain rfl : x = x' := by simpa [hx] using hx'
  obtain rfl : bytes = bytes' := by simpa [hbytes, Subtype.ext_iff] using hbytes'
  simpa [hk] using hk'

/-- The point of a key is what is read of it. -/
theorem jwkVerifyingKey_eq_ok_iff {jwk : Json} {k : VerifyingKey} :
    jwkVerifyingKey jwk = .ok k ↔ HasPoint jwk k := by
  simp only [jwkVerifyingKey, bind_eq_ok_iff, orInvalidConfig_eq_ok_iff,
    get_bind_asStr_eq_some_iff, mapError_eq_ok_iff]
  constructor
  · rintro ⟨x, hx, bytes, hbytes, hk⟩
    split_ifs at hk with hlength
    exact ⟨x, ⟨bytes, hlength⟩, hx, hbytes, mapError_eq_ok_iff.mp hk⟩
  · rintro ⟨x, ⟨bytes, hlength⟩, hx, hbytes, hk⟩
    refine ⟨x, hx, bytes, hbytes, ?_⟩
    rw [dif_pos hlength]
    exact mapError_eq_ok_iff.mpr hk

/-- The search takes the first key with the id, whatever it is. -/
theorem verifyingKeyFromJwks_eq_ok_iff {jwks : Value} {keyId : String} {k : VerifyingKey} :
    verifyingKeyFromJwks jwks keyId = .ok k ↔
      ∃ keys, jwks.json.get "keys" = some (.array keys) ∧
        FirstWith (HasKid keyId) HasPoint keys k := by
  have hkid : ∀ jwk : Json, decide ((jwk.get "kid" >>= Json.asStr) = some keyId) = true ↔
      HasKid keyId jwk := fun jwk => by
    rw [decide_eq_true_eq, get_bind_asStr_eq_some_iff, HasKid]
  simp only [verifyingKeyFromJwks, bind_eq_ok_iff, orInvalidConfig_eq_ok_iff,
    get_bind_asArray_eq_some_iff, jwkVerifyingKey_eq_ok_iff, firstWith_iff_find? hkid]

/-! ### What was meant to be found -/

/-- The key has the id and is an Ed25519 key with this point. -/
def Suitable (keyId : String) (jwk : Json) (k : VerifyingKey) : Prop :=
  HasKid keyId jwk ∧ IsEd25519 jwk ∧ HasPoint jwk k

/-- The first suitable key has this point. -/
def FirstSuitable (keyId : String) (keys : List Json) (k : VerifyingKey) : Prop :=
  FirstWith (fun jwk => ∃ k, Suitable keyId jwk k) (Suitable keyId) keys k

/-- If any key is suitable, one is the first. -/
theorem exists_firstSuitable {keyId : String} {keys : List Json} {jwk : Json} {k : VerifyingKey}
    (hjwk : jwk ∈ keys) (h : Suitable keyId jwk k) : ∃ k', FirstSuitable keyId keys k' := by
  obtain hnone | ⟨before, first, after, rfl, hbefore, k', hfirst⟩ :=
    exists_first (fun jwk => ∃ k, Suitable keyId jwk k) keys
  · exact absurd ⟨k, h⟩ (hnone jwk hjwk)
  · exact ⟨k', before, first, after, rfl, hbefore, ⟨k', hfirst⟩, hfirst⟩

/-- A key with another id is not suitable. -/
theorem not_suitable_of_not_hasKid {keyId : String} {jwk : Json} (h : ¬HasKid keyId jwk) :
    ¬∃ k, Suitable keyId jwk k := by
  rintro ⟨k, hkid, -⟩
  exact h hkid

/-- The keys do not mislead the search for this id: no key has the id, or the first key that has
it is an Ed25519 key with a valid point, or its `x` is no valid point and no later key is
suitable, or its `x` happens to be the point of the first suitable key after it. -/
inductive Unconfused (keyId : String) (keys : List Json) : Prop where
  | absent (h : ∀ jwk ∈ keys, ¬HasKid keyId jwk)
  | suitable {before after : List Json} {jwk : Json} {k : VerifyingKey}
      (hkeys : keys = before ++ jwk :: after) (hbefore : ∀ other ∈ before, ¬HasKid keyId other)
      (hkid : HasKid keyId jwk) (htype : IsEd25519 jwk) (hpoint : HasPoint jwk k)
  | unreadable {before after : List Json} {jwk : Json}
      (hkeys : keys = before ++ jwk :: after) (hbefore : ∀ other ∈ before, ¬HasKid keyId other)
      (hkid : HasKid keyId jwk) (hpoint : ∀ k, ¬HasPoint jwk k)
      (hafter : ∀ other ∈ after, ∀ k, ¬Suitable keyId other k)
  | coinciding {before after : List Json} {jwk : Json} {k : VerifyingKey}
      (hkeys : keys = before ++ jwk :: after) (hbefore : ∀ other ∈ before, ¬HasKid keyId other)
      (hkid : HasKid keyId jwk) (hpoint : HasPoint jwk k) (hafter : FirstSuitable keyId after k)

section FirstKey

variable {keyId : String} {before after : List Json} {jwk : Json} {k : VerifyingKey}

/-- Up to the first key with the id, both searches skip the same keys. -/
theorem firstWith_hasKid_append (hbefore : ∀ other ∈ before, ¬HasKid keyId other)
    (hkid : HasKid keyId jwk) :
    FirstWith (HasKid keyId) HasPoint (before ++ jwk :: after) k ↔ HasPoint jwk k := by
  rw [firstWith_append_of_forall_not hbefore, firstWith_cons]
  simp only [hkid, true_and, not_true, false_and, or_false]

/-- Keys with other ids do not take part in the search. -/
theorem firstSuitable_append (hbefore : ∀ other ∈ before, ¬HasKid keyId other) :
    FirstSuitable keyId (before ++ jwk :: after) k ↔
      Suitable keyId jwk k ∨ (¬∃ k, Suitable keyId jwk k) ∧ FirstSuitable keyId after k := by
  rw [FirstSuitable, firstWith_append_of_forall_not fun other hother =>
    not_suitable_of_not_hasKid (hbefore other hother), firstWith_cons]
  constructor
  · exact Or.imp_left And.right
  · exact Or.imp_left fun h => ⟨⟨k, h⟩, h⟩

end FirstKey

/-- The first key with the id is the first suitable one, for every point, exactly if the document is
not confused. -/
theorem unconfused_iff {keyId : String} {keys : List Json} :
    (∀ k, FirstWith (HasKid keyId) HasPoint keys k ↔ FirstSuitable keyId keys k) ↔
      Unconfused keyId keys := by
  constructor
  · intro h
    obtain hnone | ⟨before, jwk, after, rfl, hbefore, hkid⟩ := exists_first (HasKid keyId) keys
    · exact .absent hnone
    simp only [firstWith_hasKid_append hbefore hkid, firstSuitable_append hbefore] at h
    by_cases hsuitable : ∃ k, Suitable keyId jwk k
    · obtain ⟨k, -, htype, hpoint⟩ := hsuitable
      exact .suitable rfl hbefore hkid htype hpoint
    have hlater : ∀ k, HasPoint jwk k ↔ FirstSuitable keyId after k := by
      intro k
      rw [h k]
      have hnot : ¬Suitable keyId jwk k := fun hk => hsuitable ⟨k, hk⟩
      simp only [hnot, hsuitable, not_false_eq_true, true_and, false_or]
    by_cases hpoint : ∃ k, HasPoint jwk k
    · obtain ⟨k, hk⟩ := hpoint
      exact .coinciding rfl hbefore hkid hk ((hlater k).mp hk)
    · refine .unreadable rfl hbefore hkid (not_exists.mp hpoint) fun other hother k hk => ?_
      obtain ⟨k', hk'⟩ := exists_firstSuitable hother hk
      exact hpoint ⟨k', (hlater k').mpr hk'⟩
  · intro h k
    cases h with
    | absent hnone =>
      have hneither : ∀ other ∈ keys, ¬∃ k, Suitable keyId other k := fun other hother =>
        not_suitable_of_not_hasKid (hnone other hother)
      have hcode := firstWith_append_of_forall_not (p := HasPoint) (l := []) (b := k) hnone
      have hclaim := firstWith_append_of_forall_not (p := Suitable keyId) (l := []) (b := k)
        hneither
      rw [List.append_nil] at hcode hclaim
      rw [hcode, FirstSuitable, hclaim]
      simp only [firstWith_nil]
    | suitable hkeys hbefore hkid htype hpoint =>
      rw [hkeys, firstWith_hasKid_append hbefore hkid, firstSuitable_append hbefore]
      constructor
      · exact fun hk => .inl ⟨hkid, htype, hk⟩
      · rintro (⟨-, -, hk⟩ | ⟨hnone, -⟩)
        · exact hk
        · exact absurd ⟨_, hkid, htype, hpoint⟩ hnone
    | unreadable hkeys hbefore hkid hpoint hafter =>
      rw [hkeys, firstWith_hasKid_append hbefore hkid, firstSuitable_append hbefore]
      constructor
      · exact fun hk => absurd hk (hpoint k)
      · rintro (⟨-, -, hk⟩ | ⟨-, later, other, rest, rfl, -, -, hother⟩)
        · exact hk
        · exact absurd hother (hafter other (by simp) k)
    | @coinciding before after jwk k' hkeys hbefore hkid hpoint hafter =>
      rw [hkeys, firstWith_hasKid_append hbefore hkid, firstSuitable_append hbefore]
      constructor
      · intro hk
        rw [hk.unique hpoint]
        by_cases hsuitable : ∃ k, Suitable keyId jwk k
        · obtain ⟨k'', hk''⟩ := hsuitable
          rw [hpoint.unique hk''.2.2]
          exact .inl hk''
        · exact .inr ⟨hsuitable, hafter⟩
      · rintro (⟨-, -, hk⟩ | ⟨-, hk⟩)
        · exact hk
        · have huniq := hk.unique (fun _ _ _ h h' => h.2.2.unique h'.2.2) hafter
          rwa [huniq]

/-! ### Inserting a key -/

/-- An inserted key is looked at when it has the id and no key before it does. -/
theorem firstWith_insert_iff {keyId : String} {before after : List Json} {foreign : Json} :
    (∀ k, FirstWith (HasKid keyId) HasPoint (before ++ foreign :: after) k ↔
      FirstWith (HasKid keyId) HasPoint (before ++ after) k) ↔
    ¬HasKid keyId foreign ∨ (∃ other ∈ before, HasKid keyId other) ∨
      ∀ k, HasPoint foreign k ↔ FirstWith (HasKid keyId) HasPoint after k := by
  by_cases hbefore : ∃ other ∈ before, HasKid keyId other
  · simp only [firstWith_append_of_exists hbefore, hbefore, implies_true, true_or, or_true]
  · have hskip : ∀ other ∈ before, ¬HasKid keyId other := fun other hother hkid =>
      hbefore ⟨other, hother, hkid⟩
    simp only [firstWith_append_of_forall_not hskip, firstWith_cons, hbefore, false_or]
    by_cases hkid : HasKid keyId foreign
    · simp only [hkid, true_and, not_true, false_and, or_false, false_or]
    · simp only [hkid, false_and, not_false_eq_true, true_and, false_or, implies_true, true_or]

/-- Key resolution yields the first Ed25519 key with the id exactly when the other keys do not
mislead it. It checks neither type nor curve, so a key of another type that is inserted leaves
the result alone only if the search does not stop there or its `x` gives what comes after it. -/
theorem verifyingKeyFromJwks_suitable_iff_unconfused (keyId : String) :
    (∀ jwks : Value,
      (∀ k, verifyingKeyFromJwks jwks keyId = .ok k ↔
        ∃ keys, jwks.json.get "keys" = some (.array keys) ∧ FirstSuitable keyId keys k) ↔
      ∀ keys, jwks.json.get "keys" = some (.array keys) → Unconfused keyId keys) ∧
    ∀ (jwks jwks' : Value) (before after : List Json) (foreign : Json),
      jwks.json.get "keys" = some (.array (before ++ after)) →
      jwks'.json.get "keys" = some (.array (before ++ foreign :: after)) → ¬IsEd25519 foreign →
        ((∀ k, verifyingKeyFromJwks jwks' keyId = .ok k ↔ verifyingKeyFromJwks jwks keyId = .ok k) ↔
          ¬HasKid keyId foreign ∨ (∃ other ∈ before, HasKid keyId other) ∨
            ∀ k, HasPoint foreign k ↔ FirstWith (HasKid keyId) HasPoint after k) := by
  constructor
  · intro jwks
    simp only [verifyingKeyFromJwks_eq_ok_iff]
    cases hget : jwks.json.get "keys" >>= Json.asArray with
    | none =>
      have hnone : ∀ keys, jwks.json.get "keys" ≠ some (.array keys) := by
        intro keys hkeys
        rw [get_bind_asArray_eq_some_iff.mpr hkeys] at hget
        exact absurd hget nofun
      simp only [hnone, false_and, exists_false, IsEmpty.forall_iff, implies_true]
    | some keys =>
      rw [get_bind_asArray_eq_some_iff] at hget
      simp only [hget, Option.some.injEq, Json.array.injEq, exists_eq_left', forall_eq']
      exact unconfused_iff
  · intro jwks jwks' before after foreign hjwks hjwks' _
    simp only [verifyingKeyFromJwks_eq_ok_iff, hjwks, hjwks', Option.some.injEq,
      Json.array.injEq, exists_eq_left']
    exact firstWith_insert_iff

end

namespace Fixture

/-- The encoding of the Ed25519 base point. -/
def basePoint : List UInt8 := 0x58 :: List.replicate 31 0x66

/-- The crates on the encoding of the base point. -/
@[reducible] def keyCrates : KeyCrates where
  VerifyingKey := List UInt8
  keyFromBytes bytes :=
    if bytes.1 = basePoint then .ok bytes.1 else .error "signature error"
  decodeBase64Url x :=
    if x = base64UrlNoPad basePoint then .ok basePoint else .error "Invalid input length: 0"

attribute [local instance] keyCrates

/-- A P-256 key whose coordinate is the encoding of an Ed25519 point. -/
def ecKey : Json := .object [("crv", .string "P-256"), ("kid", .string "k1"),
  ("kty", .string "EC"), ("x", .string (base64UrlNoPad basePoint))]

/-- An Ed25519 key under the same id. -/
def okpKey : Json := .object [("crv", .string "Ed25519"), ("kid", .string "k1"),
  ("kty", .string "OKP"), ("x", .string (base64UrlNoPad basePoint))]

/-- The document with these keys. -/
def jwksOf (keys : List Json) : Value := .ofJson (.object [("keys", .array keys)])

/-- The P-256 key is resolved as if it were an Ed25519 key. -/
theorem ecKey_resolved :
    ¬∀ k, verifyingKeyFromJwks (jwksOf [ecKey]) "k1" = .ok k ↔
      ∃ keys, (jwksOf [ecKey]).json.get "keys" = some (.array keys) ∧
        FirstSuitable "k1" keys k := by
  intro hclaim
  have hget : (jwksOf [ecKey]).json.get "keys" = some (.array [ecKey]) := by decide +kernel
  have hpoint : HasPoint ecKey basePoint :=
    ⟨base64UrlNoPad basePoint, ⟨basePoint, by decide⟩, by decide +kernel, if_pos rfl, if_pos rfl⟩
  have hresolved : verifyingKeyFromJwks (jwksOf [ecKey]) "k1" = .ok basePoint := by
    rw [verifyingKeyFromJwks_eq_ok_iff]
    exact ⟨[ecKey], hget, [], ecKey, [], rfl, by simp, by decide +kernel, hpoint⟩
  obtain ⟨keys, hkeys, before, jwk, after, rfl, -, -, -, ⟨htype, -⟩, -⟩ :=
    (hclaim basePoint).mp hresolved
  rw [hget] at hkeys
  have hjwk : jwk ∈ [ecKey] := by
    rw [Json.array.inj (Option.some.inj hkeys)]
    simp
  rw [List.mem_singleton.mp hjwk] at htype
  exact absurd htype (by decide +kernel)

/-- The Ed25519 key is found alone, and behind an elliptic curve key with its id exactly if that has
the same point. -/
theorem verifyingKeyFromJwks_suitable_iff_unconfused_k1 :
    (∀ k, verifyingKeyFromJwks (jwksOf [okpKey]) "k1" = .ok k ↔
      ∃ keys, (jwksOf [okpKey]).json.get "keys" = some (.array keys) ∧
        FirstSuitable "k1" keys k) ∧
    ((∀ k, verifyingKeyFromJwks (jwksOf [ecKey, okpKey]) "k1" = .ok k ↔
      verifyingKeyFromJwks (jwksOf [okpKey]) "k1" = .ok k) ↔
      ¬HasKid "k1" ecKey ∨ (∃ other ∈ [], HasKid "k1" other) ∨
        ∀ k, HasPoint ecKey k ↔ FirstWith (HasKid "k1") HasPoint [okpKey] k) := by
  obtain ⟨hclaim, hinsert⟩ := verifyingKeyFromJwks_suitable_iff_unconfused "k1"
  have hget : (jwksOf [okpKey]).json.get "keys" = some (.array [okpKey]) := by decide +kernel
  have hget' : (jwksOf [ecKey, okpKey]).json.get "keys" = some (.array [ecKey, okpKey]) := by
    decide +kernel
  have hpoint : HasPoint okpKey basePoint :=
    ⟨base64UrlNoPad basePoint, ⟨basePoint, by decide⟩, by decide +kernel, if_pos rfl, if_pos rfl⟩
  constructor
  · rw [hclaim]
    intro keys hkeys
    rw [hget] at hkeys
    rw [← Json.array.inj (Option.some.inj hkeys)]
    have hsplit : [okpKey] = [] ++ okpKey :: [] := rfl
    exact .suitable hsplit (by simp) (by decide +kernel) (by decide +kernel) hpoint
  · exact hinsert _ _ [] [okpKey] ecKey hget hget' (by decide +kernel)

end Fixture

end ClavenarSdk
