import ClavenarSdk.Http
import ClavenarSdk.Serde.Known

/-!
# Denials

`client.rs`. The body of a 403 is read by a derived struct that ignores unknown fields and has a
default for every field of its own. What is not such a denial leaves only the raw body.
-/

namespace ClavenarSdk

/-! ### The envelope of a 403 -/

/-- `DenyResponse`. -/
structure DenyResponse where
  reasons : List String
  reviewReasons : List String
  intentCategory : String
  correlationId : Option String

namespace DenyResponse

/-- The fields of a denial, in declaration order. -/
def names : List String := ["reasons", "review_reasons", "intent_category", "correlation_id"]

/-- Read the fields of a denial. -/
def ofMembers (members : List (String × Json)) : Except DecodeError DenyResponse := do
  return {
    reasons := ← defaultField members "reasons" []
    reviewReasons := ← defaultField members "review_reasons" []
    intentCategory := ← defaultField members "intent_category" ""
    correlationId := ← optionalField members "correlation_id" }

instance : Deserialize DenyResponse where
  fromJson j := knownMembers names j >>= ofMembers

/-- The members give this denial: each of its fields is one of them, or it is missing and has its
default. -/
structure GivenBy (denial : DenyResponse) (known : List (String × Json)) : Prop where
  reasons : Gives known "reasons" [] denial.reasons
  reviewReasons : Gives known "review_reasons" [] denial.reviewReasons
  intentCategory : Gives known "intent_category" "" denial.intentCategory
  correlationId : Gives known "correlation_id" none denial.correlationId

/-- A denial is read from exactly the members that give it. -/
theorem ofMembers_eq_ok_iff {known : List (String × Json)}
    (hnodup : (known.map Prod.fst).Nodup) {denial : DenyResponse} :
    ofMembers known = .ok denial ↔ denial.GivenBy known := by
  have hstring : ∀ s : String, toJson s ≠ .null := fun s h => by cases h
  simp only [ofMembers, bind_eq_ok_iff, pure_eq_ok, Except.ok.injEq,
    defaultField_eq_ok_iff strings_fromJson_iff hnodup,
    defaultField_eq_ok_iff string_fromJson_iff hnodup,
    optionalField_eq_ok_iff string_fromJson_iff hstring hnodup]
  constructor
  · rintro ⟨_, hreasons, _, hreview, _, hintent, _, hcorrelation, rfl⟩
    exact ⟨hreasons, hreview, hintent, hcorrelation⟩
  · rintro ⟨hreasons, hreview, hintent, hcorrelation⟩
    exact ⟨_, hreasons, _, hreview, _, hintent, _, hcorrelation, rfl⟩

/-- A denial is read from exactly the documents whose known members give it. -/
theorem fromJson_eq_ok_iff {j : Json} {denial : DenyResponse} :
    fromJson j = .ok denial ↔ ∃ known, Knows names j known ∧ denial.GivenBy known := by
  have hnames : names.Nodup := by decide
  simp only [fromJson, bind_eq_ok_iff, knownMembers_eq_ok_iff]
  constructor
  · rintro ⟨known, hknown, h⟩
    exact ⟨known, hknown, (ofMembers_eq_ok_iff (hknown.nodup hnames)).mp h⟩
  · rintro ⟨known, hknown, h⟩
    exact ⟨known, hknown, (ofMembers_eq_ok_iff (hknown.nodup hnames)).mpr h⟩

end DenyResponse

/-- Reading a body fails only because of the connection or the size. -/
theorem readChunks_eq_error {limit : ℕ} {body : List UInt8}
    {received : List (Except String (List UInt8))} {error : ClavenarError}
    (h : readChunks limit body received = .error error) :
    (∃ message, error = .transport message) ∨ error = .responseTooLarge limit := by
  induction received generalizing body with
  | nil => cases h
  | cons chunk rest ih =>
    cases chunk with
    | error message =>
      obtain rfl := Except.error.inj h
      exact .inl ⟨message, rfl⟩
    | ok chunk =>
      rw [readChunks] at h
      split_ifs at h
      · exact .inr (Except.error.inj h).symm
      · exact .inr (Except.error.inj h).symm
      · exact ih h

variable [Crates]

/-- A body that cannot be read is no veto. -/
theorem readTextLimited_ne_veto {response : Response} {intentCategory raw : String}
    {reasons reviewReasons : List String} {correlationId : Option String} :
    readTextLimited response ≠
      .error (.veto intentCategory reasons reviewReasons correlationId raw) := by
  intro h
  unfold readTextLimited readBodyLimited at h
  split_ifs at h
  · cases h
  · cases hbody : readChunks defaultResponseBodyLimit [] response.chunks with
    | ok body =>
      simp only [hbody, ok_bind] at h
      cases htext : textOfUtf8 body <;> simp [htext] at h
    | error error =>
      simp only [hbody, error_bind, Except.error.injEq] at h
      obtain ⟨message, rfl⟩ | rfl := readChunks_eq_error hbody <;> cases h

/-- `parse_veto`. -/
def parseVeto (raw : String) : ClavenarError :=
  match (fromStr raw : Except ClavenarError DenyResponse) with
  | .ok d => .veto d.intentCategory d.reasons d.reviewReasons d.correlationId raw
  | .error _ => .veto "" [] [] none raw

/-- `decode_json_body`. -/
def decodeJsonBody (raw : String) : Except ClavenarError Value := fromStr raw

/-- A value is read from a text exactly if it is read from the document that the text is parsed to.
-/
theorem fromStr_eq_ok_iff {α : Type} [Deserialize α] {raw : String} {a : α} :
    (fromStr raw : Except ClavenarError α) = .ok a ↔
      ∃ j, parseJson raw = .ok j ∧ fromJson j = .ok a := by
  rw [← bind_eq_ok_iff, fromStr]
  cases (parseJson raw >>= fromJson : Except DecodeError α) <;> simp [Except.mapError]

/-- The body carries this denial. -/
def DenyResponse.CarriedBy (denial : DenyResponse) (raw : String) : Prop :=
  ∃ j known, parseJson raw = .ok j ∧ Knows names j known ∧ denial.GivenBy known

/-- The denial is the one that the body carries, or an empty one if it carries none. -/
def DenyResponse.ReadFrom (denial : DenyResponse) (raw : String) : Prop :=
  denial.CarriedBy raw ∨
    denial = ⟨[], [], "", none⟩ ∧ ∀ other : DenyResponse, ¬other.CarriedBy raw

/-- The veto of a denial. -/
def DenyResponse.veto (denial : DenyResponse) (raw : String) : ClavenarError :=
  .veto denial.intentCategory denial.reasons denial.reviewReasons denial.correlationId raw

/-- A text carries a denial exactly if it is read from it. -/
theorem DenyResponse.carriedBy_iff {denial : DenyResponse} {raw : String} :
    denial.CarriedBy raw ↔
      (fromStr raw : Except ClavenarError DenyResponse) = .ok denial := by
  simp only [fromStr_eq_ok_iff, fromJson_eq_ok_iff, CarriedBy, exists_and_left]

/-- A veto has the fields of the denial in its body, and the body itself. -/
theorem parseVeto_eq_iff {raw : String} {denial : DenyResponse} :
    parseVeto raw = denial.veto raw ↔ denial.ReadFrom raw := by
  have hfields : ∀ other : DenyResponse, other.veto raw = denial.veto raw ↔ denial = other := by
    rintro ⟨reasons, reviewReasons, intentCategory, correlationId⟩
    obtain ⟨reasons', reviewReasons', intentCategory', correlationId'⟩ := denial
    simp only [DenyResponse.veto, ClavenarError.veto.injEq, DenyResponse.mk.injEq]
    grind
  unfold DenyResponse.ReadFrom
  simp only [DenyResponse.carriedBy_iff]
  cases hread : (fromStr raw : Except ClavenarError DenyResponse) with
  | ok other =>
    have hveto : parseVeto raw = other.veto raw := by
      simp only [parseVeto, hread]
      rfl
    have hcarried : ¬∀ other' : DenyResponse,
        ¬(Except.ok other : Except ClavenarError DenyResponse) = .ok other' :=
      fun h => h other rfl
    rw [hveto, hfields, Except.ok.injEq]
    simp only [hcarried, and_false, or_false]
    exact eq_comm
  | error error =>
    have hveto : parseVeto raw = DenyResponse.veto ⟨[], [], "", none⟩ raw := by
      simp only [parseVeto, hread]
      rfl
    rw [hveto, hfields]
    simp

/-- A body makes this veto exactly if it is its body and the denial is read from it. -/
theorem parseVeto_eq_veto_iff {text raw : String} {denial : DenyResponse} :
    parseVeto text = denial.veto raw ↔ text = raw ∧ denial.ReadFrom raw := by
  obtain ⟨other, hother⟩ : ∃ other : DenyResponse, parseVeto text = other.veto text := by
    unfold parseVeto
    cases (fromStr text : Except ClavenarError DenyResponse) with
    | ok other => exact ⟨other, rfl⟩
    | error error => exact ⟨⟨[], [], "", none⟩, rfl⟩
  constructor
  · intro h
    obtain rfl : text = raw := by
      rw [hother, DenyResponse.veto, DenyResponse.veto, ClavenarError.veto.injEq] at h
      exact h.2.2.2.2
    exact ⟨rfl, parseVeto_eq_iff.mp h⟩
  · rintro ⟨rfl, h⟩
    exact parseVeto_eq_iff.mpr h

/-- Members that a denial does not know, and the order of members, make no difference. -/
theorem DenyResponse.carriedBy_congr {raw raw' : String} {members members' : List (String × Json)}
    (h : parseJson raw = .ok (.object members)) (h' : parseJson raw' = .ok (.object members'))
    (hknown : (members.filter fun m => m.1 ∈ names).Perm (members'.filter fun m => m.1 ∈ names))
    {denial : DenyResponse} (hcarried : denial.CarriedBy raw) : denial.CarriedBy raw' := by
  obtain ⟨j, known, hparse, hknows, hgiven⟩ := hcarried
  obtain rfl := Except.ok.inj (hparse.symm.trans h)
  obtain ⟨_, ⟨⟩, rfl, hnodup⟩ | ⟨_, ⟨⟩, _⟩ := hknows
  refine ⟨_, _, h', .inl ⟨members', rfl, rfl, ?_⟩, ?_⟩
  · exact (hknown.map Prod.fst).nodup_iff.mp hnodup
  · exact ⟨(Gives.perm hknown).mp hgiven.reasons, (Gives.perm hknown).mp hgiven.reviewReasons,
      (Gives.perm hknown).mp hgiven.intentCategory, (Gives.perm hknown).mp hgiven.correlationId⟩

/-- Members that a denial does not know, and the order of members, make no difference. -/
theorem DenyResponse.readFrom_congr {raw raw' : String} {members members' : List (String × Json)}
    (h : parseJson raw = .ok (.object members)) (h' : parseJson raw' = .ok (.object members'))
    (hknown : (members.filter fun m => m.1 ∈ names).Perm (members'.filter fun m => m.1 ∈ names))
    (denial : DenyResponse) : denial.ReadFrom raw ↔ denial.ReadFrom raw' := by
  have hcarried : ∀ other : DenyResponse, other.CarriedBy raw ↔ other.CarriedBy raw' :=
    fun _ => ⟨carriedBy_congr h h' hknown, carriedBy_congr h' h hknown.symm⟩
  simp only [ReadFrom, hcarried]

end ClavenarSdk
