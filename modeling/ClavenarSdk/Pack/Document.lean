import ClavenarSdk.Pack.Manifest
import ClavenarSdk.Serde.Instant
import ClavenarSdk.Serde.Known

/-!
# Pack documents

`pack.rs`. A verifier reads the manifest from `pack.json` and writes it again, so that its signature
is over what was read. Members that a manifest does not know, the order of members and the spelling
of an instant are not part of that, and everything else is.
-/

namespace ClavenarSdk

/-! ### Fields of known members -/

section

variable {α : Type} [Deserialize α] {known : List (String × Json)} {name : String}

/-- A field that must be present is read from the member of its name. -/
theorem requiredField_eq_ok_iff_mem (hnodup : (known.map Prod.fst).Nodup) {a : α} :
    requiredField known name = .ok a ↔ ∃ v, (name, v) ∈ known ∧ fromJson v = .ok a := by
  rw [requiredField_eq_ok_iff]
  refine exists_congr fun v => and_congr_left fun _ => ?_
  exact ⟨mem_of_lookup_eq_some, lookup_eq_some_of_mem hnodup⟩

/-- A text that must be present is the member of its name. -/
theorem requiredField_eq_ok_iff_string (hnodup : (known.map Prod.fst).Nodup) {s : String} :
    requiredField known name = .ok s ↔ (name, .string s) ∈ known := by
  simp only [requiredField_eq_ok_iff_mem hnodup, string_fromJson_eq_ok_iff, exists_eq_right]

/-- The members leave out an optional field. -/
def LeavesOut (known : List (String × Json)) (name : String) : Prop :=
  name ∉ known.map Prod.fst ∨ (name, .null) ∈ known

/-- An optional field is read from the member of its name, unless it is left out. -/
theorem optionalField_eq_ok_iff_mem (hnodup : (known.map Prod.fst).Nodup) {a : Option α} :
    optionalField known name = .ok a ↔
      LeavesOut known name ∧ a = none ∨
        ∃ v b, (name, v) ∈ known ∧ v ≠ .null ∧ fromJson v = .ok b ∧ a = some b := by
  unfold optionalField LeavesOut
  cases hlookup : known.lookup name with
  | none =>
    have habsent := lookup_eq_none_iff_not_mem.mp hlookup
    have hmem : ∀ v, (name, v) ∉ known := fun v h => habsent (List.mem_map_of_mem h)
    simp [hmem, habsent, eq_comm]
  | some v =>
    have hmem := mem_of_lookup_eq_some hlookup
    have hpresent : name ∈ known.map Prod.fst := List.mem_map_of_mem hmem
    have hvalue : ∀ w, (name, w) ∈ known ↔ w = v := by
      intro w
      constructor
      · intro h
        rw [lookup_eq_some_of_mem hnodup h, Option.some.injEq] at hlookup
        exact hlookup
      · rintro rfl
        exact hmem
    simp only [hpresent, not_true, false_or, hvalue]
    by_cases hnull : v = .null
    · simp [hnull, eq_comm]
    · have hread : some <$> (fromJson v : Except DecodeError α) = .ok a ↔
          ∃ b, (fromJson v : Except DecodeError α) = .ok b ∧ a = some b := by
        cases (fromJson v : Except DecodeError α) <;> simp [eq_comm]
      simp [hnull, Ne.symm hnull, hread]

end

/-! ### Reading a manifest -/

/-- The fields of an entry, in declaration order. -/
def PackEntry.names : List String := ["path", "content_type", "body_sha256"]

instance : Deserialize PackEntry where
  fromJson j := do
    let known ← knownMembers PackEntry.names j
    return {
      path := ← requiredField known "path"
      contentType := ← requiredField known "content_type"
      bodySha256 := ← requiredField known "body_sha256" }

/-- The fields of a signature block, in declaration order. -/
def PackSignatureRef.names : List String :=
  ["sidecar", "algorithm", "digest_alg", "key_id", "signed_at"]

/-- The fields of a manifest, in declaration order. -/
def PackManifest.names : List String :=
  ["schema_version", "name", "version", "entries", "generated_at", "signature"]

section

variable [ChronoReader]

instance : Deserialize PackSignatureRef where
  fromJson j := do
    let known ← knownMembers PackSignatureRef.names j
    return {
      sidecar := ← requiredField known "sidecar"
      algorithm := ← requiredField known "algorithm"
      digestAlg := ← requiredField known "digest_alg"
      keyId := ← requiredField known "key_id"
      signedAt := ← requiredField known "signed_at" }

instance : Deserialize PackManifest where
  fromJson j := do
    let known ← knownMembers PackManifest.names j
    return {
      schemaVersion := ← requiredField known "schema_version"
      name := ← requiredField known "name"
      version := ← requiredField known "version"
      entries := ← requiredField known "entries"
      generatedAt := ← requiredField known "generated_at"
      signature := ← optionalField known "signature" }

/-! ### The documents of a manifest -/

omit [ChronoReader] in
/-- The document has the fields of the entry. -/
def PackEntry.DescribedBy (entry : PackEntry) (j : Json) : Prop :=
  ∃ known, Knows names j known ∧ ("path", .string entry.path) ∈ known ∧
    ("content_type", .string entry.contentType) ∈ known ∧
    ("body_sha256", .string entry.bodySha256) ∈ known

/-- The member of this name is a text that denotes the instant. -/
def DatedBy (known : List (String × Json)) (name : String) (t : DateTime) : Prop :=
  ∃ text, (name, .string text) ∈ known ∧ timestampOf text = some t

/-- The document has the fields of the signature block. -/
def PackSignatureRef.DescribedBy (block : PackSignatureRef) (j : Json) : Prop :=
  ∃ known, Knows names j known ∧ ("sidecar", .string block.sidecar) ∈ known ∧
    ("algorithm", .string block.algorithm) ∈ known ∧
    ("digest_alg", .string block.digestAlg) ∈ known ∧ ("key_id", .string block.keyId) ∈ known ∧
    DatedBy known "signed_at" block.signedAt

/-- The members have the signature block, or leave it out where there is none. -/
def BlockIn (known : List (String × Json)) : Option PackSignatureRef → Prop
  | none => LeavesOut known "signature"
  | some block => ∃ v, ("signature", v) ∈ known ∧ block.DescribedBy v

/-- The members have the fields of the manifest. -/
structure PackManifest.GivenBy (m : PackManifest) (known : List (String × Json)) : Prop where
  schemaVersion : ("schema_version", .string m.schemaVersion) ∈ known
  name : ("name", .string m.name) ∈ known
  version : ("version", .string m.version) ∈ known
  entries : ∃ items, ("entries", .array items) ∈ known ∧
    List.Forall₂ (fun item entry => entry.DescribedBy item) items m.entries
  generatedAt : DatedBy known "generated_at" m.generatedAt
  signature : BlockIn known m.signature

/-- The document has the fields of the manifest. -/
def PackManifest.DescribedBy (m : PackManifest) (j : Json) : Prop :=
  ∃ known, Knows names j known ∧ m.GivenBy known

omit [ChronoReader] in
/-- An entry is read from exactly the documents with its fields. -/
theorem packEntry_fromJson_iff {j : Json} {entry : PackEntry} :
    fromJson j = .ok entry ↔ entry.DescribedBy j := by
  have hnames : PackEntry.names.Nodup := by decide
  simp only [fromJson, bind_eq_ok_iff, knownMembers_eq_ok_iff, pure_eq_ok, Except.ok.injEq,
    PackEntry.DescribedBy]
  refine exists_congr fun known => and_congr_right fun hknown => ?_
  simp only [requiredField_eq_ok_iff_string (hknown.nodup hnames)]
  constructor
  · rintro ⟨_, hpath, _, htype, _, hbody, rfl⟩
    exact ⟨hpath, htype, hbody⟩
  · rintro ⟨hpath, htype, hbody⟩
    exact ⟨_, hpath, _, htype, _, hbody, rfl⟩

/-- An instant that must be present is the one that its member denotes. -/
theorem requiredField_eq_ok_iff_dated {known : List (String × Json)} {name : String}
    (hnodup : (known.map Prod.fst).Nodup) {t : DateTime} :
    requiredField known name = .ok t ↔ DatedBy known name t := by
  simp only [requiredField_eq_ok_iff_mem hnodup, dateTime_fromJson_iff, DatedBy]
  constructor
  · rintro ⟨_, hmem, text, rfl, htext⟩
    exact ⟨text, hmem, htext⟩
  · rintro ⟨text, hmem, htext⟩
    exact ⟨_, hmem, text, rfl, htext⟩

/-- A signature block is read from exactly the documents with its fields. -/
theorem packSignatureRef_fromJson_iff {j : Json} {block : PackSignatureRef} :
    fromJson j = .ok block ↔ block.DescribedBy j := by
  have hnames : PackSignatureRef.names.Nodup := by decide
  simp only [fromJson, bind_eq_ok_iff, knownMembers_eq_ok_iff, pure_eq_ok, Except.ok.injEq,
    PackSignatureRef.DescribedBy]
  refine exists_congr fun known => and_congr_right fun hknown => ?_
  have hnodup := hknown.nodup hnames
  simp only [requiredField_eq_ok_iff_string hnodup, requiredField_eq_ok_iff_dated hnodup]
  constructor
  · rintro ⟨_, hsidecar, _, halgorithm, _, hdigest, _, hkey, _, hsigned, rfl⟩
    exact ⟨hsidecar, halgorithm, hdigest, hkey, hsigned⟩
  · rintro ⟨hsidecar, halgorithm, hdigest, hkey, hsigned⟩
    exact ⟨_, hsidecar, _, halgorithm, _, hdigest, _, hkey, _, hsigned, rfl⟩

/-- No document of a signature block is `null`. -/
theorem PackSignatureRef.DescribedBy.ne_null {block : PackSignatureRef} {j : Json}
    (h : block.DescribedBy j) : j ≠ .null := by
  rintro rfl
  obtain ⟨known, ⟨_, h, _⟩ | ⟨_, h, _⟩, -⟩ := h <;> cases h

/-- The signature block is the one that the members have. -/
theorem optionalField_eq_ok_iff_block {known : List (String × Json)}
    (hnodup : (known.map Prod.fst).Nodup) {block : Option PackSignatureRef} :
    optionalField known "signature" = .ok block ↔ BlockIn known block := by
  rw [optionalField_eq_ok_iff_mem hnodup]
  simp only [packSignatureRef_fromJson_iff]
  cases block with
  | none => simp [BlockIn]
  | some block =>
    simp only [reduceCtorEq, and_false, false_or, Option.some.injEq, BlockIn]
    constructor
    · rintro ⟨v, _, hmem, -, hdescribed, rfl⟩
      exact ⟨v, hmem, hdescribed⟩
    · rintro ⟨v, hmem, hdescribed⟩
      exact ⟨v, block, hmem, hdescribed.ne_null, hdescribed, rfl⟩

omit [ChronoReader] in
/-- Entries are read item by item. -/
theorem requiredField_eq_ok_iff_entries {known : List (String × Json)}
    (hnodup : (known.map Prod.fst).Nodup) {entries : List PackEntry} :
    requiredField known "entries" = .ok entries ↔ ∃ items, ("entries", .array items) ∈ known ∧
      List.Forall₂ (fun item entry => entry.DescribedBy item) items entries := by
  simp only [requiredField_eq_ok_iff_mem hnodup, list_fromJson_eq_ok_iff, packEntry_fromJson_iff]
  constructor
  · rintro ⟨_, hmem, items, rfl, hentries⟩
    exact ⟨items, hmem, hentries⟩
  · rintro ⟨items, hmem, hentries⟩
    exact ⟨_, hmem, items, rfl, hentries⟩

namespace PackManifest

/-- A manifest is read from exactly the documents with its fields. -/
theorem fromJson_iff {j : Json} {m : PackManifest} : fromJson j = .ok m ↔ m.DescribedBy j := by
  have hnames : names.Nodup := by decide
  simp only [fromJson, bind_eq_ok_iff, knownMembers_eq_ok_iff, pure_eq_ok, Except.ok.injEq,
    DescribedBy]
  refine exists_congr fun known => and_congr_right fun hknown => ?_
  have hnodup := hknown.nodup hnames
  simp only [requiredField_eq_ok_iff_string hnodup, requiredField_eq_ok_iff_dated hnodup,
    requiredField_eq_ok_iff_entries hnodup, optionalField_eq_ok_iff_block hnodup]
  constructor
  · rintro ⟨_, hschema, _, hname, _, hversion, _, hentries, _, hgenerated, _, hblock, rfl⟩
    exact ⟨hschema, hname, hversion, hentries, hgenerated, hblock⟩
  · rintro ⟨hschema, hname, hversion, hentries, hgenerated, hblock⟩
    exact ⟨_, hschema, _, hname, _, hversion, _, hentries, _, hgenerated, _, hblock, rfl⟩

/-- The order of the known members makes no difference. -/
theorem GivenBy.perm {m : PackManifest} {known known' : List (String × Json)}
    (h : m.GivenBy known) (hperm : known.Perm known') : m.GivenBy known' := by
  have hmem : ∀ f, f ∈ known ↔ f ∈ known' := fun f => hperm.mem_iff
  have hname : ∀ name, name ∈ known.map Prod.fst ↔ name ∈ known'.map Prod.fst :=
    fun name => (hperm.map Prod.fst).mem_iff
  obtain ⟨hschema, hname', hversion, ⟨items, hitems, hentries⟩, ⟨text, htext, hinstant⟩, hblock⟩ :=
    h
  refine ⟨(hmem _).mp hschema, (hmem _).mp hname', (hmem _).mp hversion,
    ⟨items, (hmem _).mp hitems, hentries⟩, ⟨text, (hmem _).mp htext, hinstant⟩, ?_⟩
  cases hsignature : m.signature with
  | none =>
    rw [hsignature] at hblock
    exact hblock.imp (fun habsent hpresent => habsent ((hname _).mpr hpresent)) (hmem _).mp
  | some block =>
    rw [hsignature] at hblock
    obtain ⟨v, hv, hdescribed⟩ := hblock
    exact ⟨v, (hmem _).mp hv, hdescribed⟩

/-- Members that a manifest does not know, and the order of members, make no difference. -/
theorem DescribedBy.congr {m : PackManifest} {members members' : List (String × Json)}
    (hknown : (members.filter fun f => f.1 ∈ names).Perm (members'.filter fun f => f.1 ∈ names))
    (h : m.DescribedBy (.object members)) : m.DescribedBy (.object members') := by
  obtain ⟨_, ⟨_, ⟨⟩, rfl, hnodup⟩ | ⟨_, ⟨⟩, _⟩, hgiven⟩ := h
  exact ⟨_, .inl ⟨members', rfl, rfl, (hknown.map Prod.fst).nodup_iff.mp hnodup⟩,
    hgiven.perm hknown⟩

end PackManifest

/-! ### A manifest and its own document -/

omit [ChronoReader] in
/-- An object of known members is read with them. -/
theorem knows_object {names : List String} {members : List (String × Json)}
    (hnames : members.map Prod.fst = names) (hnodup : names.Nodup) :
    Knows names (.object members) members := by
  refine .inl ⟨members, rfl, ?_, hnames ▸ hnodup⟩
  refine (List.filter_eq_self.mpr fun f hf => ?_).symm
  simpa [← hnames] using ⟨f.2, hf⟩

omit [ChronoReader] in
/-- What is written of an entry describes it. -/
theorem packEntry_describedBy_toJson (entry : PackEntry) : entry.DescribedBy (toJson entry) :=
  ⟨_, knows_object rfl (by decide), by simp [toJson], by simp [toJson], by simp [toJson]⟩

/-- What is written of a signature block describes it. -/
theorem packSignatureRef_describedBy_toJson {block : PackSignatureRef}
    (hsigned : Rereads block.signedAt) : block.DescribedBy (toJson block) :=
  ⟨_, knows_object rfl (by decide), by simp [toJson], by simp [toJson], by simp [toJson],
    by simp [toJson], timestampText block.signedAt, by simp [toJson], hsigned⟩

namespace PackManifest

/-- What is written of a manifest describes it. -/
theorem describedBy_toJson {m : PackManifest} (hgenerated : Rereads m.generatedAt)
    (hsigned : ∀ block ∈ m.signature, Rereads block.signedAt) : m.DescribedBy (toJson m) := by
  refine ⟨_, knows_object rfl (by decide), by simp [toJson], by simp [toJson], by simp [toJson],
    ⟨m.entries.map toJson, by simp [toJson], ?_⟩,
    ⟨timestampText m.generatedAt, by simp [toJson], hgenerated⟩, ?_⟩
  · rw [List.forall₂_map_left_iff, List.forall₂_same]
    exact fun entry _ => packEntry_describedBy_toJson entry
  · cases hsignature : m.signature with
    | none => exact .inr (by simp [toJson])
    | some block =>
      exact ⟨toJson block, by simp [toJson],
        packSignatureRef_describedBy_toJson (hsigned block hsignature)⟩

/-- The instant of a manifest that describes a document is read from its own text. -/
theorem DescribedBy.rereads_generatedAt (hclock : RereadsInstants) {m : PackManifest} {j : Json}
    (h : m.DescribedBy j) : Rereads m.generatedAt := by
  obtain ⟨known, -, hgiven⟩ := h
  obtain ⟨text, -, htext⟩ := hgiven.generatedAt
  exact hclock text _ htext

/-- So is the instant of its signature block. -/
theorem DescribedBy.rereads_signedAt (hclock : RereadsInstants) {m : PackManifest} {j : Json}
    (h : m.DescribedBy j) : ∀ block ∈ m.signature, Rereads block.signedAt := by
  intro block hblock
  obtain ⟨known, -, hgiven⟩ := h
  have hin := hgiven.signature
  rw [Option.mem_def.mp hblock] at hin
  obtain ⟨v, -, known', -, -, -, -, -, text, -, htext⟩ := hin
  exact hclock text _ htext

end PackManifest

omit [ChronoReader] in
/-- A manifest with the same content differs in its signature block only. -/
theorem PackManifest.SameContent.eq_with {m m' : PackManifest} (h : m.SameContent m') :
    m' = { m with signature := m'.signature } := by
  obtain ⟨hschema, hname, hversion, hentries, hgenerated⟩ := h
  cases m'
  simp_all

/-! ### Verification of a document -/

section

variable [PackCrates] {m m' : PackManifest} {sigHex : String} {key : VerifyingKey}

/-- Beside a valid manifest, the valid ones are those with its content and a signature block. -/
theorem verifyPack_eq_valid_iff_sameContent (hgenerated : Rereads m.generatedAt)
    (hgenerated' : Rereads m'.generatedAt)
    (honce : ∀ sig, HoldsSignature sigHex sig → VerifiesOnce key sig)
    (hhash : sha256OfBytes m.canonicalUnsigned = sha256OfBytes m'.canonicalUnsigned →
      m.canonicalUnsigned = m'.canonicalUnsigned)
    (hvalid : verifyPack m sigHex key = .valid) :
    verifyPack m' sigHex key = .valid ↔ m'.signature.isSome ∧ m.SameContent m' := by
  have hcontent : m.canonicalUnsigned = m'.canonicalUnsigned ↔ m.SameContent m' :=
    canonicalUnsigned_eq_iff (hgenerated.eq_of_timestampText hgenerated')
  have hm : m.signature.isSome := (verifyPack_eq_valid_iff.mp hvalid).1
  constructor
  · intro hvalid'
    have hm' : m'.signature.isSome := (verifyPack_eq_valid_iff.mp hvalid').1
    refine ⟨hm', hcontent.mp ?_⟩
    by_contra hne
    obtain ⟨why, hforged⟩ := forged_of_canonicalUnsigned_ne honce hhash hvalid hm' hne
    rw [hvalid'] at hforged
    cases hforged
  · rintro ⟨hm', hsame⟩
    rw [← verifyPack_congr hm hm' (hcontent.mpr hsame), hvalid]

end

/-- A manifest is read from exactly the documents that describe it, whatever else they hold and in
whatever order, and then from its own document too. Beside a valid pack the documents that verify
are those that describe its content with any signature block. -/
theorem pack_documents_verify [PackCrates] (hclock : RereadsInstants) :
    (∀ (j : Json) (m : PackManifest), fromJson j = .ok m ↔ m.DescribedBy j) ∧
    (∀ (j : Json) (m : PackManifest), fromJson j = .ok m → m.DescribedBy (toJson m)) ∧
    (∀ members members' : List (String × Json),
      (members.filter fun f => f.1 ∈ PackManifest.names).Perm
        (members'.filter fun f => f.1 ∈ PackManifest.names) →
      ∀ m : PackManifest, m.DescribedBy (.object members) ↔ m.DescribedBy (.object members')) ∧
    ∀ (i : Json) (m : PackManifest) (sigHex : String) (key : VerifyingKey),
      fromJson i = .ok m → verifyPack m sigHex key = .valid →
      (∀ sig, HoldsSignature sigHex sig → VerifiesOnce key sig) →
      ∀ (j : Json) (m' : PackManifest), fromJson j = .ok m' →
        (sha256OfBytes m.canonicalUnsigned = sha256OfBytes m'.canonicalUnsigned →
          m.canonicalUnsigned = m'.canonicalUnsigned) →
        (verifyPack m' sigHex key = .valid ↔
          ∃ block, PackManifest.DescribedBy { m with signature := some block } j) := by
  refine ⟨fun j m => PackManifest.fromJson_iff, fun j m hread => ?_,
    fun members members' hknown m => ⟨.congr hknown, .congr hknown.symm⟩, ?_⟩
  · have hdescribed := PackManifest.fromJson_iff.mp hread
    exact PackManifest.describedBy_toJson (hdescribed.rereads_generatedAt hclock)
      (hdescribed.rereads_signedAt hclock)
  · intro i m sigHex key hown hvalid honce j m' hread hhash
    have hgenerated := (PackManifest.fromJson_iff.mp hown).rereads_generatedAt hclock
    have hgenerated' := (PackManifest.fromJson_iff.mp hread).rereads_generatedAt hclock
    rw [verifyPack_eq_valid_iff_sameContent hgenerated hgenerated' honce hhash hvalid]
    constructor
    · rintro ⟨hm', hsame⟩
      obtain ⟨block, hblock⟩ := Option.isSome_iff_exists.mp hm'
      refine ⟨block, PackManifest.fromJson_iff.mp ?_⟩
      rw [hread, hsame.eq_with, hblock]
    · rintro ⟨block, hdescribed⟩
      obtain rfl := Except.ok.inj (hread.symm.trans (PackManifest.fromJson_iff.mpr hdescribed))
      exact ⟨rfl, ⟨rfl, rfl, rfl, rfl, rfl⟩⟩

end

namespace Fixture

attribute [local instance] packCrates chronoReader

/-- The members of the document of the pack. -/
def packMembers : List (String × Json) :=
  [("schema_version", toJson pack.schemaVersion), ("name", toJson pack.name),
    ("version", toJson pack.version), ("entries", toJson pack.entries),
    ("generated_at", toJson pack.generatedAt), ("signature", toJson pack.signature)]

/-- The document of the pack backwards, with a comment. -/
def annotated : List (String × Json) := ("comment", .string "reviewed") :: packMembers.reverse

/-- The pack is read from its annotated document, which verifies. -/
theorem pack_documents_verify_annotated :
    fromJson (.object annotated) = .ok pack ∧
      ∃ block, PackManifest.DescribedBy { pack with signature := some block }
        (.object annotated) := by
  obtain ⟨hread, -, horder, hverify⟩ := pack_documents_verify rereadsInstants
  have hown : pack.DescribedBy (toJson pack) :=
    PackManifest.describedBy_toJson (rereads _) fun block _ => rereads _
  have hknown : (packMembers.filter fun f => f.1 ∈ PackManifest.names).Perm
      (annotated.filter fun f => f.1 ∈ PackManifest.names) := by
    have hcomment : (annotated.filter fun f => f.1 ∈ PackManifest.names) =
        (packMembers.filter fun f => f.1 ∈ PackManifest.names).reverse := by
      rw [annotated, List.filter_cons_of_neg (by decide), List.filter_reverse]
    rw [hcomment]
    exact (List.reverse_perm _).symm
  have hpack : fromJson (.object annotated) = .ok pack :=
    (hread _ _).mpr ((horder _ _ hknown pack).mp hown)
  have hvalid : verifyPack pack (hexEncode packSignature) packKey = .valid := by
    refine verifyPack_eq_valid_iff.mpr ⟨rfl, packSignature, holdsSignature_pack, ?_⟩
    simp [sha256OfBytes, verifies]
  have honce : ∀ sig, HoldsSignature (hexEncode packSignature) sig → VerifiesOnce packKey sig := by
    intro sig _ d d' hd hd'
    simp only [verifies, decide_eq_true_eq] at hd hd'
    exact Subtype.ext (hd.2.1.trans hd'.2.1.symm)
  exact ⟨hpack, (hverify _ pack _ _ hpack hvalid honce _ _ hpack fun _ => rfl).mp hvalid⟩

end Fixture

end ClavenarSdk
