import ClavenarSdk.Encoding.Insertion
import ClavenarSdk.Url

/-!
# HIL requests about a subject

`hil.rs`. The identity methods of `HilClient` and its lookup by correlation put the string of the
caller into the path as it is. The request goes to the named subject if and only if the string
survives the resolution of the reference.
-/

namespace ClavenarSdk

open Encoding

namespace HilClient

/-- The reference of `identities_get`. -/
def identitiesGet (oidcSub : String) : String := s!"identities/{oidcSub}"

/-- The reference of `identities_unlink`. -/
def identitiesUnlink (oidcSub channel : String) : String := s!"identities/{oidcSub}/{channel}"

/-- The reference of `identities_unlink_slack`. -/
def identitiesUnlinkSlack (oidcSub : String) : String := identitiesUnlink oidcSub "slack"

/-- The reference of `identities_unlink_teams`. -/
def identitiesUnlinkTeams (oidcSub : String) : String := identitiesUnlink oidcSub "teams"

/-- The reference of `get_pending_by_correlation`. -/
def getPendingByCorrelation (correlationId : String) : String :=
  s!"pending/by-correlation/{correlationId}"

end HilClient

/-- The methods that name a subject or a correlation, with its name. -/
inductive HilSubject where
  | identitiesGet (oidcSub : String)
  | identitiesUnlinkSlack (oidcSub : String)
  | identitiesUnlinkTeams (oidcSub : String)
  | getPendingByCorrelation (correlationId : String)

namespace HilSubject

/-- The reference that the method joins to the base URL. -/
def reference : HilSubject → String
  | identitiesGet oidcSub => HilClient.identitiesGet oidcSub
  | identitiesUnlinkSlack oidcSub => HilClient.identitiesUnlinkSlack oidcSub
  | identitiesUnlinkTeams oidcSub => HilClient.identitiesUnlinkTeams oidcSub
  | getPendingByCorrelation correlationId => HilClient.getPendingByCorrelation correlationId

/-- The subject or the correlation. -/
def name : HilSubject → String
  | identitiesGet oidcSub => oidcSub
  | identitiesUnlinkSlack oidcSub => oidcSub
  | identitiesUnlinkTeams oidcSub => oidcSub
  | getPendingByCorrelation correlationId => correlationId

/-- The fixed names before it. -/
def before : HilSubject → List String
  | getPendingByCorrelation _ => ["pending", "by-correlation"]
  | _ => ["identities"]

/-- The channel, if there is one. -/
def after : HilSubject → List String
  | identitiesUnlinkSlack _ => ["slack"]
  | identitiesUnlinkTeams _ => ["teams"]
  | _ => []

/-- The segments that the method means. -/
def parts (subject : HilSubject) : List PathPart :=
  subject.before.map .literal ++ .inserted subject.name :: subject.after.map .literal

/-- Words are names of segments. -/
theorem areNames_map {names : List String} (h : ∀ name ∈ names, IsWord name) :
    AreNames (names.map String.toList) := by
  intro name hname
  obtain ⟨word, hword, rfl⟩ := List.mem_map.mp hname
  exact (h word hword).isName

/-- What stands before the inserted text consists of names. -/
theorem areNames_before (subject : HilSubject) :
    AreNames (subject.before.map String.toList) :=
  areNames_map (by cases subject <;> simp [before, IsWord])

/-- So does what stands after it. -/
theorem areNames_after (subject : HilSubject) : AreNames (subject.after.map String.toList) :=
  areNames_map (by cases subject <;> simp [after, IsWord])

/-- The name stands in the reference as it is. -/
theorem reference_eq (subject : HilSubject) :
    subject.reference.toList = insertion (subject.before.map String.toList) subject.name.toList
      (subject.after.map String.toList) := by
  cases subject <;>
    (dsimp only [reference, name, before, after]
     delta HilClient.identitiesGet HilClient.identitiesUnlinkSlack HilClient.identitiesUnlinkTeams
       HilClient.identitiesUnlink HilClient.getPendingByCorrelation
     simp [insertion])

/-- The segments that read as the parts of a request. -/
theorem forall₂_parts_iff (subject : HilSubject) (segments : List (List Char)) :
    List.Forall₂ PathPart.Reads subject.parts segments ↔
      ∃ segment, segments = subject.before.map String.toList ++
          segment :: subject.after.map String.toList ∧
        percentDecode segment = utf8 subject.name.toList := by
  rw [utf8_toList]
  cases subject <;>
    simp only [parts, name, before, after, List.map_cons, List.map_nil, List.cons_append,
      List.nil_append, List.forall₂_cons_left_iff, List.forall₂_nil_left_iff, PathPart.Reads] <;>
    grind

/-- The request goes to the named subject if and only if the name survives resolution. -/
theorem requests_iff [UrlCrate] (hjoins : JoinsPaths) (subject : HilSubject) {url : Url}
    {directory : List (List Char)} (hurl : url.IsDirectory directory) :
    url.Requests directory subject.reference subject.parts ↔
      Survives url.special subject.after.isEmpty subject.name.toList := by
  obtain ⟨escapes, hescapes, hjoin⟩ := hjoins.exists_join hurl
  have hne : subject.before.map String.toList ≠ [] := by cases subject <;> simp [before]
  have hempty : (subject.after.map String.toList).isEmpty = subject.after.isEmpty := by
    simp
  -- The reference is resolved whatever the name is, so the crate gives the resolved path.
  obtain ⟨path, hresolve⟩ : ∃ path, resolveReference escapes url.special directory
      subject.reference.toList = some path := by
    rw [subject.reference_eq]
    exact ⟨_, resolveReference_insertion hescapes hne subject.areNames_before
      subject.areNames_after directory subject.name.toList⟩
  rw [← hempty, ← insertion_iff hescapes hne subject.areNames_before subject.areNames_after
    directory, ← subject.reference_eq, hresolve, ← hjoin _ _ hresolve]
  constructor
  · rintro ⟨segments, hsegments, hreads⟩
    obtain ⟨segment, rfl, hread⟩ := (subject.forall₂_parts_iff segments).mp hreads
    exact ⟨segment, hsegments, hread⟩
  · rintro ⟨segment, hsegments, hread⟩
    exact ⟨_, hsegments, (subject.forall₂_parts_iff _).mpr ⟨segment, rfl, hread⟩⟩

/-- Requests that go where they are meant to are told apart by their paths. -/
theorem eq_of_join_eq [UrlCrate] {subject subject' : HilSubject} {url : Url}
    {directory : List (List Char)}
    (h : url.Requests directory subject.reference subject.parts)
    (h' : url.Requests directory subject'.reference subject'.parts)
    (hsame : url.join subject.reference = url.join subject'.reference) : subject = subject' := by
  obtain ⟨segments, hjoin, hreads⟩ := h
  obtain ⟨segments', hjoin', hreads'⟩ := h'
  rw [hjoin, hjoin', Option.some.injEq, List.append_cancel_left_eq] at hsame
  subst hsame
  obtain ⟨segment, heq, hread⟩ := (subject.forall₂_parts_iff _).mp hreads
  obtain ⟨segment', heq', hread'⟩ := (subject'.forall₂_parts_iff _).mp hreads'
  rw [heq] at heq'
  have hname : segment = segment' → subject.name = subject'.name := by
    rintro rfl
    exact String.toList_injective (utf8_injective (hread.symm.trans hread'))
  cases subject <;> cases subject' <;> simp [before, after, name] at heq' hname ⊢ <;> grind

/-- With every accepted base URL, a request goes to the path of the base, the fixed names and one
segment that reads as the subject or the correlation if and only if that string survives
resolution, and different requests of this kind have different paths. -/
theorem requests_iff_survives [UrlCrate] (hjoins : JoinsPaths) {base : String} {url : Url}
    (hbase : parseBaseUrl base = .ok url) :
    ∃ directory, url.IsDirectory directory ∧
      (∀ subject : HilSubject, url.Requests directory subject.reference subject.parts ↔
        Survives url.special subject.after.isEmpty subject.name.toList) ∧
      ∀ subject subject' : HilSubject,
        Survives url.special subject.after.isEmpty subject.name.toList →
        Survives url.special subject'.after.isEmpty subject'.name.toList →
        url.join subject.reference = url.join subject'.reference → subject = subject' := by
  obtain ⟨directory, hurl⟩ := isDirectory_of_parseBaseUrl hbase
  refine ⟨directory, hurl, fun subject => subject.requests_iff hjoins hurl, ?_⟩
  intro subject subject' h h'
  exact eq_of_join_eq ((subject.requests_iff hjoins hurl).mpr h)
    ((subject'.requests_iff hjoins hurl).mpr h')

end HilSubject

namespace Fixture

attribute [local instance] urlCrate

/-- Under the API's URL a method requests its subject exactly for the texts that survive, and
different subjects are different requests. -/
theorem requests_iff_survives_api :
    ∃ directory, apiUrl.withSlash.IsDirectory directory ∧
      (∀ subject : HilSubject,
        apiUrl.withSlash.Requests directory subject.reference subject.parts ↔
          Survives true subject.after.isEmpty subject.name.toList) ∧
      ∀ subject subject' : HilSubject,
        Survives true subject.after.isEmpty subject.name.toList →
        Survives true subject'.after.isEmpty subject'.name.toList →
        apiUrl.withSlash.join subject.reference = apiUrl.withSlash.join subject'.reference →
          subject = subject' :=
  HilSubject.requests_iff_survives joinsPaths_urlCrate parseBaseUrl_api

/-- The subject `alice/../bob` unlinks the channel of `bob`. -/
theorem unlink_other_subject :
    parseBaseUrl "http://h/api" = .ok apiUrl.withSlash ∧
      apiUrl.withSlash.join (HilClient.identitiesUnlinkSlack "alice/../bob") =
        apiUrl.withSlash.join (HilClient.identitiesUnlinkSlack "bob") ∧
      ∀ directory, apiUrl.withSlash.IsDirectory directory →
        ¬apiUrl.withSlash.Requests directory
          (HilSubject.identitiesUnlinkSlack "alice/../bob").reference
          (HilSubject.identitiesUnlinkSlack "alice/../bob").parts := by
  refine ⟨parseBaseUrl_api, by decide +kernel, fun directory hdirectory hrequests => ?_⟩
  have hsurvives := ((HilSubject.identitiesUnlinkSlack "alice/../bob").requests_iff
    joinsPaths_urlCrate hdirectory).mp hrequests
  have hslash := (hsurvives.whole '/' (by decide +kernel)).1
  exact absurd hslash (by decide)

end Fixture

end ClavenarSdk
