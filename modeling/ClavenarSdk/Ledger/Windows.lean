import ClavenarSdk.Collections.Windows
import ClavenarSdk.Ledger.Methods

/-!
# Export windows

`regulatory_export` and `compliance_evidence_scoped` write the bounds of their window with whole
seconds. A chain of windows therefore covers the time between the truncated first and the
truncated last bound, each instant of it once.
-/

namespace ClavenarSdk

open Collections Encoding

/-! ### Truncated instants -/

/-- The instant without the part of a second. A leap second stays one. -/
def DateTime.wholeSecond (t : DateTime) : DateTime :=
  ⟨t.secs, if t.nanos < 10 ^ 9 then 0 else 10 ^ 9, by split_ifs <;> decide⟩

/-- Truncation keeps the order of instants. -/
theorem DateTime.wholeSecond_mono : Monotone DateTime.wholeSecond := by
  intro t u h
  rcases h.eq_or_lt with rfl | hlt
  · exact le_refl _
  · rcases DateTime.lt_iff.mp hlt with hsecs | ⟨hsecs, hnanos⟩
    · have hwhole : t.wholeSecond < u.wholeSecond := DateTime.lt_iff.mpr (.inl hsecs)
      exact hwhole.le
    · have hle : t.wholeSecond.nanos ≤ u.wholeSecond.nanos := by
        simp only [wholeSecond]
        split_ifs <;> omega
      rcases hle.eq_or_lt with heq | hlt
      · exact le_of_eq (DateTime.ext hsecs heq)
      · have hwhole : t.wholeSecond < u.wholeSecond := DateTime.lt_iff.mpr (.inr ⟨hsecs, hlt⟩)
        exact hwhole.le

/-! ### What a server reads -/

/-- The value that a reference gives to a key, if it is text. -/
def queryText (reference key : String) : Option String :=
  ((queryPairs (queryPart reference.toList)).lookup key.toList).bind fun value =>
    textOfUtf8 (percentDecode value)

/-- A parameter that is sent is read. -/
theorem Writes.queryText {route : List Char} {reference : String}
    {slots : List (String × Option (List String))} (h : Writes route reference slots)
    (hkeys : (slots.map Prod.fst).Nodup) {key value : String}
    (hslot : (key, some [value]) ∈ slots) : queryText reference key = some value := by
  have hparam : (key, [value]) ∈ present slots := by
    rw [present, List.mem_filterMap]
    exact ⟨_, hslot, rfl⟩
  obtain ⟨before, after, hsplit⟩ := List.append_of_mem hparam
  have hnodup : ((present slots).map Prod.fst).Nodup := (keys_present_sublist slots).nodup hkeys
  have hlookup : ((present slots).map Param.raw).lookup key.toList =
      some (Param.raw (key, [value])).2 := by
    rw [List.lookup_eq_some_iff]
    refine ⟨before.map Param.raw, after.map Param.raw, ?_, fun p hp => ?_⟩
    · rw [hsplit, List.map_append, List.map_cons]
      rfl
    · obtain ⟨param, hmem, rfl⟩ := List.mem_map.mp hp
      rw [hsplit, List.map_append, List.map_cons, List.nodup_append] at hnodup
      have hne := hnodup.2.2 param.1 (List.mem_map_of_mem hmem) key (by simp)
      simpa [Param.raw, String.toList_inj] using hne.symm
  rw [ClavenarSdk.queryText, h.1.queryPairs, hlookup, Option.bind_some, Param.percentDecode_raw,
    String.intercalate_singleton, textOfUtf8_utf8Bytes]

/-- The server reads both bounds of the window and selects the row. -/
def selects (read : String → Option DateTime) (row : DateTime) (reference : String) : Bool :=
  match (queryText reference "from").bind read, (queryText reference "to").bind read with
  | some from_, some to_ => decide (InWindow row (from_, to_))
  | _, _ => false

/-! ### Chains of windows -/

/-- A method that takes a window, with its other arguments. -/
inductive WindowMethod where
  | regulatoryExport (opts : RegulatoryExportOptions)
  | complianceEvidenceScoped (scope : Scope)

/-- The call of the method for a window. -/
def WindowMethod.query : WindowMethod → DateTime × DateTime → LedgerQuery
  | regulatoryExport opts, w => .regulatoryExport w.1 w.2 opts
  | complianceEvidenceScoped scope, w => .complianceEvidenceScoped w.1 w.2 scope

section

variable [Chrono] {method : WindowMethod} {w : DateTime × DateTime} {reference : String}

/-- The bounds of a request are the truncated ends of its window. -/
theorem queryText_from_to (h : (method.query w).reference = .ok reference) :
    queryText reference "from" = some (toRfc3339Secs w.1) ∧
      queryText reference "to" = some (toRfc3339Secs w.2) := by
  cases method with
  | regulatoryExport opts =>
    have hwrites := writes_regulatoryExport w.1 w.2 opts h
    have hkeys := (LedgerQuery.regulatoryExport w.1 w.2 opts).nodup_keys_slots
    exact ⟨hwrites.queryText hkeys (by simp [LedgerQuery.slots, always]),
      hwrites.queryText hkeys (by simp [LedgerQuery.slots, always])⟩
  | complianceEvidenceScoped scope =>
    have hwrites := writes_complianceEvidenceScoped w.1 w.2 scope
    have hkeys := (LedgerQuery.complianceEvidenceScoped w.1 w.2 scope).nodup_keys_slots
    rw [← Except.ok.inj h]
    exact ⟨hwrites.queryText hkeys (by simp [LedgerQuery.slots, always]),
      hwrites.queryText hkeys (by simp [LedgerQuery.slots, always])⟩

/-- The window that is selected has the truncated bounds. -/
theorem selects_iff {read : String → Option DateTime}
    (h : (method.query w).reference = .ok reference)
    (hfrom : read (toRfc3339Secs w.1) = some w.1.wholeSecond)
    (hto : read (toRfc3339Secs w.2) = some w.2.wholeSecond) (row : DateTime) :
    selects read row reference = decide (InWindow row (w.1.wholeSecond, w.2.wholeSecond)) := by
  obtain ⟨hfromText, htoText⟩ := queryText_from_to h
  rw [selects, hfromText, htoText, Option.bind_some, Option.bind_some, hfrom, hto]

/-- The rows that a chain of windows selects, counted. -/
theorem countP_selects {read : String → Option DateTime} {bounds : List DateTime}
    (hread : ∀ t ∈ bounds, read (toRfc3339Secs t) = some t.wholeSecond)
    {references : List String}
    (hcalls : List.Forall₂ (fun w reference => (method.query w).reference = .ok reference)
      (windows bounds) references) (row : DateTime) :
    references.countP (selects read row) =
      (windows (bounds.map DateTime.wholeSecond)).countP fun w => InWindow row w := by
  have hall : ∀ ws : List (DateTime × DateTime), (∀ w ∈ ws, w.1 ∈ bounds ∧ w.2 ∈ bounds) →
      ∀ references, List.Forall₂ (fun w reference => (method.query w).reference = .ok reference)
        ws references → references.countP (selects read row) =
          (ws.map (Prod.map DateTime.wholeSecond DateTime.wholeSecond)).countP fun w =>
            InWindow row w := by
    intro ws hws references hcalls
    induction hcalls with
    | nil => rfl
    | @cons w reference ws references hcall _ ih =>
      obtain ⟨hfrom, hto⟩ := hws w (by simp)
      have hselects := selects_iff hcall (hread _ hfrom) (hread _ hto) row
      rw [List.countP_cons, List.map_cons, List.countP_cons, hselects,
        ih fun w hw => hws w (List.mem_cons_of_mem _ hw)]
      rfl
  rw [hall _ (fun w hw => mem_of_mem_windows hw) references hcalls, windows_map]

/-- Every row between the first and the last bound is selected by exactly one request and every
other row by none, if and only if there is no window or the first and the last bound are whole
seconds. -/
theorem countP_selects_iff_whole {read : String → Option DateTime} {first : DateTime}
    {rest : List DateTime} (hincreasing : (first :: rest).Pairwise (· < ·))
    (hread : ∀ t ∈ first :: rest, read (toRfc3339Secs t) = some t.wholeSecond)
    {references : List String}
    (hcalls : List.Forall₂ (fun w reference => (method.query w).reference = .ok reference)
      (windows (first :: rest)) references) :
    (∀ row, references.countP (selects read row) =
        if InWindow row (first, (first :: rest).getLast (List.cons_ne_nil _ _)) then 1 else 0) ↔
      rest = [] ∨ first.wholeSecond = first ∧
        ((first :: rest).getLast (List.cons_ne_nil _ _)).wholeSecond =
          (first :: rest).getLast (List.cons_ne_nil _ _) := by
  have hsorted : (first.wholeSecond :: rest.map DateTime.wholeSecond).Pairwise (· ≤ ·) := by
    rw [← List.map_cons, List.pairwise_map]
    exact hincreasing.imp fun h => DateTime.wholeSecond_mono h.le
  have hlast : (first.wholeSecond :: rest.map DateTime.wholeSecond).getLast
      (List.cons_ne_nil _ _) =
        ((first :: rest).getLast (List.cons_ne_nil _ _)).wholeSecond :=
    List.getLast_map (l := first :: rest) _
  have hcount : ∀ row, references.countP (selects read row) =
      if InWindow row (first.wholeSecond,
        ((first :: rest).getLast (List.cons_ne_nil _ _)).wholeSecond) then 1 else 0 := by
    intro row
    rw [countP_selects hread hcalls, List.map_cons, countP_windows hsorted, hlast]
  constructor
  · intro h
    by_cases hrest : rest = []
    · exact .inl hrest
    · right
      have hlt : first < (first :: rest).getLast (List.cons_ne_nil _ _) := by
        rw [List.getLast_cons hrest]
        exact List.rel_of_pairwise_cons hincreasing (List.getLast_mem hrest)
      have hsame := eq_of_inWindow_iff
        (w := (first.wholeSecond, ((first :: rest).getLast (List.cons_ne_nil _ _)).wholeSecond))
        (v := (first, (first :: rest).getLast (List.cons_ne_nil _ _))) hlt fun row => by
          have hrow := (hcount row).symm.trans (h row)
          split_ifs at hrow with hin hout hout <;> simp_all
      exact Prod.mk.inj hsame
  · rintro (rfl | ⟨hfirst, hwhole⟩) row
    · rw [hcount]
      have hout : ∀ t : DateTime, ¬InWindow row (t, t) := fun t hin => not_lt_of_ge hin.1 hin.2
      rw [List.getLast_singleton, if_neg (hout _), if_neg (hout _)]
    · rw [hcount, hfirst, hwhole]

end

namespace Fixture

attribute [local instance] chrono

/-- A server that reads the texts of the first seconds of the epoch. -/
def readSecs (text : String) : Option DateTime :=
  [0, 1, 2, 3].findSome? fun n : ℕ =>
    if text = s!"1970-01-01T00:00:0{(n : ℤ)}Z" then some (.ofSecs n) else none

/-- The instant with these seconds and tenths of a second. -/
def instant (secs : ℤ) (tenths : Fin 10) : DateTime := ⟨secs, tenths * 10 ^ 8, by omega⟩

/-- An export of one tenant. -/
def exportMethod : WindowMethod := .regulatoryExport ⟨some "acme", false, false⟩

/-- Exports of two windows with whole seconds at the ends cover every row of the whole once. -/
theorem countP_selects_iff_whole_export : ∃ references : List String, ∀ row,
    references.countP (selects readSecs row) =
      if InWindow row (instant 0 0, instant 3 0) then 1 else 0 :=
  ⟨_, (@countP_selects_iff_whole chrono exportMethod readSecs (instant 0 0)
    [instant 1 5, instant 3 0] (by decide +kernel) (by decide +kernel) _
    (.cons rfl (.cons rfl .nil))).mpr (.inr (by decide +kernel))⟩

/-- The row at 1.2 s is between 0.5 s and 1.5 s, but the request asks for the rows before 1 s. -/
theorem export_misses_row : ∃ references : List String,
    List.Forall₂ (fun w reference => (exportMethod.query w).reference = .ok reference)
      (windows [instant 0 5, instant 1 5]) references ∧
    InWindow (instant 1 2) (instant 0 5, instant 1 5) ∧
    references.countP (selects readSecs (instant 1 2)) = 0 := by
  have hcalls : List.Forall₂
      (fun w reference => (exportMethod.query w).reference = .ok reference)
      (windows [instant 0 5, instant 1 5]) _ := .cons rfl .nil
  refine ⟨_, hcalls, by decide, ?_⟩
  rw [countP_selects (by decide +kernel) hcalls]
  decide +kernel

end Fixture

end ClavenarSdk
