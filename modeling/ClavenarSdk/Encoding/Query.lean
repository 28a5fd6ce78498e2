import ClavenarSdk.Encoding.Readable

/-!
# Query strings

A query is read as pieces separated by `&`, each a key and a value separated by the first `=`.
Appending a piece that contains no separators appends one pair and changes none before it.
-/

namespace Encoding

/-- The key and the value of a piece. -/
def queryPair (piece : List Char) : List Char × List Char :=
  (piece.takeWhile (· ≠ '='), (piece.dropWhile (· ≠ '=')).drop 1)

/-- The pairs of a query, undecoded. Empty pieces are skipped. -/
def queryPairs (query : List Char) : List (List Char × List Char) :=
  ((query.splitOn '&').filter (· ≠ [])).map queryPair

/-- The query of a reference. -/
def queryPart (reference : List Char) : List Char :=
  ((reference.takeWhile (· ≠ '#')).dropWhile (· ≠ '?')).drop 1

/-- A text without the separator lies before the first separator. -/
theorem takeWhile_ne_append {sep : Char} {l : List Char} (h : sep ∉ l) (rest : List Char) :
    (l ++ rest).takeWhile (· ≠ sep) = l ++ rest.takeWhile (· ≠ sep) := by
  apply List.takeWhile_append_of_pos
  intro c hc
  rw [decide_eq_true_eq]
  rintro rfl
  exact h hc

/-- The first separator comes after a text without it. -/
theorem dropWhile_ne_append {sep : Char} {l rest : List Char} (h : sep ∉ l) :
    (l ++ rest).dropWhile (· ≠ sep) = rest.dropWhile (· ≠ sep) := by
  apply List.dropWhile_append_of_pos
  intro c hc
  rw [decide_eq_true_eq]
  rintro rfl
  exact h hc

/-- Nothing lies before a leading separator. -/
theorem takeWhile_ne_cons (sep : Char) (rest : List Char) :
    (sep :: rest).takeWhile (· ≠ sep) = [] := by
  simp

/-- A leading separator is the first one. -/
theorem dropWhile_ne_cons (sep : Char) (rest : List Char) :
    (sep :: rest).dropWhile (· ≠ sep) = sep :: rest := by
  simp

/-- A piece is cut at the first equals sign. -/
theorem queryPair_append {key value : List Char} (h : '=' ∉ key) :
    queryPair (key ++ '=' :: value) = (key, value) := by
  rw [queryPair, takeWhile_ne_append h, dropWhile_ne_append h, takeWhile_ne_cons,
    dropWhile_ne_cons, List.append_nil, List.drop_one, List.tail_cons]

/-- The key and the value can be put together without being cut again or cleaned away. -/
structure PieceSafe (key value : List Char) : Prop where
  key : ∀ c ∈ key, c ≠ '=' ∧ c ≠ '&' ∧ c ≠ '#' ∧ 0x20 < c.toNat
  value : ∀ c ∈ value, c ≠ '&' ∧ c ≠ '#' ∧ 0x20 < c.toNat

section

variable {key value : List Char}

/-- A safe key has no equals sign, so a piece is cut after it. -/
theorem PieceSafe.not_mem_key (h : PieceSafe key value) : '=' ∉ key :=
  fun hmem => (h.key '=' hmem).1 rfl

/-- No character of a safe piece ends it, ends the query or is cleaned away. -/
theorem PieceSafe.piece (h : PieceSafe key value) {c : Char} (hc : c ∈ key ++ '=' :: value) :
    c ≠ '&' ∧ c ≠ '#' ∧ 0x20 < c.toNat := by
  rw [List.mem_append, List.mem_cons] at hc
  rcases hc with hc | rfl | hc
  · exact (h.key c hc).2
  · decide
  · exact h.value c hc

/-- A safe piece is not cut into two. -/
theorem PieceSafe.not_mem (h : PieceSafe key value) : '&' ∉ key ++ '=' :: value :=
  fun hmem => (h.piece hmem).1 rfl

/-- A safe piece that is appended adds its pair. -/
theorem queryPairs_append (h : PieceSafe key value) (query : List Char) :
    queryPairs (query ++ '&' :: (key ++ '=' :: value)) = queryPairs query ++ [(key, value)] := by
  have hne : key ++ '=' :: value ≠ [] := by simp
  have hpiece : ((key ++ '=' :: value).splitOn '&').filter (· ≠ []) = [key ++ '=' :: value] := by
    rw [List.splitOn_eq_singleton h.not_mem, List.filter_singleton, decide_eq_true hne,
      cond_true]
  rw [queryPairs, List.splitOn_append_cons_self, List.filter_append, hpiece, List.map_append,
    List.map_singleton, queryPair_append h.not_mem_key, ← queryPairs]

/-- Separated pieces are read back. -/
theorem queryPairs_separated {pairs : List (List Char × List Char)}
    (h : ∀ p ∈ pairs, PieceSafe p.1 p.2) :
    queryPairs (separated '&' (pairs.map fun p => p.1 ++ '=' :: p.2)) = pairs := by
  cases hpairs : pairs with
  | nil => rfl
  | cons p rest =>
    rw [← hpairs]
    have hne : (pairs.map fun p => p.1 ++ '=' :: p.2) ≠ [] := by simp [hpairs]
    have hsep : ∀ piece ∈ pairs.map fun p => p.1 ++ '=' :: p.2, '&' ∉ piece := by
      intro piece hpiece
      obtain ⟨p, hp, rfl⟩ := List.mem_map.mp hpiece
      exact (h p hp).not_mem
    have hkeep : ((pairs.map fun p => p.1 ++ '=' :: p.2).filter (· ≠ [])) =
        pairs.map fun p => p.1 ++ '=' :: p.2 := by
      rw [List.filter_eq_self]
      intro piece hpiece
      obtain ⟨p, -, rfl⟩ := List.mem_map.mp hpiece
      simp
    have hread : ∀ p ∈ pairs, queryPair (p.1 ++ '=' :: p.2) = p := fun p hp =>
      queryPair_append (h p hp).not_mem_key
    rw [queryPairs, separated, List.splitOn_intercalate '&' hsep hne, hkeep, List.map_map]
    exact (List.map_congr_left hread).trans (List.map_id _)

/-- The reference consists of this route and of a query that carries these pairs. -/
def Carries (route reference : List Char) (pairs : List (List Char × List Char)) : Prop :=
  (∀ c ∈ route, c ≠ '?' ∧ c ≠ '#') ∧ ∃ query, reference = route ++ '?' :: query ∧
    (∀ c ∈ query, c ≠ '#' ∧ 0x20 < c.toNat) ∧ queryPairs query = pairs

section

variable {route reference : List Char} {pairs : List (List Char × List Char)}

/-- The query of a reference has the pairs that it carries. -/
theorem Carries.queryPairs (h : Carries route reference pairs) :
    queryPairs (queryPart reference) = pairs := by
  obtain ⟨hroute, query, rfl, hquery, hpairs⟩ := h
  have hfragment : '#' ∉ route ++ '?' :: query := by
    rw [List.mem_append, List.mem_cons]
    rintro (hmem | hmem | hmem)
    · exact (hroute '#' hmem).2 rfl
    · exact absurd hmem (by decide)
    · exact (hquery '#' hmem).1 rfl
  have hwhole : (route ++ '?' :: query).takeWhile (· ≠ '#') = route ++ '?' :: query := by
    have htake := takeWhile_ne_append hfragment []
    rwa [List.append_nil, List.takeWhile_nil, List.append_nil] at htake
  have hstart : '?' ∉ route := fun hmem => (hroute '?' hmem).1 rfl
  rw [queryPart, hwhole, dropWhile_ne_append hstart, dropWhile_ne_cons, List.drop_one,
    List.tail_cons, hpairs]

/-- A route with separated pieces. -/
theorem carries_separated (hroute : ∀ c ∈ route, c ≠ '?' ∧ c ≠ '#')
    (h : ∀ p ∈ pairs, PieceSafe p.1 p.2) :
    Carries route (route ++ '?' :: separated '&' (pairs.map fun p => p.1 ++ '=' :: p.2))
      pairs := by
  refine ⟨hroute, _, rfl, fun c hc => ?_, queryPairs_separated h⟩
  rcases mem_separated hc with rfl | ⟨piece, hpiece, hc⟩
  · decide
  · obtain ⟨p, hp, rfl⟩ := List.mem_map.mp hpiece
    exact ((h p hp).piece hc).2

/-- One more pair. -/
theorem Carries.append (hreference : Carries route reference pairs) (h : PieceSafe key value) :
    Carries route (reference ++ '&' :: (key ++ '=' :: value)) (pairs ++ [(key, value)]) := by
  obtain ⟨hroute, query, rfl, hquery, hpairs⟩ := hreference
  refine ⟨hroute, query ++ '&' :: (key ++ '=' :: value), ?_, fun c hc => ?_, ?_⟩
  · rw [List.append_assoc, List.cons_append]
  · rw [List.mem_append, List.mem_cons] at hc
    rcases hc with hc | rfl | hc
    · exact hquery c hc
    · decide
    · exact (h.piece hc).2
  · rw [queryPairs_append h, hpairs]

end

end

end Encoding
