import ClavenarSdk.Encoding.Reference

/-!
# A string in a reference as it stands

A string is put between the names of a path without being encoded. It comes out as one segment
that reads as the string if and only if resolution has nothing in it to cut, to drop or to
decode.
-/

namespace Encoding

/-! ### Pieces of a text -/

/-- A piece of a text is a part of it without separators. -/
theorem sublist_of_mem_splitOnP {p : Char → Bool} {cs piece : List Char}
    (h : piece ∈ cs.splitOnP p) : piece.Sublist cs ∧ ∀ c ∈ piece, p c = false := by
  induction cs generalizing piece with
  | nil =>
    obtain rfl : piece = [] := by simpa using h
    simp
  | cons c cs ih =>
    rw [List.splitOnP_cons_eq_if_modifyHead] at h
    split_ifs at h with hc
    · rcases List.mem_cons.mp h with rfl | h
      · simp
      · exact ⟨(ih h).1.cons c, (ih h).2⟩
    · obtain ⟨head, tail, heq⟩ := List.exists_cons_of_ne_nil (List.splitOnP_ne_nil p cs)
      rw [heq, List.modifyHead_cons, List.mem_cons] at h
      rcases h with rfl | h
      · obtain ⟨hsub, hfree⟩ := @ih head (by simp [heq])
        refine ⟨hsub.cons_cons c, fun d hd => ?_⟩
        rcases List.mem_cons.mp hd with rfl | hd
        · simpa using hc
        · exact hfree d hd
      · obtain ⟨hsub, hfree⟩ := @ih piece (by simp [heq, h])
        exact ⟨hsub.cons c, hfree⟩

/-- Leaving out characters leaves out bytes. -/
theorem length_utf8_le {cs ds : List Char} (h : cs.Sublist ds) :
    (utf8 cs).length ≤ (utf8 ds).length := by
  induction h with
  | slnil => exact le_refl _
  | cons c _ ih =>
    rw [utf8_cons, List.length_append]
    omega
  | cons_cons c _ ih =>
    rw [utf8_cons, utf8_cons, List.length_append, List.length_append]
    omega

/-- A part of a text is shorter than the text. -/
theorem eq_of_sublist_of_length_utf8_le {cs ds : List Char} (h : cs.Sublist ds)
    (hlength : (utf8 ds).length ≤ (utf8 cs).length) : cs = ds := by
  induction h with
  | slnil => rfl
  | cons c hsub ih =>
    have hle := length_utf8_le hsub
    have hpos := length_utf8EncodeChar_pos c
    rw [utf8_cons, List.length_append] at hlength
    omega
  | cons_cons c _ ih =>
    rw [utf8_cons, utf8_cons, List.length_append, List.length_append] at hlength
    rw [ih (by omega)]

/-- A part of a text reads as the text only if it is the text and nothing in it is decoded. -/
theorem eq_of_percentDecode_eq_utf8 {piece cs : List Char} (h : piece.Sublist cs)
    (hread : percentDecode piece = utf8 cs) : piece = cs ∧ ¬HasEscape cs := by
  have hshort := (length_percentDecode piece).1
  rw [hread] at hshort
  obtain rfl := eq_of_sublist_of_length_utf8_le h hshort
  exact ⟨rfl, percentDecode_eq_utf8_iff.mp hread⟩

/-! ### Cleaning -/

/-- What cleaning keeps of a string, which stands at the end of the reference or before it. -/
def kept (atEnd : Bool) (cs : List Char) : List Char :=
  (if atEnd then cs.rdropWhile fun c => c.toNat ≤ 0x20 else cs).filter fun c =>
    c ∉ ['\t', '\n', '\r']

/-- What is kept of an inserted text is part of it. -/
theorem kept_sublist (atEnd : Bool) (cs : List Char) : (kept atEnd cs).Sublist cs := by
  cases atEnd with
  | false => exact List.filter_sublist
  | true =>
    exact List.filter_sublist.trans (List.rdropWhile_prefix _ _).sublist

/-- Everything is kept if there are no tabs and line breaks and no blanks at the end. -/
theorem kept_eq_self_iff {atEnd : Bool} {cs : List Char} :
    kept atEnd cs = cs ↔ (∀ c ∈ cs, c ∉ ['\t', '\n', '\r']) ∧
      (atEnd = true → ∀ c ∈ cs.getLast?, 0x20 < c.toNat) := by
  have htrim : (cs.rdropWhile fun c => c.toNat ≤ 0x20) = cs ↔
      ∀ c ∈ cs.getLast?, 0x20 < c.toNat := by
    rw [List.rdropWhile_eq_self_iff]
    cases cs using List.reverseRecOn with
    | nil => simp
    | append_singleton cs c => simp
  have hfilter : (cs.filter fun c => c ∉ ['\t', '\n', '\r']) = cs ↔
      ∀ c ∈ cs, c ∉ ['\t', '\n', '\r'] := by
    simp only [List.filter_eq_self, decide_eq_true_eq]
  cases atEnd with
  | false =>
    have hkept : kept false cs = cs.filter fun c => c ∉ ['\t', '\n', '\r'] := rfl
    rw [hkept, hfilter]
    simp
  | true =>
    have hkept : kept true cs =
        (cs.rdropWhile fun c => c.toNat ≤ 0x20).filter fun c => c ∉ ['\t', '\n', '\r'] := rfl
    rw [← hfilter, ← htrim, hkept]
    constructor
    · intro h
      have htrimmed : (cs.rdropWhile fun c => c.toNat ≤ 0x20) = cs := by
        refine (List.rdropWhile_prefix _ _).sublist.eq_of_length_le ?_
        have hlength := List.length_filter_le (fun c => decide (c ∉ ['\t', '\n', '\r']))
          (cs.rdropWhile fun c => c.toNat ≤ 0x20)
        rwa [h] at hlength
      rw [htrimmed] at h
      exact ⟨h, fun _ => htrimmed⟩
    · rintro ⟨hclean, htrimmed⟩
      rw [htrimmed rfl, hclean]

/-- Trimming the end of a text does not reach into a beginning that has nothing to trim. -/
theorem rdropWhile_append_of_forall {p : Char → Bool} {lead : List Char}
    (h : ∀ c ∈ lead, p c = false) (cs : List Char) :
    (lead ++ cs).rdropWhile p = lead ++ cs.rdropWhile p := by
  induction cs using List.reverseRecOn with
  | nil =>
    rw [List.append_nil, List.rdropWhile_nil, List.append_nil, List.rdropWhile_eq_self_iff]
    intro hne
    simp [h _ (List.getLast_mem hne)]
  | append_singleton cs c ih =>
    rw [← List.append_assoc]
    cases hc : p c with
    | true => rw [List.rdropWhile_concat_pos _ _ _ hc, List.rdropWhile_concat_pos _ _ _ hc, ih]
    | false =>
      have hneg : ¬p c = true := by simp [hc]
      rw [List.rdropWhile_concat_neg _ _ _ hneg, List.rdropWhile_concat_neg _ _ _ hneg,
        List.append_assoc]

/-- Cleaning a reference in which printable text stands around a string. -/
theorem clean_append {lead cs tail : List Char} (hne : lead ≠ [])
    (hlead : ∀ c ∈ lead, 0x20 < c.toNat) (htail : ∀ c ∈ tail, 0x20 < c.toNat) :
    clean (lead ++ (cs ++ tail)) = lead ++ (kept tail.isEmpty cs ++ tail) := by
  have hblank : ∀ c ∈ lead, decide (c.toNat ≤ 0x20) = false := by
    intro c hc
    simpa using hlead c hc
  have hdrop : ((lead ++ (cs ++ tail)).dropWhile fun c => c.toNat ≤ 0x20) =
      lead ++ (cs ++ tail) := by
    obtain ⟨c, rest, rfl⟩ := List.exists_cons_of_ne_nil hne
    have hc := hblank c (by simp)
    rw [List.cons_append, List.dropWhile_cons_of_neg]
    simpa using hc
  have hrdrop : ((cs ++ tail).rdropWhile fun c => c.toNat ≤ 0x20) =
      (if tail.isEmpty then cs.rdropWhile fun c => c.toNat ≤ 0x20 else cs) ++ tail := by
    cases tail using List.reverseRecOn with
    | nil => simp
    | append_singleton tail c =>
      have hc := htail c (by simp)
      rw [← List.append_assoc, List.rdropWhile_concat_neg _ _ _ (by simpa using hc)]
      simp
  rw [clean, hdrop, rdropWhile_append_of_forall hblank, hrdrop, List.filter_append,
    List.filter_append, filter_eq_self_of_printable hlead, filter_eq_self_of_printable htail,
    kept]

/-! ### The segments of the reference -/

/-- Names that stand for themselves in a path. -/
def AreNames (names : List (List Char)) : Prop :=
  ∀ name ∈ names, name ≠ [] ∧ (∀ c ∈ name, isPlain c = true) ∧ ¬IsDot name

/-- A reference with a string between names. -/
def insertion (before : List (List Char)) (cs : List Char) (after : List (List Char)) :
    List Char :=
  (before.flatMap fun name => name ++ ['/']) ++ (cs ++ after.flatMap fun name => '/' :: name)

section

variable {escapes : Char → Bool} {special : Bool} {before after : List (List Char)}

/-- Segments that precede the inserted text are split off. -/
theorem splitOnP_before (h : AreNames before) (cs : List Char) :
    ((before.flatMap fun name => name ++ ['/']) ++ cs).splitOnP (isSeparator special) =
      before ++ cs.splitOnP (isSeparator special) := by
  induction before with
  | nil => rfl
  | cons name before ih =>
    have hname : ∀ c ∈ name, isSeparator special c = false := by
      intro c hc
      have hne := ne_of_isPlain ((h name (by simp)).2.1 c hc)
      simp [isSeparator, hne]
    have hslash : isSeparator special '/' = true := by simp [isSeparator]
    rw [List.flatMap_cons, List.append_assoc, List.append_assoc, List.singleton_append,
      List.splitOnP_append_cons_of_forall_mem hname '/' hslash,
      ih fun name hname => h name (by simp [hname]), List.cons_append]

/-- Segments that follow the inserted text are split off. -/
theorem splitOnP_after (h : AreNames after) (cs : List Char) :
    (cs ++ after.flatMap fun name => '/' :: name).splitOnP (isSeparator special) =
      cs.splitOnP (isSeparator special) ++ after := by
  induction after generalizing cs with
  | nil => simp
  | cons name after ih =>
    have hname : ∀ c ∈ name, isSeparator special c = false := by
      intro c hc
      have hne := ne_of_isPlain ((h name (by simp)).2.1 c hc)
      simp [isSeparator, hne]
    have hslash : isSeparator special '/' = true := by simp [isSeparator]
    rw [List.flatMap_cons, List.cons_append, List.splitOnP_append_cons cs _ hslash,
      ih (fun name hname => h name (by simp [hname])) name,
      List.splitOnP_eq_singleton hname, List.singleton_append]

/-- The fixed beginning of a path has no blanks, queries or fragments. -/
theorem printable_before (h : AreNames before) :
    ∀ c ∈ before.flatMap fun name => name ++ ['/'], 0x20 < c.toNat ∧ c ≠ '?' ∧ c ≠ '#' := by
  intro c hc
  obtain ⟨name, hname, hc⟩ := List.mem_flatMap.mp hc
  rcases List.mem_append.mp hc with hc | hc
  · have hplain := (h name hname).2.1 c hc
    have hne := ne_of_isPlain hplain
    exact ⟨lt_toNat_of_not_inPathSet (inPathSet_of_isPlain hplain), hne.2.2.2.1, hne.2.2.2.2⟩
  · rw [List.mem_singleton.mp hc]
    decide

/-- Nor has its fixed end. -/
theorem printable_after (h : AreNames after) :
    ∀ c ∈ after.flatMap fun name => '/' :: name, 0x20 < c.toNat ∧ c ≠ '?' ∧ c ≠ '#' := by
  intro c hc
  obtain ⟨name, hname, hc⟩ := List.mem_flatMap.mp hc
  rcases List.mem_cons.mp hc with rfl | hc
  · decide
  · have hplain := (h name hname).2.1 c hc
    have hne := ne_of_isPlain hplain
    exact ⟨lt_toNat_of_not_inPathSet (inPathSet_of_isPlain hplain), hne.2.2.2.1, hne.2.2.2.2⟩

/-- The fixed segments of a path are written as they are. -/
theorem map_encodeSegment_names (hescapes : EscapesPath escapes) {names : List (List Char)}
    (h : AreNames names) : names.map (encodeSegment escapes) = names := by
  have heach : ∀ name ∈ names, encodeSegment escapes name = name := fun name hname =>
    hescapes.encodeSegment_eq (h name hname).2.1
  exact (List.map_congr_left heach).trans (List.map_id _)

/-- The names are segments of the reference. -/
theorem resolveReference_insertion (hescapes : EscapesPath escapes) (hne : before ≠ [])
    (hbefore : AreNames before) (hafter : AreNames after) (directory : List (List Char))
    (cs : List Char) :
    resolveReference escapes special directory (insertion before cs after) =
      some (resolve directory (before ++
        ((pathPart (kept after.isEmpty cs ++ after.flatMap fun name => '/' :: name)).splitOnP
          (isSeparator special)).map (encodeSegment escapes))) := by
  have hlead : (before.flatMap fun name => name ++ ['/']) ≠ [] := by
    obtain ⟨name, rest, rfl⟩ := List.exists_cons_of_ne_nil hne
    simp
  have hempty : (after.flatMap fun name => '/' :: name).isEmpty = after.isEmpty := by
    cases after <;> simp
  have hclean : clean (insertion before cs after) =
      (before.flatMap fun name => name ++ ['/']) ++
        (kept after.isEmpty cs ++ after.flatMap fun name => '/' :: name) := by
    rw [insertion, clean_append hlead (fun c hc => (printable_before hbefore c hc).1)
      fun c hc => (printable_after hafter c hc).1, hempty]
  have hrelative : isPathRelative special ((before.flatMap fun name => name ++ ['/']) ++
      (kept after.isEmpty cs ++ after.flatMap fun name => '/' :: name)) = true := by
    obtain ⟨name, rest, rfl⟩ := List.exists_cons_of_ne_nil hne
    obtain ⟨hname, hplain, -⟩ := hbefore name (by simp)
    obtain ⟨c, name, rfl⟩ := List.exists_cons_of_ne_nil hname
    have hc := ne_of_isPlain (hplain c (by simp))
    have hcolon : ':' ∉ c :: name := fun hmem => (ne_of_isPlain (hplain ':' hmem)).2.2.1 rfl
    have hscheme := hasScheme_append_slash hcolon ((rest.flatMap fun name => name ++ ['/']) ++
      (kept after.isEmpty cs ++ after.flatMap fun name => '/' :: name))
    rw [List.flatMap_cons, List.append_assoc, List.append_assoc, List.singleton_append,
      isPathRelative, hscheme, List.cons_append, List.head?_cons, Option.any_some]
    have hsep : isSeparator special c = false := by simp [isSeparator, hc]
    simp [hsep, hc]
  have hpath : pathPart ((before.flatMap fun name => name ++ ['/']) ++
      (kept after.isEmpty cs ++ after.flatMap fun name => '/' :: name)) =
      (before.flatMap fun name => name ++ ['/']) ++
        pathPart (kept after.isEmpty cs ++ after.flatMap fun name => '/' :: name) := by
    apply List.takeWhile_append_of_pos
    intro c hc
    simp [(printable_before hbefore c hc).2]
  rw [resolveReference, hclean, if_pos hrelative, hpath, splitOnP_before hbefore, List.map_append,
    map_encodeSegment_names hescapes hbefore]

end

/-! ### What comes out -/

/-- Segments before the last do not take part in the removal of a trailing dot. -/
theorem settled_append (before : List (List Char)) {segments : List (List Char)}
    (h : segments ≠ []) : settled (before ++ segments) = before ++ settled segments := by
  induction before with
  | nil => rfl
  | cons segment before ih =>
    obtain ⟨next, rest, heq⟩ := List.exists_cons_of_ne_nil
      (show before ++ segments ≠ [] by simp [h])
    rw [List.cons_append, heq, settled, ← heq, ih, List.cons_append]

/-- Settling segments adds at most an empty one. -/
theorem mem_settled {segments : List (List Char)} {segment : List Char}
    (h : segment ∈ settled segments) : segment = [] ∨ segment ∈ segments := by
  induction segments with
  | nil => exact absurd h (List.not_mem_nil)
  | cons first rest ih =>
    cases rest with
    | nil =>
      rw [settled, List.mem_singleton] at h
      split_ifs at h
      · exact .inl h
      · exact .inr (by simp [h])
    | cons next rest =>
      rw [settled, List.mem_cons] at h
      rcases h with rfl | h
      · exact .inr (by simp)
      · rcases ih h with h | h
        · exact .inl h
        · exact .inr (List.mem_cons_of_mem _ h)

/-- Segments without dots stay as they are. -/
theorem settled_of_forall_not_isDot {segments : List (List Char)}
    (h : ∀ segment ∈ segments, ¬IsDot segment) : settled segments = segments := by
  induction segments with
  | nil => rfl
  | cons segment rest ih =>
    cases rest with
    | nil => rw [settled, if_neg (h segment (by simp))]
    | cons next rest => rw [settled, ih fun s hs => h s (List.mem_cons_of_mem _ hs)]

/-- Before the same end stands a member of what was there before. -/
theorem mem_of_cons_sublist_append {α : Type} {x : α} {front back : List α}
    (h : (x :: back).Sublist (front ++ back)) : x ∈ front := by
  have hrev := h.reverse.drop back.length
  have hlength : back.reverse.length = back.length := List.length_reverse
  rw [List.reverse_cons, List.reverse_append, ← hlength, List.drop_left, List.drop_left] at hrev
  simpa using hrev.subset (List.mem_singleton_self x)

/-- The segments that follow the names in a resolved path are segments of the reference. -/
theorem sublist_settled {directory before segments out : List (List Char)}
    (h : resolve directory (before ++ segments) = directory ++ (before ++ out))
    (hne : segments ≠ []) : out.Sublist (settled segments) := by
  obtain ⟨n, left, hleft, hsub⟩ := resolve_eq_take_append directory (before ++ segments)
  rw [settled_append before hne] at hsub
  rw [hleft] at h
  have hout : (before ++ out).Sublist (before ++ settled segments) := by
    have hdrop := congrArg (List.drop directory.length) h
    rw [List.drop_left, List.drop_append] at hdrop
    have hnil : (directory.take n).drop directory.length = [] := by
      rw [List.drop_eq_nil_iff, List.length_take]
      exact min_le_right _ _
    rw [hnil, List.nil_append] at hdrop
    rw [← hdrop]
    exact (List.drop_sublist _ _).trans hsub
  have hrest := hout.drop before.length
  rwa [List.drop_left, List.drop_left] at hrest

section

variable {escapes : Char → Bool} {special : Bool} {before after : List (List Char)}

/-- A segment that is kept in its place by resolution is no dot segment. -/
theorem not_isDot_of_resolve_eq {directory : List (List Char)} {segment : List Char}
    (h : resolve directory (before ++ segment :: after) =
      directory ++ (before ++ segment :: after)) : ¬IsDot segment := by
  intro hdot
  by_cases hafter : after = []
  · obtain ⟨rest, hrest⟩ := resolve_append_dot before hdot directory
    rw [hafter, hrest, ← List.append_assoc] at h
    have hlast : segment = [] := by simpa using (List.append_inj_right' h rfl).symm
    rw [hlast] at hdot
    exact not_isDot_nil hdot
  · have hshort := length_resolve_lt before hdot hafter directory
    rw [h, List.length_append] at hshort
    exact lt_irrefl _ hshort

/-- A query or a fragment in a string takes the names behind it out of the path. -/
theorem pathPart_append (hafter : AreNames after) (ks : List Char) :
    pathPart (ks ++ after.flatMap fun name => '/' :: name) =
      if pathPart ks = ks then ks ++ after.flatMap fun name => '/' :: name else pathPart ks := by
  split_ifs with hfree
  · rw [pathPart, List.takeWhile_eq_self_iff] at hfree ⊢
    intro c hc
    rcases List.mem_append.mp hc with hc | hc
    · exact hfree c hc
    · simp [(printable_after hafter c hc).2]
  · have hshort : ¬(ks.takeWhile fun c => c ≠ '?' && c ≠ '#').length = ks.length := fun hlength =>
      hfree ((List.takeWhile_prefix _).sublist.eq_of_length hlength)
    rw [pathPart, List.takeWhile_append, if_neg hshort, pathPart]

/-- The segment before the last names is empty or comes from the string. -/
theorem exists_piece (hescapes : EscapesPath escapes) (hafter : AreNames after)
    {ks segment : List Char}
    (h : (segment :: after).Sublist (settled
      (((pathPart (ks ++ after.flatMap fun name => '/' :: name)).splitOnP
        (isSeparator special)).map (encodeSegment escapes)))) :
    segment = [] ∨ ∃ piece ∈ (pathPart ks).splitOnP (isSeparator special),
      segment = encodeSegment escapes piece := by
  have hmap : ∀ {pieces : List (List Char)}, segment ∈ pieces.map (encodeSegment escapes) →
      ∃ piece ∈ pieces, segment = encodeSegment escapes piece := by
    intro pieces hsegment
    obtain ⟨piece, hpiece, heq⟩ := List.mem_map.mp hsegment
    exact ⟨piece, hpiece, heq.symm⟩
  rw [pathPart_append hafter] at h
  split_ifs at h with hwhole
  · rw [splitOnP_after hafter, List.map_append, map_encodeSegment_names hescapes hafter] at h
    rw [hwhole]
    by_cases hnil : after = []
    · subst hnil
      rw [List.append_nil] at h
      exact (mem_settled (h.subset (by simp))).imp_right hmap
    · rw [settled_append _ hnil, settled_of_forall_not_isDot fun name hname =>
        (hafter name hname).2.2] at h
      exact .inr (hmap (mem_of_cons_sublist_append h))
  · exact (mem_settled (h.subset (by simp))).imp_right hmap

/-- Resolution has nothing in the string to cut, to drop or to decode. -/
structure Survives (special atEnd : Bool) (cs : List Char) : Prop where
  whole : ∀ c ∈ cs, isSeparator special c = false ∧ c ∉ ['?', '#', '\t', '\n', '\r']
  ends : atEnd = true → ∀ c ∈ cs.getLast?, 0x20 < c.toNat
  literal : ¬HasEscape cs
  notDots : cs ≠ ['.'] ∧ cs ≠ ['.', '.']

/-- The empty text survives. -/
theorem survives_nil (special atEnd : Bool) : Survives special atEnd [] where
  whole := by simp
  ends := by simp
  literal := not_hasEscape_nil
  notDots := by simp

/-- A text that survives is kept as it is. -/
theorem Survives.kept {atEnd : Bool} {cs : List Char} (h : Survives special atEnd cs) :
    kept atEnd cs = cs := by
  refine kept_eq_self_iff.mpr ⟨fun c hc hmem => ?_, h.ends⟩
  have hne := (h.whole c hc).2
  simp only [List.mem_cons, not_or] at hmem hne
  tauto

/-- A text that survives is part of the path as a whole. -/
theorem Survives.pathPart {atEnd : Bool} {cs : List Char} (h : Survives special atEnd cs) :
    pathPart cs = cs := by
  refine List.takeWhile_eq_self_iff.mpr fun c hc => ?_
  have hne := (h.whole c hc).2
  simp only [List.mem_cons, not_or] at hne
  simp [hne.1, hne.2.1]

/-- An uncut string is one segment before the names. -/
theorem segments_of_uncut (hescapes : EscapesPath escapes) (hafter : AreNames after)
    {cs : List Char} (hpath : pathPart cs = cs)
    (hsep : ∀ c ∈ cs, isSeparator special c = false) :
    ((pathPart (cs ++ after.flatMap fun name => '/' :: name)).splitOnP
      (isSeparator special)).map (encodeSegment escapes) =
        encodeSegment escapes cs :: after := by
  rw [pathPart_append hafter, if_pos hpath, splitOnP_after hafter,
    List.splitOnP_eq_singleton hsep, List.map_append, map_encodeSegment_names hescapes hafter]
  rfl

/-- A string without escapes is stored as a dot segment only if it is one. -/
theorem Survives.not_isDot {atEnd : Bool} {cs : List Char} (h : Survives special atEnd cs)
    (hescapes : EscapesPath escapes) : ¬IsDot (encodeSegment escapes cs) := by
  have hread : percentDecode (encodeSegment escapes cs) = utf8 cs := by
    rw [percentDecode_encodeSegment hescapes, percentDecode_of_not_hasEscape h.literal]
  rintro (hdot | hdot)
  · rw [percentDecode_of_isSingleDot hdot] at hread
    exact h.notDots.1 (utf8_injective (hread.symm.trans (by decide)))
  · rw [percentDecode_of_isDoubleDot hdot] at hread
    exact h.notDots.2 (utf8_injective (hread.symm.trans (by decide)))

/-- The dots are stored as they are. -/
theorem isDot_encodeSegment_dots (hescapes : EscapesPath escapes) :
    IsDot (encodeSegment escapes ['.']) ∧ IsDot (encodeSegment escapes ['.', '.']) := by
  have hplain : isPlain '.' = true := by decide
  rw [hescapes.encodeSegment_eq (by simpa using hplain),
    hescapes.encodeSegment_eq (by simpa using hplain)]
  decide

/-- A string between names comes out as one segment that reads as the string if and only if it
survives resolution. -/
theorem insertion_iff (hescapes : EscapesPath escapes) (hne : before ≠ [])
    (hbefore : AreNames before) (hafter : AreNames after) (directory : List (List Char))
    (cs : List Char) :
    (∃ segment, resolveReference escapes special directory (insertion before cs after) =
        some (directory ++ (before ++ segment :: after)) ∧ percentDecode segment = utf8 cs) ↔
      Survives special after.isEmpty cs := by
  rw [resolveReference_insertion hescapes hne hbefore hafter]
  constructor
  · rintro ⟨segment, hresolve, hread⟩
    rw [Option.some.injEq] at hresolve
    have hpieces := sublist_settled hresolve (by simp)
    rcases exists_piece hescapes hafter hpieces with rfl | ⟨piece, hpiece, rfl⟩
    · obtain rfl : cs = [] := utf8_injective (hread.symm.trans (by decide))
      exact survives_nil _ _
    · rw [percentDecode_encodeSegment hescapes] at hread
      obtain ⟨hpart, hfree⟩ := sublist_of_mem_splitOnP hpiece
      have hpath : (pathPart (kept after.isEmpty cs)).Sublist (kept after.isEmpty cs) :=
        (List.takeWhile_prefix _).sublist
      have hkept := kept_sublist after.isEmpty cs
      obtain ⟨rfl, hliteral⟩ := eq_of_percentDecode_eq_utf8 ((hpart.trans hpath).trans hkept) hread
      -- The piece is the whole string, so nothing was dropped or cut on the way.
      have hwhole := hkept.antisymm (hpart.trans hpath)
      rw [hwhole] at hpart hresolve
      have huncut := (List.takeWhile_prefix _).sublist.antisymm hpart
      obtain ⟨hbreaks, hends⟩ := kept_eq_self_iff.mp hwhole
      have hmarks := List.takeWhile_eq_self_iff.mp huncut
      rw [segments_of_uncut hescapes hafter huncut hfree] at hresolve
      have hdot := not_isDot_of_resolve_eq hresolve
      refine ⟨fun c hc => ⟨hfree c hc, ?_⟩, hends, hliteral, ?_, ?_⟩
      · have hmark := hmarks c hc
        have hbreak := hbreaks c hc
        simp only [Bool.and_eq_true, decide_eq_true_eq] at hmark
        simp only [List.mem_cons, not_or] at hbreak ⊢
        tauto
      · rintro rfl
        exact hdot (isDot_encodeSegment_dots hescapes).1
      · rintro rfl
        exact hdot (isDot_encodeSegment_dots hescapes).2
  · intro h
    refine ⟨encodeSegment escapes cs, ?_, ?_⟩
    · rw [h.kept, segments_of_uncut hescapes hafter h.pathPart fun c hc => (h.whole c hc).1,
        resolve_of_forall_not_isDot]
      intro segment hsegment
      rcases List.mem_append.mp hsegment with hmem | hmem
      · exact (hbefore segment hmem).2.2
      · rcases List.mem_cons.mp hmem with rfl | hmem
        · exact h.not_isDot hescapes
        · exact (hafter segment hmem).2.2
    · rw [percentDecode_encodeSegment hescapes, percentDecode_of_not_hasEscape h.literal]

end

end Encoding
