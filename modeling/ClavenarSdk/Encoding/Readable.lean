import Mathlib.Data.List.Forall2

/-!
# Unique readability of concatenated texts

A nested text is built by writing one encoded part after another, with separators and
brackets between them. It determines its parts when every part can be read off the front
of whatever follows it. The rules below derive this for separated lists, for escaped text
up to a closing symbol, and for parts that avoid the symbols which may follow them.
-/

namespace Encoding

variable {χ α β : Type}

/-- The text is empty or begins with a symbol that may follow a complete part. -/
def StopsAt (stop : χ → Prop) (text : List χ) : Prop := ∀ c ∈ text.head?, stop c

/-- A text stops where its first character does. -/
@[simp] theorem stopsAt_cons {stop : χ → Prop} {c : χ} {text : List χ} :
    StopsAt stop (c :: text) ↔ stop c := by
  simp [StopsAt]

/-- The encoding of `a` can be told apart, up to `rel`, from the encoding of every other
part in `dom`, at the front of a text that stops properly. -/
def ReadsAs (stop : χ → Prop) (dom : α → Prop) (enc : α → List χ) (rel : α → α → Prop)
    (a : α) : Prop :=
  ∀ b, dom b → ∀ s t, StopsAt stop s → StopsAt stop t → enc a ++ s = enc b ++ t →
    rel a b ∧ s = t

/-- Two texts that avoid the stopping symbols end at the first of them. -/
theorem append_inj_of_avoids {stop : χ → Prop} {l l' s t : List χ} (hl : ∀ c ∈ l, ¬stop c)
    (hl' : ∀ c ∈ l', ¬stop c) (hs : StopsAt stop s) (ht : StopsAt stop t)
    (h : l ++ s = l' ++ t) : l = l' ∧ s = t := by
  induction l generalizing l' with
  | nil =>
    cases l' with
    | nil => exact ⟨rfl, h⟩
    | cons c l' =>
      have hc : stop c := hs c (by simp [show s = c :: (l' ++ t) from h])
      exact absurd hc (hl' c (by simp))
  | cons c l ih =>
    cases l' with
    | nil =>
      have hc : stop c := ht c (by simp [show t = c :: (l ++ s) from h.symm])
      exact absurd hc (hl c (by simp))
    | cons c' l' =>
      obtain ⟨rfl, htail⟩ := List.cons.inj h
      obtain ⟨rfl, rfl⟩ := ih (fun c hc => hl c (by simp [hc]))
        (fun c hc => hl' c (by simp [hc])) htail
      exact ⟨rfl, rfl⟩

/-- Every symbol is read off the front of any text: no encoding is the beginning of
another one. -/
def PrefixCode (enc : α → List χ) : Prop :=
  ∀ a b s t, enc a ++ s = enc b ++ t → a = b ∧ s = t

/-- A reader that recovers the symbol and the rest shows that the code is a prefix code. -/
theorem PrefixCode.of_reader {enc : α → List χ} {read : List χ → Option (α × List χ)}
    (h : ∀ a s, read (enc a ++ s) = some (a, s)) : PrefixCode enc := by
  intro a b s t heq
  have hread : some (a, s) = some (b, t) := by rw [← h a s, ← h b t, heq]
  simpa using hread

/-- Text in a prefix code that never begins with the closing symbol ends at that symbol. -/
theorem PrefixCode.closed {enc : α → List χ} {close : χ} (h : PrefixCode enc)
    (hclose : ∀ a, ∃ c rest, enc a = c :: rest ∧ c ≠ close) {l l' : List α} {s t : List χ}
    (heq : l.flatMap enc ++ close :: s = l'.flatMap enc ++ close :: t) : l = l' ∧ s = t := by
  induction l generalizing l' with
  | nil =>
    cases l' with
    | nil => simpa using heq
    | cons b l' =>
      obtain ⟨c, rest, hb, hne⟩ := hclose b
      simp only [List.flatMap_nil, List.nil_append, List.flatMap_cons, hb, List.cons_append,
        List.cons.injEq] at heq
      exact absurd heq.1.symm hne
  | cons a l ih =>
    cases l' with
    | nil =>
      obtain ⟨c, rest, ha, hne⟩ := hclose a
      simp only [List.flatMap_nil, List.nil_append, List.flatMap_cons, ha, List.cons_append,
        List.cons.injEq] at heq
      exact absurd heq.1 hne
    | cons b l' =>
      simp only [List.flatMap_cons, List.append_assoc] at heq
      obtain ⟨rfl, htail⟩ := h _ _ _ _ heq
      obtain ⟨rfl, rfl⟩ := ih htail
      exact ⟨rfl, rfl⟩

/-! ### Separated lists -/

/-- Parts separated by one symbol. -/
def separated (sep : χ) (parts : List (List χ)) : List χ := [sep].intercalate parts

/-- Without parts there is nothing to separate. -/
@[simp] theorem separated_nil (sep : χ) : separated sep [] = [] := rfl

/-- A single part stands alone. -/
@[simp] theorem separated_singleton (sep : χ) (part : List χ) : separated sep [part] = part := by
  simp [separated]

/-- The first part is followed by the separator and the other parts. -/
theorem separated_cons_cons (sep : χ) (part next : List χ) (parts : List (List χ)) :
    separated sep (part :: next :: parts) = part ++ sep :: separated sep (next :: parts) := by
  simp [separated]

/-- Separated parts consist of the separator and of what is in the parts. -/
theorem mem_separated {sep c : χ} {parts : List (List χ)}
    (h : c ∈ separated sep parts) : c = sep ∨ ∃ part ∈ parts, c ∈ part := by
  induction parts with
  | nil => simp at h
  | cons part rest ih =>
    cases rest with
    | nil =>
      rw [separated_singleton] at h
      exact .inr ⟨part, by simp, h⟩
    | cons next rest =>
      rw [separated_cons_cons, List.mem_append, List.mem_cons] at h
      rcases h with h | h | h
      · exact .inr ⟨part, by simp, h⟩
      · exact .inl h
      · exact (ih h).imp_right fun ⟨s, hs, hc⟩ => ⟨s, by simp [hs], hc⟩

/-- A separated list of readable parts, closed by another symbol, determines its parts.
No part may be empty or begin with the closing symbol. -/
theorem separated_closed {stop : χ → Prop} {dom : α → Prop} {enc : α → List χ}
    {rel : α → α → Prop} {sep close : χ} (hsep : stop sep) (hclose : stop close)
    (hne : sep ≠ close) (hstart : ∀ a, dom a → ∃ c rest, enc a = c :: rest ∧ c ≠ close)
    {l l' : List α} {s t : List χ} (hread : ∀ a ∈ l, ReadsAs stop dom enc rel a)
    (hl : ∀ a ∈ l, dom a) (hl' : ∀ b ∈ l', dom b)
    (heq : separated sep (l.map enc) ++ close :: s = separated sep (l'.map enc) ++ close :: t) :
    List.Forall₂ rel l l' ∧ s = t := by
  have hfront : ∀ (a : α) (l : List α) (s : List χ), dom a → ∃ c rest,
      separated sep ((a :: l).map enc) ++ close :: s = c :: rest ∧ c ≠ close := by
    intro a l s ha
    obtain ⟨c, rest, ha, hc⟩ := hstart a ha
    cases l with
    | nil => exact ⟨c, rest ++ close :: s, by simp [ha], hc⟩
    | cons b l =>
      refine ⟨c, rest ++ sep :: separated sep ((b :: l).map enc) ++ close :: s, ?_, hc⟩
      simp [separated_cons_cons, ha]
  -- The induction follows the longer of the two lists; `hread` reads the common first part.
  induction l generalizing l' with
  | nil =>
    cases l' with
    | nil => simpa using heq
    | cons b l' =>
      obtain ⟨c, rest, hb, hc⟩ := hfront b l' t (hl' b (by simp))
      rw [hb] at heq
      simp only [List.map_nil, separated_nil, List.nil_append, List.cons.injEq] at heq
      exact absurd heq.1.symm hc
  | cons a l ih =>
    cases l' with
    | nil =>
      obtain ⟨c, rest, ha, hc⟩ := hfront a l s (hl a (by simp))
      rw [ha] at heq
      simp only [List.map_nil, separated_nil, List.nil_append, List.cons.injEq] at heq
      exact absurd heq.1 hc
    | cons b l' =>
      have hfirst := hread a (by simp) b (hl' b (by simp))
      have htail := @ih l' (fun a ha => hread a (by simp [ha]))
        (fun a ha => hl a (by simp [ha])) (fun b hb => hl' b (by simp [hb]))
      cases l with
      | nil =>
        cases l' with
        | nil =>
          simp only [List.map_cons, List.map_nil, separated_singleton] at heq
          obtain ⟨hab, hst⟩ := hfirst _ _ (by simpa) (by simpa) heq
          exact ⟨.cons hab .nil, (List.cons.inj hst).2⟩
        | cons b' l' =>
          simp only [List.map_cons, List.map_nil, separated_singleton, separated_cons_cons,
            List.append_assoc, List.cons_append] at heq
          obtain ⟨_, hst⟩ := hfirst _ _ (by simpa) (by simpa) heq
          exact absurd (List.cons.inj hst).1.symm hne
      | cons a' l =>
        cases l' with
        | nil =>
          simp only [List.map_cons, List.map_nil, separated_singleton, separated_cons_cons,
            List.append_assoc, List.cons_append] at heq
          obtain ⟨_, hst⟩ := hfirst _ _ (by simpa) (by simpa) heq
          exact absurd (List.cons.inj hst).1 hne
        | cons b' l' =>
          simp only [List.map_cons, separated_cons_cons, List.append_assoc,
            List.cons_append] at heq
          obtain ⟨hab, hst⟩ := hfirst _ _ (by simpa) (by simpa) heq
          obtain ⟨hrest, rfl⟩ := htail (by simpa using (List.cons.inj hst).2)
          exact ⟨.cons hab hrest, rfl⟩

end Encoding
