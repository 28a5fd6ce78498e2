import Mathlib.Data.List.Basic

/-!
# The first selected element

A search stops at the first element that it selects and then looks at nothing else. What is
found in a list follows from its first element, and from either half of a concatenation.
-/

namespace Collections

variable {α β : Type}

/-- The first element of the list that `sel` selects is related to `b`. -/
def FirstWith (sel : α → Prop) (p : α → β → Prop) (l : List α) (b : β) : Prop :=
  ∃ before a after, l = before ++ a :: after ∧ (∀ other ∈ before, ¬sel other) ∧ sel a ∧ p a b

variable {sel : α → Prop} {p : α → β → Prop}

/-- Nothing comes first in the empty list. -/
@[simp] theorem firstWith_nil {b : β} : ¬FirstWith sel p [] b := by
  rintro ⟨before, a, after, hl, -⟩
  simp at hl

/-- The first selected item is the head, or that of the tail where the head is not selected. -/
theorem firstWith_cons {a : α} {l : List α} {b : β} :
    FirstWith sel p (a :: l) b ↔ sel a ∧ p a b ∨ ¬sel a ∧ FirstWith sel p l b := by
  constructor
  · rintro ⟨before, a', after, hl, hbefore, ha', hb⟩
    cases before with
    | nil =>
      obtain ⟨rfl, rfl⟩ := List.cons.inj hl
      exact .inl ⟨ha', hb⟩
    | cons first before =>
      obtain ⟨rfl, rfl⟩ := List.cons.inj hl
      refine .inr ⟨hbefore a (by simp), before, a', after, rfl, fun other hother => ?_, ha', hb⟩
      exact hbefore other (by simp [hother])
  · rintro (⟨ha, hb⟩ | ⟨ha, before, a', after, rfl, hbefore, ha', hb⟩)
    · exact ⟨[], a, l, rfl, by simp, ha, hb⟩
    · refine ⟨a :: before, a', after, rfl, fun other hother => ?_, ha', hb⟩
      rcases List.mem_cons.mp hother with rfl | hother
      · exact ha
      · exact hbefore other hother

/-- Elements that are not selected can be skipped. -/
theorem firstWith_append_of_forall_not {before l : List α} {b : β}
    (h : ∀ other ∈ before, ¬sel other) :
    FirstWith sel p (before ++ l) b ↔ FirstWith sel p l b := by
  induction before with
  | nil => rfl
  | cons a before ih =>
    have ha : ¬sel a := h a (by simp)
    have hrest := ih fun other hother => h other (by simp [hother])
    rw [List.cons_append, firstWith_cons, hrest]
    simp only [ha, false_and, not_false_eq_true, true_and, false_or]

/-- Nothing after a selected element matters. -/
theorem firstWith_append_of_exists {before l : List α} {b : β} (h : ∃ a ∈ before, sel a) :
    FirstWith sel p (before ++ l) b ↔ FirstWith sel p before b := by
  induction before with
  | nil => simp at h
  | cons a before ih =>
    rw [List.cons_append, firstWith_cons, firstWith_cons]
    by_cases ha : sel a
    · simp only [ha, not_true, false_and, or_false]
    · have hrest : ∃ a ∈ before, sel a := by
        obtain ⟨a', ha', hsel⟩ := h
        rcases List.mem_cons.mp ha' with rfl | ha'
        · exact absurd hsel ha
        · exact ⟨a', ha', hsel⟩
      rw [ih hrest]

/-- A list with a selected element splits at the first one. -/
theorem exists_first (sel : α → Prop) (l : List α) :
    (∀ a ∈ l, ¬sel a) ∨
      ∃ before a after, l = before ++ a :: after ∧ (∀ other ∈ before, ¬sel other) ∧ sel a := by
  induction l with
  | nil => exact .inl (by simp)
  | cons a l ih =>
    by_cases ha : sel a
    · exact .inr ⟨[], a, l, rfl, by simp, ha⟩
    · obtain hnone | ⟨before, a', after, rfl, hbefore, ha'⟩ := ih
      · left
        intro other hother
        rcases List.mem_cons.mp hother with rfl | hother
        · exact ha
        · exact hnone other hother
      · refine .inr ⟨a :: before, a', after, rfl, fun other hother => ?_, ha'⟩
        rcases List.mem_cons.mp hother with rfl | hother
        · exact ha
        · exact hbefore other hother

/-- The relation finds at most one value when it relates each element to at most one. -/
theorem FirstWith.unique {l : List α} {b b' : β}
    (hp : ∀ a b b', p a b → p a b' → b = b') (h : FirstWith sel p l b)
    (h' : FirstWith sel p l b') : b = b' := by
  induction l with
  | nil => exact absurd h firstWith_nil
  | cons a l ih =>
    rw [firstWith_cons] at h h'
    rcases h with ⟨ha, hb⟩ | ⟨ha, h⟩
    · rcases h' with ⟨-, hb'⟩ | ⟨ha', -⟩
      · exact hp a b b' hb hb'
      · exact absurd ha ha'
    · rcases h' with ⟨ha', -⟩ | ⟨-, h'⟩
      · exact absurd ha' ha
      · exact ih h h'

/-- `List.find?` is the search that returns the element itself. -/
theorem firstWith_iff_find? {f : α → Bool} (hf : ∀ a, f a = true ↔ sel a) {l : List α} {b : β} :
    FirstWith sel p l b ↔ ∃ a, l.find? f = some a ∧ p a b := by
  constructor
  · rintro ⟨before, a, after, rfl, hbefore, ha, hb⟩
    refine ⟨a, List.find?_eq_some_iff_append.mpr ⟨(hf a).mpr ha, before, after, rfl, ?_⟩, hb⟩
    intro other hother
    rw [Bool.not_eq_true', Bool.eq_false_iff, ne_eq, hf]
    exact hbefore other hother
  · rintro ⟨a, hfind, hb⟩
    obtain ⟨ha, before, after, rfl, hbefore⟩ := List.find?_eq_some_iff_append.mp hfind
    refine ⟨before, a, after, rfl, fun other hother => ?_, (hf a).mp ha, hb⟩
    rw [← hf, ← ne_eq, ← Bool.eq_false_iff, ← Bool.not_eq_true']
    exact hbefore other hother

end Collections
