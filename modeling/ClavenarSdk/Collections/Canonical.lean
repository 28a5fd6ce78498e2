import Mathlib.Data.List.Destutter
import Mathlib.Data.List.Sort

/-!
# Canonical lists

Sorting a list and then dropping every element equal to the one before it leaves the strictly
increasing list of its members. Two lists have the same canonical form exactly when they have
the same members.
-/

namespace Collections

/-- The two lists have the same members, in any order and any number of times. -/
def SameMembers {α : Type} (l l' : List α) : Prop := ∀ a, a ∈ l ↔ a ∈ l'

/-- Having the same members goes both ways. -/
theorem SameMembers.symm {α : Type} {l l' : List α} (h : SameMembers l l') :
    SameMembers l' l := fun a => (h a).symm

/-- Lists with the members of a third one have the same members. -/
theorem SameMembers.trans {α : Type} {l l' l'' : List α} (h : SameMembers l l')
    (h' : SameMembers l' l'') : SameMembers l l'' := fun a => (h a).trans (h' a)

/-! ### Dropping adjacent repeats -/

section

variable {α : Type} [DecidableEq α]

/-- The list without the elements that repeat the one right before them. -/
def dedupAdjacent (l : List α) : List α := l.destutter (· ≠ ·)

/-- Dropping adjacent repetitions keeps every member. -/
theorem mem_destutter'_ne {a b : α} {l : List α} :
    a ∈ l.destutter' (· ≠ ·) b ↔ a = b ∨ a ∈ l := by
  induction l generalizing b with
  | nil => simp
  | cons c l ih =>
    by_cases hbc : b = c
    · rw [List.destutter'_cons_neg l (not_not.mpr hbc), ih, List.mem_cons, hbc]
      tauto
    · rw [List.destutter'_cons_pos l hbc, List.mem_cons, ih, List.mem_cons]

/-- Only repeats are dropped: an element that goes stays in the list at an earlier place. -/
theorem mem_dedupAdjacent {a : α} {l : List α} : a ∈ dedupAdjacent l ↔ a ∈ l := by
  cases l with
  | nil => rfl
  | cons b l =>
    rw [dedupAdjacent, List.destutter_cons', mem_destutter'_ne, List.mem_cons]

end

/-! ### The canonical form -/

variable {α : Type} [LinearOrder α]

/-- In a sorted list all repeats are adjacent. -/
theorem sortedLT_dedupAdjacent {l : List α} (h : l.SortedLE) : (dedupAdjacent l).SortedLT := by
  have hle : (dedupAdjacent l).IsChain (· ≤ ·) :=
    (h.pairwise.sublist (l.destutter_sublist _)).isChain
  have hne : (dedupAdjacent l).IsChain (· ≠ ·) := l.isChain_destutter _
  have hlt : (dedupAdjacent l).IsChain (· < ·) := by
    generalize dedupAdjacent l = m at hle hne
    induction m with
    | nil => exact .nil
    | cons a m ih =>
      cases m with
      | nil => exact .singleton a
      | cons b m =>
        rw [List.isChain_cons_cons] at hle hne ⊢
        exact ⟨lt_of_le_of_ne hle.1 hne.1, ih hle.2 hne.2⟩
  exact hlt.sortedLT

/-- The strictly increasing list of the members of a list. -/
def canonical (l : List α) : List α := dedupAdjacent (l.insertionSort (· ≤ ·))

/-- The canonical list has the members of the list. -/
theorem mem_canonical {a : α} {l : List α} : a ∈ canonical l ↔ a ∈ l := by
  rw [canonical, mem_dedupAdjacent, List.mem_insertionSort]

/-- A list has the same members as its canonical one. -/
theorem sameMembers_canonical (l : List α) : SameMembers (canonical l) l := fun _ => mem_canonical

/-- The canonical list is strictly sorted. -/
theorem sortedLT_canonical (l : List α) : (canonical l).SortedLT :=
  sortedLT_dedupAdjacent (List.pairwise_insertionSort (· ≤ ·) l).sortedLE

/-- A strictly increasing list is determined by its members, so the canonical form is the set of
the members and nothing else. -/
theorem canonical_eq_iff {l l' : List α} : canonical l = canonical l' ↔ SameMembers l l' := by
  constructor
  · intro h a
    rw [← mem_canonical, h, mem_canonical]
  · intro h
    apply (sortedLT_canonical l).eq_of_mem_iff (sortedLT_canonical l')
    intro a
    rw [mem_canonical, mem_canonical, h a]

end Collections
