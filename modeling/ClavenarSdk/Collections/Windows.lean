import Mathlib.Order.Lattice
import Mathlib.Data.List.Basic

/-!
# Consecutive windows

A list of bounds cuts an interval into half-open windows. However the bounds lie, everything in
the interval is in exactly one of them.
-/

namespace Collections

/-- The pairs of consecutive bounds. -/
def windows {α : Type} (bounds : List α) : List (α × α) := bounds.zip bounds.tail

/-- A single bound delimits no window. -/
@[simp] theorem windows_singleton {α : Type} (a : α) : windows [a] = [] := rfl

/-- The first two bounds delimit a window, and the others follow. -/
@[simp] theorem windows_cons_cons {α : Type} (a b : α) (bounds : List α) :
    windows (a :: b :: bounds) = (a, b) :: windows (b :: bounds) := rfl

/-- Windows are mapped bound by bound. -/
theorem windows_map {α β : Type} (f : α → β) (bounds : List α) :
    windows (bounds.map f) = (windows bounds).map (Prod.map f f) := by
  rw [windows, windows, ← List.map_tail, List.zip_map]

/-- Both bounds of a window are bounds. -/
theorem mem_of_mem_windows {α : Type} {bounds : List α} {w : α × α} (h : w ∈ windows bounds) :
    w.1 ∈ bounds ∧ w.2 ∈ bounds := by
  obtain ⟨hfirst, hsecond⟩ := List.of_mem_zip (a := w.1) (b := w.2) h
  exact ⟨hfirst, List.mem_of_mem_tail hsecond⟩

section

variable {α : Type} [LinearOrder α] {first : α} {rest : List α}

/-- The half-open window contains the value. -/
def InWindow (x : α) (w : α × α) : Prop := w.1 ≤ x ∧ x < w.2

instance (x : α) (w : α × α) : Decidable (InWindow x w) := inferInstanceAs (Decidable (_ ∧ _))

/-- The last of ascending bounds is the greatest. -/
theorem le_getLast (h : (first :: rest).Pairwise (· ≤ ·)) :
    first ≤ (first :: rest).getLast (List.cons_ne_nil _ _) := by
  rcases List.mem_cons.mp (List.getLast_mem (List.cons_ne_nil first rest)) with hlast | hlast
  · exact hlast.ge
  · exact List.rel_of_pairwise_cons h hlast

/-- Every value between the first and the last bound is in exactly one window, and no other
value is in any. -/
theorem countP_windows (h : (first :: rest).Pairwise (· ≤ ·)) (x : α) :
    (windows (first :: rest)).countP (fun w => InWindow x w) =
      if InWindow x (first, (first :: rest).getLast (List.cons_ne_nil _ _)) then 1 else 0 := by
  induction rest generalizing first with
  | nil =>
    have hout : ¬InWindow x (first, first) := fun hin => not_lt_of_ge hin.1 hin.2
    rw [windows_singleton, List.countP_nil, List.getLast_singleton, if_neg hout]
  | cons next rest ih =>
    have hnext : first ≤ next := List.rel_of_pairwise_cons h (by simp)
    have htail := (List.pairwise_cons.mp h).2
    have hlast := le_getLast htail
    rw [windows_cons_cons, List.countP_cons, ih htail, List.getLast_cons (List.cons_ne_nil _ _)]
    -- The first window ends where the others begin.
    rcases lt_or_ge x next with hx | hx
    · have hlater : ¬InWindow x (next, (next :: rest).getLast (List.cons_ne_nil _ _)) :=
        fun hin => not_lt_of_ge hin.1 hx
      have hsame : InWindow x (first, next) ↔
          InWindow x (first, (next :: rest).getLast (List.cons_ne_nil _ _)) :=
        ⟨fun hin => ⟨hin.1, hx.trans_le hlast⟩, fun hin => ⟨hin.1, hx⟩⟩
      simp [hlater, hsame]
    · have hearlier : ¬InWindow x (first, next) := fun hin => not_lt_of_ge hx hin.2
      have hsame : InWindow x (next, (next :: rest).getLast (List.cons_ne_nil _ _)) ↔
          InWindow x (first, (next :: rest).getLast (List.cons_ne_nil _ _)) :=
        ⟨fun hin => ⟨hnext.trans hin.1, hin.2⟩, fun hin => ⟨hx, hin.2⟩⟩
      simp [hearlier, hsame]

/-- Two half-open windows, of which the second is not empty, contain the same values only if
their bounds are the same. -/
theorem eq_of_inWindow_iff {w v : α × α} (hv : v.1 < v.2)
    (h : ∀ x, InWindow x w ↔ InWindow x v) : w = v := by
  have hstart := (h v.1).mpr ⟨le_refl _, hv⟩
  have hw : w.1 < w.2 := hstart.1.trans_lt hstart.2
  have hfirst : w.1 = v.1 := le_antisymm hstart.1 ((h w.1).mp ⟨le_refl _, hw⟩).1
  have hsecond : w.2 = v.2 := by
    rcases lt_trichotomy w.2 v.2 with hlt | heq | hgt
    · exact absurd ((h w.2).mpr ⟨hfirst ▸ hw.le, hlt⟩).2 (lt_irrefl _)
    · exact heq
    · exact absurd ((h v.2).mp ⟨hfirst ▸ hv.le, hgt⟩).2 (lt_irrefl _)
  exact Prod.ext hfirst hsecond

end

end Collections
