import ClavenarSdk.Interaction.System
import Mathlib.Algebra.Order.Group.Nat
import Mathlib.Data.List.Perm.Subperm

/-!
# Tokens

Some answers grant a token and some operations use one. If every call uses only tokens that it
was granted, each as often as it was granted, then all calls together use at most what the
environment granted.
-/

namespace Interaction

variable {Op σ κ : Type} {Ans : Op → Type} {ε ρ : Type} [DecidableEq κ]

/-- A call may use a token only while it has been granted more often than it was used. -/
def Affords (used : Op → Option κ) (granted : Event Ans → Option κ) (history : List (Event Ans))
    (op : Op) : Prop :=
  ∀ token, used op = some token →
    (history.map Sigma.fst).countP (fun op => used op == some token) <
      history.countP fun event => granted event == some token

namespace Sys

variable {E : Env σ Ans} {allowed : Prog Op Ans ε ρ → Prop} {c : Sys σ Op Ans ε ρ}
  {used : Op → Option κ} {granted : Event Ans → Option κ}

/-- The tokens used by all calls so far, operations under way and lost ones included, are
among those granted, repetitions counted. -/
theorem Reachable.used_subperm (h : c.Reachable E allowed)
    (hallowed : ∀ p, allowed p → ∀ history op, p.Invokes history op →
      Affords used granted history op) :
    ((c.tasks.flatMap Task.invoked).filterMap used).Subperm (c.log.filterMap granted) := by
  rw [List.subperm_ext_iff]
  intro token _
  rw [List.count_filterMap, List.count_filterMap, List.countP_flatMap]
  have htask : ∀ t ∈ c.tasks, t.invoked.countP (fun op => used op == some token) ≤
      t.history.countP fun event => granted event == some token := by
    intro t ht
    obtain ⟨hstart, hconsistent⟩ := h.consistent t ht
    refine hconsistent.countP_invoked_le fun history op hinvokes hused => ?_
    exact hallowed _ hstart history op hinvokes token (by simpa using hused)
  exact (List.sum_le_sum htask).trans (h.sum_countP_history_le _)

end Sys

end Interaction
