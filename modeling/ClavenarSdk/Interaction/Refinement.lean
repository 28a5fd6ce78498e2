import ClavenarSdk.Interaction.Handler
import Mathlib.Logic.Relation

/-!
# Later states and refinement

What holds between a state of a run and every later one. A discipline that all calls keep
turns facts about the answers to operations in order into facts about whole runs: invariants,
and the refinement of an abstract machine.
-/

namespace Interaction

open Relation

variable {Op σ τ : Type} {Ans : Op → Type} {ε ρ : Type}

namespace Sys

variable {E : Env σ Ans} {allowed : Prog Op Ans ε ρ → Prop} {c c' c'' : Sys σ Op Ans ε ρ}

/-- A run leads from the first state to the second one. -/
def Later (E : Env σ Ans) (allowed : Prog Op Ans ε ρ → Prop) :
    Sys σ Op Ans ε ρ → Sys σ Op Ans ε ρ → Prop :=
  ReflTransGen (Step E allowed)

/-- A state is later than itself. -/
@[refl] theorem Later.refl (c : Sys σ Op Ans ε ρ) : Later E allowed c c := ReflTransGen.refl

/-- Being later is transitive. -/
theorem Later.trans (h : Later E allowed c c') (h' : Later E allowed c' c'') :
    Later E allowed c c'' :=
  ReflTransGen.trans h h'

/-- The state after a step is later. -/
theorem Later.step (h : Later E allowed c c') (hstep : Step E allowed c' c'') :
    Later E allowed c c'' :=
  ReflTransGen.tail h hstep

/-- A state after a reachable one is reachable. -/
theorem Reachable.later (h : c.Reachable E allowed) (hlater : Later E allowed c c') :
    c'.Reachable E allowed := by
  induction hlater with
  | refl => exact h
  | tail _ hstep ih => exact ih.step hstep

/-- A reachable state comes after an initial one. -/
theorem Reachable.exists_init (h : c.Reachable E allowed) :
    ∃ s, E.init s ∧ Later E allowed ⟨s, [], []⟩ c := by
  induction h with
  | @init s hs => exact ⟨s, hs, .refl _⟩
  | step _ hstep ih =>
    obtain ⟨s, hs, hlater⟩ := ih
    exact ⟨s, hs, hlater.step hstep⟩

/-- An invariant of the shared state alone need only be kept by the operations that the calls
perform. -/
theorem Reachable.shared_invariant (h : c.Reachable E allowed) {P : Op → Prop} {I : σ → Prop}
    (hallowed : ∀ p, allowed p → p.Always (fun _ op => P op) (fun _ _ => True) [])
    (hinit : ∀ s, E.init s → I s)
    (hanswer : ∀ (s s' : σ) (event : Event Ans), P event.1 → E.answers s event.1 event.2 s' →
      I s → I s')
    (hdrift : ∀ s s', E.drift s s' → I s → I s') : I c.shared := by
  induction h with
  | init hs => exact hinit _ hs
  | step hc hs ih =>
    cases hs with
    | spawn => exact ih
    | drift hd => exact hdrift _ _ hd ih
    | task ht =>
      cases ht with
      | issue | drop => exact ih
      | @complete _ _ op _ _ _ answer ha | @lose _ _ op _ _ _ answer ha =>
        exact hanswer _ _ ⟨op, answer⟩ (hc.issued_guarded hallowed).1 ha ih

/-- The log only grows at its end. -/
theorem Later.log_prefix (h : Later E allowed c c') : c.log <+: c'.log := by
  induction h with
  | refl => exact List.prefix_rfl
  | tail _ hstep ih =>
    refine ih.trans ?_
    cases hstep with
    | spawn | drift => exact List.prefix_rfl
    | task => exact List.prefix_append _ _

/-- A call that is started can run to its end while all others wait. -/
theorem Later.finish {handler : Handler σ Ans}
    (hanswers : ∀ s op, E.answers s op (handler s op).1 (handler s op).2) {i : ℕ}
    {start : Prog Op Ans ε ρ} {history : List (Event Ans)} {p : Prog Op Ans ε ρ}
    (htask : c.tasks[i]? = some ⟨start, history, .ready p⟩) :
    Later E allowed c ⟨(p.eval handler c.shared).1,
      c.tasks.set i ⟨start, history ++ p.trace handler c.shared,
        .ready (.done (p.eval handler c.shared).2)⟩,
      c.log ++ p.trace handler c.shared⟩ := by
  induction p generalizing c history with
  | done result =>
    obtain ⟨hlt, hget⟩ := List.getElem?_eq_some_iff.mp htask
    simpa [Prog.trace, ← hget] using Later.refl c
  | await op next ih =>
    obtain ⟨hlt, -⟩ := List.getElem?_eq_some_iff.mp htask
    let performed : List (Event Ans) := [⟨op, (handler c.shared op).1⟩]
    let issued : Sys σ Op Ans ε ρ :=
      ⟨c.shared, c.tasks.set i ⟨start, history, .issued op next⟩, c.log⟩
    let answered : Sys σ Op Ans ε ρ := ⟨(handler c.shared op).2,
      c.tasks.set i ⟨start, history ++ performed, .ready (next (handler c.shared op).1)⟩,
      c.log ++ performed⟩
    have hissued : Step E allowed c issued := .issue htask
    have hanswered : Step E allowed issued answered := by
      have hcomplete : Step E allowed issued
          ⟨(handler c.shared op).2, issued.tasks.set i
            ⟨start, history ++ performed, .ready (next (handler c.shared op).1)⟩,
            c.log ++ performed⟩ :=
        .complete (List.getElem?_set_self hlt) (hanswers c.shared op)
      rwa [List.set_set] at hcomplete
    have hnext : answered.tasks[i]? = some ⟨start, history ++ performed, .ready (next _)⟩ :=
      List.getElem?_set_self hlt
    have hrest := (((Later.refl c).step hissued).step hanswered).trans (ih _ hnext)
    simpa [Prog.trace, answered, performed, List.append_assoc] using hrest

/-- A new call can run to its end while all others wait. -/
theorem Later.run {handler : Handler σ Ans}
    (hanswers : ∀ s op, E.answers s op (handler s op).1 (handler s op).2) (c : Sys σ Op Ans ε ρ)
    {p : Prog Op Ans ε ρ} (hp : allowed p) :
    ∃ tasks, Later E allowed c
      ⟨(p.eval handler c.shared).1, tasks, c.log ++ p.trace handler c.shared⟩ := by
  have hspawned : Step E allowed c ⟨c.shared, c.tasks ++ [.fresh p], c.log⟩ := .spawn hp
  have htask : (c.tasks ++ [Task.fresh p])[c.tasks.length]? = some ⟨p, [], .ready p⟩ := by
    simp [Task.fresh]
  exact ⟨_, ((Later.refl c).step hspawned).trans (Later.finish hanswers htask)⟩

end Sys

namespace Discipline

variable {E : Env σ Ans} {D : Discipline E} {allowed : Prog Op Ans ε ρ → Prop}
  {post : σ → Except ε ρ → Prop} {c c' : Sys σ Op Ans ε ρ}

/-- Along a run of calls that keep the discipline, a property of the shared state and the log
need only be kept by the answers to operations in order. -/
theorem later_invariant (hallowed : ∀ p, allowed p → ∀ s, D.inv s → D.Keeps post s p)
    {I : σ → List (Event Ans) → Prop}
    (hanswer : ∀ s s' log event, D.inv s → D.demand s event.1 →
      E.answers s event.1 event.2 s' → I s log → I s' (log ++ [event]))
    (hdrift : ∀ s s' log, E.drift s s' → I s log → I s' log)
    (h : c.Reachable E allowed) (hlater : Sys.Later E allowed c c') (hI : I c.shared c.log) :
    I c'.shared c'.log := by
  induction hlater with
  | refl => exact hI
  | tail hlater hstep ih =>
    have hordered := D.of_reachable hallowed (h.later hlater)
    cases hstep with
    | spawn => exact ih
    | drift hd => exact hdrift _ _ _ hd ih
    | task ht =>
      have htask := hordered.2 _ (List.mem_append_right _ List.mem_cons_self)
      cases ht with
      | issue => simpa using ih
      | drop => simpa using ih
      | @complete _ _ op _ _ _ answer ha | @lose _ _ op _ _ _ answer ha =>
        have hdemand := htask.1 op (by simp [Task.invoked, Phase.pending])
        exact hanswer _ _ _ ⟨op, answer⟩ hordered.1 hdemand ha ih

/-- Refinement. If every answer to an operation in order is matched by steps of an abstract
machine, and the environment changes nothing that the machine sees, then every run refines a run
of the machine. The match may use an invariant of the shared state. -/
theorem refines (view : σ → τ) (hallowed : ∀ p, allowed p → ∀ s, D.inv s → D.Keeps post s p)
    {I : σ → Prop} {step : τ → τ → Prop}
    (hanswer : ∀ (s s' : σ) (event : Event Ans), D.inv s → D.demand s event.1 →
      E.answers s event.1 event.2 s' → I s → I s' ∧ ReflTransGen step (view s) (view s'))
    (hdrift : ∀ s s', E.drift s s' → I s → I s' ∧ view s' = view s)
    (h : c.Reachable E allowed) (hlater : Sys.Later E allowed c c') (hI : I c.shared) :
    I c'.shared ∧ ReflTransGen step (view c.shared) (view c'.shared) := by
  refine later_invariant (I := fun s _ => I s ∧ ReflTransGen step (view c.shared) (view s))
    hallowed ?_ ?_ h hlater ⟨hI, .refl⟩
  · rintro s s' _ event hinv hdemand ha ⟨hs, hsteps⟩
    obtain ⟨hs', hmatched⟩ := hanswer s s' event hinv hdemand ha hs
    exact ⟨hs', hsteps.trans hmatched⟩
  · rintro s s' _ hd ⟨hs, hsteps⟩
    obtain ⟨hs', hview⟩ := hdrift s s' hd hs
    exact ⟨hs', hview ▸ hsteps⟩

end Discipline

end Interaction
