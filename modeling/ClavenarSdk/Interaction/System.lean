import ClavenarSdk.Interaction.Prog
import Mathlib.Algebra.BigOperators.Group.List.Basic
import Mathlib.Algebra.Ring.Nat
import Mathlib.Data.List.Induction
import Mathlib.Algebra.Order.BigOperators.Group.List

/-!
# Interleaved calls over a shared environment

Any number of calls run against one environment. At each step one call invokes its
awaited operation, or the environment answers an invoked operation and changes its
state, or a call is dropped. A dropped call may leave an operation behind that still
takes effect. Two tools are provided: the bookkeeping between the histories of the
calls and the log of the environment, and a rely-guarantee rule for invariants of the
shared state.
-/

namespace Interaction

variable {Op σ : Type} {Ans : Op → Type} {ε ρ α β : Type}

/-- An environment: its initial states, the answers it can give with the state after
each, and the changes it can make on its own. -/
structure Env (σ : Type) {Op : Type} (Ans : Op → Type) where
  /-- Possible initial states. -/
  init : σ → Prop
  /-- `answers s op a s'`: in state `s`, `op` can be answered by `a`, leaving `s'`. -/
  answers : σ → (op : Op) → Ans op → σ → Prop
  /-- Changes made outside every call. -/
  drift : σ → σ → Prop

/-- The environment whose steps additionally satisfy a condition on the state before. -/
def Env.restrict (E : Env σ Ans) (condition : σ → Event Ans → Prop) : Env σ Ans where
  init := E.init
  answers s op a s' := E.answers s op a s' ∧ condition s ⟨op, a⟩
  drift := E.drift

/-- Where a call stands between two steps. -/
inductive Phase (Op : Type) (Ans : Op → Type) (ε ρ : Type) where
  /-- The call has not yet invoked the operation it awaits, or has returned. -/
  | ready (p : Prog Op Ans ε ρ)
  /-- The awaited operation is under way. -/
  | issued (op : Op) (next : Ans op → Prog Op Ans ε ρ)
  /-- The call was dropped, perhaps with an operation under way. -/
  | dropped (pending : Option Op)

/-- A call together with what happened to it. -/
structure Task (Op : Type) (Ans : Op → Type) (ε ρ : Type) where
  /-- The whole call. -/
  start : Prog Op Ans ε ρ
  /-- The operations answered to it, in order. -/
  history : List (Event Ans)
  /-- Where it stands. -/
  phase : Phase Op Ans ε ρ

/-- The operation under way, or under way when the call was dropped. -/
def Phase.pending : Phase Op Ans ε ρ → Option Op
  | .ready _ => none
  | .issued op _ => some op
  | .dropped pending => pending

namespace Task

/-- A call before its first step. -/
def fresh (p : Prog Op Ans ε ρ) : Task Op Ans ε ρ := ⟨p, [], .ready p⟩

/-- Every operation the call has invoked so far. -/
def invoked (t : Task Op Ans ε ρ) : List Op := t.history.map Sigma.fst ++ t.phase.pending.toList

/-- One step of a call and its environment, with the operation performed, if any. -/
inductive Step (E : Env σ Ans) :
    Task Op Ans ε ρ → σ → Option (Event Ans) → Task Op Ans ε ρ → σ → Prop where
  | issue {start : Prog Op Ans ε ρ} {history : List (Event Ans)} {op : Op}
      {next : Ans op → Prog Op Ans ε ρ} {s : σ} :
      Step E ⟨start, history, .ready (.await op next)⟩ s none ⟨start, history, .issued op next⟩ s
  | complete {start : Prog Op Ans ε ρ} {history : List (Event Ans)} {op : Op}
      {next : Ans op → Prog Op Ans ε ρ} {s s' : σ} {answer : Ans op}
      (h : E.answers s op answer s') :
      Step E ⟨start, history, .issued op next⟩ s (some ⟨op, answer⟩)
        ⟨start, history ++ [⟨op, answer⟩], .ready (next answer)⟩ s'
  | lose {start : Prog Op Ans ε ρ} {history : List (Event Ans)} {op : Op}
      {next : Ans op → Prog Op Ans ε ρ} {s s' : σ} {answer : Ans op}
      (h : E.answers s op answer s') :
      Step E ⟨start, history, .issued op next⟩ s (some ⟨op, answer⟩)
        ⟨start, history, .dropped (some op)⟩ s'
  | drop {start : Prog Op Ans ε ρ} {history : List (Event Ans)} {phase : Phase Op Ans ε ρ}
      {s : σ} (h : ∀ result, phase ≠ .ready (.done result)) :
      Step E ⟨start, history, phase⟩ s none ⟨start, history, .dropped phase.pending⟩ s

/-- What the call has become is what its program becomes after its history. -/
def Consistent (t : Task Op Ans ε ρ) : Prop :=
  match t.phase with
  | .ready p => t.start.Reach t.history p
  | .issued op next => t.start.Reach t.history (.await op next)
  | .dropped none => ∃ p, t.start.Reach t.history p
  | .dropped (some op) => t.start.Invokes t.history op

/-- The call has returned this result. -/
def Returned (t : Task Op Ans ε ρ) (result : Except ε ρ) : Prop :=
  t.phase = .ready (.done result)

/-- A consistent task that has returned did so after its history. -/
theorem Consistent.returns {t : Task Op Ans ε ρ} (ht : t.Consistent) {result : Except ε ρ}
    (h : t.Returned result) : t.start.Returns t.history result := by
  obtain ⟨start, history, phase⟩ := t
  obtain rfl : phase = .ready (.done result) := h
  exact ht

/-- A step does not change what a task was started with. -/
theorem Step.start_eq {E : Env σ Ans} {t t' : Task Op Ans ε ρ} {s s' : σ}
    {event : Option (Event Ans)} (h : Step E t s event t' s') : t'.start = t.start := by
  cases h <;> rfl

/-- A step keeps a task consistent with its history. -/
theorem Step.consistent {E : Env σ Ans} {t t' : Task Op Ans ε ρ} {s s' : σ}
    {event : Option (Event Ans)} (h : Step E t s event t' s') (ht : t.Consistent) :
    t'.Consistent := by
  cases h with
  | issue => exact ht
  | complete _ => exact Prog.Reach.snoc ht _
  | @lose _ _ _ next => exact ⟨next, ht⟩
  | @drop _ _ phase =>
    cases phase with
    | ready p => exact ⟨p, ht⟩
    | issued op next => exact ⟨next, ht⟩
    | dropped pending => exact ht

/-- The history grows by at most the performed operation. -/
theorem Step.history_countP_le {E : Env σ Ans} {t t' : Task Op Ans ε ρ} {s s' : σ}
    {event : Option (Event Ans)} (h : Step E t s event t' s') (q : Event Ans → Bool) :
    t'.history.countP q ≤ t.history.countP q + event.toList.countP q := by
  cases h <;> simp

/-- Everything a consistent call has invoked, it invokes after a history that its own
history continues. -/
theorem Consistent.invokes {t : Task Op Ans ε ρ} (ht : t.Consistent) {op : Op}
    (hop : op ∈ t.invoked) :
    ∃ history, history <+: t.history ∧ t.start.Invokes history op := by
  have hreach : ∃ p, t.start.Reach t.history p ∧
      (op ∈ t.phase.pending → ∃ next, p = .await op next) := by
    obtain ⟨start, history, phase⟩ := t
    match phase, ht with
    | .ready p, ht => exact ⟨p, ht, by simp [Phase.pending]⟩
    | .issued op' next, ht =>
      refine ⟨_, ht, fun h => ?_⟩
      obtain rfl : op' = op := by simpa [Phase.pending] using h
      exact ⟨next, rfl⟩
    | .dropped none, ⟨p, hp⟩ => exact ⟨p, hp, by simp [Phase.pending]⟩
    | .dropped (some op'), ⟨next, hp⟩ =>
      refine ⟨_, hp, fun h => ?_⟩
      obtain rfl : op' = op := by simpa [Phase.pending] using h
      exact ⟨next, rfl⟩
  obtain ⟨p, hp, hpending⟩ := hreach
  rcases List.mem_append.mp hop with hmem | hmem
  · obtain ⟨⟨op', answer⟩, hevent, rfl⟩ := List.mem_map.mp hmem
    obtain ⟨before, after, hsplit⟩ := List.append_of_mem hevent
    rw [hsplit] at hp
    exact ⟨before, ⟨_, hsplit.symm⟩, hp.invokes_of_append_cons⟩
  · obtain ⟨next, rfl⟩ := hpending (by simpa using hmem)
    exact ⟨t.history, List.prefix_rfl, next, hp⟩

/-- A bound on the invocations of a call: if each operation that satisfies `q` is invoked
only while fewer than the events satisfying `r` so far were, they never outnumber these
events. -/
theorem Consistent.countP_invoked_le {t : Task Op Ans ε ρ} (ht : t.Consistent) {q : Op → Bool}
    {r : Event Ans → Bool}
    (h : ∀ history op, t.start.Invokes history op → q op = true →
      (history.map Sigma.fst).countP q < history.countP r) :
    t.invoked.countP q ≤ t.history.countP r := by
  have hhistory : ∀ history p, t.start.Reach history p →
      (history.map Sigma.fst).countP q ≤ history.countP r := by
    intro history
    induction history using List.reverseRecOn with
    | nil => simp
    | append_singleton before event ih =>
      intro p hreach
      have hinvokes := hreach.invokes_of_append_cons
      obtain ⟨next, hbefore⟩ := hinvokes
      have hle := ih _ hbefore
      simp only [List.map_append, List.countP_append, List.map_cons, List.map_nil,
        List.countP_singleton]
      by_cases hq : q event.1 = true
      · have hlt := h before event.1 ⟨next, hbefore⟩ hq
        rw [if_pos hq]
        omega
      · rw [if_neg hq]
        omega
  obtain ⟨start, history, phase⟩ := t
  match phase, ht with
  | .ready p, ht => simpa [invoked, Phase.pending] using hhistory _ _ ht
  | .dropped none, ⟨p, hp⟩ => simpa [invoked, Phase.pending] using hhistory _ _ hp
  | .issued op next, ht | .dropped (some op), ⟨next, ht⟩ =>
    have hle := hhistory _ _ ht
    simp only [invoked, Phase.pending, Option.toList_some, List.countP_append,
      List.countP_singleton]
    by_cases hq : q op = true
    · have hlt := h history op ⟨next, ht⟩ hq
      rw [if_pos hq]
      omega
    · rw [if_neg hq]
      omega

end Task

/-- Calls in progress, the shared state, and the operations performed on it so far. -/
structure Sys (σ : Type) (Op : Type) (Ans : Op → Type) (ε ρ : Type) where
  /-- The state of the environment. -/
  shared : σ
  /-- All calls ever started. -/
  tasks : List (Task Op Ans ε ρ)
  /-- All operations performed so far, in order. -/
  log : List (Event Ans)

namespace Sys

/-- One step of the whole system; `allowed` are the calls that may be started. -/
inductive Step (E : Env σ Ans) (allowed : Prog Op Ans ε ρ → Prop) :
    Sys σ Op Ans ε ρ → Sys σ Op Ans ε ρ → Prop where
  | spawn {s : σ} {tasks : List (Task Op Ans ε ρ)} {log : List (Event Ans)}
      {p : Prog Op Ans ε ρ} (h : allowed p) :
      Step E allowed ⟨s, tasks, log⟩ ⟨s, tasks ++ [.fresh p], log⟩
  | task {s s' : σ} {before after : List (Task Op Ans ε ρ)} {t t' : Task Op Ans ε ρ}
      {log : List (Event Ans)} {event : Option (Event Ans)} (h : t.Step E s event t' s') :
      Step E allowed ⟨s, before ++ t :: after, log⟩
        ⟨s', before ++ t' :: after, log ++ event.toList⟩
  | drift {s s' : σ} {tasks : List (Task Op Ans ε ρ)} {log : List (Event Ans)}
      (h : E.drift s s') : Step E allowed ⟨s, tasks, log⟩ ⟨s', tasks, log⟩

/-- The states of the system after any number of steps. -/
inductive Reachable (E : Env σ Ans) (allowed : Prog Op Ans ε ρ → Prop) :
    Sys σ Op Ans ε ρ → Prop where
  | init {s : σ} (h : E.init s) : Reachable E allowed ⟨s, [], []⟩
  | step {c c' : Sys σ Op Ans ε ρ} (h : Reachable E allowed c) (hstep : Step E allowed c c') :
      Reachable E allowed c'

variable {E : Env σ Ans} {allowed : Prog Op Ans ε ρ → Prop}

/-- An invariant of every task, kept by the steps of that task, holds of every task. -/
theorem Reachable.forall_task {c : Sys σ Op Ans ε ρ} (h : c.Reachable E allowed)
    {inv : Task Op Ans ε ρ → Prop} (hfresh : ∀ p, allowed p → inv (.fresh p))
    (hstep : ∀ t t' s s' event, Task.Step E t s event t' s' → inv t → inv t') :
    ∀ t ∈ c.tasks, inv t := by
  induction h with
  | init => simp
  | step _ hs ih =>
    cases hs with
    | spawn hp => simpa [or_imp, forall_and, hfresh _ hp] using ih
    | task ht =>
      intro t hmem
      rcases List.mem_append.mp hmem with hmem | hmem
      · exact ih t (List.mem_append_left _ hmem)
      · rcases List.mem_cons.mp hmem with rfl | hmem
        · exact hstep _ _ _ _ _ ht (ih _ (by simp))
        · exact ih t (List.mem_append_right _ (List.mem_cons_of_mem _ hmem))
    | drift => exact ih

/-- Every call of a reachable state is an allowed one and follows its own program. -/
theorem Reachable.consistent {c : Sys σ Op Ans ε ρ} (h : c.Reachable E allowed) :
    ∀ t ∈ c.tasks, allowed t.start ∧ t.Consistent := by
  refine h.forall_task (fun p hp => ⟨hp, .here p⟩) ?_
  intro t t' s s' event hs ht
  exact ⟨hs.start_eq ▸ ht.1, hs.consistent ht.2⟩

/-- A property of the shared state and the log that every answer and every change from
outside keeps holds throughout. -/
theorem Reachable.invariant {c : Sys σ Op Ans ε ρ} (h : c.Reachable E allowed)
    {inv : σ → List (Event Ans) → Prop} (hinit : ∀ s, E.init s → inv s [])
    (hanswer : ∀ s s' log event, E.answers s event.1 event.2 s' → inv s log →
      inv s' (log ++ [event]))
    (hdrift : ∀ s s' log, E.drift s s' → inv s log → inv s' log) : inv c.shared c.log := by
  induction h with
  | init hs => exact hinit _ hs
  | step _ hs ih =>
    cases hs with
    | spawn => exact ih
    | drift hd => exact hdrift _ _ _ hd ih
    | task ht =>
      cases ht with
      | issue => simpa using ih
      | drop => simpa using ih
      | complete ha => exact hanswer _ _ _ _ ha ih
      | lose ha => exact hanswer _ _ _ _ ha ih

/-- What a call has been answered is in the log. -/
theorem Reachable.history_subset {c : Sys σ Op Ans ε ρ} (h : c.Reachable E allowed) :
    ∀ t ∈ c.tasks, t.history ⊆ c.log := by
  induction h with
  | init => simp
  | step _ hs ih =>
    cases hs with
    | spawn => simpa [or_imp, forall_and, Task.fresh] using ih
    | drift => exact ih
    | @task _ _ _ _ _ _ _ event ht =>
      intro t hmem
      rcases List.mem_append.mp hmem with hmem | hmem
      · exact List.subset_append_of_subset_left _ (ih t (List.mem_append_left _ hmem))
      · rcases List.mem_cons.mp hmem with rfl | hmem
        · have hbefore := ih _ (List.mem_append_right _ List.mem_cons_self)
          cases ht with
          | issue => simpa using hbefore
          | drop => simpa using hbefore
          | complete =>
            exact List.append_subset_of_subset_of_subset
              (List.subset_append_of_subset_left _ hbefore) (List.subset_append_right _ _)
          | lose => exact List.subset_append_of_subset_left _ hbefore
        · exact List.subset_append_of_subset_left _
            (ih t (List.mem_append_right _ (List.mem_cons_of_mem _ hmem)))

/-- An operation under way is justified by the history of its call. -/
theorem Reachable.issued_guarded {s : σ} {before after : List (Task Op Ans ε ρ)}
    {log : List (Event Ans)} {start : Prog Op Ans ε ρ} {history : List (Event Ans)} {op : Op}
    {next : Ans op → Prog Op Ans ε ρ}
    (h : Reachable E allowed ⟨s, before ++ ⟨start, history, .issued op next⟩ :: after, log⟩)
    {guard : List (Event Ans) → Op → Prop}
    (hallowed : ∀ p, allowed p → p.Always guard (fun _ _ => True) []) :
    guard history op ∧ history ⊆ log := by
  obtain ⟨hstart, hreach⟩ := h.consistent ⟨start, history, .issued op next⟩ (by simp)
  exact ⟨(hallowed _ hstart).of_invokes ⟨next, hreach⟩,
    h.history_subset ⟨start, history, .issued op next⟩ (by simp)⟩

/-- Every operation in the log is justified by the log before it, if every call justifies its
operations by its own history. -/
theorem Reachable.log_guarded {c : Sys σ Op Ans ε ρ} (h : c.Reachable E allowed)
    {guard : List (Event Ans) → Op → Prop}
    (hmono : ∀ history history' op, history ⊆ history' → guard history op → guard history' op)
    (hallowed : ∀ p, allowed p → p.Always guard (fun _ _ => True) []) :
    ∀ before event after, c.log = before ++ event :: after → guard before event.1 := by
  induction h with
  | init => simp
  | @step c c' hc hs ih =>
    have hlast : ∀ {log : List (Event Ans)} {event : Event Ans},
        (∀ before event after, log = before ++ event :: after → guard before event.1) →
        guard log event.1 → ∀ before event' after,
          log ++ [event] = before ++ event' :: after → guard before event'.1 := by
      intro log event hlog hevent before event' after heq
      rcases List.eq_nil_or_concat after with rfl | ⟨after, last, rfl⟩
      · obtain ⟨rfl, hsame⟩ := List.append_inj' heq rfl
        obtain rfl : event = event' := by simpa using hsame
        exact hevent
      · rw [List.concat_eq_append, ← List.cons_append, ← List.append_assoc] at heq
        exact hlog before event' after (List.append_inj' heq rfl).1
    cases hs with
    | spawn => exact ih
    | drift => exact ih
    | task ht =>
      cases ht with
      | issue => simpa using ih
      | drop => simpa using ih
      | complete | lose =>
        obtain ⟨hguard, hsub⟩ := hc.issued_guarded hallowed
        exact hlast ih (hmono _ _ _ hsub hguard)

/-- An invariant need only be kept by the operations that the calls perform. -/
theorem Reachable.invariant_of_always {c : Sys σ Op Ans ε ρ} (h : c.Reachable E allowed)
    {performed : Op → Prop} {inv : σ → List (Event Ans) → Prop}
    (hallowed : ∀ p, allowed p → p.Always (fun _ op => performed op) (fun _ _ => True) [])
    (hinit : ∀ s, E.init s → inv s [])
    (hanswer : ∀ s s' log event, performed event.1 → E.answers s event.1 event.2 s' → inv s log →
      inv s' (log ++ [event]))
    (hdrift : ∀ s s' log, E.drift s s' → inv s log → inv s' log) : inv c.shared c.log := by
  induction h with
  | init hs => exact hinit _ hs
  | step hc hs ih =>
    cases hs with
    | spawn => exact ih
    | drift hd => exact hdrift _ _ _ hd ih
    | task ht =>
      cases ht with
      | issue => simpa using ih
      | drop => simpa using ih
      | complete ha | lose ha => exact hanswer _ _ _ _ (hc.issued_guarded hallowed).1 ha ih

/-- A run under an additional condition is a run. -/
theorem Reachable.of_restrict {condition : σ → Event Ans → Prop} {c : Sys σ Op Ans ε ρ}
    (h : c.Reachable (E.restrict condition) allowed) : c.Reachable E allowed := by
  have htask : ∀ {t t' : Task Op Ans ε ρ} {s s' : σ} {event : Option (Event Ans)},
      t.Step (E.restrict condition) s event t' s' → t.Step E s event t' s' := by
    intro t t' s s' event h
    cases h with
    | issue => exact .issue
    | complete h => exact .complete h.1
    | lose h => exact .lose h.1
    | drop h => exact .drop h
  induction h with
  | init h => exact .init h
  | step _ hs ih =>
    refine ih.step ?_
    cases hs with
    | spawn h => exact .spawn h
    | task h => exact .task (htask h)
    | drift h => exact .drift h

/-- What the calls have been answered has been performed: no event of the log is in two
histories. -/
theorem Reachable.sum_countP_history_le {c : Sys σ Op Ans ε ρ} (h : c.Reachable E allowed)
    (q : Event Ans → Bool) :
    (c.tasks.map fun t => t.history.countP q).sum ≤ c.log.countP q := by
  induction h with
  | init => simp
  | step _ hs ih =>
    cases hs with
    | spawn => simpa [Task.fresh] using ih
    | task ht =>
      have hle := ht.history_countP_le q
      simp only [List.map_append, List.map_cons, List.sum_append, List.sum_cons,
        List.countP_append] at ih ⊢
      omega
    | drift => exact ih

end Sys

/-! ### The rely-guarantee rule -/

/-- An invariant of the shared state, the changes that every step guarantees, and what
must hold from the moment an operation is invoked. -/
structure Discipline (E : Env σ Ans) where
  /-- The invariant. -/
  inv : σ → Prop
  /-- What may happen to the state between two steps of a call. -/
  rely : σ → σ → Prop
  /-- What holds as soon as an operation is invoked, and ever after. -/
  demand : σ → Op → Prop
  rely_refl : ∀ s, rely s s
  rely_trans : ∀ {s s' s''}, rely s s' → rely s' s'' → rely s s''
  demand_stable : ∀ {s s' op}, rely s s' → demand s op → demand s' op
  inv_init : ∀ s, E.init s → inv s
  inv_drift : ∀ s s', E.drift s s' → inv s → inv s' ∧ rely s s'

namespace Discipline

variable {E : Env σ Ans} (D : Discipline E)

/-- From state `s` on, `p` keeps the discipline whatever the other calls do within it, and
returns only results that satisfy `post`. -/
def Keeps (post : σ → Except ε α → Prop) : σ → Prog Op Ans ε α → Prop
  | s, .done result => ∀ s', D.rely s s' → D.inv s' → post s' result
  | s, .await op next => ∀ s', D.rely s s' → D.inv s' → D.demand s' op ∧
      ∀ answer s'', E.answers s' op answer s'' →
        D.inv s'' ∧ D.rely s' s'' ∧ Keeps post s'' (next answer)

variable {D} {post post' : σ → Except ε α → Prop}

/-- A program that is done keeps the discipline if its result is right in every state to come. -/
@[simp] theorem keeps_done {s : σ} {result : Except ε α} :
    D.Keeps post s (.done result) ↔ ∀ s', D.rely s s' → D.inv s' → post s' result := Iff.rfl

/-- So does one that fails. -/
@[simp] theorem keeps_fail {s : σ} {e : ε} :
    D.Keeps post s (.fail e) ↔ ∀ s', D.rely s s' → D.inv s' → post s' (.error e) := Iff.rfl

/-- An operation keeps the discipline if it is in order whenever it is reached, and the rest keeps
it after every answer. -/
theorem keeps_await {s : σ} {op : Op} {next : Ans op → Prog Op Ans ε α} :
    D.Keeps post s (.await op next) ↔ ∀ s', D.rely s s' → D.inv s' → D.demand s' op ∧
      ∀ answer s'', E.answers s' op answer s'' →
        D.inv s'' ∧ D.rely s' s'' ∧ D.Keeps post s'' (next answer) := Iff.rfl

/-- Steps of other calls do not disturb the obligation. -/
theorem Keeps.later {s s' : σ} {p : Prog Op Ans ε α} (h : D.Keeps post s p)
    (hrely : D.rely s s') : D.Keeps post s' p := by
  cases p <;> exact fun t ht => h t (D.rely_trans hrely ht)

/-- An obligation may be proved in every later state. -/
theorem keeps_of_later {s : σ} {p : Prog Op Ans ε α}
    (h : ∀ s', D.rely s s' → D.inv s' → D.Keeps post s' p) : D.Keeps post s p := by
  cases p <;> exact fun t ht hinv => h t ht hinv t (D.rely_refl t) hinv

/-- The sequencing rule. -/
theorem keeps_andThen {ε' : Type} {s : σ} {p : Prog Op Ans ε α}
    {f : Except ε α → Prog Op Ans ε' β} {post : σ → Except ε' β → Prop}
    (h : D.Keeps (fun s result => D.Keeps post s (f result)) s p) :
    D.Keeps post s (p.andThen f) := by
  induction p generalizing s with
  | done result => exact keeps_of_later h
  | await op next ih =>
    intro s' hrely hinv
    obtain ⟨hdemand, hnext⟩ := h s' hrely hinv
    refine ⟨hdemand, fun answer s'' hanswer => ?_⟩
    obtain ⟨hinv', hrely', hkeeps⟩ := hnext answer s'' hanswer
    exact ⟨hinv', hrely', ih answer hkeeps⟩

/-- The consequence rule. -/
theorem Keeps.mono {s : σ} {p : Prog Op Ans ε α} (h : D.Keeps post s p)
    (hpost : ∀ s result, D.inv s → post s result → post' s result) : D.Keeps post' s p := by
  induction p generalizing s with
  | done result => exact fun s' hrely hinv => hpost _ _ hinv (h s' hrely hinv)
  | await op next ih =>
    intro s' hrely hinv
    obtain ⟨hdemand, hnext⟩ := h s' hrely hinv
    refine ⟨hdemand, fun answer s'' hanswer => ?_⟩
    obtain ⟨hinv', hrely', hkeeps⟩ := hnext answer s'' hanswer
    exact ⟨hinv', hrely', ih answer hkeeps⟩

/-- What is made of the value that a program returns adds no obligation. -/
theorem keeps_bind_pure {s : σ} {p : Prog Op Ans ε α}
    (h : D.Keeps (fun _ _ => True) s p) (f : α → β) :
    D.Keeps (fun _ _ => True) s (p >>= fun a => (pure (f a) : Prog Op Ans ε β)) := by
  refine keeps_andThen (h.mono fun _ result _ _ => ?_)
  cases result <;> exact fun _ _ _ => trivial

/-- Every answer keeps the invariant and the guarantee, if what its operation demands
holds. -/
def Steps (D : Discipline E) : Prop :=
  ∀ (s s' : σ) (event : Event Ans), D.inv s → D.demand s event.1 →
    E.answers s event.1 event.2 s' → D.inv s' ∧ D.rely s s'

/-- The rule for an awaited operation when answers keep the discipline. -/
theorem Steps.keeps_await (hsteps : D.Steps) {s : σ} {op : Op} {next : Ans op → Prog Op Ans ε α}
    {post : σ → Except ε α → Prop} (hdemand : D.demand s op)
    (hnext : ∀ answer s' s'', D.rely s s' → D.inv s' → E.answers s' op answer s'' →
      D.inv s'' → D.rely s s'' → D.Keeps post s'' (next answer)) :
    D.Keeps post s (.await op next) := by
  intro s' hrely hinv
  have hdemand' := D.demand_stable hrely hdemand
  refine ⟨hdemand', fun answer s'' hanswer => ?_⟩
  obtain ⟨hinv', hrely'⟩ := hsteps _ _ ⟨op, answer⟩ hinv hdemand' hanswer
  exact ⟨hinv', hrely', hnext answer s' s'' hrely hinv hanswer hinv' (D.rely_trans hrely hrely')⟩

/-- A call all of whose operations are in order from the start keeps the discipline. -/
theorem Steps.keeps_of_always (hsteps : D.Steps) {s : σ} {p : Prog Op Ans ε α}
    (history : List (Event Ans))
    (h : p.Always (fun _ op => D.demand s op) (fun _ _ => True) history) :
    D.Keeps (fun _ _ => True) s p := by
  induction p generalizing s history with
  | done result => exact fun _ _ _ => trivial
  | await op next ih =>
    refine hsteps.keeps_await h.1 fun answer s' s'' _ _ _ _ hrely => ?_
    have hnext : (next answer).Always (fun _ op => D.demand s'' op) (fun _ _ => True) _ :=
      (h.2 answer).mono (fun _ _ => D.demand_stable hrely) (fun _ _ => id)
    exact ih answer _ hnext

/-- What holds of a call in a state that keeps the discipline. -/
def TaskKeeps (D : Discipline E) (post : σ → Except ε ρ → Prop) (s : σ)
    (t : Task Op Ans ε ρ) : Prop :=
  (∀ op ∈ t.invoked, D.demand s op) ∧
  match t.phase with
  | .ready p => D.Keeps post s p
  | .issued op next => D.Keeps post s (.await op next)
  | .dropped _ => True

/-- A task keeps the discipline also after others have moved. -/
theorem TaskKeeps.later {post : σ → Except ε ρ → Prop} {s s' : σ} {t : Task Op Ans ε ρ}
    (h : D.TaskKeeps post s t) (hrely : D.rely s s') : D.TaskKeeps post s' t := by
  refine ⟨fun op hop => D.demand_stable hrely (h.1 op hop), ?_⟩
  have hphase := h.2
  match ht : t.phase with
  | .ready p =>
    rw [ht] at hphase
    exact Keeps.later hphase hrely
  | .issued op next =>
    rw [ht] at hphase
    exact Keeps.later hphase hrely
  | .dropped _ => trivial

/-- One step of a call keeps the invariant, the guarantee and its own obligation. -/
theorem TaskKeeps.step {post : σ → Except ε ρ → Prop} {s s' : σ} {t t' : Task Op Ans ε ρ}
    {event : Option (Event Ans)} (h : D.TaskKeeps post s t) (hinv : D.inv s)
    (hstep : t.Step E s event t' s') :
    D.inv s' ∧ D.rely s s' ∧ D.TaskKeeps post s' t' := by
  obtain ⟨hinvoked, hphase⟩ := h
  cases hstep with
  | @issue _ history op =>
    refine ⟨hinv, D.rely_refl s, ?_, hphase⟩
    intro op' hop'
    have hdemand : D.demand s op := (hphase s (D.rely_refl s) hinv).1
    rcases List.mem_append.mp hop' with hmem | hmem
    · exact hinvoked op' (List.mem_append_left _ hmem)
    · obtain rfl : op' = op := by simpa [Phase.pending] using hmem
      exact hdemand
  | @complete _ history op next _ _ answer hanswer =>
    obtain ⟨hinv', hrely, hkeeps⟩ := (hphase s (D.rely_refl s) hinv).2 answer s' hanswer
    refine ⟨hinv', hrely, ?_, hkeeps⟩
    intro op' hop'
    refine D.demand_stable hrely (hinvoked op' ?_)
    simpa [Task.invoked, Phase.pending] using hop'
  | @lose _ history op next _ _ answer hanswer =>
    obtain ⟨hinv', hrely, _⟩ := (hphase s (D.rely_refl s) hinv).2 answer s' hanswer
    exact ⟨hinv', hrely, fun op' hop' => D.demand_stable hrely (hinvoked op' hop'), trivial⟩
  | drop => exact ⟨hinv, D.rely_refl s, hinvoked, trivial⟩

/-- Soundness: if every allowed call keeps the discipline from every state within it, so
does every run of the whole system. -/
theorem of_reachable {allowed : Prog Op Ans ε ρ → Prop} {post : σ → Except ε ρ → Prop}
    (hallowed : ∀ p, allowed p → ∀ s, D.inv s → D.Keeps post s p)
    {c : Sys σ Op Ans ε ρ} (h : c.Reachable E allowed) :
    D.inv c.shared ∧ ∀ t ∈ c.tasks, D.TaskKeeps post c.shared t := by
  induction h with
  | init hs => exact ⟨D.inv_init _ hs, by simp⟩
  | step _ hstep ih =>
    obtain ⟨hinv, htasks⟩ := ih
    cases hstep with
    | spawn hp =>
      refine ⟨hinv, fun t hmem => ?_⟩
      rcases List.mem_append.mp hmem with hmem | hmem
      · exact htasks t hmem
      · obtain rfl := List.mem_singleton.mp hmem
        exact ⟨by simp [Task.invoked, Task.fresh, Phase.pending], hallowed _ hp _ hinv⟩
    | task ht =>
      obtain ⟨hinv', hrely, hkeeps⟩ := (htasks _ (by simp)).step hinv ht
      refine ⟨hinv', fun t hmem => ?_⟩
      rcases List.mem_append.mp hmem with hmem | hmem
      · exact (htasks t (List.mem_append_left _ hmem)).later hrely
      · rcases List.mem_cons.mp hmem with rfl | hmem
        · exact hkeeps
        · exact (htasks t (List.mem_append_right _ (List.mem_cons_of_mem _ hmem))).later hrely
    | drift hdrift =>
      obtain ⟨hinv', hrely⟩ := D.inv_drift _ _ hdrift hinv
      exact ⟨hinv', fun t hmem => (htasks t hmem).later hrely⟩

end Discipline

end Interaction
