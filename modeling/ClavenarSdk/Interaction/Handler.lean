import ClavenarSdk.Interaction.System

/-!
# Deterministic surroundings

A handler answers every operation in one way. A call alone then has one run, and it can be
one of several calls in an environment that allows the answers of the handler: a schedule
starts calls, lets them perform one operation, or lets them run to their end.
-/

namespace Interaction

variable {Op σ τ : Type} {Ans : Op → Type} {ε ε' ρ α β : Type}

/-- The environment can give these answers one after the other. -/
inductive Env.Answered (E : Env σ Ans) : σ → List (Event Ans) → σ → Prop where
  | nil {s : σ} : Answered E s [] s
  | cons {s s' s'' : σ} {op : Op} {answer : Ans op} {rest : List (Event Ans)}
      (h : E.answers s op answer s') (hrest : Answered E s' rest s'') :
      Answered E s (⟨op, answer⟩ :: rest) s''

/-- Events that are answered one after the other are answered as one history. -/
theorem Env.Answered.append {E : Env σ Ans} {s s' s'' : σ} {first rest : List (Event Ans)}
    (h : E.Answered s first s') (hrest : E.Answered s' rest s'') :
    E.Answered s (first ++ rest) s'' := by
  induction h with
  | nil => exact hrest
  | cons hanswer _ ih => exact .cons hanswer (ih hrest)

/-- A restricted environment gives answers of the environment. -/
theorem Env.Answered.of_restrict {E : Env σ Ans} {condition : σ → Event Ans → Prop} {s s' : σ}
    {history : List (Event Ans)} (h : (E.restrict condition).Answered s history s') :
    E.Answered s history s' := by
  induction h with
  | nil => exact .nil
  | cons hanswer _ ih => exact .cons hanswer.1 ih

/-- An answer to every operation in every state, with the state afterwards. -/
abbrev Handler (σ : Type) {Op : Type} (Ans : Op → Type) : Type := σ → (op : Op) → Ans op × σ

namespace Prog

/-- The final state and the result of a call that runs alone. -/
def eval (handler : Handler σ Ans) : σ → Prog Op Ans ε α → σ × Except ε α
  | s, .done result => (s, result)
  | s, .await op next => eval handler (handler s op).2 (next (handler s op).1)

/-- The history of a call that runs alone. -/
def trace (handler : Handler σ Ans) : σ → Prog Op Ans ε α → List (Event Ans)
  | _, .done _ => []
  | s, .await op next =>
    ⟨op, (handler s op).1⟩ :: trace handler (handler s op).2 (next (handler s op).1)

variable {handler : Handler σ Ans}

/-- A program that is done does nothing. -/
@[simp] theorem eval_done {s : σ} {result : Except ε α} :
    eval handler s (done result : Prog Op Ans ε α) = (s, result) := rfl

/-- Nor does one that fails. -/
@[simp] theorem eval_fail {s : σ} {e : ε} :
    eval handler s (fail e : Prog Op Ans ε α) = (s, .error e) := rfl

/-- An operation is handled before the program goes on with its answer. -/
@[simp] theorem eval_await {s : σ} {op : Op} {next : Ans op → Prog Op Ans ε α} :
    eval handler s (await op next) =
      eval handler (handler s op).2 (next (handler s op).1) := rfl

/-- A program followed by another one runs to the first result, and goes on from there. -/
theorem eval_andThen {s : σ} {p : Prog Op Ans ε α} {f : Except ε α → Prog Op Ans ε' β} :
    eval handler s (p.andThen f) =
      eval handler (eval handler s p).1 (f (eval handler s p).2) := by
  induction p generalizing s with
  | done result => rfl
  | await op next ih => simp only [andThen_await, eval_await, ih]

/-- Mapping the error leaves the operations as they are. -/
theorem eval_mapError {s : σ} {p : Prog Op Ans ε α} {g : ε → ε'} :
    eval handler s (mapError g p) =
      ((eval handler s p).1, (eval handler s p).2.mapError g) := by
  rw [mapError, eval_andThen, eval_done]

/-- What is made of the value that a program returns changes nothing else. -/
theorem eval_bind_pure {s : σ} {p : Prog Op Ans ε α} {f : α → β} :
    eval handler s (p >>= fun a => (pure (f a) : Prog Op Ans ε β)) =
      ((eval handler s p).1, f <$> (eval handler s p).2) := by
  rw [bind_eq_andThen, eval_andThen]
  cases (eval handler s p).2 <;> rfl

/-- A call that runs alone returns its result after its history. -/
theorem returns_trace (s : σ) (p : Prog Op Ans ε α) :
    p.Returns (trace handler s p) (eval handler s p).2 := by
  induction p generalizing s with
  | done result => exact .here _
  | await op next ih => exact .answered (ih _ _)

/-- The history of a program followed by another one. -/
theorem trace_andThen {s : σ} {p : Prog Op Ans ε α} {f : Except ε α → Prog Op Ans ε' β} :
    trace handler s (p.andThen f) = trace handler s p ++
      trace handler (eval handler s p).1 (f (eval handler s p).2) := by
  induction p generalizing s with
  | done result => rfl
  | await op next ih => simp only [andThen_await, trace, eval_await, ih, List.cons_append]

/-- Mapping the result leaves the operations as they are. -/
theorem trace_bind_pure {s : σ} {p : Prog Op Ans ε α} {f : α → β} :
    trace handler s (p >>= fun a => (pure (f a) : Prog Op Ans ε β)) = trace handler s p := by
  rw [bind_eq_andThen, trace_andThen]
  cases (eval handler s p).2 <;> exact List.append_nil _

/-- A property of the state that all operations of a program keep holds at its end. -/
theorem eval_invariant {I : σ → Prop} {allowed : Op → Prop}
    (hI : ∀ s op, allowed op → I s → I (handler s op).2) {p : Prog Op Ans ε α}
    {history : List (Event Ans)}
    (hp : p.Always (fun _ op => allowed op) (fun _ _ => True) history) {s : σ} (hs : I s) :
    I (eval handler s p).1 := by
  induction p generalizing history s with
  | done result => exact hs
  | await op next ih => exact ih _ (hp.2 _) (hI s op hp.1 hs)

/-- Simulation: related states that answer all operations of a program alike stay related,
and the program does and returns the same. -/
theorem eval_simulation {handler' : Handler τ Ans} {R : σ → τ → Prop} {allowed : Op → Prop}
    (hR : ∀ s t op, R s t → allowed op →
      (handler s op).1 = (handler' t op).1 ∧ R (handler s op).2 (handler' t op).2)
    {p : Prog Op Ans ε α} {history : List (Event Ans)}
    (hp : p.Always (fun _ op => allowed op) (fun _ _ => True) history) {s : σ} {t : τ}
    (hst : R s t) :
    (eval handler s p).2 = (eval handler' t p).2 ∧ trace handler s p = trace handler' t p ∧
      R (eval handler s p).1 (eval handler' t p).1 := by
  induction p generalizing history s t with
  | done result => exact ⟨rfl, rfl, hst⟩
  | await op next ih =>
    obtain ⟨hanswer, hnext⟩ := hR s t op hst hp.1
    obtain ⟨hresult, htrace, hfinal⟩ := ih _ (hp.2 _) hnext
    simp only [eval_await, trace, ← hanswer]
    exact ⟨hresult, congrArg _ htrace, hfinal⟩

end Prog

namespace Sys

variable {E : Env σ Ans} {allowed : Prog Op Ans ε ρ → Prop} {handler : Handler σ Ans}

/-- Start a call. -/
theorem Reachable.spawn {c : Sys σ Op Ans ε ρ} (h : c.Reachable E allowed)
    {p : Prog Op Ans ε ρ} (hp : allowed p) :
    Reachable E allowed ⟨c.shared, c.tasks ++ [.fresh p], c.log⟩ :=
  h.step (.spawn hp)

/-- One task of the system takes a step. -/
theorem Step.of_task {c : Sys σ Op Ans ε ρ} {i : ℕ} {t t' : Task Op Ans ε ρ} {s' : σ}
    {event : Option (Event Ans)} (htask : c.tasks[i]? = some t)
    (h : t.Step E c.shared event t' s') :
    Step E allowed c ⟨s', c.tasks.set i t', c.log ++ event.toList⟩ := by
  obtain ⟨s, tasks, log⟩ := c
  obtain ⟨hlt, hget⟩ := List.getElem?_eq_some_iff.mp htask
  have hsplit : ∀ t, tasks.set i t = tasks.take i ++ t :: tasks.drop (i + 1) :=
    fun t => List.set_eq_take_append_cons_drop.trans (if_pos hlt)
  have htasks : tasks = tasks.take i ++ t :: tasks.drop (i + 1) := by
    rw [← hsplit, ← hget, List.set_getElem_self]
  rw [hsplit]
  nth_rewrite 1 [htasks]
  exact .task h

/-- A call invokes the operation that it awaits. -/
theorem Step.issue {c : Sys σ Op Ans ε ρ} {i : ℕ} {start : Prog Op Ans ε ρ}
    {history : List (Event Ans)} {op : Op} {next : Ans op → Prog Op Ans ε ρ}
    (htask : c.tasks[i]? = some ⟨start, history, .ready (.await op next)⟩) :
    Step E allowed c ⟨c.shared, c.tasks.set i ⟨start, history, .issued op next⟩, c.log⟩ := by
  have hstep : Step E allowed c ⟨c.shared, c.tasks.set i ⟨start, history, .issued op next⟩,
      c.log ++ (none : Option (Event Ans)).toList⟩ := .of_task htask .issue
  rwa [Option.toList_none, List.append_nil] at hstep

/-- The operation under way of a call is answered. -/
theorem Step.complete {c : Sys σ Op Ans ε ρ} {i : ℕ} {start : Prog Op Ans ε ρ}
    {history : List (Event Ans)} {op : Op} {next : Ans op → Prog Op Ans ε ρ}
    (htask : c.tasks[i]? = some ⟨start, history, .issued op next⟩) {answer : Ans op} {s' : σ}
    (hanswer : E.answers c.shared op answer s') :
    Step E allowed c ⟨s', c.tasks.set i ⟨start, history ++ [⟨op, answer⟩], .ready (next answer)⟩,
      c.log ++ [⟨op, answer⟩]⟩ :=
  Step.of_task htask (.complete hanswer)

/-- Let a call perform the operation that it awaits. -/
theorem Reachable.turn {c : Sys σ Op Ans ε ρ} (h : c.Reachable E allowed) {i : ℕ}
    {start : Prog Op Ans ε ρ} {history : List (Event Ans)} {op : Op}
    {next : Ans op → Prog Op Ans ε ρ}
    (htask : c.tasks[i]? = some ⟨start, history, .ready (.await op next)⟩) {answer : Ans op}
    {s' : σ} (hanswer : E.answers c.shared op answer s') :
    Reachable E allowed ⟨s', c.tasks.set i ⟨start, history ++ [⟨op, answer⟩], .ready (next answer)⟩,
      c.log ++ [⟨op, answer⟩]⟩ := by
  have hlt := (List.getElem?_eq_some_iff.mp htask).1
  have hissued := h.step (.issue htask)
  have hcompleted := hissued.step (.complete (List.getElem?_set_self hlt) hanswer)
  rwa [List.set_set] at hcompleted

/-- Let a call perform a part of its run while all others wait. -/
theorem Reachable.follow {c : Sys σ Op Ans ε ρ} (h : c.Reachable E allowed) {i : ℕ}
    {start : Prog Op Ans ε ρ} {history : List (Event Ans)} {p q : Prog Op Ans ε ρ}
    (htask : c.tasks[i]? = some ⟨start, history, .ready p⟩) {performed : List (Event Ans)}
    (hreach : p.Reach performed q) {s' : σ} (hanswered : E.Answered c.shared performed s') :
    Reachable E allowed ⟨s', c.tasks.set i ⟨start, history ++ performed, .ready q⟩,
      c.log ++ performed⟩ := by
  induction hreach generalizing c history with
  | here p =>
    cases hanswered
    obtain ⟨hlt, hget⟩ := List.getElem?_eq_some_iff.mp htask
    simpa [← hget] using h
  | answered _ ih =>
    cases hanswered with
    | cons hanswer hrest =>
      have hturn := h.turn htask hanswer
      have hlt := (List.getElem?_eq_some_iff.mp htask).1
      have hfinal := ih hturn (List.getElem?_set_self hlt) hrest
      simpa [List.append_assoc] using hfinal

/-- Let a call run to its end while all others wait. -/
theorem Reachable.finish {c : Sys σ Op Ans ε ρ} (h : c.Reachable E allowed)
    (hanswers : ∀ s op, E.answers s op (handler s op).1 (handler s op).2) {i : ℕ}
    {start : Prog Op Ans ε ρ} {history : List (Event Ans)} {p : Prog Op Ans ε ρ}
    (htask : c.tasks[i]? = some ⟨start, history, .ready p⟩) :
    Reachable E allowed ⟨(p.eval handler c.shared).1,
      c.tasks.set i ⟨start, history ++ p.trace handler c.shared,
        .ready (.done (p.eval handler c.shared).2)⟩,
      c.log ++ p.trace handler c.shared⟩ := by
  induction p generalizing c history with
  | done result =>
    obtain ⟨hlt, hget⟩ := List.getElem?_eq_some_iff.mp htask
    simpa [Prog.trace, ← hget] using h
  | await op next ih =>
    have hturn := h.turn htask (hanswers c.shared op)
    have hlt := (List.getElem?_eq_some_iff.mp htask).1
    have hrest := ih _ hturn (List.getElem?_set_self hlt)
    simpa [Prog.trace, List.append_assoc] using hrest

/-- The system after one call ran alone to its end. -/
def alone (handler : Handler σ Ans) (s : σ) (p : Prog Op Ans ε ρ) : Sys σ Op Ans ε ρ where
  shared := (p.eval handler s).1
  tasks := [⟨p, p.trace handler s, .ready (.done (p.eval handler s).2)⟩]
  log := p.trace handler s

/-- Running alone ends in the state that evaluation ends in. -/
@[simp] theorem alone_shared (handler : Handler σ Ans) (s : σ) (p : Prog Op Ans ε ρ) :
    (alone handler s p).shared = (p.eval handler s).1 := rfl

/-- A run of one call is a run of the system. -/
theorem reachable_alone {s : σ} {p : Prog Op Ans ε ρ} (hinit : E.init s) (hp : allowed p)
    (hanswers : ∀ s op, E.answers s op (handler s op).1 (handler s op).2) :
    (alone handler s p).Reachable E allowed :=
  ((Reachable.init hinit).spawn hp).finish (i := 0) hanswers rfl

end Sys

end Interaction
