import Mathlib.Data.List.Basic

/-!
# Asynchronous calls as interaction programs

A call of an asynchronous function alternates between pure computation and awaited
operations of its environment. It is represented by the tree of all its continuations:
it has returned, or it awaits one operation and has a continuation for every answer.
A history is the list of the operations answered so far. Every prefix of a run is a
history too, so a call dropped at an await point needs no separate treatment.
-/

namespace Interaction

variable {Op : Type} {Ans : Op → Type} {ε ε' α β γ : Type}

/-- A program that awaits operations `op : Op`, answered in `Ans op`, and returns an
`Except ε α`. -/
inductive Prog (Op : Type) (Ans : Op → Type) (ε α : Type) where
  /-- The call has returned. -/
  | done (result : Except ε α)
  /-- The call awaits one operation. -/
  | await (op : Op) (next : Ans op → Prog Op Ans ε α)

/-- An answered operation. -/
abbrev Event (Ans : Op → Type) : Type := (op : Op) × Ans op

namespace Prog

/-- Continue with the result of a program, whether it succeeded or not. -/
def andThen : Prog Op Ans ε α → (Except ε α → Prog Op Ans ε' β) → Prog Op Ans ε' β
  | .done result, f => f result
  | .await op next, f => .await op fun answer => (next answer).andThen f

/-- Sequencing with early exit: an error ends the whole program. -/
protected def bind (p : Prog Op Ans ε α) (f : α → Prog Op Ans ε β) : Prog Op Ans ε β :=
  p.andThen fun
    | .ok a => f a
    | .error e => .done (.error e)

instance : Monad (Prog Op Ans ε) where
  pure a := .done (.ok a)
  bind := Prog.bind

/-- Return an error. -/
def fail (e : ε) : Prog Op Ans ε α := .done (.error e)

/-- A fallible computation without operations. -/
def lift (result : Except ε α) : Prog Op Ans ε α := .done result

/-- Turn the result of a program into a value that can be matched on. -/
def attempt (p : Prog Op Ans ε α) : Prog Op Ans ε' (Except ε α) :=
  p.andThen fun result => .done (.ok result)

/-- Replace the error of a program. -/
def mapError (g : ε → ε') (p : Prog Op Ans ε α) : Prog Op Ans ε' α :=
  p.andThen fun result => .done (result.mapError g)

/-- What follows a program that is done gets its result. -/
@[simp] theorem andThen_done (result : Except ε α) (f : Except ε α → Prog Op Ans ε' β) :
    (done result : Prog Op Ans ε α).andThen f = f result := rfl

/-- What follows an operation comes after its answer. -/
@[simp] theorem andThen_await (op : Op) (next : Ans op → Prog Op Ans ε α)
    (f : Except ε α → Prog Op Ans ε' β) :
    (await op next).andThen f = await op fun answer => (next answer).andThen f := rfl

/-- Continuations compose. -/
theorem andThen_assoc {ε'' : Type} (p : Prog Op Ans ε α) (f : Except ε α → Prog Op Ans ε' β)
    (g : Except ε' β → Prog Op Ans ε'' γ) :
    (p.andThen f).andThen g = p.andThen fun result => (f result).andThen g := by
  induction p with
  | done result => rfl
  | await op next ih =>
    simp only [andThen_await, await.injEq, heq_eq_eq, true_and]
    funext answer
    exact ih answer

/-- A value is lifted to a program that is done. -/
@[simp] theorem lift_ok (a : α) : (lift (.ok a) : Prog Op Ans ε α) = done (.ok a) := rfl

/-- An error is lifted to a failure. -/
@[simp] theorem lift_error (e : ε) : (lift (.error e) : Prog Op Ans ε α) = fail e := rfl

/-- Nothing follows a failure. -/
@[simp] theorem fail_bind (e : ε) (f : α → Prog Op Ans ε β) :
    (fail e : Prog Op Ans ε α) >>= f = fail e := rfl

/-- Fallible computations are sequenced alike inside and outside of programs. -/
theorem lift_bind (result : Except ε α) (f : α → Except ε β) :
    (lift (result >>= f) : Prog Op Ans ε β) = lift result >>= fun a => lift (f a) := by
  cases result <;> rfl

/-- A bind goes on with a value and passes an error on. -/
theorem bind_eq_andThen (p : Prog Op Ans ε α) (f : α → Prog Op Ans ε β) :
    p >>= f = p.andThen fun
      | .ok a => f a
      | .error e => .done (.error e) := rfl

/-- Binding is associative. -/
theorem bind_assoc (p : Prog Op Ans ε α) (f : α → Prog Op Ans ε β) (g : β → Prog Op Ans ε γ) :
    p >>= f >>= g = p >>= fun a => f a >>= g := by
  simp only [bind_eq_andThen, andThen_assoc]
  congr 1
  funext result
  cases result <;> rfl

/-- A pure program is done. -/
@[simp] theorem pure_eq_done (a : α) : (pure a : Prog Op Ans ε α) = done (.ok a) := rfl

/-- A program goes on with the value of one that is done. -/
@[simp] theorem done_ok_bind (a : α) (f : α → Prog Op Ans ε β) :
    (done (.ok a) : Prog Op Ans ε α) >>= f = f a := rfl

/-- The error of a program that is done is passed on. -/
@[simp] theorem done_error_bind (e : ε) (f : α → Prog Op Ans ε β) :
    (done (.error e) : Prog Op Ans ε α) >>= f = done (.error e) := rfl

/-- What is bound to an operation comes after its answer. -/
@[simp] theorem await_bind (op : Op) (next : Ans op → Prog Op Ans ε α)
    (f : α → Prog Op Ans ε β) :
    await op next >>= f = await op fun answer => next answer >>= f := rfl

/-- Attempting a program that is done gives its result. -/
@[simp] theorem attempt_done (result : Except ε α) :
    (attempt (done result : Prog Op Ans ε α) : Prog Op Ans ε' (Except ε α)) =
      done (.ok result) := rfl

/-- Attempting an operation is attempting what comes after its answer. -/
@[simp] theorem attempt_await (op : Op) (next : Ans op → Prog Op Ans ε α) :
    (attempt (await op next) : Prog Op Ans ε' (Except ε α)) =
      await op fun answer => attempt (next answer) := rfl

/-- The error of a program that is done is mapped. -/
@[simp] theorem mapError_done (g : ε → ε') (result : Except ε α) :
    mapError g (done result : Prog Op Ans ε α) = done (result.mapError g) := rfl

/-- The errors after an answer are mapped. -/
@[simp] theorem mapError_await (g : ε → ε') (op : Op) (next : Ans op → Prog Op Ans ε α) :
    mapError g (await op next) = await op fun answer => mapError g (next answer) := rfl

/-! ### Histories -/

/-- `p.Reach history q`: after the answers in `history`, the call `p` has become `q`. -/
inductive Reach : Prog Op Ans ε α → List (Event Ans) → Prog Op Ans ε α → Prop where
  | here (p : Prog Op Ans ε α) : Reach p [] p
  | answered {op : Op} {next : Ans op → Prog Op Ans ε α} {answer : Ans op}
      {history : List (Event Ans)} {q : Prog Op Ans ε α}
      (rest : Reach (next answer) history q) : Reach (.await op next) (⟨op, answer⟩ :: history) q

/-- After `history`, the call invokes `op`. -/
def Invokes (p : Prog Op Ans ε α) (history : List (Event Ans)) (op : Op) : Prop :=
  ∃ next, p.Reach history (.await op next)

/-- What a program invokes after an answer it invokes after the operation and the answer. -/
theorem Invokes.answered {op op' : Op} {next : Ans op → Prog Op Ans ε α} {answer : Ans op}
    {history : List (Event Ans)} (h : (next answer).Invokes history op') :
    (await op next).Invokes (⟨op, answer⟩ :: history) op' := by
  obtain ⟨next', hreach⟩ := h
  exact ⟨next', .answered hreach⟩

/-- After `history`, the call returns `result`. -/
def Returns (p : Prog Op Ans ε α) (history : List (Event Ans)) (result : Except ε α) : Prop :=
  p.Reach history (.done result)

/-- A program that awaits an answer reaches what comes after it. -/
theorem Reach.snoc {p : Prog Op Ans ε α} {history : List (Event Ans)} {op : Op}
    {next : Ans op → Prog Op Ans ε α} (h : p.Reach history (.await op next)) (answer : Ans op) :
    p.Reach (history ++ [⟨op, answer⟩]) (next answer) := by
  generalize hq : Prog.await op next = q at h
  induction h with
  | here p =>
    subst hq
    exact .answered (.here _)
  | answered _ ih => exact .answered (ih hq)

/-- A history can be cut anywhere. -/
theorem Reach.append {p q : Prog Op Ans ε α} {before after : List (Event Ans)}
    (h : p.Reach (before ++ after) q) :
    ∃ r : Prog Op Ans ε α, p.Reach before r ∧ r.Reach after q := by
  induction before generalizing p with
  | nil => exact ⟨p, .here p, h⟩
  | cons first before ih =>
    cases h with
    | answered rest =>
      obtain ⟨r, hbefore, hafter⟩ := ih rest
      exact ⟨r, .answered hbefore, hafter⟩

/-- An operation answered along a history was invoked after the part before it. -/
theorem Reach.invokes_of_append_cons {p q : Prog Op Ans ε α} {before after : List (Event Ans)}
    {event : Event Ans} (h : p.Reach (before ++ event :: after) q) :
    p.Invokes before event.1 := by
  induction before generalizing p with
  | nil =>
    cases h with
    | answered _ => exact ⟨_, .here _⟩
  | cons first before ih =>
    cases h with
    | answered rest =>
      obtain ⟨next, hreach⟩ := ih rest
      exact ⟨next, .answered hreach⟩

/-- A program that is done reaches only itself. -/
@[simp] theorem reach_done_iff {result : Except ε α} {history : List (Event Ans)}
    {q : Prog Op Ans ε α} :
    (done result : Prog Op Ans ε α).Reach history q ↔ history = [] ∧ q = done result := by
  constructor
  · rintro ⟨⟩
    exact ⟨rfl, rfl⟩
  · rintro ⟨rfl, rfl⟩
    exact .here _

/-- A call that awaits `op` is still there, or `op` has been answered first. -/
theorem reach_await_iff {op : Op} {next : Ans op → Prog Op Ans ε α}
    {history : List (Event Ans)} {q : Prog Op Ans ε α} :
    (await op next).Reach history q ↔ (history = [] ∧ q = await op next) ∨
      ∃ answer rest, history = ⟨op, answer⟩ :: rest ∧ (next answer).Reach rest q := by
  constructor
  · rintro (_ | ⟨rest⟩)
    · exact .inl ⟨rfl, rfl⟩
    · exact .inr ⟨_, _, rfl, rest⟩
  · rintro (⟨rfl, rfl⟩ | ⟨answer, rest, rfl, h⟩)
    · exact .here _
    · exact .answered h

/-- A program that is done returns its result at once. -/
@[simp] theorem returns_done_iff {result r : Except ε α} {history : List (Event Ans)} :
    (done result : Prog Op Ans ε α).Returns history r ↔ history = [] ∧ r = result := by
  simp [Returns]

/-- A program that awaits an answer returns after the operation was answered. -/
theorem returns_await_iff {op : Op} {next : Ans op → Prog Op Ans ε α}
    {history : List (Event Ans)} {r : Except ε α} :
    (await op next).Returns history r ↔
      ∃ answer rest, history = ⟨op, answer⟩ :: rest ∧ (next answer).Returns rest r := by
  simp [Returns, reach_await_iff]

/-- A program that awaits an answer invokes this operation first and others after its answer. -/
theorem invokes_await_iff {op op' : Op} {next : Ans op → Prog Op Ans ε α}
    {history : List (Event Ans)} :
    (await op next).Invokes history op' ↔ (history = [] ∧ op' = op) ∨
      ∃ answer rest, history = ⟨op, answer⟩ :: rest ∧ (next answer).Invokes rest op' := by
  simp only [Invokes, reach_await_iff]
  constructor
  · rintro ⟨next', ⟨rfl, heq⟩ | ⟨answer, rest, rfl, h⟩⟩
    · cases heq
      exact .inl ⟨rfl, rfl⟩
    · exact .inr ⟨answer, rest, rfl, next', h⟩
  · rintro (⟨rfl, rfl⟩ | ⟨answer, rest, rfl, next', h⟩)
    · exact ⟨next, .inl ⟨rfl, rfl⟩⟩
    · exact ⟨next', .inr ⟨answer, rest, rfl, h⟩⟩

/-- A program that is done invokes nothing. -/
@[simp] theorem not_invokes_done {result : Except ε α} {history : List (Event Ans)} {op : Op} :
    ¬(done result : Prog Op Ans ε α).Invokes history op := by
  simp [Invokes]

/-- A history of a sequenced program ends inside the first part, or passes through one of
its results. -/
theorem reach_andThen_iff {p : Prog Op Ans ε α} {f : Except ε α → Prog Op Ans ε' β}
    {history : List (Event Ans)} {q : Prog Op Ans ε' β} :
    (p.andThen f).Reach history q ↔
      (∃ op next, p.Reach history (.await op next) ∧ q = (await op next).andThen f) ∨
      ∃ first rest result, history = first ++ rest ∧ p.Returns first result ∧
        (f result).Reach rest q := by
  induction p generalizing history with
  | done result => simp [Returns]
  | await op next ih =>
    rw [andThen_await, reach_await_iff]
    constructor
    · rintro (⟨rfl, rfl⟩ | ⟨answer, rest, rfl, h⟩)
      · exact .inl ⟨op, next, .here _, rfl⟩
      · rcases (ih answer).mp h with ⟨op', next', h', rfl⟩ | ⟨first, rest', result, rfl, h', hf⟩
        · exact .inl ⟨op', next', .answered h', rfl⟩
        · exact .inr ⟨⟨op, answer⟩ :: first, rest', result, rfl, .answered h', hf⟩
    · rintro (⟨op', next', h', rfl⟩ | ⟨first, rest', result, rfl, h', hf⟩)
      · rcases reach_await_iff.mp h' with ⟨rfl, h⟩ | ⟨answer, rest, rfl, h⟩
        · rw [h]
          exact .inl ⟨rfl, rfl⟩
        · exact .inr ⟨answer, rest, rfl, (ih answer).mpr (.inl ⟨op', next', h, rfl⟩)⟩
      · obtain ⟨answer, rest, rfl, h⟩ := returns_await_iff.mp h'
        exact .inr ⟨answer, rest ++ rest', rfl,
          (ih answer).mpr (.inr ⟨rest, rest', result, rfl, h, hf⟩)⟩

/-- Results with mapped errors come of the results of the program. -/
theorem returns_mapError_iff {p : Prog Op Ans ε α} {g : ε → ε'} {history : List (Event Ans)}
    {result : Except ε' α} :
    (mapError g p).Returns history result ↔
      ∃ result', p.Returns history result' ∧ result = result'.mapError g := by
  rw [Returns, mapError, reach_andThen_iff]
  constructor
  · rintro (⟨op, next, -, h⟩ | ⟨first, rest, result', rfl, hfirst, h⟩)
    · cases h
    · obtain ⟨rfl, rfl⟩ := returns_done_iff.mp h
      exact ⟨result', by simpa using hfirst, rfl⟩
  · rintro ⟨result', h, rfl⟩
    exact .inr ⟨history, [], result', by simp, h, .here _⟩

/-- What is made of the value that a program returns adds nothing to its histories. -/
theorem returns_bind_pure_iff {p : Prog Op Ans ε α} {f : α → β} {history : List (Event Ans)}
    {result : Except ε β} :
    (p >>= fun a => (pure (f a) : Prog Op Ans ε β)).Returns history result ↔
      ∃ result', p.Returns history result' ∧ result = f <$> result' := by
  have hdone : ∀ {rest : List (Event Ans)} {result' : Except ε α},
      ((match result' with
        | .ok a => pure (f a)
        | .error e => .done (.error e) : Prog Op Ans ε β).Reach rest (.done result)) ↔
          rest = [] ∧ result = f <$> result' := by
    intro rest result'
    cases result' <;> exact returns_done_iff
  rw [Returns, bind_eq_andThen, reach_andThen_iff]
  constructor
  · rintro (⟨op, next, -, h⟩ | ⟨first, rest, result', rfl, hfirst, h⟩)
    · cases h
    · obtain ⟨rfl, rfl⟩ := hdone.mp h
      exact ⟨result', by simpa using hfirst, rfl⟩
  · rintro ⟨result', h, rfl⟩
    exact .inr ⟨history, [], result', by simp, h, hdone.mpr ⟨rfl, rfl⟩⟩

/-- A sequenced program returns the error of its first part, or what its second part returns. -/
theorem returns_bind_iff {p : Prog Op Ans ε α} {f : α → Prog Op Ans ε β}
    {history : List (Event Ans)} {result : Except ε β} :
    (p >>= f).Returns history result ↔
      (∃ e, p.Returns history (.error e) ∧ result = .error e) ∨
      ∃ first rest a, history = first ++ rest ∧ p.Returns first (.ok a) ∧
        (f a).Returns rest result := by
  rw [Returns, bind_eq_andThen, reach_andThen_iff]
  constructor
  · rintro (⟨op, next, -, h⟩ | ⟨first, rest, result, rfl, hfirst, h⟩)
    · cases h
    · cases result with
      | ok a => exact .inr ⟨first, rest, a, rfl, hfirst, h⟩
      | error e =>
        obtain ⟨rfl, rfl⟩ := returns_done_iff.mp h
        exact .inl ⟨e, by simpa using hfirst, rfl⟩
  · rintro (⟨e, h, rfl⟩ | ⟨first, rest, a, rfl, hfirst, h⟩)
    · exact .inr ⟨history, [], .error e, (List.append_nil _).symm, h, .here _⟩
    · exact .inr ⟨first, rest, .ok a, rfl, hfirst, h⟩

/-- A sequenced program returns a value if both parts do. -/
theorem returns_bind_ok_iff {p : Prog Op Ans ε α} {f : α → Prog Op Ans ε β}
    {history : List (Event Ans)} {b : β} :
    (p >>= f).Returns history (.ok b) ↔
      ∃ first rest a, history = first ++ rest ∧ p.Returns first (.ok a) ∧
        (f a).Returns rest (.ok b) := by
  simp [returns_bind_iff]

/-- A sequenced program invokes what its first part invokes, and what its second part does. -/
theorem invokes_bind_iff {p : Prog Op Ans ε α} {f : α → Prog Op Ans ε β}
    {history : List (Event Ans)} {op : Op} :
    (p >>= f).Invokes history op ↔ p.Invokes history op ∨
      ∃ first rest a, history = first ++ rest ∧ p.Returns first (.ok a) ∧
        (f a).Invokes rest op := by
  simp only [Invokes, bind_eq_andThen, reach_andThen_iff]
  constructor
  · rintro ⟨next, ⟨op', next', h, heq⟩ | ⟨first, rest, result, rfl, hfirst, h⟩⟩
    · cases heq
      exact .inl ⟨next', h⟩
    · cases result with
      | ok a => exact .inr ⟨first, rest, a, rfl, hfirst, next, h⟩
      | error e => cases (reach_done_iff.mp h).2
  · rintro (⟨next, h⟩ | ⟨first, rest, a, rfl, hfirst, next, h⟩)
    · exact ⟨_, .inl ⟨op, next, h, rfl⟩⟩
    · exact ⟨next, .inr ⟨first, rest, .ok a, rfl, hfirst, h⟩⟩

/-! ### Programs that perform only some operations -/

/-- Whatever the call invokes is of this kind. -/
def Only (kind : Op → Prop) (p : Prog Op Ans ε α) : Prop :=
  ∀ history op, p.Invokes history op → kind op

variable {kind : Op → Prop}

/-- A program that is done invokes nothing of another kind. -/
@[simp] theorem only_done (result : Except ε α) : Only kind (done result : Prog Op Ans ε α) :=
  fun _ _ h => absurd h not_invokes_done

/-- One more operation of the kind keeps a program to it. -/
theorem only_await {op : Op} {next : Ans op → Prog Op Ans ε α} (hop : kind op)
    (hnext : ∀ answer, Only kind (next answer)) : Only kind (await op next) := by
  intro history op' h
  obtain ⟨-, rfl⟩ | ⟨answer, rest, -, hrest⟩ := invokes_await_iff.mp h
  · exact hop
  · exact hnext answer rest op' hrest

/-- Programs that keep to a kind do so one after the other. -/
theorem Only.bind {p : Prog Op Ans ε α} {f : α → Prog Op Ans ε β} (hp : Only kind p)
    (hf : ∀ a, Only kind (f a)) : Only kind (p >>= f) := by
  intro history op h
  obtain h | ⟨first, rest, a, -, -, h⟩ := invokes_bind_iff.mp h
  · exact hp history op h
  · exact hf a rest op h

/-- So is everything that it has been answered. -/
theorem Only.of_mem {p q : Prog Op Ans ε α} (h : Only kind p) {history : List (Event Ans)}
    (hreach : p.Reach history q) {event : Event Ans} (hmem : event ∈ history) : kind event.1 := by
  obtain ⟨before, after, rfl⟩ := List.append_of_mem hmem
  exact h before _ hreach.invokes_of_append_cons

/-! ### Obligations on every history -/

/-- Every operation that `p` invokes after more answers satisfies `guard` with the history
before it, and every result satisfies `post` with the whole history. -/
def Always (guard : List (Event Ans) → Op → Prop)
    (post : List (Event Ans) → Except ε α → Prop) :
    List (Event Ans) → Prog Op Ans ε α → Prop
  | history, .done result => post history result
  | history, .await op next =>
    guard history op ∧ ∀ answer, Always guard post (history ++ [⟨op, answer⟩]) (next answer)

variable {guard guard' : List (Event Ans) → Op → Prop}
  {post post' : List (Event Ans) → Except ε α → Prop}

/-- What holds of a program that is done is the postcondition. -/
@[simp] theorem always_done {history : List (Event Ans)} {result : Except ε α} :
    Always guard post history (done result) ↔ post history result := Iff.rfl

/-- The guard holds of the first operation, and of the rest whatever the answer. -/
@[simp] theorem always_await {history : List (Event Ans)} {op : Op}
    {next : Ans op → Prog Op Ans ε α} :
    Always guard post history (await op next) ↔ guard history op ∧
      ∀ answer, Always guard post (history ++ [⟨op, answer⟩]) (next answer) := Iff.rfl

/-- The sequencing rule: the first part establishes what the second one needs. -/
theorem always_andThen {history : List (Event Ans)} {p : Prog Op Ans ε α}
    {f : Except ε α → Prog Op Ans ε' β} {post : List (Event Ans) → Except ε' β → Prop} :
    Always guard post history (p.andThen f) ↔
      Always guard (fun history result => Always guard post history (f result)) history p := by
  induction p generalizing history with
  | done result => rfl
  | await op next ih => simp only [andThen_await, always_await, ih]

/-- The consequence rule. -/
theorem Always.mono {history : List (Event Ans)} {p : Prog Op Ans ε α}
    (h : Always guard post history p) (hguard : ∀ history op, guard history op → guard' history op)
    (hpost : ∀ history result, post history result → post' history result) :
    Always guard' post' history p := by
  induction p generalizing history with
  | done result => exact hpost _ _ h
  | await op next ih => exact ⟨hguard _ _ h.1, fun answer => ih answer (h.2 answer)⟩

/-- The sequencing rule for programs that end with the first error. -/
theorem always_bind {history : List (Event Ans)} {p : Prog Op Ans ε α}
    {f : α → Prog Op Ans ε β} {post : List (Event Ans) → Except ε β → Prop} :
    Always guard post history (p >>= f) ↔
      Always guard (fun
        | history, .ok a => Always guard post history (f a)
        | history, .error e => post history (.error e)) history p := by
  rw [bind_eq_andThen, always_andThen]
  constructor <;> intro h <;> refine h.mono (fun _ _ => id) fun history result hresult => ?_
  all_goals cases result <;> exact hresult

/-- What is made of the value that a program returns adds no operation. -/
theorem Always.bind_pure {history : List (Event Ans)} {p : Prog Op Ans ε α}
    (h : Always guard (fun _ _ => True) history p) (f : α → β) :
    Always guard (fun _ _ => True) history (p >>= fun a => (pure (f a) : Prog Op Ans ε β)) := by
  rw [always_bind]
  refine h.mono (fun _ _ => id) fun _ result _ => ?_
  cases result <;> exact trivial

/-- The postcondition of a program with mapped errors is that of the program, mapped. -/
theorem always_mapError {history : List (Event Ans)} {p : Prog Op Ans ε α} {g : ε → ε'}
    {post : List (Event Ans) → Except ε' α → Prop} :
    Always guard post history (mapError g p) ↔
      Always guard (fun history result => post history (result.mapError g)) history p :=
  always_andThen

/-- What holds of a failure is the postcondition. -/
@[simp] theorem always_fail {history : List (Event Ans)} {e : ε} :
    Always guard post history (fail e) ↔ post history (.error e) := Iff.rfl

/-- What holds of a lifted result is the postcondition. -/
@[simp] theorem always_lift {history : List (Event Ans)} {result : Except ε α} :
    Always guard post history (lift result) ↔ post history result := Iff.rfl

/-- Obligations hold along every history that continues the initial one. -/
theorem Always.of_reach {start history : List (Event Ans)} {p q : Prog Op Ans ε α}
    (h : Always guard post start p) (hreach : p.Reach history q) :
    Always guard post (start ++ history) q := by
  induction hreach generalizing start with
  | here p => simpa using h
  | answered _ ih => simpa [List.append_assoc] using ih (h.2 _)

/-- Soundness for invoked operations. -/
theorem Always.of_invokes {history : List (Event Ans)} {p : Prog Op Ans ε α} {op : Op}
    (h : Always guard post [] p) (hinvokes : p.Invokes history op) : guard history op := by
  obtain ⟨next, hreach⟩ := hinvokes
  exact (h.of_reach hreach).1

/-- Soundness for results. -/
theorem Always.of_returns {history : List (Event Ans)} {p : Prog Op Ans ε α}
    {result : Except ε α} (h : Always guard post [] p) (hreturns : p.Returns history result) :
    post history result :=
  h.of_reach hreturns

/-- Every operation that a program performs is one that it may invoke. -/
theorem Always.forall_mem {start history : List (Event Ans)} {p q : Prog Op Ans ε α}
    {allowed : Op → Prop} (h : Always (fun _ op => allowed op) post start p)
    (hreach : p.Reach history q) : ∀ event ∈ history, allowed event.1 := by
  induction hreach generalizing start with
  | here p => simp
  | answered _ ih =>
    intro event hevent
    rcases List.mem_cons.mp hevent with rfl | hevent
    · exact h.1
    · exact ih (h.2 _) event hevent

end Prog

end Interaction
