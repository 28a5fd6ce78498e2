import ClavenarSdk.Execution.Evidence
import ClavenarSdk.Interaction.Refinement

/-!
# The life of an authorization

What the durable records say about an authorization, as a machine of its own: unclaimed, in
flight with one intent, completed with the completions of this intent. Every run of any number of
calls over the in-memory store refines this machine, authorization by authorization.
-/

namespace ClavenarSdk

open Interaction Relation ClavenarClient MemoryExecutionStore

/-- What is durably known about an authorization. -/
inductive Lifecycle where
  | unclaimed
  | inFlight (intent : ExecutionIntent)
  | completed (intent : ExecutionIntent) (completions : List ExecutionCompletion)

namespace Lifecycle

/-- What an intent and the completions of an authorization say about it. -/
def ofRecords : Option ExecutionIntent → List ExecutionCompletion → Lifecycle
  | none, _ => .unclaimed
  | some intent, [] => .inFlight intent
  | some intent, completion :: completions => .completed intent (completion :: completions)

/-- An authorization with an intent and a completion is completed. -/
theorem ofRecords_of_ne_nil {intent : ExecutionIntent} {completions : List ExecutionCompletion}
    (h : completions ≠ []) :
    ofRecords (some intent) completions = .completed intent completions := by
  cases completions with
  | nil => exact absurd rfl h
  | cons => rfl

section

variable [Crates]

/-- An authorization moves forward only: its intent is fixed when the attempt starts, and what
is added to it later is evidence about this intent. -/
inductive Step : Lifecycle → Lifecycle → Prop where
  | start {intent : ExecutionIntent} (h : WellFormedIntent intent) :
      Step .unclaimed (.inFlight intent)
  | complete {intent : ExecutionIntent} {completion : ExecutionCompletion}
      (h : Linked intent completion) : Step (.inFlight intent) (.completed intent [completion])
  | completeAgain {intent : ExecutionIntent} {completions : List ExecutionCompletion}
      {completion : ExecutionCompletion} (h : Linked intent completion) :
      Step (.completed intent completions) (.completed intent (completions ++ [completion]))

/-- One more completion of an intent moves its authorization by one step. -/
theorem step_ofRecords {intent : ExecutionIntent} {completion : ExecutionCompletion}
    (completions : List ExecutionCompletion) (h : Linked intent completion) :
    Step (ofRecords (some intent) completions)
      (ofRecords (some intent) (completions ++ [completion])) := by
  cases completions with
  | nil => exact .complete h
  | cons => exact .completeAgain h

variable {life : Lifecycle} {intent : ExecutionIntent}

/-- A completed authorization stays completed, and its completions stay. -/
theorem completed_of_steps {completions : List ExecutionCompletion}
    (h : ReflTransGen Step (.completed intent completions) life) :
    ∃ later, life = .completed intent (completions ++ later) ∧
      ∀ completion ∈ later, Linked intent completion := by
  induction h with
  | refl => exact ⟨[], by simp, by simp⟩
  | tail _ hstep ih =>
    obtain ⟨later, rfl, hlinked⟩ := ih
    cases hstep with
    | @completeAgain _ _ completion h =>
      refine ⟨later ++ [completion], by simp, fun completion' hmem => ?_⟩
      rcases List.mem_append.mp hmem with hmem | hmem
      · exact hlinked completion' hmem
      · exact List.mem_singleton.mp hmem ▸ h

/-- An attempt stays in flight with its intent or is completed for it. -/
theorem inFlight_of_steps (h : ReflTransGen Step (.inFlight intent) life) :
    life = .inFlight intent ∨ ∃ completions, life = .completed intent completions ∧
      completions ≠ [] ∧ ∀ completion ∈ completions, Linked intent completion := by
  rcases ReflTransGen.cases_head h with rfl | ⟨next, hstep, hrest⟩
  · exact .inl rfl
  · cases hstep with
    | complete hfirst =>
      obtain ⟨later, rfl, hlinked⟩ := completed_of_steps hrest
      exact .inr ⟨_, rfl, by simp, List.forall_mem_cons.mpr ⟨hfirst, hlinked⟩⟩

end

end Lifecycle

namespace MemoryExecutionStore

/-- The stored completions of an authorization. -/
def completionsOf (store : MemoryExecutionStore) (authorizationId : Uuid) :
    List ExecutionCompletion :=
  store.completions.filter fun completion => completion.authorizationId = authorizationId

/-- What the store says about an authorization. -/
def lifecycle (store : MemoryExecutionStore) (authorizationId : Uuid) : Lifecycle :=
  .ofRecords (store.intentFor authorizationId) (store.completionsOf authorizationId)

variable {store : MemoryExecutionStore} {authorizationId : Uuid}

/-- An authorization has no completions if none names it. -/
theorem completionsOf_eq_nil_iff : store.completionsOf authorizationId = [] ↔
    authorizationId ∉ store.completions.map ExecutionCompletion.authorizationId := by
  simp [completionsOf, List.filter_eq_nil_iff]

/-- An authorization has no intent if none names it. -/
theorem intentFor_eq_none_iff : store.intentFor authorizationId = none ↔
    authorizationId ∉ store.intents.map ExecutionIntent.authorizationId := by
  simp [intentFor, List.find?_eq_none]

/-- A started intent is found for its authorization unless an earlier one is. -/
theorem intentFor_start {intent : ExecutionIntent} {authorizationUse : EffectAuthorizationUse} :
    (store.start intent authorizationUse).intentFor authorizationId =
      (store.intentFor authorizationId).or
        (if intent.authorizationId = authorizationId then some intent else none) := by
  simp only [intentFor, start, List.find?_append, List.find?_singleton, decide_eq_true_eq]

/-- A commit adds a completion to its own authorization. -/
theorem completionsOf_commit {completion : ExecutionCompletion} :
    (store.commitEffectAndEnqueueReceipt completion).completionsOf authorizationId =
      store.completionsOf authorizationId ++
        if completion.authorizationId = authorizationId then [completion] else [] := by
  simp only [completionsOf, commitEffectAndEnqueueReceipt, List.filter_append]
  split_ifs with hid <;> simp [hid]

end MemoryExecutionStore

/-- The sets from which the store answers agree with its records. -/
structure Tracked (store : MemoryExecutionStore) : Prop where
  distinct : (store.intents.map ExecutionIntent.authorizationId).Nodup
  attempted : ∀ authorizationId, Attempted store authorizationId ↔
    authorizationId ∈ store.intents.map ExecutionIntent.authorizationId
  completed : ∀ authorizationId, authorizationId ∈ store.completedAuthorizations ↔
    authorizationId ∈ store.completions.map ExecutionCompletion.authorizationId
  exclusive : ∀ authorizationId ∈ store.inFlightAuthorizations,
    authorizationId ∉ store.completedAuthorizations

namespace Tracked

variable {store store' : MemoryExecutionStore} {authorizationId : Uuid}

/-- A tracked store has no intent exactly for what was never attempted. -/
theorem intentFor_eq_none_iff (h : Tracked store) :
    store.intentFor authorizationId = none ↔ ¬Attempted store authorizationId := by
  rw [h.attempted, MemoryExecutionStore.intentFor_eq_none_iff]

/-- A tracked store has no completions exactly of what is not completed. -/
theorem completionsOf_eq_nil_iff (h : Tracked store) :
    store.completionsOf authorizationId = [] ↔
      authorizationId ∉ store.completedAuthorizations := by
  rw [h.completed, MemoryExecutionStore.completionsOf_eq_nil_iff]

/-- What the store knows about an authorization, in its sets and in its records. -/
theorem cases (h : Tracked store) (authorizationId : Uuid) :
    (¬Attempted store authorizationId ∧ store.lifecycle authorizationId = .unclaimed) ∨
    ∃ intent, store.intentFor authorizationId = some intent ∧
      ((authorizationId ∈ store.inFlightAuthorizations ∧
          authorizationId ∉ store.completedAuthorizations ∧
          store.lifecycle authorizationId = .inFlight intent) ∨
        (authorizationId ∉ store.inFlightAuthorizations ∧
          authorizationId ∈ store.completedAuthorizations ∧
          store.lifecycle authorizationId =
            .completed intent (store.completionsOf authorizationId))) := by
  cases hintent : store.intentFor authorizationId with
  | none => exact .inl ⟨h.intentFor_eq_none_iff.mp hintent, by rw [lifecycle, hintent]; rfl⟩
  | some intent =>
    have hattempted : Attempted store authorizationId := by
      by_contra hnot
      simp [h.intentFor_eq_none_iff.mpr hnot] at hintent
    refine .inr ⟨intent, rfl, ?_⟩
    rw [lifecycle, hintent]
    by_cases hmem : authorizationId ∈ store.completedAuthorizations
    · have hsome := mt h.completionsOf_eq_nil_iff.mp (not_not.mpr hmem)
      exact .inr ⟨fun hflight => h.exclusive _ hflight hmem, hmem,
        Lifecycle.ofRecords_of_ne_nil hsome⟩
    · rw [h.completionsOf_eq_nil_iff.mpr hmem]
      exact .inl ⟨hattempted.resolve_right hmem, hmem, rfl⟩

/-- An authorization is in flight for the store exactly when its life says so. -/
theorem mem_inFlight_iff (h : Tracked store) :
    authorizationId ∈ store.inFlightAuthorizations ↔
      ∃ intent, store.lifecycle authorizationId = .inFlight intent := by
  rcases h.cases authorizationId with ⟨hnot, hlife⟩ | ⟨intent, -, ⟨hflight, -, hlife⟩ |
    ⟨hflight, -, hlife⟩⟩
  · simpa [hlife] using fun hflight => hnot (.inl hflight)
  · simp [hlife, hflight]
  · simp [hlife, hflight]

/-- An authorization is completed for the store exactly when its life says so. -/
theorem mem_completed_iff (h : Tracked store) :
    authorizationId ∈ store.completedAuthorizations ↔
      ∃ intent completions, store.lifecycle authorizationId = .completed intent completions := by
  rcases h.cases authorizationId with ⟨hnot, hlife⟩ | ⟨intent, -, ⟨-, hcompleted, hlife⟩ |
    ⟨-, hcompleted, hlife⟩⟩
  · simpa [hlife] using fun hcompleted => hnot (.inr hcompleted)
  · simp [hlife, hcompleted]
  · simp [hlife, hcompleted]

/-- The intent of an authorization is the only one that is stored for it. -/
theorem intentFor_of_mem (h : Tracked store) {intent : ExecutionIntent}
    (hintent : intent ∈ store.intents) :
    store.intentFor intent.authorizationId = some intent := by
  have hmem : intent.authorizationId ∈ store.intents.map ExecutionIntent.authorizationId :=
    List.mem_map_of_mem hintent
  cases hfound : store.intentFor intent.authorizationId with
  | none => exact absurd hmem (MemoryExecutionStore.intentFor_eq_none_iff.mp hfound)
  | some existing =>
    have hid : existing.authorizationId = intent.authorizationId := by
      simpa using List.find?_some hfound
    rw [List.inj_on_of_nodup_map h.distinct (List.mem_of_find?_eq_some hfound) hintent hid]

section

variable [Crates]

/-- A started attempt moves its authorization from unclaimed to in flight. -/
theorem start (h : Tracked store) {intent : ExecutionIntent}
    {authorizationUse : EffectAuthorizationUse} (hwell : WellFormedIntent intent)
    (hfresh : ¬Attempted store intent.authorizationId) :
    Tracked (store.start intent authorizationUse) ∧ ∀ authorizationId,
      ReflTransGen Lifecycle.Step (store.lifecycle authorizationId)
        ((store.start intent authorizationUse).lifecycle authorizationId) := by
  have hids : intent.authorizationId ∉ store.intents.map ExecutionIntent.authorizationId :=
    mt (h.attempted _).mpr hfresh
  have hincomplete : intent.authorizationId ∉ store.completedAuthorizations :=
    fun hmem => hfresh (.inr hmem)
  refine ⟨⟨?_, fun other => ?_, h.completed, fun other hflight => ?_⟩, fun other => ?_⟩
  · simp only [MemoryExecutionStore.start, List.map_append, List.nodup_append, h.distinct]
    simpa using hids
  · have hother := h.attempted other
    simp only [Attempted, MemoryExecutionStore.start, Finset.mem_insert, List.map_append,
      List.mem_append, List.map_cons, List.map_nil, List.mem_singleton] at hother ⊢
    rw [← hother]
    tauto
  · rcases Finset.mem_insert.mp hflight with rfl | hflight
    · exact hincomplete
    · exact h.exclusive other hflight
  · rw [lifecycle, lifecycle, intentFor_start]
    change ReflTransGen _ _ (Lifecycle.ofRecords _ (store.completionsOf other))
    by_cases hother : intent.authorizationId = other
    · subst hother
      rw [h.intentFor_eq_none_iff.mpr hfresh, h.completionsOf_eq_nil_iff.mpr hincomplete,
        if_pos rfl]
      exact .single (.start hwell)
    · rw [if_neg hother, Option.or_none]

/-- A stored completion moves the authorization of its intent. -/
theorem commit (h : Tracked store) {completion : ExecutionCompletion}
    (hlinked : ∃ intent ∈ store.intents, Linked intent completion) :
    Tracked (store.commitEffectAndEnqueueReceipt completion) ∧ ∀ authorizationId,
      ReflTransGen Lifecycle.Step (store.lifecycle authorizationId)
        ((store.commitEffectAndEnqueueReceipt completion).lifecycle authorizationId) := by
  obtain ⟨intent, hintent, hlinked⟩ := hlinked
  have hid : completion.authorizationId = intent.authorizationId := hlinked.authorizationId
  have hattempted : Attempted store completion.authorizationId := by
    rw [h.attempted, hid]
    exact List.mem_map_of_mem hintent
  refine ⟨⟨h.distinct, fun other => ?_, fun other => ?_, fun other hflight => ?_⟩,
    fun other => ?_⟩
  · refine Iff.trans ?_ (h.attempted other)
    simp only [Attempted, commitEffectAndEnqueueReceipt, Finset.mem_erase, Finset.mem_insert]
    by_cases hother : other = completion.authorizationId
    · subst hother
      simpa [Attempted] using hattempted
    · simp [hother]
  · have hother := h.completed other
    simp only [commitEffectAndEnqueueReceipt, Finset.mem_insert, List.map_append, List.mem_append,
      List.map_cons, List.map_nil, List.mem_singleton] at hother ⊢
    rw [← hother]
    tauto
  · obtain ⟨hne, hflight⟩ := Finset.mem_erase.mp hflight
    intro hmem
    exact (Finset.mem_insert.mp hmem).elim hne (h.exclusive other hflight)
  · rw [lifecycle, lifecycle, completionsOf_commit]
    change ReflTransGen _ _ (Lifecycle.ofRecords (store.intentFor other) _)
    by_cases hother : completion.authorizationId = other
    · rw [if_pos hother, ← hother, hid, h.intentFor_of_mem hintent]
      exact .single (Lifecycle.step_ofRecords _ hlinked)
    · rw [if_neg hother, List.append_nil]

/-- One answer to an operation in order moves every authorization forward. -/
theorem answer (h : Tracked store) {event : Event Answer} (hevident : Evident store event.1)
    (hanswer : store.Answers event.1 event.2 store') :
    Tracked store' ∧ ∀ authorizationId, ReflTransGen Lifecycle.Step
      (store.lifecycle authorizationId) (store'.lifecycle authorizationId) := by
  cases Answers.change event hanswer with
  | started hflight hcompleted =>
    exact h.start hevident fun hattempted => hattempted.elim hflight hcompleted
  | committed => exact h.commit hevident
  | delivered => exact ⟨⟨h.distinct, h.attempted, h.completed, h.exclusive⟩, fun _ => .refl⟩
  | notStarted | loaded | listed | notPending | outside => exact ⟨h, fun _ => .refl⟩

end

end Tracked

/-! ### Whole runs -/

/-- The records of a store are a beginning of the records of another one. -/
def Recalls (store store' : MemoryExecutionStore) : Prop :=
  store.intents <+: store'.intents ∧ store.completions <+: store'.completions ∧
    store.delivered <+: store'.delivered

/-- A store recalls itself. -/
theorem Recalls.refl (store : MemoryExecutionStore) : Recalls store store :=
  ⟨List.prefix_rfl, List.prefix_rfl, List.prefix_rfl⟩

/-- What is recalled of what is recalled is recalled. -/
theorem Recalls.trans {store store' store'' : MemoryExecutionStore} (h : Recalls store store')
    (h' : Recalls store' store'') : Recalls store store'' :=
  ⟨h.1.trans h'.1, h.2.1.trans h'.2.1, h.2.2.trans h'.2.2⟩

/-- Answers only append to the records. -/
theorem recalls_of_answers {store store' : MemoryExecutionStore} {event : Event Answer}
    (h : store.Answers event.1 event.2 store') : Recalls store store' := by
  have hrefl := Recalls.refl store
  cases Answers.change event h with
  | started => exact ⟨List.prefix_append _ _, hrefl.2.1, hrefl.2.2⟩
  | committed => exact ⟨hrefl.1, List.prefix_append _ _, hrefl.2.2⟩
  | delivered => exact ⟨hrefl.1, hrefl.2.1, List.prefix_append _ _⟩
  | notStarted | loaded | listed | notPending | outside => exact hrefl

section

variable [Crates] {c c' : Sys MemoryExecutionStore Op Answer ClavenarError ApiResult}

/-- Every call of the execution API keeps the evidence of the store. -/
theorem allowed_evident : ∀ p, Allowed p → ∀ store, evidence.inv store →
    evidence.Keeps (fun _ _ => True) store p := by
  rintro p ⟨client, call, rfl⟩ store -
  exact apiCall_evident client call

/-- The sets from which the store answers agree with its records in every reachable state. -/
theorem tracked_of_reachable (h : c.Reachable MemoryExecutionStore.env Allowed) :
    Tracked c.shared := by
  obtain ⟨store, rfl, hlater⟩ := h.exists_init
  refine Discipline.later_invariant (D := evidence) (I := fun store _ => Tracked store)
    allowed_evident (fun _ _ _ _ _ hevident hanswer htracked =>
      (htracked.answer hevident hanswer).1) ?_ (.init rfl) hlater ?_
  · rintro store _ _ (_ | _) htracked <;>
      exact ⟨htracked.distinct, htracked.attempted, htracked.completed, htracked.exclusive⟩
  · exact ⟨by simp [initial], by simp [initial, Attempted], by simp [initial], by simp [initial]⟩

/-- From a state of a run on, no attempt is started again. -/
theorem not_started_later (h : c.Reachable MemoryExecutionStore.env Allowed)
    (hlater : c.Later MemoryExecutionStore.env Allowed c') {authorizationId : Uuid}
    (hattempted : Attempted c.shared authorizationId) :
    ∀ event ∈ c'.log.drop c.log.length, startedFor authorizationId event = false := by
  have hsince : Attempted c'.shared authorizationId ∧ ∃ since, c'.log = c.log ++ since ∧
      ∀ event ∈ since, startedFor authorizationId event = false := by
    refine Discipline.later_invariant (D := evidence) (I := fun store log =>
      Attempted store authorizationId ∧ ∃ since, log = c.log ++ since ∧
        ∀ event ∈ since, startedFor authorizationId event = false)
      allowed_evident ?_ ?_ h hlater ⟨hattempted, [], by simp, by simp⟩
    · rintro store store' _ event - - hanswer ⟨hattempted, since, rfl, hsince⟩
      obtain ⟨hkeeps, hstarts⟩ := answers_inFlight_or_completed hanswer authorizationId
      refine ⟨hkeeps hattempted, since ++ [event], List.append_assoc _ _ _, fun event' hmem => ?_⟩
      rcases List.mem_append.mp hmem with hmem | hmem
      · exact hsince event' hmem
      · obtain rfl := List.mem_singleton.mp hmem
        by_contra hstarted
        obtain ⟨hfresh, -⟩ := hstarts (by simpa using hstarted)
        exact hattempted.elim hfresh.1 hfresh.2
    · rintro store _ _ (_ | _) hsince <;> exact hsince
  obtain ⟨-, since, hlog, hsince⟩ := hsince
  rw [hlog, List.drop_left]
  exact hsince

/-- Every run refines the life of every authorization. Between a reachable state and any later
one, whatever calls run, are cut off or are lost in between: each authorization only takes steps
of its life; the sets from which the store answers tell exactly where it stands; no attempt is
started twice, and no authorization has two intents; and intents, completions, deliveries and the
log only grow at their ends. -/
theorem lifecycle_refined (h : c.Reachable MemoryExecutionStore.env Allowed)
    (hlater : c.Later MemoryExecutionStore.env Allowed c') :
    (∀ authorizationId,
      ReflTransGen Lifecycle.Step (c.shared.lifecycle authorizationId)
        (c'.shared.lifecycle authorizationId) ∧
      (authorizationId ∈ c'.shared.inFlightAuthorizations ↔
        ∃ intent, c'.shared.lifecycle authorizationId = .inFlight intent) ∧
      (authorizationId ∈ c'.shared.completedAuthorizations ↔ ∃ intent completions,
        c'.shared.lifecycle authorizationId = .completed intent completions) ∧
      (c.shared.lifecycle authorizationId ≠ .unclaimed →
        ∀ event ∈ c'.log.drop c.log.length, startedFor authorizationId event = false)) ∧
    (c'.shared.intents.map ExecutionIntent.authorizationId).Nodup ∧
    Recalls c.shared c'.shared ∧ c.log <+: c'.log := by
  have htracked := tracked_of_reachable h
  have htracked' := tracked_of_reachable (h.later hlater)
  refine ⟨fun authorizationId => ⟨?_, htracked'.mem_inFlight_iff, htracked'.mem_completed_iff,
    fun hclaimed => not_started_later h hlater ?_⟩, htracked'.distinct, ?_, hlater.log_prefix⟩
  · refine (Discipline.refines (D := evidence) (I := Tracked)
      (fun store : MemoryExecutionStore => store.lifecycle authorizationId) allowed_evident
      (fun store store' event _ hevident hanswer htracked => ?_) ?_ h hlater htracked).2
    · obtain ⟨htracked, hsteps⟩ := htracked.answer hevident hanswer
      exact ⟨htracked, hsteps authorizationId⟩
    · rintro store _ (_ | _) htracked <;>
        exact ⟨⟨htracked.distinct, htracked.attempted, htracked.completed, htracked.exclusive⟩, rfl⟩
  · rcases htracked.cases authorizationId with
      ⟨-, hlife⟩ | ⟨_, -, ⟨hflight, -⟩ | ⟨-, hcompleted, -⟩⟩
    · exact absurd hlife hclaimed
    · exact .inl hflight
    · exact .inr hcompleted
  · refine Discipline.later_invariant (D := evidence) (I := fun store _ => Recalls c.shared store)
      allowed_evident (fun _ _ _ _ _ _ hanswer hrecalls => hrecalls.trans
        (recalls_of_answers hanswer)) ?_ h hlater (.refl _)
    rintro store _ _ (_ | _) hrecalls <;> exact hrecalls

end

namespace Fixture

attribute [local instance] crates

/-- From the empty store to the end of the run of the test. -/
theorem lifecycle_refined_finished :
    ReflTransGen Lifecycle.Step (initial.lifecycle authorization.authorization.authorizationId)
      (finished.shared.lifecycle authorization.authorization.authorizationId) := by
  obtain ⟨store, rfl, hlater⟩ := finished_reachable.exists_init
  exact ((lifecycle_refined (.init rfl) hlater).1 _).1

end Fixture

end ClavenarSdk
