import ClavenarSdk.Interaction.System

/-!
# Cells of the shared state

A cell is a part of the shared state that changes only by writing to it. What it holds is what
was written last, and every operation meets what had been written last before it.
-/

namespace Interaction

variable {Op σ κ : Type} {Ans : Op → Type} {ε ρ : Type}

/-- What was written last, or what was there at the beginning. -/
def latest (written : Event Ans → Option κ) (initial : κ) (log : List (Event Ans)) : κ :=
  log.foldl (fun held event => (written event).getD held) initial

/-- Before anything is written a cell holds its first content. -/
@[simp] theorem latest_nil (written : Event Ans → Option κ) (initial : κ) :
    latest written initial [] = initial := rfl

/-- An event that writes the cell determines its content, and another leaves it. -/
@[simp] theorem latest_append_singleton (written : Event Ans → Option κ) (initial : κ)
    (log : List (Event Ans)) (event : Event Ans) :
    latest written initial (log ++ [event]) =
      (written event).getD (latest written initial log) := by
  simp [latest]

/-- What a cell holds was there at the beginning or has been written. -/
theorem latest_eq_or_mem (written : Event Ans → Option κ) (initial : κ) (log : List (Event Ans)) :
    latest written initial log = initial ∨
      ∃ event ∈ log, written event = some (latest written initial log) := by
  induction log using List.reverseRecOn with
  | nil => exact .inl rfl
  | append_singleton log event ih =>
    rw [latest_append_singleton]
    cases hwritten : written event with
    | some value => exact .inr ⟨event, by simp, hwritten⟩
    | none =>
      obtain h | ⟨event', hmem, h⟩ := ih
      · exact .inl h
      · exact .inr ⟨event', by simp [hmem], h⟩

/-- If nothing is there at the beginning, the last value that was written is. -/
theorem latest_map_some (put : Event Ans → Option κ) (log : List (Event Ans)) :
    latest (fun event => (put event).map some) none log = (log.filterMap put).getLast? := by
  induction log using List.reverseRecOn with
  | nil => rfl
  | append_singleton log event ih =>
    rw [latest_append_singleton, ih, List.filterMap_append, List.getLast?_append]
    cases hput : put event <;> simp [hput]

/-- A part of the shared state, and what the operations write to it. -/
structure Cell (E : Env σ Ans) (κ : Type) where
  /-- What it holds. -/
  get : σ → κ
  /-- What an answered operation has written. -/
  written : Event Ans → Option κ
  answered : ∀ (s : σ) (event : Event Ans) (s' : σ), E.answers s event.1 event.2 s' →
    get s' = (written event).getD (get s)
  drifted : ∀ s s', E.drift s s' → get s' = get s

/-- Every operation was answered while the cell held what was written last. -/
def Cell.Met {E : Env σ Ans} (cell : Cell E κ) (initial : κ) (log : List (Event Ans)) : Prop :=
  ∀ before event after, log = before ++ event :: after →
    ∃ s s', E.answers s event.1 event.2 s' ∧ cell.get s = latest cell.written initial before

/-- A cell that has met its writes also meets the next answer. -/
theorem Cell.Met.snoc {E : Env σ Ans} {cell : Cell E κ} {initial : κ} {log : List (Event Ans)}
    (h : cell.Met initial log) {event : Event Ans} {s s' : σ}
    (hanswers : E.answers s event.1 event.2 s')
    (hget : cell.get s = latest cell.written initial log) : cell.Met initial (log ++ [event]) := by
  intro before event' after hlog
  rcases List.eq_nil_or_concat after with rfl | ⟨after, last, rfl⟩
  · obtain ⟨rfl, hsame⟩ := List.append_inj' hlog rfl
    obtain rfl : event = event' := by simpa using hsame
    exact ⟨s, s', hanswers, hget⟩
  · rw [List.concat_eq_append, ← List.cons_append, ← List.append_assoc] at hlog
    exact h before event' after (List.append_inj' hlog rfl).1

/-- A call never takes back what it has invoked. -/
theorem Task.Step.invoked_subset {E : Env σ Ans} {t t' : Task Op Ans ε ρ} {s s' : σ}
    {event : Option (Event Ans)} (h : Task.Step E t s event t' s') : t.invoked ⊆ t'.invoked := by
  cases h <;> simp [Task.invoked, Phase.pending]

namespace Sys

variable {E : Env σ Ans} {allowed : Prog Op Ans ε ρ → Prop} {c : Sys σ Op Ans ε ρ}

/-- In every run a cell holds what was written last, and so it did at every operation. -/
theorem Reachable.cell (h : c.Reachable E allowed) (cell : Cell E κ) :
    ∃ s, E.init s ∧ cell.get c.shared = latest cell.written (cell.get s) c.log ∧
      cell.Met (cell.get s) c.log := by
  induction h with
  | @init s hs => exact ⟨s, hs, rfl, by simp [Cell.Met]⟩
  | step _ hs ih =>
    obtain ⟨s, hinit, hget, hmet⟩ := ih
    refine ⟨s, hinit, ?_⟩
    cases hs with
    | spawn => exact ⟨hget, hmet⟩
    | drift hd => exact ⟨(cell.drifted _ _ hd).trans hget, hmet⟩
    | task ht =>
      cases ht with
      | issue | drop => simpa using ⟨hget, hmet⟩
      | @complete _ _ op _ _ _ answer ha | @lose _ _ op _ _ _ answer ha =>
        refine ⟨?_, hmet.snoc ha hget⟩
        have hafter := cell.answered _ ⟨op, answer⟩ _ ha
        rw [hafter, hget]
        exact (latest_append_singleton _ _ _ _).symm

/-- Whatever was performed was invoked by a call. -/
theorem Reachable.log_invoked (h : c.Reachable E allowed) :
    ∀ event ∈ c.log, ∃ t ∈ c.tasks, event.1 ∈ t.invoked := by
  induction h with
  | init => simp
  | step _ hs ih =>
    cases hs with
    | spawn =>
      intro event hevent
      obtain ⟨t, ht, hop⟩ := ih event hevent
      exact ⟨t, by simp [ht], hop⟩
    | drift => exact ih
    | @task _ _ before after t t' _ performed ht =>
      have hkeeps : t.invoked ⊆ t'.invoked := ht.invoked_subset
      intro event hevent
      rcases List.mem_append.mp hevent with hbefore | hnew
      · obtain ⟨u, hu, hop⟩ := ih event hbefore
        rcases List.mem_append.mp hu with hu | hu
        · exact ⟨u, by simp [hu], hop⟩
        · rcases List.mem_cons.mp hu with rfl | hu
          · exact ⟨t', by simp, hkeeps hop⟩
          · exact ⟨u, by simp [hu], hop⟩
      · refine ⟨t', by simp, ?_⟩
        cases ht with
        | issue | drop => simp at hnew
        | complete | lose =>
          obtain rfl := List.mem_singleton.mp hnew
          simp [Task.invoked, Phase.pending]

/-- A cell that is written only while it is empty is written once, and every operation meets
what has been written before it. -/
theorem Reachable.once (h : c.Reachable E allowed) (cell : Cell E (Option κ))
    {put : Event Ans → Option κ} (hwritten : cell.written = fun event => (put event).map some)
    (hinit : ∀ s, E.init s → cell.get s = none)
    (hempty : ∀ (s : σ) (event : Event Ans) (s' : σ), E.answers s event.1 event.2 s' →
      (put event).isSome = true → cell.get s = none) :
    (c.log.filterMap put).length ≤ 1 ∧ cell.get c.shared = (c.log.filterMap put).head? ∧
      ∀ before event after, c.log = before ++ event :: after →
        ∃ s s', E.answers s event.1 event.2 s' ∧ cell.get s = (before.filterMap put).head? := by
  obtain ⟨s, hs, hget, hmet⟩ := h.cell cell
  rw [hinit s hs, hwritten] at hget
  rw [hinit s hs] at hmet
  have hlength : ∀ log, log <+: c.log → (log.filterMap put).length ≤ 1 := by
    intro log
    induction log using List.reverseRecOn with
    | nil => simp
    | append_singleton before event ih =>
      rintro ⟨after, hlog⟩
      rw [List.append_assoc, List.singleton_append] at hlog
      have hbefore := ih ⟨event :: after, hlog⟩
      rw [List.filterMap_append, List.length_append]
      cases hput : put event with
      | none => simpa [hput] using hbefore
      | some value =>
        obtain ⟨s, s', hanswers, hheld⟩ := hmet before event after hlog.symm
        rw [hempty s event s' hanswers (by simp [hput]), hwritten, latest_map_some] at hheld
        rw [List.getLast?_eq_none_iff.mp hheld.symm]
        simp [hput]
  have hhead : ∀ log, log <+: c.log →
      latest (fun event => (put event).map some) none log = (log.filterMap put).head? := by
    intro log hlog
    rw [latest_map_some]
    match log.filterMap put, hlength log hlog with
    | [], _ => rfl
    | [value], _ => rfl
  refine ⟨hlength _ List.prefix_rfl, hget.trans (hhead _ List.prefix_rfl), ?_⟩
  intro before event after hlog
  obtain ⟨s, s', hanswers, hheld⟩ := hmet before event after hlog
  rw [hwritten, hhead before ⟨_, hlog.symm⟩] at hheld
  exact ⟨s, s', hanswers, hheld⟩

end Sys

end Interaction
