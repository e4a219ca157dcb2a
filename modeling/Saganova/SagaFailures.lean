import Saganova.SagaCompensation

/-!
# The engine after a failure

`SagaStateMachine.onEvent` drops what comes once a saga is COMPLETED or
COMPENSATED, and the registry takes everything else as it takes an event of a
live saga.  COMPENSATING lies between the two: the current step is still the one
that failed, and its events are taken again.

    a redelivered failure is compensated again, a late success moves on   (failsOnce)
    COMPENSATED is never reached from COMPENSATING          (compensating_forever)

Neither happens in a definition with nothing to undo (`NothingToUndo`), of which
the checkout saga is one.
-/

namespace Saganova

variable {C P : Type}

/-! ## Definitions -/

/-- Publishes are recorded, those before an error too. -/
abbrev Journal (P : Type) := ExceptT Err (StateM (List (Sent P)))

def Journal.publish (type : CommandType) (payload : Option P) (correlationId : String) :
    Journal P Unit :=
  ExceptT.lift (modify (· ++ [{ type, payload, correlationId }]))

/-- The result, and everything published. -/
def Journal.run {α : Type} (p : Journal P α) (sent : List (Sent P)) :
    Except Err α × List (Sent P) :=
  StateT.run (ExceptT.run p) sent

/-- The saved snapshot of a saga, and the commands published for it. -/
structure Driven (C P : Type) where
  snapshot : SagaInstanceSnapshot C
  sent : List (Sent P)

section Drive

variable [Spread C] (definition : SagaDefinition C P)

/-- The first row of a saga; there is none where its first command fails. -/
def Driven.start (sagaId correlationId : String) (context : C) (time : Time) :
    Option (Driven C P) :=
  match Journal.run (CompensationRegistry.start definition Journal.publish (pure time) sagaId
    correlationId context) [] with
  | (.ok snapshot, sent) => some { snapshot, sent }
  | (.error _, _) => none

def Driven.feed (d : Driven C P) (e : Fed C) : Except Err (SagaInstanceSnapshot C) × List (Sent P) :=
  Journal.run (CompensationRegistry.onEvent definition Journal.publish (pure e.time) d.snapshot
    e.type e.correlationId e.payload) d.sent

/-- `SagaStateMachine.onEvent`: the guard, the registry, and the save. -/
def Driven.onEvent (d : Driven C P) (e : Fed C) : Driven C P :=
  if d.snapshot.status = .completed ∨ d.snapshot.status = .compensated then d
  else
    match d.feed definition e with
    | (.ok snapshot, sent) => { snapshot, sent }
    -- nothing is saved, and what was published stays published
    | (.error _, sent) => { d with sent }

def Driven.run (d : Driven C P) (events : List (Fed C)) : Driven C P :=
  events.foldl (Driven.onEvent definition) d

/-- The step that the saga is at. -/
def Driven.step (d : Driven C P) : Option (SagaStep C P) :=
  definition.steps[d.snapshot.currentStepIndex]?

/-- The event is taken as the failure of the current step. -/
structure Driven.AcceptsFailure (d : Driven C P) (e : Fed C) : Prop where
  live : ¬ (d.snapshot.status = .completed ∨ d.snapshot.status = .compensated)
  fails : ∃ step, d.step definition = some step ∧ step.Fails e
  saved : ∃ snapshot sent, d.feed definition e = (.ok snapshot, sent)

/-- After an accepted failure nothing more is published. -/
def Driven.FailsOnce (d : Driven C P) (events : List (Fed C)) : Prop :=
  ∀ pre f post, events = pre ++ f :: post → (d.run definition pre).AcceptsFailure definition f →
    (d.run definition events).sent = (d.run definition (pre ++ [f])).sent

/-- While the saga is COMPENSATING, no event of the current step comes. -/
def Driven.QuietWhileCompensating (d : Driven C P) (events : List (Fed C)) : Prop :=
  ∀ pre e post, events = pre ++ e :: post →
    (d.run definition pre).snapshot.status = .compensating →
    ∀ step, (d.run definition pre).step definition = some step →
      e.type ≠ step.successEvent ∧ e.type ≠ step.failureEvent

/-- No step that can fail comes after one with a compensation. -/
def SagaDefinition.NothingToUndo (definition : SagaDefinition C P) : Prop :=
  ∀ i step, definition.steps[i]? = some step → step.failureEvent ≠ step.successEvent →
    CompensationRegistry.stepsToCompensate definition i = []

end Drive

/-! ## Rules of the journal -/

section Rules

variable {α β : Type}

@[simp] theorem Journal.run_pure (a : α) (sent : List (Sent P)) :
    Journal.run (pure a) sent = (.ok a, sent) := rfl

@[simp] theorem Journal.run_throw (e : Err) (sent : List (Sent P)) :
    Journal.run (throw e : Journal P α) sent = (.error e, sent) := rfl

@[simp] theorem Journal.run_publish (type : CommandType) (payload : Option P)
    (correlationId : String) (sent : List (Sent P)) :
    Journal.run (Journal.publish type payload correlationId) sent =
      (.ok (), sent ++ [⟨type, payload, correlationId⟩]) := rfl

theorem Journal.run_bind_ok {p : Journal P α} {sent sent' : List (Sent P)} {a : α}
    (h : Journal.run p sent = (.ok a, sent')) (f : α → Journal P β) :
    Journal.run (p >>= f) sent = Journal.run (f a) sent' := by
  unfold Journal.run at h ⊢
  rw [ExceptT.run_bind, StateT.run_bind, h]
  rfl

theorem Journal.run_bind_error {p : Journal P α} {sent sent' : List (Sent P)} {e : Err}
    (h : Journal.run p sent = (.error e, sent')) (f : α → Journal P β) :
    Journal.run (p >>= f) sent = (.error e, sent') := by
  unfold Journal.run at h ⊢
  rw [ExceptT.run_bind, StateT.run_bind, h]
  rfl

theorem Journal.run_publishAll (commands sent : List (Sent P)) :
    Journal.run (publishAll Journal.publish commands) sent = (.ok (), sent ++ commands) := by
  induction commands generalizing sent with
  | nil =>
    rw [List.append_nil]
    rfl
  | cons c commands ih =>
    have hrest := ih (sent ++ [c])
    rw [List.append_assoc] at hrest
    exact hrest

end Rules

/-! ## One event -/

section Feed

variable [Spread C] {definition : SagaDefinition C P} {d : Driven C P} {e : Fed C}
  {step : SagaStep C P}

theorem Driven.feed_eq (h : d.step definition = some step) :
    d.feed definition e =
      if e.type = step.successEvent then
        Journal.run (CompensationRegistry.advance definition Journal.publish (pure e.time) d.snapshot
          (merged d.snapshot.context e.payload) e.correlationId) d.sent
      else if e.type = step.failureEvent then
        Journal.run (CompensationRegistry.beginCompensation definition Journal.publish (pure e.time)
          d.snapshot (merged d.snapshot.context e.payload) e.correlationId) d.sent
      else (.ok d.snapshot, d.sent) := by
  unfold Driven.feed CompensationRegistry.onEvent
  rw [stepAt_eq h, pure_bind]
  show Journal.run (if _ then _ else _) d.sent = _
  split
  · rfl
  · split
    · rfl
    · rfl

theorem Driven.feed_none (h : d.step definition = none) :
    ∃ err, d.feed definition e = (.error err, d.sent) := by
  have hstep : definition.steps[d.snapshot.currentStepIndex]? = none := h
  refine ⟨.typeError "Cannot read properties of undefined", ?_⟩
  unfold Driven.feed CompensationRegistry.onEvent CompensationRegistry.stepAt
  simp only [hstep]
  exact Journal.run_bind_error (Journal.run_throw _ _) _

/-- The success of the last step. -/
theorem Driven.feed_last (h : d.step definition = some step)
    (hlast : definition.steps[d.snapshot.currentStepIndex + 1]? = none)
    (hsuccess : e.type = step.successEvent) :
    d.feed definition e = (.ok { d.snapshot with
      context := merged d.snapshot.context e.payload
      status := .completed
      history := d.snapshot.history ++
        [{ step := step.name, event := .succeeded, at_ := e.time }] }, d.sent) := by
  rw [Driven.feed_eq h, if_pos hsuccess]
  unfold CompensationRegistry.advance
  simp only [stepAt_eq h, pure_bind, hlast, Journal.run_pure]

/-- The success of a step before the last. -/
theorem Driven.feed_next {nextStep : SagaStep C P} (h : d.step definition = some step)
    (hnext : definition.steps[d.snapshot.currentStepIndex + 1]? = some nextStep)
    (hsuccess : e.type = step.successEvent) :
    d.feed definition e =
      match nextStep.buildCommandPayload (merged d.snapshot.context e.payload) with
      | .error err => (.error err, d.sent)
      | .ok payload => (.ok { d.snapshot with
          context := merged d.snapshot.context e.payload
          currentStepIndex := d.snapshot.currentStepIndex + 1
          status := .inProgress
          history := d.snapshot.history ++
            [{ step := step.name, event := .succeeded, at_ := e.time }] },
          d.sent ++ [⟨nextStep.command, some payload, e.correlationId⟩]) := by
  rw [Driven.feed_eq h, if_pos hsuccess]
  unfold CompensationRegistry.advance
  simp only [stepAt_eq h, pure_bind, hnext]
  cases nextStep.buildCommandPayload (merged d.snapshot.context e.payload) with
  | error err => rfl
  | ok payload => rfl

/-- A failure that is taken leaves the step where it is. -/
theorem Driven.feed_fails (h : d.step definition = some step) (hfails : step.Fails e)
    {snapshot : SagaInstanceSnapshot C} {sent : List (Sent P)}
    (hfeed : d.feed definition e = (.ok snapshot, sent)) :
    snapshot = failedSnapshot definition d.snapshot step (merged d.snapshot.context e.payload)
      e.time := by
  rw [Driven.feed_eq h, if_neg hfails.2, if_pos hfails.1] at hfeed
  unfold CompensationRegistry.beginCompensation at hfeed
  simp only [stepAt_eq h, pure_bind] at hfeed
  generalize hloop : List.forM (m := Journal P) _ _ = loop at hfeed
  cases hrun : Journal.run loop d.sent with
  | mk result sent' =>
    cases result with
    | error err =>
      rw [Journal.run_bind_error hrun] at hfeed
      nomatch hfeed
    | ok u =>
      rw [Journal.run_bind_ok hrun] at hfeed
      cases hfeed
      rfl

/-- Any other event is ignored. -/
theorem Driven.onEvent_irrelevant (h : d.step definition = some step)
    (hsuccess : e.type ≠ step.successEvent) (hfailure : e.type ≠ step.failureEvent) :
    d.onEvent definition e = d := by
  unfold Driven.onEvent
  rw [Driven.feed_eq h, if_neg hsuccess, if_neg hfailure]
  split <;> rfl

theorem Driven.onEvent_terminal
    (h : d.snapshot.status = .completed ∨ d.snapshot.status = .compensated) :
    d.onEvent definition e = d := if_pos h

/-- **One event.**  What it makes of the snapshot. -/
theorem Driven.onEvent_cases (definition : SagaDefinition C P) (d : Driven C P) (e : Fed C) :
    (d.onEvent definition e).snapshot = d.snapshot ∨
    (d.onEvent definition e).snapshot.status = .completed ∨
    (d.onEvent definition e).snapshot.status = .inProgress ∧
      (d.onEvent definition e).snapshot.currentStepIndex = d.snapshot.currentStepIndex + 1 ∨
    ∃ step context, (d.onEvent definition e).snapshot =
      failedSnapshot definition d.snapshot step context e.time := by
  unfold Driven.onEvent
  split
  · exact .inl rfl
  cases hstep : d.step definition with
  | none =>
    obtain ⟨err, herr⟩ := Driven.feed_none (e := e) hstep
    rw [herr]
    exact .inl rfl
  | some step =>
    by_cases hsuccess : e.type = step.successEvent
    · cases hnext : definition.steps[d.snapshot.currentStepIndex + 1]? with
      | none =>
        rw [Driven.feed_last hstep hnext hsuccess]
        exact .inr (.inl rfl)
      | some nextStep =>
        rw [Driven.feed_next hstep hnext hsuccess]
        cases nextStep.buildCommandPayload (merged d.snapshot.context e.payload) with
        | error err => exact .inl rfl
        | ok payload => exact .inr (.inr (.inl ⟨rfl, rfl⟩))
    · by_cases hfailure : e.type = step.failureEvent
      · cases hfeed : d.feed definition e with
        | mk result sent =>
          cases result with
          | error err => exact .inl rfl
          | ok snapshot =>
            exact .inr (.inr (.inr ⟨step, _,
              Driven.feed_fails hstep ⟨hfailure, hsuccess⟩ hfeed⟩))
      · rw [Driven.feed_eq hstep, if_neg hsuccess, if_neg hfailure]
        exact .inl rfl

end Feed

/-! ## COMPENSATED is out of reach -/

section Compensating

variable {definition : SagaDefinition C P} {d : Driven C P}

theorem Driven.step_of_index {i : ℕ} (h : d.snapshot.currentStepIndex = i) :
    d.step definition = definition.steps[i]? := by
  unfold Driven.step
  rw [h]

theorem stepsToCompensate_succ_ne {i : ℕ}
    (h : CompensationRegistry.stepsToCompensate definition i ≠ []) :
    CompensationRegistry.stepsToCompensate definition (i + 1) ≠ [] := by
  intro hnil
  apply h
  unfold CompensationRegistry.stepsToCompensate at hnil ⊢
  rw [List.take_add_one, List.filter_append, List.reverse_append] at hnil
  exact (List.append_eq_nil_iff.mp hnil).2

theorem Driven.start_status {sagaId correlationId : String} {context : C} {time : Time}
    (h : Driven.start definition sagaId correlationId context time = some d) :
    d.snapshot.status = .inProgress ∧ d.snapshot.currentStepIndex = 0 := by
  unfold Driven.start CompensationRegistry.start CompensationRegistry.stepAt at h
  cases hfirst : definition.steps[0]? with
  | none =>
    simp only [hfirst] at h
    nomatch h
  | some first =>
    simp only [hfirst, pure_bind] at h
    cases hbuild : first.buildCommandPayload context with
    | error err =>
      rw [hbuild] at h
      nomatch h
    | ok payload =>
      rw [hbuild] at h
      cases h
      exact ⟨rfl, rfl⟩

variable [Spread C]

/-- What every event keeps holds after all of them. -/
theorem Driven.run_keeps {I : Driven C P → Prop} (h : I d)
    (step : ∀ d e, I d → I (d.onEvent definition e)) (events : List (Fed C)) :
    I (d.run definition events) := by
  induction events generalizing d with
  | nil => exact h
  | cons e events ih => exact ih (step d e h)

/-- There is something to undo, or the saga is over. -/
def Driven.Undoing (definition : SagaDefinition C P) (d : Driven C P) : Prop :=
  d.snapshot.status = .completed ∨ d.snapshot.status ≠ .compensated ∧
    CompensationRegistry.stepsToCompensate definition d.snapshot.currentStepIndex ≠ []

theorem Driven.Undoing.onEvent (h : d.Undoing definition) (e : Fed C) :
    (d.onEvent definition e).Undoing definition := by
  rcases h with hcompleted | ⟨hopen, hundo⟩
  · rw [Driven.onEvent_terminal (.inl hcompleted)]
    exact .inl hcompleted
  obtain hsame | hcompleted | ⟨hstatus, hindex⟩ | ⟨step, context, hfailed⟩ :=
    Driven.onEvent_cases definition d e
  · unfold Driven.Undoing
    rw [hsame]
    exact .inr ⟨hopen, hundo⟩
  · exact .inl hcompleted
  · refine .inr ⟨by simp [hstatus], ?_⟩
    rw [hindex]
    exact stepsToCompensate_succ_ne hundo
  · refine .inr ⟨?_, ?_⟩
    · rw [hfailed]
      simp [failedSnapshot, List.length_pos_iff.mpr hundo]
    · rw [hfailed]
      exact hundo

theorem Driven.Undoing.run (h : d.Undoing definition) (events : List (Fed C)) :
    (d.run definition events).Undoing definition :=
  Driven.run_keeps h (fun _ e hundoing => hundoing.onEvent e) events

/-- A saga is COMPENSATING only with something to undo. -/
def Driven.CompensatesSome (definition : SagaDefinition C P) (d : Driven C P) : Prop :=
  d.snapshot.status = .compensating →
    CompensationRegistry.stepsToCompensate definition d.snapshot.currentStepIndex ≠ []

theorem Driven.CompensatesSome.onEvent (h : d.CompensatesSome definition) (e : Fed C) :
    (d.onEvent definition e).CompensatesSome definition := by
  intro hcompensating
  obtain hsame | hcompleted | ⟨hstatus, -⟩ | ⟨step, context, hfailed⟩ :=
    Driven.onEvent_cases definition d e
  · rw [hsame] at hcompensating ⊢
    exact h hcompensating
  · nomatch hcompleted.symm.trans hcompensating
  · nomatch hstatus.symm.trans hcompensating
  · rw [hfailed] at hcompensating ⊢
    intro hnil
    have hnone : CompensationRegistry.stepsToCompensate definition d.snapshot.currentStepIndex = [] :=
      hnil
    simp [failedSnapshot, hnone] at hcompensating

theorem Driven.CompensatesSome.run (h : d.CompensatesSome definition) (events : List (Fed C)) :
    (d.run definition events).CompensatesSome definition :=
  Driven.run_keeps h (fun _ e hsome => hsome.onEvent e) events

/-- **COMPENSATED is out of reach.** -/
theorem compensating_forever (definition : SagaDefinition C P) (sagaId correlationId : String)
    (context : C) (time : Time) (d : Driven C P)
    (hstart : Driven.start definition sagaId correlationId context time = some d)
    (events : List (Fed C)) (hcompensating : (d.run definition events).snapshot.status = .compensating)
    (more : List (Fed C)) :
    ((d.run definition events).run definition more).snapshot.status ≠ .compensated := by
  have hsome : d.CompensatesSome definition := fun h => by
    rw [(Driven.start_status hstart).1] at h
    nomatch h
  have hundoing : (d.run definition events).Undoing definition :=
    .inr ⟨by simp [hcompensating], hsome.run events hcompensating⟩
  rcases hundoing.run more with hcompleted | ⟨hopen, -⟩
  · rw [hcompleted]
    simp
  · exact hopen

end Compensating

/-! ## A failure is handled once, or not -/

section Once

variable [Spread C] {definition : SagaDefinition C P} {d : Driven C P}

theorem Driven.run_append (pre post : List (Fed C)) :
    d.run definition (pre ++ post) = (d.run definition pre).run definition post :=
  List.foldl_append ..

theorem Driven.run_snoc (pre : List (Fed C)) (e : Fed C) :
    d.run definition (pre ++ [e]) = (d.run definition pre).onEvent definition e :=
  Driven.run_append pre [e]

theorem Driven.run_terminal
    (h : d.snapshot.status = .completed ∨ d.snapshot.status = .compensated)
    (events : List (Fed C)) : d.run definition events = d := by
  refine Driven.run_keeps (I := fun d' => d' = d) rfl ?_ events
  rintro d' e rfl
  exact Driven.onEvent_terminal h

/-- The saga after an accepted failure. -/
theorem Driven.AcceptsFailure.onEvent {f : Fed C} (h : d.AcceptsFailure definition f) :
    ∃ step context, d.step definition = some step ∧ step.Fails f ∧
      (d.onEvent definition f).snapshot = failedSnapshot definition d.snapshot step context f.time := by
  obtain ⟨step, hstep, hfails⟩ := h.fails
  obtain ⟨snapshot, sent, hfeed⟩ := h.saved
  refine ⟨step, merged d.snapshot.context f.payload, hstep, hfails, ?_⟩
  unfold Driven.onEvent
  rw [if_neg h.live, hfeed]
  exact Driven.feed_fails hstep hfails hfeed

theorem Driven.failsOnce_of_quiet {events : List (Fed C)}
    (hquiet : d.QuietWhileCompensating definition events) : d.FailsOnce definition events := by
  intro pre f post heq haccept
  obtain ⟨step, context, hstep, -, hfailed⟩ := haccept.onEvent
  have hrun : d.run definition (pre ++ [f]) = (d.run definition pre).onEvent definition f :=
    Driven.run_snoc pre f
  have hstatus : (d.run definition (pre ++ [f])).snapshot.status = .compensating ∨
      (d.run definition (pre ++ [f])).snapshot.status = .compensated := by
    rw [hrun, hfailed]
    show (if _ then _ else _) = _ ∨ (if _ then _ else _) = _
    split
    · exact .inl rfl
    · exact .inr rfl
  -- by the events that came after it: none of them changes anything
  suffices hstays : ∀ seen rest, post = seen ++ rest →
      d.run definition (pre ++ [f] ++ seen) = d.run definition (pre ++ [f]) by
    rw [heq, ← hstays post [] (List.append_nil post).symm]
    simp
  intro seen
  induction seen using List.reverseRecOn with
  | nil => exact fun rest _ => by rw [List.append_nil]
  | append_singleton seen e ih =>
    intro rest hpost
    have hseen := ih (e :: rest) (by rw [hpost]; simp)
    rw [← List.append_assoc, Driven.run_append, hseen]
    show (d.run definition (pre ++ [f])).onEvent definition e = _
    rcases hstatus with hcompensating | hcompensated
    · have hcurrent : (d.run definition (pre ++ [f])).step definition = some step := by
        rw [hrun, Driven.step_of_index (by rw [hfailed])]
        exact hstep
      have hnone := hquiet (pre ++ [f] ++ seen) e rest (by rw [heq, hpost]; simp)
      rw [hseen] at hnone
      obtain ⟨hsuccess, hfailure⟩ := hnone hcompensating step hcurrent
      exact Driven.onEvent_irrelevant hcurrent hsuccess hfailure
    · exact Driven.onEvent_terminal (.inr hcompensated)

/-- With nothing to undo the first failure is the last event that counts. -/
theorem Driven.failsOnce_of_nothingToUndo (hnothing : definition.NothingToUndo)
    (events : List (Fed C)) : d.FailsOnce definition events := by
  intro pre f post heq haccept
  obtain ⟨step, context, hstep, hfails, hfailed⟩ := haccept.onEvent
  have hundo := hnothing _ step hstep fun hsame => hfails.2 (hfails.1.trans hsame)
  have hrun : d.run definition (pre ++ [f]) = (d.run definition pre).onEvent definition f :=
    Driven.run_snoc pre f
  have hcompensated : (d.run definition (pre ++ [f])).snapshot.status = .compensated := by
    rw [hrun, hfailed]
    simp [failedSnapshot, hundo]
  have hpost : events = pre ++ [f] ++ post := by
    rw [heq]
    simp
  rw [hpost, Driven.run_append, Driven.run_terminal (.inr hcompensated)]

/-! ### Every step that comes after a compensation fails twice -/

/-- With total builders a failure of the current step compensates each step that
has something to undo. -/
theorem Driven.onEvent_fails (htotal : definition.Total) {step : SagaStep C P} {f : Fed C}
    (hlive : ¬ (d.snapshot.status = .completed ∨ d.snapshot.status = .compensated))
    (hstep : d.step definition = some step) (hfails : step.Fails f) :
    d.AcceptsFailure definition f ∧ ∃ undone context,
      undone.length =
        (CompensationRegistry.stepsToCompensate definition d.snapshot.currentStepIndex).length ∧
      d.onEvent definition f =
        ⟨failedSnapshot definition d.snapshot step context f.time, d.sent ++ undone⟩ := by
  obtain ⟨undone, hundone, hloop⟩ := compensations_eq Journal.publish
    (merged d.snapshot.context f.payload) f.correlationId
    (fun s hs => (mem_stepsToCompensate hs).2)
    (fun s hs => htotal.compensation s (mem_stepsToCompensate hs).1
      (merged d.snapshot.context f.payload))
  have hfeed : d.feed definition f = (.ok (failedSnapshot definition d.snapshot step
      (merged d.snapshot.context f.payload) f.time), d.sent ++ undone) := by
    rw [Driven.feed_eq hstep, if_neg hfails.2, if_pos hfails.1]
    unfold CompensationRegistry.beginCompensation
    simp only [stepAt_eq hstep, pure_bind]
    show Journal.run ((CompensationRegistry.stepsToCompensate definition
      d.snapshot.currentStepIndex).forM (compensate Journal.publish
        (merged d.snapshot.context f.payload) f.correlationId) >>= fun _ =>
          pure (failedSnapshot definition d.snapshot step
            (merged d.snapshot.context f.payload) f.time)) d.sent = _
    rw [hloop, Journal.run_bind_ok (Journal.run_publishAll undone d.sent), Journal.run_pure]
  refine ⟨⟨hlive, ⟨step, hstep, hfails⟩, ⟨_, _, hfeed⟩⟩, undone,
    merged d.snapshot.context f.payload, hundone.length_eq.symm, ?_⟩
  unfold Driven.onEvent
  rw [if_neg hlive, hfeed]

/-- With total builders the success events lead to every step. -/
theorem Driven.reaches (htotal : definition.Total)
    (hstart : d.snapshot.status = .inProgress ∧ d.snapshot.currentStepIndex = 0) {i : ℕ}
    (hi : i < definition.steps.length) : ∃ events,
      (d.run definition events).snapshot.status = .inProgress ∧
        (d.run definition events).snapshot.currentStepIndex = i := by
  induction i with
  | zero => exact ⟨[], hstart⟩
  | succ i ih =>
    obtain ⟨events, hstatus, hindex⟩ := ih (by omega)
    obtain ⟨step, hstep⟩ : ∃ step, definition.steps[i]? = some step :=
      ⟨_, List.getElem?_eq_getElem (by omega)⟩
    obtain ⟨nextStep, hnext⟩ : ∃ nextStep, definition.steps[i + 1]? = some nextStep :=
      ⟨_, List.getElem?_eq_getElem hi⟩
    let e : Fed C := ⟨step.successEvent, "", none, ""⟩
    obtain ⟨payload, hpayload⟩ := htotal.command nextStep (List.mem_of_getElem? hnext)
      (merged (d.run definition events).snapshot.context e.payload)
    refine ⟨events ++ [e], ?_⟩
    have hcurrent : (d.run definition events).step definition = some step :=
      (Driven.step_of_index hindex).trans hstep
    rw [Driven.run_snoc]
    unfold Driven.onEvent
    rw [if_neg (by simp [hstatus]),
      Driven.feed_next hcurrent (by rw [hindex]; exact hnext) rfl, hpayload, hindex]
    exact ⟨rfl, rfl⟩

theorem Driven.nothingToUndo_of_failsOnce (htotal : definition.Total)
    (hstart : d.snapshot.status = .inProgress ∧ d.snapshot.currentStepIndex = 0)
    (honce : ∀ events, d.FailsOnce definition events) : definition.NothingToUndo := by
  intro i step hstep hne
  by_contra hundo
  obtain ⟨pre, hstatus, hindex⟩ :=
    Driven.reaches htotal hstart (List.getElem?_eq_some_iff.mp hstep).1
  let f : Fed C := ⟨step.failureEvent, "", none, ""⟩
  have hfails : step.Fails f := ⟨rfl, hne⟩
  have hcurrent : (d.run definition pre).step definition = some step :=
    (Driven.step_of_index hindex).trans hstep
  obtain ⟨haccept, undone, context, -, hfirst⟩ := Driven.onEvent_fails htotal (by simp [hstatus])
    hcurrent hfails
  generalize hd₁ : (d.run definition pre).onEvent definition f = d₁ at hfirst
  -- the redelivery finds the saga COMPENSATING, at the same step
  have hindex₁ : d₁.snapshot.currentStepIndex = i := by
    rw [hfirst]
    exact hindex
  have hstatus₁ : d₁.snapshot.status = .compensating := by
    rw [hfirst]
    show (if _ then _ else _) = _
    rw [hindex]
    exact if_pos (List.length_pos_iff.mpr hundo)
  have hcurrent₁ : d₁.step definition = some step :=
    (Driven.step_of_index hindex₁).trans hstep
  obtain ⟨-, again, context', hlength, hsecond⟩ := Driven.onEvent_fails htotal
    (by simp [hstatus₁]) hcurrent₁ hfails
  have hsame := honce (pre ++ [f, f]) pre f [f] rfl haccept
  have hrun : d.run definition (pre ++ [f]) = d₁ := (Driven.run_snoc pre f).trans hd₁
  have hrun' : d.run definition (pre ++ [f, f]) = d₁.onEvent definition f := by
    rw [Driven.run_append, ← hd₁]
    rfl
  rw [hrun, hrun', hsecond] at hsame
  rw [List.append_right_eq_self.mp hsame, hindex₁] at hlength
  exact hundo (List.length_eq_zero_iff.mp hlength.symm)

/-- **A failing saga is handled once**, in the runs in which no event of the
step that failed comes while the saga is COMPENSATING, and in every run exactly
of the definitions with nothing to undo. -/
theorem failsOnce (definition : SagaDefinition C P) (sagaId correlationId : String) (context : C)
    (time : Time) (d : Driven C P)
    (hstart : Driven.start definition sagaId correlationId context time = some d) :
    (∀ events, d.QuietWhileCompensating definition events → d.FailsOnce definition events) ∧
    (definition.Total →
      ((∀ events, d.FailsOnce definition events) ↔ definition.NothingToUndo)) := by
  refine ⟨fun _ hquiet => Driven.failsOnce_of_quiet hquiet, fun htotal => ⟨?_, ?_⟩⟩
  · exact Driven.nothingToUndo_of_failsOnce htotal (Driven.start_status hstart)
  · exact Driven.failsOnce_of_nothingToUndo

end Once

/-! ## Two sagas -/

/-- The checkout: the only step before another declares no compensation. -/
theorem orderFulfillmentSaga_nothingToUndo : orderFulfillmentSaga.NothingToUndo := by
  intro i step hstep _
  match i with
  | 0 => rfl
  | 1 => rfl
  | i + 2 => nomatch hstep

/-- So the checkout handles its failure once, in every run. -/
theorem orderFulfillmentSaga_failsOnce (d : Driven OrderFulfillmentContext Payload)
    (events : List (Fed OrderFulfillmentContext)) : d.FailsOnce orderFulfillmentSaga events :=
  Driven.failsOnce_of_nothingToUndo orderFulfillmentSaga_nothingToUndo events

/-- A parcel saga whose first step is done. -/
def parcelStarted : Driven OrderFulfillmentContext Payload where
  snapshot :=
    { sagaId := order₁, definitionName := "parcel", currentStepIndex := 0, status := .inProgress
      context := {}, history := [{ step := "RESERVE", event := .started, at_ := "t₀" }] }
  sent := [⟨.reserveStock, some {}, "k"⟩]

/-- Stock is reserved, and the card is declined. -/
def declinedParcel : List (Fed OrderFulfillmentContext) :=
  [⟨.inventoryReserved, "k", none, "t₁"⟩, ⟨.paymentDeclined, "k", none, "t₂"⟩]

theorem declinedParcel_quiet :
    parcelStarted.QuietWhileCompensating parcelSaga declinedParcel := by
  intro pre e post heq hcompensating
  match pre with
  | [] => nomatch hcompensating
  | [e₁] =>
    obtain ⟨rfl, -⟩ := List.cons.inj heq
    nomatch hcompensating
  | _ :: _ :: pre =>
    have hlength := congrArg List.length heq
    simp [declinedParcel] at hlength

/-- The reservation is released once. -/
theorem failsOnce_declinedParcel : parcelStarted.FailsOnce parcelSaga declinedParcel :=
  (failsOnce parcelSaga order₁ "k" {} "t₀" parcelStarted rfl).1 _ declinedParcel_quiet

/-- The decline is delivered again: the reservation is released a second time. -/
theorem failsOnce_fails : Driven.start parcelSaga order₁ "k" {} "t₀" = some parcelStarted ∧
    ¬ parcelStarted.FailsOnce parcelSaga
      (declinedParcel ++ [⟨.paymentDeclined, "k", none, "t₃"⟩]) := by
  refine ⟨rfl, fun honce => ?_⟩
  have hsame := honce [⟨.inventoryReserved, "k", none, "t₁"⟩] ⟨.paymentDeclined, "k", none, "t₂"⟩
    [⟨.paymentDeclined, "k", none, "t₃"⟩] rfl
    ⟨by decide, ⟨_, rfl, rfl, by decide⟩, ⟨_, _, rfl⟩⟩
  have hlength := congrArg List.length hsame
  revert hlength
  decide

/-- Its reservation released, the parcel saga is not COMPENSATED. -/
theorem compensating_declinedParcel :
    ((parcelStarted.run parcelSaga declinedParcel).run parcelSaga
      [⟨.inventoryReleased, "k", none, "t₃"⟩]).snapshot.status ≠ .compensated :=
  compensating_forever parcelSaga order₁ "k" {} "t₀" parcelStarted rfl declinedParcel rfl _

theorem compensating_fails : Driven.start parcelSaga order₁ "k" {} "t₀" = some parcelStarted ∧
    (parcelStarted.run parcelSaga declinedParcel).snapshot.status = .compensating ∧
    ¬ ∃ more, ((parcelStarted.run parcelSaga declinedParcel).run parcelSaga more).snapshot.status =
      .compensated := by
  refine ⟨rfl, rfl, ?_⟩
  rintro ⟨more, hcompensated⟩
  have hundoing : (parcelStarted.run parcelSaga declinedParcel).Undoing parcelSaga :=
    .inr ⟨by decide, List.cons_ne_nil _ _⟩
  rcases hundoing.run more with hcompleted | ⟨hopen, -⟩
  · nomatch hcompleted.symm.trans hcompensated
  · exact hopen hcompensated

end Saganova
