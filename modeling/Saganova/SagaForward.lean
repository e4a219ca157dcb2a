import Saganova.SagaFailures

/-!
# The engine going forward

Every snapshot that `SagaStateMachine.onEvent` saves is at a step of its
definition, and the forward commands published by then are those of the steps up
to it, each built from the context at its moment (`goesForward`).  Failures,
late successes and ignored events may come between.

`start` writes a STARTED entry before the SUCCEEDED entries of the steps, so the
history of a completed saga is never the list of its steps alone
(`history_of_completed`).
-/

namespace Saganova

variable {C P : Type}

/-! ## Along a run -/

section AtEach

variable {E α : Type}

/-- What `f` says of each event, in order: it is given those before it, from
`seen` on. -/
def atEach (f : List E → E → List α) : List E → List E → List α
  | _, [] => []
  | seen, e :: events => f seen e ++ atEach f (seen ++ [e]) events

theorem atEach_snoc (f : List E → E → List α) (seen events : List E) (e : E) :
    atEach f seen (events ++ [e]) = atEach f seen events ++ f (seen ++ events) e := by
  induction events generalizing seen with
  | nil => simp [atEach]
  | cons e' events ih =>
    show f seen e' ++ atEach f (seen ++ [e']) (events ++ [e]) = _
    rw [ih (seen ++ [e'])]
    simp [atEach]

end AtEach

/-! ## Definitions -/

/-- `status === 'COMPLETED' || status === 'COMPENSATED'` -/
def Driven.over (d : Driven C P) : Bool :=
  d.snapshot.status = .completed || d.snapshot.status = .compensated

section Drive

variable [Spread C] (definition : SagaDefinition C P)

/-- The event is taken as the success of the current step. -/
def Driven.succeeds (d : Driven C P) (e : Fed C) : Bool :=
  !d.over && (d.step definition).any fun step => e.type = step.successEvent

/-- The event is taken, as a success or as a failure. -/
def Driven.accepts (d : Driven C P) (e : Fed C) : Bool :=
  !d.over && (d.step definition).any fun step =>
    e.type = step.successEvent || e.type = step.failureEvent

variable (d : Driven C P) (events : List (Fed C))

def Driven.accepted : List (Fed C) :=
  atEach (fun seen e => if (d.run definition seen).accepts definition e then [e] else []) [] events

/-- The events that were taken as the success of a step. -/
def Driven.succeeded : List (Fed C) :=
  atEach (fun seen e => if (d.run definition seen).succeeds definition e then [e] else []) [] events

/-- The context with every payload in it that was accepted. -/
def Driven.accumulated : C :=
  (d.accepted definition events).foldl (fun context e => merged context e.payload) d.snapshot.context

/-- The commands that `start` and `advance` published, each with the events up
to its moment; `beginCompensation` publishes the others. -/
def Driven.forwarded : List (List (Fed C) × Sent P) :=
  d.sent.map ([], ·) ++ atEach (fun seen e =>
    if (d.run definition seen).succeeds definition e then
      ((d.run definition (seen ++ [e])).sent.drop (d.run definition seen).sent.length).map
        (seen ++ [e], ·)
    else []) [] events

/-- `c` is the command of the step, built from the context accumulated by then. -/
def SagaStep.IssuedAt (step : SagaStep C P) (c : List (Fed C) × Sent P) : Prop :=
  c.2.type = step.command ∧
    ∃ payload, step.buildCommandPayload (d.accumulated definition c.1) = .ok payload ∧
      c.2.payload = some payload

def SagaStep.SucceedsBy (step : SagaStep C P) (e : Fed C) : Prop := e.type = step.successEvent

structure Driven.GoesForward : Prop where
  index : (d.run definition events).snapshot.currentStepIndex < definition.steps.length
  commands : List.Forall₂ (SagaStep.IssuedAt definition d)
    (definition.steps.take ((d.run definition events).snapshot.currentStepIndex + 1))
    (d.forwarded definition events)
  completed : (d.run definition events).snapshot.status = .completed →
    List.Forall₂ SagaStep.SucceedsBy definition.steps (d.succeeded definition events)

/-- Failures that are taken: none. -/
def Driven.NothingFails : Prop :=
  ∀ pre f post, events = pre ++ f :: post → ¬ (d.run definition pre).AcceptsFailure definition f

end Drive

/-- The history without its times. -/
def SagaInstanceSnapshot.entries (snapshot : SagaInstanceSnapshot C) : List (String × StepEvent) :=
  snapshot.history.map fun entry => (entry.step, entry.event)

/-- The entry of a step that succeeded. -/
def SagaStep.success (step : SagaStep C P) : String × StepEvent := (step.name, .succeeded)

/-- One entry for each step, in order, and each SUCCEEDED. -/
def SagaInstanceSnapshot.HistoryIsSteps (snapshot : SagaInstanceSnapshot C)
    (definition : SagaDefinition C P) : Prop :=
  snapshot.entries = definition.steps.map SagaStep.success

/-! ## One event -/

section Taken

variable {definition : SagaDefinition C P} {d : Driven C P} {e : Fed C}

theorem Driven.not_over (h : d.over = false) :
    ¬ (d.snapshot.status = .completed ∨ d.snapshot.status = .compensated) := by
  simpa [Driven.over] using h

theorem Driven.open_of_not_over (h : d.over = false) : d.snapshot.status ≠ .completed :=
  fun hcompleted => Driven.not_over h (.inl hcompleted)

theorem Driven.succeeds_of_success {step : SagaStep C P} (h : d.over = false)
    (hstep : d.step definition = some step) (hsuccess : e.type = step.successEvent) :
    d.succeeds definition e = true ∧ d.accepts definition e = true := by
  simp [Driven.succeeds, Driven.accepts, h, hstep, hsuccess]

theorem Driven.accepts_of_fails {step : SagaStep C P} (h : d.over = false)
    (hstep : d.step definition = some step) (hfails : step.Fails e) :
    d.succeeds definition e = false ∧ d.accepts definition e = true := by
  have hne := hfails.2
  rw [hfails.1] at hne
  simp [Driven.succeeds, Driven.accepts, h, hstep, hfails.1, hne]

theorem Driven.succeeds_of_not_accepts (h : d.accepts definition e = false) :
    d.succeeds definition e = false := by
  unfold Driven.accepts at h
  unfold Driven.succeeds
  cases hover : d.over with
  | true => rfl
  | false =>
    cases hstep : d.step definition with
    | none => rfl
    | some step =>
      rw [hover, hstep] at h
      simp at h
      simp [h.1]

end Taken

section Move

variable [Spread C] (definition : SagaDefinition C P) (d : Driven C P) (e : Fed C)

/-- What one event can make of a saga. -/
inductive Driven.Move : Driven C P → Prop
  | ignored : d.accepts definition e = false → Driven.Move d
  | completed {step : SagaStep C P} : d.over = false → d.step definition = some step →
      e.type = step.successEvent →
      definition.steps[d.snapshot.currentStepIndex + 1]? = none →
      Driven.Move
        { d with
          snapshot :=
            { d.snapshot with
              context := merged d.snapshot.context e.payload
              status := .completed
              history := d.snapshot.history ++ [⟨step.name, .succeeded, e.time⟩] } }
  | advanced {step nextStep : SagaStep C P} {payload : P} : d.over = false →
      d.step definition = some step → e.type = step.successEvent →
      definition.steps[d.snapshot.currentStepIndex + 1]? = some nextStep →
      nextStep.buildCommandPayload (merged d.snapshot.context e.payload) = .ok payload →
      Driven.Move
        { snapshot :=
            { d.snapshot with
              context := merged d.snapshot.context e.payload
              currentStepIndex := d.snapshot.currentStepIndex + 1
              status := .inProgress
              history := d.snapshot.history ++ [⟨step.name, .succeeded, e.time⟩] }
          sent := d.sent ++ [⟨nextStep.command, some payload, e.correlationId⟩] }
  | failed {step : SagaStep C P} {sent : List (Sent P)} : d.step definition = some step →
      d.AcceptsFailure definition e → step.Fails e →
      Driven.Move
        ⟨failedSnapshot definition d.snapshot step (merged d.snapshot.context e.payload) e.time,
          sent⟩
  /-- a payload could not be built, or there is no step: nothing is saved -/
  | threw {sent : List (Sent P)} : (definition.Total → d.step definition = none) →
      Driven.Move { d with sent }

variable {definition d e}

theorem Driven.onEvent_over (h : d.over = true) : d.onEvent definition e = d := by
  apply Driven.onEvent_terminal
  simpa [Driven.over] using h

theorem Driven.onEvent_ok (h : d.over = false) {snapshot : SagaInstanceSnapshot C}
    {sent : List (Sent P)} (hfeed : d.feed definition e = (.ok snapshot, sent)) :
    d.onEvent definition e = ⟨snapshot, sent⟩ := by
  unfold Driven.onEvent
  rw [if_neg (Driven.not_over h), hfeed]

theorem Driven.onEvent_error (h : d.over = false) {err : Err} {sent : List (Sent P)}
    (hfeed : d.feed definition e = (.error err, sent)) :
    d.onEvent definition e = { d with sent } := by
  unfold Driven.onEvent
  rw [if_neg (Driven.not_over h), hfeed]

/-- The success of a step. -/
theorem Driven.move_of_success (h : d.over = false) {step : SagaStep C P}
    (hstep : d.step definition = some step) (hsuccess : e.type = step.successEvent) :
    Driven.Move definition d e (d.onEvent definition e) := by
  cases hnext : definition.steps[d.snapshot.currentStepIndex + 1]? with
  | none =>
    rw [Driven.onEvent_ok h (Driven.feed_last hstep hnext hsuccess)]
    exact .completed h hstep hsuccess hnext
  | some nextStep =>
    have hfeed := Driven.feed_next hstep hnext hsuccess
    cases hbuild : nextStep.buildCommandPayload (merged d.snapshot.context e.payload) with
    | error err =>
      rw [hbuild] at hfeed
      rw [Driven.onEvent_error h hfeed]
      refine .threw fun htotal => ?_
      obtain ⟨payload, hpayload⟩ := htotal.command nextStep (List.mem_of_getElem? hnext)
        (merged d.snapshot.context e.payload)
      nomatch hbuild.symm.trans hpayload
    | ok payload =>
      rw [hbuild] at hfeed
      rw [Driven.onEvent_ok h hfeed]
      exact .advanced h hstep hsuccess hnext hbuild

/-- The failure of a step. -/
theorem Driven.move_of_failure (h : d.over = false) {step : SagaStep C P}
    (hstep : d.step definition = some step) (hfails : step.Fails e) :
    Driven.Move definition d e (d.onEvent definition e) := by
  cases hfeed : d.feed definition e with
  | mk result sent =>
    cases result with
    | ok snapshot =>
      have haccept : d.AcceptsFailure definition e :=
        ⟨Driven.not_over h, ⟨step, hstep, hfails⟩, ⟨snapshot, sent, hfeed⟩⟩
      rw [Driven.onEvent_ok h hfeed, Driven.feed_fails hstep hfails hfeed]
      exact .failed hstep haccept hfails
    | error err =>
      rw [Driven.onEvent_error h hfeed]
      refine .threw fun htotal => ?_
      obtain ⟨⟨-, -, snapshot, sent', hfeed'⟩, -⟩ :=
        Driven.onEvent_fails htotal (Driven.not_over h) hstep hfails
      nomatch hfeed.symm.trans hfeed'

variable (definition d e)

/-- **One event.**  Everything that it can make of a saga. -/
theorem Driven.onEvent_move : Driven.Move definition d e (d.onEvent definition e) := by
  cases hover : d.over with
  | true =>
    rw [Driven.onEvent_over hover]
    exact .ignored (by simp [Driven.accepts, hover])
  | false =>
    cases hstep : d.step definition with
    | none =>
      obtain ⟨err, hfeed⟩ := Driven.feed_none (e := e) hstep
      rw [Driven.onEvent_error hover hfeed]
      exact .threw fun _ => hstep
    | some step =>
      by_cases hsuccess : e.type = step.successEvent
      · exact Driven.move_of_success hover hstep hsuccess
      · by_cases hfailure : e.type = step.failureEvent
        · exact Driven.move_of_failure hover hstep ⟨hfailure, hsuccess⟩
        · rw [Driven.onEvent_irrelevant hstep hsuccess hfailure]
          exact .ignored (by simp [Driven.accepts, hstep, hsuccess, hfailure])

end Move

/-! ## One more event of a run -/

section Snoc

variable [Spread C] (definition : SagaDefinition C P) (d : Driven C P) (pre : List (Fed C))
  (e : Fed C)

theorem Driven.accepted_snoc : d.accepted definition (pre ++ [e]) =
    d.accepted definition pre ++
      if (d.run definition pre).accepts definition e then [e] else [] :=
  atEach_snoc _ [] pre e

theorem Driven.succeeded_snoc : d.succeeded definition (pre ++ [e]) =
    d.succeeded definition pre ++
      if (d.run definition pre).succeeds definition e then [e] else [] :=
  atEach_snoc _ [] pre e

theorem Driven.accumulated_snoc : d.accumulated definition (pre ++ [e]) =
    if (d.run definition pre).accepts definition e then
      merged (d.accumulated definition pre) e.payload
    else d.accumulated definition pre := by
  unfold Driven.accumulated
  rw [Driven.accepted_snoc, List.foldl_append]
  split
  · rfl
  · rfl

theorem Driven.forwarded_snoc : d.forwarded definition (pre ++ [e]) =
    d.forwarded definition pre ++
      if (d.run definition pre).succeeds definition e then
        ((d.run definition (pre ++ [e])).sent.drop (d.run definition pre).sent.length).map
          (pre ++ [e], ·)
      else [] := by
  unfold Driven.forwarded
  rw [atEach_snoc, ← List.append_assoc]
  rfl

end Snoc

/-! ## The forward commands -/

/-- How many steps have succeeded. -/
def SagaInstanceSnapshot.done (snapshot : SagaInstanceSnapshot C) : ℕ :=
  if snapshot.status = .completed then snapshot.currentStepIndex + 1
  else snapshot.currentStepIndex

/-- The steps up to one more. -/
theorem steps_take_succ {definition : SagaDefinition C P} {i : ℕ} {step : SagaStep C P}
    (h : definition.steps[i]? = some step) :
    definition.steps.take (i + 1) = definition.steps.take i ++ [step] := by
  rw [List.take_add_one, h]
  rfl

theorem SagaInstanceSnapshot.done_of_open {snapshot : SagaInstanceSnapshot C}
    (h : snapshot.status ≠ .completed) : snapshot.done = snapshot.currentStepIndex := if_neg h

section Start

variable {definition : SagaDefinition C P} {d : Driven C P}

/-- `start`, where there is a first step. -/
theorem Driven.start_eq {first : SagaStep C P} (hfirst : definition.steps[0]? = some first)
    (sagaId correlationId : String) (context : C) (time : Time) :
    Driven.start definition sagaId correlationId context time =
      match first.buildCommandPayload context with
      | .ok payload => some
          { snapshot :=
              { sagaId, definitionName := definition.name, currentStepIndex := 0
                status := .inProgress, context, history := [⟨first.name, .started, time⟩] }
            sent := [⟨first.command, some payload, correlationId⟩] }
      | .error _ => none := by
  unfold Driven.start CompensationRegistry.start
  simp only [stepAt_eq hfirst, pure_bind]
  cases first.buildCommandPayload context with
  | ok payload => rfl
  | error err => rfl

theorem Driven.start_first {sagaId correlationId : String} {context : C} {time : Time}
    (h : Driven.start definition sagaId correlationId context time = some d) :
    ∃ first, definition.steps[0]? = some first ∧
      d.snapshot.history = [⟨first.name, .started, time⟩] := by
  cases hfirst : definition.steps[0]? with
  | none =>
    unfold Driven.start CompensationRegistry.start CompensationRegistry.stepAt at h
    simp only [hfirst] at h
    nomatch h
  | some first =>
    rw [Driven.start_eq hfirst] at h
    cases hbuild : first.buildCommandPayload context with
    | ok payload =>
      rw [hbuild] at h
      cases h
      exact ⟨first, rfl, rfl⟩
    | error err =>
      rw [hbuild] at h
      nomatch h

end Start

section Forward

variable [Spread C] {definition : SagaDefinition C P} {d : Driven C P}

/-- What every run keeps. -/
structure Driven.Forward (definition : SagaDefinition C P) (d : Driven C P)
    (events : List (Fed C)) : Prop where
  index : (d.run definition events).snapshot.currentStepIndex < definition.steps.length
  commands : List.Forall₂ (SagaStep.IssuedAt definition d)
    (definition.steps.take ((d.run definition events).snapshot.currentStepIndex + 1))
    (d.forwarded definition events)
  context : (d.run definition events).snapshot.context = d.accumulated definition events
  succeeded : List.Forall₂ SagaStep.SucceedsBy
    (definition.steps.take (d.run definition events).snapshot.done)
    (d.succeeded definition events)
  last : (d.run definition events).snapshot.status = .completed →
    (d.run definition events).snapshot.currentStepIndex + 1 = definition.steps.length

theorem Driven.Forward.toGoesForward {events : List (Fed C)} (h : d.Forward definition events) :
    d.GoesForward definition events where
  index := h.index
  commands := h.commands
  completed hcompleted := by
    have hsucceeded := h.succeeded
    unfold SagaInstanceSnapshot.done at hsucceeded
    rwa [if_pos hcompleted, h.last hcompleted, List.take_length] at hsucceeded

/-- The success of the current step comes after those of the steps before it. -/
theorem Driven.Forward.succeeded_next {pre : List (Fed C)} (h : d.Forward definition pre)
    {e : Fed C} {step : SagaStep C P} (hover : (d.run definition pre).over = false)
    (hstep : definition.steps[(d.run definition pre).snapshot.currentStepIndex]? = some step)
    (hsuccess : step.SucceedsBy e) : List.Forall₂ SagaStep.SucceedsBy
      (definition.steps.take ((d.run definition pre).snapshot.currentStepIndex + 1))
      (d.succeeded definition pre ++ [e]) := by
  have hbefore := h.succeeded
  rw [SagaInstanceSnapshot.done_of_open (Driven.open_of_not_over hover)] at hbefore
  rw [steps_take_succ hstep]
  exact List.rel_append hbefore (.cons hsuccess .nil)

/-- One event more. -/
theorem Driven.Forward.snoc (htotal : definition.Total) {pre : List (Fed C)}
    (h : d.Forward definition pre) (e : Fed C) : d.Forward definition (pre ++ [e]) := by
  have hrun : d.run definition (pre ++ [e]) = (d.run definition pre).onEvent definition e :=
    Driven.run_snoc pre e
  have hmove := Driven.onEvent_move definition (d.run definition pre) e
  rw [← hrun] at hmove
  have haccumulated := Driven.accumulated_snoc definition d pre e
  have hsucceeded := Driven.succeeded_snoc definition d pre e
  have hforwarded := Driven.forwarded_snoc definition d pre e
  generalize hd' : d.run definition (pre ++ [e]) = d' at hmove hforwarded
  cases hmove with
  | ignored hignored =>
    simp only [hignored, Driven.succeeds_of_not_accepts hignored, Bool.false_eq_true, if_false,
      List.append_nil] at haccumulated hsucceeded hforwarded
    constructor
    · rw [hd']
      exact h.index
    · rw [hd', hforwarded]
      exact h.commands
    · rw [hd', haccumulated]
      exact h.context
    · rw [hd', hsucceeded]
      exact h.succeeded
    · rw [hd']
      exact h.last
  | @completed step hover hstep hsuccess hlast =>
    obtain ⟨hsucceeds, haccepts⟩ := Driven.succeeds_of_success hover hstep hsuccess
    simp only [hsucceeds, haccepts, if_true, List.drop_length, List.map_nil, List.append_nil]
      at haccumulated hsucceeded hforwarded
    constructor
    · rw [hd']
      exact h.index
    · rw [hd', hforwarded]
      exact h.commands
    · rw [hd', haccumulated, ← h.context]
    · rw [hd', hsucceeded]
      exact h.succeeded_next hover hstep hsuccess
    · intro _
      rw [hd']
      have hlength := List.getElem?_eq_none_iff.mp hlast
      have hindex := h.index
      show (d.run definition pre).snapshot.currentStepIndex + 1 = _
      omega
  | @advanced step nextStep payload hover hstep hsuccess hnext hbuild =>
    obtain ⟨hsucceeds, haccepts⟩ := Driven.succeeds_of_success hover hstep hsuccess
    simp only [hsucceeds, haccepts, if_true, List.drop_left] at haccumulated hsucceeded hforwarded
    constructor
    · rw [hd']
      exact (List.getElem?_eq_some_iff.mp hnext).1
    · rw [hd', hforwarded]
      show List.Forall₂ _ (definition.steps.take (_ + 1 + 1)) _
      rw [steps_take_succ hnext]
      refine List.rel_append h.commands (.cons ⟨rfl, payload, ?_, rfl⟩ .nil)
      rw [haccumulated, ← h.context]
      exact hbuild
    · rw [hd', haccumulated, ← h.context]
    · rw [hd', hsucceeded]
      exact h.succeeded_next hover hstep hsuccess
    · intro hcompleted
      rw [hd'] at hcompleted
      nomatch hcompleted
  | @failed step sent hstep haccept hfails =>
    have hover : (d.run definition pre).over = false := by
      simpa [Driven.over] using haccept.live
    obtain ⟨hsucceeds, haccepts⟩ := Driven.accepts_of_fails hover hstep hfails
    simp only [hsucceeds, haccepts, if_true, Bool.false_eq_true, if_false, List.append_nil]
      at haccumulated hsucceeded hforwarded
    have hopen : (failedSnapshot definition (d.run definition pre).snapshot step
        (merged (d.run definition pre).snapshot.context e.payload) e.time).status ≠ .completed := by
      unfold failedSnapshot
      dsimp only
      split
      · simp
      · simp
    constructor
    · rw [hd']
      exact h.index
    · rw [hd', hforwarded]
      exact h.commands
    · rw [hd', haccumulated, ← h.context]
      rfl
    · rw [hd', hsucceeded, SagaInstanceSnapshot.done_of_open hopen]
      have hbefore := h.succeeded
      rwa [SagaInstanceSnapshot.done_of_open (Driven.open_of_not_over hover)] at hbefore
    · intro hcompleted
      rw [hd'] at hcompleted
      exact absurd hcompleted hopen
  | threw hnone =>
    have hlength := List.getElem?_eq_none_iff.mp (hnone htotal)
    have hindex := h.index
    omega

theorem Driven.Forward.run (htotal : definition.Total) (h : d.Forward definition [])
    (events : List (Fed C)) : d.Forward definition events := by
  induction events using List.reverseRecOn with
  | nil => exact h
  | append_singleton pre e ih => exact ih.snoc htotal e

/-- **The engine goes forward step by step.** -/
theorem goesForward (definition : SagaDefinition C P) (hsteps : definition.steps ≠ [])
    (htotal : definition.Total) (sagaId correlationId : String) (context : C) (time : Time) :
    ∃ d, Driven.start definition sagaId correlationId context time = some d ∧
      ∀ events, d.GoesForward definition events := by
  obtain ⟨first, rest, hcons⟩ := List.exists_cons_of_ne_nil hsteps
  have hfirst : definition.steps[0]? = some first := by rw [hcons]; rfl
  obtain ⟨payload, hpayload⟩ := htotal.command first (List.mem_of_getElem? hfirst) context
  have hstart := Driven.start_eq hfirst sagaId correlationId context time
  rw [hpayload] at hstart
  refine ⟨_, hstart, fun events => (Driven.Forward.run htotal ?_ events).toGoesForward⟩
  constructor
  · exact List.length_pos_iff.mpr hsteps
  · show List.Forall₂ _ (definition.steps.take (0 + 1)) _
    rw [steps_take_succ hfirst]
    exact .cons ⟨rfl, payload, hpayload, rfl⟩ .nil
  · rfl
  · exact .nil
  · exact fun hcompleted => nomatch hcompleted

end Forward

/-! ## The history -/

section History

variable {definition : SagaDefinition C P} {d : Driven C P}

/-- What is recorded while nothing fails: STARTED, and the steps that succeeded. -/
structure Driven.Recorded (definition : SagaDefinition C P) (first : SagaStep C P)
    (d : Driven C P) : Prop where
  history : d.snapshot.entries =
    (first.name, .started) :: (definition.steps.take d.snapshot.done).map SagaStep.success
  last : d.snapshot.status = .completed →
    d.snapshot.currentStepIndex + 1 = definition.steps.length

theorem Driven.Recorded.succeeds {first step : SagaStep C P} (h : d.Recorded definition first)
    (hover : d.over = false) (hstep : d.step definition = some step) :
    d.snapshot.entries ++ [step.success] = (first.name, .started) ::
      (definition.steps.take (d.snapshot.currentStepIndex + 1)).map SagaStep.success := by
  have hbefore := h.history
  rw [SagaInstanceSnapshot.done_of_open (Driven.open_of_not_over hover)] at hbefore
  rw [hbefore, steps_take_succ hstep, List.map_append]
  rfl

variable [Spread C]

theorem Driven.Recorded.onEvent {first : SagaStep C P} (h : d.Recorded definition first)
    {e : Fed C} (hfails : ¬ d.AcceptsFailure definition e) :
    (d.onEvent definition e).Recorded definition first := by
  have hmove := Driven.onEvent_move definition d e
  generalize d.onEvent definition e = d' at hmove
  cases hmove with
  | ignored _ => exact h
  | @completed step hover hstep hsuccess hlast =>
    refine ⟨List.map_append.trans (h.succeeds hover hstep), fun _ => ?_⟩
    have hlength := List.getElem?_eq_none_iff.mp hlast
    have hindex := (List.getElem?_eq_some_iff.mp hstep).1
    show d.snapshot.currentStepIndex + 1 = _
    omega
  | @advanced step nextStep payload hover hstep hsuccess hnext hbuild =>
    exact ⟨List.map_append.trans (h.succeeds hover hstep), fun hcompleted => nomatch hcompleted⟩
  | failed _ haccept _ => exact absurd haccept hfails
  | threw _ => exact ⟨h.history, h.last⟩

theorem Driven.Recorded.run {first : SagaStep C P} (h : d.Recorded definition first)
    (events : List (Fed C)) (hnothing : d.NothingFails definition events) :
    (d.run definition events).Recorded definition first := by
  induction events using List.reverseRecOn with
  | nil => exact h
  | append_singleton pre e ih =>
    rw [Driven.run_snoc]
    refine (ih fun pre' f post heq => ?_).onEvent (hnothing pre e [] rfl)
    exact hnothing pre' f (post ++ [e]) (by rw [heq]; simp)

/-- **A completed saga has one entry too many.** -/
theorem history_of_completed (definition : SagaDefinition C P) (sagaId correlationId : String)
    (context : C) (time : Time) (d : Driven C P)
    (hstart : Driven.start definition sagaId correlationId context time = some d)
    (events : List (Fed C)) (hnothing : d.NothingFails definition events)
    (hcompleted : (d.run definition events).snapshot.status = .completed) :
    (∃ first, definition.steps[0]? = some first ∧
      (d.run definition events).snapshot.entries =
        (first.name, .started) :: definition.steps.map SagaStep.success) ∧
    ¬ (d.run definition events).snapshot.HistoryIsSteps definition := by
  obtain ⟨first, hfirst, hhistory⟩ := Driven.start_first hstart
  obtain ⟨hstatus, hindex⟩ := Driven.start_status hstart
  have hrecorded : d.Recorded definition first := by
    refine ⟨?_, fun h => nomatch hstatus.symm.trans h⟩
    rw [SagaInstanceSnapshot.entries, hhistory,
      SagaInstanceSnapshot.done_of_open (by simp [hstatus]), hindex]
    rfl
  have hfinal := hrecorded.run events hnothing
  have hentries := hfinal.history
  unfold SagaInstanceSnapshot.done at hentries
  rw [if_pos hcompleted, hfinal.last hcompleted, List.take_length] at hentries
  refine ⟨⟨first, hfirst, hentries⟩, fun hsteps => ?_⟩
  have hlength := congrArg List.length (hentries.symm.trans hsteps)
  simp at hlength

end History

/-! ## The parcel saga -/

/-- Every step of the parcel saga goes well. -/
def parcelShipped : List (Fed OrderFulfillmentContext) :=
  [⟨.inventoryReserved, "k", none, "t₁"⟩, ⟨.paymentAuthorized, "k", none, "t₂"⟩,
    ⟨.other "shipped", "k", none, "t₃"⟩]

theorem parcelShipped_nothingFails :
    parcelStarted.NothingFails parcelSaga parcelShipped := by
  intro pre f post heq haccept
  obtain ⟨step, hstep, -, hfails⟩ := haccept.fails
  match pre with
  | [] =>
    cases heq
    cases hstep
    exact hfails rfl
  | [_] =>
    cases heq
    cases hstep
    exact hfails rfl
  | [_, _] =>
    cases heq
    cases hstep
    exact hfails rfl
  | _ :: _ :: _ :: pre =>
    have hlength := congrArg List.length heq
    simp [parcelShipped] at hlength

theorem goesForward_parcel :
    ∃ d, Driven.start parcelSaga order₁ "k" {} "t₀" = some d ∧
      ∀ events, d.GoesForward parcelSaga events :=
  goesForward parcelSaga (by simp [parcelSaga]) parcelSaga_total order₁ "k" {} "t₀"

theorem history_of_shipped :
    ¬ (parcelStarted.run parcelSaga parcelShipped).snapshot.HistoryIsSteps parcelSaga :=
  (history_of_completed parcelSaga order₁ "k" {} "t₀" parcelStarted rfl parcelShipped
    parcelShipped_nothingFails rfl).2

/-- RESERVE, RESERVE, CHARGE, SHIP. -/
theorem historyIsSteps_fails : ¬ ∀ (definition : SagaDefinition OrderFulfillmentContext Payload)
    (d : Driven OrderFulfillmentContext Payload) (events : List (Fed OrderFulfillmentContext)),
    Driven.start definition order₁ "k" {} "t₀" = some d → d.NothingFails definition events →
    (d.run definition events).snapshot.status = .completed →
    (d.run definition events).snapshot.HistoryIsSteps definition := by
  intro hall
  have hsteps := hall parcelSaga parcelStarted parcelShipped rfl parcelShipped_nothingFails rfl
  have hlength := congrArg List.length hsteps
  revert hlength
  decide

end Saganova
