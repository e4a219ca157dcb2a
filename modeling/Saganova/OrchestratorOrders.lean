import Saganova.OrchestratorRuns

/-!
# One order among the others

Two runs are compared through a `View`, which says what of the timestamps, the
generated ids and the rows' correlation ids is looked at.  A decision looks at
none of them (`effect_congr`), so runs that look alike go on looking alike.

`sagasIndependent`: an order's row and commands are those of the run of its own
messages.  `redeliveryInvisible`: a message that was accepted can be handled
again at any later point, and nothing but the row's correlation id shows it.
-/

namespace Saganova

open Concurrency

/-- What is compared of two runs. -/
structure View where
  time : Time → Time
  uuid : Uuid → Uuid
  correlationId : String → String

/-- Timestamps and generated ids aside. -/
def View.untimed : View where
  time := fun _ => ""
  uuid := fun _ => ""
  correlationId := fun c => c

namespace View

variable (v : View)

def row (r : SagaInstanceRow) : SagaInstanceRow where
  definitionName := r.definitionName
  currentStepIndex := r.currentStepIndex
  status := r.status
  context := r.context
  history := r.history.map fun h => { h with at_ := v.time h.at_ }
  correlationId := v.correlationId r.correlationId

def command (c : CommandEnvelope) : CommandEnvelope :=
  { c with id := v.uuid c.id, issuedAt := v.time c.issuedAt }

/-- The view does not tell the answers of one delivery apart. -/
def Steady (d : Delivery) : Prop :=
  (∀ i j, v.time (d.clock i) = v.time (d.clock j)) ∧ ∀ i j, v.uuid (d.uuid i) = v.uuid (d.uuid j)

theorem steady_untimed (d : Delivery) : untimed.Steady d := ⟨fun _ _ => rfl, fun _ _ => rfl⟩

/-- Rows that look alike differ in nothing a decision reads. -/
theorem row_inj {r r' : SagaInstanceRow} (h : v.row r = v.row r') :
    r'.definitionName = r.definitionName ∧ r'.currentStepIndex = r.currentStepIndex ∧
      r'.status = r.status ∧ r'.context = r.context := by
  simp only [row, SagaInstanceRow.mk.injEq] at h
  exact ⟨h.1.symm, h.2.1.symm, h.2.2.1.symm, h.2.2.2.1.symm⟩

/-- The stamps of one delivery look alike. -/
theorem command_steady {d : Delivery} (h : v.Steady d) {st st' : Stamps} (hst : d.Gives st)
    (hst' : d.Gives st') (type : CommandType) (payload : Payload) (correlationId : String) :
    v.command (st.command type payload correlationId) =
      v.command (st'.command type payload correlationId) := by
  obtain ⟨-, ⟨i, hi⟩, j, hj⟩ := hst
  obtain ⟨-, ⟨i', hi'⟩, j', hj'⟩ := hst'
  simp only [command, Stamps.command, ← hi, ← hj, ← hi', ← hj', h.1 j j', h.2 i i']

theorem time_steady {d : Delivery} (h : v.Steady d) {st st' : Stamps} (hst : d.Gives st)
    (hst' : d.Gives st') : v.time st.time = v.time st'.time := by
  obtain ⟨⟨i, hi⟩, -⟩ := hst
  obtain ⟨⟨i', hi'⟩, -⟩ := hst'
  rw [← hi, ← hi', h.1 i i']

end View

/-! ## A decision looks at none of it -/

/-- Two effects that look alike. -/
def View.Agrees (v : View) (x y : Option SagaInstanceRow × List CommandEnvelope) : Prop :=
  x.1.map v.row = y.1.map v.row ∧ x.2.map v.command = y.2.map v.command

section Congruence

variable (v : View) {d : Delivery} (hsteady : v.Steady d) {st st' : Stamps} (hst : d.Gives st)
  (hst' : d.Gives st') (published : Except Err Unit) (correlationId : String)
include hsteady hst hst'

theorem sends_congr (type : CommandType) (payload : Payload) :
    (sends published (st.command type payload correlationId)).map v.command =
      (sends published (st'.command type payload correlationId)).map v.command := by
  unfold sends
  split
  · simp only [List.map_cons, v.command_steady hsteady hst hst']
  · rfl

theorem effect_congr_event {row row' : Option SagaInstanceRow}
    (hrow : row.map v.row = row'.map v.row) (type : EventType) (payload : Payload) :
    v.Agrees ((decideEvent row type payload).effect published correlationId st row)
      ((decideEvent row' type payload).effect published correlationId st' row') := by
  have htime := v.time_steady hsteady hst hst'
  have hsends := sends_congr v hsteady hst hst' published correlationId
  cases row with
  | none =>
    cases row' with
    | none => exact ⟨rfl, rfl⟩
    | some r' => cases hrow
  | some r =>
    cases row' with
    | none => cases hrow
    | some r' =>
      have hlook : v.row r = v.row r' := Option.some.inj hrow
      obtain ⟨hname, hindex, hstatus, hcontext⟩ := v.row_inj hlook
      have hhistory : r.history.map (fun h => { h with at_ := v.time h.at_ }) =
          r'.history.map (fun h => { h with at_ := v.time h.at_ }) :=
        congrArg SagaInstanceRow.history hlook
      simp only [decideEvent, hindex, hstatus, hcontext]
      split
      · exact ⟨hrow, rfl⟩
      · split
        · split
          · refine ⟨?_, hsends _ _⟩
            simp only [Decision.effect]
            split
            · simp [View.row, Decision.advancedRow, hname, hhistory, htime]
            · exact hrow
          · split
            · refine ⟨?_, hsends _ _⟩
              simp [Decision.effect, View.row, Decision.cancelledRow, hname, hindex, hhistory, htime]
            · refine ⟨?_, rfl⟩
              simp [Decision.effect, View.row, hname, hindex, hstatus, hcontext, hhistory]
        · split
          · refine ⟨?_, hsends _ _⟩
            simp [Decision.effect, View.row, Decision.completedRow, hname, hindex, hhistory, htime]
          · split
            · refine ⟨?_, hsends _ _⟩
              simp [Decision.effect, View.row, Decision.cancelledRow, hname, hindex, hhistory, htime]
            · refine ⟨?_, rfl⟩
              simp [Decision.effect, View.row, hname, hindex, hstatus, hcontext, hhistory]
        · exact ⟨hrow, rfl⟩

theorem effect_congr_start {row row' : Option SagaInstanceRow}
    (hrow : row.map v.row = row'.map v.row) (context : OrderFulfillmentContext) :
    v.Agrees ((decideStart row context).effect published correlationId st row)
      ((decideStart row' context).effect published correlationId st' row') := by
  cases row with
  | none =>
    cases row' with
    | none =>
      refine ⟨?_, sends_congr v hsteady hst hst' published correlationId _ _⟩
      simp only [decideStart, Decision.effect]
      split
      · simp [View.row, Decision.startedRow, v.time_steady hsteady hst hst']
      · rfl
    | some r' => cases hrow
  | some r =>
    cases row' with
    | none => cases hrow
    | some r' => exact ⟨hrow, rfl⟩

/-- **Rows that look alike lead to effects that look alike.** -/
theorem effect_congr {e : EventEnvelope} {orderId : Uuid}
    {decision : Option SagaInstanceRow → Decision} (hdec : decisionOf e = some (orderId, decision))
    {row row' : Option SagaInstanceRow} (hrow : row.map v.row = row'.map v.row) :
    v.Agrees ((decision row).effect published correlationId st row)
      ((decision row').effect published correlationId st' row') := by
  obtain ⟨-, ⟨-, items, -, rfl⟩ | ⟨-, -, rfl⟩⟩ := decisionOf_cases hdec
  · exact effect_congr_start v hsteady hst hst' published correlationId hrow _
  · exact effect_congr_event v hsteady hst hst' published correlationId hrow _ _

end Congruence

/-! ## One order in a run -/

/-- The commands published for an order, oldest first. -/
def commandsFor (o : Uuid) (s : Shared) : List CommandEnvelope :=
  (commandsOf s).filter (·.payload.orderId = some o)

/-- The payload of the message names the order. -/
def Delivery.names (o : Uuid) (d : Delivery) : Bool := d.envelope.payload.orderId = some o

/-- What a view sees of an order. -/
def View.saga (v : View) (o : Uuid) (s : Shared) :
    Option SagaInstanceRow × List CommandEnvelope :=
  ((sagaRow s o).map v.row, (commandsFor o s).map v.command)

/-- All that a message publishes is for the order it names. -/
theorem Reaction.sent_filter {published : Except Err Unit} {e : EventEnvelope} {id o : Uuid}
    {st : Stamps} {row row' : Option SagaInstanceRow} {sent : List CommandEnvelope}
    (h : Reaction published e id st row row' sent) (hid : e.payload.orderId = some id) :
    sent.filter (·.payload.orderId = some o) = if o = id then sent else [] := by
  have hnames : ∀ c ∈ sent, c.payload.orderId = some id := fun c hc => (h.sent_cases hid hc).1
  split
  · rename_i ho
    subst ho
    exact List.filter_eq_self.mpr fun c hc => by simp [hnames c hc]
  · rename_i ho
    exact List.filter_eq_nil_iff.mpr fun c hc => by simpa [hnames c hc] using fun h => ho h.symm

section Handle

variable (d : Delivery) (s : Shared) (o : Uuid)

/-- What a delivery does to one order: nothing, or what its decision comes to. -/
theorem handle_order :
    ((∀ decision, decisionOf d.envelope ≠ some (o, decision)) ∧
      sagaRow (handle s d) o = sagaRow s o ∧ commandsFor o (handle s d) = commandsFor o s) ∨
    ∃ decision st, decisionOf d.envelope = some (o, decision) ∧ d.Gives st ∧
      ∀ effect, effect = (decision (sagaRow s o)).effect d.published d.envelope.correlationId st
          (sagaRow s o) →
        sagaRow (handle s d) o = effect.1 ∧
        commandsOf (handle s d) = commandsOf s ++ effect.2 ∧
        commandsFor o (handle s d) = commandsFor o s ++ effect.2 ∧
        Reaction d.published d.envelope o st (sagaRow s o) effect.1 effect.2 := by
  rcases handle_effect d s with ⟨hnone, hcommands, hrows⟩ |
    ⟨id, decision, st, hdec, hst, hcommands, hothers, hrow⟩
  · left
    refine ⟨fun decision => by simp [hnone], hrows o, ?_⟩
    unfold commandsFor
    rw [hcommands]
  · have hreact := reaction_of_decision hdec d.published st (sagaRow s id)
    have hid := (decisionOf_cases hdec).1
    have hfor : commandsFor o (handle s d) = commandsFor o s ++ if o = id then
        ((decision (sagaRow s id)).effect d.published d.envelope.correlationId st
          (sagaRow s id)).2 else [] := by
      rw [← hreact.sent_filter hid]
      unfold commandsFor
      rw [hcommands, List.filter_append]
    by_cases ho : o = id
    · subst ho
      rw [if_pos rfl] at hfor
      refine .inr ⟨decision, st, hdec, hst, ?_⟩
      rintro effect rfl
      exact ⟨hrow, hcommands, hfor, hreact⟩
    · rw [if_neg ho, List.append_nil] at hfor
      refine .inl ⟨fun decision' h => ?_, hothers o ho, hfor⟩
      rw [hdec] at h
      cases h
      exact ho rfl

theorem handle_order_reaction :
    (sagaRow (handle s d) o = sagaRow s o ∧ commandsFor o (handle s d) = commandsFor o s) ∨
    ∃ st sent, d.envelope.payload.orderId = some o ∧
      commandsFor o (handle s d) = commandsFor o s ++ sent ∧
      Reaction d.published d.envelope o st (sagaRow s o) (sagaRow (handle s d) o) sent := by
  rcases handle_order d s o with ⟨-, hsame⟩ | ⟨decision, st, hdec, -, heffect⟩
  · exact .inl hsame
  · obtain ⟨hrow, -, hcommands, hreact⟩ := heffect _ rfl
    rw [← hrow] at hreact
    exact .inr ⟨st, _, (decisionOf_cases hdec).1, hcommands, hreact⟩

/-- A message of another order, or of none, changes nothing. -/
theorem handle_other (h : d.names o = false) :
    sagaRow (handle s d) o = sagaRow s o ∧ commandsFor o (handle s d) = commandsFor o s := by
  rcases handle_order d s o with ⟨-, hsame⟩ | ⟨decision, st, hdec, -⟩
  · exact hsame
  · simp [Delivery.names, (decisionOf_cases hdec).1] at h

end Handle

section Independence

variable (v : View) (o : Uuid)

/-- Two runs in which an order looks alike both handle a message. -/
theorem saga_handle {d : Delivery} (hsteady : v.Steady d) {s s' : Shared}
    (h : v.saga o s = v.saga o s') : v.saga o (handle s d) = v.saga o (handle s' d) := by
  obtain ⟨hrow, hcommands⟩ := Prod.mk.inj h
  have key : (sagaRow (handle s d) o).map v.row = (sagaRow (handle s' d) o).map v.row ∧
      (commandsFor o (handle s d)).map v.command = (commandsFor o (handle s' d)).map v.command := by
    rcases handle_order d s o with ⟨hnone, hr, hc⟩ | ⟨decision, st, hdec, hst, heffect⟩
    · rcases handle_order d s' o with ⟨-, hr', hc'⟩ | ⟨decision', st', hdec', -⟩
      · rw [hr, hc, hr', hc']
        exact ⟨hrow, hcommands⟩
      · exact absurd hdec' (hnone decision')
    · rcases handle_order d s' o with ⟨hnone, -⟩ | ⟨decision', st', hdec', hst', heffect'⟩
      · exact absurd hdec (hnone decision)
      · rw [hdec] at hdec'
        cases hdec'
        obtain ⟨hr, -, hc, -⟩ := heffect _ rfl
        obtain ⟨hr', -, hc', -⟩ := heffect' _ rfl
        have hagrees := effect_congr v hsteady hst hst' d.published d.envelope.correlationId hdec
          hrow
        rw [hr, hr', hc, hc', List.map_append, List.map_append, hcommands, hagrees.2]
        exact ⟨hagrees.1, rfl⟩
  exact Prod.ext key.1 key.2

/-- **An order sees its own messages only.** -/
theorem saga_filter (ds : List Delivery) (hsteady : ∀ d ∈ ds, v.Steady d) :
    v.saga o (after ds) = v.saga o (after (ds.filter (·.names o))) := by
  induction ds using List.reverseRecOn with
  | nil => rfl
  | append_singleton ds d ih =>
    have hds := ih fun d' hd' => hsteady d' (List.mem_append_left _ hd')
    rw [after_snoc, List.filter_append, List.filter_singleton]
    cases hnames : d.names o with
    | true => exact (saga_handle v o (hsteady d (by simp)) hds).trans (by simp)
    | false =>
      obtain ⟨hr, hc⟩ := handle_other d (after ds) o hnames
      have hsame : v.saga o (handle (after ds) d) = v.saga o (after ds) := by
        simp only [View.saga, hr, hc]
      rw [hsame, hds]
      simp

end Independence

/-- What a run does to an order is what the order's own messages do to it; so
runs that interleave the same messages of each order do the same to every
order. -/
def SagasIndependent (ds : List Delivery) : Prop :=
  (∀ o, View.untimed.saga o (after ds) = View.untimed.saga o (after (ds.filter (·.names o)))) ∧
  ∀ ds', (∀ o, ds'.filter (·.names o) = ds.filter (·.names o)) →
    ∀ o, View.untimed.saga o (after ds') = View.untimed.saga o (after ds)

theorem sagasIndependent (ds : List Delivery) : SagasIndependent ds := by
  have hfilter := fun o ds => saga_filter .untimed o ds fun d _ => View.steady_untimed d
  refine ⟨fun o => hfilter o ds, fun ds' hsame o => ?_⟩
  rw [hfilter o ds', hsame o, ← hfilter o ds]

/-! ## The same message again -/

/-- The row but for its correlation id. -/
def SagaInstanceRow.uncorrelated (row : SagaInstanceRow) : SagaInstanceRow :=
  { row with correlationId := "" }

/-- The delivery created a row or added to its history. -/
def Accepts (s : Shared) (d : Delivery) : Prop :=
  ∃ o row', sagaRow (handle s d) o = some row' ∧
    ∀ row, sagaRow s o = some row → row.history.length < row'.history.length

/-- The message was accepted in the run. -/
def AcceptedIn (ds : List Delivery) (e : EventEnvelope) : Prop :=
  ∃ pre d, pre ++ [d] <+: ds ∧ d.envelope = e ∧ Accepts (after pre) d

/-- The saga is past the message. -/
def SagaInstanceRow.Spent (row : SagaInstanceRow) (e : EventEnvelope) : Prop :=
  e.type = .orderCreated ∨ ¬ row.Open ∨ row.currentStepIndex = 1 ∧ e.type = .inventoryReserved

section Spent

variable {published : Except Err Unit} {e e' : EventEnvelope} {o : Uuid} {st : Stamps}
  {row row' : Option SagaInstanceRow} {sent : List CommandEnvelope}

theorem closed_completed (r : SagaInstanceRow) (context : OrderFulfillmentContext) (time : Time)
    (correlationId : String) : ¬ (Decision.completedRow r context time correlationId).Open :=
  not_not_intro (.inl rfl)

theorem closed_cancelled (r : SagaInstanceRow) (context : OrderFulfillmentContext) (step : String)
    (time : Time) (correlationId : String) :
    ¬ (Decision.cancelledRow r context step time correlationId).Open :=
  not_not_intro (.inr rfl)

/-- Once past a message, the saga stays past it. -/
theorem Reaction.spent (h : Reaction published e o st row row' sent) {r : SagaInstanceRow}
    (hr : row = some r) (hspent : r.Spent e') : ∃ r', row' = some r' ∧ r'.Spent e' := by
  cases h with
  | nothing => exact ⟨r, hr, hspent⟩
  | started => cases hr
  | resaved => cases hr; exact ⟨_, rfl, hspent⟩
  | advanced _ hopen hindex =>
    cases hr
    refine ⟨_, rfl, ?_⟩
    rcases hspent with htype | hclosed | ⟨hone, -⟩
    · exact .inl htype
    · exact absurd hopen hclosed
    · omega
  | completed => exact ⟨_, rfl, .inr (.inl (closed_completed _ _ _ _))⟩
  | cancelled => exact ⟨_, rfl, .inr (.inl (closed_cancelled _ _ _ _ _))⟩

/-- A reaction that adds to the history leaves the saga past the message. -/
theorem Reaction.accepted (h : Reaction published e o st row row' sent) {r' : SagaInstanceRow}
    (hr' : row' = some r') (hgrow : ∀ r, row = some r → r.history.length < r'.history.length) :
    r'.Spent e := by
  cases h with
  | nothing => exact absurd (hgrow r' hr') (lt_irrefl _)
  | started _ htype => exact .inl htype
  | resaved => cases hr'; exact absurd (hgrow _ rfl) (lt_irrefl _)
  | advanced _ _ _ htype => cases hr'; exact .inr (.inr ⟨rfl, htype⟩)
  | completed => cases hr'; exact .inr (.inl (closed_completed _ _ _ _))
  | cancelled => cases hr'; exact .inr (.inl (closed_cancelled _ _ _ _ _))

/-- To a message it is past, a saga at most rewrites its row. -/
theorem Reaction.again (h : Reaction published e o st row row' sent) {r : SagaInstanceRow}
    (hr : row = some r) (hspent : r.Spent e) :
    sent = [] ∧ row'.map (·.uncorrelated) = row.map (·.uncorrelated) := by
  cases h with
  | nothing => exact ⟨rfl, rfl⟩
  | started => cases hr
  | resaved => exact ⟨rfl, rfl⟩
  | advanced _ hopen hindex htype =>
    cases hr
    rcases hspent with htype' | hclosed | ⟨hone, -⟩
    · rw [htype] at htype'
      cases htype'
    · exact absurd hopen hclosed
    · omega
  | completed hopen hindex htype =>
    cases hr
    rcases hspent with htype' | hclosed | ⟨-, htype'⟩
    · rw [htype] at htype'
      cases htype'
    · exact absurd hopen hclosed
    · rw [htype] at htype'
      cases htype'
  | cancelled hopen hstep htype =>
    cases hr
    rcases hspent with htype' | hclosed | ⟨hone, htype'⟩
    · rw [htype] at htype'
      rcases steps_cases hstep with ⟨-, rfl⟩ | ⟨-, rfl⟩ <;> cases htype'
    · exact absurd hopen hclosed
    · rw [htype] at htype'
      rcases steps_cases hstep with ⟨-, rfl⟩ | ⟨-, rfl⟩ <;> cases htype'

end Spent

/-- The order that a message names has a saga past it. -/
def SpentIn (s : Shared) (e : EventEnvelope) : Prop :=
  ∃ o row, e.payload.orderId = some o ∧ sagaRow s o = some row ∧ row.Spent e

theorem SpentIn.handle {s : Shared} {e : EventEnvelope} (h : SpentIn s e) (d : Delivery) :
    SpentIn (handle s d) e := by
  obtain ⟨o, row, hid, hrow, hspent⟩ := h
  rcases handle_reaction d s with ⟨-, hrows⟩ | ⟨id, st, sent, -, -, hothers, hreact⟩
  · exact ⟨o, row, hid, (hrows o).trans hrow, hspent⟩
  · by_cases ho : o = id
    · subst ho
      obtain ⟨row', hrow', hspent'⟩ := hreact.spent hrow hspent
      exact ⟨o, row', hid, hrow', hspent'⟩
    · exact ⟨o, row, hid, (hothers o ho).trans hrow, hspent⟩

/-- What was accepted was a reaction of the order that the message names. -/
theorem Accepts.reaction {s : Shared} {d : Delivery} (h : Accepts s d) :
    ∃ o st sent row', d.envelope.payload.orderId = some o ∧ sagaRow (handle s d) o = some row' ∧
      (∀ row, sagaRow s o = some row → row.history.length < row'.history.length) ∧
      Reaction d.published d.envelope o st (sagaRow s o) (sagaRow (handle s d) o) sent := by
  obtain ⟨o, row', hrow', hgrow⟩ := h
  -- a row that a delivery leaves as it was has not grown
  have hsame : sagaRow (handle s d) o ≠ sagaRow s o := fun heq =>
    absurd (hgrow row' (heq ▸ hrow')) (lt_irrefl _)
  rcases handle_reaction d s with ⟨-, hrows⟩ | ⟨id, st, sent, hid, -, hothers, hreact⟩
  · exact absurd (hrows o) hsame
  · have ho : o = id := by
      by_contra ho
      exact hsame (hothers o ho)
    subst ho
    exact ⟨o, st, sent, row', hid, hrow', hgrow, hreact⟩

theorem Accepts.spentIn {s : Shared} {d : Delivery} (h : Accepts s d) :
    SpentIn (handle s d) d.envelope := by
  obtain ⟨o, st, sent, row', hid, hrow', hgrow, hreact⟩ := h.reaction
  exact ⟨o, row', hid, hrow', hreact.accepted hrow' hgrow⟩

/-- After a run every message it accepted is spent. -/
theorem spentIn_of_accepted {ds : List Delivery} {e : EventEnvelope} (h : AcceptedIn ds e) :
    SpentIn (after ds) e := by
  induction ds using List.reverseRecOn with
  | nil =>
    obtain ⟨pre, d, hprefix, -⟩ := h
    simp at hprefix
  | append_singleton ds d ih =>
    rw [after_snoc]
    rcases exists_prefix_snoc.mp h with hbefore | ⟨rfl, haccepts⟩
    · exact (ih hbefore).handle d
    · exact haccepts.spentIn

/-- Handling a spent message again publishes nothing and changes at most a
correlation id. -/
theorem SpentIn.again {s : Shared} {d : Delivery} (h : SpentIn s d.envelope) :
    commandsOf (Saganova.handle s d) = commandsOf s ∧
    ∀ o, (sagaRow (Saganova.handle s d) o).map (·.uncorrelated) =
      (sagaRow s o).map (·.uncorrelated) := by
  obtain ⟨id, row, hid, hrow, hspent⟩ := h
  rcases handle_reaction d s with ⟨hcommands, hrows⟩ |
    ⟨id', st, sent, hid', hcommands, hothers, hreact⟩
  · exact ⟨hcommands, fun o => by rw [hrows]⟩
  · rw [hid] at hid'
    cases hid'
    obtain ⟨rfl, hsame⟩ := hreact.again hrow hspent
    refine ⟨hcommands.trans (List.append_nil _), fun o => ?_⟩
    by_cases ho : o = id
    · subst ho
      exact hsame
    · rw [hothers o ho]

/-- `ds'` is the run `ds` with messages that it accepted handled again, any
number of times and at any later points. -/
inductive WithRepetitions : List Delivery → List Delivery → Prop
  | nil : WithRepetitions [] []
  | message {ds ds' : List Delivery} (d : Delivery) :
      WithRepetitions ds ds' → WithRepetitions (ds ++ [d]) (ds' ++ [d])
  | again {ds ds' : List Delivery} (d : Delivery) :
      WithRepetitions ds ds' → AcceptedIn ds d.envelope → WithRepetitions ds (ds' ++ [d])

/-- All sagas and all that is published look alike. -/
def View.Alike (v : View) (s s' : Shared) : Prop :=
  (commandsOf s).map v.command = (commandsOf s').map v.command ∧
    ∀ o, (sagaRow s o).map v.row = (sagaRow s' o).map v.row

section Repetitions

variable (v : View)

theorem View.Alike.handle {v : View} {s s' : Shared} (h : v.Alike s s') {d : Delivery}
    (hsteady : v.Steady d) : v.Alike (Saganova.handle s d) (Saganova.handle s' d) := by
  rcases handle_effect d s with ⟨hnone, hcommands, hrows⟩ |
    ⟨id, decision, st, hdec, hst, hcommands, hothers, hrow⟩
  · rcases handle_effect d s' with ⟨-, hcommands', hrows'⟩ | ⟨id, decision, st, hdec, -⟩
    · refine ⟨by rw [hcommands, hcommands', h.1], fun o => ?_⟩
      rw [hrows, hrows', h.2]
    · rw [hnone] at hdec
      cases hdec
  · rcases handle_effect d s' with ⟨hnone, -⟩ |
      ⟨id', decision', st', hdec', hst', hcommands', hothers', hrow'⟩
    · rw [hnone] at hdec
      cases hdec
    · rw [hdec] at hdec'
      cases hdec'
      obtain ⟨hrows, hsent⟩ := effect_congr v hsteady hst hst' d.published
        d.envelope.correlationId hdec (h.2 id)
      refine ⟨by rw [hcommands, hcommands', List.map_append, List.map_append, h.1, hsent],
        fun o => ?_⟩
      by_cases ho : o = id
      · subst ho
        rw [hrow, hrow', hrows]
      · rw [hothers o ho, hothers' o ho, h.2]

/-- A view without correlation ids sees no more than `uncorrelated` keeps. -/
theorem View.row_of_uncorrelated {v : View}
    (hforget : ∀ x y, v.correlationId x = v.correlationId y) {row row' : Option SagaInstanceRow}
    (h : row.map (·.uncorrelated) = row'.map (·.uncorrelated)) :
    row.map v.row = row'.map v.row := by
  have hview : ∀ r : SagaInstanceRow, v.row r = v.row r.uncorrelated := fun r => by
    simp only [View.row, SagaInstanceRow.uncorrelated, hforget r.correlationId ""]
  have hmap : ∀ row : Option SagaInstanceRow, row.map v.row =
      (row.map (·.uncorrelated)).map v.row := fun row => by
    cases row <;> simp [← hview]
  rw [hmap row, h, ← hmap row']

theorem View.Spent_congr {v : View} {s s' : Shared} (h : v.Alike s s') {e : EventEnvelope}
    (hspent : SpentIn s e) : SpentIn s' e := by
  obtain ⟨o, row, hid, hrow, hspent⟩ := hspent
  have hlook := h.2 o
  rw [hrow] at hlook
  obtain ⟨row', hrow', hsame⟩ := Option.map_eq_some_iff.mp hlook.symm
  obtain ⟨-, hindex, hstatus, -⟩ := v.row_inj hsame
  refine ⟨o, row', hid, hrow', ?_⟩
  unfold SagaInstanceRow.Spent SagaInstanceRow.Open at *
  rwa [← hindex, ← hstatus]

theorem alike_of_repetitions {ds ds' : List Delivery} (h : WithRepetitions ds ds')
    (hforget : ∀ x y, v.correlationId x = v.correlationId y) (hsteady : ∀ d ∈ ds, v.Steady d) :
    v.Alike (after ds) (after ds') := by
  induction h with
  | nil => exact ⟨rfl, fun _ => rfl⟩
  | message d h ih =>
    rw [after_snoc, after_snoc]
    exact (ih fun d' hd' => hsteady d' (List.mem_append_left _ hd')).handle (hsteady d (by simp))
  | again d h haccepted ih =>
    have halike := ih hsteady
    obtain ⟨hcommands, hrows⟩ := (View.Spent_congr halike (spentIn_of_accepted haccepted)).again
    rw [after_snoc]
    refine ⟨by rw [hcommands, halike.1], fun o => ?_⟩
    rw [halike.2 o, View.row_of_uncorrelated hforget (hrows o)]

end Repetitions

/-- Handling an accepted message again publishes nothing and changes at most a
correlation id; and a run with such repetitions publishes the commands and ends
in the rows of the run without them, up to that and to the stamps that each
message is given when it is handled. -/
def RedeliveryInvisible (ds : List Delivery) : Prop :=
  (∀ d, AcceptedIn ds d.envelope → commandsOf (handle (after ds) d) = commandsOf (after ds) ∧
    ∀ o, (sagaRow (handle (after ds) d) o).map (·.uncorrelated) =
      (sagaRow (after ds) o).map (·.uncorrelated)) ∧
  ∀ ds', WithRepetitions ds ds' → ∀ v : View,
    (∀ x y, v.correlationId x = v.correlationId y) → (∀ d ∈ ds, v.Steady d) →
    v.Alike (after ds) (after ds')

theorem redeliveryInvisible (ds : List Delivery) : RedeliveryInvisible ds :=
  ⟨fun _ h => (spentIn_of_accepted h).again,
    fun _ h v hforget hsteady => alike_of_repetitions v h hforget hsteady⟩

end Saganova
