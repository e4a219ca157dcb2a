import Saganova.CheckoutSafety
import Saganova.LateRedelivery

/-!
# The composed system, a handler at a time

Each handler is executed at one go, all or nothing: a delivery that fails leaves
no trace, and one that succeeds had its publishes confirmed.  Every message may
be delivered any number of times and in any order, and `Checkout` keeps which
ones were handled.

These are runs of the system of `CheckoutFacts` (`CheckoutReach.reach`), so its
invariants hold.
-/

namespace Saganova

open Concurrency

/-! ## A handler at a time -/

/-- What the outside answers to a handler that succeeds. -/
structure Answers (answer : ℕ → (a : Act) → Act.Reply a) (db : Db) : Prop
    extends CallsReturn answer db where
  uuid_ne : ∀ k, answer k .randomUUID ≠ ""
  publish : ∀ k topic message key, answer k (.publish topic message key) = .ok ()
  commitOffsets : ∀ k topic partition offset,
    answer k (.commitOffsets topic partition offset) = .ok ()

/-- The services, and what has been done with the messages. -/
structure Checkout where
  shared : Shared
  commandsHandled : List (Service × CommandEnvelope)
  eventsHandled : List EventEnvelope
  /-- the outbox rows whose `publishedAt` is set -/
  publishedAt : List (Service × Uuid)

namespace Checkout

/-- The state after the task has run to its end. -/
def run (c : Checkout) (answer : ℕ → (a : Act) → Act.Reply a) (t : Task) : Shared :=
  (Proc.run answer t (code t) c.shared).2

def handle (c : Checkout) (answer : ℕ → (a : Act) → Act.Reply a) (t : Task) : Checkout :=
  match t with
  | .createOrder _ _ _ => { c with shared := c.run answer t }
  | .command svc r =>
    { c with shared := c.run answer t, commandsHandled := (svc, r.value) :: c.commandsHandled }
  | .event r => { c with shared := c.run answer t, eventsHandled := r.value :: c.eventsHandled }
  | .relay svc oid =>
    { c with shared := c.run answer t, publishedAt := (svc, oid) :: c.publishedAt }

@[simp] theorem handle_shared (c : Checkout) (answer : ℕ → (a : Act) → Act.Reply a) (t : Task) :
    (c.handle answer t).shared = c.run answer t := by
  cases t <;> rfl

/-- Its message was published; a relay has a row to relay. -/
def Ready (c : Checkout) : Task → Prop
  | .relay svc oid => (Store.row c.shared.db (.outbox svc oid)).isSome
  | t => Delivered c.shared t

theorem Ready.delivered {c : Checkout} {t : Task} (h : c.Ready t) : Delivered c.shared t := by
  cases t with
  | relay _ _ => trivial
  | createOrder _ _ _ => exact h
  | command _ _ => exact h
  | event _ => exact h

/-- The task succeeds. -/
structure Succeeds (c : Checkout) (answer : ℕ → (a : Act) → Act.Reply a) (t : Task) : Prop where
  ready : c.Ready t
  answers : Answers answer c.shared.db
  returns : (Proc.run answer t (code t) c.shared).1 = .ok ()

end Checkout

inductive CheckoutStep (c : Checkout) : Checkout → Prop
  | handled {answer : ℕ → (a : Act) → Act.Reply a} {t : Task} : c.Succeeds answer t →
      CheckoutStep c (c.handle answer t)
  /-- a relay whose transaction is rolled back after the publish -/
  | unmarked {answer : ℕ → (a : Act) → Act.Reply a} {svc : Service} {oid : Uuid} :
      c.Succeeds answer (.relay svc oid) →
      CheckoutStep c { c with shared := c.run answer (.relay svc oid) }

inductive CheckoutReach : Checkout → Prop
  | start {db : Db} : OnlyStocked db → CheckoutReach ⟨⟨db, []⟩, [], [], []⟩
  | step {c c' : Checkout} : CheckoutReach c → CheckoutStep c c' → CheckoutReach c'

/-- Nothing is outstanding. -/
structure Quiet (c : Checkout) : Prop where
  commands : ∀ topic e, Published c.shared topic (.command e) → ∀ svc, (svc, e) ∈ c.commandsHandled
  events : ∀ topic e, Published c.shared topic (.event e) → e ∈ c.eventsHandled
  outbox : ∀ svc oid, (Store.row c.shared.db (.outbox svc oid)).isSome → (svc, oid) ∈ c.publishedAt

/-! ## These are runs of the system -/

/-- Publishes are confirmed, and ids are not empty. -/
def Prompt : (a : Act) → Act.Reply a → Prop
  | .randomUUID, (id : Uuid) => id ≠ ""
  | .publish _ _ _, (r : Except Err Unit) => r = .ok ()
  | _, _ => True

theorem Answers.prompt {answer : ℕ → (a : Act) → Act.Reply a} {db : Db} (h : Answers answer db)
    (k : ℕ) (a : Act) : Prompt a (answer k a) := by
  cases a with
  | randomUUID => exact h.uuid_ne k
  | publish topic message key => exact h.publish k topic message key
  | _ => trivial

def promptSystem : System :=
  { checkoutSystem with reply := fun _ _ a r => Prompt a r }

theorem CheckoutReach.reach {c : Checkout} (h : CheckoutReach c) :
    Reach promptSystem anything (.idle c.shared) := by
  have hrun : ∀ {c : Checkout} {answer t}, Reach promptSystem anything (.idle c.shared) →
      c.Succeeds answer t → Reach promptSystem anything (.idle (c.run answer t)) := by
    intro c answer t hc ht
    exact hc.run ht.ready.delivered fun s a => ht.answers.prompt _ a
  induction h with
  | start hdb => exact .start ⟨hdb, rfl⟩
  | step _ hstep ih =>
    cases hstep with
    | handled ht =>
      rw [Checkout.handle_shared]
      exact hrun ih ht
    | unmarked ht => exact hrun ih ht

theorem promptSystem_keeps {G : Guard} : promptSystem.Keeps serviceProtocol G :=
  keepsServiceProtocol rfl fun _ hs => hs.1.fresh.consistent

theorem mem_commandsOf {s : Shared} {c : CommandEnvelope} :
    c ∈ commandsOf s ↔ Confirmed s .sagaCommands (.command c) := by
  unfold commandsOf
  rw [List.mem_filterMap]
  constructor
  · rintro ⟨event, hmem, hsome⟩
    unfold confirmedCommand at hsome
    split at hsome
    · rename_i task c' key
      obtain rfl := Option.some.inj hsome
      exact ⟨task, key, List.mem_reverse.mp hmem⟩
    · nomatch hsome
  · rintro ⟨task, key, hmem⟩
    exact ⟨_, List.mem_reverse.mpr hmem, rfl⟩

/-- What every answer being prompt comes to. -/
structure PromptInv (s : Shared) : Prop where
  commands : ∀ topic c, Published s topic (.command c) → c ∈ commandsOf s
  ids : ∀ t (id : Uuid), Event.acted t .randomUUID id ∈ s.trace → id ≠ ""

theorem promptInv_of_reach {G : Guard} {s : State} (h : Reach promptSystem G s) :
    PromptInv s.shared := by
  refine Protocol.invariant_of_took promptSystem_keeps (T := fun _ _ => True) (fun _ _ _ => trivial)
    (fun _ _ _ _ _ => trivial) (fun s hs => ?_) (fun t seen s s' hdb htook hI hstep => ?_) h
  · constructor
    · intro topic c hpublished
      exact absurd hpublished (not_published hs.2 topic _)
    · intro t id hmem
      exact absurd hmem (not_acted hs.2 t .randomUUID id)
  · have hgrow := hstep.grows hdb
    constructor
    · rintro topic c ⟨task, key, r, hmem⟩
      rw [mem_commandsOf]
      obtain hold | ⟨rfl, hallowed, hs'⟩ := hstep.new_event hmem
      · obtain ⟨task', key', hconfirmed⟩ := mem_commandsOf.mp (hI.commands topic c ⟨_, _, _, hold⟩)
        exact ⟨task', key', hgrow.trace.subset hconfirmed⟩
      · obtain ⟨rfl, -⟩ := MayPublish.of_command hallowed
        obtain rfl : r = .ok () := htook.reply _ _ hs'
        exact ⟨_, key, hmem⟩
    · intro t' id hmem
      obtain hold | ⟨rfl, -, hs'⟩ := hstep.new_event hmem
      · exact hI.ids t' id hold
      · exact htook.reply _ _ hs'

/-! ## What a run leaves as it is -/

section Run

variable {answer : ℕ → (a : Act) → Act.Reply a} {t : Task} {s : Shared}

/-- What the steps of a task keep, its run keeps. -/
theorem code_keeps {I : Shared → Prop} (hdb : Consistent s.db) (hs : I s)
    (hI : ∀ seen s s', Consistent s.db → I s → ServiceStep t seen s s' → I s') :
    Grows s (Proc.run answer t (code t) s).2 ∧ I (Proc.run answer t (code t) s).2 := by
  have hwp : (code t).wp serviceSystem serviceProtocol t (fun _ _ _ => True) [] s := wp_code t
  have hkeeps : (code t).After answer t (fun _ s' => Consistent s'.db ∧ serviceProtocol.rely s s' ∧
      I s') s :=
    Proc.run_keeps (fun _ _ => trivial) (fun _ _ _ => trivial) hI (code t) hwp hdb hs
  exact hkeeps.2

/-- A task other than the orchestrator's leaves the sagas and what they asked for. -/
structure SameSagas (s s' : Shared) : Prop where
  rows : ∀ o, sagaRow s' o = sagaRow s o
  asked : ∀ type o, type ≠ .createOrder → Asked s' type o → Asked s type o

theorem SameSagas.trans {s₁ s₂ s₃ : Shared} (h : SameSagas s₁ s₂) (h' : SameSagas s₂ s₃) :
    SameSagas s₁ s₃ where
  rows o := (h'.rows o).trans (h.rows o)
  asked type o hne hasked := h.asked type o hne (h'.asked type o hne hasked)

theorem ServiceStep.sameSagas {seen : Db} {s' : Shared} (h : ServiceStep t seen s s')
    (ht : ∀ r, t ≠ .event r) : SameSagas s s' where
  rows o := by
    obtain hsame | ⟨r, _, _, heq, -⟩ := h.saga_cases o
    · exact hsame
    · exact absurd heq (ht r)
  asked := by
    rintro type o hne ⟨topic, c, ⟨task, key, res, hmem⟩, htype, ho⟩
    obtain hold | ⟨rfl, hallowed, -⟩ := h.new_event hmem
    · exact ⟨topic, c, ⟨task, key, res, hold⟩, htype, ho⟩
    · obtain ⟨-, ⟨_, _, _, -, hcreate, -⟩ | ⟨r, _, _, htask, -⟩⟩ := MayPublish.of_command hallowed
      · exact absurd (htype.symm.trans hcreate) hne
      · exact absurd htask (ht r)

theorem run_sameSagas (hdb : Consistent s.db) (ht : ∀ r, t ≠ .event r) :
    SameSagas s (Proc.run answer t (code t) s).2 :=
  (code_keeps (I := SameSagas s) hdb ⟨fun _ => rfl, fun _ _ _ h => h⟩
    fun _ _ _ _ hI hstep => hI.trans (hstep.sameSagas ht)).2

theorem run_absorbed (hdb : Consistent s.db) {svc : Service} {e : CommandEnvelope}
    (he : Absorbed s.db svc e) : Absorbed (Proc.run answer t (code t) s).2.db svc e :=
  (code_keeps (I := fun s => Absorbed s.db svc e) hdb he
    fun _ _ _ hdb he hstep => he.step hdb hstep).2

/-- A command that was handled is absorbed. -/
theorem absorbed_of_handled {svc : Service} {r : Record CommandEnvelope} (hdb : Consistent s.db)
    (hanswers : Answers answer s.db)
    (hreturns : (Proc.run answer (.command svc r) (code (.command svc r)) s).1 = .ok ()) :
    Absorbed (Proc.run answer (.command svc r) (code (.command svc r)) s).2.db svc r.value := by
  have hcode : (code (.command svc r)).After answer (.command svc r)
      (OnReturn fun db => Absorbed db svc r.value) s := by
    refine Proc.after_bind _ _ ((absorbed_of_return hdb hanswers.toCallsReturn).mono ?_)
    intro res s' hres
    cases res with
    | error e => trivial
    | ok u =>
      refine Proc.after_act ?_
      rw [hanswers.commitOffsets]
      exact hres
  unfold Proc.After at hcode
  rw [hreturns] at hcode
  exact hcode

/-- A row that is relayed is published. -/
theorem published_of_relay {svc : Service} {oid : Uuid} {row : OutboxRow}
    (hrow : Store.row s.db (.outbox svc oid) = some row) :
    Published (Proc.run answer (.relay svc oid) (code (.relay svc oid)) s).2 row.topic
      (relayedMessage oid row) := by
  have hcode : (code (.relay svc oid)).After answer (.relay svc oid)
      (fun _ s' => Published s' row.topic (relayedMessage oid row)) s := by
    refine Proc.after_read ?_
    simp only [hrow]
    refine Proc.after_act ?_
    generalize answer _ _ = res
    cases res with
    | ok u => exact ⟨_, _, _, List.mem_cons_self⟩
    | error e => exact ⟨_, _, _, List.mem_cons_self⟩
  exact hcode

end Run

/-! ## What the orchestrator does with an event -/

/-- Actions that the orchestrator does not perform. -/
def Elsewhere : Act → Prop
  | .randomUUIDs | .authorize _ | .refund _ _ _ => True
  | _ => False

theorem publish_avoids (type : CommandType) (payload : Payload) (correlationId : String) :
    (SagaCommandProducer.publish type (some payload) correlationId).Avoids Elsewhere := by
  rw [SagaCommandProducer.publish_eq]
  exact ⟨id, fun _ => ⟨id, fun _ => ⟨id, fun _ => Proc.avoids_ofExcept _⟩⟩⟩

theorem saveRow_avoids (orderId : Uuid) (row : SagaInstanceRow) :
    (Decision.saveRow orderId row).Avoids Elsewhere := Proc.avoids_transaction _

theorem now_avoids : now.Avoids Elsewhere := ⟨id, fun _ => trivial⟩

theorem perform_avoids (orderId : Uuid) (correlationId : String) (decision : Decision) :
    (decision.perform orderId correlationId).Avoids Elsewhere := by
  cases decision with
  | ignore => trivial
  | fail e => trivial
  | resave row => exact saveRow_avoids _ _
  | start context =>
    exact (publish_avoids _ _ _).bind fun _ => now_avoids.bind fun _ => saveRow_avoids _ _
  | advance row context =>
    exact now_avoids.bind fun _ => (publish_avoids _ _ _).bind fun _ => saveRow_avoids _ _
  | complete row context =>
    exact now_avoids.bind fun _ => (saveRow_avoids _ _).bind fun _ => publish_avoids _ _ _
  | cancel row context step =>
    exact now_avoids.bind fun _ => (saveRow_avoids _ _).bind fun _ => publish_avoids _ _ _

theorem orchestrator_avoids (r : Record EventEnvelope) : (code (.event r)).Avoids Elsewhere := by
  refine Proc.Avoids.bind ?_ fun _ => ⟨id, fun _ => Proc.avoids_ofExcept _⟩
  obtain ⟨-, hend | ⟨e, hend⟩⟩ | ⟨orderId, decision, -, hdispatch⟩ := dispatch_cases r.value
  · rw [hend]
    trivial
  · rw [hend]
    trivial
  · rw [hdispatch]
    exact fun db => perform_avoids _ _ _

/-- The delivery of the event, with these answers. -/
def deliveryOf (answer : ℕ → (a : Act) → Act.Reply a) (r : Record EventEnvelope) : Delivery where
  record := r
  uuid k := answer k .randomUUID
  clock k := answer k .now

theorem run_event {answer : ℕ → (a : Act) → Act.Reply a} {db : Db} (h : Answers answer db)
    (r : Record EventEnvelope) (s : Shared) :
    (Proc.run answer (.event r) (code (.event r)) s).2 = handle s (deliveryOf answer r) := by
  unfold handle
  refine congrArg Prod.snd ((orchestrator_avoids r).run_congr (fun k a ha => ?_) _ s)
  cases a with
  | randomUUID => rfl
  | now => rfl
  | publish topic message key => exact h.publish k topic message key
  | commitOffsets topic partition offset => exact h.commitOffsets k topic partition offset
  | randomUUIDs => exact absurd trivial ha
  | authorize _ => exact absurd trivial ha
  | refund _ _ _ => exact absurd trivial ha

end Saganova
