import Mathlib.Algebra.Order.BigOperators.Group.List
import Saganova.AuditLog

/-!
# The audit consumer catches up

Whatever its sessions were doing, the audit consumer can go on and commit every
record of a log (`auditCatchesUp`): a record that was audited before is found by
the unique constraint, and passed.  It needs every record to have a value that
is not the JSON text null, and whose row the columns take.
-/

namespace Saganova

open Concurrency

namespace AuditKafkaConsumer

/-- `/^[a-z]+\.[a-z]+$/` -/
def subscribes (topic : String) : Bool :=
  match topic.toList.splitOn '.' with
  | [domain, kind] => !domain.isEmpty && !kind.isEmpty && (domain ++ kind).all Char.isLower
  | _ => false

end AuditKafkaConsumer

/-- The offsets of all messages on its topics are committed. -/
def CaughtUp (log : KafkaLog) (a : AuditState) : Prop :=
  ∀ partition offset, AuditKafkaConsumer.subscribes partition.topic →
    (log partition offset).isSome → offset < a.committed partition

/-- The value is nested at most so deep, and U+0000 is in no string of it. -/
def Json.Fits : ℕ → Json → Prop
  | _, .null | _, .bool _ | _, .num _ => True
  | _, .str s => TextFits s
  | 0, .arr _ | 0, .obj _ => False
  | n + 1, .arr elements => ∀ element ∈ elements, Fits n element
  | n + 1, .obj fields => ∀ field ∈ fields, TextFits field.1 ∧ Fits n field.2

/-- PostgreSQL takes the row: its texts, which are in indexes, have at most 2600
bytes, its payload is nested at most 1000 deep, and there is no U+0000. -/
structure AuditRow.Storable (row : AuditRow) : Prop where
  texts : ∀ s ∈ row.texts, TextFits s ∧ s.utf8ByteSize ≤ 2600
  payload : row.payload.Fits 1000

/-- The handler of every record comes to an end. -/
def Consumable (runtime : Runtime) (log : KafkaLog) : Prop :=
  ∀ partition offset value, log partition offset = some value →
    ∃ text, value = some text ∧ ∀ envelope, runtime.parse text = some envelope →
      ∃ row, AuditKafkaConsumer.auditRow runtime envelope = .ok row ∧ row.Storable

/-- All records are among those at the keys. -/
def RecordsIn (log : KafkaLog) (keys : List AuditKey) : Prop :=
  ∀ partition offset, (log partition offset).isSome → ⟨partition, offset⟩ ∈ keys

section Storable

instance decidableFits : (n : ℕ) → (value : Json) → Decidable (value.Fits n)
  | _, .null | _, .bool _ | _, .num _ => .isTrue (by simp [Json.Fits])
  | _, .str s => decidable_of_iff (TextFits s) (by simp [Json.Fits])
  | 0, .arr _ | 0, .obj _ => .isFalse (by simp [Json.Fits])
  | n + 1, .arr elements =>
    have := decidableFits n
    decidable_of_iff (∀ element ∈ elements, Json.Fits n element) (by simp [Json.Fits])
  | n + 1, .obj fields =>
    have := decidableFits n
    decidable_of_iff (∀ field ∈ fields, TextFits field.1 ∧ Json.Fits n field.2)
      (by simp [Json.Fits])

instance (row : AuditRow) : Decidable row.Storable :=
  decidable_of_iff ((∀ s ∈ row.texts, TextFits s ∧ s.utf8ByteSize ≤ 2600) ∧ row.payload.Fits 1000)
    ⟨fun h => ⟨h.1, h.2⟩, fun h => ⟨h.texts, h.payload⟩⟩

theorem elementsHaveNul_eq (elements : List Json) :
    Json.elementsHaveNul elements = elements.any Json.hasNul := by
  induction elements with
  | nil => rfl
  | cons element elements ih => rw [Json.elementsHaveNul, ih, List.any_cons]

theorem fieldsHaveNul_eq (fields : List (String × Json)) : Json.fieldsHaveNul fields =
    fields.any fun field => !decide (TextFits field.1) || field.2.hasNul := by
  induction fields with
  | nil => rfl
  | cons field fields ih => rw [Json.fieldsHaveNul, ih, List.any_cons]

theorem Json.Fits.hasNul {n : ℕ} {value : Json} (h : value.Fits n) : value.hasNul = false := by
  induction n generalizing value with
  | zero =>
    cases value with
    | str s => simpa [Json.hasNul, Json.Fits] using h
    | arr elements => exact h.elim
    | obj fields => exact h.elim
    | _ => rfl
  | succ n ih =>
    cases value with
    | str s => simpa [Json.hasNul, Json.Fits] using h
    | arr elements =>
      rw [Json.hasNul, elementsHaveNul_eq, List.any_eq_false]
      exact fun element helement => by simp [ih (h element helement)]
    | obj fields =>
      rw [Json.hasNul, fieldsHaveNul_eq, List.any_eq_false]
      intro field hfield
      obtain ⟨hname, hvalue⟩ := h field hfield
      simp [hname, ih hvalue]
    | _ => rfl

/-- No column rejects such a row. -/
theorem AuditRow.Storable.rejection {row : AuditRow} (h : row.Storable) : row.rejection = none := by
  have htexts : ¬ ∃ s ∈ row.texts, ¬ TextFits s := by
    rintro ⟨s, hs, hnul⟩
    exact hnul (h.texts s hs).1
  unfold AuditRow.rejection
  rw [if_neg htexts, if_neg (by simp [h.payload.hasNul])]

end Storable

section Session

variable {runtime : Runtime} {log : KafkaLog} {a a₁ a₂ a₃ : AuditState} {i : ℕ}
  {partition : TopicPartition} {k : ℕ}

theorem AuditRun.trans (h : AuditRun runtime log a₁ a₂) (h' : AuditRun runtime log a₂ a₃) :
    AuditRun runtime log a₁ a₃ := by
  induction h' with
  | refl => exact h
  | step _ hstep ih => exact ih.step hstep

@[simp] theorem setHandler_sessions (s : AuditState) (i : ℕ) (session : AuditSession)
    (handler : AuditProc Unit) :
    (s.setHandler i session handler).sessions i = some { session with handler := some handler } :=
  Function.update_self ..

@[simp] theorem setSession_sessions (s : AuditState) (i : ℕ) (session : Option AuditSession) :
    (s.setSession i session).sessions i = session :=
  Function.update_self ..

/-- The insert of a record succeeds, or finds a row; the handler goes on to the commit. -/
theorem run_insert {key : AuditKey} {row : AuditRow} {session : AuditSession}
    (hrow : row.Storable) (hi : a.sessions i = some session) (hcode : session.handler =
      some (AuditLogRepository.record key row >>= fun _ => AuditKafkaConsumer.commit key)) :
    ∃ table, AuditRun runtime log a (({ a with auditLog := table } : AuditState).setHandler i
      session (AuditKafkaConsumer.commit key)) := by
  rw [AuditKafkaConsumer.record_commit] at hcode
  cases hfree : Store.row a.auditLog key with
  | none =>
    have hexec : (AuditLogRepository.insert key row).exec a.auditLog [] =
        .ok ((), [⟨key, row⟩]) := by
      unfold AuditLogRepository.insert
      simp [hfree, hrow.rejection]
    exact ⟨_, AuditRun.refl.step (.insert hi hcode hexec (.inl rfl))⟩
  | some old =>
    have hexec : (AuditLogRepository.insert key row).exec a.auditLog [] =
        .error .uniqueViolation := by
      unfold AuditLogRepository.insert
      simp [hfree, hrow.rejection]
    exact ⟨a.auditLog, AuditRun.refl.step (.insertFails hi hcode (.inr hexec))⟩

/-- **A record is consumed**: its row is there, and its offset is committed. -/
theorem run_record (hlog : Consumable runtime log)
    (hi : a.sessions i = some ⟨partition, k, none⟩) {value : Option String}
    (hvalue : log partition k = some value) : ∃ table, AuditRun runtime log a
      ((({ a with auditLog := table } : AuditState).setCommitted partition (k + 1)).setSession i
        (some ⟨partition, k + 1, none⟩)) := by
  obtain ⟨text, rfl, hrows⟩ := hlog _ _ _ hvalue
  let session : AuditSession := ⟨partition, k, none⟩
  have hdelivered : AuditRun runtime log a (a.setHandler i session
      (AuditKafkaConsumer.eachMessage runtime session.key (some text))) :=
    AuditRun.refl.step (.deliver hi rfl hvalue)
  -- the handler comes to its commit, with or without an insert
  have hcommit : ∃ table, AuditRun runtime log a
      (({ a with auditLog := table } : AuditState).setHandler i session
        (AuditKafkaConsumer.commit session.key)) := by
    unfold AuditKafkaConsumer.eachMessage at hdelivered
    cases hparse : runtime.parse text with
    | none =>
      simp only [hparse] at hdelivered
      exact ⟨a.auditLog, hdelivered⟩
    | some envelope =>
      obtain ⟨row, hrow, hstorable⟩ := hrows envelope hparse
      simp only [hparse, hrow] at hdelivered
      obtain ⟨table, hinserted⟩ := run_insert (a := a.setHandler i session _) hstorable
        (setHandler_sessions ..) rfl
      refine ⟨table, ?_⟩
      have hrun := hdelivered.trans hinserted
      simpa [AuditState.setHandler, AuditState.setSession] using hrun
  obtain ⟨table, hrun⟩ := hcommit
  refine ⟨table, ?_⟩
  have hcommitted := hrun.step (.commitOffsets (.ok ()) (setHandler_sessions ..) rfl)
  have hreturned := hcommitted.step (.returned (setHandler_sessions ..) rfl)
  simpa [AuditState.setHandler, AuditState.setSession, AuditState.setCommitted, session,
    AuditSession.key] using hreturned

/-- A session has read its partition to an offset, and has committed what is there. -/
structure ReadTo (log : KafkaLog) (a₀ : AuditState) (i : ℕ) (partition : TopicPartition) (k : ℕ)
    (a : AuditState) : Prop where
  session : a.sessions i = some ⟨partition, k, none⟩
  committed : a.committed partition ≤ k
  passed : ∀ o < k, (log partition o).isSome → o < a.committed partition
  others : ∀ partition' ≠ partition, a.committed partition' = a₀.committed partition'

/-- One offset further. -/
theorem ReadTo.next {a₀ : AuditState} (h : ReadTo log a₀ i partition k a)
    (hlog : Consumable runtime log) :
    ∃ a', AuditRun runtime log a a' ∧ ReadTo log a₀ i partition (k + 1) a' := by
  cases hvalue : log partition k with
  | none =>
    refine ⟨_, AuditRun.refl.step (.gap h.session rfl hvalue), setSession_sessions .., ?_, ?_,
      h.others⟩
    · exact h.committed.trans (Nat.le_succ k)
    · intro o ho hsome
      obtain hlt | rfl := Nat.lt_succ_iff_lt_or_eq.mp ho
      · exact h.passed o hlt hsome
      · rw [hvalue] at hsome
        cases hsome
  | some value =>
    obtain ⟨table, hrun⟩ := run_record hlog h.session hvalue
    have hcommitted : ∀ partition', (({ a with auditLog := table } : AuditState).setCommitted
        partition (k + 1)).committed partition' =
        if partition' = partition then k + 1 else a.committed partition' :=
      fun partition' => Function.update_apply ..
    refine ⟨_, hrun, setSession_sessions .., ?_, ?_, ?_⟩
    · exact (hcommitted partition).trans (if_pos rfl) |>.le
    · intro o ho _
      exact ho.trans_le ((hcommitted partition).trans (if_pos rfl)).ge
    · intro partition' hne
      exact ((hcommitted partition').trans (if_neg hne)).trans (h.others _ hne)

/-- To any offset further on. -/
theorem ReadTo.to {a₀ : AuditState} (h : ReadTo log a₀ i partition k a)
    (hlog : Consumable runtime log) (n : ℕ) :
    ∃ a', AuditRun runtime log a a' ∧ ReadTo log a₀ i partition (k + n) a' := by
  induction n with
  | zero => exact ⟨a, .refl, h⟩
  | succ n ih =>
    obtain ⟨a₁, hrun, h₁⟩ := ih
    obtain ⟨a₂, hrun', h₂⟩ := h₁.next hlog
    exact ⟨a₂, hrun.trans hrun', h₂⟩

/-- The records of a partition are committed. -/
def CaughtUpOn (log : KafkaLog) (a : AuditState) (partition : TopicPartition) : Prop :=
  ∀ o, (log partition o).isSome → o < a.committed partition

/-- **A partition is read to its end**, and no other is set back. -/
theorem run_partition (hlog : Consumable runtime log) (partition : TopicPartition) {n : ℕ}
    (hn : ∀ o, (log partition o).isSome → o < n) : ∃ a', AuditRun runtime log a a' ∧
      CaughtUpOn log a' partition ∧
      ∀ partition', CaughtUpOn log a partition' → CaughtUpOn log a' partition' := by
  -- whatever session 0 was doing, it is gone, and another is assigned the partition
  have hassigned : AuditRun runtime log a ((a.setSession 0 none).setSession 0
      (some ⟨partition, a.committed partition, none⟩)) :=
    (AuditRun.refl.step .gone).step (.assign partition (setSession_sessions ..))
  by_cases hbehind : CaughtUpOn log a partition
  · exact ⟨a, .refl, hbehind, fun _ h => h⟩
  · have hstart : ReadTo log a 0 partition (a.committed partition)
        ((a.setSession 0 none).setSession 0 (some ⟨partition, a.committed partition, none⟩)) :=
      ⟨setSession_sessions .., le_refl _, fun o ho _ => ho, fun _ _ => rfl⟩
    obtain ⟨a', hrun, hread⟩ := hstart.to hlog n
    have hcaught : CaughtUpOn log a' partition := by
      intro o hsome
      exact hread.passed o ((hn o hsome).trans_le (Nat.le_add_left n _)) hsome
    refine ⟨a', hassigned.trans hrun, hcaught, fun partition' h => ?_⟩
    by_cases hpartition : partition' = partition
    · subst hpartition
      exact hcaught
    · intro o hsome
      rw [hread.others partition' hpartition]
      exact h o hsome

/-- One partition after another. -/
theorem run_partitions (hlog : Consumable runtime log) {n : ℕ}
    (hn : ∀ partition o, (log partition o).isSome → o < n) (partitions : List TopicPartition) :
    ∃ a', AuditRun runtime log a a' ∧ ∀ partition ∈ partitions, CaughtUpOn log a' partition := by
  suffices h : ∃ a', AuditRun runtime log a a' ∧
      (∀ partition ∈ partitions, CaughtUpOn log a' partition) ∧
      ∀ partition', CaughtUpOn log a partition' → CaughtUpOn log a' partition' by
    obtain ⟨a', hrun, hall, -⟩ := h
    exact ⟨a', hrun, hall⟩
  induction partitions generalizing a with
  | nil => exact ⟨a, .refl, by simp, fun _ h => h⟩
  | cons partition partitions ih =>
    obtain ⟨a₁, hrun, hcaught, hkept⟩ := run_partition (a := a) hlog partition (hn partition)
    obtain ⟨a₂, hrun', hrest, hkept'⟩ := ih (a := a₁)
    refine ⟨a₂, hrun.trans hrun', ?_, fun partition' h => hkept' _ (hkept _ h)⟩
    intro partition' hmem
    obtain rfl | hmem := List.mem_cons.mp hmem
    · exact hkept' _ hcaught
    · exact hrest _ hmem

theorem run_to_end (hlog : Consumable runtime log) {keys : List AuditKey}
    (hkeys : RecordsIn log keys) : ∃ a', AuditRun runtime log a a' ∧ CaughtUp log a' := by
  have hn : ∀ partition o, (log partition o).isSome → o < (keys.map (·.offset + 1)).sum := by
    intro partition o hsome
    exact List.single_le_sum (fun q _ => Nat.zero_le q) _
      (List.mem_map.mpr ⟨_, hkeys partition o hsome, rfl⟩)
  obtain ⟨a', hrun, hcaught⟩ := run_partitions (a := a) hlog hn (keys.map AuditKey.partition)
  refine ⟨a', hrun, fun partition offset _ hsome => ?_⟩
  exact hcaught partition (List.mem_map.mpr ⟨_, hkeys partition offset hsome, rfl⟩) offset hsome

end Session

/-- **The consumer is not wedged**: from wherever it is, with whatever rows and
half-handled records, it can go on to where the offset of every record is
committed, as long as its handler gets through each. -/
theorem auditCatchesUp (runtime : Runtime) (log : KafkaLog) (hlog : Consumable runtime log)
    (keys : List AuditKey) (hkeys : RecordsIn log keys) (a : AuditState) :
    ∃ a', AuditRun runtime log a a' ∧ CaughtUp log a' :=
  run_to_end hlog hkeys

/-- After an insert that failed. -/
theorem auditCatchesUp_failed : ∃ a', AuditRun declinedRuntime declinedLog
    (AuditState.empty.setHandler 0 ⟨paymentEvents, 0, none⟩ (throw (.queryFailed "timeout"))) a' ∧
      CaughtUp declinedLog a' := by
  refine auditCatchesUp declinedRuntime declinedLog ?_ [⟨paymentEvents, 0⟩] ?_ _
  · intro partition offset value hvalue
    unfold declinedLog at hvalue
    split at hvalue
    · obtain rfl := Option.some.inj hvalue
      refine ⟨declinedText, rfl, fun envelope hparse => ?_⟩
      obtain rfl := Option.some.inj (declined_parses.symm.trans hparse)
      exact ⟨_, rfl, by decide +kernel⟩
    · cases hvalue
  · intro partition offset hsome
    unfold declinedLog at hsome
    split at hsome
    · rename_i hat
      obtain ⟨rfl, rfl⟩ := hat
      simp
    · cases hsome

end Saganova
