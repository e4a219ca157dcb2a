import Mathlib.Data.List.Sort
import Saganova.OutboxRelay

/-!
# Rows that cannot be published

`relay()` called again and again by one pod, over an outbox that grows no more
and of which some rows can never be published.  A row that fails keeps its
place, and every call selects the oldest unpublished rows anew, so `batchSize`
failing rows fill the batch for good.  The other rows all go out exactly where
fewer than `batchSize` failing ones stand before each (`drains_iff`).
-/

namespace Saganova

/-! ## Calls -/

/-- The table, whose primary key is the id. -/
structure Outbox where
  rows : List OutboxEntry
  ids : (rows.map (·.id)).Nodup

/-- No call is under way. -/
def Outbox.idle (o : Outbox) : RelayState := ⟨o.rows, fun _ => none, []⟩

section Calls

variable (batchSize : ℕ) (failing : Uuid → Bool)

/-- The steps of relay `i` between its SELECT and its commit.  Publishing fails
for the rows in `failing`, and for no others. -/
def DuringCall (i : ℕ) (s : RelayState) (j : ℕ) : RelayChoice → Prop
  | .insert _ | .tick _ | .commit | .abort => False
  | .publish result => j = i ∧ ∀ r, s.relays i = some r → ∀ e ∈ r.rows.head?,
      result.toBool = !failing e.id
  | _ => j = i

/-- One call of `relay()`, from its SELECT to its commit; `candidates` are the
unpublished rows in the order in which the SELECT came to them. -/
def RelayCall (candidates : List OutboxEntry) (o o' : Outbox) : Prop :=
  ∃ i s₁ s₂ s₃, RelayStep batchSize o.idle i (.tick candidates) s₁ ∧
    RelayRun batchSize (DuringCall failing i) s₁ s₂ ∧ RelayStep batchSize s₂ i .commit s₃ ∧
    o'.rows = s₃.table

/-- A number of calls, one after another. -/
inductive RelayCalls : ℕ → Outbox → Outbox → Prop
  | zero {o : Outbox} : RelayCalls 0 o o
  | succ {n : ℕ} {candidates : List OutboxEntry} {o o₁ o' : Outbox} :
      RelayCall batchSize failing candidates o o₁ → RelayCalls n o₁ o' → RelayCalls (n + 1) o o'

/-- After some number of calls every row outside `failing` is published. -/
def Drains (o : Outbox) : Prop :=
  ∃ n, (∃ o', RelayCalls batchSize failing n o o') ∧
    ∀ o', RelayCalls batchSize failing n o o' →
      ∀ e ∈ o'.rows, failing e.id = false → e.publishedAt ≠ none

end Calls

/-- `e` fails, is unpublished, and is no younger than `g`: the SELECT may come to
it first. -/
def StandsBefore (failing : Uuid → Bool) (g e : OutboxEntry) : Bool :=
  failing e.id && e.publishedAt.isNone && decide (e.createdAt ≤ g.createdAt)

/-- Before each row that could be published stand fewer failing ones than a
batch holds. -/
def FewStandBefore (batchSize : ℕ) (failing : Uuid → Bool) (o : Outbox) : Prop :=
  ∀ g ∈ o.rows, g.publishedAt = none → failing g.id = false →
    o.rows.countP (StandsBefore failing g) < batchSize

/-! ## What one call does -/

section OneRelay

variable {batchSize i : ℕ} {failing : Uuid → Bool} {o : Outbox} {candidates : List OutboxEntry}
  {s s' : RelayState}

/-- Relay `i` is alone, and the table is as it found it. -/
structure OneRelay (o : Outbox) (i : ℕ) (r : Relay) (s : RelayState) : Prop where
  table : s.table = o.rows
  relay : s.relays i = some r
  others : ∀ j, j ≠ i → s.relays j = none

theorem OneRelay.not_locked {r : Relay} (h : OneRelay o i r s) (id : Uuid) :
    ¬ s.LockedByOther i id := by
  rintro ⟨j, r', hj, hr', -⟩
  rw [h.others j hj] at hr'
  nomatch hr'

theorem OneRelay.setRelay {r : Relay} (h : OneRelay o i r s) (r' : Relay) :
    OneRelay o i r' (s.setRelay i (some r')) where
  table := h.table
  relay := s.setRelay_self i _
  others j hj := by
    rw [RelayState.setRelay_of_ne _ _ _ hj]
    exact h.others j hj

theorem OneRelay.publish {r : Relay} (h : OneRelay o i r s) (r' : Relay) (p : Publication) :
    OneRelay o i r' { s.setRelay i (some r') with publications := p :: s.publications } where
  table := h.table
  relay := s.setRelay_self i _
  others := (h.setRelay r').others

/-- The rows of one id are one row. -/
theorem Outbox.eq_of_id {e e' : OutboxEntry} (he : e ∈ o.rows) (he' : e' ∈ o.rows)
    (h : e.id = e'.id) : e = e' :=
  List.inj_on_of_nodup_map o.ids he he' h

/-- The SELECT came to these rows, in this order. -/
structure Selects (o : Outbox) (candidates : List OutboxEntry) : Prop where
  perm : candidates.Perm (o.rows.filter (·.publishedAt.isNone))
  sorted : candidates.Pairwise (·.createdAt ≤ ·.createdAt)

theorem Selects.mem (h : Selects o candidates) {e : OutboxEntry} :
    e ∈ candidates ↔ e ∈ o.rows ∧ e.publishedAt = none := by
  rw [h.perm.mem_iff, List.mem_filter, Option.isNone_iff_eq_none]

/-- What one call makes of the rows. -/
structure Relays (batchSize : ℕ) (failing : Uuid → Bool) (candidates : List OutboxEntry)
    (o : Outbox) (f : OutboxEntry → OutboxEntry) : Prop where
  same : ∀ e ∈ o.rows, e.Same (f e)
  published : ∀ e ∈ o.rows, ((f e).publishedAt ≠ none ↔
    e.publishedAt ≠ none ∨ e ∈ candidates.take batchSize ∧ failing e.id = false)

/-- Where the loop is: `done` are the rows of the batch that it has done with. -/
structure Relay.Looping (batchSize : ℕ) (failing : Uuid → Bool)
    (candidates done : List OutboxEntry) (r : Relay) : Prop where
  batch : candidates.take batchSize = done ++ r.rows
  stamped : ∀ id, (∃ time, (id, .publishedAt time) ∈ r.writes) ↔
    id ∈ done.map (·.id) ∧ failing id = false
  stamping : r.phase = .stamping → ∀ e ∈ r.rows.head?, failing e.id = false
  counting : r.phase = .counting → ∀ e ∈ r.rows.head?, failing e.id = true

/-- The rows that are locked, and those that the SELECT has not come to. -/
inductive Relay.InCall (batchSize : ℕ) (failing : Uuid → Bool) (candidates : List OutboxEntry) :
    Relay → Prop
  | selecting {rest rows passed : List OutboxEntry} {locks : List Uuid} :
      candidates = rows ++ rest → rows.length ≤ batchSize →
      Relay.InCall batchSize failing candidates ⟨.selecting rest, rows, locks, [], passed⟩
  | looping {r : Relay} {done : List OutboxEntry} : (∀ rest, r.phase ≠ .selecting rest) →
      r.Looping batchSize failing candidates done → Relay.InCall batchSize failing candidates r

/-- One step of the loop, on its current row. -/
theorem Relay.Looping.next {phase : RelayPhase} {e : OutboxEntry} {rows passed passed' done :
    List OutboxEntry} {locks : List Uuid} {writes : List (Uuid × OutboxUpdate)} {u : OutboxUpdate}
    (h : Relay.Looping batchSize failing candidates done ⟨phase, e :: rows, locks, writes, passed⟩)
    (hu : (∃ time, u = .publishedAt time) ↔ failing e.id = false) :
    Relay.Looping batchSize failing candidates (done ++ [e])
      ⟨.sending, rows, locks, (e.id, u) :: writes, passed'⟩ where
  batch := by
    rw [h.batch, List.append_assoc]
    rfl
  stamped id := by
    have hbefore := h.stamped id
    simp only [List.mem_cons, Prod.mk.injEq, List.map_append, List.mem_append, List.map_cons,
      List.map_nil, List.not_mem_nil, or_false] at hbefore ⊢
    rw [exists_or, hbefore]
    constructor
    · rintro (⟨time, rfl, rfl⟩ | ⟨hdone, hgood⟩)
      · exact ⟨.inr rfl, hu.mp ⟨time, rfl⟩⟩
      · exact ⟨.inl hdone, hgood⟩
    · rintro ⟨hdone | rfl, hgood⟩
      · exact .inr ⟨hdone, hgood⟩
      · obtain ⟨time, rfl⟩ := hu.mpr hgood
        exact .inl ⟨time, rfl, rfl⟩
  stamping hphase := RelayPhase.noConfusion hphase
  counting hphase := RelayPhase.noConfusion hphase

/-- **One step of a call.** -/
theorem Relay.InCall.step {r : Relay} {j : ℕ} {c : RelayChoice} (hsel : Selects o candidates)
    (halone : OneRelay o i r s) (h : r.InCall batchSize failing candidates)
    (hstep : RelayStep batchSize s j c s') (hguard : DuringCall failing i s j c) :
    ∃ r', OneRelay o i r' s' ∧ r'.InCall batchSize failing candidates := by
  cases hstep with
  | insert _ _ _ => exact absurd hguard id
  | tick _ _ _ => exact absurd hguard id
  | commit _ => exact absurd hguard id
  | abort _ => exact absurd hguard id
  | @lock c e rest rows passed locks hj hlength _ he hid hnone =>
    obtain rfl : j = i := hguard
    obtain rfl := Option.some.inj (halone.relay.symm.trans hj)
    refine ⟨_, halone.setRelay _, ?_⟩
    cases h with
    | looping hphase _ => exact absurd rfl (hphase _)
    | selecting hcandidates _ =>
      have hc : c ∈ o.rows := (hsel.mem.mp (by rw [hcandidates]; simp)).1
      obtain rfl : e = c := Outbox.eq_of_id (halone.table ▸ he) hc hid
      exact .selecting (by rw [hcandidates, List.append_assoc]; rfl) (by
        rw [List.length_append]
        exact hlength)
  | skipLocked _ _ hlocked =>
    obtain rfl : j = i := hguard
    exact absurd hlocked (halone.not_locked _)
  | @skipPublished c e rest rows passed locks hj _ _ he hid hpublished =>
    obtain rfl : j = i := hguard
    obtain rfl := Option.some.inj (halone.relay.symm.trans hj)
    cases h with
    | looping hphase _ => exact absurd rfl (hphase _)
    | selecting hcandidates _ =>
      obtain ⟨hc, hnone⟩ := hsel.mem.mp (show c ∈ candidates by rw [hcandidates]; simp)
      obtain rfl : e = c := Outbox.eq_of_id (halone.table ▸ he) hc hid
      exact absurd hnone hpublished
  | @fetched rest rows passed locks hj hfull =>
    obtain rfl : j = i := hguard
    obtain rfl := Option.some.inj (halone.relay.symm.trans hj)
    refine ⟨_, halone.setRelay _, ?_⟩
    cases h with
    | looping hphase _ => exact absurd rfl (hphase _)
    | selecting hcandidates hlength =>
      refine @looping _ _ _ _ [] (fun _ => by simp) ⟨?_, by simp, by simp, by simp⟩
      rw [hcandidates]
      rcases hfull with rfl | hfull
      · simpa using hlength
      · rw [← hfull]
        simp
  | @publish e rows passed locks writes result hj =>
    obtain ⟨rfl, hresult⟩ := hguard
    obtain rfl := Option.some.inj (halone.relay.symm.trans hj)
    refine ⟨_, halone.publish _ _, ?_⟩
    have hresult := hresult _ hj e rfl
    cases h with
    | looping hphase hloop =>
      cases hbool : result.toBool with
      | true =>
        have hgood : failing e.id = false := by simpa [hbool] using hresult
        refine .looping (fun _ => by simp) ⟨hloop.batch, hloop.stamped, fun _ e' he' => ?_, by simp⟩
        obtain rfl := Option.some.inj he'
        exact hgood
      | false =>
        have hbad : failing e.id = true := by simpa [hbool] using hresult
        refine .looping (fun _ => by simp) ⟨hloop.batch, hloop.stamped, by simp, fun _ e' he' => ?_⟩
        obtain rfl := Option.some.inj he'
        exact hbad
  | @stamp e rows passed locks writes time hj =>
    obtain rfl : j = i := hguard
    obtain rfl := Option.some.inj (halone.relay.symm.trans hj)
    refine ⟨_, halone.setRelay _, ?_⟩
    cases h with
    | looping hphase hloop =>
      refine .looping (by simp) (hloop.next ?_)
      have hgood := hloop.stamping rfl e rfl
      simp [hgood]
  | @count e rows passed locks writes hj =>
    obtain rfl : j = i := hguard
    obtain rfl := Option.some.inj (halone.relay.symm.trans hj)
    refine ⟨_, halone.setRelay _, ?_⟩
    cases h with
    | looping hphase hloop =>
      refine .looping (by simp) (hloop.next ?_)
      have hbad := hloop.counting rfl e rfl
      simp [hbad]

theorem Relay.InCall.run {r : Relay} (hsel : Selects o candidates) (halone : OneRelay o i r s)
    (h : r.InCall batchSize failing candidates)
    (hrun : RelayRun batchSize (DuringCall failing i) s s') :
    ∃ r', OneRelay o i r' s' ∧ r'.InCall batchSize failing candidates := by
  induction hrun with
  | refl => exact ⟨r, halone, h⟩
  | step _ hstep hguard ih =>
    obtain ⟨r', halone', h'⟩ := ih
    exact h'.step hsel halone' hstep hguard

theorem Outbox.alone_tick (o : Outbox) (i : ℕ) (r : Relay) :
    OneRelay o i r (o.idle.setRelay i (some r)) where
  table := rfl
  relay := RelayState.setRelay_self ..
  others _ hj := RelayState.setRelay_of_ne _ _ _ hj

/-- **One call** publishes the rows of its batch, those in `failing` apart. -/
theorem RelayCall.spec {o' : Outbox} (h : RelayCall batchSize failing candidates o o') :
    Selects o candidates ∧ ∃ f : OutboxEntry → OutboxEntry, o'.rows = o.rows.map f ∧
      Relays batchSize failing candidates o f := by
  obtain ⟨i, s₁, s₂, s₃, htick, hrun, hcommit, hrows⟩ := h
  cases htick with
  | tick _ hperm hsorted =>
    have hsel : Selects o candidates := ⟨hperm, hsorted⟩
    refine ⟨hsel, ?_⟩
    have hstart : Relay.InCall batchSize failing candidates
        ⟨.selecting candidates, [], [], [], []⟩ := .selecting rfl (Nat.zero_le _)
    obtain ⟨r, halone, hin⟩ := hstart.run hsel (o.alone_tick i _) hrun
    cases hcommit with
    | @commit passed locks writes hi =>
      obtain rfl := Option.some.inj (halone.relay.symm.trans hi)
      cases hin with
      | @looping _ done _ hloop =>
        refine ⟨(·.after writes), by rw [hrows, ← halone.table],
          ⟨fun e _ => e.same_after writes, fun e he => ?_⟩⟩
        have hdone : candidates.take batchSize = done := by
          rw [hloop.batch, List.append_nil]
        rw [OutboxEntry.publishedAt_after, hloop.stamped, hdone]
        refine or_congr_right (and_congr_left fun _ => ?_)
        constructor
        · intro hid
          obtain ⟨e', he', hid⟩ := List.mem_map.mp hid
          have hmem : e' ∈ candidates := List.mem_of_mem_take (hdone ▸ he')
          obtain rfl := Outbox.eq_of_id (hsel.mem.mp hmem).1 he hid
          exact he'
        · exact fun hmem => List.mem_map_of_mem hmem

/-! ### Every call can be made -/

/-- The SELECT comes to its end. -/
theorem OneRelay.selects {s₀ : RelayState} {rest rows passed : List OutboxEntry} {locks : List Uuid}
    (hrun : RelayRun batchSize (DuringCall failing i) s₀ s)
    (halone : OneRelay o i ⟨.selecting rest, rows, locks, [], passed⟩ s)
    (hrest : ∀ c ∈ rest, c ∈ o.rows ∧ c.publishedAt = none) (hlength : rows.length ≤ batchSize) :
    ∃ s' rows' locks' passed', RelayRun batchSize (DuringCall failing i) s₀ s' ∧
      OneRelay o i ⟨.sending, rows', locks', [], passed'⟩ s' := by
  induction rest generalizing s rows locks with
  | nil => exact ⟨_, _, _, _, hrun.step (.fetched halone.relay (.inl rfl)) rfl, halone.setRelay _⟩
  | cons c rest ih =>
    by_cases hfull : rows.length = batchSize
    · exact ⟨_, _, _, _, hrun.step (.fetched halone.relay (.inr hfull)) rfl, halone.setRelay _⟩
    · obtain ⟨hc, hnone⟩ := hrest c (.head _)
      have hlock := hrun.step (.lock halone.relay (by omega) (halone.not_locked _)
        (halone.table ▸ hc) rfl hnone) rfl
      refine ih hlock (halone.setRelay _) (fun c' hc' => hrest c' (.tail _ hc')) ?_
      rw [List.length_append]
      show rows.length + 1 ≤ batchSize
      omega

/-- So does the loop. -/
theorem OneRelay.sends {s₀ : RelayState} {rows passed : List OutboxEntry} {locks : List Uuid}
    {writes : List (Uuid × OutboxUpdate)}
    (hrun : RelayRun batchSize (DuringCall failing i) s₀ s)
    (halone : OneRelay o i ⟨.sending, rows, locks, writes, passed⟩ s) :
    ∃ s' locks' writes' passed', RelayRun batchSize (DuringCall failing i) s₀ s' ∧
      OneRelay o i ⟨.sending, [], locks', writes', passed'⟩ s' := by
  induction rows generalizing s writes passed with
  | nil => exact ⟨s, _, _, _, hrun, halone⟩
  | cons e rows ih =>
    have hguard : ∀ result : Except Err Unit, result.toBool = !failing e.id →
        DuringCall failing i s i (.publish result) := by
      refine fun result hresult => ⟨rfl, fun r hr e' he' => ?_⟩
      obtain rfl := Option.some.inj (halone.relay.symm.trans hr)
      obtain rfl := Option.some.inj he'
      exact hresult
    cases hfails : failing e.id with
    | false =>
      have hsent := hrun.step (.publish halone.relay) (hguard (.ok ()) (by rw [hfails]; rfl))
      have hstamping := halone.publish ⟨.stamping, e :: rows, locks, writes, passed⟩
        (e.publish (.ok ()))
      have hstamp := hsent.step (c := .stamp "") (.stamp hstamping.relay) rfl
      exact ih hstamp (hstamping.setRelay _)
    | true =>
      have hsent := hrun.step (.publish halone.relay)
        (hguard (.error (.kafka "")) (by rw [hfails]; rfl))
      have hcounting := halone.publish ⟨.counting, e :: rows, locks, writes, passed⟩
        (e.publish (.error (.kafka "")))
      exact ih (hsent.step (.count hcounting.relay) rfl) (hcounting.setRelay _)

theorem exists_relayCall (hsel : Selects o candidates) :
    ∃ o', RelayCall batchSize failing candidates o o' := by
  have htick : RelayStep batchSize o.idle 0 (.tick candidates) _ :=
    .tick rfl hsel.perm hsel.sorted
  have hempty : ([] : List OutboxEntry).length ≤ batchSize := Nat.zero_le _
  obtain ⟨s₁, rows, locks, passed, hfetched, halone⟩ :=
    (o.alone_tick 0 ⟨.selecting candidates, [], [], [], []⟩).selects
      (.refl : RelayRun batchSize (DuringCall failing 0) _ _) (fun c hc => hsel.mem.mp hc) hempty
  obtain ⟨s₂, locks', writes, passed', hsent, halone'⟩ := halone.sends hfetched
  have hids : ((o.rows.map (·.after writes)).map (·.id)).Nodup := by
    rw [List.map_map]
    have hsame : ((·.id) ∘ (·.after writes) : OutboxEntry → Uuid) = (·.id) :=
      funext fun e => (e.same_after writes).id
    rw [hsame]
    exact o.ids
  refine ⟨⟨o.rows.map (·.after writes), hids⟩, 0, _, s₂, _, htick, hsent, .commit halone'.relay, ?_⟩
  show o.rows.map _ = s₂.table.map _
  rw [halone'.table]

end OneRelay

/-! ## Progress -/

/-- The row is still to be published, and can be. -/
def Pending (failing : Uuid → Bool) (e : OutboxEntry) : Bool :=
  e.publishedAt.isNone && !failing e.id

theorem countP_lt_countP {α : Type} {p q : α → Bool} {l : List α} (h : ∀ x ∈ l, p x → q x) {x : α}
    (hx : x ∈ l) (hq : q x = true) (hp : p x = false) : l.countP p < l.countP q := by
  obtain ⟨l₁, l₂, rfl⟩ := List.append_of_mem hx
  have h₁ : l₁.countP p ≤ l₁.countP q :=
    List.countP_mono_left fun y hy => h y (List.mem_append_left _ hy)
  have h₂ : l₂.countP p ≤ l₂.countP q :=
    List.countP_mono_left fun y hy => h y (List.mem_append_right _ (.tail _ hy))
  rw [List.countP_append, List.countP_append, List.countP_cons_of_neg (by simp [hp]),
    List.countP_cons_of_pos hq]
  omega

section Progress

variable {batchSize : ℕ} {failing : Uuid → Bool} {o o' : Outbox} {candidates : List OutboxEntry}
  {f : OutboxEntry → OutboxEntry}

theorem Relays.unpublished (h : Relays batchSize failing candidates o f) {e : OutboxEntry}
    (he : e ∈ o.rows) (hnone : (f e).publishedAt = none) : e.publishedAt = none := by
  by_contra hsome
  exact (h.published e he).mpr (.inl hsome) hnone

theorem Relays.pending (h : Relays batchSize failing candidates o f) {e : OutboxEntry}
    (he : e ∈ o.rows) (hpending : Pending failing (f e) = true) : Pending failing e = true := by
  unfold Pending at hpending ⊢
  rw [(h.same e he).id] at hpending
  simp only [Bool.and_eq_true, Option.isNone_iff_eq_none] at hpending ⊢
  exact ⟨h.unpublished he hpending.1, hpending.2⟩

theorem Relays.standsBefore (h : Relays batchSize failing candidates o f) {g e : OutboxEntry}
    (hg : g ∈ o.rows) (he : e ∈ o.rows) :
    StandsBefore failing (f g) (f e) = StandsBefore failing g e := by
  unfold StandsBefore
  rw [(h.same e he).id, (h.same e he).createdAt, (h.same g hg).createdAt]
  cases hfails : failing e.id with
  | false => rfl
  | true =>
    have hpublished := h.published e he
    simp only [hfails, Bool.true_eq_false, and_false, or_false] at hpublished
    have hnone : (f e).publishedAt.isNone = e.publishedAt.isNone := by
      rw [Bool.eq_iff_iff, Option.isNone_iff_eq_none, Option.isNone_iff_eq_none]
      exact not_iff_not.mp hpublished
    rw [hnone]

/-- A call leaves the failing rows where they are. -/
theorem Relays.countP_standsBefore (h : Relays batchSize failing candidates o f) {g : OutboxEntry}
    (hg : g ∈ o.rows) : (o.rows.map f).countP (StandsBefore failing (f g)) =
      o.rows.countP (StandsBefore failing g) := by
  rw [List.countP_map]
  refine List.countP_congr fun e he => ?_
  show StandsBefore failing (f g) (f e) = true ↔ _
  rw [h.standsBefore hg he]

theorem Relays.fewStandBefore (h : Relays batchSize failing candidates o f)
    (hrows : o'.rows = o.rows.map f) (hfew : FewStandBefore batchSize failing o) :
    FewStandBefore batchSize failing o' := by
  intro g' hg' hnone hgood
  rw [hrows] at hg' ⊢
  obtain ⟨g, hg, rfl⟩ := List.mem_map.mp hg'
  rw [h.countP_standsBefore hg]
  rw [(h.same g hg).id] at hgood
  exact hfew g hg (h.unpublished hg hnone) hgood

/-- The first row of the SELECT that can be published is in the batch. -/
theorem exists_mem_batch (hsel : Selects o candidates) (hfew : FewStandBefore batchSize failing o)
    (hpending : ∃ e ∈ o.rows, Pending failing e = true) :
    ∃ g ∈ candidates.take batchSize, failing g.id = false := by
  obtain ⟨e, he, hpending⟩ := hpending
  simp only [Pending, Bool.and_eq_true, Option.isNone_iff_eq_none, Bool.not_eq_true'] at hpending
  have hsome : (candidates.find? fun e => !failing e.id).isSome := by
    rw [List.find?_isSome]
    exact ⟨e, hsel.mem.mpr ⟨he, hpending.1⟩, by simp [hpending.2]⟩
  obtain ⟨g, hfind⟩ := Option.isSome_iff_exists.mp hsome
  obtain ⟨hgood, pre, post, hsplit, hpre⟩ := List.find?_eq_some_iff_append.mp hfind
  have hgood : failing g.id = false := by simpa using hgood
  obtain ⟨hg, hnone⟩ := hsel.mem.mp (show g ∈ candidates by rw [hsplit]; simp)
  -- those before it all stand before it
  have hall : pre.countP (StandsBefore failing g) = pre.length := by
    refine List.countP_eq_length.mpr fun e he => ?_
    obtain ⟨-, hunpublished⟩ := hsel.mem.mp (show e ∈ candidates by rw [hsplit]; simp [he])
    have hsorted := hsel.sorted
    rw [hsplit] at hsorted
    have hle := (List.pairwise_append.mp hsorted).2.2 e he g (.head _)
    have hfails := hpre e he
    simp only [Bool.not_not] at hfails
    simp [StandsBefore, hfails, hunpublished, hle]
  have hlength : pre.length < batchSize := by
    calc pre.length = pre.countP (StandsBefore failing g) := hall.symm
      _ ≤ candidates.countP (StandsBefore failing g) := by
        rw [hsplit]
        exact (List.sublist_append_left _ _).countP_le
      _ = (o.rows.filter (·.publishedAt.isNone)).countP (StandsBefore failing g) :=
        hsel.perm.countP_eq _
      _ ≤ o.rows.countP (StandsBefore failing g) := List.filter_sublist.countP_le
      _ < batchSize := hfew g hg hnone hgood
  refine ⟨g, ?_, hgood⟩
  rw [hsplit, List.take_append, List.mem_append]
  obtain ⟨k, hk⟩ := Nat.exists_eq_succ_of_ne_zero (Nat.sub_ne_zero_of_lt hlength)
  rw [hk]
  exact .inr (.head _)

/-- Each call publishes one of the rows at least. -/
theorem RelayCall.pending_lt (h : RelayCall batchSize failing candidates o o')
    (hfew : FewStandBefore batchSize failing o) :
    o'.rows.countP (Pending failing) ≤ o.rows.countP (Pending failing) - 1 := by
  obtain ⟨hsel, f, hrows, hrelays⟩ := h.spec
  rw [hrows, List.countP_map]
  by_cases hpending : ∃ e ∈ o.rows, Pending failing e = true
  · obtain ⟨g, hbatch, hgood⟩ := exists_mem_batch hsel hfew hpending
    obtain ⟨hg, hnone⟩ := hsel.mem.mp (List.mem_of_mem_take hbatch)
    have hpublished := (hrelays.published g hg).mpr (.inr ⟨hbatch, hgood⟩)
    refine Nat.le_sub_one_of_lt (countP_lt_countP (fun e he => hrelays.pending he) hg ?_ ?_)
    · simp [Pending, hnone, hgood]
    · simp [Pending, hpublished]
  · have hzero : o.rows.countP (Pending failing ∘ f) = 0 := by
      refine List.countP_eq_zero.mpr fun e he hafter => hpending ⟨e, he, ?_⟩
      exact hrelays.pending he hafter
    omega

theorem RelayCall.fewStandBefore (h : RelayCall batchSize failing candidates o o')
    (hfew : FewStandBefore batchSize failing o) : FewStandBefore batchSize failing o' := by
  obtain ⟨-, f, hrows, hrelays⟩ := h.spec
  exact hrelays.fewStandBefore hrows hfew

theorem RelayCalls.pending_le {n : ℕ} (h : RelayCalls batchSize failing n o o')
    (hfew : FewStandBefore batchSize failing o) :
    o'.rows.countP (Pending failing) ≤ o.rows.countP (Pending failing) - n := by
  induction h with
  | zero => exact Nat.le_refl _
  | succ hcall _ ih =>
    have hfirst := hcall.pending_lt hfew
    have hrest := ih (hcall.fewStandBefore hfew)
    omega

end Progress

/-! ## Starvation -/

/-- Oldest first, and of one age the failing ones first. -/
def failingFirst (failing : Uuid → Bool) (e : OutboxEntry) : ℕ :=
  2 * e.createdAt + if failing e.id then 0 else 1

section Starvation

variable {batchSize : ℕ} {failing : Uuid → Bool} {o : Outbox} {candidates : List OutboxEntry}
  {g : OutboxEntry}

theorem createdAt_le_of_failingFirst {a b : OutboxEntry}
    (h : failingFirst failing a ≤ failingFirst failing b) : a.createdAt ≤ b.createdAt := by
  unfold failingFirst at h
  split at h <;> split at h <;> omega

variable (failing o) in
theorem exists_selects : ∃ candidates, Selects o candidates ∧
    candidates.Pairwise (failingFirst failing · ≤ failingFirst failing ·) := by
  have hsorted := @List.pairwise_mergeSort _
    (fun a b => decide (failingFirst failing a ≤ failingFirst failing b))
    (fun a b c hab hbc => by simp only [decide_eq_true_eq] at *; omega)
    (fun a b => by simp only [Bool.or_eq_true, decide_eq_true_eq]; omega)
    (o.rows.filter (·.publishedAt.isNone))
  have hsorted := hsorted.imp fun h => of_decide_eq_true h
  exact ⟨_, ⟨List.mergeSort_perm _ _, hsorted.imp createdAt_le_of_failingFirst⟩, hsorted⟩

/-- A row with a batch of failing ones before it is not in the batch. -/
theorem not_mem_batch (hsel : Selects o candidates)
    (hfirst : candidates.Pairwise (failingFirst failing · ≤ failingFirst failing ·))
    (hgood : failing g.id = false)
    (hmany : batchSize ≤ o.rows.countP (StandsBefore failing g)) :
    g ∉ candidates.take batchSize := by
  intro hmem
  have hcount : o.rows.countP (StandsBefore failing g) =
      candidates.countP (StandsBefore failing g) := by
    rw [hsel.perm.countP_eq, List.countP_filter]
    refine List.countP_congr fun e _ => ?_
    simp only [StandsBefore, Bool.and_eq_true]
    tauto
  obtain ⟨pre, post, hbatch⟩ := List.append_of_mem hmem
  have hsplit : candidates = pre ++ g :: (post ++ candidates.drop batchSize) := by
    rw [← List.cons_append, ← List.append_assoc, ← hbatch, List.take_append_drop]
  -- what stands before it cannot come after it
  have hnone : (g :: (post ++ candidates.drop batchSize)).countP (StandsBefore failing g) = 0 := by
    refine List.countP_eq_zero.mpr fun e he hbefore => ?_
    rw [hsplit] at hfirst
    simp only [StandsBefore, Bool.and_eq_true, decide_eq_true_eq] at hbefore
    obtain rfl | he := List.mem_cons.mp he
    · simp [hgood] at hbefore
    · have hle := (List.pairwise_cons.mp (List.pairwise_append.mp hfirst).2.1).1 e he
      simp only [failingFirst, hgood, hbefore.1.1] at hle
      simp at hle
      omega
  have hpre : candidates.countP (StandsBefore failing g) ≤ pre.length := by
    rw [hsplit, List.countP_append, hnone]
    exact List.countP_le_length
  have hlength := congrArg List.length hbatch
  simp only [List.length_take, List.length_append, List.length_cons] at hlength
  omega

/-- A row that can be published has a batch of failing ones before it. -/
def Starves (batchSize : ℕ) (failing : Uuid → Bool) (o : Outbox) : Prop :=
  ∃ g ∈ o.rows, g.publishedAt = none ∧ failing g.id = false ∧
    batchSize ≤ o.rows.countP (StandsBefore failing g)

/-- A call that comes to the failing rows first leaves it there. -/
theorem Starves.call (h : Starves batchSize failing o) :
    ∃ candidates o', RelayCall batchSize failing candidates o o' ∧ Starves batchSize failing o' := by
  obtain ⟨g, hg, hnone, hgood, hmany⟩ := h
  obtain ⟨candidates, hsel, hfirst⟩ := exists_selects failing o
  obtain ⟨o', hcall⟩ : ∃ o', RelayCall batchSize failing candidates o o' := exists_relayCall hsel
  obtain ⟨-, f, hrows, hrelays⟩ := hcall.spec
  refine ⟨candidates, o', hcall, f g, hrows ▸ List.mem_map_of_mem hg, ?_, ?_, ?_⟩
  · by_contra hpublished
    rcases (hrelays.published g hg).mp hpublished with hbefore | ⟨hbatch, -⟩
    · exact hbefore hnone
    · exact not_mem_batch hsel hfirst hgood hmany hbatch
  · rw [(hrelays.same g hg).id]
    exact hgood
  · rw [hrows, hrelays.countP_standsBefore hg]
    exact hmany

theorem Starves.calls (h : Starves batchSize failing o) (n : ℕ) :
    ∃ o', RelayCalls batchSize failing n o o' ∧ Starves batchSize failing o' := by
  induction n generalizing o with
  | zero => exact ⟨o, .zero, h⟩
  | succ n ih =>
    obtain ⟨candidates, o₁, hcall, h₁⟩ := h.call
    obtain ⟨o', hcalls, h'⟩ := ih h₁
    exact ⟨o', .succ hcall hcalls, h'⟩

theorem Starves.not_drains (h : Starves batchSize failing o) : ¬ Drains batchSize failing o := by
  rintro ⟨n, -, hall⟩
  obtain ⟨o', hcalls, g, hg, hnone, hgood, -⟩ := h.calls n
  exact hall o' hcalls g hg hgood hnone

variable (batchSize failing o) in
theorem exists_relayCalls (n : ℕ) : ∃ o', RelayCalls batchSize failing n o o' := by
  induction n generalizing o with
  | zero => exact ⟨o, .zero⟩
  | succ n ih =>
    obtain ⟨candidates, hsel, -⟩ := exists_selects failing o
    obtain ⟨o₁, hcall⟩ := exists_relayCall hsel
    obtain ⟨o', hcalls⟩ := ih o₁
    exact ⟨o', .succ hcall hcalls⟩

end Starvation

/-- **The outbox drains** around its failing rows exactly where fewer of them
than a batch holds stand before each of the others. -/
theorem drains_iff (batchSize : ℕ) (failing : Uuid → Bool) (o : Outbox) :
    Drains batchSize failing o ↔ FewStandBefore batchSize failing o := by
  constructor
  · intro hdrains g hg hnone hgood
    by_contra hmany
    exact Starves.not_drains ⟨g, hg, hnone, hgood, Nat.le_of_not_lt hmany⟩ hdrains
  · intro hfew
    refine ⟨o.rows.countP (Pending failing), exists_relayCalls .., fun o' hcalls e he hgood => ?_⟩
    have hpending := hcalls.pending_le hfew
    rw [Nat.sub_self, Nat.le_zero, List.countP_eq_zero] at hpending
    have hnot := hpending e he
    simpa [Pending, hgood] using hnot

/-! ## One failing row, a batch of one -/

/-- The row of another order. -/
def laterEntry : OutboxEntry :=
  { createdEntry with id := "m2", aggregateId := "o2", correlationId := "o2", createdAt := 2 }

def stuckOutbox : Outbox := ⟨[createdEntry, laterEntry], by decide⟩

/-- The first row can never be published, and the one behind it waits for good. -/
theorem drains_fails : ¬ ∀ batchSize ≥ 1, ∀ failing o, Drains batchSize failing o := by
  intro hall
  have hstarves : Starves 1 (· = "m1") stuckOutbox :=
    ⟨laterEntry, .tail _ (.head _), rfl, by decide, by decide⟩
  exact hstarves.not_drains (hall 1 (le_refl 1) _ _)

end Saganova
