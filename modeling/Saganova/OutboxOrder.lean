import Saganova.OutboxRelay

/-!
# The order of publication

Events of one aggregate are published under one key, so that a consumer sees
them in the order of their publication.  That order is the order of the events
as long as a relay publishes nothing behind a row of the same aggregate that it
left unpublished (`publishedInOrder`).  The loop does go on past a row that
failed, though (`publishedInOrder_fails`), and the SELECT past a locked one.

A relay's rows still to come are in order: whatever is earlier than one of them
was sent, was passed over, or comes first (`Relay.Ordered`).
-/

namespace Saganova

/-- `id'` is the row of an earlier event of the aggregate of row `id`. -/
def Earlier (table : List OutboxEntry) (id' id : Uuid) : Prop :=
  ∃ e' ∈ table, ∃ e ∈ table, e'.id = id' ∧ e.id = id ∧ e'.aggregateId = e.aggregateId ∧
    e'.sequence < e.sequence

/-- Whenever a row was published, every earlier row of its aggregate had been. -/
def PublishedInOrder (s : RelayState) : Prop :=
  ∀ newer p older, s.publications = newer ++ p :: older → p.result = .ok () →
    ∀ id', Earlier s.table id' p.row → Relayed older id'

/-- A SELECT lists the rows of an aggregate in the order of their events, and no
row is published after an earlier one of its aggregate was passed over in the
same transaction. -/
def InOrder (s : RelayState) (i : ℕ) : RelayChoice → Prop
  | .tick candidates =>
    candidates.Pairwise fun a b => a.aggregateId = b.aggregateId → a.sequence ≤ b.sequence
  | .publish (.ok ()) => ∀ r, s.relays i = some r → ∀ e ∈ r.rows.head?, ∀ c ∈ r.passed,
    c.aggregateId = e.aggregateId → e.sequence ≤ c.sequence
  | _ => True

/-! ## The table -/

section Table

variable {table table' : List OutboxEntry} {id id' : Uuid}

/-- Every row is a row from before, or of a later event than those. -/
def TableGrows (table table' : List OutboxEntry) : Prop :=
  ∀ e' ∈ table', (∃ e ∈ table, e.Same e') ∨ ∀ e ∈ table, e.Before e'

theorem TableGrows.refl (table : List OutboxEntry) : TableGrows table table :=
  fun e he => .inl ⟨e, he, .refl e⟩

/-- A row from before gets no new earlier rows. -/
theorem TableGrows.earlier (h : TableGrows table table') (hid : ∃ e ∈ table, e.id = id)
    (hearlier : Earlier table' id' id) : Earlier table id' id := by
  obtain ⟨e₀, he₀, rfl⟩ := hid
  obtain ⟨e', he', e, he, rfl, hid, haggregate, hsequence⟩ := hearlier
  obtain ⟨f, hf, hsame⟩ | hnew := h e he
  · obtain ⟨f', hf', hsame'⟩ | hnew' := h e' he'
    · refine ⟨f', hf', f, hf, hsame'.id.symm, hsame.id.symm.trans hid, ?_, ?_⟩
      · rw [← hsame'.aggregateId, ← hsame.aggregateId, haggregate]
      · rw [← hsame'.sequence, ← hsame.sequence]
        exact hsequence
    · have hlt := (hnew' f hf).sequence_lt (by rw [haggregate, hsame.aggregateId])
      have heq := hsame.sequence
      omega
  · exact absurd hid.symm (hnew e₀ he₀).id_ne

theorem RelayStep.grows {batchSize i : ℕ} {s s' : RelayState} {c : RelayChoice}
    (h : RelayStep batchSize s i c s') : TableGrows s.table s'.table := by
  cases h with
  | insert hbefore _ _ =>
    intro e' he'
    obtain he' | he' := List.mem_append.mp he'
    · exact .inl ⟨e', he', .refl e'⟩
    · exact .inr fun e he => hbefore e he e' he'
  | commit _ =>
    intro e' he'
    obtain ⟨e, he, rfl⟩ := List.mem_map.mp he'
    exact .inl ⟨e, he, e.same_after _⟩
  | _ => exact .refl _

end Table

/-! ## The rows that a relay has yet to publish -/

/-- Every row that is earlier than one to come was sent, was passed over, or
comes first. -/
def Relay.Ordered (table : List OutboxEntry) (publications : List Publication) (r : Relay) : Prop :=
  ∀ pre id post, (r.rows ++ r.candidates).map (·.id) = pre ++ id :: post →
    ∀ id', Earlier table id' id →
      Relayed publications id' ∨ id' ∈ r.passed.map (·.id) ∨ id' ∈ pre

namespace Relay.Ordered

variable {table table' : List OutboxEntry} {publications : List Publication} {r r' : Relay}

theorem grow (h : r.Ordered table publications) (hok : r.Ok table publications)
    (hgrows : TableGrows table table') : r.Ordered table' publications := by
  intro pre id post hsplit id' hearlier
  refine h pre id post hsplit id' (hgrows.earlier ?_ hearlier)
  have hid : id ∈ (r.rows ++ r.candidates).map (·.id) := by
    rw [hsplit]
    simp
  obtain ⟨e, he, rfl⟩ := List.mem_map.mp hid
  obtain he | he := List.mem_append.mp he
  · exact ⟨e, (hok.rows e he).1, rfl⟩
  · obtain ⟨e', he', hsame⟩ := hok.candidates e he
    exact ⟨e', he', hsame.id⟩

theorem published (h : r.Ordered table publications) (p : Publication) :
    r.Ordered table (p :: publications) := by
  intro pre id post hsplit id' hearlier
  exact (h pre id post hsplit id' hearlier).imp_left (·.cons p)

/-- The relay only takes fewer rows. -/
theorem of_fewer (h : r.Ordered table publications)
    (hrows : (r'.rows ++ r'.candidates).map (·.id) <+: (r.rows ++ r.candidates).map (·.id))
    (hpassed : r'.passed = r.passed) : r'.Ordered table publications := by
  intro pre id post hsplit id' hearlier
  obtain ⟨rest, hrest⟩ := hrows
  rw [hsplit, List.append_assoc, List.cons_append] at hrest
  rw [hpassed]
  exact h pre id (post ++ rest) hrest.symm id' hearlier

/-- A row comes no more, since it was sent or is passed over. -/
theorem drop {front back : List Uuid} {id₀ : Uuid} (h : r.Ordered table publications)
    (hrows : (r.rows ++ r.candidates).map (·.id) = front ++ id₀ :: back)
    (hrows' : (r'.rows ++ r'.candidates).map (·.id) = front ++ back)
    (hpassed : ∀ id ∈ r.passed.map (·.id), id ∈ r'.passed.map (·.id))
    (hdone : Relayed publications id₀ ∨ id₀ ∈ r'.passed.map (·.id)) :
    r'.Ordered table publications := by
  intro pre id post hsplit id' hearlier
  rw [hrows'] at hsplit
  -- the rows before `id` are those that were, without `id₀`
  have hbefore : ∃ pre₀ post₀, front ++ id₀ :: back = pre₀ ++ id :: post₀ ∧
      ∀ id' ∈ pre₀, id' = id₀ ∨ id' ∈ pre := by
    obtain ⟨mid, rfl, hback⟩ | ⟨mid, hfront, hmid⟩ := List.append_eq_append_iff.mp hsplit
    · refine ⟨front ++ id₀ :: mid, post, by simp [hback], fun id' hid' => ?_⟩
      simp only [List.mem_append, List.mem_cons] at hid' ⊢
      tauto
    · cases mid with
      | nil =>
        refine ⟨front ++ [id₀], post, ?_, fun id' hid' => ?_⟩
        · rw [← show id :: post = back from hmid]
          simp
        · rw [hfront] at hid'
          simp only [List.mem_append, List.mem_cons, List.not_mem_nil, or_false] at hid'
          tauto
      | cons x mid =>
        obtain ⟨rfl, rfl⟩ := List.cons.inj hmid
        exact ⟨pre, mid ++ id₀ :: back, by simp [hfront], fun id' hid' => .inr hid'⟩
  obtain ⟨pre₀, post₀, hsplit₀, hpre₀⟩ := hbefore
  obtain hsent | hpass | hpre := h pre₀ id post₀ (hrows.trans hsplit₀) id' hearlier
  · exact .inl hsent
  · exact .inr (.inl (hpassed id' hpass))
  · obtain rfl | hpre := hpre₀ id' hpre
    · exact hdone.imp_right .inl
    · exact .inr (.inr hpre)

end Relay.Ordered

/-! ## Runs -/

section Runs

variable {batchSize i : ℕ} {s s' : RelayState} {c : RelayChoice}

/-- What the relays under way have yet to publish is in order. -/
def RelaysOrdered (s : RelayState) : Prop :=
  ∀ i r, s.relays i = some r → r.Ordered s.table s.publications

theorem RelaysOrdered.setRelay {r : Relay} (h : RelaysOrdered s)
    (hr : r.Ordered s.table s.publications) : RelaysOrdered (s.setRelay i (some r)) := by
  intro j r' hj
  by_cases hij : j = i
  · subst hij
    rw [RelayState.setRelay_self] at hj
    obtain rfl := Option.some.inj hj
    exact hr
  · rw [RelayState.setRelay_of_ne _ _ _ hij] at hj
    exact h j r' hj

theorem RelaysOrdered.endRelay (h : RelaysOrdered s) (i : ℕ) : RelaysOrdered (s.setRelay i none) := by
  intro j r hj
  by_cases hij : j = i
  · subst hij
    simp at hj
  · rw [RelayState.setRelay_of_ne _ _ _ hij] at hj
    exact h j r hj

/-- The snapshot has every row that was not published yet. -/
theorem RelayInv.ordered_tick {candidates : List OutboxEntry} (hs : RelayInv s)
    (hperm : candidates.Perm (s.table.filter (·.publishedAt.isNone)))
    (hsorted : candidates.Pairwise fun a b => a.aggregateId = b.aggregateId → a.sequence ≤ b.sequence) :
    Relay.Ordered s.table s.publications ⟨.selecting candidates, [], [], [], []⟩ := by
  intro pre id post hsplit id' hearlier
  obtain ⟨e', he', e, he, rfl, rfl, haggregate, hsequence⟩ := hearlier
  by_cases hpublished : e'.publishedAt = none
  · have hcandidate : e' ∈ candidates := by
      rw [hperm.mem_iff, List.mem_filter]
      exact ⟨he', by simp [hpublished]⟩
    obtain ⟨l₁, l₂, rfl, rfl, hl₂⟩ := List.map_eq_append_iff.mp hsplit
    obtain ⟨f, l₃, rfl, hid, rfl⟩ := List.map_eq_cons_iff.mp hl₂
    have hf : f ∈ s.table := by
      have hmem : f ∈ l₁ ++ f :: l₃ := by simp
      rw [hperm.mem_iff, List.mem_filter] at hmem
      exact hmem.1
    obtain rfl := hs.eq_of_id_eq hf he hid
    obtain hbefore | hafter := List.mem_append.mp hcandidate
    · exact .inr (.inr (List.mem_map_of_mem hbefore))
    · obtain rfl | hafter := List.mem_cons.mp hafter
      · omega
      · have hle := (List.pairwise_cons.mp (List.pairwise_append.mp hsorted).2.1).1 e' hafter
        have hle := hle haggregate.symm
        omega
  · exact .inl (hs.published e' he' hpublished)

theorem RelaysOrdered.step (h : RelaysOrdered s) (hs : RelayInv s)
    (hstep : RelayStep batchSize s i c s') (hc : InOrder s i c) : RelaysOrdered s' := by
  have hgrows := hstep.grows
  cases hstep with
  | insert _ _ _ => exact fun j r hj => (h j r hj).grow (hs.relays j r hj) hgrows
  | tick hi hperm _ => exact h.setRelay (hs.ordered_tick hperm hc)
  | lock hi _ _ he hid _ =>
    refine h.setRelay ((h i _ hi).of_fewer ?_ rfl)
    simp [Relay.candidates, hid]
  | skipLocked hi _ _ =>
    refine h.setRelay ((h i _ hi).drop (List.map_append ..) (List.map_append ..) ?_ (.inr ?_))
    · exact fun id hid => .tail _ hid
    · exact .head _
  | skipPublished hi _ _ he hid hpublished =>
    have hsent := hs.published _ he hpublished
    rw [hid] at hsent
    refine h.setRelay ((h i _ hi).drop (List.map_append ..) (List.map_append ..) ?_ (.inl ?_))
    · exact fun id hid => hid
    · exact hsent
  | fetched hi _ =>
    refine h.setRelay ((h i _ hi).of_fewer ?_ rfl)
    simp [Relay.candidates]
  | @publish e rows passed locks writes result hi =>
    have hpublished : RelaysOrdered { s with publications := e.publish result :: s.publications } :=
      fun j r hj => (h j r hj).published _
    refine hpublished.setRelay (((h i _ hi).published _).of_fewer ?_ rfl)
    cases result <;> exact List.prefix_rfl
  | @stamp e rows passed locks writes time hi =>
    have hsent := (hs.relays i _ hi).stamping rfl e rfl
    refine h.setRelay ((h i _ hi).drop (List.nil_append _).symm (List.nil_append _).symm ?_ ?_)
    · exact fun id hid => hid
    · exact .inl hsent
  | count hi =>
    refine h.setRelay ((h i _ hi).drop (List.nil_append _).symm (List.nil_append _).symm ?_ ?_)
    · exact fun id hid => .tail _ hid
    · exact .inr (.head _)
  | commit hi =>
    intro j r hj
    exact ((h.endRelay i) j r hj).grow ((hs.endRelay i).relays j r hj) hgrows
  | abort hi => exact h.endRelay i

theorem PublishedInOrder.step (h : PublishedInOrder s) (hs : RelayInv s)
    (hordered : RelaysOrdered s) (hstep : RelayStep batchSize s i c s') (hc : InOrder s i c) :
    PublishedInOrder s' := by
  have hgrows := hstep.grows
  -- what was in order before stays so, whatever rows were added
  have hold : ∀ newer p older, s.publications = newer ++ p :: older → p.result = .ok () →
      ∀ id', Earlier s'.table id' p.row → Relayed older id' := by
    intro newer p older hsplit hok id' hearlier
    obtain ⟨e, he, hpe⟩ := hs.publications p (by rw [hsplit]; simp)
    have hrow : ∃ e ∈ s.table, e.id = p.row := ⟨e, he, by rw [hpe]; rfl⟩
    exact h newer p older hsplit hok id' (hgrows.earlier hrow hearlier)
  cases hstep with
  | @publish e rows passed locks writes result hi =>
    intro newer p older hsplit hok id' hearlier
    obtain ⟨rfl, hcons⟩ | ⟨newer, rfl, hrest⟩ := List.cons_eq_append_iff.mp hsplit
    · obtain ⟨rfl, rfl⟩ := List.cons.inj hcons
      obtain rfl : result = .ok () := hok
      obtain hsent | hpassed | hbefore := hordered i _ hi [] e.id _ rfl id' hearlier
      · exact hsent
      · -- the row that was passed over is the earlier one
        obtain ⟨c, hmem, rfl⟩ := List.mem_map.mp hpassed
        obtain ⟨f', hf', f, hf, hid', hid, haggregate, hsequence⟩ := hearlier
        obtain ⟨c', hc', hsame⟩ := (hs.relays i _ hi).passed c hmem
        obtain rfl := hs.eq_of_id_eq hf' hc' (hid'.trans hsame.id.symm)
        obtain rfl := hs.eq_of_id_eq hf ((hs.relays i _ hi).rows e (.head _)).1 hid
        have hle := hc _ hi f rfl c hmem (hsame.aggregateId.symm.trans haggregate)
        have heq := hsame.sequence
        omega
      · exact absurd hbefore List.not_mem_nil
    · exact hold newer p older hrest hok id' hearlier
  | _ => exact hold

theorem RelayRun.ordered (h : RelayRun batchSize InOrder emptyOutbox s) : RelaysOrdered s := by
  induction h with
  | refl => exact fun i r hi => nomatch hi
  | step hrun hstep hc ih => exact ih.step hrun.inv hstep hc

end Runs

/-- As long as no relay publishes a row behind an earlier one of its aggregate
that it passed over, each aggregate's events are first published in their order. -/
theorem publishedInOrder (batchSize : ℕ) (s : RelayState)
    (h : RelayRun batchSize InOrder emptyOutbox s) : PublishedInOrder s := by
  induction h with
  | refl => exact fun newer p older hsplit => absurd hsplit (by simp [emptyOutbox])
  | step hrun hstep hc ih => exact ih.step hrun.inv hrun.ordered hstep hc

/-- The row of the ORDER_CANCELLED event that follows. -/
def cancelledEntry : OutboxEntry where
  id := "m2"
  aggregateId := "o1"
  topic := .orderEvents
  eventType := .orderCancelled
  payload := { orderId := some "o1", reason := some "Payment declined" }
  correlationId := "o1"
  publishedAt := none
  publishAttempts := 0
  createdAt := 2
  sequence := 2

/-- A relay has fetched both rows. -/
theorem fetchedBoth : ∃ s, RelayRun 100 InOrder emptyOutbox s ∧
    s.relays 0 = some ⟨.sending, [createdEntry, cancelledEntry], ["m2", "m1"], [], []⟩ ∧
    s.table = [createdEntry, cancelledEntry] ∧ s.publications = [] := by
  have hcreated : RelayRun 100 InOrder emptyOutbox ⟨[createdEntry], fun _ => none, []⟩ :=
    RelayRun.refl.step (i := 0) (.insert (by simp [emptyOutbox]) (List.pairwise_singleton ..)
      (by simp [createdEntry])) trivial
  have hcancelled : RelayRun 100 InOrder emptyOutbox
      ⟨[createdEntry, cancelledEntry], fun _ => none, []⟩ := by
    refine hcreated.step (i := 0) (.insert ?_ (List.pairwise_singleton ..) ?_) trivial
    · intro e he e' he'
      obtain rfl := List.mem_singleton.mp he
      obtain rfl := List.mem_singleton.mp he'
      exact ⟨by decide, fun _ => by decide⟩
    · simp [cancelledEntry]
  have htick := hcancelled.step (i := 0) (.tick rfl (.refl [createdEntry, cancelledEntry])
    (List.pairwise_pair.mpr (by decide))) (List.pairwise_pair.mpr (by decide))
  have hlock := htick.step (.lock (RelayState.setRelay_self ..) (by decide)
    (RelayState.setRelay_alone fun _ _ => rfl) (.head _) rfl rfl) trivial
  have hlock' := hlock.step (.lock (RelayState.setRelay_self ..) (by decide)
    (RelayState.setRelay_alone fun j hj => RelayState.setRelay_of_ne _ _ _ hj)
    (.tail _ (.head _)) rfl rfl) trivial
  have hfetched := hlock'.step (.fetched (RelayState.setRelay_self ..) (.inl rfl)) trivial
  exact ⟨_, hfetched, RelayState.setRelay_self .., rfl, rfl⟩

theorem publishedInOrder_both : ∃ s, RelayRun 100 InOrder emptyOutbox s ∧
    s.publications = [cancelledEntry.publish (.ok ()), createdEntry.publish (.ok ())] ∧
    PublishedInOrder s := by
  obtain ⟨s, hrun, hi, htable, hnone⟩ := fetchedBoth
  have hnopassed : ∀ result, InOrder s 0 (.publish result) := by
    intro result
    cases result with
    | error _ => trivial
    | ok _ =>
      intro r hr e he c hmem
      obtain rfl := Option.some.inj (hi.symm.trans hr)
      exact absurd hmem List.not_mem_nil
  have hcreated := hrun.step (c := .publish (.ok ())) (.publish hi) (hnopassed _)
  have hstamp := hcreated.step (c := .stamp "t3") (.stamp (RelayState.setRelay_self ..)) trivial
  have hcancelled := hstamp.step (c := .publish (.ok ())) (.publish (RelayState.setRelay_self ..)) ?_
  · refine ⟨_, hcancelled, ?_, publishedInOrder 100 _ hcancelled⟩
    simp [hnone]
  · intro r hr e he c hmem
    rw [RelayState.setRelay_self] at hr
    obtain rfl := Option.some.inj hr
    exact absurd hmem List.not_mem_nil

/-- Publishing the first row fails, and the loop goes on with the second. -/
theorem publishedInOrder_fails : ¬ ∀ batchSize s,
    RelayRun batchSize anyRelayStep emptyOutbox s → PublishedInOrder s := by
  intro h
  obtain ⟨s, hrun, hi, htable, hnone⟩ := fetchedBoth
  have hrun : RelayRun 100 anyRelayStep emptyOutbox s := hrun.mono fun _ _ _ _ => trivial
  have hfailed := hrun.step (c := .publish (.error (.kafka "Connection timeout"))) (.publish hi) trivial
  have hcount := hfailed.step (.count (RelayState.setRelay_self ..)) trivial
  have hsent := hcount.step (c := .publish (.ok ())) (.publish (RelayState.setRelay_self ..)) trivial
  have hearlier : Earlier s.table "m1" "m2" := by
    rw [htable]
    exact ⟨createdEntry, .head _, cancelledEntry, .tail _ (.head _), rfl, rfl, rfl, by decide⟩
  obtain ⟨p, hp, _, hok⟩ := h 100 _ hsent [] _ _ rfl rfl "m1" hearlier
  have hp : p ∈ createdEntry.publish (.error (.kafka "Connection timeout")) :: s.publications := hp
  rw [hnone] at hp
  obtain rfl := List.mem_singleton.mp hp
  nomatch hok

end Saganova
