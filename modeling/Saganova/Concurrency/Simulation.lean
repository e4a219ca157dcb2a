import Saganova.Concurrency.Later

/-!
# Simulation

What can be seen of the shared state (`view`) changes as a machine moves: every
step of a run is one of its moves, or shows nothing (`System.Simulates`).  That
holds of every step if it holds of what the handlers guarantee
(`Protocol.simulates`).  What no move leaves is there for good (`eq_of_final`).
-/

namespace Concurrency

/-! ## Machines -/

section Machine

variable {ι α : Type} {Move : α → α → Prop}

/-- One of the machines moves, the others stay. -/
def OneMoves (Move : α → α → Prop) (v v' : ι → α) : Prop :=
  ∃ i, Move (v i) (v' i) ∧ ∀ j, j ≠ i → v' j = v j

/-- Each of them goes its own way. -/
theorem OneMoves.path {v v' : ι → α} (h : Relation.ReflTransGen (OneMoves Move) v v') (i : ι) :
    Relation.ReflTransGen Move (v i) (v' i) := by
  induction h with
  | refl => exact .refl
  | @tail v₁ v₂ _ hmove ih =>
    obtain ⟨j, hmove, hothers⟩ := hmove
    by_cases hi : i = j
    · subst hi
      exact ih.tail hmove
    · rwa [hothers i hi]

/-- A machine that cannot move stays. -/
theorem eq_of_final {a b : α} (hfinal : ∀ c, ¬ Move a c) (h : Relation.ReflTransGen Move a b) :
    b = a := by
  obtain heq | ⟨c, hmove, -⟩ := h.cases_head
  · exact heq.symm
  · exact absurd hmove (hfinal c)

end Machine

/-! ## Systems -/

variable {κ A α : Type} {ν : κ → Type} {ε : Type} {ρ : A → Type} {μ : Type} [DecidableEq κ]
  {S : System ν ε ρ μ} {G : Guard ν ε ρ μ} {s s' : LockState ν ε ρ μ}

/-- Each step of a run is a move of the machine, or shows nothing. -/
structure System.Simulates (S : System ν ε ρ μ) (G : Guard ν ε ρ μ) (view : Shared ν ρ μ → α)
    (init : α) (Move : α → α → Prop) : Prop where
  start : ∀ s, S.start s → view s = init
  step : ∀ s s' i c, LockReach S G s → LockStep S s i c s' → (∀ c', c = some c' → G s.base i c') →
    view s'.base.shared = view s.base.shared ∨ Move (view s.base.shared) (view s'.base.shared)

section Simulates

variable {view : Shared ν ρ μ → α} {init : α} {Move : α → α → Prop}

theorem System.Simulates.later (hsim : S.Simulates G view init Move) (h : LockReach S G s)
    (hlater : LockLater S G s s') :
    Relation.ReflTransGen Move (view s.base.shared) (view s'.base.shared) := by
  induction hlater with
  | refl => exact .refl
  | tail hlater hstep ih =>
    obtain ⟨i, c, hstep, hg⟩ := hstep
    obtain hsame | hmove := hsim.step _ _ i c (h.later hlater) hstep hg
    · rwa [hsame]
    · exact ih.tail hmove

theorem System.Simulates.reach (hsim : S.Simulates G view init Move) (h : LockReach S G s) :
    Relation.ReflTransGen Move init (view s.base.shared) := by
  induction h with
  | start hs =>
    exact hsim.start _ hs ▸ .refl
  | step h hstep hg ih =>
    obtain hsame | hmove := hsim.step _ _ _ _ h hstep hg
    · rwa [hsame]
    · exact ih.tail hmove

/-- It is enough that what the handlers guarantee are moves; `I` is known of every state. -/
theorem Protocol.simulates {P : Protocol ν ε ρ μ} {I : Shared ν ρ μ → Prop} (hkeeps : S.Keeps P G)
    (hI : ∀ s, Reach S G s → I s.shared) (hstart : ∀ s, S.start s → view s = init)
    (hstep : ∀ t seen s s', P.inv s → I s → I s' → P.guar t seen s s' →
      view s' = view s ∨ Move (view s) (view s')) : S.Simulates G view init Move where
  start := hstart
  step s s' i c h hlock hg := by
    obtain ⟨hinv, hreach⟩ := h.atomic
    obtain ⟨-, hbase⟩ | ⟨c', rfl, hbase⟩ := hinv.atomic hlock
    · exact .inl (by rw [hbase])
    · have hsound := Protocol.sound hkeeps hreach
      obtain hsame | ⟨job, -, hguar⟩ := hsound.guar hkeeps hbase (hg c' rfl)
      · exact .inl (by rw [hsame])
      · exact hstep _ _ _ _ hsound.inv (hI _ hreach) (hI _ (hreach.step hbase (hg c' rfl))) hguar

end Simulates

end Concurrency
