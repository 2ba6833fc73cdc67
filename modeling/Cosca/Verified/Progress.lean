import Mathlib.Logic.Relation
import Mathlib.Order.WellFounded

/-!
# Systems that complete

A system of steps completes from a state if none of its runs is infinite and
every run that cannot go on has reached a final state: it terminates, and it
does not deadlock.

## Main results

* `Completes.of_rank`: a rank that every step lowers, and progress outside of
  the final states.
-/

namespace Cosca.Verified.Progress

open Relation (ReflTransGen)

variable {σ ρ : Type} {step : σ → σ → Prop} {final : σ → Prop}

/-- Every run from the state is finite, and is in a final state where it cannot
go on. -/
structure Completes (step : σ → σ → Prop) (final : σ → Prop) (s : σ) :
    Prop where
  finite : ∀ run : Nat → σ, run 0 = s → ¬ ∀ n, step (run n) (run (n + 1))
  ends : ∀ s', ReflTransGen step s s' → (∀ s'', ¬ step s' s'') → final s'

/-- What every step keeps, every run keeps. -/
theorem invariant_of_steps {inv : σ → Prop}
    (hkeep : ∀ s s', inv s → step s s' → inv s') {s s' : σ} (hs : inv s)
    (h : ReflTransGen step s s') : inv s' := by
  induction h with
  | refl => exact hs
  | tail _ hstep ih => exact hkeep _ _ ih hstep

/-- The same for an infinite run. -/
theorem invariant_of_run {inv : σ → Prop}
    (hkeep : ∀ s s', inv s → step s s' → inv s') {run : Nat → σ}
    (hs : inv (run 0)) (h : ∀ n, step (run n) (run (n + 1))) :
    ∀ n, inv (run n) := by
  intro n
  induction n with
  | zero => exact hs
  | succ n ih => exact hkeep _ _ ih (h n)

/-- A well-founded rank does not go down for ever. -/
theorem not_descending {lt : ρ → ρ → Prop} (hwf : WellFounded lt)
    (rank : Nat → ρ) : ¬ ∀ n, lt (rank (n + 1)) (rank n) := by
  intro hdown
  obtain ⟨_, ⟨n, rfl⟩, hmin⟩ := hwf.has_min (Set.range rank) ⟨rank 0, 0, rfl⟩
  exact hmin (rank (n + 1)) ⟨n + 1, rfl⟩ (hdown n)

theorem Completes.of_rank {lt : ρ → ρ → Prop} (hwf : WellFounded lt)
    (rank : σ → ρ) {inv : σ → Prop}
    (hkeep : ∀ s s', inv s → step s s' → inv s')
    (hdown : ∀ s s', inv s → step s s' → lt (rank s') (rank s))
    (hprogress : ∀ s, inv s → ¬ final s → ∃ s', step s s') {s : σ}
    (hs : inv s) : Completes step final s := by
  constructor
  · rintro run rfl hrun
    have hinv := invariant_of_run hkeep hs hrun
    exact not_descending hwf (fun n => rank (run n))
      fun n => hdown _ _ (hinv n) (hrun n)
  · intro s' hreach hstuck
    by_contra hfinal
    obtain ⟨s'', hstep⟩ :=
      hprogress s' (invariant_of_steps hkeep hs hreach) hfinal
    exact hstuck s'' hstep

end Cosca.Verified.Progress
