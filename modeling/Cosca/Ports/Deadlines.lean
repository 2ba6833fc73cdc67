import Cosca.Ports.KqueueWait
import Cosca.Verified.Rely

/-!
# Waiting for what is left of a deadline

`wait::remaining` beside an environment that has a clock: what is sampled
before a wait says, after the wait, that the deadline has passed.

## Main results

* `remaining_guarantees`: the time left is one that was sampled.
* `Sampled.elapsed_zero`, `Sampled.elapsed`: nothing was left, or what was left
  has passed.
-/

namespace Cosca.Ports.Deadlines

open Cosca.Ports.KqueueWait (Instant)
open Cosca.Verified.Interact

/-- The time, and when the last call returned. -/
structure Clock where
  now : Nat
  returned : Nat
  returned_le : returned ≤ now

/-- The first instant. -/
def Clock.first : Clock :=
  ⟨0, 0, Nat.le_refl 0⟩

/-- Time passes. -/
def Clock.pass (c : Clock) (now : Nat) (h : c.now ≤ now) : Clock :=
  ⟨now, c.returned, Nat.le_trans c.returned_le h⟩

/-- A call returns. -/
def Clock.back (c : Clock) : Clock :=
  ⟨c.now, c.now, Nat.le_refl c.now⟩

/-- What the time alone can change of a clock. -/
def Clock.Drifts (c c' : Clock) : Prop :=
  c'.returned = c.returned ∧ c.now ≤ c'.now

/-- The deadline has passed. -/
def Elapsed (deadline : Option (Option Instant)) (c : Clock) : Prop :=
  ∃ due, deadline = some (some due) ∧ due.nanos ≤ c.now

/-- The time left was sampled before the last call returned. -/
def Sampled (deadline : Option (Option Instant)) (left : Option Nat)
    (c : Clock) : Prop :=
  ∀ time, left = some time → ∃ (due : Instant) (now : Nat),
    deadline = some (some due) ∧ time = due.nanos - now ∧ now ≤ c.returned

section

variable {deadline : Option (Option Instant)} {left : Option Nat} {time : Nat}
  {c c' : Clock}

theorem Elapsed.drifts (hdrifts : c.Drifts c') (h : Elapsed deadline c) :
    Elapsed deadline c' := by
  obtain ⟨due, hdeadline, hdue⟩ := h
  exact ⟨due, hdeadline, Nat.le_trans hdue hdrifts.2⟩

theorem Sampled.drifts (hdrifts : c.Drifts c') (h : Sampled deadline left c) :
    Sampled deadline left c' := by
  intro time htime
  obtain ⟨due, now, hdeadline, hleft, hnow⟩ := h time htime
  exact ⟨due, now, hdeadline, hleft, hdrifts.1 ▸ hnow⟩

/-- Nothing was left. -/
theorem Sampled.elapsed_zero (h : Sampled deadline (some 0) c) :
    Elapsed deadline c := by
  obtain ⟨due, now, hdeadline, hzero, hnow⟩ := h 0 rfl
  have hreturned := c.returned_le
  exact ⟨due, hdeadline, by omega⟩

/-- What was left has passed. -/
theorem Sampled.elapsed (h : Sampled deadline (some time) c)
    (hwaited : c.returned + time ≤ c.now) : Elapsed deadline c := by
  obtain ⟨due, now, hdeadline, htime, hnow⟩ := h time rfl
  exact ⟨due, hdeadline, by omega⟩

/-- What is left of a deadline fits a `timespec`. -/
theorem Sampled.fits (h : Sampled deadline (some time) c) :
    time < 2 ^ 63 * 1000000000 := by
  obtain ⟨due, now, _, htime, _⟩ := h time rfl
  have hfits := due.fits
  omega

end

/-! ## Sampling -/

variable {Q : Type} {A : Q → Type} {K : Type}

/-- `wait::remaining`, where `sample` reads the clock. -/
def remaining (sample : Prog Q A Instant) :
    Option (Option Instant) → Prog Q A (Option Nat)
  | none | some none => return none
  | some (some due) => do
      let now ← sample
      return some (due.nanos - now.nanos)

/-- Where a reading of the clock is not later than its return, what is left is
sampled. -/
theorem remaining_guarantees {env : Environment A K} {pre : K → Prop}
    {sample : Prog Q A Instant} (clock : K → Clock) (hpre : env.Stable pre)
    (hclock : ∀ k k', env.moves k k' → (clock k).Drifts (clock k'))
    (hsample : sample.Guarantees env pre fun now k =>
      pre k ∧ now.nanos ≤ (clock k).returned)
    (deadline : Option (Option Instant)) :
    (remaining sample deadline).Guarantees env pre fun left k =>
      pre k ∧ Sampled deadline left (clock k) := by
  have hunbounded : (Pure.pure none : Prog Q A (Option Nat)).Guarantees env
      pre fun left k => pre k ∧ Sampled deadline left (clock k) :=
    .pure hpre fun k hk => ⟨hk, fun time htime => nomatch htime⟩
  match deadline with
  | none => exact hunbounded
  | some none => exact hunbounded
  | some (some due) =>
      refine Prog.Guarantees.bind _ hsample ?_
      intro now
      refine Prog.Guarantees.pure (hpre.and ?_) ?_
      · intro k k' hmove hnow
        exact (hclock k k' hmove).1 ▸ hnow
      · intro k hk
        refine ⟨hk.1, ?_⟩
        intro time htime
        exact ⟨due, now.nanos, rfl, (Option.some.inj htime).symm, hk.2⟩

end Cosca.Ports.Deadlines
