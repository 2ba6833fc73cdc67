import Cosca.Ports.DrainDeadline
import Cosca.Ports.WindowsWaits

/-!
# Timeouts before the deadline

`wait_drained_raw` and `block_until_exit` wait once for the time that is left,
in whole milliseconds below the sentinel, and take its timeout for the
deadline's.

## Main results

* `timeouts_inTime_iff`: when neither ends before its deadline.
-/

namespace Cosca.Ports.EarlyTimeouts

open Cosca.Ports.Errors
open Cosca.Ports.Identity
open Cosca.Ports.StartToken (Filetime tokenOfFiletime)
open Cosca.Ports.PinnedHost (processQueryLimitedInformation processSynchronize
  waitObject0 waitTimeout)
open Cosca.Ports.IdentityKill (HandleIdentity windowsHandleIdentity)
open Cosca.Ports.ChildRelease (TreeDrain)
open Cosca.Ports.JobDrain (Handle infinite waitMs waitSpan waitFailed)
open Cosca.Ports.DrainDeadline (TimedCall TimedRun Cancels oneMember memberWait
  memberClosed drainRound_oneMember waitDrainedRaw_verdict
  waitDrainedRaw_timesOut)
open Cosca.Ports.WindowsWaits
open Cosca.Verified.Interact
open Cosca.Verified.Clocks

/-! ## The span of a wait -/

/-- A time that a wait can take exactly: whole milliseconds, fewer than the
sentinel. -/
def Exact (left : Nat) : Prop :=
  left % 1000000 = 0 ∧ left / 1000000 < infinite.toNat

instance (left : Nat) : Decidable (Exact left) := by
  unfold Exact
  infer_instance

theorem waitSpan_eq (left : Nat) :
    waitSpan left = min (left / 1000000) (2 ^ 32 - 2) * 1000000 := by
  have hcap : infinite.toNat - 1 = 2 ^ 32 - 2 := rfl
  have hfits : min (left / 1000000) (2 ^ 32 - 2) < 2 ^ 32 := by omega
  show (min (left / 1000000) (infinite.toNat - 1)).toUInt32.toNat * 1000000 = _
  rw [hcap, UInt32.toNat_ofNat_of_lt' hfits]

/-- The wait is as long as the time that is left exactly where it can be. -/
theorem le_waitSpan_iff (left : Nat) : left ≤ waitSpan left ↔ Exact left := by
  have hinfinite : infinite.toNat = 2 ^ 32 - 1 := rfl
  rw [waitSpan_eq]
  unfold Exact
  rw [hinfinite]
  omega

/-! ## Runs that time out -/

/-- A run of `wait_drained_raw` that times out has read the clock, and with
`now` its last reading does not end before the deadline. -/
def DrainsInTime (job : Handle) (cancel : Bool) (due now : Nat) : Prop :=
  ∀ start timed stop, TimedRun job (some (some due)) cancel start timed
      (some (.ok .membersRemain)) stop →
    Punctual DrainDeadline.timeout timed →
      (∀ e ∈ timed, ¬ Cancels e.event) →
        ∃ read, lastReading DrainDeadline.reading (timed.map (·.event)) =
          some read ∧ (read = now → due ≤ stop)

/-- A run of `block_until_exit` that times out has read the clock, and with
`now` its last reading does not end before the deadline. -/
def WatchesInTime (id : ProcessId) (due now : Nat) : Prop :=
  ∀ start timed stop, RunsIn reading (blockUntilExit id (some (some due)))
      start timed (.ok false) stop →
    Punctual timeout timed →
      ∃ read, lastReading reading (timed.map (·.event)) = some read ∧
        (read = now → due ≤ stop)

/-- The members of a job with one member are waited for. -/
def drainedEarly (job : Handle) (cancel : Bool) (due now : Nat) :
    List TimedCall :=
  spanning now (waitSpan (due - now)) (oneMember job cancel now)
    (memberWait cancel (waitMs (some (due - now))) waitTimeout) [memberClosed]

section

variable (job : Handle) (cancel : Bool) (due now : Nat)

theorem drainedEarly_run : TimedRun job (some (some due)) cancel now
    (drainedEarly job cancel due now) (some (.ok .membersRemain))
    (now + waitSpan (due - now)) := by
  refine ⟨2, ?_, timeline_spanning, ?_⟩
  · unfold drainedEarly
    rw [spanning_event]
    exact waitDrainedRaw_verdict
      (drainRound_oneMember job due cancel 0 now (by decide))
  · apply clocked_spanning
    · cases cancel <;> simp [oneMember, DrainDeadline.reading]
    · rfl
    · simp [memberClosed, DrainDeadline.reading]

theorem drainedEarly_punctual :
    Punctual DrainDeadline.timeout (drainedEarly job cancel due now) := by
  apply punctual_spanning
  · cases cancel <;> simp [oneMember, DrainDeadline.timeout]
  · rfl
  · simp [memberClosed, DrainDeadline.timeout]

theorem drainedEarly_uncancelled :
    ∀ e ∈ drainedEarly job cancel due now, ¬ Cancels e.event := by
  intro e he
  rcases mem_spanning he with ⟨hmem, _⟩ | rfl | hmem
  · cases cancel with
    | false =>
        have hnone : ∀ f ∈ oneMember job false now, ¬ Cancels f := by
          simp [oneMember, Cancels]
        exact hnone e.event hmem
    | true =>
        have hnone : ∀ f ∈ oneMember job true now, ¬ Cancels f := by
          simp [oneMember, Cancels]
          decide
        exact hnone e.event hmem
  · intro hseen
    have hindex : (waitTimeout - waitObject0).toNat = 1 := hseen.2
    exact absurd hindex (by decide)
  · have hnone : ∀ f ∈ [memberClosed], ¬ Cancels f := by
      simp [memberClosed, Cancels]
    exact hnone e.event hmem

theorem drainedEarly_reading : lastReading DrainDeadline.reading
    ((drainedEarly job cancel due now).map (·.event)) = some now := by
  unfold drainedEarly
  rw [spanning_event, lastReading_append_of_none (by
    simp [memberWait, memberClosed, DrainDeadline.reading])]
  unfold oneMember
  exact lastReading_append rfl

end

theorem drainsInTime_iff (job : Handle) (cancel : Bool) (due now : Nat) :
    DrainsInTime job cancel due now ↔ Exact (due - now) := by
  constructor
  · intro h
    obtain ⟨read, hread, hintime⟩ := h now _ _
      (drainedEarly_run job cancel due now)
      (drainedEarly_punctual job cancel due now)
      (drainedEarly_uncancelled job cancel due now)
    rw [drainedEarly_reading] at hread
    have hstop := hintime (Option.some.inj hread).symm
    rw [← le_waitSpan_iff]
    omega
  · intro hexact start timed stop hrun hpunctual hcancel
    obtain ⟨fuel, hrun⟩ := hrun
    have hnone : ∀ e ∈ timed.map (·.event), ¬ Cancels e := by
      intro e he
      obtain ⟨t, ht, rfl⟩ := List.mem_map.mp he
      exact hcancel t ht
    have htimes := waitDrainedRaw_timesOut hrun.runs hnone
    obtain ⟨read, hread⟩ := htimes.reads
    refine ⟨read, hread, ?_⟩
    rintro rfl
    exact hrun.not_early hpunctual htimes hread
      ((le_waitSpan_iff _).mpr hexact)

/-! ## `block_until_exit` -/

/-- The creation time whose token it is. -/
def creationOf (start : UInt64) : Filetime :=
  ⟨(start >>> 32).toUInt32, start.toUInt32⟩

theorem tokenOfFiletime_creationOf (start : UInt64) :
    tokenOfFiletime (creationOf start) = start := by
  have hlt := start.toNat_lt
  have hlow : start.toNat % 2 ^ 32 < 2 ^ 32 := Nat.mod_lt _ (by decide)
  have hhigh : start.toNat / 2 ^ 32 < 2 ^ 32 := by omega
  have hfits : start.toNat / 2 ^ 32 * 2 ^ 32 < 2 ^ 64 := by omega
  apply UInt64.toNat_inj.mp
  unfold tokenOfFiletime creationOf
  simp only [UInt64.toNat_or, UInt64.toNat_shiftLeft, UInt32.toNat_toUInt64,
    UInt64.toNat_toUInt32, UInt64.toNat_shiftRight]
  -- the high word is above the low one, so that their bits add up
  rw [show (32 : UInt64).toNat % 64 = 32 from rfl, Nat.shiftRight_eq_div_pow,
    Nat.mod_eq_of_lt hhigh, Nat.shiftLeft_eq, Nat.mod_eq_of_lt hfits,
    ← Nat.shiftLeft_eq, ← Nat.shiftLeft_add_eq_or_of_lt hlow,
    Nat.shiftLeft_eq]
  omega

/-- The process is opened, its identity verified and its exit waited for. -/
def watchedEarly (id : ProcessId) (due now : Nat) :
    List (Timed WaitCall.Reply) :=
  spanning now (waitSpan (due - now))
    [⟨.win32 (.openProcess (processSynchronize |||
        processQueryLimitedInformation) id.pid), .ok 3⟩,
      ⟨.win32 (.getProcessTimes 3), .ok (creationOf id.start)⟩, clockAt now]
    (waitOn 3 (waitMs (some (due - now))) waitTimeout)
    [⟨.win32 (.closeHandle 3), .ok ()⟩]

section

variable (id : ProcessId) (due now : Nat)

theorem windowsHandleIdentity_same :
    (outside (windowsHandleIdentity 3 id)).Runs
      [⟨.win32 (.getProcessTimes 3), .ok (creationOf id.start)⟩] .same := by
  have hsame : HandleIdentity.of id
      (.ok (tokenOfFiletime (creationOf id.start))) = .same := by
    rw [tokenOfFiletime_creationOf]
    exact if_pos rfl
  rw [← hsame]
  exact .ask _ _ _ (.done _)

theorem watchHeld_times : (watchHeld 3 (some (some due))).Runs
    [clockAt now, waitOn 3 (waitMs (some (due - now))) waitTimeout,
      ⟨.win32 (.closeHandle 3), .ok ()⟩] (.ok false) := by
  repeat' apply Prog.Runs.ask
  exact .done _

theorem watchedEarly_run :
    RunsIn reading (blockUntilExit id (some (some due))) now
      (watchedEarly id due now) (.ok false) (now + waitSpan (due - now)) := by
  refine ⟨?_, timeline_spanning, ?_⟩
  · unfold watchedEarly
    rw [spanning_event]
    apply Prog.Runs.ask
    exact (windowsHandleIdentity_same id).bind (watchHeld_times due now)
  · apply clocked_spanning
    · simp [reading]
    · rfl
    · simp [reading]

theorem watchedEarly_punctual :
    Punctual timeout (watchedEarly id due now) := by
  apply punctual_spanning
  · simp [timeout]
  · rfl
  · simp [timeout]

theorem watchedEarly_reading :
    lastReading reading ((watchedEarly id due now).map (·.event)) =
      some now := by
  unfold watchedEarly
  rw [spanning_event, lastReading_append_of_none (by simp [reading])]
  rfl

end

theorem watchesInTime_iff (id : ProcessId) (due now : Nat) :
    WatchesInTime id due now ↔ Exact (due - now) := by
  constructor
  · intro h
    obtain ⟨read, hread, hintime⟩ := h now _ _ (watchedEarly_run id due now)
      (watchedEarly_punctual id due now)
    rw [watchedEarly_reading] at hread
    have hstop := hintime (Option.some.inj hread).symm
    rw [← le_waitSpan_iff]
    omega
  · intro hexact start timed stop hrun hpunctual
    have htimes := blockUntilExit_timesOut hrun.runs
    obtain ⟨read, hread⟩ := htimes.reads
    refine ⟨read, hread, ?_⟩
    rintro rfl
    exact hrun.not_early hpunctual htimes hread
      ((le_waitSpan_iff _).mpr hexact)

/-! ## The deadline -/

/-- For every deadline and every instant at which the clock is last read: no
punctual run that times out ends before the deadline, exactly where the time
that is left then is one that a wait can take. -/
theorem timeouts_inTime_iff (job : Handle) (cancel : Bool) (id : ProcessId)
    (due now : Nat) :
    (DrainsInTime job cancel due now ↔ Exact (due - now)) ∧
      (WatchesInTime id due now ↔ Exact (due - now)) :=
  ⟨drainsInTime_iff job cancel due now, watchesInTime_iff id due now⟩

/-- A deadline that is 1.5 ms away is taken to have passed after 1 ms, and one
that is `2 ^ 32` ms away 2 ms early. -/
theorem timeouts_early :
    (TimedRun ⟨1, 0⟩ (some (some 1500000)) false 0
        (drainedEarly ⟨1, 0⟩ false 1500000 0) (some (.ok .membersRemain))
        1000000 ∧
      Punctual DrainDeadline.timeout (drainedEarly ⟨1, 0⟩ false 1500000 0) ∧
      (∀ e ∈ drainedEarly ⟨1, 0⟩ false 1500000 0, ¬ Cancels e.event) ∧
      ¬ 1500000 ≤ 1000000) ∧
    (RunsIn reading (blockUntilExit ⟨7, 9⟩ (some (some 4294967296000000))) 0
        (watchedEarly ⟨7, 9⟩ 4294967296000000 0) (.ok false)
        4294967294000000 ∧
      Punctual timeout (watchedEarly ⟨7, 9⟩ 4294967296000000 0) ∧
      ¬ 4294967296000000 ≤ 4294967294000000) := by
  have hshort : 0 + waitSpan (1500000 - 0) = 1000000 := by
    have hspan := waitSpan_eq (1500000 - 0)
    omega
  have hlong : 0 + waitSpan (4294967296000000 - 0) = 4294967294000000 := by
    have hspan := waitSpan_eq (4294967296000000 - 0)
    omega
  have hdrained := drainedEarly_run ⟨1, 0⟩ false 1500000 0
  have hwatched := watchedEarly_run ⟨7, 9⟩ 4294967296000000 0
  rw [hshort] at hdrained
  rw [hlong] at hwatched
  exact ⟨⟨hdrained, drainedEarly_punctual ⟨1, 0⟩ false 1500000 0,
      drainedEarly_uncancelled ⟨1, 0⟩ false 1500000 0, by omega⟩,
    ⟨hwatched, watchedEarly_punctual ⟨7, 9⟩ 4294967296000000 0, by omega⟩⟩

end Cosca.Ports.EarlyTimeouts
