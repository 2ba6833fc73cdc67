import Cosca.Ports.IdentityKill
import Cosca.Ports.JobDrain
import Cosca.Verified.Clocks

/-!
# The bounded waits of Windows

`wait::windows::block_until_exit`, which waits once, and
`RawChild::wait_deadline`, which waits again until its deadline has passed.
Both turn the time that is left into the 32-bit milliseconds of
`WaitForSingleObject`, whose largest value means no timeout at all.

## Main results

* `waitDeadline_bounded_iff`: when no wait of `wait_deadline` is unbounded.
-/

namespace Cosca.Ports.WindowsWaits

open Cosca.Ports.Errors
open Cosca.Ports.Identity
open Cosca.Ports.StartToken (HResult HResult.io Handle openClassified)
open Cosca.Ports.PinnedHost (Win32 processQueryLimitedInformation
  processSynchronize waitObject0 waitTimeout)
open Cosca.Ports.IdentityKill (Calling HandleIdentity isAlive
  windowsHandleIdentity)
open Cosca.Ports.JobDrain (infinite waitMs waitSpan)
open Cosca.Verified.Interact
open Cosca.Verified.Clocks

/-! ## Calls -/

/-- The calls of a wait: those of the process code, the clock in nanoseconds
and the last error. -/
inductive WaitCall where
  | win32 (q : Win32)
  | now
  | lastError

abbrev WaitCall.Reply : WaitCall → Type
  | .win32 q => q.Reply
  | .now => Nat
  | .lastError => IoError

/-- A call and what it returned. -/
abbrev WaitEvent := Event WaitCall.Reply

/-- A program that waits. -/
abbrev Waiting := Prog WaitCall WaitCall.Reply

abbrev call (q : Win32) : Waiting q.Reply :=
  query (WaitCall.win32 q)

/-- A program of the process code. -/
def outside {α : Type} (p : Calling α) : Waiting α :=
  p.embed WaitCall.win32 fun _ a => a

def close (handle : Handle) : Waiting Unit := do
  let _ ← call (.closeHandle handle)
  return ()

/-- `wait::remaining`. -/
def remaining : Option (Option Nat) → Waiting (Option Nat)
  | none | some none => return none
  | some (some deadline) => do
      let now : Nat ← query WaitCall.now
      return some (deadline - now)

/-! ## `block_until_exit` -/

/-- The result where the process could not be opened. -/
def watchDenied (id : ProcessId) (e : HResult) (liveness : Liveness) :
    Except Error Bool :=
  if liveness == .dead then .ok true
  else .error (.unassessable ("pid " ++ toString id.pid ++
    " could not be opened to watch for its exit") (some (HResult.io e)))

/-- The error of a wait that neither saw the exit nor timed out. -/
def waitError (waited : UInt32) : Waiting (Option IoError) :=
  if waited ≠ waitObject0 ∧ waited ≠ waitTimeout then do
    let e : IoError ← query WaitCall.lastError
    return some e
  else return none

/-- The result of the wait. -/
def waitResult (waited : UInt32) : Option IoError → Except Error Bool
  | none => .ok (waited == waitObject0)
  | some e => .error (.io e)

/-- The wait on the handle that was verified. -/
def watchHeld (handle : Handle) (deadline : Option (Option Nat)) :
    Waiting (Except Error Bool) := do
  let left ← remaining deadline
  let waited : UInt32 ← call (.waitForSingleObject handle (waitMs left))
  let failed ← waitError waited
  close handle
  return waitResult waited failed

/-- `block_until_exit` on the handle it opened. -/
def watchOpened (id : ProcessId) (handle : Handle)
    (deadline : Option (Option Nat)) :
    HandleIdentity → Waiting (Except Error Bool)
  | .same => watchHeld handle deadline
  | .different => do
      close handle
      return .ok true
  | .unreadable e => do
      close handle
      return .error (.unassessable ("pid " ++ toString id.pid ++
        " opened but its identity could not be verified")
        (some (HResult.io e)))

/-- `wait::windows::block_until_exit`. -/
def blockUntilExit (id : ProcessId) (deadline : Option (Option Nat)) :
    Waiting (Except Error Bool) := do
  let opened : Except HResult Handle ← call (.openProcess
    (processSynchronize ||| processQueryLimitedInformation) id.pid)
  match openClassified opened with
  | .gone => return .ok true
  | .denied e => do
      let liveness ← outside (isAlive id)
      return watchDenied id e liveness
  | .found handle => do
      let identity ← outside (windowsHandleIdentity handle id)
      watchOpened id handle deadline identity

/-! ## `RawChild::wait_deadline` -/

/-- `exit_status`: the exit code. -/
def exitStatus (handle : Handle) : Waiting (Except IoError UInt32) := do
  let code : Except HResult UInt32 ← call (.getExitCodeProcess handle)
  return code.mapError HResult.io

/-- The milliseconds of a round:
`u32::try_from(remaining.as_millis()).unwrap_or(INFINITE - 1)`. -/
def deadlineMillis (remaining : Nat) : UInt32 :=
  if remaining / 1000000 < 2 ^ 32 then (remaining / 1000000).toUInt32
  else infinite - 1

/-- What is made of a wait; `again` is the loop. -/
def afterWait (proc : Handle) (deadline : Nat) (r : UInt32)
    (again : Waiting (Option (Except IoError (Option UInt32)))) :
    Waiting (Option (Except IoError (Option UInt32))) :=
  if r = waitObject0 then do
    let status ← exitStatus proc
    return some (status.map some)
  else if r = waitTimeout then do
    let now : Nat ← query WaitCall.now
    if now ≥ deadline then return some (.ok none) else again
  else do
    let e : IoError ← query WaitCall.lastError
    return some (.error e)

/-- `RawChild::wait_deadline`, on the child's handle. -/
def waitDeadline (proc : Handle) (deadline : Nat) :
    Nat → Waiting (Option (Except IoError (Option UInt32)))
  | 0 => return none
  | fuel + 1 => do
      let now : Nat ← query WaitCall.now
      let r : UInt32 ←
        call (.waitForSingleObject proc (deadlineMillis (deadline - now)))
      afterWait proc deadline r (waitDeadline proc deadline fuel)

/-! ## Events -/

/-- A reading of the clock. -/
abbrev clockAt (now : Nat) : WaitEvent :=
  ⟨.now, now⟩

/-- What an event says of the time. -/
def reading : WaitEvent → Option Nat
  | ⟨.now, now⟩ => some now
  | _ => none

/-- A wait for a handle. -/
abbrev waitOn (handle : Handle) (ms r : UInt32) : WaitEvent :=
  ⟨.win32 (.waitForSingleObject handle ms), r⟩

/-- The time of a wait that timed out. -/
def timeout : WaitEvent → Option Nat
  | ⟨.win32 (.waitForSingleObject _ ms), state⟩ =>
      if state = waitTimeout then some (ms.toNat * 1000000) else none
  | _ => none

/-! ## The wait of `block_until_exit` -/

section

variable {id : ProcessId} {due : Nat} {handle : Handle}
  {events : List WaitEvent}

/-- A wait without an error saw the exit or timed out. -/
theorem waitError_cases {state : UInt32} {failed : Option IoError}
    (h : (waitError state).Runs events failed) (hnone : failed = none) :
    events = [] ∧ (state = waitObject0 ∨ state = waitTimeout) := by
  unfold waitError at h
  by_cases hfailed : state ≠ waitObject0 ∧ state ≠ waitTimeout
  · rw [if_pos hfailed] at h
    obtain ⟨e, _, rfl, hdone⟩ := Prog.Runs.of_query_bind h
    obtain ⟨rfl, rfl⟩ := Prog.Runs.of_pure hdone
    exact nomatch hnone
  · rw [if_neg hfailed] at h
    obtain ⟨rfl, rfl⟩ := Prog.Runs.of_pure h
    refine ⟨rfl, ?_⟩
    by_cases hobject : state = waitObject0
    · exact Or.inl hobject
    · by_cases htimeout : state = waitTimeout
      · exact Or.inr htimeout
      · exact absurd ⟨hobject, htimeout⟩ hfailed

/-- `Ok(false)` is a timeout. -/
theorem watchHeld_timesOut
    (h : (watchHeld handle (some (some due))).Runs events (.ok false)) :
    TimesOut reading timeout waitSpan due events := by
  obtain ⟨left, _, _, hleft, hwait, rfl⟩ := Prog.Runs.of_bind h
  obtain ⟨now, _, rfl, hnow⟩ := Prog.Runs.of_query_bind hleft
  obtain ⟨rfl, rfl⟩ := Prog.Runs.of_pure hnow
  obtain ⟨state, _, rfl, hrest⟩ := Prog.Runs.of_query_bind hwait
  obtain ⟨failed, _, _, hfailed, hclose, rfl⟩ := Prog.Runs.of_bind hrest
  obtain ⟨_, _, _, hclosed, hdone, rfl⟩ := Prog.Runs.of_bind hclose
  obtain ⟨closed, _, rfl, hnil⟩ := Prog.Runs.of_query_bind hclosed
  obtain ⟨rfl, _⟩ := Prog.Runs.of_pure hnil
  obtain ⟨rfl, hresult⟩ := Prog.Runs.of_pure hdone
  cases failed with
  | some e => exact nomatch hresult
  | none =>
      obtain ⟨rfl, hstate⟩ := waitError_cases hfailed rfl
      have hobject : state ≠ waitObject0 := by
        have hfalse := Except.ok.inj hresult
        simpa using hfalse.symm
      rcases hstate with hobject' | rfl
      · exact absurd hobject' hobject
      · refine ⟨[], clockAt now, now,
          [waitOn handle (waitMs (some (due - now))) waitTimeout,
            ⟨.win32 (.closeHandle handle), closed⟩], rfl, rfl, ?_, Or.inr ?_⟩
        · simp [reading]
        · exact ⟨_, List.mem_cons_self, rfl⟩

theorem blockUntilExit_timesOut
    (h : (blockUntilExit id (some (some due))).Runs events (.ok false)) :
    TimesOut reading timeout waitSpan due events := by
  obtain ⟨opened, _, rfl, hopened⟩ := Prog.Runs.of_query_bind h
  apply TimesOut.append_left [_]
  cases hclass : openClassified opened with
  | gone =>
      rw [hclass] at hopened
      exact nomatch (Prog.Runs.of_pure hopened).2
  | denied e =>
      rw [hclass] at hopened
      obtain ⟨liveness, _, _, _, hdone, rfl⟩ := Prog.Runs.of_bind hopened
      have hresult := (Prog.Runs.of_pure hdone).2
      unfold watchDenied at hresult
      split at hresult <;> exact nomatch hresult
  | found handle =>
      rw [hclass] at hopened
      obtain ⟨identity, _, _, _, hrest, rfl⟩ := Prog.Runs.of_bind hopened
      apply TimesOut.append_left
      cases identity with
      | same => exact watchHeld_timesOut hrest
      | different =>
          obtain ⟨_, _, _, _, hdone, rfl⟩ := Prog.Runs.of_bind hrest
          exact nomatch (Prog.Runs.of_pure hdone).2
      | unreadable e =>
          obtain ⟨_, _, _, _, hdone, rfl⟩ := Prog.Runs.of_bind hrest
          exact nomatch (Prog.Runs.of_pure hdone).2

end

/-! ## The rounds of `wait_deadline` -/

/-- The runs of `wait_deadline`. -/
inductive Waits (proc : Handle) (deadline : Nat) : List WaitEvent →
    Option (Except IoError (Option UInt32)) → Prop where
  | spent : Waits proc deadline [] none
  | exited (now : Nat) (code : Except HResult UInt32) :
      Waits proc deadline [clockAt now,
        waitOn proc (deadlineMillis (deadline - now)) waitObject0,
        ⟨.win32 (.getExitCodeProcess proc), code⟩]
        (some ((code.mapError HResult.io).map some))
  | expired (now later : Nat) (hlater : deadline ≤ later) :
      Waits proc deadline [clockAt now,
        waitOn proc (deadlineMillis (deadline - now)) waitTimeout,
        clockAt later] (some (.ok none))
  | again (now later : Nat) {events : List WaitEvent}
      {r : Option (Except IoError (Option UInt32))} (hlater : later < deadline)
      (hrest : Waits proc deadline events r) :
      Waits proc deadline (clockAt now ::
        waitOn proc (deadlineMillis (deadline - now)) waitTimeout ::
        clockAt later :: events) r
  | failed (now : Nat) (r : UInt32) (e : IoError) :
      Waits proc deadline [clockAt now,
        waitOn proc (deadlineMillis (deadline - now)) r, ⟨.lastError, e⟩]
        (some (.error e))

section

variable {proc : Handle} {deadline : Nat}

theorem waitDeadline_cases (fuel : Nat) : ∀ {events : List WaitEvent}
    {r : Option (Except IoError (Option UInt32))},
    (waitDeadline proc deadline fuel).Runs events r →
      Waits proc deadline events r := by
  induction fuel with
  | zero =>
      intro events r h
      obtain ⟨rfl, rfl⟩ := Prog.Runs.of_pure h
      exact .spent
  | succ fuel ih =>
      intro events r h
      obtain ⟨now, _, rfl, hwait⟩ := Prog.Runs.of_query_bind h
      obtain ⟨state, _, rfl, hrest⟩ := Prog.Runs.of_query_bind hwait
      unfold afterWait at hrest
      split at hrest
      · next hexited =>
          obtain ⟨status, _, _, hstatus, hdone, rfl⟩ := Prog.Runs.of_bind hrest
          obtain ⟨code, _, rfl, hcode⟩ := Prog.Runs.of_query_bind hstatus
          obtain ⟨rfl, rfl⟩ := Prog.Runs.of_pure hcode
          obtain ⟨rfl, rfl⟩ := Prog.Runs.of_pure hdone
          rw [hexited]
          exact .exited now code
      · split at hrest
        · next htimeout =>
            obtain ⟨later, _, rfl, hlater⟩ := Prog.Runs.of_query_bind hrest
            rw [htimeout]
            split at hlater
            · next hpassed =>
                obtain ⟨rfl, rfl⟩ := Prog.Runs.of_pure hlater
                exact .expired now later hpassed
            · next hearly =>
                exact .again now later (Nat.lt_of_not_ge hearly) (ih hlater)
        · obtain ⟨e, _, rfl, hdone⟩ := Prog.Runs.of_query_bind hrest
          obtain ⟨rfl, rfl⟩ := Prog.Runs.of_pure hdone
          exact .failed now state e

/-- A round of three calls, its wait the second: a wait among the calls is
that one, or one of a later round. -/
theorem round_wait {now : Nat} {m r : UInt32} {third : WaitEvent}
    {rest before after : List WaitEvent} {handle : Handle} {ms state : UInt32}
    (hthird : ∀ handle ms state, third ≠ waitOn handle ms state)
    (h : clockAt now :: waitOn proc m r :: third :: rest =
      before ++ waitOn handle ms state :: after) :
    (before = [clockAt now] ∧ ms = m) ∨
      ∃ earlier later, before = earlier ++ later ∧
        rest = later ++ waitOn handle ms state :: after := by
  match before with
  | [] => exact nomatch (List.cons.inj h).1
  | [first] =>
      obtain ⟨hfirst, hwait⟩ := List.cons.inj h
      have hsame := (List.cons.inj hwait).1
      refine Or.inl ⟨by rw [hfirst], ?_⟩
      injection hsame with hquestion _
      injection hquestion with hcall
      injection hcall with _ hms
      exact hms.symm
  | [_, _] =>
      obtain ⟨_, hrest⟩ := List.cons.inj h
      obtain ⟨_, hrest⟩ := List.cons.inj hrest
      exact absurd (List.cons.inj hrest).1 (hthird handle ms state)
  | first :: second :: third :: later =>
      obtain ⟨_, hrest⟩ := List.cons.inj h
      obtain ⟨_, hrest⟩ := List.cons.inj hrest
      exact Or.inr ⟨[first, second, third], later, rfl,
        (List.cons.inj hrest).2⟩

/-- The timeout of a wait is what the reading before it leaves. -/
theorem Waits.timeout {events : List WaitEvent}
    {r : Option (Except IoError (Option UInt32))}
    (h : Waits proc deadline events r) :
    ∀ {before after : List WaitEvent} {handle : Handle} {ms state : UInt32},
      events = before ++ waitOn handle ms state :: after →
        ∃ now, lastReading reading before = some now ∧
          ms = deadlineMillis (deadline - now) := by
  have hround {now : Nat} {r : UInt32} {third : WaitEvent}
      (hthird : ∀ handle ms state, third ≠ waitOn handle ms state)
      {before after : List WaitEvent} {handle : Handle} {ms state : UInt32}
      (heq : [clockAt now, waitOn proc (deadlineMillis (deadline - now)) r,
        third] = before ++ waitOn handle ms state :: after) :
      ∃ now, lastReading reading before = some now ∧
        ms = deadlineMillis (deadline - now) := by
    rcases round_wait hthird heq with ⟨rfl, hms⟩ | ⟨_, _, _, hnil⟩
    · exact ⟨now, rfl, hms⟩
    · simp at hnil
  induction h with
  | spent =>
      intro before after handle ms state heq
      simp at heq
  | exited now code => exact hround (by simp)
  | expired now later hlater => exact hround (by simp)
  | failed now r e => exact hround (by simp)
  | again now later hlater hrest ih =>
      intro before after handle ms state heq
      rcases round_wait (by simp) heq with ⟨rfl, hms⟩ | ⟨_, _, rfl, hlaterRound⟩
      · exact ⟨now, rfl, hms⟩
      · obtain ⟨now', hnow, hms⟩ := ih hlaterRound
        exact ⟨now', lastReading_append hnow, hms⟩

/-- `wait_deadline` says that the deadline has passed on a reading of the
clock. -/
theorem Waits.passed {events : List WaitEvent}
    {r : Option (Except IoError (Option UInt32))}
    (h : Waits proc deadline events r) (hr : r = some (.ok none)) :
    ∃ before now, events = before ++ [clockAt now] ∧ deadline ≤ now := by
  induction h with
  | spent => exact nomatch hr
  | exited now code => cases code <;> exact nomatch hr
  | expired now later hlater => exact ⟨[_, _], later, rfl, hlater⟩
  | failed now r e => exact nomatch hr
  | again now later _ hrest ih =>
      obtain ⟨before, last, rfl, hlast⟩ := ih hr
      exact ⟨_ :: _ :: _ :: before, last, rfl, hlast⟩

end

/-! ## The sentinel -/

/-- The conversion caps what does not fit 32 bits, and the largest value that
does is the sentinel. -/
theorem deadlineMillis_lt_iff (left : Nat) :
    deadlineMillis left < infinite ↔ left / 1000000 ≠ infinite.toNat := by
  have hinfinite : infinite.toNat = 2 ^ 32 - 1 := rfl
  rw [UInt32.lt_iff_toNat_lt, hinfinite]
  unfold deadlineMillis
  split
  · next hfits =>
      rw [UInt32.toNat_ofNat_of_lt' hfits]
      omega
  · next hover =>
      have hcap : (infinite - 1).toNat = 2 ^ 32 - 2 := rfl
      rw [hcap]
      omega

/-- One millisecond more is capped again. -/
example : deadlineMillis (0x100000000 * 1000000) = infinite - 1 := by
  decide

/-- For every deadline, clock and answers: no wait is unbounded and `Ok(None)`
says that the deadline has passed, exactly where no reading before a wait
leaves as many whole milliseconds as the sentinel. -/
theorem waitDeadline_bounded_iff (proc : Handle) (deadline fuel : Nat) :
    (waitDeadline proc deadline fuel).Ensures [] fun r t =>
      ((∀ handle ms state, waitOn handle ms state ∈ t → ms < infinite) ∧
        (r = some (.ok none) →
          ∃ before now, t = before ++ [clockAt now] ∧ deadline ≤ now)) ↔
      ∀ before handle ms state after now,
        t = before ++ waitOn handle ms state :: after →
          lastReading reading before = some now →
            (deadline - now) / 1000000 ≠ infinite.toNat := by
  apply (Prog.ensures_runs (waitDeadline proc deadline fuel) []).mono
  rintro r t ⟨events, ht, hruns⟩
  rw [List.nil_append] at ht
  rw [ht]
  have hwaits := waitDeadline_cases fuel hruns
  constructor
  · intro h before handle ms state after now heq hnow
    obtain ⟨now', hnow', hms⟩ := hwaits.timeout heq
    rw [hnow] at hnow'
    rw [Option.some.inj hnow', ← deadlineMillis_lt_iff, ← hms]
    apply h.1 handle ms state
    rw [heq]
    exact List.mem_append_right before List.mem_cons_self
  · intro h
    refine ⟨?_, hwaits.passed⟩
    intro handle ms state hmem
    obtain ⟨before, after, heq⟩ := List.append_of_mem hmem
    obtain ⟨now, hnow, hms⟩ := hwaits.timeout heq
    rw [hms, deadlineMillis_lt_iff]
    exact h before handle ms state after now heq hnow

/-- A wait whose deadline is `0xffffffff` whole milliseconds away. -/
def sentinelWait : List WaitEvent :=
  [clockAt 0, waitOn 3 infinite waitObject0,
    ⟨.win32 (.getExitCodeProcess 3), .ok 0⟩]

theorem waitDeadline_unbounded :
    (waitDeadline 3 (0xffffffff * 1000000) 1).Runs sentinelWait
      (some (.ok (some 0))) ∧
    ¬ ∀ handle ms state, waitOn handle ms state ∈ sentinelWait →
      ms < infinite := by
  constructor
  · repeat' apply Prog.Runs.ask
    exact .done _
  · intro h
    exact absurd (h 3 infinite waitObject0 (by simp [sentinelWait]))
      (by decide)

end Cosca.Ports.WindowsWaits
