import Cosca.Ports.Deadlines
import Cosca.Ports.IdentityKill

/-!
# The pidfd wait of Linux

`wait::linux::block_until_exit`, and its twins on the reactor: `exit_watch` and
`grace_wait` of `tokio/wait.rs`.  They open a pidfd, check that it is one of
the process itself, and wait until it tells that the process has exited.

The host recycles pids, and has a clock and the timer of `tokio::time::timeout`
in addition.
-/

namespace Cosca.Ports.PidfdWait

open Cosca.Ports.Errors
open Cosca.Ports.Identity
open Cosca.Ports.Deadlines
open Cosca.Ports.KqueueWait (Instant Timespec timespecOf eintr)
open Cosca.Ports.UnixSignals (Panic Question Answer openVerified)
open Cosca.Ports.PinnedHost
open Cosca.Verified.Interact

/-! ## Calls -/

/-- `Ready`: what the watch reads of it. -/
structure Ready where
  error : Bool
  readable : Bool
  readClosed : Bool
  deriving DecidableEq, Repr

/-- The calls of a wait, those of `open_verified` among them; `timeout` starts
the timer of `tokio::time::timeout`. -/
inductive WaitCall where
  | os (question : Question)
  | now
  | poll (pidfd : Nat) (time : Option Timespec)
  | timeout (grace : Nat)
  | register (pidfd : Nat)
  | ready (pidfd : Nat)
  | clearReady (pidfd : Nat)

/-- What a call returns; `poll` returns whether `POLLERR` is among the events,
if there is one, and `ready` nothing where the timer is first. -/
abbrev WaitCall.Reply : WaitCall → Type
  | .os question => Answer question
  | .now => Instant
  | .poll .. => Except Int (Option Bool)
  | .timeout _ => Unit
  | .register _ => Except IoError Unit
  | .ready _ => Option (Except IoError Ready)
  | .clearReady _ => Unit

/-- A program that waits. -/
abbrev Waiting := Prog WaitCall WaitCall.Reply

/-- `open_verified`. -/
def opened (id : ProcessId) :
    Waiting (Except Panic (Except Error (Option Nat))) :=
  (openVerified id "its exit cannot be observed").run.embed .os fun _ a => a

/-! ## `block_until_exit` -/

/-- The error of `POLLERR`. -/
def pollErr : Error :=
  .io (.other "pidfd poll returned POLLERR")

/-- What is made of the answer of `poll`. -/
def polledVerdict : Except Int (Option Bool) → Option (Except Error Bool)
  | .ok none => some (.ok false)
  | .ok (some err) => some (if err then .error pollErr else .ok true)
  | .error errno =>
      if errno = eintr then none else some (.error (.io (.os errno)))

/-- What the poll of a round makes of the loop. -/
def afterPoll (again : Waiting (Option (Except Error Bool))) :
    Option (Except Error Bool) → Waiting (Option (Except Error Bool))
  | some verdict => return some verdict
  | none => again

/-- The loop of `block_until_exit`. -/
def pollLoop (pidfd : Nat) (deadline : Option (Option Instant)) :
    Nat → Waiting (Option (Except Error Bool))
  | 0 => return none
  | fuel + 1 => do
      let left ← remaining (query WaitCall.now) deadline
      let polled : Except Int (Option Bool) ←
        query (WaitCall.poll pidfd (left.map timespecOf))
      afterPoll (pollLoop pidfd deadline fuel) (polledVerdict polled)

/-- What follows `open_verified`. -/
def pollOpened (deadline : Option (Option Instant)) (fuel : Nat) :
    Except Panic (Except Error (Option Nat)) →
      Waiting (Except Panic (Option (Except Error Bool)))
  | .error panic => return .error panic
  | .ok (.error e) => return .ok (some (.error e))
  | .ok (.ok none) => return .ok (some (.ok true))
  | .ok (.ok (some pidfd)) => do
      let verdict ← pollLoop pidfd deadline fuel
      return .ok verdict

/-- `wait::linux::block_until_exit`. -/
def blockUntilExit (id : ProcessId) (deadline : Option (Option Instant))
    (fuel : Nat) : Waiting (Except Panic (Option (Except Error Bool))) := do
  let pidfd ← opened id
  pollOpened deadline fuel pidfd

/-! ## `exit_watch` and `grace_wait` -/

/-- `classify_pidfd_ready`. -/
def classifyPidfdReady (ready : Ready) : Option (Except Error Unit) :=
  if ready.error then some (.error pollErr)
  else if ready.readable || ready.readClosed then some (.ok ())
  else none

/-- How a watch ends: it is out of rounds, it is dropped by the timeout, or it
resolves. -/
inductive Watched where
  | out
  | dropped
  | resolved (result : Except Error Unit)

/-- What a classified readiness makes of the loop. -/
def afterClassified (pidfd : Nat) (again : Waiting Watched) :
    Option (Except Error Unit) → Waiting Watched
  | some verdict => return .resolved verdict
  | none => do
      let _ : Unit ← query (WaitCall.clearReady pidfd)
      again

/-- What a readiness makes of the loop. -/
def afterReady (pidfd : Nat) (again : Waiting Watched) :
    Option (Except IoError Ready) → Waiting Watched
  | none => return .dropped
  | some (.error e) => return .resolved (.error (.io e))
  | some (.ok ready) => afterClassified pidfd again (classifyPidfdReady ready)

/-- The loop of `exit_watch`. -/
def readyLoop (pidfd : Nat) : Nat → Waiting Watched
  | 0 => return .out
  | fuel + 1 => do
      let ready : Option (Except IoError Ready) ←
        query (WaitCall.ready pidfd)
      afterReady pidfd (readyLoop pidfd fuel) ready

/-- What follows the registration. -/
def readyRegistered (pidfd fuel : Nat) :
    Except IoError Unit → Waiting Watched
  | .error e => return .resolved (.error (.io e))
  | .ok () => readyLoop pidfd fuel

/-- What follows `open_verified`. -/
def readyOpened (fuel : Nat) :
    Except Panic (Except Error (Option Nat)) →
      Waiting (Except Panic Watched)
  | .error panic => return .error panic
  | .ok (.error e) => return .ok (.resolved (.error e))
  | .ok (.ok none) => return .ok (.resolved (.ok ()))
  | .ok (.ok (some pidfd)) => do
      let registered : Except IoError Unit ← query (WaitCall.register pidfd)
      let watched ← readyRegistered pidfd fuel registered
      return .ok watched

/-- `exit_watch`. -/
def exitWatch (id : ProcessId) (fuel : Nat) :
    Waiting (Except Panic Watched) := do
  let pidfd ← opened id
  readyOpened fuel pidfd

/-- What `grace_wait` makes of the watch. -/
def Watched.verdict : Watched → Option (Except Error Bool)
  | .out => none
  | .dropped => some (.ok false)
  | .resolved result => some (result.map fun _ => true)

/-- `grace_wait`: no grace at all is one probe. -/
def graceWait (id : ProcessId) (grace fuel : Nat) :
    Waiting (Except Panic (Option (Except Error Bool))) :=
  if grace = 0 then do
    let now : Instant ← query WaitCall.now
    blockUntilExit id (some (some now)) fuel
  else do
    let _ : Unit ← query (WaitCall.timeout grace)
    let watched ← exitWatch id fuel
    return watched.map Watched.verdict

/-! ## The host -/

/-- A host with a clock, the timer of the timeout, and how often a wait was
interrupted. -/
structure TimedHost where
  host : Host
  time : Clock
  timer : Option Nat
  interrupts : Nat

/-- A call returns. -/
def TimedHost.back (k : TimedHost) : TimedHost :=
  { k with time := k.time.back }

/-- What happens by itself. -/
inductive TimedHost.Moves : TimedHost → TimedHost → Prop where
  | host (k : TimedHost) (h : Host) (hmove : Host.Moves k.host h) :
      Moves k { k with host := h }
  | pass (k : TimedHost) (now : Nat) (h : k.time.now ≤ now) :
      Moves k { k with time := k.time.pass now h }

/-- The process that a descriptor was opened on has exited. -/
def TimedHost.tellsExit (k : TimedHost) (pidfd : Nat) : Prop :=
  ∃ p, k.host.pinned pidfd = some p ∧ p ∈ k.host.exited

/-- What the host answers.  A poll gives up only when its time is over and the
process has not exited; a descriptor is ready without an error once the process
has exited. -/
def TimedHost.serves (k : TimedHost) :
    (q : WaitCall) → q.Reply → TimedHost → Prop
  | .os question, answer, k' =>
      k.host.linuxServes question answer k'.host ∧ k'.time = k.time.back ∧
        k'.timer = k.timer ∧ k'.interrupts = k.interrupts
  | .now, now, k' => now.nanos = k.time.now ∧ k' = k.back
  | .poll pidfd time, .ok none, k' =>
      (∃ t, time = some t ∧ k.time.returned + t.nanos ≤ k.time.now) ∧
        (∃ p, k.host.pinned pidfd = some p ∧ p ∉ k.host.exited) ∧ k' = k.back
  | .poll pidfd _, .ok (some err), k' =>
      (err = false → k.tellsExit pidfd) ∧ k' = k.back
  | .poll .., .error _, k' =>
      k' = { k.back with interrupts := k.interrupts + 1 }
  | .timeout grace, (), k' =>
      k' = { k.back with timer := some (k.time.now + grace) }
  | .register _, _, k' => k' = k.back
  | .ready _, none, k' =>
      (∃ due, k.timer = some due ∧ due ≤ k.time.now) ∧ k' = k.back
  | .ready pidfd, some (.ok ready), k' =>
      (ready.error = false → ready.readable || ready.readClosed →
        k.tellsExit pidfd) ∧ k' = k.back
  | .ready _, some (.error _), k' => k' = k.back
  | .clearReady _, (), k' => k' = k.back

/-- The host as an environment. -/
abbrev pidfds : Environment WaitCall.Reply TimedHost where
  serves := TimedHost.serves
  moves := TimedHost.Moves

/-- A host and the hosts that it has been. -/
abbrev Recorded := TimedHost × List TimedHost

end Cosca.Ports.PidfdWait
