import Cosca.Ports.ChildRelease

/-!
# The kqueue wait of macOS

`wait::macos::block_on_kqueue`, on which `block_until_exit` and
`marker_eof::block_until_drained` wait.  Whether the deadline has elapsed is
sampled before each `kevent` call and looked at after it, because a
continuously ready descriptor answers with events even at a zero timeout.

What `interpret` makes of an event is a question to the environment, so that
nothing is assumed of it.
-/

namespace Cosca.Ports.KqueueWait

open Cosca.Ports.Errors
open Cosca.Ports.Identity (ProcessId)
open Cosca.Ports.ChildRelease (TreeDrain)
open Cosca.Verified.Interact

/-! ## Calls -/

/-- `Instant`: nanoseconds, whose whole seconds fit an `i64`. -/
structure Instant where
  nanos : Nat
  fits : nanos < 2 ^ 63 * 1000000000

/-- `libc::timespec`. -/
structure Timespec where
  tvSec : Int64
  tvNsec : Int64
  deriving DecidableEq

/-- `KEvent`: what the interpretations read. -/
structure KEvent where
  flags : UInt16
  data : Int64
  deriving DecidableEq

/-- The calls of a wait; `arm` is that of `marker_eof`. -/
inductive KqueueCall where
  | now
  | kevent (timeout : Option Timespec)
  | interpret (event : KEvent)
  | armProcExit (id : ProcessId)
  | arm (unboundedWait : Bool)

/-- What a call returns, where the verdicts are of type `T`; `kevent` has room
for one event. -/
abbrev KqueueCall.Reply (T : Type) : KqueueCall → Type
  | .now => Instant
  | .kevent _ => Except Int (Option KEvent)
  | .interpret _ => Except Error (Option T)
  | .armProcExit _ => Except Error (Option Unit)
  | .arm _ => Except Error Unit

/-- A call and what it returned. -/
abbrev KqueueEvent (T : Type) := Event (KqueueCall.Reply T)

/-- A program that waits. -/
abbrev Blocking (T : Type) := Prog KqueueCall (KqueueCall.Reply T)

variable {T : Type}

/-! ## `block_on_kqueue` -/

/-- `EINTR`. -/
def eintr : Int := 4

/-- `wait::remaining`. -/
def remaining : Option (Option Instant) → Blocking T (Option Nat)
  | none | some none => return none
  | some (some due) => do
      let now : Instant ← query KqueueCall.now
      return some (due.nanos - now.nanos)

/-- The timeout of a round. -/
def timespecOf (d : Nat) : Timespec where
  tvSec := .ofNat (min (d / 1000000000) (2 ^ 63 - 1))
  tvNsec := .ofNat (d % 1000000000)

/-- What is made of an event; `again` is the loop. -/
def afterEvent (onTimeout : T) (alreadyElapsed : Bool)
    (again : Blocking T (Option (Except Error T))) :
    Except Error (Option T) → Blocking T (Option (Except Error T))
  | .error e => return some (.error e)
  | .ok (some verdict) => return some (.ok verdict)
  | .ok none =>
      if alreadyElapsed then return some (.ok onTimeout) else again

/-- What is made of the answer of `kevent`. -/
def afterWait (onTimeout : T) (alreadyElapsed : Bool)
    (again : Blocking T (Option (Except Error T))) :
    Except Int (Option KEvent) → Blocking T (Option (Except Error T))
  | .ok none => return some (.ok onTimeout)
  | .ok (some event) => do
      let interpreted : Except Error (Option T) ←
        query (KqueueCall.interpret event)
      afterEvent onTimeout alreadyElapsed again interpreted
  | .error errno =>
      if errno = eintr then again else return some (.error (.io (.os errno)))

/-- `block_on_kqueue`. -/
def blockOnKqueue (deadline : Option (Option Instant)) (onTimeout : T) :
    Nat → Blocking T (Option (Except Error T))
  | 0 => return none
  | fuel + 1 => do
      let left ← remaining deadline
      let alreadyElapsed := left == some 0
      let waited : Except Int (Option KEvent) ←
        query (KqueueCall.kevent (left.map timespecOf))
      afterWait onTimeout alreadyElapsed
        (blockOnKqueue deadline onTimeout fuel) waited

/-! ## Its callers -/

/-- `EvFlags::EV_ERROR`. -/
def evError : UInt16 := 0x4000

/-- `EvFlags::EV_EOF`. -/
def evEof : UInt16 := 0x8000

def KEvent.has (event : KEvent) (flag : UInt16) : Bool :=
  event.flags &&& flag == flag

/-- `Error::Io` of `event.data() as i32`. -/
def KEvent.error (event : KEvent) : Error :=
  .io (.os event.data.toInt32.toInt)

/-- The closure of `block_until_exit`. -/
def interpretExit (event : KEvent) : Except Error (Option Bool) :=
  if event.has evError then .error event.error else .ok (some true)

/-- `block_until_exit`: what is gone when it is armed has exited. -/
def blockUntilExit (id : ProcessId) (deadline : Option (Option Instant))
    (fuel : Nat) : Blocking Bool (Option (Except Error Bool)) := do
  let armed : Except Error (Option Unit) ← query (KqueueCall.armProcExit id)
  match armed with
  | .error e => return some (.error e)
  | .ok none => return some (.ok true)
  | .ok (some ()) => blockOnKqueue deadline false fuel

/-- `interpret_read_event`, where `drained` is what `drain_pending` returns. -/
def interpretReadEvent (event : KEvent) (unboundedWait : Bool)
    (drained : Except Error Unit) : Except Error (Option TreeDrain) :=
  if event.has evError then .error event.error
  else if event.has evEof then .ok (some .allMarkersClosed)
  else if unboundedWait then .ok none
  else drained.map fun _ => none

/-- `block_until_drained`. -/
def blockUntilDrained (deadline : Option (Option Instant)) (fuel : Nat) :
    Blocking TreeDrain (Option (Except Error TreeDrain)) := do
  let left ← remaining deadline
  let armed : Except Error Unit ← query (KqueueCall.arm left.isNone)
  match armed with
  | .error e => return some (.error e)
  | .ok () => blockOnKqueue deadline .membersRemain fuel

/-! ## Events -/

/-- A reading of the clock. -/
abbrev clockAt (now : Instant) : KqueueEvent T :=
  ⟨.now, now⟩

/-- The `kevent` call of a round. -/
abbrev waitFor (left : Option Nat) (waited : Except Int (Option KEvent)) :
    KqueueEvent T :=
  ⟨.kevent (left.map timespecOf), waited⟩

/-- The interpretation of an event. -/
abbrev interpretedAs (event : KEvent) (result : Except Error (Option T)) :
    KqueueEvent T :=
  ⟨.interpret event, result⟩

/-- What an event says of the time. -/
def reading : KqueueEvent T → Option Nat
  | ⟨.now, now⟩ => some now.nanos
  | _ => none

/-- The nanoseconds of a timeout. -/
def Timespec.nanos (t : Timespec) : Nat :=
  (t.tvSec.toInt * 1000000000 + t.tvNsec.toInt).toNat

/-- The time of a wait that timed out. -/
def timeout : KqueueEvent T → Option Nat
  | ⟨.kevent (some t), .ok none⟩ => some t.nanos
  | _ => none

/-- The event that a `kevent` call delivered. -/
def delivered : KqueueEvent T → Option KEvent
  | ⟨.kevent _, .ok (some event)⟩ => some event
  | _ => none

/-- The event that was interpreted. -/
def interpreted : KqueueEvent T → Option KEvent
  | ⟨.interpret event, _⟩ => some event
  | _ => none

/-- The verdict of a conclusive interpretation. -/
def verdict : KqueueEvent T → Option T
  | ⟨.interpret _, .ok v⟩ => v
  | _ => none

/-- The call is a `kevent`. -/
def isWait : KqueueEvent T → Bool
  | ⟨.kevent _, _⟩ => true
  | _ => false

theorem verdict_eq_some {e : KqueueEvent T} {v : T} (h : verdict e = some v) :
    ∃ event, e = interpretedAs event (.ok (some v)) := by
  unfold verdict at h
  split at h
  · next event w =>
      rw [h]
      exact ⟨event, rfl⟩
  · exact nomatch h

theorem interpreted_eq_some {e : KqueueEvent T} {event : KEvent}
    (h : interpreted e = some event) :
    ∃ result, e = interpretedAs event result := by
  unfold interpreted at h
  split at h
  · next event' result =>
      rw [Option.some.inj h]
      exact ⟨result, rfl⟩
  · exact nomatch h

/-- The time of a round is waited for to the nanosecond. -/
theorem timespecOf_nanos {d : Nat} (h : d < 2 ^ 63 * 1000000000) :
    (timespecOf d).nanos = d := by
  have hsecs : d / 1000000000 < 2 ^ 63 := by omega
  have hmin : min (d / 1000000000) (2 ^ 63 - 1) = d / 1000000000 := by omega
  have hrest : d % 1000000000 < 2 ^ 63 := by omega
  unfold Timespec.nanos timespecOf
  dsimp only
  rw [hmin, Int64.toInt_ofNat_of_lt hsecs, Int64.toInt_ofNat_of_lt hrest]
  omega

theorem timeout_waitFor (due now : Instant) :
    timeout (waitFor (some (due.nanos - now.nanos)) (.ok none) :
      KqueueEvent T) = some (due.nanos - now.nanos) := by
  have hdue := due.fits
  have hleft : due.nanos - now.nanos < 2 ^ 63 * 1000000000 := by omega
  exact congrArg some (timespecOf_nanos hleft)

end Cosca.Ports.KqueueWait
