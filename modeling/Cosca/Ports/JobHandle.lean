import Cosca.Ports.JobDrain
import Cosca.Verified.Interleave

/-!
# `JobHandle`

`containment/windows.rs::JobHandle`: the handle to a job object, behind a lock,
that `hard_kill` and `Drop` take out and close, and that everybody else uses
under the lock.  A section under the lock is one question; the calls that are
made outside of it are questions of their own.

Handle values are given out again as soon as they are closed, so the host
remembers under every value which handle is open there.
-/

namespace Cosca.Ports.JobHandle

open Cosca.Ports.Errors
open Cosca.Ports.Identity
open Cosca.Ports.StartToken (HResult HResult.io)
open Cosca.Ports.JobDrain
open Cosca.Ports.ChildRelease (TreeDrain)
open Cosca.Verified.Interact

/-! ## The code -/

/-- The closures that `with_handle` is given; each makes one call on the job's
handle. -/
inductive Use where
  | disarm
  | duplicateJob
  | isProcessInJob (process : Handle)
  deriving DecidableEq

/-- The call a closure makes.  A zeroed limit clears `KILL_ON_JOB_CLOSE`. -/
def Use.call : Use → Handle → JobCall
  | .disarm, job => .setInformationJobObject job 0
  | .duplicateJob, job => .duplicateHandle job
  | .isProcessInJob process, job => .isProcessInJob process job

abbrev Use.Reply : Use → Type
  | .disarm => Except HResult Unit
  | .duplicateJob => Except HResult Handle
  | .isProcessInJob _ => Except HResult Bool

/-- The reply of the call as the closure's result. -/
def Use.result : (use : Use) → (job : Handle) → (use.call job).Reply →
    use.Reply
  | .disarm, _, reply => reply
  | .duplicateJob, _, reply => reply
  | .isProcessInJob _, _, reply => reply

inductive Question where
  /-- `with_handle`. -/
  | withHandle (use : Use)
  /-- `take`. -/
  | take
  /-- A call outside of the lock. -/
  | call (c : JobCall)
  /-- A wait that goes on; nothing answers it. -/
  | waiting

abbrev Answer : Question → Type
  | .withHandle use => Option use.Reply
  | .take => Option Handle
  | .call c => c.Reply
  | .waiting => Empty

/-- What one caller runs. -/
abbrev Calling := Prog Question Answer

abbrev ask (q : Question) : Calling (Answer q) :=
  query q

/-- Code that knows nothing of the lock. -/
def outside {α : Type} (p : Draining α) : Calling α :=
  p.embed Question.call fun _ a => a

/-- `JobHandle::hard_kill`. -/
def hardKill : Calling (Except IoError Unit) := do
  match ← ask .take with
  | none => return .ok ()
  | some job => do
      let terminated : Except HResult Unit ←
        ask (.call (.terminateJobObject job 1))
      let _ ← ask (.call (.closeHandle job))
      return terminated.mapError HResult.io

/-- `JobHandle::disarm`. -/
def disarm : Calling Unit := do
  let _ ← ask (.withHandle .disarm)
  return ()

/-- `Drop for JobHandle`. -/
def drop : Calling Unit := do
  match ← ask .take with
  | none => return ()
  | some job => do
      let _ ← ask (.call (.closeHandle job))
      return ()

/-- `consumed_job_handle_error`. -/
def consumedJobHandleError : Error :=
  .unassessable "the job handle was already closed (kill_tree()/hard_kill(), or the owning Child/Job was dropped) before this drain check ran; whether every member has actually finished exiting can no longer be observed"
    none

/-- The end of `wait_drained` on the duplicate it owns. -/
def drained (dup : Handle) :
    Option (Except Error TreeDrain) → Calling (Except Error TreeDrain)
  | none => do
      let never : Empty ← ask .waiting
      nomatch never
  | some result => do
      let _ ← ask (.call (.closeHandle dup))
      return result

/-- `JobHandle::wait_drained`. -/
def waitDrained (deadline : Option (Option Nat)) (cancel : Bool)
    (fuel : Nat) : Calling (Except Error TreeDrain) := do
  match ← ask (.withHandle .duplicateJob) with
  | none => return .error consumedJobHandleError
  | some (.error e) => return .error (.io (HResult.io e))
  | some (.ok dup) => do
      let ended ← outside (waitDrainedRaw dup deadline cancel fuel)
      drained dup ended

/-- `PROCESS_QUERY_INFORMATION`. -/
def processQueryInformation : UInt32 := 0x400

/-- The answer of `IsProcessInJob`, where it was asked. -/
def inJob : Option (Except HResult Bool) → Bool
  | some (.ok inJob) => inJob
  | _ => false

/-- `job_contains_pid`. -/
def jobContainsPid (pid : RawPid) : Calling Bool := do
  let opened : Except HResult Handle ←
    ask (.call (.openProcess processQueryInformation pid))
  match opened with
  | .error _ => return false
  | .ok process => do
      let queried : Option (Except HResult Bool) ←
        ask (.withHandle (.isProcessInJob process))
      let _ ← ask (.call (.closeHandle process))
      return inJob queried

/-! ## Callers -/

/-- What callers do with a shared `JobHandle`. -/
inductive Op where
  | disarm
  | waitDrained (deadline : Option (Option Nat)) (cancel : Bool) (fuel : Nat)
  | jobContainsPid (pid : RawPid)
  | hardKill

abbrev Op.Result : Op → Type
  | .disarm => Unit
  | .waitDrained .. => Except Error TreeDrain
  | .jobContainsPid _ => Bool
  | .hardKill => Except IoError Unit

def Op.body : (op : Op) → Calling op.Result
  | .disarm => JobHandle.disarm
  | .waitDrained deadline cancel fuel =>
      JobHandle.waitDrained deadline cancel fuel
  | .jobContainsPid pid => JobHandle.jobContainsPid pid
  | .hardKill => JobHandle.hardKill

/-- What an operation returns that finds the handle consumed. -/
def Op.consumed : (op : Op) → op.Result
  | .disarm => ()
  | .waitDrained .. => .error consumedJobHandleError
  | .jobContainsPid _ => false
  | .hardKill => .ok ()

/-! ## The host -/

/-- Who may use and close an open handle. -/
inductive Owner (C : Type) where
  /-- The `JobHandle`, for everybody under its lock. -/
  | jobHandle
  | caller (c : C)
  /-- Other code of the process. -/
  | others
  | nobody
  deriving DecidableEq

/-- A call that was made: by whom, whether every handle it was made on was open
then, and whether the job's handle had been taken. -/
structure Made (C : Type) where
  caller : C
  call : JobCall
  live : Bool
  taken : Bool

/-- The lock's content, the handles of the process, and what has happened. -/
structure Host (C : Type) where
  raw : Option Handle
  /-- Which opened handle is open under a value. -/
  table : Nat → Option Nat
  /-- How many handles were opened. -/
  opened : Nat
  owner : Nat → Owner C
  taker : Option C
  made : List (Made C)

section

variable {C : Type}

/-- The handle is open. -/
def Host.IsOpen (k : Host C) (h : Handle) : Prop :=
  k.table h.value = some h.opened

instance (k : Host C) (h : Handle) : Decidable (k.IsOpen h) :=
  inferInstanceAs (Decidable (_ = _))

/-- `JobHandle::new` in a process with no other handle. -/
def Host.new (value : Nat) : Host C where
  raw := some ⟨value, 0⟩
  table := fun v => if v = value then some 0 else none
  opened := 1
  owner := fun i => if i = 0 then .jobHandle else .nobody
  taker := none
  made := []

/-- The handle a value is opened as. -/
def Host.fresh (k : Host C) (value : Nat) : Handle :=
  ⟨value, k.opened⟩

/-- A handle is opened. -/
def Host.open (k : Host C) (value : Nat) (owner : Owner C) : Host C :=
  { k with
    table := fun v => if v = value then some k.opened else k.table v
    opened := k.opened + 1
    owner := fun i => if i = k.opened then owner else k.owner i }

/-- Whatever is open under the value is closed. -/
def Host.close (k : Host C) (value : Nat) : Host C :=
  { k with table := fun v => if v = value then none else k.table v }

/-- The caller gives a handle up. -/
def Host.giveUp (k : Host C) (h : Handle) : Host C :=
  { k with owner := fun i => if i = h.opened then .nobody else k.owner i }

/-- A call is recorded. -/
def Host.record (k : Host C) (c : C) (call : JobCall) : Host C :=
  { k with made := k.made ++ [⟨c, call,
      call.handles.all fun h => decide (k.IsOpen h), k.raw.isNone⟩] }

/-- How Windows answers.  A new handle may get any value that is free; closing
closes what is open under the value, and a close that fails leaks it. -/
def Host.answers (c : C) (k : Host C) :
    (call : JobCall) → call.Reply → Host C → Prop
  | .duplicateHandle job, .ok dup, k' =>
      k.table dup.value = none ∧ dup = k.fresh dup.value ∧
        k' = (k.record c (.duplicateHandle job)).open dup.value (.caller c)
  | .openProcess mask pid, .ok process, k' =>
      k.table process.value = none ∧ process = k.fresh process.value ∧
        k' = (k.record c (.openProcess mask pid)).open process.value
          (.caller c)
  | .closeHandle h, .ok (), k' =>
      k' = ((k.record c (.closeHandle h)).close h.value).giveUp h
  | .closeHandle h, .error _, k' =>
      k' = (k.record c (.closeHandle h)).giveUp h
  | call, _, k' => k' = k.record c call

/-- The section of `with_handle`. -/
def Host.withHandle (c : C) (k : Host C) (use : Use)
    (answer : Option use.Reply) (k' : Host C) : Prop :=
  match k.raw with
  | none => answer = none ∧ k' = k
  | some job => ∃ reply, answer = some (use.result job reply) ∧
      k.answers c (use.call job) reply k'

/-- The lock is left empty, and the handle is the caller's from now on. -/
def Host.handOver (k : Host C) (c : C) (job : Handle) : Host C :=
  { k with
    raw := none
    owner := fun i => if i = job.opened then .caller c else k.owner i
    taker := some c }

/-- The section of `take`. -/
def Host.take (c : C) (k : Host C) (answer : Option Handle) (k' : Host C) :
    Prop :=
  answer = k.raw ∧
    match k.raw with
    | none => k' = k
    | some job => k' = k.handOver c job

def Host.serves (c : C) (k : Host C) : (q : Question) → Answer q → Host C →
    Prop
  | .withHandle use, answer, k' => k.withHandle c use answer k'
  | .take, answer, k' => k.take c answer k'
  | .call call, reply, k' => k.answers c call reply k'
  | .waiting, _, _ => False

/-- Other code of the process opens and closes handles of its own. -/
inductive Host.Moves : Host C → Host C → Prop where
  | open (k : Host C) (value : Nat) (hfree : k.table value = none) :
      Moves k (k.open value .others)
  | close (k : Host C) (value i : Nat) (hopen : k.table value = some i)
      (howner : k.owner i = .others) : Moves k (k.close value)

end

/-! ## The object's life -/

section

variable {ι : Type}

/-- The operations `ι`, of any number, and the drop at the end. -/
abbrev Caller (ι : Type) := Option ι

abbrev Result (ops : ι → Op) : Caller ι → Type
  | some i => (ops i).Result
  | none => Unit

/-- What a caller runs. -/
def run (ops : ι → Op) : (c : Caller ι) → Calling (Result ops c)
  | some i => (ops i).body
  | none => drop

/-- The shared `JobHandle`, with the operations on it. -/
def sharing (ops : ι → Op) :
    System (Caller ι) Answer (Host (Caller ι)) (Result ops) where
  serves := Host.serves
  moves := Host.Moves
  body := run ops

/-- The object is dropped when nobody uses it, and not used afterwards. -/
def mayStart {ops : ι → Op}
    (cfg : Config (Caller ι) Answer (Host (Caller ι)) (Result ops)) :
    Caller ι → Prop
  | none => ∀ i, ¬ (cfg.calls (some i)).isRunning
  | some _ => ¬ (cfg.calls none).isStarted

end

end Cosca.Ports.JobHandle
