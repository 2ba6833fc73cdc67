import Cosca.Ports.ChildRelease
import Cosca.Ports.PinnedHost

/-!
# Waiting for a job to drain

`containment/windows.rs::wait_drained_raw`: round after round the job's members
are enumerated, opened, confirmed to be in the job and waited for, all of it on
one handle to the job.  The calls are questions to Windows.  The rounds, and
the retries of an enumeration whose buffer was too small, run on fuel; `none`
means that the wait still goes on.
-/

namespace Cosca.Ports.JobDrain

open Cosca.Ports.Errors
open Cosca.Ports.Identity
open Cosca.Ports.StartToken (HResult HResult.io invalidParameterHresult)
open Cosca.Ports.PinnedHost (processQueryLimitedInformation processSynchronize
  waitObject0 waitTimeout)
open Cosca.Ports.ChildRelease (TreeDrain)
open Cosca.Verified.Interact

/-! ## Calls -/

/-- A `HANDLE`.  The code has only its value; `opened` tells the handles apart
that were given out under one value. -/
structure Handle where
  value : Nat
  opened : Nat
  deriving DecidableEq, Repr

/-- `WAIT_FAILED` and `INFINITE`. -/
def waitFailed : UInt32 := 0xffffffff
def infinite : UInt32 := 0xffffffff

/-- The calls of the job code.  The cancel event belongs to the caller, and a
wait only says whether it was given. -/
inductive JobCall where
  | setInformationJobObject (job : Handle) (limitFlags : UInt32)
  | duplicateHandle (job : Handle)
  | isProcessInJob (process job : Handle)
  /-- `QueryInformationJobObject` for the process ids, with room for so many. -/
  | queryProcessIds (job : Handle) (capacity : Nat)
  | terminateJobObject (job : Handle) (code : UInt32)
  | closeHandle (handle : Handle)
  | openProcess (mask : UInt32) (pid : RawPid)
  | waitForMultipleObjects (handles : List Handle) (cancel : Bool)
      (ms : UInt32)
  /-- `WaitForSingleObject` on the cancel event, for 0 ms. -/
  | cancelState
  | lastError
  /-- `Instant::now`, in nanoseconds. -/
  | now
  deriving DecidableEq

/-- What `QueryInformationJobObject` wrote: the number of assigned processes,
and the ids in the list unless it failed. -/
structure ProcessIds where
  assigned : Nat
  listed : Option (List RawPid)
  deriving DecidableEq, Repr

abbrev JobCall.Reply : JobCall → Type
  | .setInformationJobObject .. => Except HResult Unit
  | .duplicateHandle _ => Except HResult Handle
  | .isProcessInJob .. => Except HResult Bool
  | .queryProcessIds .. => ProcessIds
  | .terminateJobObject .. => Except HResult Unit
  | .closeHandle _ => Except HResult Unit
  | .openProcess .. => Except HResult Handle
  | .waitForMultipleObjects .. => UInt32
  | .cancelState => UInt32
  | .lastError => IoError
  | .now => Nat

/-- The handles a call is made on. -/
def JobCall.handles : JobCall → List Handle
  | .setInformationJobObject job _ => [job]
  | .duplicateHandle job => [job]
  | .isProcessInJob process job => [process, job]
  | .queryProcessIds job _ => [job]
  | .terminateJobObject job _ => [job]
  | .closeHandle handle => [handle]
  | .waitForMultipleObjects handles .. => handles
  | .openProcess .. | .cancelState | .lastError | .now => []

/-- A program that calls Windows. -/
abbrev Draining := Prog JobCall JobCall.Reply

abbrev call (c : JobCall) : Draining c.Reply :=
  query c

def close (handle : Handle) : Draining Unit := do
  let _ ← call (.closeHandle handle)
  return ()

/-! ## `wait_drained_raw` -/

/-- The loop of `query_job_pid_list`, with room for `capacity` ids. -/
def queryJobPidListFrom (job : Handle) :
    Nat → Nat → Draining (Option (Except IoError (List RawPid)))
  | 0, _ => return none
  | fuel + 1, capacity => do
      let ids : ProcessIds ← call (.queryProcessIds job capacity)
      match ids.listed with
      | some pids => return some (.ok (pids.take capacity))
      | none =>
          if ids.assigned > capacity then
            queryJobPidListFrom job fuel ids.assigned
          else do
            let e : IoError ← call .lastError
            return some (.error e)

/-- `query_job_pid_list`. -/
def queryJobPidList (job : Handle) (fuel : Nat) :
    Draining (Option (Except IoError (List RawPid))) :=
  queryJobPidListFrom job fuel 64

/-- `wait::remaining`. -/
def remaining : Option (Option Nat) → Draining (Option Nat)
  | none | some none => return none
  | some (some deadline) => do
      let now : Nat ← call .now
      return some (deadline - now)

/-- The members a round opens: `MAXIMUM_WAIT_OBJECTS` less one, and one less
for the cancel event. -/
def budget (cancel : Bool) : Nat :=
  64 - 1 - (if cancel then 1 else 0)

/-- Whether the cancel event is signalled. -/
def isCancelled (cancel : Bool) : Draining Bool :=
  if cancel then do
    let state : UInt32 ← call .cancelState
    return state == waitObject0
  else return false

/-- The body of the loop over the pids: the handles to wait on, and the last
failure to open or to confirm a member. -/
def openMember (job : Handle) (acc : List Handle × Option IoError)
    (pid : RawPid) : Draining (List Handle × Option IoError) := do
  let opened : Except HResult Handle ← call (.openProcess
    (processSynchronize ||| processQueryLimitedInformation) pid)
  match opened with
  | .error e =>
      if e = invalidParameterHresult then return acc
      else return (acc.1, some (HResult.io e))
  | .ok handle => do
      let confirmed : Except HResult Bool ←
        call (.isProcessInJob handle job)
      match confirmed with
      | .ok true => return (acc.1 ++ [handle], acc.2)
      | .ok false => do
          close handle
          return acc
      | .error e => do
          close handle
          return (acc.1, some (HResult.io e))

/-- How a round ends. -/
inductive RoundEnd where
  | verdict (r : Except Error TreeDrain)
  | again

/-- A round that opened no member. -/
def nothingOpened (denied : Option IoError) (remaining : Option Nat) :
    RoundEnd :=
  match denied with
  | some e => .verdict (.error (.unassessable
      "could not open a handle to any live member of the contained tree to observe its exit"
      (some e)))
  | none =>
      if remaining = some 0 then .verdict (.ok .membersRemain) else .again

/-- The milliseconds of a wait. -/
def waitMs : Option Nat → UInt32
  | none => infinite
  | some d => (min (d / 1000000) (infinite.toNat - 1)).toUInt32

/-- The nanoseconds after which a wait for the time that is left is over. -/
def waitSpan (left : Nat) : Nat :=
  (waitMs (some left)).toNat * 1000000

/-- What the wait and, where it failed, the error say. -/
def waitEnd (handles : List Handle) (cancel : Bool) (waited : UInt32)
    (failed : Option IoError) : RoundEnd :=
  if waited = waitTimeout then .verdict (.ok .membersRemain)
  else
    match failed with
    | some e => .verdict (.error (.io e))
    | none =>
        if cancel ∧ (waited - waitObject0).toNat = handles.length then
          .verdict (.ok .membersRemain)
        else .again

/-- The error of a wait that failed. -/
def waitError (waited : UInt32) : Draining (Option IoError) :=
  if waited = waitFailed then do
    let e : IoError ← call .lastError
    return some e
  else return none

/-- The wait of a round. -/
def waitMembers (handles : List Handle) (cancel : Bool)
    (remaining : Option Nat) : Draining RoundEnd := do
  let waited : UInt32 ←
    call (.waitForMultipleObjects handles cancel (waitMs remaining))
  let failed ← waitError waited
  forM handles close
  return waitEnd handles cancel waited failed

/-- A round whose enumeration listed members. -/
def watchMembers (job : Handle) (deadline : Option (Option Nat))
    (cancel : Bool) (pids : List RawPid) : Draining RoundEnd := do
  let (handles, denied) ←
    (pids.take (budget cancel)).foldlM (openMember job) ([], none)
  let left ← remaining deadline
  if handles.isEmpty then return nothingOpened denied left
  else waitMembers handles cancel left

/-- One round. -/
def drainRound (job : Handle) (deadline : Option (Option Nat)) (cancel : Bool)
    (fuel : Nat) : Draining (Option RoundEnd) := do
  if ← isCancelled cancel then return some (.verdict (.ok .membersRemain))
  else
    match ← queryJobPidList job fuel with
    | none => return none
    | some (.error e) => return some (.verdict (.error (.io e)))
    | some (.ok []) => return some (.verdict (.ok .allMembersExited))
    | some (.ok (pid :: pids)) => do
        let ended ← watchMembers job deadline cancel (pid :: pids)
        return some ended

/-- `wait_drained_raw`. -/
def waitDrainedRaw (job : Handle) (deadline : Option (Option Nat))
    (cancel : Bool) : Nat → Draining (Option (Except Error TreeDrain))
  | 0 => return none
  | fuel + 1 => do
      match ← drainRound job deadline cancel fuel with
      | none => return none
      | some (.verdict r) => return some r
      | some .again => waitDrainedRaw job deadline cancel fuel

end Cosca.Ports.JobDrain
