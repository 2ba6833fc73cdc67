import Mathlib.Logic.Function.Basic
import Cosca.Ports.ChildRelease
import Cosca.Ports.CreationFlags
import Cosca.Verified.Rely

/-!
# Attaching a job

What a Windows spawn does once `CreateProcess` has returned: `attach_job` of
`containment/windows.rs` assigns the suspended child to a job that kills on
close and resumes its threads, `attach_tree` of `dispatch.rs` falls back to the
tree walk, and `spawn_unelevated` and `spawn_raw` tear a child down that they
cannot hand out.

The host goes on meanwhile: processes fork, start and end threads and exit, and
the numbers of what has ended are given out again.  A process is in the job if
it was assigned or if it was forked in it; the job permits no breakaway.
-/

namespace Cosca.Ports.AttachJob

open Cosca.Ports.CommandRecord
open Cosca.Ports.Errors
open Cosca.Ports.Identity
open Cosca.Ports.ChildRelease (Attached Containment)
open Cosca.Ports.CreationFlags
open Cosca.Ports.Shutdown (GracefulMechanism)
open Cosca.Ports.StartToken (HResult HResult.io)
open Cosca.Verified.Interact

/-! ## Calls -/

/-- A `HANDLE`. -/
abbrev Handle := UInt64

/-- `THREADENTRY32`. -/
structure ThreadEntry where
  threadId : UInt32
  ownerProcessId : RawPid
  deriving DecidableEq

/-- A snapshot of the threads: what `Thread32First` and `Thread32Next` list, and
the error that ends the list. -/
structure Snapshot where
  handle : Handle
  entries : List ThreadEntry
  stop : HResult

/-- The calls of a spawn after `CreateProcess`. -/
inductive AttachCall where
  | createJobObject
  | setInformationJobObject (job : Handle) (limitFlags : UInt32)
  /-- `AssignProcessToJobObject`, of the child. -/
  | assignProcessToJobObject (job : Handle)
  | terminateJobObject (job : Handle) (code : UInt32)
  | closeHandle (handle : Handle)
  /-- `GetProcessId`, of the child's handle. -/
  | getProcessId
  | createToolhelp32Snapshot
  | openThread (threadId : UInt32)
  | resumeThread (thread : Handle)
  | lastError
  /-- `ProcessId::of`. -/
  | identityOf (pid : RawPid)
  /-- The kill and the wait of the child's handle. -/
  | kill
  | wait
  /-- `SharedChild::new`. -/
  | adopt

abbrev AttachCall.Reply : AttachCall → Type
  | .createJobObject => Except HResult Handle
  | .setInformationJobObject .. => Except HResult Unit
  | .assignProcessToJobObject _ => Except HResult Unit
  | .terminateJobObject .. => Except HResult Unit
  | .closeHandle _ => Except HResult Unit
  | .getProcessId => RawPid
  | .createToolhelp32Snapshot => Except HResult Snapshot
  | .openThread _ => Except HResult Handle
  | .resumeThread _ => UInt32
  | .lastError => IoError
  | .identityOf _ => Resolved ProcessId
  | .kill => Except IoError Unit
  | .wait => Except IoError Unit
  | .adopt => Except IoError Unit

/-- A program that makes these calls. -/
abbrev Attaching := Prog AttachCall AttachCall.Reply

abbrev call (c : AttachCall) : Attaching c.Reply :=
  query c

def close (handle : Handle) : Attaching Unit := do
  let _ ← call (.closeHandle handle)
  return ()

/-! ## `attach_job` -/

/-- `JOB_OBJECT_LIMIT_KILL_ON_JOB_CLOSE`. -/
def jobObjectLimitKillOnJobClose : UInt32 := 0x2000

/-- `assign_to_kill_on_close_job`. -/
def assignToKillOnCloseJob : Attaching (Except IoError Handle) := do
  let created : Except HResult Handle ← call .createJobObject
  match created with
  | .error e => return .error (HResult.io e)
  | .ok job => do
      let set : Except HResult Unit ←
        call (.setInformationJobObject job jobObjectLimitKillOnJobClose)
      match set with
      | .error e => do
          close job
          return .error (HResult.io e)
      | .ok _ => do
          let assigned : Except HResult Unit ←
            call (.assignProcessToJobObject job)
          match assigned with
          | .error e => do
              close job
              return .error (HResult.io e)
          | .ok _ => return .ok job

/-- What `ResumeThread` counts for: its failure is `u32::MAX`. -/
def counted (acc : Nat × Option IoError) (previous : UInt32) :
    Attaching (Nat × Option IoError) :=
  if previous = 0xffffffff then do
    let e : IoError ← call .lastError
    return (acc.1, some e)
  else return (acc.1 + 1, acc.2)

/-- The body of the walk: how many threads were resumed, and the last failure
to open or to resume one. -/
def resumeEntry (pid : RawPid) (acc : Nat × Option IoError)
    (entry : ThreadEntry) : Attaching (Nat × Option IoError) :=
  if entry.ownerProcessId = pid then do
    let opened : Except HResult Handle ← call (.openThread entry.threadId)
    match opened with
    | .error e => return (acc.1, some (HResult.io e))
    | .ok thread => do
        let previous : UInt32 ← call (.resumeThread thread)
        let acc ← counted acc previous
        close thread
        return acc
  else return acc

/-- `ERROR_NO_MORE_FILES`. -/
def endOfWalk : HResult :=
  HResult.fromWin32 18

/-- What the walk amounts to. -/
def walked (stop : HResult) (acc : Nat × Option IoError) :
    Except IoError Unit :=
  if stop ≠ endOfWalk then .error (HResult.io stop)
  else
    match acc.2 with
    | some e => .error e
    | none =>
        if acc.1 = 0 then .error (IoError.other "no suspended threads resumed")
        else .ok ()

/-- `resume_initial_threads`. -/
def resumeInitialThreads : Attaching (Except IoError Unit) := do
  let pid : RawPid ← call .getProcessId
  let snap : Except HResult Snapshot ← call .createToolhelp32Snapshot
  match snap with
  | .error e => return .error (HResult.io e)
  | .ok snap => do
      let acc ← snap.entries.foldlM (resumeEntry pid) (0, none)
      close snap.handle
      return walked snap.stop acc

/-- `JobHandle::hard_kill` of a handle that nobody else has. -/
def hardKill (job : Handle) : Attaching (Except IoError Unit) := do
  let terminated : Except HResult Unit ← call (.terminateJobObject job 1)
  close job
  return terminated.mapError HResult.io

/-- The kill of a job whose child could not be resumed. -/
def abandon : Except IoError Handle → Attaching Unit
  | .ok job => do
      let _ ← hardKill job
      return ()
  | .error _ => return ()

/-- `attach_job`. -/
def attachJob : Attaching (Except IoError (Option Handle)) := do
  let job ← assignToKillOnCloseJob
  let resumed ← resumeInitialThreads
  match resumed with
  | .error e => do
      abandon job
      return .error e
  | .ok _ => return .ok job.toOption

/-! ## The spawn -/

/-- `Prepared`. -/
structure Prepared where
  mode : Option ContainMode
  isRoot : Bool
  graceful : GracefulMechanism

/-- `Attachment`. -/
structure Attachment where
  containment : Containment
  attached : Attached
  graceful : GracefulMechanism

/-- `resolve_root_id`. -/
def resolveRootId (pid : RawPid) : Attaching (Except Error ProcessId) := do
  let id : Resolved ProcessId ← call (.identityOf pid)
  match id with
  | .found id => return .ok id
  | .gone => return .error (.containment
      "tree-walk root vanished before its identity could be read")
  | .unknown => return .error (.unassessable
      ("tree-walk root pid " ++ toString pid ++ " identity could not be read")
      none)

/-- The tree walk from the child. -/
def treeWalk (pid : RawPid) :
    Attaching (Except Error (Containment × Attached)) := do
  let id ← resolveRootId pid
  return id.map fun id => (.treeWalk, .treeWalk id)

/-- `attach_tree` on Windows; `text` is the `Display` of an `io::Error`. -/
def attachTree (text : IoError → String) (pid : RawPid) (prepared : Prepared) :
    Attaching (Except Error (Containment × Attached)) :=
  match prepared.mode with
  | none => return .ok (.none, .none)
  | some mode =>
      if prepared.isRoot then
        if mode = .treeWalk then treeWalk pid
        else do
          let job ← attachJob
          match job with
          | .ok (some job) =>
              return .ok (.jobObject, .jobObject ⟨some job⟩)
          | .ok none => treeWalk pid
          | .error e => return .error (.containment (text e))
      else return .ok (.delegated, .delegated)

/-- `attach`. -/
def attach (text : IoError → String) (pid : RawPid) (prepared : Prepared) :
    Attaching (Except Error Attachment) := do
  let tree ← attachTree text pid prepared
  return tree.map fun (containment, attached) =>
    ⟨containment, attached, prepared.graceful⟩

/-- The teardown of a child that is not handed out; the raw one does not wait
for a child that it could not kill. -/
def teardown (backend : SpawnBackend) : Attaching Unit := do
  let killed : Except IoError Unit ← call .kill
  match backend, killed with
  | .raw, .error _ => return ()
  | _, _ => do
      let _ ← call .wait
      return ()

/-- The drop of what is attached: only a job has a handle. -/
def dropAttached : Attached → Attaching Unit
  | .jobObject ⟨some job⟩ => close job
  | _ => return ()

/-- `spawn_identity_error`. -/
def spawnIdentityError : Resolved ProcessId → Error
  | .unknown => .unassessable
      "the OS refused to report the spawned child's identity" none
  | _ => .io (IoError.other
      "spawned child vanished before its identity could be read")

/-- `SharedChild::new`, which the raw backend does without. -/
def adopt (backend : SpawnBackend) : Attaching (Except IoError Unit) :=
  match backend with
  | .std => call .adopt
  | .raw => return .ok ()

/-- The end of a spawn with its child attached: the identity is read, and the
child is adopted. -/
def identify (backend : SpawnBackend) (pid : RawPid) (attachment : Attachment) :
    Attaching (Except Error (ProcessId × Attachment)) := do
  let id : Resolved ProcessId ← call (.identityOf pid)
  match id with
  | .found id => do
      let adopted ← adopt backend
      match adopted with
      | .ok _ => return .ok (id, attachment)
      | .error e => do
          dropAttached attachment.attached
          return .error (.io e)
  | other => do
      teardown backend
      dropAttached attachment.attached
      return .error (spawnIdentityError other)

/-- `spawn_unelevated` and `spawn_raw`, from the child that `CreateProcess` has
returned. -/
def spawnTail (text : IoError → String) (backend : SpawnBackend)
    (pid : RawPid) (prepared : Prepared) :
    Attaching (Except Error (ProcessId × Attachment)) := do
  let attachment ← attach text pid prepared
  match attachment with
  | .error e => do
      teardown backend
      return .error e
  | .ok attachment => identify backend pid attachment

/-! ## The host -/

/-- A process: whether it is the child or comes from it, and whether it is in
the job. -/
structure Process where
  tree : Bool
  inJob : Bool

/-- A thread; `held` is what its creator's suspension leaves until the first
resume. -/
structure Thread where
  threadId : UInt32
  owner : RawPid
  held : Bool

/-- The job that the spawn has created. -/
structure JobObject where
  limits : UInt32
  terminated : Bool

/-- What a handle is open on. -/
inductive Obj where
  | job
  | snapshot
  | thread (key : Nat)
  deriving DecidableEq

/-- A failed call that the code does nothing about. -/
inductive Failure where
  | terminate
  | close (handle : Handle)
  | kill
  | wait
  | adopt
  deriving DecidableEq

/-- The processes, the threads, and what the spawn has open. -/
structure Host where
  processes : RawPid → Option Process
  threads : Nat → Option Thread
  job : Option JobObject
  handles : Handle → Option Obj
  failures : List Failure

/-- A handle is opened. -/
def Host.open (k : Host) (h : Handle) (obj : Obj) : Host :=
  { k with handles := Function.update k.handles h (some obj) }

/-- A handle is closed. -/
def Host.close (k : Host) (h : Handle) : Host :=
  { k with handles := Function.update k.handles h none }

/-- A call has failed. -/
def Host.fail (k : Host) (failure : Failure) : Host :=
  { k with failures := k.failures ++ [failure] }

/-- A process is put into the job, unless it is gone. -/
def Host.assign (k : Host) (pid : RawPid) : Host :=
  { k with
    processes := Function.update k.processes pid
      ((k.processes pid).map fun p => { p with inJob := true }) }

/-- A thread is resumed, unless it has ended. -/
def Host.wake (k : Host) (key : Nat) : Host :=
  { k with
    threads := Function.update k.threads key
      ((k.threads key).map fun t => { t with held := false }) }

/-- How Windows answers the spawn of the child `pid`.  A new handle has any
value that is free; a snapshot lists every thread there is, unless its list
breaks off; a wait is over when the child is gone. -/
def Host.serves (pid : RawPid) (k : Host) : (c : AttachCall) → c.Reply →
    Host → Prop
  | .createJobObject, .ok job, k' =>
      k.handles job = none ∧
        k' = { k.open job .job with job := some ⟨0, false⟩ }
  | .setInformationJobObject job limits, .ok (), k' =>
      k.handles job = some .job ∧
        k' = { k with job := k.job.map fun j => { j with limits := limits } }
  | .assignProcessToJobObject job, .ok (), k' =>
      k.handles job = some .job ∧ k' = k.assign pid
  | .terminateJobObject job _, .ok (), k' =>
      k.handles job = some .job ∧
        k' = { k with job := k.job.map fun j => { j with terminated := true } }
  | .terminateJobObject .., .error _, k' => k' = k.fail .terminate
  | .closeHandle h, .ok (), k' => k' = k.close h
  | .closeHandle h, .error _, k' => k' = k.fail (.close h)
  | .getProcessId, answer, k' => answer = pid ∧ k' = k
  | .createToolhelp32Snapshot, .ok snap, k' =>
      k.handles snap.handle = none ∧ k' = k.open snap.handle .snapshot ∧
        (∀ entry ∈ snap.entries, ∃ key t, k.threads key = some t ∧
          entry = ⟨t.threadId, t.owner⟩) ∧
        (snap.stop = endOfWalk → ∀ key t, k.threads key = some t →
          ⟨t.threadId, t.owner⟩ ∈ snap.entries)
  | .openThread threadId, .ok h, k' =>
      k.handles h = none ∧ ∃ key t, k.threads key = some t ∧
        t.threadId = threadId ∧ k' = k.open h (.thread key)
  | .resumeThread h, previous, k' =>
      if previous = 0xffffffff then k' = k
      else ∃ key, k.handles h = some (.thread key) ∧ k' = k.wake key
  | .kill, .error _, k' => k' = k.fail .kill
  | .wait, .ok (), k' => k.processes pid = none ∧ k' = k
  | .wait, .error _, k' => k' = k.fail .wait
  | .adopt, .error _, k' => k' = k.fail .adopt
  | _, _, k' => k' = k

/-- A process goes, and its threads with it. -/
def Host.exit (k : Host) (pid : RawPid) : Host :=
  { k with
    processes := Function.update k.processes pid none
    threads := fun key => (k.threads key).filter (·.owner != pid) }

/-- A thread that is not suspended. -/
def Host.Awake (k : Host) (pid : RawPid) : Prop :=
  ∃ key t, k.threads key = some t ∧ t.owner = pid ∧ t.held = false

/-- A thread may have this number and this key. -/
structure Host.FreeThread (k : Host) (threadId : UInt32) (key : Nat) :
    Prop where
  free : k.threads key = none
  unpinned : ∀ h, k.handles h ≠ some (.thread key)
  distinct : ∀ key' t, k.threads key' = some t → t.threadId ≠ threadId

/-- What happens meanwhile.  Only what runs forks or starts threads; nobody else
resumes a thread of the child `pid`, whose number its handle pins. -/
inductive Host.Moves (pid : RawPid) : Host → Host → Prop where
  | fork (k : Host) (parent new : RawPid) (p : Process) (threadId : UInt32)
      (key : Nat) (held : Bool) (hparent : k.processes parent = some p)
      (hawake : k.Awake parent) (hfree : k.processes new = none)
      (hpinned : new ≠ pid) (hthread : k.FreeThread threadId key) :
      Moves pid k { k with
        processes := Function.update k.processes new (some p)
        threads := Function.update k.threads key
          (some ⟨threadId, new, held⟩) }
  | start (k : Host) (owner : RawPid) (threadId : UInt32) (key : Nat)
      (hawake : k.Awake owner) (hthread : k.FreeThread threadId key) :
      Moves pid k { k with
        threads := Function.update k.threads key
          (some ⟨threadId, owner, false⟩) }
  | stop (k : Host) (key : Nat) :
      Moves pid k { k with threads := Function.update k.threads key none }
  | exit (k : Host) (gone : RawPid) : Moves pid k (k.exit gone)
  | resume (k : Host) (key : Nat) (t : Thread) (ht : k.threads key = some t)
      (hother : t.owner ≠ pid) : Moves pid k (k.wake key)

/-- The host around the spawn of the child `pid`. -/
def spawning (pid : RawPid) : Environment AttachCall.Reply Host where
  serves := Host.serves pid
  moves := Host.Moves pid

end Cosca.Ports.AttachJob
