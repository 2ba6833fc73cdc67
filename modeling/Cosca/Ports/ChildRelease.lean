import Cosca.Ports.CommandRecord
import Cosca.Ports.FdMarker
import Cosca.Verified.Interact

/-!
# Releasing a child handle

`Child` of `child.rs` as far as it decides what happens to the tree when the
handle goes: `detach`, `Drop for Child` and the drops of its fields after it
(`CgroupLeaf`, `JobHandle`), `Attached::disarm` and `Attached::hard_kill`, and
the operations that kill nothing.  They are programs that ask the kernel, and
the kernel has a state: who lives in the leaf or job, and who was killed.

The kills that go by signals are modelled elsewhere; here each is one question.
-/

namespace Cosca.Ports.ChildRelease

open Cosca.Ports.CommandRecord
open Cosca.Ports.Errors
open Cosca.Ports.Identity
open Cosca.Ports.FdMarker
open Cosca.Verified.Interact

/-! ## The handle -/

/-- `CgroupLeaf`. -/
structure CgroupLeaf where
  leafPath : String
  procsFd : Int
  deriving DecidableEq, Repr

/-- `JobHandle`: the handle value, `none` once it was taken. -/
structure JobHandle where
  raw : Option UInt64
  deriving DecidableEq, Repr

/-- `Attached`. -/
inductive Attached where
  | none
  | delegated
  | processGroup (pgid : Int32)
  | cgroup (leaf : CgroupLeaf)
  | jobObject (job : JobHandle)
  | fdMarker (marker : Marker)
  | treeWalk (root : ProcessId)
  deriving DecidableEq, Repr

/-- `Containment`. -/
inductive Containment where
  | cgroupV2
  | jobObject
  | processGroup
  | session
  | fdMarker
  | treeWalk
  | delegated
  | none
  deriving DecidableEq, Repr

/-- The `Display` of a `Containment`. -/
def Containment.display : Containment → String
  | .cgroupV2 => "cgroup v2"
  | .jobObject => "job object"
  | .processGroup => "process group"
  | .session => "session"
  | .fdMarker => "inherited-fd marker"
  | .treeWalk => "process-tree walk"
  | .delegated => "delegated"
  | .none => "none"

/-- `ParentEnd`, by its descriptor. -/
inductive ParentEnd where
  | reader (fd : Nat)
  | writer (fd : Nat)
  deriving DecidableEq, Repr

/-- `Child`. -/
structure Child where
  id : ProcessId
  pipes : List (Fd × ParentEnd)
  killOnDrop : Bool
  containment : Containment
  attached : Attached
  deriving DecidableEq

/-- `TreeDrain`. -/
inductive TreeDrain where
  | allMembersExited
  | allMarkersClosed
  | membersRemain
  deriving DecidableEq, Repr

/-! ## Questions to the kernel -/

/-- An exit status, as the platform encodes it. -/
abbrev ExitStatus := Int

inductive Question where
  /-- `ProcHandle::wait`. -/
  | wait (id : ProcessId)
  /-- `ProcHandle::try_wait`. -/
  | tryWait (id : ProcessId)
  /-- `ProcHandle::wait_deadline`. -/
  | waitDeadline (id : ProcessId) (deadline : Nat)
  /-- `ProcessId::is_alive`. -/
  | isRunning (id : ProcessId)
  /-- `Attached::wait_drained` of a drainable mechanism. -/
  | waitDrained (deadline : Option Nat)
  /-- The tree kill of a process group, an fd marker or a tree walk. -/
  | killTree
  /-- `ProcHandle::teardown_on_drop`. -/
  | teardownOnDrop (id : ProcessId)
  /-- The drop of the `ProcHandle`. -/
  | closeProc
  /-- The drop of a pipe end. -/
  | closeEnd (pipe : ParentEnd)
  /-- The drop of a marker's read end. -/
  | closeMarker (handle : UInt64)
  /-- `libc::close`. -/
  | close (fd : Int)
  /-- `fs::remove_dir`. -/
  | removeDir (path : String)
  /-- `fs::write`. -/
  | write (path contents : String)
  /-- `SetInformationJobObject`: whether `KILL_ON_JOB_CLOSE` is set. -/
  | setJobLimits (job : UInt64) (killOnJobClose : Bool)
  /-- `TerminateJobObject`. -/
  | terminateJob (job : UInt64) (exitCode : UInt32)
  /-- `CloseHandle` of the job. -/
  | closeJob (job : UInt64)

abbrev Answer : Question → Type
  | .wait _ => Except IoError ExitStatus
  | .tryWait _ => Except IoError (Option ExitStatus)
  | .waitDeadline .. => Except IoError (Option ExitStatus)
  | .isRunning _ => Liveness
  | .waitDrained _ => Except Error TreeDrain
  | .killTree => Except Error Unit
  | _ => Except IoError Unit

/-- A program of the handle. -/
abbrev Releasing := Prog Question Answer

/-- Ask the kernel. -/
abbrev ask (q : Question) : Releasing (Answer q) := query q

/-! ## Operations that kill nothing -/

/-- `Child::wait`. -/
def Child.wait (c : Child) : Releasing (Except Error ExitStatus) := do
  let status ← ask (.wait c.id)
  return status.mapError .io

/-- `Child::try_wait`. -/
def Child.tryWait (c : Child) :
    Releasing (Except Error (Option ExitStatus)) := do
  let status ← ask (.tryWait c.id)
  return status.mapError .io

/-- `Child::wait_deadline`. -/
def Child.waitDeadline (c : Child) (deadline : Nat) :
    Releasing (Except Error (Option ExitStatus)) := do
  let status ← ask (.waitDeadline c.id deadline)
  return status.mapError .io

/-- `Child::is_alive`. -/
def Child.isAlive (c : Child) : Releasing Liveness :=
  ask (.isRunning c.id)

/-- `Attached::can_observe_drain`. -/
def Attached.canObserveDrain : Attached → Bool
  | .cgroup _ | .jobObject _ | .fdMarker _ => true
  | _ => false

/-- `Child::wait_tree` and `Child::wait_tree_timeout`, on the platform `os`. -/
def Child.waitTree (os : String) (c : Child) (deadline : Option Nat) :
    Releasing (Except Error TreeDrain) :=
  if c.attached.canObserveDrain then ask (.waitDrained deadline)
  else return .error (.unsupported
    "wait for the contained tree to drain (wait_tree / wait_tree_timeout)" os
    ("this child's containment mechanism (" ++ c.containment.display ++
      ") exposes no kernel edge for tree drain — only cgroup v2, a Windows job object, and the macOS fd marker do. Use kill_tree()/terminate_tree() for teardown, or wait() to watch the root alone."))

/-- `Child::fd_write_end`: the end taken, and the handle without it. -/
def Child.fdWriteEnd (c : Child) (fd : Fd) : Option Nat × Child :=
  match c.pipes.find? (fun entry => entry.1 == fd) with
  | some (_, .writer w) =>
      (some w, { c with pipes := c.pipes.filter fun entry => entry.1 != fd })
  | _ => (none, c)

/-- `Child::fd_read_end`. -/
def Child.fdReadEnd (c : Child) (fd : Fd) : Option Nat × Child :=
  match c.pipes.find? (fun entry => entry.1 == fd) with
  | some (_, .reader r) =>
      (some r, { c with pipes := c.pipes.filter fun entry => entry.1 != fd })
  | _ => (none, c)

/-! ## Teardown -/

/-- `CgroupLeaf::hard_kill`. -/
def CgroupLeaf.hardKill (leaf : CgroupLeaf) : Releasing Unit := do
  let _ ← ask (.write (leaf.leafPath ++ "/cgroup.kill") "1")
  return ()

/-- `Drop for CgroupLeaf`. -/
def CgroupLeaf.drop (leaf : CgroupLeaf) : Releasing Unit := do
  let _ ← ask (.close leaf.procsFd)
  let removed : Except IoError Unit ← ask (.removeDir leaf.leafPath)
  match removed with
  | .ok () => return ()
  | .error _ => do
      let _ ← ask (.write (leaf.leafPath ++ "/cgroup.kill") "1")
      let _ ← ask (.removeDir leaf.leafPath)
      return ()

/-- `JobHandle::hard_kill`, with the handle it leaves. -/
def JobHandle.hardKill (job : JobHandle) :
    Releasing (Except Error Unit × JobHandle) :=
  match job.raw with
  | none => return (.ok (), job)
  | some raw => do
      let terminated : Except IoError Unit ← ask (.terminateJob raw 1)
      let _ ← ask (.closeJob raw)
      return (terminated.mapError .io, { raw := none })

/-- `JobHandle::disarm`: a zeroed limit record. -/
def JobHandle.disarm (job : JobHandle) : Releasing Unit :=
  match job.raw with
  | none => return ()
  | some raw => do
      let _ ← ask (.setJobLimits raw false)
      return ()

/-- `Drop for JobHandle`. -/
def JobHandle.drop (job : JobHandle) : Releasing Unit :=
  match job.raw with
  | none => return ()
  | some raw => do
      let _ ← ask (.closeJob raw)
      return ()

/-- `Attached::hard_kill`, with the resource it leaves. -/
def Attached.hardKill (attached : Attached) :
    Releasing (Except Error Unit × Attached) :=
  match attached with
  | .none | .delegated => return (.ok (), attached)
  | .cgroup leaf => do
      leaf.hardKill
      return (.ok (), attached)
  | .jobObject job => do
      let (result, job) ← job.hardKill
      return (result, .jobObject job)
  | .processGroup _ | .fdMarker _ | .treeWalk _ => do
      let result ← ask .killTree
      return (result, attached)

/-- `Attached::disarm`. -/
def Attached.disarm (attached : Attached) : Releasing Unit :=
  match attached with
  | .jobObject job => job.disarm
  | _ => return ()

/-- The drop of an `Attached`. -/
def Attached.drop (attached : Attached) : Releasing Unit :=
  match attached with
  | .cgroup leaf => leaf.drop
  | .jobObject job => job.drop
  | .fdMarker marker => do
      let _ ← ask (.closeMarker marker.handle)
      return ()
  | _ => return ()

/-- The drop of a pipe end. -/
def closeEnd (entry : Fd × ParentEnd) : Releasing Unit := do
  let _ ← ask (.closeEnd entry.2)
  return ()

/-- The drops of a handle's fields, in the order of their declaration. -/
def Child.dropFields (c : Child) : Releasing Unit := do
  let _ ← ask .closeProc
  forM c.pipes closeEnd
  c.attached.drop

/-- `Drop for Child`, and the drops of the fields after it. -/
def Child.drop (c : Child) : Releasing Unit :=
  if !c.killOnDrop then c.dropFields
  else do
    let (_, attached) ← c.attached.hardKill
    let _ ← ask (.teardownOnDrop c.id)
    { c with attached := attached }.dropFields

/-- `Child::detach`, which consumes the handle. -/
def Child.detach (c : Child) : Releasing Unit := do
  c.attached.disarm
  { c with killOnDrop := false }.drop

end Cosca.Ports.ChildRelease
