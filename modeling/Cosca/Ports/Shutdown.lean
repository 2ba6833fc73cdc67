import Cosca.Ports.ChildRelease
import Cosca.Ports.Elevation

/-!
# Graceful shutdown

`child/graceful.rs` and its twin `tokio/child/graceful.rs`, with the methods of
the two `Child`s they call: a cooperative signal, a grace, and the escalation.
The bodies of the twins are written out apart, as the source has them.  What
the operating system does is a question; the test seams and the log are left
out.
-/

namespace Cosca.Ports.Shutdown

open Cosca.Ports.Elevation
open Cosca.Ports.Errors
open Cosca.Ports.Identity
open Cosca.Ports.ChildRelease (Attached Containment ExitStatus TreeDrain)
open Cosca.Verified.Interact

/-! ## Handles -/

/-- `GracefulMechanism`. -/
inductive GracefulMechanism where
  | process
  | consoleGroup
  | otherConsoleGroup
  | unknown
  | none
  deriving DecidableEq, Repr

/-- `addresses_a_bare_pid`. -/
def GracefulMechanism.addressesABarePid : GracefulMechanism → Bool
  | .consoleGroup | .otherConsoleGroup => true
  | .process | .unknown | .none => false

/-- `Child`, with the fields a shutdown reads. -/
structure Child extends handle : ChildRelease.Child where
  graceful : GracefulMechanism
  elevation : Option ElevationReport

/-- `tokio::Child`, which on Windows stops pinning its pid once it has seen the
exit. -/
structure TokioChild extends sync : Child where
  pinsPid : Bool

/-- `is_elevated_wrapper`. -/
def Child.isElevatedWrapper (c : Child) : Bool :=
  match c.elevation.map ElevationReport.via with
  | some (.wrapped _) | some .windowsUac => true
  | _ => false

/-- `can_observe_drain`. -/
def canObserveDrain : Containment → Bool
  | .cgroupV2 | .jobObject | .fdMarker => true
  | _ => false

/-- `permits_skipping_sweep`. -/
def permitsSkippingSweep : TreeDrain → Bool
  | .allMembersExited => true
  | .allMarkersClosed | .membersRemain => false

/-- `is_actionable`. -/
def isActionable : Attached → Bool
  | .none | .delegated => false
  | _ => true

/-- `Instant::now`, and the last `Instant` there is. -/
structure Clock where
  now : Nat
  last : Nat
  deriving DecidableEq, Repr

/-- `Instant::now().checked_add`. -/
def Clock.checkedAdd (clock : Clock) (timeout : Nat) : Option Nat :=
  if clock.now + timeout ≤ clock.last then some (clock.now + timeout) else none

/-! ## Questions to the system -/

inductive Question where
  /-- `graceful::signal`. -/
  | signal (mechanism : GracefulMechanism) (id : ProcessId)
  /-- `Attached::terminate`. -/
  | terminate (attached : Attached) (root : RawPid)
  /-- The watch for the exit, for so long, that reaps nothing. -/
  | watchExit (id : ProcessId) (timeout : Nat)
  /-- `Attached::wait_drained`. -/
  | waitDrained (attached : Attached) (deadline : Option Nat)
  /-- `Attached::hard_kill`. -/
  | hardKill (attached : Attached)
  /-- The kill of the process backend. -/
  | kill (id : ProcessId)
  /-- The wait of the process backend, which reaps. -/
  | reap (id : ProcessId)
  deriving DecidableEq

abbrev Answer : Question → Type
  | .signal .. => Except Error Unit
  | .terminate .. => Except Error Unit
  | .watchExit .. => Except Error Bool
  | .waitDrained .. => Except Error TreeDrain
  | .hardKill _ => Except Error Unit
  | .kill _ => Except IoError Unit
  | .reap _ => Except IoError ExitStatus

/-- A program that shuts down, with `?` for its errors. -/
abbrev ShuttingDown := ExceptT Error (Prog Question Answer)

/-- Ask the system. -/
def ask (q : Question) : ShuttingDown (Answer q) :=
  ExceptT.lift (query q)

/-- `value?`. -/
def propagate {α : Type} (value : Except Error α) : ShuttingDown α :=
  ExceptT.mk (pure value)

/-- The result of a call as a value. -/
def result {α : Type} (call : ShuttingDown α) : ShuttingDown (Except Error α) :=
  ExceptT.lift call.run

section

variable {α : Type} (answers : Answers Answer) (past : List (Event Answer))

@[simp] theorem play_ask (q : Question) :
    Prog.play answers (@ExceptT.run Error _ (no_index (Answer q)) (ask q)) past =
      (past ++ [⟨q, answers past q⟩], .ok (answers past q)) := by
  rfl

@[simp] theorem play_propagate (value : Except Error α) :
    Prog.play answers (propagate value).run past = (past, value) := by
  rfl

@[simp] theorem play_result (call : ShuttingDown α) :
    Prog.play answers (result call).run past =
      ((Prog.play answers call.run past).1,
        .ok (Prog.play answers call.run past).2) :=
  Prog.play_bind answers call.run _ past

end

section

variable {α : Type} {events : List (Event Answer)}

theorem runs_ask_bind {β : Type} {q : Question} {f : Answer q → ShuttingDown β}
    {r : Except Error β} (h : Prog.Runs (ask q >>= f).run events r) :
    ∃ answer rest, events = ⟨q, answer⟩ :: rest ∧
      Prog.Runs (f answer).run rest r := by
  have h' : Prog.Runs (Prog.ask q fun answer => (f answer).run) events r := h
  cases h' with
  | ask _ _ answer hrest => exact ⟨answer, _, rfl, hrest⟩

theorem runs_propagate {value r : Except Error α}
    (h : Prog.Runs (propagate value).run events r) :
    events = [] ∧ r = value :=
  Prog.Runs.of_pure h

theorem runs_result {call : ShuttingDown α} {r : Except Error (Except Error α)}
    (h : Prog.Runs (result call).run events r) :
    ∃ value, Prog.Runs call.run events value ∧ r = .ok value := by
  obtain ⟨value, first, rest, hfirst, hrest, rfl⟩ :=
    Prog.Runs.of_bind (p := call.run) h
  obtain ⟨rfl, rfl⟩ := Prog.Runs.of_pure hrest
  exact ⟨value, by rw [List.append_nil]; exact hfirst, rfl⟩

end

section

variable (io : IoError → String) (windows : Bool) (clock : Clock)

/-- `map_elevated_kill_error`. -/
def mapElevatedKillError (err : IoError) (elevatedWrapper : Bool) : Error :=
  if elevatedWrapper && err.isPermissionDenied windows then
    .elevation .unkillable
      ("could not signal the elevated child: " ++ io err)
  else .io err

/-- `containment::require_contained`; `os` is `std::env::consts::OS`. -/
def requireContained (os : String) (attached : Attached) : Except Error Unit :=
  if isActionable attached then .ok ()
  else .error (.unsupported "tree teardown (kill_tree / terminate_tree)" os
    ("this child holds no actionable tree-teardown mechanism (uncontained, " ++
      "or a nested member of an ancestor's containment group). Use kill() " ++
      "for a lone process, or tear down the tree via the outermost " ++
      ".contain()ed handle."))

/-! ## The sync child -/

/-- `Child::terminate`. -/
def Child.terminate (c : Child) : ShuttingDown Unit := do
  propagate (← ask (.signal c.graceful c.id))

/-- `Child::wait`. -/
def Child.wait (c : Child) : ShuttingDown ExitStatus := do
  propagate ((← ask (.reap c.id)).mapError .io)

/-- `Child::wait_deadline`: it watches for the exit and, once it has seen it,
reaps. -/
def Child.waitDeadline (c : Child) (deadline : Nat) :
    ShuttingDown (Option ExitStatus) := do
  let exited ← propagate (← ask (.watchExit c.id (deadline - clock.now)))
  if exited then
    let status ← c.wait
    return some status
  else return none

/-- `Child::wait_timeout`. -/
def Child.waitTimeout (c : Child) (timeout : Nat) :
    ShuttingDown (Option ExitStatus) :=
  match clock.checkedAdd timeout with
  | some deadline => c.waitDeadline clock deadline
  | none => do
      let status ← c.wait
      return some status

/-- What `Child::graceful_shutdown` does about a watch that saw no exit. -/
def Child.escalate (c : Child) (watch : Except Error (Option ExitStatus)) :
    ShuttingDown ExitStatus := do
  propagate ((← ask (.kill c.id)).mapError .io)
  let status ← c.wait
  let _ ← propagate watch
  return status

/-- `Child::graceful_shutdown`. -/
def Child.gracefulShutdown (c : Child) (grace : Nat) :
    ShuttingDown ExitStatus := do
  c.terminate
  let watch ← result (c.waitTimeout clock grace)
  match watch with
  | .ok (some status) => return status
  | _ => c.escalate watch

/-- `Child::terminate_tree`. -/
def Child.terminateTree (os : String) (c : Child) : ShuttingDown Unit := do
  propagate (requireContained os c.attached)
  propagate (← ask (.terminate c.attached c.id.pid))

/-- `Child::kill_tree`. -/
def Child.killTree (os : String) (c : Child) : ShuttingDown Unit := do
  propagate (requireContained os c.attached)
  let groupResult ← ask (.hardKill c.attached)
  let backstop := (← ask (.kill c.id)).mapError
    fun e => mapElevatedKillError io windows e c.isElevatedWrapper
  propagate (groupResult.bind fun _ => backstop)

/-- The errors of `terminate_tree` that do not end the call. -/
def isHeld : Error → Bool
  | .containment _ | .unassessable _ none => true
  | _ => false

/-- The watch of the root alone in `Child::graceful_shutdown_tree`. -/
def Child.watchRoot (c : Child) (timeout : Nat) :
    ShuttingDown (Bool × Bool × Option Error) := do
  match ← ask (.watchExit c.id timeout) with
  | .ok exited => return (false, exited, none)
  | .error e => return (false, false, some e)

/-- The watch of `Child::graceful_shutdown_tree`: whether the tree drained,
whether the root was seen to exit, and the error of the watch. -/
def Child.watchTree (c : Child) (grace : Nat) :
    ShuttingDown (Bool × Bool × Option Error) := do
  if canObserveDrain c.containment then
    match ← ask (.waitDrained c.attached (clock.checkedAdd grace)) with
    | .ok verdict =>
        if permitsSkippingSweep verdict then return (true, true, none)
        else c.watchRoot 0
    | .error e => return (false, false, some e)
  else c.watchRoot grace

/-- The reap of `Child::graceful_shutdown_tree`, and then the error of its
watch. -/
def Child.reapRoot (c : Child) (watchErr : Option Error) :
    ShuttingDown ExitStatus := do
  let status ← c.wait
  match watchErr with
  | some e => throw e
  | none => return status

/-- What `Child::graceful_shutdown_tree` does after the watch. -/
def Child.sweepAndReap (os : String) (c : Child)
    (drained rootExited : Bool) (watchErr : Option Error) :
    ShuttingDown ExitStatus := do
  if drained then c.reapRoot watchErr
  else
    match ← result (c.killTree io windows os) with
    | .error sweep =>
        if rootExited then do
          let _ ← result c.wait
          throw sweep
        else throw sweep
    | .ok () => c.reapRoot watchErr

/-- `Child::graceful_shutdown_tree`. -/
def Child.gracefulShutdownTree (os : String) (c : Child) (grace : Nat) :
    ShuttingDown ExitStatus := do
  propagate (requireContained os c.attached)
  let termResult ← result (c.terminateTree os)
  if let .error e := termResult then
    if !isHeld e then throw e
  let (drained, rootExited, watchErr) ← c.watchTree clock grace
  c.sweepAndReap io windows os drained rootExited watchErr

/-! ## The async child -/

/-- `unpinned_pid_refusal`. -/
def TokioChild.unpinnedPidRefusal (c : TokioChild) (op : String) : Error :=
  .unassessable ("this handle no longer pins pid " ++ toString c.id.pid ++
    ": the async backend released the child's process handle when its exit " ++
    "was observed, so the pid may since name an unrelated process. A console " ++
    "control event is addressed by pid alone, so " ++ op ++ "() sent nothing. " ++
    "The child itself is already gone; kill_tree() addresses no pid and " ++
    "still tears down any survivors.") none

/-- `tokio::Child::terminate`. -/
def TokioChild.terminate (c : TokioChild) : ShuttingDown Unit := do
  let mechanism := c.graceful
  if windows && mechanism.addressesABarePid && !c.pinsPid then
    throw (c.unpinnedPidRefusal "terminate")
  propagate (← ask (.signal mechanism c.id))

/-- `tokio::Child::wait`. -/
def TokioChild.wait (c : TokioChild) : ShuttingDown ExitStatus := do
  propagate ((← ask (.reap c.id)).mapError .io)

/-- `tokio::Child::kill`. -/
def TokioChild.kill (c : TokioChild) : ShuttingDown Unit := do
  match ← ask (.kill c.id) with
  | .error e => throw (mapElevatedKillError io windows e c.isElevatedWrapper)
  | .ok () => return ()

/-- `tokio::Child::graceful_shutdown`. -/
def TokioChild.gracefulShutdown (c : TokioChild) (grace : Nat) :
    ShuttingDown ExitStatus := do
  c.terminate windows
  let watch ← ask (.watchExit c.id grace)
  if !(watch matches .ok true) then
    c.kill io windows
  let status ← c.wait
  let _ ← propagate watch
  return status

/-- `tokio::Child::terminate_tree`. -/
def TokioChild.terminateTree (os : String) (c : TokioChild) :
    ShuttingDown Unit := do
  propagate (requireContained os c.attached)
  if windows && !c.pinsPid then
    throw (c.unpinnedPidRefusal "terminate_tree")
  propagate (← ask (.terminate c.attached c.id.pid))

/-- `tokio::Child::kill_tree`. -/
def TokioChild.killTree (os : String) (c : TokioChild) : ShuttingDown Unit := do
  propagate (requireContained os c.attached)
  let groupResult ← ask (.hardKill c.attached)
  let backstop ← result (c.kill io windows)
  propagate (groupResult.bind fun _ => backstop)

/-- The watch of the root alone in `tokio::Child::graceful_shutdown_tree`. -/
def TokioChild.watchRoot (c : TokioChild) (timeout : Nat) :
    ShuttingDown (Bool × Bool × Option Error) := do
  match ← ask (.watchExit c.id timeout) with
  | .ok exited => return (false, exited, none)
  | .error e => return (false, false, some e)

/-- The watch of `tokio::Child::graceful_shutdown_tree`. -/
def TokioChild.watchTree (c : TokioChild) (grace : Nat) :
    ShuttingDown (Bool × Bool × Option Error) := do
  if canObserveDrain c.containment then
    match ← ask (.waitDrained c.attached (clock.checkedAdd grace)) with
    | .ok verdict =>
        if permitsSkippingSweep verdict then return (true, true, none)
        else c.watchRoot 0
    | .error e => return (false, false, some e)
  else c.watchRoot grace

/-- The reap of `tokio::Child::graceful_shutdown_tree`, and then the error of
its watch. -/
def TokioChild.reapRoot (c : TokioChild) (watchErr : Option Error) :
    ShuttingDown ExitStatus := do
  let status ← c.wait
  match watchErr with
  | some e => throw e
  | none => return status

/-- What `tokio::Child::graceful_shutdown_tree` does after the watch. -/
def TokioChild.sweepAndReap (os : String) (c : TokioChild)
    (drained rootExited : Bool) (watchErr : Option Error) :
    ShuttingDown ExitStatus := do
  if drained then c.reapRoot watchErr
  else
    match ← result (c.killTree io windows os) with
    | .error sweep =>
        if rootExited then do
          let _ ← result c.wait
          throw sweep
        else throw sweep
    | .ok () => c.reapRoot watchErr

/-- `tokio::Child::graceful_shutdown_tree`. -/
def TokioChild.gracefulShutdownTree (os : String) (c : TokioChild)
    (grace : Nat) : ShuttingDown ExitStatus := do
  let termResult ← result (c.terminateTree windows os)
  if let .error e := termResult then
    if !isHeld e then throw e
  let (drained, rootExited, watchErr) ← c.watchTree clock grace
  c.sweepAndReap io windows os drained rootExited watchErr

end

end Cosca.Ports.Shutdown
