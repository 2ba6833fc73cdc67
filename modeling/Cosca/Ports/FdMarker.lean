import Cosca.Ports.Errors
import Cosca.Ports.TreeWalk
import Cosca.Verified.Interact

/-!
# The fd-marker sweep

`Marker::hard_kill` and `Marker::terminate` of `containment/fdmarker.rs`, as
programs that ask the host.  A pass takes a snapshot, computes three channels
(the tree walk, the marker's holders, the process group) and signals what the
sweep has not handled yet; `hard_kill` repeats it as long as a pass makes
progress.

The walk asks for an identity at most once per pid, so its answers within a
pass are one function.
-/

namespace Cosca.Ports.FdMarker

open Cosca.Ports.Errors
open Cosca.Ports.Identity
open Cosca.Ports.TreeWalk
open Cosca.Verified.Interact

/-! ## Questions to the host -/

/-- `MarkerQuery`. -/
inductive MarkerQuery where
  | held
  | notHeld
  | denied
  deriving DecidableEq, Repr

/-- The channel an identity was found through. -/
inductive Channel where
  | walk
  | holder
  deriving DecidableEq, Repr

/-- What a sweep asks.  The questions about an identity name it in full, and a
kill names its channel, so that the events tell attempts apart. -/
inductive Question where
  /-- `fd_pipe_info` of the read end. -/
  | readEnd
  /-- `enumerate::snapshot`: the pids and the edges. -/
  | snapshot
  /-- The identities `treewalk::descendants` reads. -/
  | walk (root : ProcessId) (parents : List Edge)
  /-- `holders`: the pids that hold the marker. -/
  | holders (handle : UInt64) (pids : List RawPid)
  /-- The start token `ProcessId::of` reads for a holder. -/
  | identity (pid : RawPid)
  /-- `getpgid`. -/
  | getpgid (pid : RawPid)
  /-- `unix::kill_group` and `unix::term_group`. -/
  | signalGroup (pgid : Int32) (signal : Signal)
  /-- `holds_marker_query` of the identity's pid. -/
  | holdsMarker (id : ProcessId) (handle : UInt64)
  /-- `treewalk::kill_by_identity`. -/
  | killByIdentity (channel : Channel) (id : ProcessId) (signal : Signal)

/-- The answers. -/
abbrev Answer : Question → Type
  | .readEnd => Option UInt64
  | .snapshot => List RawPid × List Edge
  | .walk .. => RawPid → Resolved UInt64
  | .holders .. => List RawPid
  | .identity _ => Resolved UInt64
  | .getpgid _ => Option Int32
  | .signalGroup .. => Except Error Unit
  | .holdsMarker .. => MarkerQuery
  | .killByIdentity .. => KillOutcome

/-- A program of the marker. -/
abbrev Sweeping := Prog Question Answer

/-- Ask the host. -/
abbrev ask (q : Question) : Sweeping (Answer q) := query q

/-! ## The marker -/

/-- `Marker`, without the descriptor numbers. -/
structure Marker where
  handle : UInt64
  readHandle : UInt64
  root : Option ProcessId
  rootDenied : Bool
  pgid : Option Int32
  deriving DecidableEq, Repr

/-- The host: the supervisor's own pid, and how the operating system words its
errors. -/
structure Supervisor where
  pid : RawPid
  displayIo : IoError → String

/-- The variables a sweep threads through its passes. -/
structure Sweep where
  seen : List ProcessId
  groupResult : Except Error Unit
  incomplete : Bool

/-- The variables before the first pass. -/
def Sweep.start : Sweep where
  seen := []
  groupResult := .ok ()
  incomplete := false

/-- `*incomplete = true`, under a condition. -/
def Sweep.markIncomplete (s : Sweep) (condition : Bool) : Sweep :=
  { s with incomplete := s.incomplete || condition }

/-- `is_signalable`. -/
def isSignalable (sup : Supervisor) (pid : RawPid) : Bool :=
  1 < pid && pid != sup.pid

/-- A handle as `{:#x}` prints it. -/
def hex (handle : UInt64) : String :=
  "0x" ++ String.ofList (Nat.toDigits 16 handle.toNat)

/-- `combine_group_errors`. -/
def combineGroupErrors (sup : Supervisor) (first latest : Error) : Error :=
  let detail :=
    first.display sup.displayIo ++ "; " ++ latest.display sup.displayIo
  if first.isTeardownMechanismFailure || latest.isTeardownMechanismFailure then
    .io (IoError.other detail)
  else .containment detail

/-- `Marker::check_read_end_still_valid`. -/
def Marker.checkReadEndStillValid (m : Marker) :
    Sweeping (Except Error Unit) := do
  let info ← ask .readEnd
  if info == some m.readHandle then return .ok ()
  else return .error (.io (IoError.other ("fd marker " ++ hex m.handle ++
    ": the read end no longer names its recorded pipe object at sweep entry — refusing to sweep rather than signal against a handle that may now name an unrelated live pipe")))

/-! ## A pass -/

/-- `if seen.insert(id) { new.push(id) }`. -/
def insertSeen (acc : List ProcessId × List ProcessId) (id : ProcessId) :
    List ProcessId × List ProcessId :=
  if acc.1.contains id then acc else (acc.1 ++ [id], acc.2 ++ [id])

/-- Channels 1 and 2: the root and its descendants that are new. -/
def Marker.walkChannel (m : Marker) (blind : Bool) (parents : List Edge)
    (s : Sweep) : Sweeping (List ProcessId × Sweep) :=
  match m.root with
  | none => pure ([], s)
  | some root => do
      let acc := insertSeen (s.seen, []) root
      let found ←
        if blind then pure []
        else do
          let start ← ask (.walk root parents)
          pure (descendantsWith root true (resolveOrDrop start) parents)
      let (seen, new) := found.foldl insertSeen acc
      return (new, { s with seen := seen })

/-- `this_pass_holders`. -/
def Marker.scanHolders (m : Marker) (blind : Bool) (pids : List RawPid) :
    Sweeping (List RawPid) :=
  if blind then pure [] else ask (.holders m.handle pids)

/-- The body of the loop over this pass's holders. -/
def holderVisit (sup : Supervisor) (acc : List ProcessId × Sweep)
    (pid : RawPid) : Sweeping (List ProcessId × Sweep) :=
  let (new, s) := acc
  if !isSignalable sup pid then pure acc
  else do
    let start ← ask (.identity pid)
    match ProcessId.of pid start with
    | .gone => return acc
    | .unknown => return (new, s.markIncomplete true)
    | .found id =>
        let (seen, new) := insertSeen (s.seen, new) id
        return (new, { s with seen := seen })

/-- `any(|h| is_signalable(h.pid) && pid_is_live_group_member(h.pid, pgid))`. -/
def anyLiveGroupMember (sup : Supervisor) (pgid : Int32) :
    List RawPid → Sweeping Bool
  | [] => pure false
  | pid :: rest =>
      if !isSignalable sup pid then anyLiveGroupMember sup pgid rest
      else do
        let group ← ask (.getpgid pid)
        if group == some pgid then return true
        else anyLiveGroupMember sup pgid rest

/-- `live_holder_confirms_pgid`. -/
def Marker.confirmsPgid (m : Marker) (sup : Supervisor) (blind : Bool)
    (holders : List RawPid) : Sweeping Bool :=
  if blind then pure false
  else
    match m.pgid with
    | none => pure false
    | some pgid => anyLiveGroupMember sup pgid holders

/-- The group signal of one pass. -/
def Marker.signalOwnGroup (m : Marker) (signal : Signal) :
    Sweeping (Except Error Unit) :=
  match m.pgid with
  | some pgid => ask (.signalGroup pgid signal)
  | none => pure (.ok ())

/-- The result of a pass's group signal, folded into that of the earlier
passes. -/
def foldGroupResult (sup : Supervisor) (earlier latest : Except Error Unit) :
    Except Error Unit :=
  match earlier, latest with
  | .ok (), r => r
  | .error e, .ok () => .error e
  | .error first, .error latest =>
      .error (combineGroupErrors sup first latest)

/-- The group channel. -/
def Marker.groupChannel (m : Marker) (sup : Supervisor) (signal : Signal)
    (blind firstPass : Bool) (holders : List RawPid) (s : Sweep) :
    Sweeping Sweep := do
  let confirmed ← m.confirmsPgid sup blind holders
  if firstPass || confirmed then
    let result ← m.signalOwnGroup signal
    return { s with groupResult := foldGroupResult sup s.groupResult result }
  else return s

/-- `Marker::kill_holder`: whether the identity was left unsignalled for a
reason that makes the teardown incomplete. -/
def Marker.killHolder (m : Marker) (signal : Signal) (id : ProcessId) :
    Sweeping Bool := do
  let holds : MarkerQuery ← ask (.holdsMarker id m.handle)
  match holds with
  | .notHeld => return false
  | .denied => return true
  | .held =>
      let outcome : KillOutcome ← ask (.killByIdentity .holder id signal)
      return outcome == .notAttempted

/-- What an attempt does to `progressed` and `incomplete`. -/
def settle (acc : Bool × Sweep) (stuck : Bool) : Bool × Sweep :=
  if stuck then (acc.1, acc.2.markIncomplete true) else (true, acc.2)

/-- The body of the loop over the new identities of the walk. -/
def walkKill (signal : Signal) (acc : Bool × Sweep) (id : ProcessId) :
    Sweeping (Bool × Sweep) := do
  let outcome : KillOutcome ← ask (.killByIdentity .walk id signal)
  return settle acc (outcome == .notAttempted)

/-- The body of the loop over the new holders. -/
def Marker.holderKill (m : Marker) (signal : Signal) (acc : Bool × Sweep)
    (id : ProcessId) : Sweeping (Bool × Sweep) := do
  let stuck ← m.killHolder signal id
  return settle acc stuck

/-- `Marker::sweep_pass`. -/
def Marker.sweepPass (m : Marker) (sup : Supervisor) (signal : Signal)
    (firstPass : Bool) (s : Sweep) : Sweeping (Bool × Sweep) := do
  let snapshot : List RawPid × List Edge ← ask .snapshot
  let (pids, parents) := snapshot
  let blind := pids.isEmpty
  let s := (s.markIncomplete blind).markIncomplete m.rootDenied
  let (newWalk, s) ← m.walkChannel blind parents s
  let holders ← m.scanHolders blind pids
  let (newHolders, s) ← holders.foldlM (holderVisit sup) ([], s)
  let s ← m.groupChannel sup signal blind firstPass holders s
  if newWalk.isEmpty && newHolders.isEmpty then return (false, s)
  let acc ← newWalk.foldlM (walkKill signal) (false, s)
  newHolders.foldlM (m.holderKill signal) acc

/-! ## Sweeps -/

/-- `Marker::finish_sweep`. -/
def finishSweep (sup : Supervisor) (handle : UInt64)
    (groupResult : Except Error Unit) (incomplete : Bool) :
    Except Error Unit :=
  if incomplete then
    let error := Error.unassessable ("fd marker " ++ hex handle ++
      ": teardown may be incomplete — the host process table was unreadable on at least one pass, or at least one known/suspected member could not be assessed or signalled") none
    match groupResult with
    | .ok () => .error error
    | .error e => .error (combineGroupErrors sup error e)
  else groupResult

/-- The loop of `hard_kill`, with `first_pass` among its variables. -/
def Marker.sweepLoop (m : Marker) (sup : Supervisor) (fuel : Nat) :
    Sweeping (Option (Bool × Sweep)) :=
  Prog.loop (fun (firstPass, s) => do
    let (progressed, s) ← m.sweepPass sup .sigkill firstPass s
    return (progressed, (false, s))) fuel (true, Sweep.start)

/-- `Marker::hard_kill`, `none` when `fuel` passes do not end it. -/
def Marker.hardKill (m : Marker) (sup : Supervisor) (fuel : Nat) :
    Sweeping (Option (Except Error Unit)) := do
  match ← m.checkReadEndStillValid with
  | .error e => return some (.error e)
  | .ok () =>
      match ← m.sweepLoop sup fuel with
      | none => return none
      | some (_, s) =>
          return some (finishSweep sup m.handle s.groupResult s.incomplete)

/-- `Marker::terminate`. -/
def Marker.terminate (m : Marker) (sup : Supervisor) :
    Sweeping (Except Error Unit) := do
  match ← m.checkReadEndStillValid with
  | .error e => return .error e
  | .ok () =>
      let (_, s) ← m.sweepPass sup .sigterm true Sweep.start
      return finishSweep sup m.handle s.groupResult s.incomplete

end Cosca.Ports.FdMarker
