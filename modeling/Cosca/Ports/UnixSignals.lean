import Cosca.Ports.Errors
import Cosca.Ports.TreeWalk
import Cosca.Verified.Interact
import Cosca.Verified.Text

/-!
# Signals on Unix

Where the Unix teardown calls `kill(2)` and `killpg(2)`:
`treewalk::kill_by_identity`, the process group of `containment/unix.rs` with
its membership check in `unix/group.rs`, and `CgroupLeaf::terminate`.  They are
programs that ask the host; `open_verified` panics on pid 0, so a program may
end in a panic.
-/

namespace Cosca.Ports.UnixSignals

open Cosca.Ports.Errors
open Cosca.Ports.Identity
open Cosca.Ports.TreeWalk
open Cosca.Verified.Interact
open Cosca.Verified.Text

/-! ## Questions to the host -/

/-- An `errno` value. -/
abbrev Errno := Int

def Errno.perm : Errno := 1
def Errno.srch : Errno := 3

/-- `ENOSYS` on Linux. -/
def Errno.nosys : Errno := 38

/-- The platforms the listing distinguishes. -/
inductive Platform where
  | linux
  | macos
  | otherUnix
  deriving DecidableEq, Repr

/-- `group::Member`. -/
structure Member where
  pid : RawPid
  token : UInt64
  system : Bool
  deriving DecidableEq, Repr

inductive Question where
  /-- `backend::start_token`. -/
  | startToken (pid : RawPid)
  /-- `backend::is_running`. -/
  | isRunning (id : ProcessId)
  /-- `group::members`. -/
  | members (pgid : Int32)
  /-- `pidfd_open`. -/
  | pidfdOpen (pid : RawPid)
  /-- `pidfd_send_signal`. -/
  | pidfdSendSignal (fd : Nat) (signal : Signal)
  /-- `kill`; without a signal it probes. -/
  | kill (target : Int32) (signal : Option Signal)
  /-- `killpg`. -/
  | killpg (pgid : Int32) (signal : Signal)

abbrev Answer : Question → Type
  | .startToken _ => Resolved UInt64
  | .isRunning _ => Liveness
  | .members _ => Except IoError (List Member)
  | .pidfdOpen _ => Except Errno Nat
  | .pidfdSendSignal .. => Except Errno Unit
  | .kill .. => Except Errno Unit
  | .killpg .. => Except Errno Unit

/-- A panic with its message. -/
structure Panic where
  message : String
  deriving DecidableEq, Repr

/-- A program that signals. -/
abbrev Signalling := ExceptT Panic (Prog Question Answer)

/-- Ask the host. -/
def ask (q : Question) : Signalling (Answer q) :=
  ExceptT.lift (query q)

/-- `Signal` as its `Display` writes it. -/
def signalName : Signal → String
  | .sigterm => "SIGTERM"
  | .sigkill => "SIGKILL"

/-! ## One process -/

/-- `treewalk::kill_by_identity`. -/
def killByIdentity (id : ProcessId) (signal : Signal) :
    Signalling KillOutcome := do
  let start : Resolved UInt64 ← ask (.startToken id.pid)
  match ProcessId.of id.pid start with
  | .gone => return .alreadyGone
  | .unknown => return .notAttempted
  | .found live =>
      if live != id then return .alreadyGone
      else
        match signalTarget id.pid with
        | none => return .notAttempted
        | some target =>
            let sent : Except Errno Unit ← ask (.kill target (some signal))
            match sent with
            | .ok () => return .terminated
            | .error e =>
                if e == Errno.srch then return .alreadyGone
                else return .notAttempted

/-- `group::Reached`. -/
inductive Reached where
  | yes
  | no
  | unknown
  deriving DecidableEq, Repr

/-- What an errno of a signal or probe says about reaching the member. -/
def reachedBy : Except Errno Unit → Reached
  | .ok () => .yes
  | .error e =>
      if e == Errno.srch then .yes
      else if e == Errno.perm then .no
      else .unknown

/-- `group::check_or_signal`. -/
def checkOrSignal (pid : RawPid) (id : ProcessId) (signal : Option Signal) :
    Signalling Reached := do
  let start : Resolved UInt64 ← ask (.startToken pid)
  match ProcessId.of pid start with
  | .gone => return .yes
  | .unknown => return .unknown
  | .found live =>
      if live != id then return .yes
      else
        match signalTarget pid with
        | none => return .unknown
        | some target =>
            let sent : Except Errno Unit ← ask (.kill target signal)
            return reachedBy sent

/-- `wait::linux::open_verified`. -/
def openVerified (id : ProcessId) (what : String) :
    Signalling (Except Error (Option Nat)) :=
  if id.pid == 0 then throw ⟨"a resolvable ProcessId is never pid 0"⟩
  else do
    let opened : Except Errno Nat ← ask (.pidfdOpen id.pid)
    match opened with
    | .error e =>
        if e == Errno.srch then return .ok none
        else if e == Errno.nosys then
          return .error (.unsupported "foreign process wait/kill" "linux"
            "pidfd_open requires Linux kernel >= 5.3")
        else return .error (.io (.os e))
    | .ok pidfd =>
        let start : Resolved UInt64 ← ask (.startToken id.pid)
        match id.exists start with
        | .present => return .ok (some pidfd)
        | .gone => return .ok none
        | .unknown =>
            return .error (.unassessable ("pid " ++ toString id.pid ++
              " identity could not be confirmed; " ++ what) none)

/-- `group::check_or_signal_linux_sigkill`. -/
def checkOrSignalLinuxSigkill (pid : RawPid) (id : ProcessId) :
    Signalling Reached := do
  match ← openVerified id "process-group teardown verification" with
  | .ok none => return .yes
  | .ok (some pidfd) =>
      let sent : Except Errno Unit ← ask (.pidfdSendSignal pidfd .sigkill)
      return reachedBy sent
  | .error (.unsupported ..) => checkOrSignal pid id (some .sigkill)
  | .error (.io _) => checkOrSignal pid id (some .sigkill)
  | .error _ => return .unknown

/-! ## The members of a group -/

/-- `group::MemberOutcome`. -/
inductive MemberOutcome where
  | notASurvivor
  | survivor (pid : RawPid)
  | unassessable (pid : RawPid)
  deriving DecidableEq, Repr

/-- `group::classify_member`. -/
def classifyMember (pid : RawPid) (liveness : Liveness)
    (reached : Signalling Reached) : Signalling MemberOutcome :=
  match liveness with
  | .dead => return .notASurvivor
  | .alive | .unknown => do
      match ← reached with
      | .yes => return .notASurvivor
      | .no => return .survivor pid
      | .unknown => return .unassessable pid

/-- `group::reconfirm_survivor`. -/
def reconfirmSurvivor (outcome : MemberOutcome)
    (recheck : Signalling Liveness) : Signalling MemberOutcome :=
  match outcome with
  | .survivor pid => do
      match ← recheck with
      | .alive => return .survivor pid
      | .dead => return .notASurvivor
      | .unknown => return .survivor pid
  | .notASurvivor => return .notASurvivor
  | .unassessable pid => return .unassessable pid

/-- `group::excluded_from_sigkill_resend`. -/
def excludedFromSigkillResend (pid : RawPid) (system : Bool) : Bool :=
  pid == 1 || system

/-- The `reached` closure of `converge`. -/
def reachMember (platform : Platform) (signal : Signal) (m : Member) :
    Signalling Reached :=
  if signal == .sigkill && excludedFromSigkillResend m.pid m.system then
    return .unknown
  else if signal == .sigkill then
    match platform with
    | .linux => checkOrSignalLinuxSigkill m.pid ⟨m.pid, m.token⟩
    | .macos | .otherUnix =>
        checkOrSignal m.pid ⟨m.pid, m.token⟩ (some signal)
  else checkOrSignal m.pid ⟨m.pid, m.token⟩ none

/-- The body of the loop of `converge`, over the refused and the unassessable
pids. -/
def memberVisit (platform : Platform) (signal : Signal)
    (acc : List RawPid × List RawPid) (m : Member) :
    Signalling (List RawPid × List RawPid) := do
  let id : ProcessId := ⟨m.pid, m.token⟩
  let liveness : Liveness ← ask (.isRunning id)
  let outcome ←
    classifyMember m.pid liveness (reachMember platform signal m)
  match ← reconfirmSurvivor outcome (ask (.isRunning id)) with
  | .notASurvivor => return acc
  | .survivor pid => return (acc.1 ++ [pid], acc.2)
  | .unassessable pid => return (acc.1, acc.2 ++ [pid])

/-- `group::GroupState`. -/
inductive GroupState where
  | cleared
  | refused (refused unassessable : List RawPid)
  | unlistable (detail : String) (source : Option IoError)
  deriving DecidableEq, Repr

/-- Pids as a message lists them. -/
def listPids (pids : List RawPid) : String :=
  ", ".intercalate (pids.map toString)

/-- `group::decide`. -/
def decideGroup (pgid : Int32) (signal : Signal)
    (refused unassessable : List RawPid) : GroupState :=
  if !refused.isEmpty then .refused refused unassessable
  else if !unassessable.isEmpty then
    .unlistable (toString unassessable.length ++
      " member(s) of process group " ++ toString pgid ++
      " could not be assessed after " ++ signalName signal ++ " (pid " ++
      listPids unassessable ++ ")") none
  else .cleared

/-- `group::members`, which only Linux and macOS can answer. -/
def members (platform : Platform) (pgid : Int32) :
    Signalling (Except IoError (List Member)) :=
  match platform with
  | .linux | .macos => ask (.members pgid)
  | .otherUnix =>
      return .error (.custom .unsupported
        "process-group membership is implemented only for Linux and macOS")

/-- `group::converge`. -/
def converge (platform : Platform) (pgid : Int32) (signal : Signal) :
    Signalling (Except IoError GroupState) := do
  match ← members platform pgid with
  | .error e => return .error e
  | .ok listed =>
      let (refused, unassessable) ←
        listed.foldlM (memberVisit platform signal) ([], [])
      return .ok (decideGroup pgid signal refused unassessable)

/-- `group::state`. -/
def groupState (platform : Platform) (pgid : Int32) (signal : Signal) :
    Signalling GroupState := do
  match ← converge platform pgid signal with
  | .ok state => return state
  | .error e =>
      return .unlistable ("process group " ++ toString pgid ++
        " could not be listed after " ++ signalName signal) (some e)

/-! ## A process group -/

/-- The detail of the error for refused members. -/
def refusedDetail (pgid : Int32) (signal : Signal)
    (refused unassessable : List RawPid) : String :=
  let detail := signalName signal ++ " did not clear " ++
    toString refused.length ++ " member(s) of process group " ++
    toString pgid ++ " (pid " ++ listPids refused ++
    "); the tree is still up and this process cannot bring it down"
  if unassessable.isEmpty then detail
  else detail ++ "; additionally, " ++ toString unassessable.length ++
    " member(s) could not be assessed at all (pid " ++
    listPids unassessable ++ ")"

/-- `unix::verify`. -/
def verify (platform : Platform) (pgid : Int32) (signal : Signal) :
    Signalling (Except Error Unit) := do
  match ← groupState platform pgid signal with
  | .cleared => return .ok ()
  | .refused refused unassessable =>
      return .error (.containment
        (refusedDetail pgid signal refused unassessable))
  | .unlistable detail source => return .error (.unassessable detail source)

/-- `unix::signal_direct`. -/
def signalDirect (pid : Int32) (signal : Signal) :
    Signalling (Except IoError Unit) := do
  let sent : Except Errno Unit ← ask (.kill pid (some signal))
  match sent with
  | .ok () => return .ok ()
  | .error e =>
      if e == Errno.srch then return .ok () else return .error (.os e)

/-- `unix::signal_group`. -/
def signalGroup (platform : Platform) (pgid : Int32) (signal : Signal) :
    Signalling (Except Error Unit) := do
  if pgid ≤ 0 then
    return .error (.unassessable ("process group " ++ toString pgid ++
      " is not a valid group id to signal (0 addresses this process's own group; negative wraps to a broadcast or double-negation hazard)") none)
  else
    let sent : Except Errno Unit ← ask (.killpg pgid signal)
    match sent with
    | .ok () => verify platform pgid signal
    | .error e =>
        if e == Errno.srch then verify platform pgid signal
        else if e == Errno.perm then
          let _ ← signalDirect pgid signal
          verify platform pgid signal
        else return .error (.io (.os e))

/-- `unix::kill_group`. -/
def killGroup (platform : Platform) (pgid : Int32) :
    Signalling (Except Error Unit) :=
  signalGroup platform pgid .sigkill

/-- `unix::term_group`. -/
def termGroup (platform : Platform) (pgid : Int32) :
    Signalling (Except Error Unit) :=
  signalGroup platform pgid .sigterm

/-! ## A cgroup leaf -/

/-- The pids that the text of `cgroup.procs` lists, one to a line. -/
def listedPids (content : String) : List Int32 :=
  (lines content.toList).filterMap fun line => parseI32 (trim line)

/-- The body of the loop over the lines of `cgroup.procs`. -/
def terminateLine (line : List Char) : Signalling Unit :=
  match parseI32 (trim line) with
  | none => return ()
  | some pid => do
      let _ ← ask (.kill pid (some .sigterm))
      return ()

/-- `CgroupLeaf::terminate`, from what reading `cgroup.procs` returned. -/
def CgroupLeaf.terminate (procs : Except IoError String) :
    Signalling (Except IoError Unit) :=
  match procs with
  | .error e => return .error e
  | .ok content => do
      forM (lines content.toList) terminateLine
      return .ok ()

end Cosca.Ports.UnixSignals
