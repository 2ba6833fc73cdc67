import Cosca.Ports.IdentityRecord
import Cosca.Ports.UnixSignals
import Cosca.Verified.Utf8

/-!
# Start tokens

`identity/linux.rs`, `identity/macos.rs` and `identity/windows.rs`: how each
backend reads the start token of a pid, from what its operating system answers.
Only the system calls themselves are parameters.

## Main results

* `Produced.addressable`: the pids of the identities a process gets hold of,
  from what the systems document.
-/

namespace Cosca.Ports.StartToken

open Cosca.Ports.Errors
open Cosca.Ports.Identity
open Cosca.Ports.IdentityRecord
open Cosca.Ports.UnixSignals (Errno Errno.srch)
open Cosca.Verified.Text
open Cosca.Verified.Utf8

/-! ## Linux -/

/-- What Linux answers about a pid. -/
structure LinuxReads where
  /-- `std::fs::read` of `/proc/<pid>/stat`. -/
  stat : RawPid → Except IoError (List UInt8)
  /-- `kill` without a signal. -/
  kill : Int32 → Except Errno Unit

/-- `SignalProbe`. -/
inductive SignalProbe where
  | signalable
  | noSuchProcess
  | denied
  | notAPid
  deriving DecidableEq, Repr

/-- `classify_unreadable`. -/
def classifyUnreadable : SignalProbe → Resolved Unit
  | .noSuchProcess | .notAPid => .gone
  | .signalable | .denied => .unknown

/-- `signal_probe`. -/
def LinuxReads.signalProbe (os : LinuxReads) (pid : RawPid) : SignalProbe :=
  match signalTarget pid with
  | none => .notAPid
  | some target =>
      match os.kill target with
      | .ok () => .signalable
      | .error errno => if errno = Errno.srch then .noSuchProcess else .denied

/-- `read_stat`. -/
def LinuxReads.readStat (os : LinuxReads) (pid : RawPid) :
    Resolved (List UInt8) :=
  match os.stat pid with
  | .ok bytes => .found bytes
  | .error _ =>
      match classifyUnreadable (os.signalProbe pid) with
      | .gone => .gone
      | _ => .unknown

/-- `stat_parse::tail`: what follows the last closing parenthesis. -/
def statTail (stat : List UInt8) : Option (List Char) :=
  let fields := (stat.reverse.takeWhile (· != 0x29)).reverse
  if stat.contains 0x29 then (fromUtf8 fields).toOption else none

/-- `parse_starttime_jiffies`. -/
def parseStarttimeJiffies (stat : List UInt8) : Option UInt64 := do
  let tail ← statTail stat
  let field ← (splitWhitespace tail)[19]?
  parseU64 field

/-- `start_token` on Linux. -/
def LinuxReads.startToken (os : LinuxReads) (pid : RawPid) :
    Resolved UInt64 :=
  match os.readStat pid with
  | .found stat =>
      match parseStarttimeJiffies stat with
      | some jiffies => .found jiffies
      | none => .unknown
  | .gone => .gone
  | .unknown => .unknown

/-! ## macOS -/

/-- The start time of a `proc_bsdinfo`. -/
structure BsdInfo where
  startTvsec : UInt64
  startTvusec : UInt64
  deriving DecidableEq, Repr

/-- The start time of a `kinfo_proc`. -/
structure KinfoProc where
  tvSec : Int64
  tvUsec : Int32
  deriving DecidableEq, Repr

/-- What macOS answers about a pid. -/
structure MacosReads where
  /-- `proc_pidinfo`: the bytes it wrote, and the record. -/
  procPidinfo : Int32 → Int32 × BsdInfo
  /-- `sysctl` once it was not interrupted: the bytes it wrote, and the
  record. -/
  sysctl : Int32 → Except Errno (Nat × KinfoProc)

/-- The sizes of a `proc_bsdinfo` and of a `kinfo_proc`. -/
def bsdInfoSize : Int32 := 136
def kinfoProcSize : Nat := 648

/-- `bsd_info`. -/
def MacosReads.bsdInfo (os : MacosReads) (pid : RawPid) : Option BsdInfo :=
  let (n, info) := os.procPidinfo pid.toInt32
  if n = bsdInfoSize then some info else none

/-- `kinfo::kinfo`. -/
def MacosReads.kinfo (os : MacosReads) (pid : RawPid) : Resolved KinfoProc :=
  match os.sysctl pid.toInt32 with
  | .error errno => if errno = Errno.srch then .gone else .unknown
  | .ok (size, info) =>
      if size = 0 then .gone
      else if size ≠ kinfoProcSize then .unknown
      else .found info

/-- `token_of_bsd`. -/
def tokenOfBsd (info : BsdInfo) : UInt64 :=
  info.startTvsec * 1000000 + info.startTvusec

/-- `token_of_kinfo`. -/
def tokenOfKinfo (info : KinfoProc) : UInt64 :=
  info.tvSec.toUInt64 * 1000000 + info.tvUsec.toInt64.toUInt64

/-- `start_token` on macOS. -/
def MacosReads.startToken (os : MacosReads) (pid : RawPid) :
    Resolved UInt64 :=
  match os.bsdInfo pid with
  | some info => .found (tokenOfBsd info)
  | none => (os.kinfo pid).map tokenOfKinfo

/-! ## Windows -/

/-- A `windows::core::HRESULT`. -/
abbrev HResult := UInt32

/-- `HRESULT::from_win32`. -/
def HResult.fromWin32 (code : UInt32) : HResult :=
  if code = 0 then 0 else (code &&& 0xffff) ||| 0x80070000

/-- The `std::io::Error` a `windows::core::Error` converts to. -/
def HResult.io (e : HResult) : IoError :=
  .os e.toInt32.toInt

/-- `ERROR_INVALID_PARAMETER_HRESULT`. -/
def invalidParameterHresult : HResult :=
  HResult.fromWin32 87

/-- A `HANDLE` to a process. -/
abbrev Handle := Nat

/-- `Opened`. -/
inductive Opened where
  | found (handle : Handle)
  | gone
  | denied (e : HResult)
  deriving DecidableEq, Repr

/-- `open_classified`, from what `OpenProcess` answered. -/
def openClassified : Except HResult Handle → Opened
  | .ok handle => .found handle
  | .error e => if e = invalidParameterHresult then .gone else .denied e

/-- The creation time `GetProcessTimes` writes: the high and the low word. -/
structure Filetime where
  high : UInt32
  low : UInt32
  deriving DecidableEq, Repr

/-- What Windows answers about a pid. -/
structure WindowsReads where
  /-- `OpenProcess` for `PROCESS_QUERY_LIMITED_INFORMATION`. -/
  openProcess : RawPid → Except HResult Handle
  /-- `GetProcessTimes`. -/
  getProcessTimes : Handle → Except HResult Filetime
  /-- `GetCurrentProcess`. -/
  getCurrentProcess : Handle

/-- The raw token of a creation time. -/
def tokenOfFiletime (creation : Filetime) : UInt64 :=
  (creation.high.toUInt64 <<< 32) ||| creation.low.toUInt64

/-- `creation_token_result`. -/
def WindowsReads.creationTokenResult (os : WindowsReads) (handle : Handle) :
    Except HResult UInt64 :=
  (os.getProcessTimes handle).map tokenOfFiletime

/-- `start_token` on Windows. -/
def WindowsReads.startToken (os : WindowsReads) (pid : RawPid) :
    Resolved UInt64 :=
  match openClassified (os.openProcess pid) with
  | .gone => .gone
  | .denied _ => .unknown
  | .found handle =>
      match os.creationTokenResult handle with
      | .ok token => .found token
      | .error _ => .unknown

/-- `current_token` on Windows. -/
def WindowsReads.currentToken (os : WindowsReads) : Resolved UInt64 :=
  match os.creationTokenResult os.getCurrentProcess with
  | .ok token => .found token
  | .error _ => .unknown

/-! ## The backend of a build -/

/-- The backend of a build target, and what its host answers. -/
inductive Backend where
  | linux (os : LinuxReads)
  | macOs (os : MacosReads)
  | windows (os : WindowsReads)

def Backend.target : Backend → Target
  | .linux _ => .linux
  | .macOs _ => .macOs
  | .windows _ => .windows

/-- `backend::start_token`. -/
def Backend.startToken : Backend → RawPid → Resolved UInt64
  | .linux os => os.startToken
  | .macOs os => os.startToken
  | .windows os => os.startToken

/-- `backend::current_token`, in the process `self`. -/
def Backend.currentToken : Backend → RawPid → Resolved UInt64
  | .linux os, self => os.startToken self
  | .macOs os, self => os.startToken self
  | .windows os, _ => os.currentToken

/-- `ProcessId::current` in the process `self`; `none` is its panic. -/
def ProcessId.current (backend : Backend) (self : RawPid) :
    Option ProcessId :=
  match backend.currentToken self with
  | .found start => some ⟨self, start⟩
  | _ => none

/-- The identities the process `self` can get hold of. -/
inductive Produced (backend : Backend) (self : RawPid) : ProcessId → Prop where
  | of {pid : RawPid} {id : ProcessId}
      (h : ProcessId.of pid (backend.startToken pid) = .found id) :
      Produced backend self id
  | current {id : ProcessId} (h : ProcessId.current backend self = some id) :
      Produced backend self id

/-! ## What the systems document

Process ids are positive on Unix: `/proc` has no entry for another number, and
macOS, which does resolve pid 0, knows no negative one.  Windows refuses pid 0
as an invalid parameter.  A running process has an id of its own.
-/

/-- What the backend's system documents about pids, and the running process
`self`. -/
def Backend.Documented : Backend → RawPid → Prop
  | .linux os, self =>
      (∀ pid, signalTarget pid = none → (os.stat pid).isOk = false) ∧
        (signalTarget self).isSome = true
  | .macOs os, self =>
      (∀ pid < 0, (os.procPidinfo pid).1 ≤ 0 ∧
        (os.sysctl pid).map Prod.fst = .ok 0) ∧
        (signalTarget self).isSome = true
  | .windows os, self =>
      os.openProcess 0 = .error invalidParameterHresult ∧ self ≠ 0

/-! ## Which pids a token is found for -/

theorem pid_of_found {pid : RawPid} {start : Resolved UInt64} {id : ProcessId}
    (h : ProcessId.of pid start = .found id) :
    start = .found id.start ∧ pid = id.pid := by
  cases start with
  | found token =>
      cases h
      exact ⟨rfl, rfl⟩
  | gone => cases h
  | unknown => cases h

/-- `/proc` has an entry for nothing but process ids. -/
def LinuxReads.ListsPids (os : LinuxReads) : Prop :=
  ∀ pid, signalTarget pid = none → (os.stat pid).isOk = false

/-- What is no process id is gone, and no signal is sent to find out. -/
theorem LinuxReads.readStat_of_no_target (os : LinuxReads)
    (hpids : os.ListsPids) {pid : RawPid} (htarget : signalTarget pid = none) :
    os.readStat pid = .gone := by
  have hfailed := hpids pid htarget
  cases hstat : os.stat pid with
  | ok bytes =>
      rw [hstat] at hfailed
      cases hfailed
  | error e =>
      simp [LinuxReads.readStat, hstat, LinuxReads.signalProbe, htarget,
        classifyUnreadable]

theorem LinuxReads.signalTarget_of_found {os : LinuxReads} {pid : RawPid}
    {token : UInt64} (hpids : os.ListsPids)
    (h : os.startToken pid = .found token) :
    (signalTarget pid).isSome = true := by
  cases htarget : signalTarget pid with
  | some target => rfl
  | none =>
      rw [LinuxReads.startToken, os.readStat_of_no_target hpids htarget] at h
      cases h

theorem MacosReads.lt_of_found {os : MacosReads} {pid : RawPid}
    {token : UInt64}
    (hdoc : ∀ pid < 0, (os.procPidinfo pid).1 ≤ 0 ∧
      (os.sysctl pid).map Prod.fst = .ok 0)
    (h : os.startToken pid = .found token) : pid.toNat < 2 ^ 31 := by
  by_cases hlt : pid.toNat < 2 ^ 31
  · exact hlt
  · obtain ⟨hwrote, hempty⟩ := hdoc _ (RawPid.toInt32_neg hlt)
    have hne : (os.procPidinfo pid.toInt32).1 ≠ bsdInfoSize := by
      intro heq
      rw [heq] at hwrote
      exact absurd hwrote (by decide)
    have hinfo : os.bsdInfo pid = none := by
      simp [MacosReads.bsdInfo, hne]
    have hkinfo : os.kinfo pid = .gone := by
      cases hsysctl : os.sysctl pid.toInt32 with
      | error errno =>
          rw [hsysctl] at hempty
          cases hempty
      | ok reply =>
          rw [hsysctl] at hempty
          have hsize : reply.1 = 0 := Except.ok.inj hempty
          simp [MacosReads.kinfo, hsysctl, hsize]
    rw [MacosReads.startToken, hinfo, hkinfo] at h
    cases h

theorem WindowsReads.ne_zero_of_found {os : WindowsReads} {pid : RawPid}
    {token : UInt64} (hdoc : os.openProcess 0 = .error invalidParameterHresult)
    (h : os.startToken pid = .found token) : pid ≠ 0 := by
  intro hzero
  rw [WindowsReads.startToken, hzero, hdoc, openClassified, if_pos rfl] at h
  cases h

/-- A Unix pid below `2 ^ 31` is addressable unless it is 0. -/
theorem signalTarget_isSome_of_lt {pid : RawPid} (hlt : pid.toNat < 2 ^ 31) :
    (signalTarget pid).isSome = true ∨ pid = 0 := by
  by_cases hzero : pid = 0
  · exact Or.inr hzero
  · have hpos : pid.toNat ≠ 0 := fun h => hzero (UInt32.toNat_inj.mp h)
    exact Or.inl ((signalTarget_isSome_iff pid).mpr ⟨by omega, hlt⟩)

/-- On Linux and Windows a token is found for addressable pids only; on macOS
for the kernel's besides. -/
theorem Backend.addressable_of_found {backend : Backend} {self pid : RawPid}
    {token : UInt64} (hdoc : backend.Documented self)
    (h : backend.startToken pid = .found token) :
    pidIsAddressable pid (Platform.current backend.target) = true ∨
      (backend.target = .macOs ∧ pid = 0) := by
  cases backend with
  | linux os => exact Or.inl (LinuxReads.signalTarget_of_found hdoc.1 h)
  | macOs os =>
      have hlt := MacosReads.lt_of_found hdoc.1 h
      rcases signalTarget_isSome_of_lt hlt with hsome | hzero
      · exact Or.inl hsome
      · exact Or.inr ⟨rfl, hzero⟩
  | windows os =>
      have hne := WindowsReads.ne_zero_of_found hdoc.1 h
      exact Or.inl (by simpa [pidIsAddressable, Platform.current,
        Backend.target] using hne)

theorem Backend.addressable_self {backend : Backend} {self : RawPid}
    (hdoc : backend.Documented self) :
    pidIsAddressable self (Platform.current backend.target) = true := by
  cases backend with
  | linux os => exact hdoc.2
  | macOs os => exact hdoc.2
  | windows os =>
      simpa [pidIsAddressable, Platform.current, Backend.target] using hdoc.2

theorem Produced.addressable {backend : Backend} {self : RawPid}
    {id : ProcessId} (hdoc : backend.Documented self)
    (hid : Produced backend self id) :
    pidIsAddressable id.pid (Platform.current backend.target) = true ∨
      (backend.target = .macOs ∧ id.pid = 0) := by
  cases hid with
  | of h =>
      obtain ⟨hfound, hpid⟩ := pid_of_found h
      rw [← hpid]
      exact Backend.addressable_of_found hdoc hfound
  | current h =>
      unfold ProcessId.current at h
      split at h
      · rw [← Option.some.inj h]
        exact Or.inl (Backend.addressable_self hdoc)
      · cases h

end Cosca.Ports.StartToken
