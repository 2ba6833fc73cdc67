import Cosca.Ports.CommandRecord

/-!
# The elevation planner

`elevation/plan.rs`: a decision over plain data.  The structural matrix comes
first, so that its verdict does not depend on ambient privilege; then an
elevated caller runs the command as it is; then the backend is resolved.
Paths are strings of an arbitrary type `Str`.
-/

namespace Cosca.Ports.ElevationPlan

open Cosca.Ports.Errors
open Cosca.Ports.CommandRecord

/-- `Os`. -/
inductive Os where
  | unix
  | macOs
  | windows
  deriving DecidableEq, Repr

/-- `Privilege`. -/
inductive Privilege where
  | unprivileged
  | elevated
  deriving DecidableEq, Repr

/-- `BackendSet`: the absolute path of each backend that is there. -/
structure BackendSet (Str : Type) where
  run0 : Option Str
  «sudo» : Option Str
  doas : Option Str
  pkexec : Option Str
  osascript : Option Str

/-- `Host`. -/
structure Host (Str : Type) where
  elevated : Bool
  hasTty : Bool
  available : BackendSet Str
  os : Os
  argMax : Option Nat

/-- The same host for a caller with another privilege. -/
def Host.withElevated {Str : Type} (host : Host Str) (elevated : Bool) :
    Host Str :=
  { host with elevated := elevated }

/-- `Transition`. -/
inductive Transition (Str : Type) where
  | runAsIs
  | elevatePosix (backend : Backend) (path : Str) (auth : Auth Str)
  | elevateWindows (auth : Auth Str)
  | elevateMacosGui (osascript : Str) (argMax : Option Nat)
  | reject (error : Error)

variable {Str : Type}

/-! ## Texts -/

/-- The backend as `{:?}` prints it. -/
def Backend.debug : Backend → String
  | .auto => "Auto"
  | .run0 => "Run0"
  | .sudo => "Sudo"
  | .doas => "Doas"
  | .pkexec => "Pkexec"

/-! ## The matrix -/

def Auth.isGui : Auth Str → Bool
  | .gui => true
  | _ => false

def Auth.isInteractive : Auth Str → Bool
  | .interactive => true
  | _ => false

/-- `is_macos_gui_auto`: a property of the request only. -/
def isMacosGuiAuto (os : Os) (backend : Backend) (auth : Auth Str) : Bool :=
  os == .macOs && Auth.isGui auth && backend == .auto

/-- `BackendSet::path`. -/
def BackendSet.path (b : BackendSet Str) : Backend → Option Str
  | .run0 => b.run0
  | .sudo => b.sudo
  | .doas => b.doas
  | .pkexec => b.pkexec
  | .auto => b.sudo.or b.doas

/-- The backend `structural_posix` checks an askpass or stdin request
against. -/
def effectiveBackend (backend : Backend) (available : BackendSet Str) :
    Option Backend :=
  match backend with
  | .auto =>
      if available.sudo.isSome then some .sudo
      else if available.doas.isSome then some .doas
      else none
  | explicit => some explicit

/-- The part of the matrix about askpass and stdin authentication, which only
sudo can do. -/
def structuralSudoOnly (platform : String) (backend : Backend)
    (available : BackendSet Str) (kind detail : String) : Option Error :=
  match effectiveBackend backend available with
  | none | some .sudo => none
  | some eff =>
      some (.unsupported
        (if backend == .auto then
          "Auto (resolves to " ++ Backend.debug eff ++ ") + " ++ kind
        else Backend.debug backend ++ " + " ++ kind) platform detail)

/-- `structural_posix`. -/
def structuralPosix (os : Os) (backend : Backend) (auth : Auth Str)
    (available : BackendSet Str) : Option Error :=
  let platform := if os == .macOs then "macos" else "unix"
  if os == .macOs && backend == .pkexec then
    some (.unsupported ("Backend::" ++ Backend.debug backend) platform
      "pkexec is a polkit (Linux) program and does not exist on macOS; use Backend::Auto with Auth::Gui for the macOS authentication dialog")
  else if os == .macOs && backend == .run0 then
    some (.unsupported ("Backend::" ++ Backend.debug backend) platform
      "run0 ships with systemd and does not exist on macOS; use Backend::Auto (sudo), or Auth::Gui for the macOS authentication dialog")
  else if Auth.isGui auth && os == .macOs &&
      !isMacosGuiAuto os backend auth then
    some (.unsupported (Backend.debug backend ++ " + Auth::Gui") platform
      "macOS graphical elevation goes through Authorization Services, not a CLI wrapper; pair Auth::Gui with Backend::Auto")
  else if Auth.isGui auth && os != .macOs && backend != .pkexec then
    some (.unsupported (Backend.debug backend ++ " + Auth::Gui") platform
      "graphical (Gui) auth is only available through Backend::Pkexec")
  else if backend == .pkexec && !Auth.isGui auth then
    some (.unsupported "pkexec + non-Gui auth" platform
      "pkexec is the graphical backend; pair it with Auth::Gui")
  else
    match auth with
    | .askpass _ =>
        structuralSudoOnly platform backend available "Askpass"
          "askpass auth is sudo-only; run0/doas/pkexec have no askpass mechanism"
    | .stdin _ =>
        structuralSudoOnly platform backend available "Stdin"
          "Stdin (sudo -S) auth is sudo-only; doas has no -S and non-sudo targets would leak the password"
    | _ => none

/-- `structural_windows`. -/
def structuralWindows (backend : Backend) (auth : Auth Str) : Option Error :=
  if backend != .auto then
    some (.unsupported ("elevation backend " ++ Backend.debug backend)
      "windows"
      "POSIX elevation backends do not exist on Windows; use Backend::Auto (ShellExecuteEx runas)")
  else
    match auth with
    | .nonInteractive | .askpass _ | .stdin _ =>
        some (.unsupported "runas + non-interactive/askpass/stdin auth"
          "windows"
          "ShellExecuteEx(runas) has no non-interactive, askpass, or stdin-credential mechanism; use Auth::Interactive or Auth::Gui (both map to the UAC consent gate)")
    | _ => none

/-! ## The plan -/

/-- `reject_backend_unavailable`. -/
def rejectBackendUnavailable (detail : String) : Transition Str :=
  .reject (.elevation .backendUnavailable detail)

/-- The backend and path `resolve_posix` settles on, or its error text. -/
def resolveBackend (available : BackendSet Str) (backend : Backend) :
    Except String (Backend × Str) :=
  match backend with
  | .auto =>
      match available.sudo with
      | some p => .ok (.sudo, p)
      | none =>
          match available.doas with
          | some p => .ok (.doas, p)
          | none => .error "no sudo/doas on PATH for Backend::Auto"
  | explicit =>
      match available.path explicit with
      | some p => .ok (explicit, p)
      | none =>
          .error ("forced backend " ++ Backend.debug explicit ++
            " is not on PATH")

/-- `Host::resolve_posix`. -/
def Host.resolvePosix (host : Host Str) (backend : Backend)
    (auth : Auth Str) : Transition Str :=
  match resolveBackend host.available backend with
  | .error detail => rejectBackendUnavailable detail
  | .ok (resolved, path) =>
      if Auth.isInteractive auth && !host.hasTty then
        .reject (.elevation .noTty
          "Auth::Interactive requires a controlling terminal; use Auth::NonInteractive / Askpass / Stdin, or run from a TTY")
      else .elevatePosix resolved path auth

/-- `Host::plan`. -/
def Host.plan (host : Host Str) (target : Privilege) (backend : Backend)
    (auth : Auth Str) : Transition Str :=
  if target != .elevated then .runAsIs
  else
    let structural :=
      if host.os == .windows then structuralWindows backend auth
      else structuralPosix host.os backend auth host.available
    match structural with
    | some error => .reject error
    | none =>
        if host.elevated then .runAsIs
        else if host.os == .windows then .elevateWindows auth
        else if isMacosGuiAuto host.os backend auth then
          match host.available.osascript with
          | some p => .elevateMacosGui p host.argMax
          | none => rejectBackendUnavailable
              "/usr/bin/osascript is missing or not executable; macOS graphical elevation needs it"
        else host.resolvePosix backend auth

end Cosca.Ports.ElevationPlan
