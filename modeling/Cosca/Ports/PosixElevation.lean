import Cosca.Ports.ElevationPlan
import Cosca.Ports.EnvSanitizer
import Cosca.Ports.MacosElevation

/-!
# The POSIX elevation rewrite

`elevation/posix.rs`: the structural gate, the argument vector of each backend,
and `rewrite_with_host`, which gates, plans, sanitizes and builds the derived
command.  `debug` is the quoted form `{:?}` gives a name; the answer of
`pipe()` is an input.
-/

namespace Cosca.Ports.PosixElevation

open Cosca.Ports.Errors
open Cosca.Ports.CommandRecord
open Cosca.Ports.Elevation
open Cosca.Ports.ElevationPlan
open Cosca.Ports.PosixSplit (Bytes)
open Cosca.Verified.Utf8

/-- The bytes of an ASCII text. -/
def ascii (s : String) : Bytes := encode s.toList

/-! ## Names of variables -/

/-- `c.is_ascii_alphabetic()`. -/
def isAsciiAlphabetic (c : UInt8) : Bool :=
  (65 ≤ c && c ≤ 90) || (97 ≤ c && c ≤ 122)

/-- `c.is_ascii_alphanumeric()`. -/
def isAsciiAlphanumeric (c : UInt8) : Bool :=
  isAsciiAlphabetic c || (48 ≤ c && c ≤ 57)

/-- `valid_env_name`. -/
def validEnvName (k : Bytes) : Bool :=
  match k with
  | [] => false
  | c :: _ =>
      (c == 95 || isAsciiAlphabetic c) &&
        k.all fun c => c == 95 || isAsciiAlphanumeric c

/-- `program_starts_with_dash`. -/
def programStartsWithDash (program : Bytes) : Bool :=
  program.head? == some 45

section

variable (debug : Bytes → String)

/-- `unsupported_env_name`. -/
def unsupportedEnvName (k : Bytes) : Error :=
  .unsupported "forwarding an env var with an unusual name across elevation"
    "unix"
    ("env var name " ++ debug k ++
      " is not [A-Za-z_][A-Za-z0-9_]*; it cannot be forwarded losslessly")

/-! ## The argument vector -/

/-- The loop of `preserve_env_flag` from its `i`-th turn on. -/
def preserveEnvLoop (flag : Bytes) :
    Nat → List (Bytes × Bytes) → Except Error Bytes
  | _, [] => .ok flag
  | i, (k, _) :: rest =>
      if !validEnvName k then .error (unsupportedEnvName debug k)
      else
        let flag := if i > 0 then flag ++ ascii "," else flag
        preserveEnvLoop (flag ++ k) (i + 1) rest

/-- `preserve_env_flag`. -/
def preserveEnvFlag (env : List (Bytes × Bytes)) : Except Error Bytes :=
  preserveEnvLoop debug (ascii "--preserve-env=") 0 env

/-- The loop of the `Run0` arm: one `--setenv=` word per variable. -/
def setenvWords : List (Bytes × Bytes) → Except Error (List Bytes)
  | [] => .ok []
  | (k, v) :: rest =>
      if !validEnvName k then .error (unsupportedEnvName debug k)
      else do
        let words ← setenvWords rest
        return (ascii "--setenv=" ++ k ++ ascii "=" ++ v) :: words

/-- The options `build_argv` writes for each backend. -/
def backendOptions (backend : Backend) (auth : Auth Bytes) (program : Bytes)
    (env : List (Bytes × Bytes)) : Elevating (List Bytes) :=
  match backend with
  | .sudo => do
      let authWords := match auth with
        | .nonInteractive => [ascii "-n"]
        | .stdin _ => [ascii "-S"]
        | .askpass _ => [ascii "-A"]
        | .interactive | .gui => []
      let envWords ← lift
        (if env.isEmpty then .ok []
          else (preserveEnvFlag debug env).map fun flag => [flag])
      return authWords ++ envWords
  | .doas => do
      debugAssert env.isEmpty
      let authWords := match auth with
        | .nonInteractive => [ascii "-n"]
        | _ => []
      return authWords
  | .pkexec => do
      debugAssert env.isEmpty
      lift (rejectIf (programStartsWithDash program)
        (.unsupported "elevating a leading-dash program under pkexec" "unix"
          "pkexec cannot parse a `--` terminator, so a program starting with `-` would be taken as a pkexec option; use sudo/doas/run0, or a non-dash program path"))
      return [ascii "--disable-internal-agent"]
  | .run0 => do
      let authWords := match auth with
        | .nonInteractive => [ascii "--no-ask-password"]
        | _ => []
      let envWords ← lift (setenvWords debug env)
      return [ascii "--pipe"] ++ authWords ++ envWords
  | .auto => unreachableArm

/-- `build_argv`. -/
def buildArgv (backend : Backend) (backendPath : Bytes) (auth : Auth Bytes)
    (program : Bytes) (args : List Bytes) (env : List (Bytes × Bytes)) :
    Elevating (List Bytes) := do
  let options ← backendOptions debug backend auth program env
  let terminator := if backend != .pkexec then [ascii "--"] else []
  return [backendPath] ++ options ++ terminator ++ program :: args

end

/-! ## The request -/

/-- `explicit_set_env`. -/
def explicitSetEnv (ops : List (EnvOp Bytes)) : List (Bytes × Bytes) :=
  ops.foldl (fun map op =>
    match op with
    | .set k v => insertEntry k v map
    | _ => map) []

/-- `program_and_args`. -/
def programAndArgs (cmd : Command Bytes) :
    Except Error (Bytes × List Bytes) :=
  let empty := Error.unsupported "elevation of an empty command" "unix"
    "set a program via .args([...]) before .elevate()"
  match cmd.input with
  | .empty => .error empty
  | .commandLine _ =>
      .error (.unsupported "elevation of a commandline() command" "unix"
        "elevation requires an argv command (set .args([...])); a raw command line cannot be safely wrapped")
  | .argv [] => .error empty
  | .argv (first :: args) =>
      match cmd.executable with
      | some exe =>
          if first != exe then
            .error (.unsupported
              "elevation with an argv[0] distinct from executable()" "unix"
              "the backend runs the loaded file with argv[0] = its path; a separate argv[0] cannot survive elevation")
          else .ok (exe, args)
      | none => .ok (first, args)

/-- `EnvOp::Remove` or `EnvOp::Clear`. -/
def EnvOp.subtracts : EnvOp Bytes → Bool
  | .set .. => false
  | .remove _ | .clear => true

/-- `Backend::Doas` or `Backend::Pkexec`, which forward no environment. -/
def Backend.forwardsNoEnv (backend : Backend) : Bool :=
  backend == .doas || backend == .pkexec

/-- `Auth::Stdin`. -/
def Auth.isStdin : Auth Bytes → Bool
  | .stdin _ => true
  | _ => false

/-- `reject_structural_posix_config`. -/
def rejectStructuralPosixConfig (cmd : Command Bytes) (backend : Backend)
    (auth : Auth Bytes) : Except Error Unit := do
  let _ ← programAndArgs cmd
  rejectIf (cmd.fds.any fun (slot, _) => slot.raw ≥ 3)
    (.unsupported "fd >= 3 on an elevated POSIX child" "unix"
      "sudo/pkexec closefrom and run0's PID-1 reparent drop fds > 2; fd >= 3 needs the (deferred) broker")
  let ops := cmd.envOps
  rejectIf (ops.any EnvOp.subtracts)
    (.unsupported ".env_remove()/.env_clear() + elevate" "unix"
      "the backend builds the elevated base environment; the crate can add but not subtract from it")
  rejectIf (ops.any (fun op => !EnvOp.subtracts op) &&
      Backend.forwardsNoEnv backend)
    (.unsupported (".env() + Backend::" ++ Backend.debug backend) "unix"
      "doas and pkexec expose no environment-forwarding mechanism; .env()/.envs() cannot cross them")
  rejectIf (backend == .run0 && cmd.contain.mode.isSome)
    (.unsupported ".contain() + Backend::Run0" "unix"
      "run0 runs the target as a PID 1-parented transient unit outside our cgroup; containment cannot span it")
  rejectIf (Auth.isStdin auth && (cmd.fds.get? .stdin).isSome)
    (.unsupported "Auth::Stdin with a caller-configured stdin" "unix"
      "Auth::Stdin consumes fd0 to feed sudo -S the password; do not also configure stdin")

/-- `transfer_process_attrs`. -/
def transferProcessAttrs (derived cmd : Command Bytes) : Command Bytes :=
  let derived := match cmd.cwd with
    | some dir => derived.currentDir dir
    | none => derived
  (derived.setContain cmd.contain).setKillOnDrop cmd.killOnDrop

/-! ## The rewrite -/

/-- `PendingPassword`: the write end of the pipe and the secret. -/
structure PendingPassword where
  writer : Nat
  secret : List UInt8
  deriving DecidableEq, Repr

/-- `PosixRewrite`. -/
structure PosixRewrite where
  derived : Option (Command Bytes)
  report : Option ElevationReport
  passwordWrite : Option PendingPassword
  backendPath : Option Bytes

section

variable (debug : Bytes → String)

/-- The structural gate `rewrite_with_host` starts with. -/
def rejectStructuralConfig (os : Os) (cmd : Command Bytes) :
    Except Error Unit :=
  if isMacosGuiAuto os cmd.elevation.backend cmd.elevation.auth then
    MacosElevation.rejectStructuralGuiConfig debug cmd
  else
    rejectStructuralPosixConfig cmd cmd.elevation.backend cmd.elevation.auth

/-- The variables that reach the child, and the names that are dropped. -/
def sanitized (cmd : Command Bytes) : List (Bytes × Bytes) × List Bytes :=
  EnvSanitizer.apply cmd.elevation.sanitizer (explicitSetEnv cmd.envOps)

/-- The `RunAsIs` arm. -/
def rewriteRunAsIs : Elevating PosixRewrite := do
  let cmd ← command
  let (kept, stripped) := sanitized cmd
  let (program, args) ← lift (programAndArgs cmd)
  let envOps := kept.map fun (k, v) => EnvOp.set k v
  let derived := (Command.default.setInputArgv (program :: args)).setEnvOps
    envOps
  let derived := transferProcessAttrs derived cmd
  let fds ← takeFds
  return {
    derived := some (derived.insertFds fds)
    report := some {
      via := .alreadyElevated
      strippedEnv := stripped
      stdio := .passthrough }
    passwordWrite := none
    backendPath := none }

/-- The environment operations of a wrapped command. -/
def wrappedEnvOps (backend : Backend) (auth : Auth Bytes)
    (kept : List (Bytes × Bytes)) : List (EnvOp Bytes) :=
  let sets := if backend == .sudo then kept.map fun (k, v) => .set k v else []
  match auth with
  | .askpass p => sets ++ [.set (ascii "SUDO_ASKPASS") p]
  | _ => sets

/-- `std::io::pipe()`: the read end and the write end. -/
abbrev PipeAnswer := Except IoError (Nat × Nat)

/-- The password channel of `Auth::Stdin`, wired to descriptor 0 of the
derived command. -/
def wirePassword (pipe : PipeAnswer) (auth : Auth Bytes)
    (derived : Command Bytes) :
    Except Error (Command Bytes × Option PendingPassword) :=
  match auth with
  | .stdin secret =>
      match pipe with
      | .error e => .error (.io e)
      | .ok (reader, writer) =>
          .ok (derived.insertFd .stdin (.file reader), some ⟨writer, secret⟩)
  | _ => .ok (derived, none)

/-- The `ElevatePosix` arm. -/
def rewriteElevatePosix (pipe : PipeAnswer) (backend : Backend)
    (path : Bytes) (auth : Auth Bytes) : Elevating PosixRewrite := do
  let cmd ← command
  let (kept, stripped) := sanitized cmd
  lift (rejectIf (!kept.isEmpty && Backend.forwardsNoEnv backend)
    (.unsupported
      (".env() + Backend::" ++ Backend.debug backend ++ " (resolved via Auto)")
      "unix"
      "doas and pkexec expose no environment-forwarding mechanism; .env()/.envs() cannot cross them"))
  let (program, args) ← lift (programAndArgs cmd)
  let argv ← buildArgv debug backend path auth program args kept
  let derived := (Command.default.setInputArgv argv).setEnvOps
    (wrappedEnvOps backend auth kept)
  let derived := (transferProcessAttrs derived cmd).suppressFdMarker
  let (derived, passwordWrite) ← lift (wirePassword pipe auth derived)
  let fds ← takeFds
  let moved := fds.filter fun (slot, _) =>
    !(passwordWrite.isSome && slot == .stdin)
  return {
    derived := some (derived.insertFds moved)
    report := some {
      via := .wrapped backend
      strippedEnv := stripped
      stdio := if Auth.isStdin auth then .stdinConsumed else .passthrough }
    passwordWrite := passwordWrite
    backendPath := some path }

/-- The `ElevateMacosGui` arm. -/
def rewriteMacosGui (osascript : Bytes) (argMax : Option Nat) :
    Elevating PosixRewrite := do
  let (derived, report) ← MacosElevation.buildRewrite osascript argMax
  return {
    derived := some derived
    report := some report
    passwordWrite := none
    backendPath := some osascript }

/-- The arms of `rewrite_with_host`. -/
def rewriteTransition (pipe : PipeAnswer) :
    Transition Bytes → Elevating PosixRewrite
  | .reject error => throw error
  | .elevateWindows _ => unreachableArm
  | .elevateMacosGui osascript argMax => rewriteMacosGui osascript argMax
  | .runAsIs => rewriteRunAsIs
  | .elevatePosix backend path auth =>
      rewriteElevatePosix debug pipe backend path auth

/-- `rewrite_with_host`. -/
def rewriteWithHost (pipe : PipeAnswer) (host : Host Bytes) :
    Elevating PosixRewrite := do
  let cmd ← command
  lift (rejectStructuralConfig debug host.os cmd)
  rewriteTransition debug pipe
    (host.plan .elevated cmd.elevation.backend cmd.elevation.auth)

end

end Cosca.Ports.PosixElevation
