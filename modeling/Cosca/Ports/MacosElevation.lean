import Cosca.Ports.Elevation
import Cosca.Ports.MacosScript

/-!
# Graphical elevation on macOS

The rest of `elevation/macos.rs`: what a graphical request may carry, and the
derived `osascript -e` command.  `debug` is the quoted form `{:?}` gives a
name.
-/

namespace Cosca.Ports.MacosElevation

open Cosca.Ports.Errors
open Cosca.Ports.CommandRecord
open Cosca.Ports.Elevation
open Cosca.Ports.MacosScript
open Cosca.Ports.PosixSplit (Bytes)
open Cosca.Verified.Utf8

/-- `unsupported`. -/
def unsupported (op detail : String) : Error :=
  .unsupported op "macos" detail

/-- `is_posix_absolute`. -/
def isPosixAbsolute (s : Bytes) : Bool :=
  s.head? == some 47

/-- `program_and_args`. -/
def programAndArgs (cmd : Command Bytes) :
    Except Error (Bytes × List Bytes) :=
  let empty := unsupported "macOS graphical elevation of an empty command"
    "set a program via .args([...]) before .elevate()"
  match cmd.input with
  | .empty => .error empty
  | .commandLine _ =>
      .error (unsupported "macOS graphical elevation of a commandline() command"
        "the command must be an argv (set .args([...])); a raw command line cannot be re-quoted for /bin/sh without guessing its word boundaries")
  | .argv [] => .error empty
  | .argv (first :: args) =>
      match cmd.executable with
      | some exe =>
          if first != exe then
            .error (unsupported
              "macOS graphical elevation with an argv[0] distinct from executable()"
              "`do shell script` execs the program, which sets argv[0] to its own path; a separate argv[0] cannot survive elevation")
          else .ok (exe, args)
      | none => .ok (first, args)

/-- One turn of the loop over the descriptors. -/
def checkFd (slot : Fd) (resolved : ResolvedStdio) : Except Error Unit :=
  if slot.raw ≥ 3 then
    .error (unsupported "fd >= 3 on a macOS graphically-elevated child"
      "the authorization trampoline passes no descriptors, so fd >= 3 cannot reach the elevated program")
  else if slot == .stdin && resolved != .inherit && resolved != .null then
    .error (unsupported
      "a pipe or file on stdin for a macOS graphically-elevated child"
      "the elevated program's stdin comes from Authorization Services; osascript never reads fd0, so anything written there would be silently discarded. Use null() or inherit()")
  else .ok ()

variable (debug : Bytes → String)

/-- `reject_structural_gui_config`. -/
def rejectStructuralGuiConfig (cmd : Command Bytes) : Except Error Unit := do
  let (program, _) ← programAndArgs cmd
  rejectIf (!isPosixAbsolute program)
    (unsupported "macOS graphical elevation of a non-absolute program"
      (debug program ++ " would be resolved by the elevated shell's own PATH, not the caller's, so the binary that runs as root is not the one you selected; pass an absolute path"))
  cmd.cwd.forM fun dir =>
    rejectIf (!isPosixAbsolute dir)
      (unsupported "macOS graphical elevation with a relative current_dir()"
        (debug dir ++ " would resolve against this process's directory for osascript but against whatever the authorization trampoline hands the elevated shell for the command itself; pass an absolute path"))
  cmd.fds.forM fun (slot, resolved) => checkFd slot resolved
  rejectIf (!cmd.envOps.isEmpty)
    (unsupported "env forwarding to a macOS graphically-elevated child"
      "the authorization trampoline builds the root environment; the only way to pass a variable would be an assignment in the command text, which is visible to anyone inspecting the running processes")
  rejectIf cmd.contain.mode.isSome
    (unsupported ".contain() + macOS graphical elevation"
      "the elevated program runs under the authorization trampoline, parented to launchd and outside this process's tree; containment cannot span it")

/-- `build_rewrite`.  The assertions on the program and the directory are the
ones `build_shell_command` starts with. -/
def buildRewrite (osascript : Bytes) (argMax : Option Nat) :
    Elevating (Command Bytes × ElevationReport) := do
  let cmd ← command
  debugAssert cmd.envOps.isEmpty
  debugAssert cmd.contain.mode.isNone
  debugAssert (cmd.fds.all fun (slot, _) => slot.raw < 3)
  let (program, args) ← lift (programAndArgs cmd)
  debugAssert (isPosixAbsolute program)
  debugAssert (cmd.cwd.all isPosixAbsolute)
  let shellCommand := buildShellCommand program args cmd.cwd
  let script ← lift (wrapDoShellScript shellCommand argMax)
  let derived := Command.default.setInputArgv
    [osascript, encode "-e".toList, encode script]
  let derived := match cmd.cwd with
    | some dir => derived.currentDir dir
    | none => derived
  let derived := derived.setKillOnDrop cmd.killOnDrop
  let fds ← takeFds
  return (derived.insertFds fds,
    { via := .macosOsascript, strippedEnv := [], stdio := .osascriptRelay })

end Cosca.Ports.MacosElevation
