import Cosca.Ports.CommandRecord
import Cosca.Ports.PosixSplit

/-!
# Elevation reports, and the monad of the rewrite

The report types of `elevation.rs`, and the computations the POSIX and macOS
rewrites are written in.  They act on the caller's `&mut Command`, may return
an `Error`, and may panic.  A panic is an `unreachable!` arm or a failed debug
assertion; in a release build the assertions are absent.
-/

namespace Cosca.Ports.Elevation

open Cosca.Ports.Errors
open Cosca.Ports.CommandRecord
open Cosca.Ports.PosixSplit (Bytes)

/-! ## Reports -/

/-- `ElevatedStdio`. -/
inductive ElevatedStdio where
  | passthrough
  | ownConsole
  | stdinConsumed
  | osascriptRelay
  deriving DecidableEq, Repr

/-- `ElevatedVia`. -/
inductive ElevatedVia where
  | wrapped (backend : Backend)
  | windowsUac
  | macosOsascript
  | alreadyElevated
  deriving DecidableEq, Repr

/-- `ElevationReport`. -/
structure ElevationReport where
  via : ElevatedVia
  strippedEnv : List Bytes
  stdio : ElevatedStdio
  deriving DecidableEq, Repr

/-! ## The monad -/

/-- `if condition { return Err(error) }`. -/
def rejectIf (condition : Bool) (error : Error) : Except Error Unit :=
  if condition then .error error else .ok ()

/-- A computation on the caller's command: a value or an error with the
command as it is left, or `none` for a panic. -/
abbrev Elevating (α : Type) : Type :=
  ExceptT Error (StateT (Command Bytes) Option) α

/-- Run on a command. -/
def Elevating.on {α : Type} (x : Elevating α) (cmd : Command Bytes) :
    Option (Except Error α × Command Bytes) :=
  (ExceptT.run x).run cmd

/-- The command as it is. -/
def command : Elevating (Command Bytes) :=
  ExceptT.mk fun cmd => some (.ok cmd, cmd)

/-- `std::mem::take(cmd.fds_mut())`. -/
def takeFds : Elevating FdTable :=
  ExceptT.mk fun cmd => some (.ok cmd.fds, { cmd with fds := [] })

/-- `unreachable!`. -/
def unreachableArm {α : Type} : Elevating α :=
  ExceptT.mk fun _ => none

/-- `debug_assert!`. -/
def debugAssert (holds : Bool) : Elevating Unit :=
  if holds then pure () else unreachableArm

/-- A fallible computation that does not touch the command. -/
def lift {α : Type} (x : Except Error α) : Elevating α :=
  ExceptT.mk fun cmd => some (x, cmd)

section

variable {α β : Type} (cmd : Command Bytes)

@[simp] theorem on_throw (e : Error) :
    Elevating.on (throw e : Elevating α) cmd = some (.error e, cmd) := by
  rfl

@[simp] theorem on_command :
    Elevating.on command cmd = some (.ok cmd, cmd) := rfl

@[simp] theorem on_takeFds :
    Elevating.on takeFds cmd = some (.ok cmd.fds, { cmd with fds := [] }) :=
  rfl

@[simp] theorem on_lift (x : Except Error α) :
    Elevating.on (lift x) cmd = some (x, cmd) := rfl

/-- Sequencing stops at a panic and at an error, and keeps the command as the
first part leaves it. -/
theorem on_bind (x : Elevating α) (f : α → Elevating β) :
    Elevating.on (x >>= f) cmd =
      match Elevating.on x cmd with
      | none => none
      | some (.error e, cmd') => some (.error e, cmd')
      | some (.ok a, cmd') => Elevating.on (f a) cmd' := by
  show ((ExceptT.run x).run cmd >>= fun p =>
    (ExceptT.bindCont f p.1).run p.2) = _
  cases h : (ExceptT.run x).run cmd with
  | none => simp [Elevating.on, h]
  | some p =>
      obtain ⟨r, cmd'⟩ := p
      cases r with
      | error e => simp [Elevating.on, h, ExceptT.bindCont]
      | ok a => simp [Elevating.on, h, ExceptT.bindCont]; rfl

theorem on_command_bind (f : Command Bytes → Elevating β) :
    Elevating.on (command >>= f) cmd = Elevating.on (f cmd) cmd := by
  rw [on_bind, on_command]

theorem on_takeFds_bind (f : FdTable → Elevating β) :
    Elevating.on (takeFds >>= f) cmd =
      Elevating.on (f cmd.fds) { cmd with fds := [] } := by
  rw [on_bind, on_takeFds]

/-- A fallible part that does not touch the command. -/
theorem on_lift_bind (x : Except Error α) (f : α → Elevating β) :
    Elevating.on (lift x >>= f) cmd =
      match x with
      | .error e => some (.error e, cmd)
      | .ok a => Elevating.on (f a) cmd := by
  rw [on_bind, on_lift]
  cases x with
  | error e => rfl
  | ok a => rfl

/-- An assertion that holds is skipped. -/
theorem on_debugAssert_bind {holds : Bool} (h : holds = true)
    (f : Unit → Elevating β) :
    Elevating.on (debugAssert holds >>= f) cmd = Elevating.on (f ()) cmd := by
  subst h
  rfl

end

end Cosca.Ports.Elevation
