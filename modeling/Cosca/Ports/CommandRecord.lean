import Cosca.Ports.Errors

/-!
# The command builder's record

`command.rs`, `stdio.rs`, and the requests of `containment.rs` and
`elevation.rs` that a `Command` carries to its spawn.  An OS string is bytes on
Unix and UTF-16 code units on Windows, so everything here is stated over a
string type `Str`.

The creation-flag request stands with the functions that read it, in
`CreationFlags`.
-/

namespace Cosca.Ports.CommandRecord

/-! ## Descriptors -/

/-- `Fd`. -/
structure Fd where
  raw : Int32
  deriving DecidableEq, Repr

abbrev Fd.stdin : Fd := ⟨0⟩
abbrev Fd.stdout : Fd := ⟨1⟩
abbrev Fd.stderr : Fd := ⟨2⟩

/-- `Direction`. -/
inductive Direction where
  | input
  | output
  deriving DecidableEq, Repr

/-- `ResolvedStdio`; an open file is known by its descriptor. -/
inductive ResolvedStdio where
  | inherit
  | null
  | pipe (dir : Direction)
  | file (handle : Nat)
  | merge (target : Fd)
  deriving DecidableEq, Repr

/-- The descriptor table of a command, a `BTreeMap`: its entries by ascending
descriptor. -/
abbrev FdTable := List (Fd × ResolvedStdio)

/-- `BTreeMap::get`. -/
def FdTable.get? (t : FdTable) (slot : Fd) : Option ResolvedStdio :=
  (t.find? fun (fd, _) => fd == slot).map fun (_, target) => target

/-- `BTreeMap::insert`, over the entries by ascending key. -/
def insertEntry {K V : Type} [Ord K] (key : K) (value : V) :
    List (K × V) → List (K × V)
  | [] => [(key, value)]
  | (k, v) :: rest =>
      match compare key k with
      | .lt => (key, value) :: (k, v) :: rest
      | .eq => (key, value) :: rest
      | .gt => (k, v) :: insertEntry key value rest

instance : Ord Fd where
  compare a b := compare a.raw b.raw

/-! ## Requests -/

/-- `EnvOp`. -/
inductive EnvOp (Str : Type) where
  | set (key value : Str)
  | remove (key : Str)
  | clear

/-- `CommandInput`. -/
inductive CommandInput (Str : Type) where
  | empty
  | argv (argv : List Str)
  | commandLine (line : Str)

/-- `ContainMode`. -/
inductive ContainMode where
  | strongest
  | treeWalk
  | session
  deriving DecidableEq, Repr

/-- `Nesting`. -/
inductive Nesting where
  | mark
  | opaqueNesting
  deriving DecidableEq, Repr

/-- `ContainRequest`; `mode` is `none` for a child that is not contained. -/
structure ContainRequest where
  mode : Option ContainMode
  nesting : Nesting
  deriving DecidableEq, Repr

/-- `ContainRequest::default`. -/
def ContainRequest.default : ContainRequest where
  mode := none
  nesting := .mark

/-- `Backend`. -/
inductive Backend where
  | auto
  | run0
  | «sudo»
  | doas
  | pkexec
  deriving DecidableEq, Repr

/-- `Auth`; a `Secret` is its bytes. -/
inductive Auth (Str : Type) where
  | interactive
  | nonInteractive
  | askpass (program : Str)
  | stdin (secret : List UInt8)
  | gui

/-- The `Policy` of an `EnvSanitizer`. -/
inductive Policy (Str : Type) where
  | denylist (keep : List Str)
  | allowlist (allow : List Str)
  | filter (f : Str → Str → Bool)
  | none

/-- `EnvSanitizer`. -/
structure EnvSanitizer (Str : Type) where
  policy : Policy Str

/-- `EnvSanitizer::default`. -/
def EnvSanitizer.default {Str : Type} : EnvSanitizer Str where
  policy := .denylist []

/-- `ElevationRequest`. -/
structure ElevationRequest (Str : Type) where
  enabled : Bool
  backend : Backend
  auth : Auth Str
  sanitizer : EnvSanitizer Str

/-- `ElevationRequest::default`. -/
def ElevationRequest.default {Str : Type} : ElevationRequest Str where
  enabled := false
  backend := .auto
  auth := .interactive
  sanitizer := EnvSanitizer.default

/-! ## The command -/

/-- `Command`. -/
structure Command (Str : Type) where
  input : CommandInput Str
  executable : Option Str
  fds : FdTable
  envOps : List (EnvOp Str)
  cwd : Option Str
  killOnDrop : Bool
  contain : ContainRequest
  elevation : ElevationRequest Str
  fdMarkerSuppressed : Bool

/-- `Command::default`. -/
def Command.default {Str : Type} : Command Str where
  input := .empty
  executable := none
  fds := []
  envOps := []
  cwd := none
  killOnDrop := true
  contain := ContainRequest.default
  elevation := ElevationRequest.default
  fdMarkerSuppressed := false

/-! ## Building a derived command -/

variable {Str : Type}

/-- `Command::set_input_argv`. -/
def Command.setInputArgv (c : Command Str) (argv : List Str) : Command Str :=
  { c with input := .argv argv, executable := none }

/-- `Command::set_env_ops`. -/
def Command.setEnvOps (c : Command Str) (ops : List (EnvOp Str)) :
    Command Str :=
  { c with envOps := ops }

/-- `Command::set_contain`. -/
def Command.setContain (c : Command Str) (request : ContainRequest) :
    Command Str :=
  { c with contain := request }

/-- `Command::suppress_fd_marker`. -/
def Command.suppressFdMarker (c : Command Str) : Command Str :=
  { c with fdMarkerSuppressed := true }

/-- `Command::current_dir`. -/
def Command.currentDir (c : Command Str) (dir : Str) : Command Str :=
  { c with cwd := some dir }

/-- `Command::kill_on_drop`. -/
def Command.setKillOnDrop (c : Command Str) (yes : Bool) : Command Str :=
  { c with killOnDrop := yes }

/-- `fds_mut().insert(slot, resolved)`. -/
def Command.insertFd (c : Command Str) (slot : Fd) (target : ResolvedStdio) :
    Command Str :=
  { c with fds := insertEntry slot target c.fds }

/-- `fds_mut().insert` for every entry of a table. -/
def Command.insertFds (c : Command Str) (table : FdTable) : Command Str :=
  table.foldl (fun c (slot, target) => c.insertFd slot target) c

end Cosca.Ports.CommandRecord
