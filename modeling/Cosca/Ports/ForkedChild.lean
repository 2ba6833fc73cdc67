import Cosca.Ports.CommandRecord
import Cosca.Ports.Errors
import Cosca.Verified.Descriptors

/-!
# From fork to exec

What a Unix spawn does in the forked child: `prepare` of `dispatch.rs` puts the
hooks of the containment on the `Command` (`set_process_group`, `set_session`,
the placement in the cgroup leaf, the marker of `fdmarker::install`), the spawn
adds the mapping of its descriptors last, and std runs them in the child.

`command-fds` is a parameter with its documented behaviour; the standard
library's own steps between `fork` and `exec` are a definition.  Both may fail,
and then the child ends before its `exec`.

## Main results

* `safeMarkerFd_clear` — where the marker is placed, no mapping reaches it.
-/

namespace Cosca.Ports.ForkedChild

open Cosca.Ports.CommandRecord
open Cosca.Ports.Errors
open Cosca.Verified.Descriptors

/-! ## Descriptors -/

/-- What a descriptor is open on: the `cgroup.procs` of a leaf, an end of a
marker pipe, anything else. -/
inductive File where
  | procs (leaf : Nat)
  | markerWrite (marker : Nat)
  | markerRead (marker : Nat)
  | other (id : Nat)
  deriving DecidableEq

/-- `FdMapping`. -/
structure FdMapping where
  parentFd : Nat
  childFd : Nat

/-- `RawFd::MAX`. -/
def rawFdMax : Nat := 2147483647

/-- `HIGH_FLOOR`. -/
def highFloor : Nat := 64

/-- `safe_marker_fd`. -/
def safeMarkerFd (candidate : Nat) (reserved : List Nat) : Nat :=
  let floor := max (match reserved.max? with
    | none => highFloor
    | some m => min (m + 1) rawFdMax) highFloor
  max candidate floor

theorem le_safeMarkerFd (candidate : Nat) (reserved : List Nat) :
    highFloor ≤ safeMarkerFd candidate reserved :=
  Nat.le_trans (Nat.le_max_right ..) (Nat.le_max_right ..)

/-- The number is above every reserved one that has a number above it. -/
theorem lt_safeMarkerFd (candidate : Nat) {fd : Nat} {reserved : List Nat}
    (hfd : fd ∈ reserved) (hmax : fd < rawFdMax) :
    fd < safeMarkerFd candidate reserved := by
  have hsome : reserved.max?.isSome := List.isSome_max?_of_mem hfd
  obtain ⟨m, hm⟩ := Option.isSome_iff_exists.mp hsome
  have hle : fd ≤ m := (List.max?_eq_some_iff.mp hm).2 fd hfd
  simp only [safeMarkerFd, hm]
  omega

/-- A descriptor that was placed there is none of the reserved ones, not even
where `saturating_add` has saturated. -/
theorem safeMarkerFd_clear {candidate fd : Nat} {reserved : List Nat}
    (hplaced : safeMarkerFd candidate reserved ≤ fd) (hfd : fd < rawFdMax) :
    fd ∉ reserved := by
  intro hmem
  have hlt := lt_safeMarkerFd candidate hmem hfd
  omega

/-! ## Before the spawn -/

/-- `CgroupLeaf`, by its sequence number. -/
structure Leaf where
  seq : Nat
  procsFd : Nat
  deriving DecidableEq

/-- `PreparedMarker`, by the number of its pipe. -/
structure PreparedMarker where
  pipe : Nat
  readFd : Nat
  fd : Nat
  deriving DecidableEq

/-- What runs in the forked child, in the order of its registration. -/
inductive Hook where
  /-- The closure of `set_session`. -/
  | setSession
  /-- `place_self_in_cgroup_pre_exec`. -/
  | placeSelf (procsFd : Nat)
  /-- `preserved_fds`. -/
  | preserveFd (fd : Nat)
  /-- `fd_mappings`. -/
  | mapFds (mappings : List FdMapping)

/-- `std::process::Command`, as far as the child runs it: the sources of the
three stdio ends, whether a `process_group` is set, and the hooks. -/
structure StdCommand where
  stdin : Nat
  stdout : Nat
  stderr : Nat
  processGroup : Bool
  hooks : List Hook

/-- `pre_exec`. -/
def StdCommand.preExec (c : StdCommand) (hook : Hook) : StdCommand :=
  { c with hooks := c.hooks ++ [hook] }

/-- `set_process_group`. -/
def StdCommand.setProcessGroup (c : StdCommand) : StdCommand :=
  { c with processGroup := true }

/-- `set_session`. -/
def StdCommand.setSession (c : StdCommand) : StdCommand :=
  c.preExec .setSession

/-- `UnixSetup`. -/
inductive UnixSetup where
  | session
  | processGroup
  | none
  deriving DecidableEq

/-- `unix_setup_for`. -/
def unixSetupFor : Option ContainMode → UnixSetup
  | some .session => .session
  | some .treeWalk => .none
  | _ => .processGroup

/-- `marker_wanted`. -/
def markerWanted (mode : Option ContainMode) (isRoot suppressed : Bool) :
    Bool :=
  mode.isSome && isRoot && !suppressed

/-- `Prepared`. -/
structure Prepared where
  mode : Option ContainMode
  isRoot : Bool
  cgroupLeaf : Option Leaf
  marker : Option PreparedMarker
  deriving DecidableEq

/-- Whether `prepare` calls `try_create_leaf`. -/
def leafWanted (mode : Option ContainMode) (isRoot : Bool) : Bool :=
  mode.isSome && isRoot && unixSetupFor mode == .processGroup

/-- `prepare` on Linux, without the environment; `leaf` is what
`try_create_leaf` returns. -/
def prepareLinux (mode : Option ContainMode) (isRoot : Bool)
    (leaf : Option Leaf) (c : StdCommand) : Prepared × StdCommand :=
  if mode.isNone then (⟨none, false, none, none⟩, c)
  else if isRoot && mode.isSome then
    match unixSetupFor mode with
    | .session => (⟨mode, isRoot, none, none⟩, c.setSession)
    | .none => (⟨mode, isRoot, none, none⟩, c)
    | .processGroup =>
        match leaf with
        | none => (⟨mode, isRoot, none, none⟩, c.setProcessGroup)
        | some l => (⟨mode, isRoot, some l, none⟩,
            c.setProcessGroup.preExec (.placeSelf l.procsFd))
  else (⟨mode, isRoot, none, none⟩, c)

/-- `prepare` on macOS, without the environment; `marker` is what `install`
returns, which has handed the write end to the command. -/
def prepareMacos (mode : Option ContainMode) (isRoot suppressed : Bool)
    (marker : Option PreparedMarker) (c : StdCommand) :
    Prepared × StdCommand :=
  if mode.isNone then (⟨none, false, none, none⟩, c)
  else
    let c :=
      if isRoot && mode.isSome then
        match unixSetupFor mode with
        | .session => c.setSession
        | .processGroup => c.setProcessGroup
        | .none => c
      else c
    if markerWanted mode isRoot suppressed then
      match marker with
      | none => (⟨mode, isRoot, none, none⟩, c)
      | some m => (⟨mode, isRoot, none, some m⟩, c.preExec (.preserveFd m.fd))
    else (⟨mode, isRoot, none, none⟩, c)

/-- The platforms. -/
inductive Os where
  | linux
  | macos
  deriving DecidableEq

/-- `prepare`, with the leaf or the marker the system gives. -/
def prepare (os : Os) (mode : Option ContainMode) (isRoot suppressed : Bool)
    (leaf : Option Leaf) (marker : Option PreparedMarker) (c : StdCommand) :
    Prepared × StdCommand :=
  match os with
  | .linux => prepareLinux mode isRoot leaf c
  | .macos => prepareMacos mode isRoot suppressed marker c

/-- The command as `spawn_unelevated` spawns it: the mapping of its descriptors
is the last hook. -/
def withMappings (mappings : List FdMapping) (c : StdCommand) : StdCommand :=
  if mappings.isEmpty then c else c.preExec (.mapFds mappings)

/-! ## In the child -/

/-- A forked child before its `exec`. -/
structure Forked where
  pid : Nat
  pgid : Nat
  sid : Nat
  leaf : Option Nat
  table : Table File
  /-- What a placement has written to that was no `cgroup.procs`. -/
  spoiled : List File

/-- `EPERM`. -/
def eperm : IoError := .os 1

/-- `setpgid(0, 0)`. -/
def Forked.setpgid (child : Forked) : Except IoError Forked :=
  if child.sid = child.pid then .error eperm
  else .ok { child with pgid := child.pid }

/-- `setsid`. -/
def Forked.setsid (child : Forked) : Except IoError Forked :=
  if child.pgid = child.pid then .error eperm
  else .ok { child with pgid := child.pid, sid := child.pid }

/-- The write of `"0"` to a descriptor; `admits` tells whether the kernel lets
the child into the leaf. -/
def Forked.writeZero (admits : Bool) (fd : Nat) (child : Forked) : Forked :=
  match child.table fd with
  | some ⟨.procs leaf, _⟩ =>
      if admits then { child with leaf := some leaf } else child
  | some ⟨file, _⟩ => { child with spoiled := child.spoiled ++ [file] }
  | none => child

/-- `place_self_in_cgroup_pre_exec`; its error is dropped. -/
def Forked.placeSelf (admits : Bool) (fd : Nat) (child : Forked) : Forked :=
  let child := child.writeZero admits fd
  { child with table := child.table.close fd }

/-- `command-fds`: it may fail (a number is above the limit of descriptors, or
there are no more); else every child descriptor is what its parent descriptor
was, and `exec` leaves of the others what it had left. -/
structure CommandFds where
  mapFds : List FdMapping → Table File → Except IoError (Table File)
  mapped : ∀ (mappings : List FdMapping) (t t' : Table File) (x : FdMapping),
    mapFds mappings t = .ok t' → (mappings.map (·.childFd)).Nodup →
    (∀ y ∈ mappings, t y.parentFd ≠ none) → x ∈ mappings →
    t'.exec x.childFd =
      (t x.parentFd).map fun e => { e with cloexec := false }
  others : ∀ (mappings : List FdMapping) (t t' : Table File) (fd : Nat),
    mapFds mappings t = .ok t' → fd ∉ mappings.map (·.childFd) →
    t'.exec fd = t.exec fd

/-- A hook. -/
def Hook.run (cf : CommandFds) (admits : Bool) (child : Forked) :
    Hook → Except IoError Forked
  | .setSession => child.setsid
  | .placeSelf procsFd => .ok (child.placeSelf admits procsFd)
  | .preserveFd fd =>
      .ok { child with table := child.table.setCloexec fd false }
  | .mapFds mappings =>
      (cf.mapFds mappings child.table).map fun t => { child with table := t }

/-- The `process_group` of a command. -/
def StdCommand.joinGroup (c : StdCommand) (child : Forked) :
    Except IoError Forked :=
  if c.processGroup then child.setpgid else .ok child

/-- A step of std's own between `fork` and `exec`: a stdio end is placed, the
directory is entered, the signals are reset. -/
inductive StdStep where
  | dup2 (fd : Nat)
  | chdir
  | signals

/-- What std does between `fork` and `exec`: the stdio ends, the directory, the
process group, the signals, the hooks; `std` tells how its own steps go. -/
def StdCommand.doExec (cf : CommandFds) (std : StdStep → Except IoError Unit)
    (admits : Bool) (c : StdCommand) (child : Forked) :
    Except IoError Forked := do
  std (.dup2 0)
  std (.dup2 1)
  std (.dup2 2)
  let stdio := ((child.table.dup2 c.stdin 0).dup2 c.stdout 1).dup2 c.stderr 2
  let child := { child with table := stdio }
  std .chdir
  let child ← c.joinGroup child
  std .signals
  let child ← c.hooks.foldlM (Hook.run cf admits) child
  return { child with table := child.table.exec }

/-! ## A launch -/

/-- What one spawn hands to its child. -/
structure Launch where
  os : Os
  mode : Option ContainMode
  isRoot : Bool
  suppressed : Bool
  stdin : Nat
  stdout : Nat
  stderr : Nat
  mappings : List FdMapping
  leaf : Option Leaf
  marker : Option PreparedMarker

namespace Launch

/-- The command with its stdio ends. -/
def stdCommand (l : Launch) : StdCommand :=
  ⟨l.stdin, l.stdout, l.stderr, false, []⟩

/-- The outcome of `prepare`. -/
def prepared (l : Launch) : Prepared :=
  (prepare l.os l.mode l.isRoot l.suppressed l.leaf l.marker l.stdCommand).1

/-- The command that is spawned. -/
def command (l : Launch) : StdCommand :=
  withMappings l.mappings
    (prepare l.os l.mode l.isRoot l.suppressed l.leaf l.marker l.stdCommand).2

/-- The numbers that are taken in the child. -/
def reserved (l : Launch) : List Nat :=
  l.mappings.map (·.childFd)

/-- The group that the mode asks for. -/
def setup (l : Launch) : UnixSetup :=
  if l.mode.isSome && l.isRoot then unixSetupFor l.mode else .none

/-- The hooks of the containment's group. -/
def groupHooks (l : Launch) : List Hook :=
  if l.setup = .session then [.setSession] else []

/-- The hooks of the containment's resource. -/
def resourceHooks (l : Launch) : List Hook :=
  (l.prepared.cgroupLeaf.toList.map fun leaf => .placeSelf leaf.procsFd) ++
    l.prepared.marker.toList.map fun m => .preserveFd m.fd

/-- The hook of the descriptors. -/
def mappingHooks (l : Launch) : List Hook :=
  if l.mappings.isEmpty then [] else [.mapFds l.mappings]

/-- Every hook a launch has, in its order. -/
theorem command_eq (l : Launch) : l.command =
    { l.stdCommand with
      processGroup := l.setup == .processGroup
      hooks := l.groupHooks ++ l.resourceHooks ++ l.mappingHooks } := by
  obtain ⟨os, mode, isRoot, suppressed, _, _, _, mappings, leaf, marker⟩ := l
  cases mode with
  | none =>
      cases os <;> cases mappings <;>
        rfl
  | some mode =>
      cases os <;> cases mode <;> cases isRoot <;> cases suppressed <;>
        cases leaf <;> cases marker <;> cases mappings <;>
        rfl

/-- The stdio ends are those of the launch. -/
theorem command_stdio (l : Launch) : l.command.stdin = l.stdin ∧
    l.command.stdout = l.stdout ∧ l.command.stderr = l.stderr := by
  rw [command_eq]
  exact ⟨rfl, rfl, rfl⟩

/-- A copy that `exec` leaves open. -/
def kept (t : Table File) (fd : Nat) : Option (Entry File) :=
  (t fd).map fun e => { e with cloexec := false }

/-- What the child holds after its `exec`. -/
def execTable (l : Launch) (t : Table File) : Table File := fun fd =>
  if fd = 2 then kept t l.stderr
  else if fd = 1 then kept t l.stdout
  else if fd = 0 then kept t l.stdin
  else
    match l.mappings.find? (·.childFd == fd) with
    | some x => kept t x.parentFd
    | none =>
        if l.prepared.cgroupLeaf.any (·.procsFd == fd) then none
        else if l.prepared.marker.any (·.fd == fd) then kept t fd
        else t.exec fd

/-- What a launch is spawned with: sources above the stdio, numbers that are
mapped once, and the containment's descriptor as `try_create_leaf` and
`install` leave it. -/
structure Ready (l : Launch) (t : Table File) : Prop where
  stdin : 3 ≤ l.stdin
  stdout : 3 ≤ l.stdout
  stderr : 3 ≤ l.stderr
  nodup : l.reserved.Nodup
  child : ∀ x ∈ l.mappings, 3 ≤ x.childFd
  parent : ∀ x ∈ l.mappings, 3 ≤ x.parentFd ∧ t x.parentFd ≠ none
  leaf : ∀ leaf, l.prepared.cgroupLeaf = some leaf →
    3 ≤ leaf.procsFd ∧ t leaf.procsFd = some ⟨.procs leaf.seq, false⟩ ∧
      ∀ x ∈ l.mappings, x.parentFd ≠ leaf.procsFd
  marker : ∀ m, l.prepared.marker = some m →
    highFloor ≤ m.fd ∧ m.fd ∉ l.reserved

end Launch

end Cosca.Ports.ForkedChild
