import Cosca.Ports.ElevationVerdict
import Cosca.Ports.EnvBlock

/-!
# What the elevation rewrite does to a command

`rewrite_with_host` refuses a request, or hands the caller's descriptors to a
derived command: the original program, a front end of the command line, or
`osascript`.  Its arms rely on what the gate in front of them has checked.

## Main results

* `rewriteWithHost_outcome`: every way in which the rewrite ends.
* `rewriteWithHost_guarded`: no assertion behind the gates fails.
* `rewriteWithHost_atomic`: no descriptor is lost.
-/

namespace Cosca.Ports.ElevationRewrite

open Cosca.Ports.Errors
open Cosca.Ports.CommandRecord
open Cosca.Ports.Elevation
open Cosca.Ports.ElevationArgv
open Cosca.Ports.ElevationPlan
open Cosca.Ports.ElevationVerdict
open Cosca.Ports.PosixElevation
open Cosca.Ports.EnvBlock (Sorted)
open Cosca.Ports.MacosElevation (isPosixAbsolute rejectStructuralGuiConfig
  buildRewrite checkFd)
open Cosca.Ports.MacosScript (buildShellCommand wrapDoShellScript)
open Cosca.Ports.PosixSplit (Bytes)
open Cosca.Verified.Utf8

/-! ## What the gates establish -/

theorem rejectIf_eq_ok_iff {condition : Bool} {e : Error} :
    rejectIf condition e = .ok () ↔ condition = false := by
  cases condition with
  | false => exact iff_of_true rfl rfl
  | true => exact iff_of_false nofun nofun

/-- A gate that passes has passed its first check and its other ones. -/
theorem rejectIf_bind_eq_ok {condition : Bool} {e : Error}
    {f : Unit → Except Error Unit} (h : (rejectIf condition e >>= f) = .ok ()) :
    condition = false ∧ f () = .ok () := by
  obtain ⟨u, hfirst, hrest⟩ := bind_eq_ok h
  exact ⟨rejectIf_eq_ok_iff.mp hfirst, hrest⟩

/-- What the arm of a graphical elevation relies on. -/
structure GuiReady (cmd : Command Bytes) (program : Bytes)
    (args : List Bytes) : Prop where
  program_eq : MacosElevation.programAndArgs cmd = .ok (program, args)
  program_absolute : program.head? = some 47
  cwd_absolute : ∀ dir, cmd.cwd = some dir → dir.head? = some 47
  low : ∀ slot target, (slot, target) ∈ cmd.fds → slot.raw < 3
  no_env : cmd.envOps = []
  uncontained : cmd.contain.mode = none

theorem checkFd_low {slot : Fd} {target : ResolvedStdio}
    (h : checkFd slot target = .ok ()) : slot.raw < 3 := by
  unfold checkFd at h
  by_cases hhigh : slot.raw ≥ 3
  · rw [if_pos hhigh] at h
    cases h
  · exact Int32.not_le.mp hhigh

theorem guiReady_of_gate {debug : Bytes → String} {cmd : Command Bytes}
    (h : rejectStructuralGuiConfig debug cmd = .ok ()) :
    ∃ program args, GuiReady cmd program args := by
  obtain ⟨⟨program, args⟩, hprogram, h⟩ := bind_eq_ok h
  obtain ⟨habsolute, h⟩ := rejectIf_bind_eq_ok h
  obtain ⟨u, hcwd, h⟩ := bind_eq_ok h
  obtain ⟨v, hfds, h⟩ := bind_eq_ok h
  obtain ⟨henv, h⟩ := rejectIf_bind_eq_ok h
  have hcontain := rejectIf_eq_ok_iff.mp h
  refine ⟨program, args, {
    program_eq := hprogram
    program_absolute := ?_
    cwd_absolute := ?_
    low := ?_
    no_env := ?_
    uncontained := ?_ }⟩
  · simpa [isPosixAbsolute] using habsolute
  · intro dir hdir
    rw [hdir] at hcwd
    have hpassed := rejectIf_eq_ok_iff.mp hcwd
    simpa [isPosixAbsolute] using hpassed
  · intro slot target hmem
    exact checkFd_low (forM_eq_ok hfds (slot, target) hmem)
  · simpa using henv
  · simpa using hcontain

/-- What the arms of the command line rely on. -/
structure CliReady (cmd : Command Bytes) : Prop where
  program : ∃ p, programAndArgs cmd = .ok p
  stdin_free : Auth.isStdin cmd.elevation.auth = true →
    cmd.fds.get? .stdin = none

theorem cliReady_of_gate {cmd : Command Bytes}
    (h : rejectStructuralPosixConfig cmd cmd.elevation.backend
      cmd.elevation.auth = .ok ()) : CliReady cmd := by
  obtain ⟨p, hp, h⟩ := bind_eq_ok h
  obtain ⟨-, h⟩ := rejectIf_bind_eq_ok h
  obtain ⟨-, h⟩ := rejectIf_bind_eq_ok h
  obtain ⟨-, h⟩ := rejectIf_bind_eq_ok h
  obtain ⟨-, h⟩ := rejectIf_bind_eq_ok h
  have hstdin := rejectIf_eq_ok_iff.mp h
  refine ⟨⟨p, hp⟩, fun hauth => ?_⟩
  rw [hauth, Bool.true_and] at hstdin
  exact Option.isNone_iff_eq_none.mp (by simpa using hstdin)

/-! ## The plan -/

theorem resolveBackend_ne_auto {available : BackendSet Bytes}
    {backend resolved : Backend} {path : Bytes}
    (h : resolveBackend available backend = .ok (resolved, path)) :
    resolved ≠ .auto := by
  cases backend with
  | auto =>
      unfold resolveBackend at h
      dsimp only at h
      cases hsudo : available.sudo with
      | some p =>
          rw [hsudo] at h
          cases h
          exact nofun
      | none =>
          rw [hsudo] at h
          cases hdoas : available.doas with
          | some p =>
              rw [hdoas] at h
              cases h
              exact nofun
          | none =>
              rw [hdoas] at h
              cases h
  | run0 | «sudo» | doas | pkexec =>
      unfold resolveBackend at h
      dsimp only at h
      split at h
      · cases h
        exact nofun
      · cases h

/-- The decisions of the planner for a request on a host that is not a Windows
one. -/
inductive Planned (host : Host Bytes) (cmd : Command Bytes) :
    Transition Bytes → Prop where
  | reject (e : Error) : Planned host cmd (.reject e)
  | runAsIs : Planned host cmd .runAsIs
  | gui (osascript : Bytes)
      (hgui : isMacosGuiAuto host.os cmd.elevation.backend
        cmd.elevation.auth = true) :
      Planned host cmd (.elevateMacosGui osascript host.argMax)
  | wrapped {backend : Backend} (path : Bytes)
      (hcli : isMacosGuiAuto host.os cmd.elevation.backend
        cmd.elevation.auth = false)
      (hresolved : backend ≠ .auto) :
      Planned host cmd (.elevatePosix backend path cmd.elevation.auth)

/-- The decision for a request. -/
def planned (host : Host Bytes) (cmd : Command Bytes) : Transition Bytes :=
  host.plan .elevated cmd.elevation.backend cmd.elevation.auth

theorem planned_cases {host : Host Bytes} (hos : host.os ≠ .windows)
    (cmd : Command Bytes) : Planned host cmd (planned host cmd) := by
  have hplan := plan_posix hos host.elevated cmd.elevation.backend
    cmd.elevation.auth
  have hsame : host.withElevated host.elevated = host := rfl
  rw [hsame] at hplan
  unfold planned
  rw [hplan]
  cases structuralPosix host.os cmd.elevation.backend cmd.elevation.auth
      host.available with
  | some e => exact .reject e
  | none =>
      dsimp only
      by_cases helevated : host.elevated = true
      · rw [if_pos helevated]
        exact .runAsIs
      rw [if_neg helevated]
      by_cases hgui : isMacosGuiAuto host.os cmd.elevation.backend
          cmd.elevation.auth = true
      · rw [if_pos hgui]
        cases host.available.osascript with
        | none => exact .reject _
        | some osascript => exact .gui osascript hgui
      · rw [if_neg hgui]
        rw [Bool.not_eq_true] at hgui
        unfold Host.resolvePosix
        cases hbackend : resolveBackend host.available
            cmd.elevation.backend with
        | error detail => exact .reject _
        | ok resolved =>
            obtain ⟨backend, path⟩ := resolved
            dsimp only
            split
            · exact .reject _
            · exact .wrapped path hgui (resolveBackend_ne_auto hbackend)

/-! ## The results of the arms -/

section

variable (cmd : Command Bytes)

/-- The command of the `RunAsIs` arm, before the descriptors. -/
def asIsCommand (program : Bytes) (args : List Bytes) : Command Bytes :=
  transferProcessAttrs
    ((Command.default.setInputArgv (program :: args)).setEnvOps
      ((sanitized cmd).1.map fun (k, v) => EnvOp.set k v)) cmd

def asIsRewrite (program : Bytes) (args : List Bytes) : PosixRewrite where
  derived := some ((asIsCommand cmd program args).insertFds cmd.fds)
  report := some {
    via := .alreadyElevated
    strippedEnv := (sanitized cmd).2
    stdio := .passthrough }
  passwordWrite := none
  backendPath := none

/-- The command of the `ElevatePosix` arm, before the descriptors. -/
def wrappedCommand (backend : Backend) (argv : List Bytes) : Command Bytes :=
  (transferProcessAttrs
    ((Command.default.setInputArgv argv).setEnvOps
      (wrappedEnvOps backend cmd.elevation.auth (sanitized cmd).1))
    cmd).suppressFdMarker

/-- The descriptors that are moved behind the password channel. -/
def movedFds (password : Option PendingPassword) : FdTable :=
  cmd.fds.filter fun (slot, _) => !(password.isSome && slot == .stdin)

def wrappedRewrite (backend : Backend) (path : Bytes) (derived : Command Bytes)
    (password : Option PendingPassword) : PosixRewrite where
  derived := some (derived.insertFds (movedFds cmd password))
  report := some {
    via := .wrapped backend
    strippedEnv := (sanitized cmd).2
    stdio :=
      if Auth.isStdin cmd.elevation.auth then .stdinConsumed
      else .passthrough }
  passwordWrite := password
  backendPath := some path

/-- The command of the `ElevateMacosGui` arm, before the descriptors. -/
def guiCommand (osascript : Bytes) (script : List Char) : Command Bytes :=
  let derived := Command.default.setInputArgv
    [osascript, encode "-e".toList, encode script]
  let derived := match cmd.cwd with
    | some dir => derived.currentDir dir
    | none => derived
  derived.setKillOnDrop cmd.killOnDrop

def guiRewrite (osascript : Bytes) (script : List Char) : PosixRewrite where
  derived := some ((guiCommand cmd osascript script).insertFds cmd.fds)
  report := some {
    via := .macosOsascript
    strippedEnv := []
    stdio := .osascriptRelay }
  passwordWrite := none
  backendPath := some osascript

/-- The caller's command behind a rewrite. -/
def emptied : Command Bytes :=
  { cmd with fds := [] }

end

/-- How a rewrite ends, and how it leaves the caller's command. -/
inductive Outcome (debug : Bytes → String) (pipe : PipeAnswer)
    (cmd : Command Bytes) :
    Except Error PosixRewrite → Command Bytes → Prop where
  | refused (e : Error) : Outcome debug pipe cmd (.error e) cmd
  | asIs (program : Bytes) (args : List Bytes) :
      Outcome debug pipe cmd (.ok (asIsRewrite cmd program args)) (emptied cmd)
  | wrapped {backend : Backend} {path program : Bytes}
      {args argv : List Bytes} {derived : Command Bytes}
      {password : Option PendingPassword} (hready : CliReady cmd)
      (hresolved : backend ≠ .auto)
      (hforward : backend = .doas ∨ backend = .pkexec →
        (sanitized cmd).1 = [])
      (hargv : Elevating.on (buildArgv debug backend path cmd.elevation.auth
        program args (sanitized cmd).1) cmd = some (.ok argv, cmd))
      (hwired : wirePassword pipe cmd.elevation.auth
        (wrappedCommand cmd backend argv) = .ok (derived, password)) :
      Outcome debug pipe cmd
        (.ok (wrappedRewrite cmd backend path derived password)) (emptied cmd)
  | gui {program : Bytes} {args : List Bytes} (osascript : Bytes)
      (script : List Char) (hready : GuiReady cmd program args) :
      Outcome debug pipe cmd (.ok (guiRewrite cmd osascript script))
        (emptied cmd)

/-- The computation ends, and so. -/
def EndsIn (x : Elevating PosixRewrite) (cmd : Command Bytes)
    (post : Except Error PosixRewrite → Command Bytes → Prop) : Prop :=
  ∃ r cmd', Elevating.on x cmd = some (r, cmd') ∧ post r cmd'

section

variable {debug : Bytes → String} {pipe : PipeAnswer} {cmd : Command Bytes}

theorem endsIn_refused {x : Elevating PosixRewrite} {e : Error}
    (h : Elevating.on x cmd = some (.error e, cmd)) :
    EndsIn x cmd (Outcome debug pipe cmd) :=
  ⟨_, _, h, .refused e⟩

theorem rewriteRunAsIs_ends {p : Bytes × List Bytes}
    (hp : programAndArgs cmd = .ok p) :
    EndsIn rewriteRunAsIs cmd (Outcome debug pipe cmd) := by
  refine ⟨_, _, ?_, .asIs p.1 p.2⟩
  unfold rewriteRunAsIs
  rw [on_command_bind]
  dsimp only
  rw [hp, on_lift_bind]
  dsimp only
  rw [on_takeFds_bind]
  rfl

/-- The arm returns before `build_argv` where the backend would forward
nothing. -/
theorem rewriteElevatePosix_late {backend : Backend}
    (hlate : (!(sanitized cmd).1.isEmpty &&
      Backend.forwardsNoEnv backend) = true) (path : Bytes)
    (auth : Auth Bytes) :
    ∃ e, Elevating.on (rewriteElevatePosix debug pipe backend path auth) cmd =
      some (.error e, cmd) := by
  unfold rewriteElevatePosix
  rw [on_command_bind]
  dsimp only
  rw [on_lift_bind, hlate]
  exact ⟨_, rfl⟩

theorem rewriteElevatePosix_ends (hready : CliReady cmd) {backend : Backend}
    (hresolved : backend ≠ .auto) (path : Bytes) :
    EndsIn (rewriteElevatePosix debug pipe backend path cmd.elevation.auth)
      cmd (Outcome debug pipe cmd) := by
  obtain ⟨⟨program, args⟩, hp⟩ := hready.program
  by_cases hlate : (!(sanitized cmd).1.isEmpty &&
      Backend.forwardsNoEnv backend) = true
  · obtain ⟨e, he⟩ := rewriteElevatePosix_late hlate path cmd.elevation.auth
    exact endsIn_refused he
  unfold EndsIn rewriteElevatePosix
  rw [on_command_bind]
  dsimp only
  rw [Bool.not_eq_true] at hlate
  rw [on_lift_bind, hlate]
  have hforward : backend = .doas ∨ backend = .pkexec →
      (sanitized cmd).1 = [] := by
    rintro (rfl | rfl)
    · simpa [Backend.forwardsNoEnv] using hlate
    · simpa [Backend.forwardsNoEnv] using hlate
  obtain ⟨flags, -, hargv⟩ := buildArgv_eq debug hresolved path
    cmd.elevation.auth program args hforward cmd
  show ∃ r cmd', Elevating.on (lift (programAndArgs cmd) >>= _) cmd = _ ∧ _
  rw [hp, on_lift_bind]
  dsimp only
  rw [on_bind]
  cases hrefusal : refusal debug backend program (sanitized cmd).1 with
  | some e =>
      rw [hrefusal] at hargv
      rw [hargv]
      exact ⟨_, _, rfl, .refused _⟩
  | none =>
      rw [hrefusal] at hargv
      rw [hargv]
      dsimp only [refuseOr]
      rw [on_lift_bind]
      cases hwired : wirePassword pipe cmd.elevation.auth
          (wrappedCommand cmd backend _) with
      | error e =>
          unfold wrappedCommand at hwired
          rw [hwired]
          exact ⟨_, _, rfl, .refused _⟩
      | ok wired =>
          obtain ⟨derived, password⟩ := wired
          refine ⟨_, _, ?_, .wrapped hready hresolved hforward hargv hwired⟩
          unfold wrappedCommand at hwired
          rw [hwired]
          dsimp only
          rw [on_takeFds_bind]
          rfl

theorem rewriteMacosGui_ends {program : Bytes} {args : List Bytes}
    (hready : GuiReady cmd program args) (osascript : Bytes)
    (argMax : Option Nat) :
    EndsIn (rewriteMacosGui osascript argMax) cmd
      (Outcome debug pipe cmd) := by
  have hcwd : cmd.cwd.all isPosixAbsolute = true := by
    cases hdir : cmd.cwd with
    | none => rfl
    | some dir => simpa [isPosixAbsolute] using hready.cwd_absolute dir hdir
  have hlow : (cmd.fds.all fun (slot, _) => slot.raw < 3) = true := by
    rw [List.all_eq_true]
    rintro ⟨slot, target⟩ hmem
    exact decide_eq_true (hready.low slot target hmem)
  have habsolute : isPosixAbsolute program = true := by
    simpa [isPosixAbsolute] using hready.program_absolute
  unfold EndsIn rewriteMacosGui buildRewrite
  rw [on_bind, on_command_bind,
    on_debugAssert_bind cmd (List.isEmpty_iff.mpr hready.no_env),
    on_debugAssert_bind cmd (Option.isNone_iff_eq_none.mpr hready.uncontained),
    on_debugAssert_bind cmd hlow, hready.program_eq, on_lift_bind]
  dsimp only
  rw [on_debugAssert_bind cmd habsolute, on_debugAssert_bind cmd hcwd,
    on_lift_bind]
  cases wrapDoShellScript (buildShellCommand program args cmd.cwd) argMax with
  | error e => exact ⟨_, _, rfl, .refused _⟩
  | ok script =>
      refine ⟨_, _, ?_, .gui osascript script hready⟩
      dsimp only
      rw [on_takeFds_bind]
      rfl

/-- Every run of the rewrite ends, and in one of these ways. -/
theorem rewriteWithHost_outcome {host : Host Bytes}
    (hos : host.os ≠ .windows) :
    EndsIn (rewriteWithHost debug pipe host) cmd
      (Outcome debug pipe cmd) := by
  unfold EndsIn rewriteWithHost
  rw [on_command_bind, on_lift_bind]
  cases hgate : rejectStructuralConfig debug host.os cmd with
  | error e => exact ⟨_, _, rfl, .refused _⟩
  | ok u =>
      obtain ⟨p, hp⟩ := programAndArgs_of_gate hgate
      have hplan := planned_cases hos cmd
      show EndsIn (rewriteTransition debug pipe (planned host cmd)) cmd
        (Outcome debug pipe cmd)
      generalize planned host cmd = decision at hplan
      cases hplan with
      | reject e => exact ⟨_, _, rfl, .refused _⟩
      | runAsIs => exact rewriteRunAsIs_ends hp
      | gui osascript hgui =>
          unfold rejectStructuralConfig at hgate
          rw [if_pos hgui] at hgate
          obtain ⟨program, args, hready⟩ := guiReady_of_gate hgate
          exact rewriteMacosGui_ends hready osascript host.argMax
      | wrapped path hcli hresolved =>
          unfold rejectStructuralConfig at hgate
          rw [hcli, if_neg Bool.false_ne_true] at hgate
          exact rewriteElevatePosix_ends (cliReady_of_gate hgate) hresolved
            path

end

/-! ## The assertions -/

/-- For every request and every host but a Windows one: the rewrite returns,
so that no assertion of it fails and no arm of it is unreachable; and what its
arms rely on has been checked before they are entered. -/
theorem rewriteWithHost_guarded (debug : Bytes → String) (pipe : PipeAnswer)
    (host : Host Bytes) (cmd : Command Bytes) (hos : host.os ≠ .windows) :
    (∃ r cmd', Elevating.on (rewriteWithHost debug pipe host) cmd =
      some (r, cmd')) ∧
    (∀ auth, planned host cmd ≠ .elevateWindows auth) ∧
    (∀ backend path auth, planned host cmd = .elevatePosix backend path auth →
      backend ≠ .auto ∧
      (backend = .doas ∨ backend = .pkexec → (sanitized cmd).1 = [] ∨
        ∃ e, Elevating.on (rewriteElevatePosix debug pipe backend path auth)
          cmd = some (.error e, cmd))) ∧
    ∀ osascript argMax, planned host cmd = .elevateMacosGui osascript argMax →
      rejectStructuralConfig debug host.os cmd = .ok () →
        ∃ program args, GuiReady cmd program args := by
  have hplan := planned_cases hos cmd
  refine ⟨?_, ?_, ?_, ?_⟩
  · have hends : EndsIn (rewriteWithHost debug pipe host) cmd
        (Outcome debug pipe cmd) := rewriteWithHost_outcome hos
    obtain ⟨r, cmd', hrun, -⟩ := hends
    exact ⟨r, cmd', hrun⟩
  · intro auth hwindows
    rw [hwindows] at hplan
    cases hplan
  · intro backend path auth hposix
    rw [hposix] at hplan
    cases hplan with
    | wrapped path hcli hresolved =>
        refine ⟨hresolved, fun hbackend => ?_⟩
        by_cases hkept : (sanitized cmd).1 = []
        · exact Or.inl hkept
        · refine Or.inr (rewriteElevatePosix_late ?_ path _)
          have hsome : (sanitized cmd).1.isEmpty = false := by
            simpa using hkept
          rw [hsome]
          rcases hbackend with rfl | rfl
          · rfl
          · rfl
  · intro osascript argMax hmacos hgate
    rw [hmacos] at hplan
    cases hplan with
    | gui osascript hgui =>
        unfold rejectStructuralConfig at hgate
        rw [if_pos hgui] at hgate
        exact guiReady_of_gate hgate

/-- `/bin/id` behind the dialog of macOS. -/
def guiRequest : Command Bytes :=
  { (Command.default.setInputArgv [ascii "/bin/id"] : Command Bytes) with
    elevation := { ElevationRequest.default with
      enabled := true
      auth := .gui } }

def guiHost : Host Bytes where
  elevated := false
  hasTty := false
  available := {
    run0 := none
    «sudo» := none
    doas := none
    pkexec := none
    osascript := some (ascii "/usr/bin/osascript") }
  os := .macOs
  argMax := none

theorem rewriteWithHost_guarded_gui :
    ∃ program args, GuiReady guiRequest program args :=
  (rewriteWithHost_guarded (fun _ => "") (.ok (3, 4)) guiHost guiRequest
    (by decide)).2.2.2 _ none rfl rfl

/-! ## The descriptors -/

instance : Std.TransOrd Fd where
  eq_swap {a b} := Std.OrientedOrd.eq_swap (a := a.raw) (b := b.raw)
  isLE_trans {_ b _} h h' := Std.TransOrd.isLE_trans (b := b.raw) h h'

instance : Std.LawfulEqOrd Fd where
  compare_self {a} := Std.ReflOrd.compare_self (a := a.raw)
  eq_of_compare {a b} h :=
    congrArg Fd.mk (Std.LawfulEqOrd.eq_of_compare (a := a.raw) (b := b.raw) h)

/-- Moving descriptors changes nothing but the table. -/
theorem insertFds_eq (table : FdTable) :
    ∀ c : Command Bytes,
      c.insertFds table = { c with fds := EnvBlock.insertAll c.fds table } := by
  induction table with
  | nil => exact fun c => rfl
  | cons entry table ih => exact fun c => ih (c.insertFd entry.1 entry.2)

section

variable (c : Command Bytes) (table : FdTable)

@[simp] theorem insertFds_fds :
    (c.insertFds table).fds = EnvBlock.insertAll c.fds table := by
  rw [insertFds_eq]

@[simp] theorem insertFds_input : (c.insertFds table).input = c.input := by
  rw [insertFds_eq]

@[simp] theorem insertFds_envOps :
    (c.insertFds table).envOps = c.envOps := by
  rw [insertFds_eq]

@[simp] theorem insertFds_cwd : (c.insertFds table).cwd = c.cwd := by
  rw [insertFds_eq]

@[simp] theorem insertFds_killOnDrop :
    (c.insertFds table).killOnDrop = c.killOnDrop := by
  rw [insertFds_eq]

@[simp] theorem insertFds_contain :
    (c.insertFds table).contain = c.contain := by
  rw [insertFds_eq]

end

theorem transferProcessAttrs_eq (derived cmd : Command Bytes) :
    transferProcessAttrs derived cmd =
      { derived with
        cwd := cmd.cwd.or derived.cwd
        contain := cmd.contain
        killOnDrop := cmd.killOnDrop } := by
  unfold transferProcessAttrs
  cases cmd.cwd with
  | none => rfl
  | some dir => rfl

theorem asIsCommand_eq (cmd : Command Bytes) (program : Bytes)
    (args : List Bytes) :
    asIsCommand cmd program args =
      { (Command.default : Command Bytes) with
        input := .argv (program :: args)
        envOps := (sanitized cmd).1.map fun (k, v) => EnvOp.set k v
        cwd := cmd.cwd
        contain := cmd.contain
        killOnDrop := cmd.killOnDrop } := by
  rw [asIsCommand, transferProcessAttrs_eq]
  unfold Command.setEnvOps Command.setInputArgv
  simp [Command.default]

theorem wrappedCommand_eq (cmd : Command Bytes) (backend : Backend)
    (argv : List Bytes) :
    wrappedCommand cmd backend argv =
      { (Command.default : Command Bytes) with
        input := .argv argv
        envOps := wrappedEnvOps backend cmd.elevation.auth (sanitized cmd).1
        cwd := cmd.cwd
        contain := cmd.contain
        killOnDrop := cmd.killOnDrop
        fdMarkerSuppressed := true } := by
  rw [wrappedCommand, transferProcessAttrs_eq]
  unfold Command.setEnvOps Command.setInputArgv Command.suppressFdMarker
  simp [Command.default]

/-- The password channel changes nothing but the table. -/
theorem wirePassword_eq {pipe : PipeAnswer} {auth : Auth Bytes}
    {c wired : Command Bytes} {password : Option PendingPassword}
    (h : wirePassword pipe auth c = .ok (wired, password)) :
    ∃ fds, wired = { c with fds := fds } := by
  cases auth with
  | stdin secret =>
      cases pipe with
      | error e => cases h
      | ok ends =>
          cases h
          exact ⟨_, rfl⟩
  | interactive | nonInteractive | askpass p | gui =>
      cases h
      exact ⟨_, rfl⟩

theorem guiCommand_eq (cmd : Command Bytes) (osascript : Bytes)
    (script : List Char) :
    guiCommand cmd osascript script =
      { (Command.default : Command Bytes) with
        input := .argv [osascript, encode "-e".toList, encode script]
        cwd := cmd.cwd
        killOnDrop := cmd.killOnDrop } := by
  unfold guiCommand Command.setKillOnDrop Command.setInputArgv
  cases cmd.cwd with
  | none => rfl
  | some dir => rfl

theorem ne_of_get?_eq_none {table : FdTable} {slot : Fd}
    (h : table.get? slot = none) : ∀ entry ∈ table, entry.1 ≠ slot := by
  intro entry hmem hslot
  have hnone := List.find?_eq_none.mp (Option.map_eq_none_iff.mp h) entry hmem
  exact hnone (beq_iff_eq.mpr hslot)

/-- What the derived command takes over. -/
structure TakesOver (pipe : PipeAnswer) (cmd : Command Bytes)
    (r : PosixRewrite) (derived : Command Bytes) (report : ElevationReport) :
    Prop where
  derived_eq : r.derived = some derived
  report_eq : r.report = some report
  cwd_eq : derived.cwd = cmd.cwd
  killOnDrop_eq : derived.killOnDrop = cmd.killOnDrop
  contain_eq : report.via ≠ .macosOsascript → derived.contain = cmd.contain
  /-- No slot is taken twice. -/
  sorted : Sorted derived.fds
  /-- The caller's descriptors, and the password channel of a front end that
  reads the password from its input. -/
  fds_perm :
    (∃ backend secret reader writer, report.via = .wrapped backend ∧
      cmd.elevation.auth = .stdin secret ∧ pipe = .ok (reader, writer) ∧
      r.passwordWrite = some ⟨writer, secret⟩ ∧
      derived.fds.Perm ((.stdin, .file reader) :: cmd.fds)) ∨
    (¬ (∃ backend secret, report.via = .wrapped backend ∧
        cmd.elevation.auth = .stdin secret) ∧
      r.passwordWrite = none ∧ derived.fds.Perm cmd.fds)

section

variable {pipe : PipeAnswer} {cmd : Command Bytes} (hfds : Sorted cmd.fds)

include hfds

/-- The descriptors of the caller, moved to a command without any. -/
theorem takesOver_moved {r : PosixRewrite} {derived : Command Bytes}
    {report : ElevationReport}
    (hderived : r.derived = some (derived.insertFds cmd.fds))
    (hreport : r.report = some report) (hcwd : derived.cwd = cmd.cwd)
    (hkill : derived.killOnDrop = cmd.killOnDrop)
    (hcontain : report.via ≠ .macosOsascript → derived.contain = cmd.contain)
    (hempty : derived.fds = []) (hpassword : r.passwordWrite = none)
    (hplain : ¬ ∃ backend secret, report.via = .wrapped backend ∧
      cmd.elevation.auth = .stdin secret) :
    TakesOver pipe cmd r (derived.insertFds cmd.fds) report := by
  refine {
    derived_eq := hderived
    report_eq := hreport
    cwd_eq := by rw [insertFds_cwd, hcwd]
    killOnDrop_eq := by rw [insertFds_killOnDrop, hkill]
    contain_eq := fun hvia => by rw [insertFds_contain, hcontain hvia]
    sorted := ?_
    fds_perm := Or.inr ⟨hplain, hpassword, ?_⟩ }
  · rw [insertFds_fds, hempty]
    exact Sorted.insertAll cmd.fds List.Pairwise.nil
  · rw [insertFds_fds, hempty]
    exact EnvBlock.insertAll_perm hfds nofun

theorem asIsRewrite_takesOver (program : Bytes) (args : List Bytes) :
    ∃ derived report, TakesOver pipe cmd (asIsRewrite cmd program args)
      derived report := by
  have hcommand := asIsCommand_eq cmd program args
  refine ⟨_, _, takesOver_moved hfds rfl rfl ?_ ?_ ?_ ?_ rfl ?_⟩
  · rw [hcommand]
  · rw [hcommand]
  · intro _
    rw [hcommand]
  · rw [hcommand]
    rfl
  · rintro ⟨backend, secret, hvia, -⟩
    cases hvia

theorem guiRewrite_takesOver (osascript : Bytes) (script : List Char) :
    ∃ derived report, TakesOver pipe cmd (guiRewrite cmd osascript script)
      derived report := by
  have hcommand := guiCommand_eq cmd osascript script
  refine ⟨_, _, takesOver_moved hfds rfl rfl ?_ ?_ ?_ ?_ rfl ?_⟩
  · rw [hcommand]
  · rw [hcommand]
  · exact fun hvia => absurd rfl hvia
  · rw [hcommand]
    rfl
  · rintro ⟨backend, secret, hvia, -⟩
    cases hvia

theorem wrappedRewrite_takesOver (hready : CliReady cmd) {backend : Backend}
    (path : Bytes) {argv : List Bytes} {wired : Command Bytes}
    {password : Option PendingPassword}
    (hwired : wirePassword pipe cmd.elevation.auth
      (wrappedCommand cmd backend argv) = .ok (wired, password)) :
    ∃ derived report, TakesOver pipe cmd
      (wrappedRewrite cmd backend path wired password) derived report := by
  have hcommand := wrappedCommand_eq cmd backend argv
  by_cases hauth : ∃ secret, cmd.elevation.auth = .stdin secret
  · obtain ⟨secret, hsecret⟩ := hauth
    have hfree : ∀ entry ∈ cmd.fds, entry.1 ≠ Fd.stdin :=
      ne_of_get?_eq_none (hready.stdin_free (by rw [hsecret]; rfl))
    rw [hsecret] at hwired
    cases pipe with
    | error e => cases hwired
    | ok ends =>
        obtain ⟨reader, writer⟩ := ends
        cases hwired
        have hmoved : movedFds cmd (some ⟨writer, secret⟩) = cmd.fds := by
          apply List.filter_eq_self.mpr
          intro entry hmem
          simpa using hfree entry hmem
        have hperm : (EnvBlock.insertAll [(Fd.stdin, .file reader)]
            cmd.fds).Perm ((.stdin, .file reader) :: cmd.fds) := by
          apply EnvBlock.insertAll_perm hfds
          intro a ha b hb
          rw [List.mem_singleton.mp ha]
          exact (hfree b hb).symm
        refine ⟨_, _, {
          derived_eq := rfl
          report_eq := rfl
          cwd_eq := by simp [hcommand, Command.insertFd]
          killOnDrop_eq := by simp [hcommand, Command.insertFd]
          contain_eq := fun _ => by simp [hcommand, Command.insertFd]
          sorted := ?_
          fds_perm := Or.inl ⟨backend, secret, reader, writer, rfl, hsecret,
            rfl, rfl, ?_⟩ }⟩
        · rw [insertFds_fds, hmoved, hcommand]
          exact Sorted.insertAll cmd.fds (List.pairwise_singleton _ _)
        · rw [insertFds_fds, hmoved, hcommand]
          exact hperm
  · have hplain : wired = wrappedCommand cmd backend argv ∧
        password = none := by
      cases hcase : cmd.elevation.auth with
      | stdin secret => exact absurd ⟨secret, hcase⟩ hauth
      | interactive | nonInteractive | askpass p | gui =>
          rw [hcase] at hwired
          cases hwired
          exact ⟨rfl, rfl⟩
    obtain ⟨rfl, rfl⟩ := hplain
    have hmoved : movedFds cmd none = cmd.fds :=
      List.filter_eq_self.mpr fun _ _ => rfl
    refine ⟨_, _, takesOver_moved hfds (by rw [← hmoved]; rfl) rfl ?_ ?_ ?_ ?_
      rfl ?_⟩
    · rw [hcommand]
    · rw [hcommand]
    · intro _
      rw [hcommand]
    · rw [hcommand]
      rfl
    · rintro ⟨_, secret, -, hsecret⟩
      exact hauth ⟨secret, hsecret⟩

end

/-- For every request whose descriptors are a map: an error leaves the
caller's command as it was, and a success takes nothing but its descriptors,
which the derived command has on the same slots. -/
theorem rewriteWithHost_atomic (debug : Bytes → String) (pipe : PipeAnswer)
    (host : Host Bytes) (cmd : Command Bytes) (hos : host.os ≠ .windows)
    (hfds : Sorted cmd.fds) :
    (∀ e cmd', Elevating.on (rewriteWithHost debug pipe host) cmd =
      some (.error e, cmd') → cmd' = cmd) ∧
    ∀ r cmd', Elevating.on (rewriteWithHost debug pipe host) cmd =
      some (.ok r, cmd') →
        cmd' = { cmd with fds := [] } ∧
          ∃ derived report, TakesOver pipe cmd r derived report := by
  have hends : EndsIn (rewriteWithHost debug pipe host) cmd
      (Outcome debug pipe cmd) := rewriteWithHost_outcome hos
  obtain ⟨result, left, hrun, hout⟩ := hends
  rw [hrun]
  constructor
  · intro e cmd' h
    cases h
    cases hout with
    | refused e => rfl
  · intro r cmd' h
    cases h
    cases hout with
    | asIs program args => exact ⟨rfl, asIsRewrite_takesOver hfds program args⟩
    | wrapped hready hresolved hforward hargv hwired =>
        exact ⟨rfl, wrappedRewrite_takesOver hfds hready _ hwired⟩
    | gui osascript script hready =>
        exact ⟨rfl, guiRewrite_takesOver hfds osascript script⟩

/-- `/bin/id` behind a `sudo` that reads its password, its output in a file. -/
def passwordRequest : Command Bytes :=
  { (Command.default.setInputArgv [ascii "/bin/id"] : Command Bytes) with
    fds := [(.stdout, .file 7)]
    elevation := { ElevationRequest.default with
      enabled := true
      backend := .sudo
      auth := .stdin [112, 119] } }

def sudoHost : Host Bytes where
  elevated := false
  hasTty := false
  available := {
    run0 := none
    «sudo» := some (ascii "/usr/bin/sudo")
    doas := none
    pkexec := none
    osascript := none }
  os := .unix
  argMax := none

theorem rewriteWithHost_atomic_password :
    ∃ r cmd', Elevating.on (rewriteWithHost (fun _ => "") (.ok (3, 4))
        sudoHost) passwordRequest = some (.ok r, cmd') ∧
      cmd' = { passwordRequest with fds := [] } ∧
        ∃ derived report,
          TakesOver (.ok (3, 4)) passwordRequest r derived report :=
  ⟨_, _, rfl, (rewriteWithHost_atomic (fun _ => "") (.ok (3, 4)) sudoHost
    passwordRequest (by decide) (List.pairwise_singleton _ _)).2 _ _ rfl⟩

end Cosca.Ports.ElevationRewrite
