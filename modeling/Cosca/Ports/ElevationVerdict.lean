import Cosca.Ports.ElevationArgv

/-!
# What the verdict of POSIX elevation depends on

The rewrite rejects a request in three places: the structural gate, the
planner's matrix, and the construction of the wrapper's arguments.  The first
two see the request only.  The third comes after the already-elevated
short-circuit, so an elevated caller never reaches it.

## Main results

* `rewriteWithHost_unsupported_iff`: the two runs of a request, as root and
  not, agree on `Error::Unsupported` exactly when no late rejection applies.
-/

namespace Cosca.Ports.ElevationVerdict

open Cosca.Ports.Errors
open Cosca.Ports.CommandRecord
open Cosca.Ports.Elevation
open Cosca.Ports.ElevationArgv
open Cosca.Ports.ElevationPlan
open Cosca.Ports.PosixElevation
open Cosca.Ports.PosixSplit (Bytes)

/-- The computation ends in an `Error::Unsupported`. -/
def unsupported {α : Type} (x : Elevating α) (cmd : Command Bytes) : Bool :=
  match Elevating.on x cmd with
  | some (.error e, _) => e.isUnsupported
  | _ => false

/-- Every error the check can return is an `Error::Unsupported`. -/
def Rejects {α : Type} (x : Except Error α) : Prop :=
  ∀ e, x = .error e → e.isUnsupported = true

/-! ## The checks before the plan -/

theorem Rejects.ok {α : Type} (a : α) : Rejects (.ok a) := by
  intro e h
  cases h

theorem Rejects.error {α : Type} {e : Error}
    (he : e.isUnsupported = true) : Rejects (.error e : Except Error α) := by
  intro e₁ h
  cases h
  exact he

theorem Rejects.bind {α β : Type} {x : Except Error α}
    {f : α → Except Error β} (hx : Rejects x) (hf : ∀ a, Rejects (f a)) :
    Rejects (x >>= f) := by
  intro e h
  cases x with
  | error e₁ =>
      cases h
      exact hx _ rfl
  | ok a => exact hf a e h

theorem Rejects.rejectIf {c : Bool} {e : Error}
    (he : e.isUnsupported = true) : Rejects (rejectIf c e) := by
  unfold Elevation.rejectIf
  split
  · exact Rejects.error he
  · exact Rejects.ok ()

/-- A check before the rest. -/
theorem Rejects.rejectIf_bind {β : Type} {c : Bool} {e : Error}
    {f : Unit → Except Error β} (he : e.isUnsupported = true)
    (hf : Rejects (f ())) : Rejects (Elevation.rejectIf c e >>= f) :=
  Rejects.bind (Rejects.rejectIf he) fun _ => hf

theorem Rejects.forM {α : Type} {f : α → Except Error Unit} (xs : List α)
    (hf : ∀ a, Rejects (f a)) : Rejects (xs.forM f) := by
  induction xs with
  | nil => exact Rejects.ok ()
  | cons x xs ih => exact Rejects.bind (hf x) fun _ => ih

theorem programAndArgs_rejects (cmd : Command Bytes) :
    Rejects (programAndArgs cmd) := by
  unfold programAndArgs
  split
  · exact Rejects.error rfl
  · exact Rejects.error rfl
  · exact Rejects.error rfl
  · split
    · split
      · exact Rejects.error rfl
      · exact Rejects.ok _
    · exact Rejects.ok _

theorem macosProgramAndArgs_rejects (cmd : Command Bytes) :
    Rejects (MacosElevation.programAndArgs cmd) := by
  unfold MacosElevation.programAndArgs
  split
  · exact Rejects.error rfl
  · exact Rejects.error rfl
  · exact Rejects.error rfl
  · split
    · split
      · exact Rejects.error rfl
      · exact Rejects.ok _
    · exact Rejects.ok _

theorem checkFd_rejects (slot : Fd) (resolved : ResolvedStdio) :
    Rejects (MacosElevation.checkFd slot resolved) := by
  unfold MacosElevation.checkFd
  split
  · exact Rejects.error rfl
  · split
    · exact Rejects.error rfl
    · exact Rejects.ok ()

theorem rejectStructuralGuiConfig_rejects (debug : Bytes → String)
    (cmd : Command Bytes) :
    Rejects (MacosElevation.rejectStructuralGuiConfig debug cmd) := by
  unfold MacosElevation.rejectStructuralGuiConfig
  apply Rejects.bind
  · exact macosProgramAndArgs_rejects cmd
  · rintro ⟨program, args⟩
    apply Rejects.rejectIf_bind rfl
    apply Rejects.bind
    · cases cmd.cwd with
      | none => exact Rejects.ok ()
      | some dir =>
          apply Rejects.rejectIf
          rfl
    · intro _
      apply Rejects.bind
      · exact Rejects.forM _ fun p => checkFd_rejects p.1 p.2
      · intro _
        apply Rejects.rejectIf_bind rfl
        apply Rejects.rejectIf
        rfl

theorem rejectStructuralPosixConfig_rejects (cmd : Command Bytes)
    (backend : Backend) (auth : Auth Bytes) :
    Rejects (rejectStructuralPosixConfig cmd backend auth) := by
  unfold rejectStructuralPosixConfig
  apply Rejects.bind
  · exact programAndArgs_rejects cmd
  · intro _
    apply Rejects.rejectIf_bind rfl
    apply Rejects.rejectIf_bind rfl
    apply Rejects.rejectIf_bind rfl
    apply Rejects.rejectIf_bind rfl
    apply Rejects.rejectIf
    rfl

/-- The gate returns nothing but `Error::Unsupported`. -/
theorem rejectStructuralConfig_rejects (debug : Bytes → String) (os : Os)
    (cmd : Command Bytes) : Rejects (rejectStructuralConfig debug os cmd) := by
  unfold rejectStructuralConfig
  split
  · exact rejectStructuralGuiConfig_rejects debug cmd
  · exact rejectStructuralPosixConfig_rejects cmd _ _

/-- So does the matrix. -/
theorem structuralPosix_rejects {os : Os} {backend : Backend}
    {auth : Auth Bytes} {available : BackendSet Bytes} {e : Error}
    (h : structuralPosix os backend auth available = some e) :
    e.isUnsupported = true := by
  have hsudo : ∀ platform kind detail,
      structuralSudoOnly platform backend available kind detail = some e →
        e.isUnsupported = true := by
    intro platform kind detail h
    unfold structuralSudoOnly at h
    split at h
    · cases h
    · cases h
    · cases h
      rfl
  unfold structuralPosix at h
  simp only at h
  split at h
  · cases h
    rfl
  · split at h
    · cases h
      rfl
    · split at h
      · cases h
        rfl
      · split at h
        · cases h
          rfl
        · split at h
          · cases h
            rfl
          · split at h
            · exact hsudo _ _ _ h
            · exact hsudo _ _ _ h
            · cases h

/-! ## The arms behind the plan -/

/-- A failed check decides the verdict; a passed one is skipped. -/
theorem unsupported_lift_bind {α β : Type} (x : Except Error α)
    (f : α → Elevating β) (cmd : Command Bytes) :
    unsupported (lift x >>= f) cmd =
      match x with
      | .error e => e.isUnsupported
      | .ok a => unsupported (f a) cmd := by
  unfold unsupported
  rw [on_lift_bind]
  cases x with
  | error e => rfl
  | ok a => rfl

theorem unsupported_command_bind {β : Type}
    (f : Command Bytes → Elevating β) (cmd : Command Bytes) :
    unsupported (command >>= f) cmd = unsupported (f cmd) cmd := by
  unfold unsupported
  rw [on_command_bind]

theorem unsupported_takeFds_bind {β : Type} (f : FdTable → Elevating β)
    (cmd : Command Bytes) :
    unsupported (takeFds >>= f) cmd =
      unsupported (f cmd.fds) { cmd with fds := [] } := by
  unfold unsupported
  rw [on_takeFds_bind]

@[simp] theorem unsupported_pure {α : Type} (a : α) (cmd : Command Bytes) :
    unsupported (pure a) cmd = false := rfl

/-- An elevated caller's request is not rejected any more. -/
theorem rewriteRunAsIs_unsupported {cmd : Command Bytes}
    {p : Bytes × List Bytes} (hp : programAndArgs cmd = .ok p) :
    unsupported rewriteRunAsIs cmd = false := by
  unfold rewriteRunAsIs
  rw [unsupported_command_bind]
  dsimp only
  rw [hp, unsupported_lift_bind]
  dsimp only
  rw [unsupported_takeFds_bind, unsupported_pure]

/-- The construction of the wrapper's arguments rejects the request. -/
def lateRejects (backend : Backend) (program : Bytes)
    (kept : List (Bytes × Bytes)) : Bool :=
  (!kept.isEmpty && Backend.forwardsNoEnv backend) ||
    ((backend == .sudo || backend == .run0) &&
      kept.any fun (k, _) => !validEnvName k) ||
    (backend == .pkexec && programStartsWithDash program)

/-- The verdict of a check. -/
def verdict {α : Type} (x : Except Error α) : Bool :=
  match x with
  | .error e => e.isUnsupported
  | .ok _ => false

theorem unsupported_lift {α : Type} (x : Except Error α)
    (cmd : Command Bytes) : unsupported (lift x) cmd = verdict x := by
  cases x <;> rfl

/-- A continuation that never ends in `Error::Unsupported` leaves the verdict
to the first part. -/
theorem unsupported_bind_of_never {α β : Type} (x : Elevating α)
    {f : α → Elevating β} (cmd : Command Bytes)
    (hf : ∀ a cmd', unsupported (f a) cmd' = false) :
    unsupported (x >>= f) cmd = unsupported x cmd := by
  have hf' := hf
  unfold unsupported at hf' ⊢
  rw [on_bind]
  match Elevating.on x cmd with
  | none => rfl
  | some (.error e, cmd') => rfl
  | some (.ok a, cmd') => exact hf' a cmd'

theorem unsupported_debugAssert_bind {β : Type} (holds : Bool)
    (f : Unit → Elevating β) (cmd : Command Bytes) :
    unsupported (debugAssert holds >>= f) cmd =
      (holds && unsupported (f ()) cmd) := by
  cases holds <;> rfl

/-- `build_argv` is refused with nothing else. -/
theorem refusal_isUnsupported {debug : Bytes → String} {backend : Backend}
    {program : Bytes} {env : List (Bytes × Bytes)} {e : Error}
    (h : refusal debug backend program env = some e) :
    e.isUnsupported = true := by
  cases backend with
  | «sudo» | run0 =>
      obtain ⟨k, _, rfl⟩ := Option.map_eq_some_iff.mp h
      rfl
  | pkexec =>
      cases hdash : programStartsWithDash program with
      | false =>
          unfold refusal at h
          rw [hdash] at h
          cases h
      | true =>
          unfold refusal at h
          rw [hdash] at h
          cases h
          rfl
  | auto | doas => cases h

theorem isSome_badName (env : List (Bytes × Bytes)) :
    (badName env).isSome = env.any fun (k, _) => !validEnvName k := by
  unfold badName
  rw [Bool.eq_iff_iff, List.find?_isSome, List.any_eq_true]
  simp

/-- Where no environment is to be forwarded in vain, the late rejections are
the refusals of `build_argv`. -/
theorem isSome_refusal (debug : Bytes → String) {backend : Backend}
    (program : Bytes) {kept : List (Bytes × Bytes)}
    (hforward : (!kept.isEmpty && Backend.forwardsNoEnv backend) = false) :
    (refusal debug backend program kept).isSome =
      lateRejects backend program kept := by
  unfold lateRejects
  rw [hforward]
  cases backend with
  | «sudo» | run0 =>
      simp [refusal, isSome_badName]
  | pkexec =>
      cases hdash : programStartsWithDash program <;>
        simp [refusal, hdash]
  | auto | doas => rfl

/-- The verdict of `build_argv`. -/
theorem buildArgv_unsupported (debug : Bytes → String) (backend : Backend)
    (path : Bytes) (auth : Auth Bytes) (program : Bytes)
    (args : List Bytes) (kept : List (Bytes × Bytes)) (cmd : Command Bytes)
    (hforward : (!kept.isEmpty && Backend.forwardsNoEnv backend) = false) :
    unsupported (buildArgv debug backend path auth program args kept) cmd =
      lateRejects backend program kept := by
  rw [← isSome_refusal debug program hforward]
  by_cases hauto : backend = .auto
  · subst hauto
    rfl
  · have hempty : backend = .doas ∨ backend = .pkexec → kept = [] := by
      rintro (rfl | rfl)
      · simpa [Backend.forwardsNoEnv] using hforward
      · simpa [Backend.forwardsNoEnv] using hforward
    obtain ⟨flags, _, hargv⟩ :=
      buildArgv_eq debug hauto path auth program args hempty cmd
    unfold unsupported
    rw [hargv]
    cases hrefusal : refusal debug backend program kept with
    | none => rfl
    | some e => exact refusal_isUnsupported hrefusal

theorem wirePassword_verdict (pipe : PipeAnswer) (auth : Auth Bytes)
    (derived : Command Bytes) :
    verdict (wirePassword pipe auth derived) = false := by
  cases auth with
  | stdin secret =>
      cases pipe with
      | error e => rfl
      | ok p => rfl
  | _ => rfl

/-- The verdict of the `ElevatePosix` arm. -/
theorem rewriteElevatePosix_unsupported (debug : Bytes → String)
    (pipe : PipeAnswer) (backend : Backend) (path : Bytes)
    (auth : Auth Bytes) {cmd : Command Bytes} {program : Bytes}
    {args : List Bytes} (hp : programAndArgs cmd = .ok (program, args)) :
    unsupported (rewriteElevatePosix debug pipe backend path auth) cmd =
      lateRejects backend program (sanitized cmd).1 := by
  unfold rewriteElevatePosix
  rw [unsupported_command_bind]
  dsimp only
  rw [unsupported_lift_bind, hp]
  by_cases hforward : (!(sanitized cmd).1.isEmpty &&
      Backend.forwardsNoEnv backend) = true
  · rw [hforward, lateRejects, hforward]
    rfl
  · simp only [Bool.not_eq_true] at hforward
    rw [hforward]
    show unsupported (lift (.ok (program, args)) >>= _) cmd = _
    rw [unsupported_lift_bind]
    dsimp only
    rw [unsupported_bind_of_never]
    · exact buildArgv_unsupported debug backend path auth program args _ cmd
        hforward
    · intro argv cmd'
      rw [unsupported_bind_of_never, unsupported_lift, wirePassword_verdict]
      intro p cmd''
      rw [unsupported_takeFds_bind, unsupported_pure]

theorem macosProgramAndArgs_ok {cmd : Command Bytes}
    {p : Bytes × List Bytes} (h : MacosElevation.programAndArgs cmd = .ok p) :
    programAndArgs cmd = .ok p := by
  unfold MacosElevation.programAndArgs at h
  unfold programAndArgs
  cases hinput : cmd.input with
  | empty => simp [hinput] at h
  | commandLine line => simp [hinput] at h
  | argv argv =>
      cases argv with
      | nil => simp [hinput] at h
      | cons first args =>
          simp only [hinput] at h ⊢
          cases hexe : cmd.executable with
          | none =>
              simp only [hexe] at h
              exact h
          | some exe =>
              simp only [hexe] at h
              by_cases hne : (first != exe) = true
              · simp [hne] at h
              · simp only [if_neg hne] at h ⊢
                exact h

/-- A request that passes the gate names a program. -/
theorem programAndArgs_of_gate {debug : Bytes → String} {os : Os}
    {cmd : Command Bytes} (h : rejectStructuralConfig debug os cmd = .ok ()) :
    ∃ p, programAndArgs cmd = .ok p := by
  unfold rejectStructuralConfig at h
  split at h
  · obtain ⟨p, hp, _⟩ := bind_eq_ok h
    exact ⟨p, macosProgramAndArgs_ok hp⟩
  · obtain ⟨p, hp, _⟩ := bind_eq_ok h
    exact ⟨p, hp⟩

theorem wrapDoShellScript_verdict (shellCommand : Bytes)
    (argMax : Option Nat) :
    verdict (MacosScript.wrapDoShellScript shellCommand argMax) = false := by
  unfold MacosScript.wrapDoShellScript
  split
  · rfl
  · split
    · rfl
    · dsimp only
      split
      · rfl
      · rfl

/-- A graphical request that passes the gate is not rejected any more. -/
theorem rewriteMacosGui_unsupported {debug : Bytes → String} {os : Os}
    {cmd : Command Bytes} (h : rejectStructuralConfig debug os cmd = .ok ())
    (hgui : isMacosGuiAuto os cmd.elevation.backend cmd.elevation.auth = true)
    (osascript : Bytes) (argMax : Option Nat) :
    unsupported (rewriteMacosGui osascript argMax) cmd = false := by
  unfold rejectStructuralConfig at h
  rw [if_pos hgui] at h
  obtain ⟨p, hp, _⟩ := bind_eq_ok h
  unfold rewriteMacosGui
  rw [unsupported_bind_of_never _ _ fun a cmd' => unsupported_pure _ _]
  unfold MacosElevation.buildRewrite
  rw [unsupported_command_bind, unsupported_debugAssert_bind,
    unsupported_debugAssert_bind, unsupported_debugAssert_bind, hp,
    unsupported_lift_bind]
  dsimp only
  rw [unsupported_debugAssert_bind, unsupported_debugAssert_bind,
    unsupported_bind_of_never, unsupported_lift, wrapDoShellScript_verdict]
  · simp only [Bool.and_false]
  · intro script cmd'
    rw [unsupported_takeFds_bind, unsupported_pure]

/-! ## The two runs -/

/-- What both runs of a request share: the gate or the matrix rejects it. -/
def requestRejected (debug : Bytes → String) (host : Host Bytes)
    (cmd : Command Bytes) : Bool :=
  match rejectStructuralConfig debug host.os cmd with
  | .error _ => true
  | .ok _ =>
      (structuralPosix host.os cmd.elevation.backend cmd.elevation.auth
        host.available).isSome

/-- The request passes the gate, an unprivileged caller's plan is a wrapper,
and that wrapper's arguments cannot be built. -/
def RejectedLate (debug : Bytes → String) (host : Host Bytes)
    (cmd : Command Bytes) : Prop :=
  ∃ backend path auth program args,
    rejectStructuralConfig debug host.os cmd = .ok () ∧
    (host.withElevated false).plan .elevated cmd.elevation.backend
      cmd.elevation.auth = .elevatePosix backend path auth ∧
    programAndArgs cmd = .ok (program, args) ∧
    lateRejects backend program (sanitized cmd).1 = true

section

variable {debug : Bytes → String} {pipe : PipeAnswer} {cmd : Command Bytes}
variable (host : Host Bytes)

/-- The plan of a host that is not a Windows one. -/
theorem plan_posix {host : Host Bytes} (hos : host.os ≠ .windows)
    (elevated : Bool) (backend : Backend) (auth : Auth Bytes) :
    (host.withElevated elevated).plan .elevated backend auth =
      match structuralPosix host.os backend auth host.available with
      | some error => .reject error
      | none =>
          if elevated then .runAsIs
          else if isMacosGuiAuto host.os backend auth then
            match host.available.osascript with
            | some p => .elevateMacosGui p host.argMax
            | none => rejectBackendUnavailable
                "/usr/bin/osascript is missing or not executable; macOS graphical elevation needs it"
          else (host.withElevated elevated).resolvePosix backend
            auth := by
  have hwin : (host.os == Os.windows) = false := by
    simpa using hos
  simp only [Host.plan, Host.withElevated, hwin, bne_self_eq_false,
    Bool.false_eq_true, if_false]
  cases structuralPosix host.os backend auth host.available with
  | some error => rfl
  | none =>
      dsimp only
      cases host.available.osascript with
      | some p => rfl
      | none => rfl

theorem unsupported_rewriteWithHost_of_gate {e : Error}
    (h : rejectStructuralConfig debug host.os cmd = .error e) :
    unsupported (rewriteWithHost debug pipe host) cmd = true := by
  unfold rewriteWithHost
  rw [unsupported_command_bind, unsupported_lift_bind, h]
  exact rejectStructuralConfig_rejects debug host.os cmd e h

/-- Behind a passed gate the verdict is the plan's arm's. -/
theorem unsupported_rewriteWithHost_of_ok
    (h : rejectStructuralConfig debug host.os cmd = .ok ()) :
    unsupported (rewriteWithHost debug pipe host) cmd =
      unsupported
        (rewriteTransition debug pipe
          (host.plan .elevated cmd.elevation.backend cmd.elevation.auth))
        cmd := by
  unfold rewriteWithHost
  rw [unsupported_command_bind, unsupported_lift_bind]
  simp only [h]

/-- The elevated run is rejected by what both runs share, and by nothing
else. -/
theorem unsupported_elevated {host : Host Bytes} (hos : host.os ≠ .windows) :
    unsupported (rewriteWithHost debug pipe (host.withElevated true))
      cmd = requestRejected debug host cmd := by
  unfold requestRejected
  cases hgate : rejectStructuralConfig debug host.os cmd with
  | error e =>
      exact unsupported_rewriteWithHost_of_gate (host.withElevated true) hgate
  | ok u =>
      rw [unsupported_rewriteWithHost_of_ok (host.withElevated true) hgate,
        plan_posix hos]
      obtain ⟨p, hp⟩ := programAndArgs_of_gate hgate
      cases hmatrix : structuralPosix host.os cmd.elevation.backend
          cmd.elevation.auth host.available with
      | some e => exact structuralPosix_rejects hmatrix
      | none => exact rewriteRunAsIs_unsupported hp

/-- Backend resolution ends in a wrapper or in an `Error::Elevation`. -/
theorem resolvePosix_cases (host : Host Bytes) (backend : Backend)
    (auth : Auth Bytes) :
    (∃ e, host.resolvePosix backend auth = .reject e ∧
      e.isUnsupported = false) ∨
    ∃ b path, host.resolvePosix backend auth = .elevatePosix b path auth := by
  unfold Host.resolvePosix
  split
  · exact .inl ⟨_, rfl, rfl⟩
  · split
    · exact .inl ⟨_, rfl, rfl⟩
    · exact .inr ⟨_, _, rfl⟩

/-- The unprivileged run is rejected by what both runs share, and late. -/
theorem unsupported_unprivileged {host : Host Bytes}
    (hos : host.os ≠ .windows) :
    unsupported (rewriteWithHost debug pipe (host.withElevated false))
      cmd = true ↔
    requestRejected debug host cmd = true ∨ RejectedLate debug host cmd := by
  unfold requestRejected RejectedLate
  cases hgate : rejectStructuralConfig debug host.os cmd with
  | error e =>
      rw [unsupported_rewriteWithHost_of_gate (host.withElevated false)
        hgate]
      simp
  | ok u =>
      rw [unsupported_rewriteWithHost_of_ok (host.withElevated false) hgate,
        plan_posix hos]
      obtain ⟨p, hp⟩ := programAndArgs_of_gate hgate
      obtain ⟨program, args⟩ := p
      cases hmatrix : structuralPosix host.os cmd.elevation.backend
          cmd.elevation.auth host.available with
      | some e =>
          have he : unsupported (rewriteTransition debug pipe (.reject e))
              cmd = true := structuralPosix_rejects hmatrix
          simp [he]
      | none =>
          dsimp only
          rw [if_neg Bool.false_ne_true]
          by_cases hgui : isMacosGuiAuto host.os cmd.elevation.backend
              cmd.elevation.auth = true
          · rw [if_pos hgui]
            cases host.available.osascript with
            | none => simp [rejectBackendUnavailable, rewriteTransition,
                unsupported, Error.isUnsupported]
            | some osascript =>
                have hnot := rewriteMacosGui_unsupported hgate hgui osascript
                  host.argMax
                simp [rewriteTransition, hnot]
          · rw [if_neg hgui]
            rcases resolvePosix_cases (host.withElevated false)
              cmd.elevation.backend cmd.elevation.auth with
              ⟨e, he, hnot⟩ | ⟨b, path, hb⟩
            · rw [he]
              simp [rewriteTransition, unsupported, hnot]
            · rw [hb]
              rw [rewriteTransition,
                rewriteElevatePosix_unsupported debug pipe b path _ hp]
              simp [hp]

/-- A late rejection is not one both runs share. -/
theorem RejectedLate.not_requestRejected {host : Host Bytes}
    (hos : host.os ≠ .windows) (h : RejectedLate debug host cmd) :
    requestRejected debug host cmd = false := by
  obtain ⟨backend, path, auth, program, args, hgate, hplan, _⟩ := h
  unfold requestRejected
  rw [hgate]
  rw [plan_posix hos] at hplan
  cases hmatrix : structuralPosix host.os cmd.elevation.backend
      cmd.elevation.auth host.available with
  | some e =>
      rw [hmatrix] at hplan
      cases hplan
  | none => rfl

end

/-- The verdict `Error::Unsupported` is the same for a root caller and for an
unprivileged one exactly when the construction of the wrapper's arguments does
not reject the request. -/
theorem rewriteWithHost_unsupported_iff (debug : Bytes → String)
    (pipe₁ pipe₂ : PipeAnswer) (host : Host Bytes) (cmd : Command Bytes)
    (hos : host.os ≠ .windows) :
    (unsupported (rewriteWithHost debug pipe₁ (host.withElevated true)) cmd =
        true ↔
      unsupported (rewriteWithHost debug pipe₂ (host.withElevated false)) cmd =
        true) ↔
    ¬ RejectedLate debug host cmd := by
  rw [unsupported_elevated hos, unsupported_unprivileged hos]
  constructor
  · intro hsame hlate
    have hrejected := hsame.mpr (.inr hlate)
    rw [hlate.not_requestRejected hos] at hrejected
    cases hrejected
  · intro hnot
    constructor
    · exact .inl
    · intro h
      rcases h with h | h
      · exact h
      · exact absurd h hnot

/-! ## A request with two verdicts -/

/-- A host with `doas` and no `sudo`. -/
def doasHost : Host Bytes where
  elevated := false
  hasTty := true
  available := {
    run0 := none
    «sudo» := none
    doas := some (ascii "/usr/bin/doas")
    pkexec := none
    osascript := none }
  os := .unix
  argMax := none

/-- `/bin/id` with `LANG=C`, elevated through whatever backend there is. -/
def langCommand : Command Bytes :=
  { (Command.default.setInputArgv [ascii "/bin/id"]).setEnvOps
      [.set (ascii "LANG") (ascii "C")] with
    elevation := { ElevationRequest.default with enabled := true } }

theorem rewriteWithHost_unsupported_lang :
    (unsupported (rewriteWithHost (fun _ => "LANG") (.ok (3, 4))
        (doasHost.withElevated true)) langCommand = true ↔
      unsupported (rewriteWithHost (fun _ => "LANG") (.ok (3, 4))
        (doasHost.withElevated false)) langCommand = true) ↔
    ¬ RejectedLate (fun _ => "LANG") doasHost langCommand :=
  rewriteWithHost_unsupported_iff _ _ _ doasHost langCommand
    (by decide)

/-- The root caller's request is accepted, the other one is unsupported. -/
theorem rewriteWithHost_two_verdicts :
    ¬ (unsupported (rewriteWithHost (fun _ => "LANG") (.ok (3, 4))
        (doasHost.withElevated true)) langCommand = true ↔
      unsupported (rewriteWithHost (fun _ => "LANG") (.ok (3, 4))
        (doasHost.withElevated false)) langCommand = true) := by
  have hroot : unsupported (rewriteWithHost (fun _ => "LANG") (.ok (3, 4))
      (doasHost.withElevated true)) langCommand = false := rfl
  have huser : unsupported (rewriteWithHost (fun _ => "LANG") (.ok (3, 4))
      (doasHost.withElevated false)) langCommand = true := rfl
  intro hsame
  rw [hsame.mpr huser] at hroot
  cases hroot

end Cosca.Ports.ElevationVerdict
