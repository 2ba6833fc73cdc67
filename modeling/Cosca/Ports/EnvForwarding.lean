import Mathlib.Data.List.Induction
import Cosca.Ports.ElevationRewrite

/-!
# The variables that reach an elevated program

The variables that a caller sets go through the sanitizer and leave on one of
three ways: in the environment of the derived command, as names that `sudo`
preserves from there, or as words of `run0`.  Here they are read back from the
derived command.

## Main results

* `mem_explicitSetEnv`: the map of the rewrite holds the last value of a key.
* `rewriteWithHost_forwards`: what reaches the program is what the policy
  keeps, and what is reported is what it drops.
-/

namespace Cosca.Ports.EnvForwarding

open Cosca.Ports.Errors
open Cosca.Ports.CommandRecord
open Cosca.Ports.Elevation
open Cosca.Ports.ElevationArgv
open Cosca.Ports.ElevationPlan
open Cosca.Ports.ElevationRewrite
open Cosca.Ports.EnvBlock (Sorted)
open Cosca.Ports.EnvSanitizer
open Cosca.Ports.PosixElevation
open Cosca.Ports.PosixSplit (Bytes)

/-! ## The last value of a key -/

/-- The value that the operation gives the key. -/
def setTo (key : Bytes) : EnvOp Bytes → Option Bytes
  | .set k v => if k = key then some v else none
  | .remove _ | .clear => none

/-- The value that the key is set to last. -/
def lastSet (ops : List (EnvOp Bytes)) (key : Bytes) : Option Bytes :=
  (ops.filterMap (setTo key)).getLast?

theorem lastSet_concat (ops : List (EnvOp Bytes)) (op : EnvOp Bytes)
    (key : Bytes) :
    lastSet (ops ++ [op]) key = (setTo key op).or (lastSet ops key) := by
  unfold lastSet
  rw [List.filterMap_append]
  cases hop : setTo key op with
  | none => simp [hop]
  | some value => simp [hop]

theorem explicitSetEnv_concat (ops : List (EnvOp Bytes)) (op : EnvOp Bytes) :
    explicitSetEnv (ops ++ [op]) =
      match op with
      | .set k v => insertEntry k v (explicitSetEnv ops)
      | _ => explicitSetEnv ops := by
  unfold explicitSetEnv
  rw [List.foldl_append]
  rfl

theorem explicitSetEnv_sorted (ops : List (EnvOp Bytes)) :
    Sorted (explicitSetEnv ops) := by
  induction ops using List.reverseRecOn with
  | nil => exact List.Pairwise.nil
  | append_singleton ops op ih =>
      rw [explicitSetEnv_concat]
      cases op with
      | set k v => exact ih.insert k v
      | remove k => exact ih
      | clear => exact ih

/-- The map holds the last value of every key that is set. -/
theorem mem_explicitSetEnv {ops : List (EnvOp Bytes)} {key value : Bytes} :
    (key, value) ∈ explicitSetEnv ops ↔ lastSet ops key = some value := by
  induction ops using List.reverseRecOn with
  | nil => exact iff_of_false List.not_mem_nil nofun
  | append_singleton ops op ih =>
      rw [explicitSetEnv_concat, lastSet_concat]
      cases op with
      | set k v =>
          dsimp only
          rw [(explicitSetEnv_sorted ops).mem_insert, ih]
          by_cases hkey : k = key
          · simp [setTo, hkey, eq_comm]
          · simp [setTo, hkey, Ne.symm hkey]
      | remove k => exact ih
      | clear => exact ih

/-- Variables under different names are set to their own values. -/
theorem lastSet_sets {vars : List (Bytes × Bytes)}
    (hnodup : (vars.map Prod.fst).Nodup) {key value : Bytes}
    (hmem : (key, value) ∈ vars) :
    lastSet (vars.map fun (k, v) => .set k v) key = some value := by
  have hin : value ∈
      (vars.map fun (k, v) => EnvOp.set k v).filterMap (setTo key) := by
    refine List.mem_filterMap.mpr ⟨.set key value, ?_, if_pos rfl⟩
    exact List.mem_map.mpr ⟨(key, value), hmem, rfl⟩
  have hall : ∀ other ∈
      (vars.map fun (k, v) => EnvOp.set k v).filterMap (setTo key),
        other = value := by
    intro other hother
    obtain ⟨op, hop, hset⟩ := List.mem_filterMap.mp hother
    obtain ⟨⟨k, v⟩, hvar, rfl⟩ := List.mem_map.mp hop
    by_cases hkey : k = key
    · have hv : v = other := Option.some.inj ((if_pos hkey).symm.trans hset)
      have hsame := List.inj_on_of_nodup_map hnodup hvar hmem hkey
      rw [← hv, (Prod.mk.inj hsame).2]
    · exact nomatch (if_neg hkey).symm.trans hset
  unfold lastSet
  cases hlast : List.getLast?
      ((vars.map fun (k, v) => EnvOp.set k v).filterMap (setTo key)) with
  | none =>
      rw [List.getLast?_eq_none_iff.mp hlast] at hin
      exact absurd hin List.not_mem_nil
  | some last => rw [hall last (List.mem_of_getLast? hlast)]

/-! ## What reaches the program -/

/-- The variable that an operation sets. -/
def setVar : EnvOp Bytes → Option (Bytes × Option Bytes)
  | .set k v => some (k, some v)
  | .remove _ | .clear => none

/-- What an option makes a front end forward, a name with the value that is
its own.  A name that `sudo` preserves has the value that it is set to in the
environment of `sudo`, and `none` where that is inherited. -/
def forwardedBy (derived : Command Bytes) :
    Meaning → List (Bytes × Option Bytes)
  | .setenv name value => [(name, some value)]
  | .preserveEnv names =>
      names.map fun name => (name, lastSet derived.envOps name)
  | .flag _ | .other _ => []

/-- The variables that a derived command hands to the elevated program. -/
def reaching (via : ElevatedVia) (derived : Command Bytes) :
    List (Bytes × Option Bytes) :=
  match via, derived.input with
  | .alreadyElevated, _ => derived.envOps.filterMap setVar
  | .wrapped backend, .argv argv =>
      (readArgv backend argv).1.flatMap (forwardedBy derived)
  | _, _ => []

/-- The name of the variable that the crate sets. -/
def sudoAskpass : Bytes :=
  ascii "SUDO_ASKPASS"

/-- The variable is set by the caller, and this is its last value. -/
def Sets (cmd : Command Bytes) (key value : Bytes) : Prop :=
  lastSet cmd.envOps key = some value

/-- The policy of the request keeps the variable. -/
def Keeps (cmd : Command Bytes) (key value : Bytes) : Prop :=
  Policy.keeps cmd.elevation.sanitizer.policy key value = true

/-- The variables that the policy keeps reach the program, each once, and the
names of the other ones are reported. -/
structure Forwards (cmd derived : Command Bytes) (report : ElevationReport) :
    Prop where
  reaching_iff : ∀ key value, (key, value) ∈ reaching report.via derived ↔
    ∃ v, value = some v ∧ Sets cmd key v ∧ Keeps cmd key v
  once : ((reaching report.via derived).map Prod.fst).Nodup
  stripped_iff : ∀ key, key ∈ report.strippedEnv ↔
    ∃ v, Sets cmd key v ∧ ¬ Keeps cmd key v
  stripped_sorted : report.strippedEnv.Pairwise (· ≤ ·)
  stripped_once : report.strippedEnv.Nodup
  disjoint : ∀ key ∈ report.strippedEnv, ∀ value,
    (key, value) ∉ reaching report.via derived
  /-- Nothing else is set for the derived command but the crate's own
  variable. -/
  derived_env : ∀ op ∈ derived.envOps,
    (∃ key v, op = .set key v ∧
      (key, some v) ∈ reaching report.via derived) ∨
    ∃ program, cmd.elevation.auth = .askpass program ∧
      op = .set sudoAskpass program

/-! ## The three ways -/

/-- Variables with their own values. -/
def carried (vars : List (Bytes × Bytes)) : List (Bytes × Option Bytes) :=
  vars.map fun (k, v) => (k, some v)

theorem mem_carried {vars : List (Bytes × Bytes)} {key : Bytes}
    {value : Option Bytes} : (key, value) ∈ carried vars ↔
      ∃ v, value = some v ∧ (key, v) ∈ vars := by
  unfold carried
  rw [List.mem_map]
  constructor
  · rintro ⟨⟨k, v⟩, hmem, heq⟩
    cases heq
    exact ⟨v, rfl, hmem⟩
  · rintro ⟨v, rfl, hmem⟩
    exact ⟨(key, v), hmem, rfl⟩

theorem carried_names (vars : List (Bytes × Bytes)) :
    (carried vars).map Prod.fst = vars.map Prod.fst := by
  unfold carried
  rw [List.map_map]
  rfl

theorem filterMap_setVar (vars : List (Bytes × Bytes)) :
    (vars.map fun (k, v) => EnvOp.set k v).filterMap setVar =
      carried vars := by
  rw [List.filterMap_map, carried, ← List.filterMap_eq_map]
  rfl

section

variable {cmd : Command Bytes}

theorem mem_sanitized {key value : Bytes} :
    (key, value) ∈ (sanitized cmd).1 ↔
      Sets cmd key value ∧ Keeps cmd key value := by
  unfold sanitized
  rw [mem_kept, mem_explicitSetEnv]
  exact Iff.rfl

theorem sanitized_nodup : ((sanitized cmd).1.map Prod.fst).Nodup :=
  kept_nodup (explicitSetEnv_sorted cmd.envOps).nodup

theorem mem_stripped_iff {key : Bytes} : key ∈ (sanitized cmd).2 ↔
    ∃ v, Sets cmd key v ∧ ¬ Keeps cmd key v := by
  unfold sanitized Keeps Sets
  rw [mem_stripped]
  simp only [mem_explicitSetEnv, Bool.not_eq_true]

/-- It is enough that the sanitized variables are carried. -/
theorem forwards_of_carried {derived : Command Bytes}
    {report : ElevationReport}
    (hreach : reaching report.via derived = carried (sanitized cmd).1)
    (hstripped : report.strippedEnv = (sanitized cmd).2)
    (henv : ∀ op ∈ derived.envOps,
      (∃ key v, op = .set key v ∧ (key, v) ∈ (sanitized cmd).1) ∨
      ∃ program, cmd.elevation.auth = .askpass program ∧
        op = .set sudoAskpass program) :
    Forwards cmd derived report := by
  have hmem (key : Bytes) (value : Option Bytes) :
      (key, value) ∈ reaching report.via derived ↔
        ∃ v, value = some v ∧ Sets cmd key v ∧ Keeps cmd key v := by
    rw [hreach, mem_carried]
    simp only [mem_sanitized]
  refine {
    reaching_iff := hmem
    once := ?_
    stripped_iff := ?_
    stripped_sorted := ?_
    stripped_once := ?_
    disjoint := ?_
    derived_env := ?_ }
  · rw [hreach, carried_names]
    exact sanitized_nodup
  · intro key
    rw [hstripped]
    exact mem_stripped_iff
  · rw [hstripped]
    exact stripped_sorted
  · rw [hstripped]
    exact stripped_nodup (explicitSetEnv_sorted cmd.envOps).nodup
  · intro key hkey value hvalue
    rw [hstripped] at hkey
    obtain ⟨v, hset, hdropped⟩ := mem_stripped_iff.mp hkey
    obtain ⟨w, -, hset', hkept⟩ := (hmem key value).mp hvalue
    -- a key has one last value
    have hsame : v = w := Option.some.inj (hset.symm.trans hset')
    rw [hsame] at hdropped
    exact hdropped hkept
  · intro op hop
    rcases henv op hop with ⟨key, v, rfl, hkept⟩ | hcrate
    · refine Or.inl ⟨key, v, rfl, (hmem key _).mpr ⟨v, rfl, ?_⟩⟩
      exact mem_sanitized.mp hkept
    · exact Or.inr hcrate

theorem asIsRewrite_forwards (program : Bytes) (args : List Bytes) :
    ∃ derived report,
      (asIsRewrite cmd program args).derived = some derived ∧
      (asIsRewrite cmd program args).report = some report ∧
      Forwards cmd derived report := by
  have hcommand := asIsCommand_eq cmd program args
  have hops : ((asIsCommand cmd program args).insertFds cmd.fds).envOps =
      (sanitized cmd).1.map fun (k, v) => EnvOp.set k v := by
    rw [insertFds_envOps, hcommand]
  refine ⟨_, _, rfl, rfl, forwards_of_carried ?_ rfl ?_⟩
  · show List.filterMap setVar _ = _
    rw [hops, filterMap_setVar]
  · intro op hop
    rw [hops] at hop
    obtain ⟨⟨k, v⟩, hkept, rfl⟩ := List.mem_map.mp hop
    exact Or.inl ⟨k, v, rfl, hkept⟩

/-- Nothing is forwarded behind the dialog of macOS, and nothing was set. -/
theorem guiRewrite_forwards {program : Bytes} {args : List Bytes}
    (hready : GuiReady cmd program args) (osascript : Bytes)
    (script : List Char) :
    ∃ derived report,
      (guiRewrite cmd osascript script).derived = some derived ∧
      (guiRewrite cmd osascript script).report = some report ∧
      Forwards cmd derived report := by
  have hnothing : sanitized cmd = ([], []) := by
    unfold sanitized
    rw [hready.no_env]
    rfl
  have hops : ((guiCommand cmd osascript script).insertFds cmd.fds).envOps =
      [] := by
    rw [insertFds_envOps, guiCommand_eq]
    rfl
  refine ⟨_, _, rfl, rfl, forwards_of_carried ?_ ?_ ?_⟩
  · rw [hnothing]
    rfl
  · rw [hnothing]
  · intro op hop
    rw [hops] at hop
    cases hop

/-- The front end has the variables that it is told to preserve. -/
theorem lastSet_wrappedEnvOps
    (haskpass : ∀ program, cmd.elevation.auth = .askpass program →
      lastSet cmd.envOps sudoAskpass = none)
    {key value : Bytes} (hkept : (key, value) ∈ (sanitized cmd).1) :
    lastSet (wrappedEnvOps .sudo cmd.elevation.auth (sanitized cmd).1) key =
      some value := by
  have hsets := lastSet_sets sanitized_nodup hkept
  cases hauth : cmd.elevation.auth with
  | askpass program =>
      have hother : sudoAskpass ≠ key := by
        rintro rfl
        have hset := (mem_sanitized.mp hkept).1
        exact nomatch (haskpass program hauth).symm.trans hset
      have hcrate : setTo key (.set (ascii "SUDO_ASKPASS") program) = none :=
        if_neg hother
      show lastSet (((sanitized cmd).1.map fun (k, v) => EnvOp.set k v) ++
        [.set (ascii "SUDO_ASKPASS") program]) key = _
      rw [lastSet_concat, hcrate]
      exact hsets
  | interactive | nonInteractive | stdin secret | gui => exact hsets

theorem mem_wrappedEnvOps {backend : Backend} {op : EnvOp Bytes}
    (hop : op ∈ wrappedEnvOps backend cmd.elevation.auth (sanitized cmd).1) :
    (∃ key v, op = .set key v ∧ (key, v) ∈ (sanitized cmd).1) ∨
    ∃ program, cmd.elevation.auth = .askpass program ∧
      op = .set sudoAskpass program := by
  have hsets : ∀ op ∈ (if backend == .sudo then
        (sanitized cmd).1.map fun (k, v) => EnvOp.set k v
      else []), ∃ key v, op = .set key v ∧ (key, v) ∈ (sanitized cmd).1 := by
    intro op hop
    by_cases hsudo : (backend == .sudo) = true
    · rw [if_pos hsudo] at hop
      obtain ⟨⟨k, v⟩, hkept, rfl⟩ := List.mem_map.mp hop
      exact ⟨k, v, rfl, hkept⟩
    · rw [if_neg hsudo] at hop
      cases hop
  unfold wrappedEnvOps at hop
  cases hauth : cmd.elevation.auth with
  | askpass program =>
      rw [hauth] at hop
      rcases List.mem_append.mp hop with hop | hop
      · exact Or.inl (hsets op hop)
      · exact Or.inr ⟨program, rfl, List.mem_singleton.mp hop⟩
  | interactive | nonInteractive | stdin secret | gui =>
      rw [hauth] at hop
      exact Or.inl (hsets op hop)

/-- What a front end is told is what the sanitizer kept. -/
theorem flatMap_forwarded {backend : Backend} (hresolved : backend ≠ .auto)
    (hforward : backend = .doas ∨ backend = .pkexec → (sanitized cmd).1 = [])
    {derived : Command Bytes}
    (hpreserved : backend = .sudo → ∀ key value,
      (key, value) ∈ (sanitized cmd).1 →
        lastSet derived.envOps key = some value) :
    (forwarded backend (sanitized cmd).1).flatMap (forwardedBy derived) =
      carried (sanitized cmd).1 := by
  cases backend with
  | auto => exact absurd rfl hresolved
  | run0 =>
      unfold forwarded carried
      rw [List.flatMap_map]
      exact List.flatMap_pure_eq_map _ _
  | «sudo» =>
      cases hkept : (sanitized cmd).1 with
      | nil => rfl
      | cons p kept =>
          rw [hkept] at hpreserved
          show ((p :: kept).map Prod.fst).map
            (fun name => (name, lastSet derived.envOps name)) ++ [] = _
          rw [List.append_nil, List.map_map]
          apply List.map_congr_left
          rintro ⟨key, value⟩ hmem
          exact congrArg (Prod.mk key) (hpreserved rfl key value hmem)
  | doas =>
      rw [hforward (Or.inl rfl)]
      rfl
  | pkexec =>
      rw [hforward (Or.inr rfl)]
      rfl

/-- The front end reads flags of the crate and what it is told to forward. -/
theorem readArgv_of_buildArgv {debug : Bytes → String} {backend : Backend}
    {path program : Bytes} {args argv : List Bytes}
    (hresolved : backend ≠ .auto)
    (hforward : backend = .doas ∨ backend = .pkexec → (sanitized cmd).1 = [])
    (hargv : Elevating.on (buildArgv debug backend path cmd.elevation.auth
      program args (sanitized cmd).1) cmd = some (.ok argv, cmd)) :
    ∃ flags : List Bytes, (readArgv backend argv).1 =
      flags.map .flag ++ forwarded backend (sanitized cmd).1 := by
  obtain ⟨flags, hflags, hvector⟩ := buildArgv_eq debug hresolved path
    cmd.elevation.auth program args hforward cmd
  rw [hvector] at hargv
  cases hrefusal : refusal debug backend program (sanitized cmd).1 with
  | some e =>
      rw [hrefusal] at hargv
      cases hargv
  | none =>
      rw [hrefusal] at hargv
      have haccepted := (refusal_eq_none_iff debug backend program _).mp
        hrefusal
      cases hargv
      exact ⟨flags, congrArg Prod.fst
        (readArgv_vector haccepted hflags path args)⟩

theorem wrappedRewrite_forwards {debug : Bytes → String} {pipe : PipeAnswer}
    {backend : Backend} {path program : Bytes} {args argv : List Bytes}
    {wired : Command Bytes} {password : Option PendingPassword}
    (hresolved : backend ≠ .auto)
    (hforward : backend = .doas ∨ backend = .pkexec → (sanitized cmd).1 = [])
    (hargv : Elevating.on (buildArgv debug backend path cmd.elevation.auth
      program args (sanitized cmd).1) cmd = some (.ok argv, cmd))
    (hwired : wirePassword pipe cmd.elevation.auth
      (wrappedCommand cmd backend argv) = .ok (wired, password))
    (haskpass : ∀ program, cmd.elevation.auth = .askpass program →
      lastSet cmd.envOps sudoAskpass = none) :
    ∃ derived report,
      (wrappedRewrite cmd backend path wired password).derived =
        some derived ∧
      (wrappedRewrite cmd backend path wired password).report = some report ∧
      Forwards cmd derived report := by
  obtain ⟨flags, hread⟩ := readArgv_of_buildArgv hresolved hforward hargv
  obtain ⟨fds, hfds⟩ := wirePassword_eq hwired
  have hinput : (wired.insertFds (movedFds cmd password)).input =
      .argv argv := by
    rw [insertFds_input, hfds, wrappedCommand_eq]
  have hops : (wired.insertFds (movedFds cmd password)).envOps =
      wrappedEnvOps backend cmd.elevation.auth (sanitized cmd).1 := by
    rw [insertFds_envOps, hfds, wrappedCommand_eq]
  have hpreserved : backend = .sudo → ∀ key value,
      (key, value) ∈ (sanitized cmd).1 →
        lastSet (wired.insertFds (movedFds cmd password)).envOps key =
          some value := by
    rintro rfl key value hkept
    rw [hops]
    exact lastSet_wrappedEnvOps haskpass hkept
  have hflags : (flags.map Meaning.flag).flatMap
      (forwardedBy (wired.insertFds (movedFds cmd password))) = [] := by
    rw [List.flatMap_map]
    exact List.flatMap_eq_nil_iff.mpr fun _ _ => rfl
  refine ⟨_, _, rfl, rfl, forwards_of_carried ?_ rfl ?_⟩
  · unfold reaching
    rw [hinput]
    dsimp only
    rw [hread, List.flatMap_append, hflags, List.nil_append]
    exact flatMap_forwarded hresolved hforward hpreserved
  · intro op hop
    rw [hops] at hop
    exact mem_wrappedEnvOps hop

end

/-! ## Denied names -/

/-- A name of the default denylist, or one that begins as a denied one. -/
def Denied (key : Bytes) : Prop :=
  ascii "LD_" <+: key ∨ ascii "DYLD_" <+: key ∨ ascii "_RLD" <+: key ∨
    ascii "LDR_" <+: key ∨ key ∈ defaultDenylist

theorem isDenied_iff_denied (key : Bytes) :
    isDenied key = true ↔ Denied key := by
  have hlist : denylistPrefixes =
      [ascii "LD_", ascii "DYLD_", ascii "_RLD", ascii "LDR_"] := rfl
  rw [isDenied_iff, hlist]
  unfold Denied
  simp only [List.mem_cons, List.not_mem_nil, or_false, exists_eq_or_imp,
    exists_eq_left, or_assoc]

theorem keeps_denylist_iff (keep : List Bytes) (key value : Bytes) :
    Policy.keeps (.denylist keep) key value = false ↔
      key ∉ keep ∧ Denied key := by
  rw [← isDenied_iff_denied]
  simp [Policy.keeps]

/-- For every request that the rewrite accepts, where the caller does not set
the crate's own variable: the last values that the policy keeps are what
reaches the program, the other names are what is reported, and a denylist drops
the denied names that are not kept explicitly. -/
theorem rewriteWithHost_forwards (debug : Bytes → String) (pipe : PipeAnswer)
    (host : Host Bytes) (cmd : Command Bytes) (hos : host.os ≠ .windows)
    {r : PosixRewrite} {cmd' : Command Bytes}
    (h : Elevating.on (rewriteWithHost debug pipe host) cmd =
      some (.ok r, cmd'))
    (haskpass : ∀ program, cmd.elevation.auth = .askpass program →
      lastSet cmd.envOps sudoAskpass = none) :
    (∃ derived report, r.derived = some derived ∧ r.report = some report ∧
      Forwards cmd derived report) ∧
    ∀ keep key value, Policy.keeps (.denylist keep) key value = false ↔
      key ∉ keep ∧ Denied key := by
  have hends : EndsIn (rewriteWithHost debug pipe host) cmd
      (Outcome debug pipe cmd) := rewriteWithHost_outcome hos
  obtain ⟨result, left, hrun, hout⟩ := hends
  refine ⟨?_, keeps_denylist_iff⟩
  rw [hrun] at h
  cases h
  cases hout with
  | asIs program args => exact asIsRewrite_forwards program args
  | wrapped hready hresolved hforward hargv hwired =>
      exact wrappedRewrite_forwards hresolved hforward hargv hwired haskpass
  | gui osascript script hready =>
      exact guiRewrite_forwards hready osascript script

/-- A variable that is set twice, and one that the loader reads. -/
def askpassRequest : Command Bytes :=
  { (Command.default.setInputArgv [ascii "/bin/id"] : Command Bytes) with
    envOps := [.set (ascii "A") (ascii "1"), .set (ascii "LD_PRELOAD") [255],
      .set (ascii "A") (ascii "2")]
    elevation := { ElevationRequest.default with
      enabled := true
      backend := .sudo
      auth := .askpass (ascii "/bin/ask") } }

theorem rewriteWithHost_forwards_askpass :
    ∃ r cmd' derived report,
      Elevating.on (rewriteWithHost (fun _ => "") (.ok (3, 4)) sudoHost)
        askpassRequest = some (.ok r, cmd') ∧
      r.derived = some derived ∧ r.report = some report ∧
        Forwards askpassRequest derived report := by
  have hunset : lastSet askpassRequest.envOps sudoAskpass = none := by decide
  obtain ⟨derived, report, hderived, hreport, hforwards⟩ :=
    (rewriteWithHost_forwards (fun _ => "") (.ok (3, 4)) sudoHost
      askpassRequest (by decide) rfl fun _ _ => hunset).1
  exact ⟨_, _, derived, report, rfl, hderived, hreport, hforwards⟩

end Cosca.Ports.EnvForwarding
