import Cosca.Ports.Errors
import Cosca.Ports.Identity
import Cosca.Verified.Text

/-!
# Persisted identities

`identity/persist.rs`: an identity leaves the crate as an inert record and
comes back only through `validate`.  The checks are a chain in a fixed order;
`Acceptable` is the set they cut out.

## Main results

* `validate_eq_ok_iff`: a record passes exactly when it is `Acceptable`.
* `validate_other_session`: what the chain answers in another session.
* `restore_within_session`: nothing is restored outside its session.
-/

namespace Cosca.Ports.IdentityRecord

open Cosca.Ports.Errors
open Cosca.Ports.Identity
open Cosca.Verified.Text

/-! ## Records -/

/-- `RECORD_VERSION`. -/
def recordVersion : UInt32 := 1

/-- `Platform`. -/
inductive Platform where
  | linux
  | macOs
  | windows
  | other (tag : String)
  deriving DecidableEq, Repr

/-- The operating systems the crate is built for. -/
inductive Target where
  | linux
  | macOs
  | windows
  deriving DecidableEq, Repr

/-- `Platform::current`, one definition a build target. -/
def Platform.current : Target → Platform
  | .linux => .linux
  | .macOs => .macOs
  | .windows => .windows

/-- `Platform::as_str`. -/
def Platform.asStr : Platform → String
  | .linux => "linux"
  | .macOs => "macos"
  | .windows => "windows"
  | .other tag => tag

/-- `Platform::from_wire`. -/
def Platform.fromWire (tag : String) : Platform :=
  if tag = "linux" then .linux
  else if tag = "macos" then .macOs
  else if tag = "windows" then .windows
  else .other tag

/-- `ProcessIdRecord`. -/
structure ProcessIdRecord where
  version : UInt32
  platform : Platform
  pid : RawPid
  token : UInt64
  bootId : Option String
  pidNs : Option UInt64
  deriving DecidableEq, Repr

/-- `Scope`: the live session a token has to belong to. -/
structure Scope where
  bootId : Option String
  pidNs : Option UInt64
  deriving DecidableEq, Repr

/-- `Scope::none`. -/
def Scope.none : Scope where
  bootId := .none
  pidNs := .none

/-- `ScopeReadError`. -/
structure ScopeReadError where
  path : String
  source : IoError
  deriving DecidableEq, Repr

/-! ## Refusals

`io` is the `Display` of the operating system's errors, and `printable` tells
which characters the debug output of a string leaves as they are.
-/

variable (io : IoError → String) (printable : Char → Bool)

/-- `scope_error`. -/
def scopeError (e : ScopeReadError) : Error :=
  .identityRecord .scopeUnreadable
    (e.path ++ " could not be read: " ++ io e.source) (some e.source)

/-- `reject`. -/
def reject (record : ProcessIdRecord) (scope : Scope)
    (kind : RecordErrorKind) : Error :=
  .identityRecord kind
    ("record v" ++ toString record.version ++ " from " ++
      record.platform.asStr ++ " for pid " ++ toString record.pid ++
      " (boot_id " ++ debugOption (debugStr printable) record.bootId ++
      " vs live " ++ debugOption (debugStr printable) scope.bootId ++
      ", pid_ns " ++ debugOption toString record.pidNs ++ " vs live " ++
      debugOption toString scope.pidNs ++ ")")
    none

/-! ## Writing and reading -/

/-- `pid_is_addressable`. -/
def pidIsAddressable (pid : RawPid) (here : Platform) : Bool :=
  match here with
  | .windows => pid != 0
  | _ => (signalTarget pid).isSome

/-- The scope rule for one field of the session: one the live scope does not
use is ignored in the record. -/
def checkField {α : Type} [DecidableEq α] (live saved : Option α)
    (missing foreign : RecordErrorKind) : Except RecordErrorKind Unit :=
  match live, saved with
  | none, _ => .ok ()
  | some _, none => .error missing
  | some live, some saved =>
      if saved ≠ live then .error foreign else .ok ()

/-- `validate`. -/
def validate (record : ProcessIdRecord) (here : Platform) (scope : Scope) :
    Except RecordErrorKind (RawPid × UInt64) :=
  if record.version ≠ recordVersion then .error .unknownVersion
  else if record.platform ≠ here then .error .foreignPlatform
  else if !pidIsAddressable record.pid here then .error .invalidPid
  else do
    checkField scope.bootId record.bootId .missingBootSession
      .foreignBootSession
    checkField scope.pidNs record.pidNs .missingPidNamespace
      .foreignPidNamespace
    return (record.pid, record.token)

/-- `record_from`. -/
def recordFrom (target : Target) (id : ProcessId)
    (scope : Except ScopeReadError Scope) : Except Error ProcessIdRecord := do
  let scope ← scope.mapError (scopeError io)
  return {
    version := recordVersion
    platform := Platform.current target
    pid := id.pid
    token := id.start
    bootId := scope.bootId
    pidNs := scope.pidNs }

/-- `restore`. -/
def restore (record : ProcessIdRecord) (here : Platform)
    (scope : Except ScopeReadError Scope) : Except Error ProcessId := do
  let scope ← scope.mapError (scopeError io)
  let (pid, token) ←
    (validate record here scope).mapError (reject printable record scope)
  return ⟨pid, token⟩

/-! ## What the chain lets through -/

theorem checkField_eq_ok_iff {α : Type} [DecidableEq α]
    (live saved : Option α) (missing foreign : RecordErrorKind) :
    checkField live saved missing foreign = .ok () ↔
      ∀ value, live = some value → saved = some value := by
  cases live with
  | none => simp [checkField]
  | some live =>
      cases saved with
      | none => simp [checkField]
      | some saved =>
          by_cases heq : saved = live
          · simp [checkField, heq]
          · simp [checkField, heq]

/-- A record this host takes in the session `scope`. -/
structure Acceptable (record : ProcessIdRecord) (here : Platform)
    (scope : Scope) : Prop where
  version : record.version = recordVersion
  platform : record.platform = here
  pid : pidIsAddressable record.pid here = true
  bootId : ∀ live, scope.bootId = some live → record.bootId = some live
  pidNs : ∀ live, scope.pidNs = some live → record.pidNs = some live

theorem Acceptable.validate {record : ProcessIdRecord} {here : Platform}
    {scope : Scope} (h : Acceptable record here scope) :
    validate record here scope = .ok (record.pid, record.token) := by
  have hboot := (checkField_eq_ok_iff _ _ .missingBootSession
    .foreignBootSession).mpr h.bootId
  have hns := (checkField_eq_ok_iff _ _ .missingPidNamespace
    .foreignPidNamespace).mpr h.pidNs
  rw [IdentityRecord.validate, if_neg (by simpa using h.version),
    if_neg (by simpa using h.platform), if_neg (by simpa using h.pid), hboot,
    hns]
  rfl

theorem acceptable_of_validate {record : ProcessIdRecord} {here : Platform}
    {scope : Scope} {out : RawPid × UInt64}
    (h : validate record here scope = .ok out) :
    Acceptable record here scope := by
  have hversion : record.version = recordVersion := by
    by_cases heq : record.version = recordVersion
    · exact heq
    · simp [validate, heq] at h
  have hplatform : record.platform = here := by
    by_cases heq : record.platform = here
    · exact heq
    · simp [validate, hversion, heq] at h
  have hpid : pidIsAddressable record.pid here = true := by
    by_cases heq : pidIsAddressable record.pid here = true
    · exact heq
    · simp [validate, hversion, hplatform, heq] at h
  rw [validate, if_neg (by simpa using hversion),
    if_neg (by simpa using hplatform), if_neg (by simpa using hpid)] at h
  have hboot : checkField scope.bootId record.bootId .missingBootSession
      .foreignBootSession = .ok () := by
    cases hcheck : checkField scope.bootId record.bootId .missingBootSession
      .foreignBootSession with
    | error kind =>
        rw [hcheck] at h
        cases h
    | ok value => rfl
  have hns : checkField scope.pidNs record.pidNs .missingPidNamespace
      .foreignPidNamespace = .ok () := by
    cases hcheck : checkField scope.pidNs record.pidNs .missingPidNamespace
      .foreignPidNamespace with
    | error kind =>
        rw [hboot, hcheck] at h
        cases h
    | ok value => rfl
  exact
    { version := hversion
      platform := hplatform
      pid := hpid
      bootId := (checkField_eq_ok_iff ..).mp hboot
      pidNs := (checkField_eq_ok_iff ..).mp hns }

/-- The checks together: which records pass, and with what. -/
theorem validate_eq_ok_iff (record : ProcessIdRecord) (here : Platform)
    (scope : Scope) (out : RawPid × UInt64) :
    validate record here scope = .ok out ↔
      Acceptable record here scope ∧ out = (record.pid, record.token) := by
  constructor
  · intro h
    have haccept := acceptable_of_validate h
    rw [haccept.validate] at h
    exact ⟨haccept, (Except.ok.inj h).symm⟩
  · rintro ⟨haccept, rfl⟩
    exact haccept.validate

theorem restore_eq_ok_iff (record : ProcessIdRecord) (here : Platform)
    (scope : Scope) (id : ProcessId) :
    restore io printable record here (.ok scope) = .ok id ↔
      Acceptable record here scope ∧ id = ⟨record.pid, record.token⟩ := by
  have hrestore : restore io printable record here (.ok scope) =
      ((validate record here scope).mapError
        (reject printable record scope)).bind
          fun out => .ok ⟨out.1, out.2⟩ := rfl
  constructor
  · intro h
    cases hcheck : validate record here scope with
    | error kind =>
        rw [hrestore, hcheck] at h
        cases h
    | ok out =>
        have haccept := (validate_eq_ok_iff ..).mp hcheck
        rw [hrestore, haccept.1.validate] at h
        exact ⟨haccept.1, (Except.ok.inj h).symm⟩
  · rintro ⟨haccept, rfl⟩
    rw [hrestore, haccept.validate]
    rfl

theorem restore_of_validate_error {record : ProcessIdRecord}
    {here : Platform} {scope : Scope} {kind : RecordErrorKind}
    (h : validate record here scope = .error kind) :
    restore io printable record here (.ok scope) =
      .error (reject printable record scope kind) := by
  show ((validate record here scope).mapError
    (reject printable record scope)).bind _ = _
  rw [h]
  rfl

/-! ## Another session -/

/-- The answer to a record of this build written in another session: the pid
rule speaks first, then the boot session, then the pid namespace. -/
def otherSession (target : Target) (pid : RawPid) (boot₁ boot₂ : String) :
    RecordErrorKind :=
  if !pidIsAddressable pid (Platform.current target) then .invalidPid
  else if boot₁ ≠ boot₂ then .foreignBootSession
  else .foreignPidNamespace

theorem validate_other_session {target : Target} {record : ProcessIdRecord}
    {boot₁ boot₂ : String} {ns₁ ns₂ : UInt64}
    (hversion : record.version = recordVersion)
    (hplatform : record.platform = Platform.current target)
    (hboot : record.bootId = some boot₁) (hns : record.pidNs = some ns₁)
    (hother : boot₁ ≠ boot₂ ∨ ns₁ ≠ ns₂) :
    validate record (Platform.current target) ⟨some boot₂, some ns₂⟩ =
      .error (otherSession target record.pid boot₁ boot₂) := by
  rw [validate, if_neg (by simpa using hversion),
    if_neg (by simpa using hplatform), hboot, hns, otherSession]
  by_cases hpid : pidIsAddressable record.pid (Platform.current target) = true
  · rw [if_neg (by simpa using hpid), if_neg (by simpa using hpid)]
    by_cases hsame : boot₁ = boot₂
    · have hforeign : ns₁ ≠ ns₂ := by
        rcases hother with h | h
        · exact absurd hsame h
        · exact h
      simp [checkField, hsame, hforeign, bind, Except.bind]
    · simp [checkField, hsame, bind, Except.bind]
  · rw [if_pos (by simpa using hpid), if_pos (by simpa using hpid)]

/-- Nothing is restored outside its session.  A record that passes names this
version, this platform, an addressable pid and every field the live session
uses; one written in a session that differs in its boot or its pid namespace
is refused for the first of these that speaks against it; and a scope that
cannot be read stops both directions. -/
theorem restore_within_session :
    (∀ (record : ProcessIdRecord) (here : Platform) (scope : Scope)
        (id : ProcessId),
      restore io printable record here (.ok scope) = .ok id →
        record.version = recordVersion ∧ record.platform = here ∧
          pidIsAddressable record.pid here = true ∧
          (∀ live, scope.bootId = some live →
            record.bootId = some live) ∧
          (∀ live, scope.pidNs = some live → record.pidNs = some live) ∧
          id = ⟨record.pid, record.token⟩) ∧
    (∀ (target : Target) (id : ProcessId) (boot₁ boot₂ : String)
        (ns₁ ns₂ : UInt64) (record : ProcessIdRecord),
      boot₁ ≠ boot₂ ∨ ns₁ ≠ ns₂ →
      recordFrom io target id (.ok ⟨some boot₁, some ns₁⟩) = .ok record →
        restore io printable record (Platform.current target)
            (.ok ⟨some boot₂, some ns₂⟩) =
          .error (reject printable record ⟨some boot₂, some ns₂⟩
            (if !pidIsAddressable id.pid (Platform.current target) then
              .invalidPid
            else if boot₁ ≠ boot₂ then .foreignBootSession
            else .foreignPidNamespace))) ∧
    (∀ (target : Target) (id : ProcessId) (record : ProcessIdRecord)
        (here : Platform) (e : ScopeReadError),
      recordFrom io target id (.error e) = .error (scopeError io e) ∧
        restore io printable record here (.error e) =
          .error (scopeError io e) ∧
        (scopeError io e).recordKind = some .scopeUnreadable) := by
  refine ⟨?_, ?_, ?_⟩
  · intro record here scope id h
    have haccept := (restore_eq_ok_iff ..).mp h
    exact ⟨haccept.1.version, haccept.1.platform, haccept.1.pid,
      haccept.1.bootId, haccept.1.pidNs, haccept.2⟩
  · intro target id boot₁ boot₂ ns₁ ns₂ record hother hwritten
    have hrecord := Except.ok.inj hwritten
    subst hrecord
    exact restore_of_validate_error io printable
      (validate_other_session rfl rfl rfl rfl hother)
  · intro target id record here e
    exact ⟨rfl, rfl, rfl⟩

/-- A record of pid 42 read after a reboot. -/
theorem restore_within_session_rebooted :
    recordFrom (fun _ => "") .linux ⟨42, 7⟩ (.ok ⟨some "a", some 1⟩) =
        .ok ⟨1, .linux, 42, 7, some "a", some 1⟩ ∧
      restore (fun _ => "") (fun _ => true)
          ⟨1, .linux, 42, 7, some "a", some 1⟩ .linux
          (.ok ⟨some "b", some 1⟩) =
        .error (reject (fun _ => true) ⟨1, .linux, 42, 7, some "a", some 1⟩
          ⟨some "b", some 1⟩ .foreignBootSession) :=
  ⟨rfl, (restore_within_session (fun _ => "") (fun _ => true)).2.1 .linux
    ⟨42, 7⟩ "a" "b" 1 1 _ (Or.inl (by decide)) rfl⟩

/-- A record of pid 0 is refused for its pid before its boot session is looked
at. -/
theorem restore_pid_zero_rebooted :
    recordFrom (fun _ => "") .linux ⟨0, 7⟩ (.ok ⟨some "a", some 1⟩) =
        .ok ⟨1, .linux, 0, 7, some "a", some 1⟩ ∧
      restore (fun _ => "") (fun _ => true)
          ⟨1, .linux, 0, 7, some "a", some 1⟩ .linux
          (.ok ⟨some "b", some 1⟩) =
        .error (reject (fun _ => true) ⟨1, .linux, 0, 7, some "a", some 1⟩
          ⟨some "b", some 1⟩ .invalidPid) ∧
      RecordErrorKind.invalidPid ≠ .foreignBootSession :=
  ⟨rfl, rfl, by decide⟩

end Cosca.Ports.IdentityRecord
