/-!
# The crate's errors

`error.rs`: why a command line could not be split (`QuoteError`), the runtime
elevation failures, why a persisted identity is refused, and the top-level
`Error`, with the texts they carry.

The crate is modelled as a release build, without debug assertions; only the
elevation rewrite keeps them, as panics.
-/

namespace Cosca.Ports.Errors

/-! ## Quoting errors -/

/-- `QuoteErrorKind`. -/
inductive QuoteErrorKind where
  | unterminatedSingleQuote
  | unterminatedDoubleQuote
  | trailingBackslash
  | nonUtf8
  | unrepresentableChar
  deriving DecidableEq, Repr

/-- `QuoteError`: what is wrong and at which offset. -/
structure QuoteError where
  pos : Nat
  kind : QuoteErrorKind
  deriving DecidableEq, Repr

/-! ## The top-level error -/

/-- The `std::io::ErrorKind`s the crate constructs or tests. -/
inductive IoErrorKind where
  | notFound
  | permissionDenied
  | invalidInput
  | invalidData
  | unsupported
  | other
  deriving DecidableEq, Repr

/-- `std::io::Error`: a raw OS error number, or a kind with a message. -/
inductive IoError where
  | os (errno : Int)
  | custom (kind : IoErrorKind) (message : String)
  deriving DecidableEq, Repr

/-- `std::io::Error::other`. -/
def IoError.other (message : String) : IoError :=
  .custom .other message

/-- `kind` gives `PermissionDenied`: `ERROR_ACCESS_DENIED` on Windows, `EPERM`
and `EACCES` elsewhere. -/
def IoError.isPermissionDenied (windows : Bool) : IoError → Bool
  | .os errno =>
      if windows then errno == 5 else errno == 1 || errno == 13
  | .custom kind _ => kind == .permissionDenied

/-- `ElevationErrorKind`. -/
inductive ElevationErrorKind where
  | backendUnavailable
  | authFailed
  | authDeclined
  | noTty
  | unkillable
  | untracked
  | commandTooLong
  deriving DecidableEq, Repr

/-- `RecordErrorKind`. -/
inductive RecordErrorKind where
  | unknownVersion
  | foreignPlatform
  | invalidPid
  | foreignBootSession
  | missingBootSession
  | foreignPidNamespace
  | missingPidNamespace
  | scopeUnreadable
  deriving DecidableEq, Repr

/-- `Error`. -/
inductive Error where
  | quote (e : QuoteError)
  | io (e : IoError)
  | unsupported (op platform detail : String)
  | containment (detail : String)
  | noConsole (detail : String)
  | elevation (kind : ElevationErrorKind) (detail : String)
  | unassessable (detail : String) (source : Option IoError)
  | identityRecord (kind : RecordErrorKind) (detail : String)
      (source : Option IoError)
  deriving DecidableEq, Repr

/-! ## Messages -/

/-- The `Display` of a `QuoteErrorKind`. -/
def QuoteErrorKind.display : QuoteErrorKind → String
  | .unterminatedSingleQuote => "unterminated single quote"
  | .unterminatedDoubleQuote => "unterminated double quote"
  | .trailingBackslash => "trailing backslash"
  | .nonUtf8 => "not valid UTF-8"
  | .unrepresentableChar => "character cannot be represented in this grammar"

/-- The `Display` of an `ElevationErrorKind`. -/
def ElevationErrorKind.display : ElevationErrorKind → String
  | .backendUnavailable => "no usable elevation backend is available"
  | .authFailed => "elevation authentication failed"
  | .authDeclined => "elevation prompt was declined"
  | .noTty => "no controlling terminal for interactive elevation"
  | .unkillable =>
      "could not terminate an elevated child: permission denied"
  | .untracked => "elevated child launched but could not be tracked"
  | .commandTooLong => "the elevation command is too long for this host"

/-- The `Display` of a `RecordErrorKind`. -/
def RecordErrorKind.display : RecordErrorKind → String
  | .unknownVersion => "unknown record format version"
  | .foreignPlatform => "the record was written on a different platform"
  | .invalidPid => "the record's pid cannot name a single process"
  | .foreignBootSession => "the record was written in a different boot session"
  | .missingBootSession => "the record carries no boot session identifier"
  | .foreignPidNamespace =>
      "the record was written in a different pid namespace"
  | .missingPidNamespace => "the record carries no pid namespace identifier"
  | .scopeUnreadable => "this host's boot session could not be read"

/-- The `Display` of an `Error`; `io` is the one of the operating system's
errors. -/
def Error.display (io : IoError → String) : Error → String
  | .quote e =>
      "argument parsing failed: " ++ e.kind.display ++ " at offset " ++
        toString e.pos
  | .io e => io e
  | .unsupported op platform detail =>
      op ++ " is not supported on " ++ platform ++ ": " ++ detail
  | .containment detail => "process containment failed: " ++ detail
  | .noConsole detail =>
      "no attached console for the graceful console-group signal: " ++ detail
  | .elevation kind detail =>
      "elevation failed (" ++ kind.display ++ "): " ++ detail
  | .unassessable detail _ =>
      "could not determine the target process's state: " ++ detail
  | .identityRecord kind detail _ =>
      "persisted process identity is not usable here (" ++ kind.display ++
        "): " ++ detail

/-! ## Classification -/

/-- `is_teardown_mechanism_failure`. -/
def Error.isTeardownMechanismFailure : Error → Bool
  | .io _ | .unsupported .. => true
  | .unassessable _ source => source.isSome
  | _ => false

/-- Why a persisted identity was refused. -/
def Error.recordKind : Error → Option RecordErrorKind
  | .identityRecord kind .. => some kind
  | _ => none

/-- The error is an `Error::Unsupported`. -/
def Error.isUnsupported : Error → Bool
  | .unsupported .. => true
  | _ => false

/-! ## Results that are not errors -/

section

variable {ε α β : Type}

/-- A sequence succeeds only if both of its parts do. -/
theorem bind_eq_ok {x : Except ε α} {f : α → Except ε β} {b : β}
    (h : (x >>= f) = .ok b) : ∃ a, x = .ok a ∧ f a = .ok b := by
  cases x with
  | error e => cases h
  | ok a => exact ⟨a, rfl, h⟩

theorem map_eq_ok {x : Except ε α} {f : α → β} {b : β}
    (h : x.map f = .ok b) : ∃ a, x = .ok a ∧ f a = b := by
  cases x with
  | error e => cases h
  | ok a => exact ⟨a, rfl, Except.ok.inj h⟩

theorem mapError_ok {δ : Type} (f : ε → δ) (a : α) :
    (Except.ok a : Except ε α).mapError f = .ok a := by
  rfl

/-- A pass over a list succeeds only if each of its steps does. -/
theorem forM_eq_ok {f : α → Except ε Unit} {xs : List α}
    (h : xs.forM f = .ok ()) : ∀ x ∈ xs, f x = .ok () := by
  induction xs with
  | nil => exact nofun
  | cons x xs ih =>
      obtain ⟨u, hfirst, hrest⟩ := bind_eq_ok h
      exact List.forall_mem_cons.mpr ⟨hfirst, ih hrest⟩

end

end Cosca.Ports.Errors
