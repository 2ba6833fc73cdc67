import Cosca.Ports.IdentityRecord

/-!
# Records on the wire

The `serde` side of `identity/persist.rs`: a record is a map of named values.
The platform is a bare tag, the token decimal text, and an absent option an
absent key.  The container keeps the entries as they are.

## Main results

* `decode_encode`: what a record reads back as.
* `decode_encode_eq_iff`: which records come back whole.
* `verdict_kept_iff`: which records keep their verdict.
-/

namespace Cosca.Ports.RecordWire

open Cosca.Ports.Errors
open Cosca.Ports.Identity
open Cosca.Ports.IdentityRecord
open Cosca.Verified.Text

/-! ## The format -/

/-- A value of the container format. -/
inductive Wire where
  | str (text : String)
  | num (n : UInt64)
  | null
  deriving DecidableEq, Repr

/-- Why a record is not decoded. -/
inductive DecodeError where
  | duplicateField (name : String)
  | missingField (name : String)
  | invalidType (name : String)
  | invalidValue (name : String)
  deriving DecidableEq, Repr

/-- `token_str::serialize`. -/
def serializeToken (token : UInt64) : String :=
  String.ofList (decimal token.toNat)

/-- An entry the writer leaves out when it is absent. -/
def optionEntry {α : Type} (name : String) (wire : α → Wire)
    (value : Option α) : List (String × Wire) :=
  (value.map fun a => (name, wire a)).toList

/-- The derived `Serialize`. -/
def encode (r : ProcessIdRecord) : List (String × Wire) :=
  [("v", .num r.version.toUInt64), ("platform", .str r.platform.asStr),
    ("pid", .num r.pid.toUInt64), ("token", .str (serializeToken r.token))] ++
    optionEntry "boot_id" .str r.bootId ++ optionEntry "pid_ns" .num r.pidNs

/-! ## Reading one value -/

def asString (name : String) : Wire → Except DecodeError String
  | .str text => .ok text
  | _ => .error (.invalidType name)

def asU32 (name : String) : Wire → Except DecodeError UInt32
  | .num n =>
      if n.toNat < 2 ^ 32 then .ok n.toUInt32 else .error (.invalidValue name)
  | _ => .error (.invalidType name)

def asU64 (name : String) : Wire → Except DecodeError UInt64
  | .num n => .ok n
  | _ => .error (.invalidType name)

/-- `token_str::deserialize`. -/
def asToken (name : String) (wire : Wire) : Except DecodeError UInt64 := do
  let text ← asString name wire
  match parseU64 text.toList with
  | some token => return token
  | none => throw (.invalidValue name)

def asOption {α : Type} (read : Wire → Except DecodeError α) :
    Wire → Except DecodeError (Option α)
  | .null => .ok none
  | wire => (read wire).map some

/-! ## Reading a record -/

/-- The fields the derived visitor has seen. -/
structure Seen where
  version : Option UInt32
  platform : Option Platform
  pid : Option UInt32
  token : Option UInt64
  bootId : Option (Option String)
  pidNs : Option (Option UInt64)

/-- A field the visitor has not seen yet. -/
def once {α : Type} (name : String) (seen : Option α)
    (value : Except DecodeError α) : Except DecodeError (Option α) :=
  match seen with
  | some _ => .error (.duplicateField name)
  | none => value.map some

/-- One entry: an unknown key is ignored. -/
def visitEntry (seen : Seen) (entry : String × Wire) :
    Except DecodeError Seen :=
  let (name, wire) := entry
  if name = "v" then do
    return { seen with version := ← once name seen.version (asU32 name wire) }
  else if name = "platform" then do
    let platform := (asString name wire).map Platform.fromWire
    return { seen with platform := ← once name seen.platform platform }
  else if name = "pid" then do
    return { seen with pid := ← once name seen.pid (asU32 name wire) }
  else if name = "token" then do
    return { seen with token := ← once name seen.token (asToken name wire) }
  else if name = "boot_id" then do
    let bootId := asOption (asString name) wire
    return { seen with bootId := ← once name seen.bootId bootId }
  else if name = "pid_ns" then do
    let pidNs := asOption (asU64 name) wire
    return { seen with pidNs := ← once name seen.pidNs pidNs }
  else return seen

/-- A field that has no default. -/
def required {α : Type} (name : String) (seen : Option α) :
    Except DecodeError α :=
  seen.elim (.error (.missingField name)) .ok

/-- The derived `Deserialize`. -/
def decode (entries : List (String × Wire)) :
    Except DecodeError ProcessIdRecord := do
  let seen ← entries.foldlM visitEntry ⟨none, none, none, none, none, none⟩
  return {
    version := ← required "v" seen.version
    platform := ← required "platform" seen.platform
    pid := ← required "pid" seen.pid
    token := ← required "token" seen.token
    bootId := seen.bootId.getD none
    pidNs := seen.pidNs.getD none }

/-! ## What comes back -/

theorem asU32_toUInt64 (name : String) (n : UInt32) :
    asU32 name (.num n.toUInt64) = .ok n := by
  have hlt : n.toUInt64.toNat < 2 ^ 32 := by
    rw [UInt32.toNat_toUInt64]
    exact n.toNat_lt
  rw [asU32, if_pos hlt, UInt32.toUInt32_toUInt64]

theorem asToken_serializeToken (name : String) (token : UInt64) :
    asToken name (.str (serializeToken token)) = .ok token := by
  have hparse : parseU64 (serializeToken token).toList = some token := by
    rw [serializeToken, String.toList_ofList,
      parseU64_decimal _ token.toNat_lt, UInt64.ofNat_toNat]
  show (match parseU64 (serializeToken token).toList with
    | some token => Except.ok token
    | none => Except.error (DecodeError.invalidValue name)) = .ok token
  rw [hparse]

theorem visit_required (r : ProcessIdRecord) :
    [("v", Wire.num r.version.toUInt64), ("platform", .str r.platform.asStr),
      ("pid", .num r.pid.toUInt64),
      ("token", .str (serializeToken r.token))].foldlM visitEntry
        ⟨none, none, none, none, none, none⟩ =
      .ok ⟨some r.version, some (Platform.fromWire r.platform.asStr),
        some r.pid, some r.token, none, none⟩ := by
  simp [visitEntry, once, asString, asU32_toUInt64, asToken_serializeToken,
    Except.map, bind, Except.bind, pure, Except.pure]

theorem visit_bootId (seen : Seen) (h : seen.bootId = none)
    (value : Option String) :
    (optionEntry "boot_id" Wire.str value).foldlM visitEntry seen =
      .ok { seen with bootId := value.map some } := by
  cases value with
  | none =>
      show Except.ok seen = .ok { seen with bootId := none }
      rw [← h]
  | some bootId =>
      simp [optionEntry, visitEntry, h, once, asOption, asString, Except.map,
        bind, Except.bind, pure, Except.pure]

theorem visit_pidNs (seen : Seen) (h : seen.pidNs = none)
    (value : Option UInt64) :
    (optionEntry "pid_ns" Wire.num value).foldlM visitEntry seen =
      .ok { seen with pidNs := value.map some } := by
  cases value with
  | none =>
      show Except.ok seen = .ok { seen with pidNs := none }
      rw [← h]
  | some pidNs =>
      simp [optionEntry, visitEntry, h, once, asOption, asU64, Except.map,
        bind, Except.bind, pure, Except.pure]

theorem getD_map_some {α : Type} (value : Option α) :
    (value.map some).getD none = value := by
  cases value <;> rfl

/-- A record reads back as it was, its platform read off the tag. -/
theorem decode_encode (r : ProcessIdRecord) :
    decode (encode r) =
      .ok { r with platform := Platform.fromWire r.platform.asStr } := by
  have hvisit : (encode r).foldlM visitEntry
      ⟨none, none, none, none, none, none⟩ =
        .ok ⟨some r.version, some (Platform.fromWire r.platform.asStr),
          some r.pid, some r.token, r.bootId.map some, r.pidNs.map some⟩ := by
    rw [encode, List.foldlM_append, List.foldlM_append, visit_required]
    simp only [bind, Except.bind]
    rw [visit_bootId _ rfl]
    simp only
    rw [visit_pidNs _ rfl]
  rw [decode, hvisit]
  simp only [bind, Except.bind, required, Option.elim, getD_map_some, pure,
    Except.pure]

/-! ## Tags -/

/-- A tag this build has a platform of its own for. -/
def knownTags : List String :=
  ["linux", "macos", "windows"]

theorem fromWire_asStr_iff (platform : Platform) :
    Platform.fromWire platform.asStr = platform ↔
      ∀ tag ∈ knownTags, platform ≠ .other tag := by
  cases platform with
  | linux => simp [Platform.fromWire, Platform.asStr]
  | macOs => simp [Platform.fromWire, Platform.asStr]
  | windows => simp [Platform.fromWire, Platform.asStr]
  | other tag =>
      by_cases hlinux : tag = "linux"
      · simp [Platform.fromWire, Platform.asStr, knownTags, hlinux]
      · by_cases hmac : tag = "macos"
        · simp [Platform.fromWire, Platform.asStr, knownTags, hmac]
        · by_cases hwindows : tag = "windows"
          · simp [Platform.fromWire, Platform.asStr, knownTags, hwindows]
          · simp [Platform.fromWire, Platform.asStr, knownTags, hlinux, hmac,
              hwindows]

theorem validate_unknownVersion {r : ProcessIdRecord}
    (h : r.version ≠ recordVersion) (here : Platform) (scope : Scope) :
    validate r here scope = .error .unknownVersion := by
  rw [validate, if_pos h]

/-- A host of the record's own platform never calls it foreign. -/
theorem validate_ne_foreignPlatform {r : ProcessIdRecord}
    (h : r.version = recordVersion) :
    validate r r.platform Scope.none ≠ .error .foreignPlatform := by
  rw [validate, if_neg (by simpa using h), if_neg (by simp)]
  by_cases hpid : pidIsAddressable r.pid r.platform = true
  · rw [if_neg (by simpa using hpid)]
    simp [Scope.none, checkField, bind, Except.bind, pure, Except.pure]
  · rw [if_pos (by simpa using hpid)]
    simp

/-- The verdicts alone survive also where the version decides them. -/
theorem verdict_kept_iff (r : ProcessIdRecord) :
    (∀ (here : Platform) (scope : Scope),
      validate { r with platform := Platform.fromWire r.platform.asStr } here
        scope = validate r here scope) ↔
      r.version ≠ recordVersion ∨
        ∀ tag ∈ knownTags, r.platform ≠ .other tag := by
  constructor
  · intro h
    by_cases hversion : r.version = recordVersion
    · refine Or.inr ((fromWire_asStr_iff r.platform).mp ?_)
      by_cases hkept : Platform.fromWire r.platform.asStr = r.platform
      · exact hkept
      · -- The host whose platform the tag names answers differently.
        have hforeign : validate r (Platform.fromWire r.platform.asStr)
            Scope.none = .error .foreignPlatform := by
          rw [validate, if_neg (by simpa using hversion),
            if_pos (Ne.symm hkept)]
        have hback := h (Platform.fromWire r.platform.asStr) Scope.none
        rw [hforeign] at hback
        exact absurd hback (validate_ne_foreignPlatform
          (r := { r with platform := _ }) hversion)
    · exact Or.inl hversion
  · rintro (hversion | hplatform) here scope
    · rw [validate_unknownVersion hversion, validate_unknownVersion]
      exact hversion
    · rw [(fromWire_asStr_iff r.platform).mpr hplatform]

/-- Writing a record and reading it back keeps it, and its verdict on every
host, exactly when its platform is not `Other` of a tag this build knows. -/
theorem decode_encode_eq_iff (r : ProcessIdRecord) :
    (decode (encode r) = .ok r ∧
      ∀ (here : Platform) (scope : Scope),
        (decode (encode r)).map (fun back => validate back here scope) =
          .ok (validate r here scope)) ↔
      ∀ tag ∈ ["linux", "macos", "windows"], r.platform ≠ .other tag := by
  rw [decode_encode]
  constructor
  · intro h
    have hplatform := congrArg ProcessIdRecord.platform (Except.ok.inj h.1)
    exact (fromWire_asStr_iff r.platform).mp hplatform
  · intro h
    have hplatform := (fromWire_asStr_iff r.platform).mpr h
    rw [hplatform]
    exact ⟨rfl, fun _ _ => rfl⟩

/-- A record of pid 42 whose platform is `Other("linux")`: a Linux host
refuses it, but takes what it reads back. -/
theorem decode_encode_other_linux :
    validate ⟨1, .other "linux", 42, 7, none, none⟩ .linux Scope.none =
        .error .foreignPlatform ∧
      decode (encode ⟨1, .other "linux", 42, 7, none, none⟩) =
        .ok ⟨1, .linux, 42, 7, none, none⟩ ∧
      validate ⟨1, .linux, 42, 7, none, none⟩ .linux Scope.none =
        .ok (42, 7) :=
  ⟨rfl, decode_encode _, rfl⟩

end Cosca.Ports.RecordWire
