import Cosca.Ports.ChildRelease
import Cosca.Ports.IdentityRecord
import Cosca.Verified.Block
import Cosca.Verified.Utf16

/-!
# The environment of a spawned child

`apply_env` and the root marker of `prepare` on the std path, where a
`std::process::Command` keeps the operations in its `CommandEnv`, and
`build_env_block` with the marker of `spawn_raw` on the raw Windows path.
A process holds its environment as `name=value` strings, and the child reads
back what its parent wrote.

The creation flags and the group of a contained child are left out: none of
them touches the environment.
-/

namespace Cosca.Ports.SpawnEnv

open Cosca.Ports.CommandRecord
open Cosca.Ports.Errors
open Cosca.Ports.ChildRelease (Containment)
open Cosca.Ports.IdentityRecord (Platform)
open Cosca.Verified.Block

/-! ## Systems -/

/-- How a system writes and compares the names of an environment. -/
structure System (U : Type) where
  platform : Platform
  /-- The units of `=` and of NUL. -/
  eq : U
  nul : U
  /-- What the system, and std with it, compares of a name. -/
  fold : List U → List U
  /-- `fold_key` of the raw path. -/
  foldKey : List U → List U
  /-- `NESTED_ENV`, and its value `1`. -/
  nestedEnv : List U
  one : List U
  eq_ne_nul : eq ≠ nul
  isName_nestedEnv : IsName eq nestedEnv
  nul_notMem_nestedEnv : nul ∉ nestedEnv
  nul_notMem_one : nul ∉ one

/-- `NESTED_ENV`. -/
def nestedEnvText : List Char := "__COSCA_GROUP_ROOT".toList

/-- A Unix system: names are compared byte by byte. -/
def System.unix (platform : Platform) : System UInt8 where
  platform := platform
  eq := 61
  nul := 0
  fold := id
  foldKey := id
  nestedEnv := nestedEnvText.map fun c => c.toNat.toUInt8
  one := [49]
  eq_ne_nul := by decide
  isName_nestedEnv := ⟨by decide, by decide⟩
  nul_notMem_nestedEnv := by decide
  nul_notMem_one := by decide

section

open Cosca.Verified.Utf16

/-- `char::encode_utf16`. -/
def encodeUtf16 (c : Char) : List UInt16 :=
  if c.toNat < 0x10000 then [c.toNat.toUInt16]
  else [(0xD800 + (c.toNat - 0x10000) / 0x400).toUInt16,
    (0xDC00 + (c.toNat - 0x10000) % 0x400).toUInt16]

/-- `fold_key`, over `char::to_uppercase`. -/
def foldKey (toUppercase : Char → List Char) : List UInt16 → List UInt16
  | [] => []
  | [u] =>
      if isHigh u || isLow u then [u]
      else (toUppercase (unitChar u)).flatMap encodeUtf16
  | u :: v :: rest =>
      if isHigh u then
        if isLow v then
          (toUppercase (pairChar u v)).flatMap encodeUtf16 ++
            foldKey toUppercase rest
        else u :: foldKey toUppercase (v :: rest)
      else if isLow u then u :: foldKey toUppercase (v :: rest)
      else (toUppercase (unitChar u)).flatMap encodeUtf16 ++
        foldKey toUppercase (v :: rest)

end

/-- A Windows system: `upcase` is the case table of its ordinal comparison. -/
def System.windows (upcase : UInt16 → UInt16)
    (toUppercase : Char → List Char) : System UInt16 where
  platform := .windows
  eq := 61
  nul := 0
  fold := List.map upcase
  foldKey := SpawnEnv.foldKey toUppercase
  nestedEnv := nestedEnvText.map fun c => c.toNat.toUInt16
  one := [49]
  eq_ne_nul := by decide
  isName_nestedEnv := ⟨by decide, by decide⟩
  nul_notMem_nestedEnv := by decide
  nul_notMem_one := by decide

/-! ## A process's environment -/

/-- The strings a process holds. -/
abbrev Environ (U : Type) := List (List U)

/-- A variable: its name and its value. -/
abbrev Var (U : Type) := List U × List U

section

variable {U : Type} [DecidableEq U] [Ord U] (sys : System U)

/-- `env::vars_os`. -/
def varsOs (env : Environ U) : List (Var U) :=
  env.filterMap (cut sys.eq)

/-- `env::var_os` finds the variable. -/
def hasVar (env : Environ U) (name : List U) : Bool :=
  (varsOs sys env).any fun (k, _) => sys.fold k == sys.fold name

/-- The strings of a child's environment. -/
def envStrings (vars : List (Var U)) : Environ U :=
  vars.map fun (k, v) => join sys.eq k v

/-- The removal of a key from a map. -/
def removeEntry {K V : Type} [DecidableEq K] (key : K) (map : List (K × V)) :
    List (K × V) :=
  map.filter fun (k, _) => k ≠ key

/-! ## The std path -/

/-- std's `CommandEnv`: a folded name with the name as it was given, and its
value, `none` for a variable to be removed. -/
structure CommandEnv (U : Type) where
  clear : Bool
  vars : List (List U × (List U × Option (List U)))

def CommandEnv.default : CommandEnv U where
  clear := false
  vars := []

/-- `Command::env`, `Command::env_remove` and `Command::env_clear` of std.  Of
two spellings of one name std's map keeps the first, and this one the last; the
child, like everybody here, compares them folded. -/
def CommandEnv.apply (c : CommandEnv U) : EnvOp (List U) → CommandEnv U
  | .set key value =>
      { c with vars := insertEntry (sys.fold key) (key, some value) c.vars }
  | .remove key =>
      if c.clear then { c with vars := removeEntry (sys.fold key) c.vars }
      else { c with vars := insertEntry (sys.fold key) (key, none) c.vars }
  | .clear => { clear := true, vars := [] }

/-- `apply_env`. -/
def applyEnv (c : CommandEnv U) (ops : List (EnvOp (List U))) : CommandEnv U :=
  ops.foldl (fun c op => c.apply sys op) c

/-- std's `CommandEnv::is_unchanged`. -/
def CommandEnv.isUnchanged (c : CommandEnv U) : Bool :=
  !c.clear && c.vars.isEmpty

/-- What std's `CommandEnv::capture` does with one recorded variable. -/
def captureVar (map : List (List U × Var U))
    (var : List U × (List U × Option (List U))) : List (List U × Var U) :=
  match var with
  | (folded, key, some value) => insertEntry folded (key, value) map
  | (folded, _, none) => removeEntry folded map

/-- A map of variables, each under its key. -/
def varMap (key : List U → List U) (vars : List (Var U)) :
    List (List U × Var U) :=
  vars.foldl (fun map (k, v) => insertEntry (key k) (k, v) map) []

/-- A map of the variables of a process. -/
def baseMap (key : List U → List U) (env : Environ U) :
    List (List U × Var U) :=
  varMap key (varsOs sys env)

/-- std's `CommandEnv::capture`. -/
def CommandEnv.capture (c : CommandEnv U) (env : Environ U) : List (Var U) :=
  (c.vars.foldl captureVar
    (if c.clear then [] else baseMap sys sys.fold env)).map fun (_, var) => var

/-- The strings std hands to the system, of which none may hold a NUL. -/
def CommandEnv.environ (c : CommandEnv U) (env : Environ U) :
    Except Error (Environ U) :=
  if c.isUnchanged then .ok env
  else if (c.capture sys env).any fun (k, v) =>
      k.contains sys.nul || v.contains sys.nul then
    .error (.io (.custom .invalidInput "nul byte found in provided data"))
  else .ok (envStrings sys (c.capture sys env))

/-! ## The raw Windows path -/

/-- `ensure_no_nul_wide`. -/
def ensureNoNulWide (s : List U) : Except Error Unit :=
  if s.contains sys.nul then
    .error (.io (.custom .invalidInput
      "environment key or value contains an embedded NUL"))
  else .ok ()

/-- What `build_env_block_from` does with one operation. -/
def applyOp (map : List (List U × Var U)) :
    EnvOp (List U) → List (List U × Var U)
  | .set key value => insertEntry (sys.foldKey key) (key, value) map
  | .remove key => removeEntry (sys.foldKey key) map
  | .clear => []

/-- The strings of a block, with their terminators. -/
def blockStrings : List (Var U) → Except Error (List U)
  | [] => .ok []
  | (key, value) :: rest => do
      ensureNoNulWide sys key
      ensureNoNulWide sys value
      let block ← blockStrings rest
      return join sys.eq key value ++ sys.nul :: block

/-- `build_env_block_from`; `none` lets the child inherit. -/
def buildEnvBlockFrom (base : List (Var U)) (ops : List (EnvOp (List U))) :
    Except Error (Option (List U)) :=
  if ops.isEmpty then .ok none
  else do
    let vars := (ops.foldl (applyOp sys)
      (varMap sys.foldKey base)).map fun (_, var) => var
    let block ← blockStrings sys vars
    return some ((if vars.isEmpty then [sys.nul] else []) ++ block ++ [sys.nul])

/-- `build_env_block`, over the environment of the process. -/
def buildEnvBlock (env : Environ U) (ops : List (EnvOp (List U))) :
    Except Error (Option (List U)) :=
  buildEnvBlockFrom sys (varsOs sys env) ops

/-- The environment that `CreateProcessW` gives the child. -/
def blockEnviron (env : Environ U) : Option (List U) → Environ U
  | none => env
  | some block => strings sys.nul block

/-! ## Containment -/

/-- `is_nested`. -/
def isNested (markerPresent : Bool) : Bool := markerPresent

/-- The environment part of `prepare`: whether this is the root, and the
environment with the root's marker. -/
def prepare (req : ContainRequest) (env : Environ U) (c : CommandEnv U) :
    Bool × CommandEnv U :=
  let isRoot := !isNested (hasVar sys env sys.nestedEnv)
  if req.mode.isNone then (false, c)
  else if isRoot && req.nesting == .mark then
    (isRoot, c.apply sys (.set sys.nestedEnv sys.one))
  else (isRoot, c)

/-- `marker_env` of `windows_contain_setup`. -/
def markerEnv (req : ContainRequest) (isRoot : Bool) : Bool :=
  match req.mode with
  | none => false
  | some _ => isRoot && req.nesting == .mark

/-- The mechanism of a root; `granted` says whether the system gave it its
leaf, marker or job. -/
def rootContainment (platform : Platform) (granted : Bool) :
    ContainMode → Containment
  | mode =>
      match platform with
      | .linux =>
          match mode with
          | .treeWalk => .treeWalk
          | .session => .session
          | .strongest => if granted then .cgroupV2 else .processGroup
      | .windows =>
          match mode with
          | .treeWalk => .treeWalk
          | _ => if granted then .jobObject else .treeWalk
      | .macOs | .other _ =>
          if granted then .fdMarker
          else
            match mode with
            | .treeWalk => .treeWalk
            | .session => .session
            | .strongest => .processGroup

/-- `attach_tree`. -/
def attachTree (granted : Bool) (mode : Option ContainMode) (isRoot : Bool) :
    Containment :=
  match mode with
  | none => .none
  | some mode =>
      if isRoot then rootContainment sys.platform granted mode else .delegated

/-! ## Spawns -/

/-- A spawn of a process: by std or by the raw Windows backend. -/
structure Link (U : Type) where
  raw : Bool
  contain : ContainRequest
  envOps : List (EnvOp (List U))
  granted : Bool

/-- A process that was spawned. -/
structure Spawned (U : Type) where
  containment : Containment
  environ : Environ U

/-- A spawn on the std path. -/
def Link.spawnStd (link : Link U) (env : Environ U) :
    Except Error (Spawned U) := do
  let c := applyEnv sys CommandEnv.default link.envOps
  let (isRoot, c) := prepare sys link.contain env c
  let environ ← c.environ sys env
  return {
    containment := attachTree sys link.granted link.contain.mode isRoot
    environ }

/-- A spawn on the raw path, `spawn_raw`. -/
def Link.spawnRaw (link : Link U) (env : Environ U) :
    Except Error (Spawned U) := do
  let isRoot := !isNested (hasVar sys env sys.nestedEnv)
  let block ← buildEnvBlock sys env
    (if markerEnv link.contain isRoot then
      link.envOps ++ [.set sys.nestedEnv sys.one]
    else link.envOps)
  return {
    containment := attachTree sys link.granted link.contain.mode isRoot
    environ := blockEnviron sys env block }

/-- The spawn of a link. -/
def Link.spawn (link : Link U) (env : Environ U) : Except Error (Spawned U) :=
  if link.raw then link.spawnRaw sys env else link.spawnStd sys env

/-- A chain of spawns, each made by the process before it. -/
def spawnChain : Environ U → List (Link U) → Except Error (List (Spawned U))
  | _, [] => .ok []
  | env, link :: rest => do
      let spawned ← link.spawn sys env
      let below ← spawnChain spawned.environ rest
      return spawned :: below

end

end Cosca.Ports.SpawnEnv
