import Cosca.Ports.CommandRecord

/-!
# The descriptors of a child

`resolve_stdio` of `child/spawn.rs`, which both spawns share, and the two
spawns around it as far as they decide what a child finds under its
descriptors: `spawn_unelevated`, and the merge pre-pass, the deferred core and
the slot assignment of `tokio/spawn.rs`, on Unix.

The calls to the system succeed.  An object that is opened for a slot is named
after that slot: no slot opens more than one, and a duplicate is the same open
object again.
-/

namespace Cosca.Ports.StdioEnds

open Cosca.Ports.CommandRecord
open Cosca.Ports.Errors

/-! ## Redirection targets -/

/-- The `Display` of an `Fd`. -/
def Fd.display (fd : Fd) : String :=
  if fd.raw = 0 then "stdin"
  else if fd.raw = 1 then "stdout"
  else if fd.raw = 2 then "stderr"
  else "fd " ++ toString fd.raw.toInt

/-- `StdioKind`. -/
inductive Stdio where
  | inherit
  | null
  | pipe (dir : Option Direction)
  | file (handle : Nat)
  | merge (target : Fd)
  deriving DecidableEq, Repr

/-- `Stdio::resolve`; `os` is `std::env::consts::OS`. -/
def Stdio.resolve (os : String) (slot : Fd) : Stdio → Except Error ResolvedStdio
  | .inherit => .ok .inherit
  | .null => .ok .null
  | .file handle => .ok (.file handle)
  | .merge target => .ok (.merge target)
  | .pipe (some dir) => .ok (.pipe dir)
  | .pipe none =>
      if slot = Fd.stdin then .ok (.pipe .input)
      else if slot = Fd.stdout ∨ slot = Fd.stderr then .ok (.pipe .output)
      else .error (.unsupported
        ("ambiguous pipe direction on " ++ Fd.display slot) os
        "use Stdio::pipe_in()/pipe_out() for descriptors >= 3")

/-- The descriptor table of a command as `Command::fd` builds it: each
descriptor once, and none negative. -/
structure StdioMap where
  table : FdTable
  nodup : (table.map fun (slot, _) => slot).Nodup
  nonneg : ∀ slot ∈ table.map fun (slot, _) => slot, 0 ≤ slot.raw

/-! ## Ends -/

/-- `ChildEnd`, an owned descriptor, by the open object behind it.  A child
reads from a pipe of direction `input`. -/
inductive ChildEnd where
  | inherited (slot : Fd)
  | null (opened : Fd)
  | file (handle : Nat)
  | pipe (dir : Direction) (opened : Fd)
  deriving DecidableEq, Repr

/-- `ParentEnd`, by the pipe it belongs to. -/
inductive ParentEnd where
  | writer (opened : Fd)
  | reader (opened : Fd)
  deriving DecidableEq, Repr

/-- The parent's end of a pipe. -/
def parentEnd (opened : Fd) : Direction → ParentEnd
  | .input => .writer opened
  | .output => .reader opened

/-- A `BTreeMap` over descriptors, by what it holds under each. -/
abbrev SlotMap (V : Type) := Fd → Option V

/-- `BTreeMap::insert`. -/
def SlotMap.insert {V : Type} (map : SlotMap V) (slot : Fd) (value : V) :
    SlotMap V :=
  fun s => if s = slot then some value else map s

/-- `ResolvedStdioEnds`. -/
structure Ends where
  child : SlotMap ChildEnd
  parent : SlotMap ParentEnd

def Ends.empty : Ends where
  child := fun _ => none
  parent := fun _ => none

/-- `PipeOwnership`. -/
inductive PipeOwnership where
  | owned
  | deferred
  deriving DecidableEq, Repr

/-- A spawn that returns an error or panics. -/
inductive Failure where
  | error (e : Error)
  | panic (message : String)
  deriving DecidableEq, Repr

/-! ## The shared core -/

section

variable (os : String)

/-- `inherit_end`, on Unix. -/
def inheritEnd (slot : Fd) : Except Failure ChildEnd :=
  if slot = Fd.stdin ∨ slot = Fd.stdout ∨ slot = Fd.stderr then
    .ok (.inherited slot)
  else .error (.error (.unsupported
    ("Stdio::inherit() on " ++ Fd.display slot) "unix"
    ("inherit on fd >= 3 has no defined parent stream; " ++
      "use pipe/file/null instead")))

/-- `make_pipe`, for a slot. -/
def makePipe (slot : Fd) (dir : Direction) : ChildEnd × Option ParentEnd :=
  (.pipe dir slot, some (parentEnd slot dir))

/-- `dup`. -/
def dup (e : ChildEnd) : ChildEnd := e

/-- `resolve_non_merge`. -/
def resolveNonMerge (slot : Fd) :
    Option ResolvedStdio → Except Failure (ChildEnd × Option ParentEnd)
  | none | some .inherit => (inheritEnd slot).map fun e => (e, none)
  | some .null => .ok (.null slot, none)
  | some (.file handle) => .ok (.file handle, none)
  | some (.pipe dir) => .ok (makePipe slot dir)
  | some (.merge _) => .error (.panic
      "internal error: entered unreachable code: merge handled in second pass")

/-- `matches!(_, Some(ResolvedStdio::Merge(_)))`. -/
def isMerge : Option ResolvedStdio → Bool
  | some (.merge _) => true
  | _ => false

/-- `matches!(_, Some(ResolvedStdio::Pipe(_)))`. -/
def isPipe : Option ResolvedStdio → Bool
  | some (.pipe _) => true
  | _ => false

/-- The rejection of a chained merge in `resolve_stdio`. -/
def checkSlot (fds : FdTable) (slot : Fd) : Except Failure Unit :=
  match fds.get? slot with
  | some (.merge target) =>
      if isMerge (fds.get? target) then .error (.error (.unsupported
        ("merge " ++ Fd.display slot ++ " -> " ++ Fd.display target ++
          " -> <another merge>") os
        ("chained merges (merge-to-merge) are not supported; " ++
          "redirect to a concrete slot (pipe/file/null/inherit)")))
      else .ok ()
  | _ => .ok ()

/-- One slot of the first pass of `resolve_stdio`. -/
def resolveSlot (fds : FdTable) (ownership : PipeOwnership) (ends : Ends)
    (slot : Fd) : Except Failure Ends :=
  let resolve : Except Failure Ends := do
    let (childEnd, parent) ← resolveNonMerge slot (fds.get? slot)
    return {
      child := ends.child.insert slot childEnd
      parent :=
        match parent with
        | some p => ends.parent.insert slot p
        | none => ends.parent }
  match fds.get? slot with
  | some (.merge _) => .ok ends
  | some (.pipe _) =>
      if ownership = .deferred ∧ slot.raw < 3 then .ok ends else resolve
  | none => if 3 ≤ slot.raw then .ok ends else resolve
  | _ => resolve

/-- One slot of its second pass. -/
def mergeSlot (fds : FdTable) (ownership : PipeOwnership) (ends : Ends)
    (slot : Fd) : Except Failure Ends :=
  match fds.get? slot with
  | some (.merge target) =>
      if ownership = .deferred ∧ target.raw < 3 ∧ isPipe (fds.get? target) then
        .error (.error (.unsupported
          ("async merge " ++ Fd.display slot ++ " -> " ++ Fd.display target ++
            " (piped)") os
          ("merging into a piped target with a deferred (tokio-owned) pipe " ++
            "end needs the merge target resolved first; merge into " ++
            "file/null/inherit, or capture separately")))
      else
        match ends.child target with
        | none => .error (.error (.unsupported
            ("merge " ++ Fd.display slot ++ " -> " ++ Fd.display target) os
            "merge target descriptor is not configured"))
        | some src => .ok { ends with child := ends.child.insert slot (dup src) }
  | _ => .ok ends

/-- `resolve_stdio`. -/
def resolveStdio (fds : FdTable) (slots : List Fd)
    (ownership : PipeOwnership) : Except Failure Ends := do
  slots.forM (checkSlot os fds)
  let ends ← slots.foldlM (resolveSlot fds ownership) Ends.empty
  slots.foldlM (mergeSlot os fds ownership) ends

/-! ## The sync spawn -/

/-- `std_slots`. -/
def stdSlots : List Fd := [Fd.stdin, Fd.stdout, Fd.stderr]

/-- The configured descriptors from 3 on. -/
def highSlots (fds : FdTable) : List Fd :=
  (fds.map fun (slot, _) => slot).filter fun slot => 3 ≤ slot.raw

/-- What `spawn_unelevated` puts under the child's descriptors and keeps for
the parent.  A std slot without an end would be inherited. -/
def syncStdio (fds : StdioMap) : Except Failure Ends := do
  let ends ← resolveStdio os fds.table (stdSlots ++ highSlots fds.table) .owned
  return { ends with
    child := fun slot =>
      if slot ∈ stdSlots then some ((ends.child slot).getD (.inherited slot))
      else ends.child slot }

/-! ## The async spawn -/

/-- The state of the merge pre-pass: the table that is left, the std slots it
assigned, the ends of the other merging slots, and the parent ends. -/
structure PrePass where
  fds : FdTable
  preassigned : SlotMap ChildEnd
  mergeFdEnds : SlotMap ChildEnd
  ownedStd : SlotMap ParentEnd

/-- `BTreeMap::remove` of a table. -/
def removeFd (fds : FdTable) (slot : Fd) : FdTable :=
  fds.filter fun (s, _) => s ≠ slot

/-- `chained`. -/
def isChained (fds : FdTable) : Bool :=
  fds.any fun (_, r) =>
    match r with
    | .merge target => isMerge (fds.get? target)
    | _ => false

/-- A piped std slot that the target of a merge names. -/
def pipedStdTarget (fds : FdTable) : ResolvedStdio → Option Fd
  | .merge target =>
      if target.raw < 3 ∧ isPipe (fds.get? target) then some target else none
  | _ => none

/-- `targets`, a `BTreeSet`: the targeted piped std slots in their order.  A
configured slot is not negative. -/
def mergeTargets (fds : FdTable) : List Fd :=
  stdSlots.filter fun slot =>
    fds.any fun (_, r) => pipedStdTarget fds r == some slot

/-- `mergers` of a target. -/
def mergers (fds : FdTable) (target : Fd) : List Fd :=
  (fds.filter fun (_, r) => r == .merge target).map fun (slot, _) => slot

/-- The pre-pass assigns a merging slot. -/
def assignMerger (childEnd : ChildEnd) (state : PrePass) (slot : Fd) :
    PrePass :=
  let state := { state with fds := removeFd state.fds slot }
  if slot.raw < 3 then
    { state with preassigned := state.preassigned.insert slot (dup childEnd) }
  else
    { state with mergeFdEnds := state.mergeFdEnds.insert slot (dup childEnd) }

/-- The pre-pass for one target. -/
def assignTarget (state : PrePass) (target : Fd) : Except Failure PrePass :=
  match state.fds.get? target with
  | some (.pipe dir) =>
      let childEnd := ChildEnd.pipe dir target
      let state := (mergers state.fds target).foldl (assignMerger childEnd) state
      .ok { state with
        fds := removeFd state.fds target
        preassigned := state.preassigned.insert target childEnd
        ownedStd := state.ownedStd.insert target (parentEnd target dir) }
  | _ => .error (.panic ("internal error: entered unreachable code: " ++
      "targets were filtered to piped slots"))

/-- The merge pre-pass. -/
def prePass (fds : FdTable) : Except Failure PrePass :=
  let state : PrePass :=
    { fds
      preassigned := fun _ => none
      mergeFdEnds := fun _ => none
      ownedStd := fun _ => none }
  if isChained fds then .ok state
  else (mergeTargets fds).foldlM assignTarget state

/-- The direction of tokio's `Stdio::piped()` on a std slot. -/
def pipedDirection (slot : Fd) : Direction :=
  if slot = Fd.stdin then .input else .output

/-- What the async spawn gives a std slot. -/
def assignStd (state : PrePass) (ends : Ends) (slot : Fd) :
    Except Failure ChildEnd :=
  match state.preassigned slot with
  | some pre => .ok pre
  | none =>
      match state.fds.get? slot with
      | some (.pipe _) => .ok (.pipe (pipedDirection slot) slot)
      | _ =>
          match ends.child slot with
          | some childEnd => .ok childEnd
          | none => .error (.panic ("internal error: entered unreachable " ++
              "code: a configured non-pipe slot must have a resolved child " ++
              "end"))

/-- The parent's end of a std slot: of the pre-pass, or tokio's. -/
def stdParentEnd (state : PrePass) (slot : Fd) : Option ParentEnd :=
  match state.ownedStd slot with
  | some p => some p
  | none =>
      match state.preassigned slot, state.fds.get? slot with
      | none, some (.pipe _) => some (parentEnd slot (pipedDirection slot))
      | _, _ => none

/-- What the async spawn puts under the child's descriptors and keeps for the
parent. -/
def asyncStdio (fds : StdioMap) : Except Failure Ends := do
  let state ← prePass fds.table
  let slots := (stdSlots.filter fun slot => (state.preassigned slot).isNone) ++
    highSlots state.fds
  let ends ← resolveStdio os state.fds slots .deferred
  let stdin ← assignStd state ends Fd.stdin
  let stdout ← assignStd state ends Fd.stdout
  let stderr ← assignStd state ends Fd.stderr
  return {
    child := fun slot =>
      if slot = Fd.stdin then some stdin
      else if slot = Fd.stdout then some stdout
      else if slot = Fd.stderr then some stderr
      else
        match state.mergeFdEnds slot with
        | some childEnd => some childEnd
        | none => ends.child slot
    parent := fun slot =>
      if slot ∈ stdSlots then stdParentEnd state slot else ends.parent slot }

end

end Cosca.Ports.StdioEnds
