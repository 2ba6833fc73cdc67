import Mathlib.Data.List.Nodup
import Cosca.Ports.ForkedChild

/-!
# A forked child at its exec

The hooks of a spawn and the mapping of its descriptors, in the order in which
std runs them, from the table of the parent to the one at `exec`.

## Main results

* `Launch.reaches_exec` — no hook of a spawn undoes another: the child has the
  group its mode asks for, and exactly the descriptors it is to have, unless a
  step of std's own or of the mapping fails.
-/

namespace Cosca.Ports.ForkedChild

open Cosca.Ports.Errors
open Cosca.Verified.Descriptors

namespace Launch

/-! ### The stdio ends -/

/-- The table once std has placed the stdio ends. -/
def stdioTable (l : Launch) (t : Table File) : Table File :=
  ((t.dup2 l.stdin 0).dup2 l.stdout 1).dup2 l.stderr 2

theorem stdioTable_above {l : Launch} {t : Table File} {fd : Nat}
    (hfd : 3 ≤ fd) : l.stdioTable t fd = t fd := by
  have h0 : fd ≠ 0 := by omega
  have h1 : fd ≠ 1 := by omega
  have h2 : fd ≠ 2 := by omega
  simp only [stdioTable, Table.dup2, Table.put_ne _ _ h2, Table.put_ne _ _ h1,
    Table.put_ne _ _ h0]

/-- No source is one of the numbers that are placed. -/
theorem Ready.stdioTable {l : Launch} {t : Table File} (h : l.Ready t) :
    l.stdioTable t 0 = kept t l.stdin ∧ l.stdioTable t 1 = kept t l.stdout ∧
      l.stdioTable t 2 = kept t l.stderr := by
  have hstdout : l.stdout ≠ 0 := by have := h.stdout; omega
  have hstderr0 : l.stderr ≠ 0 := by have := h.stderr; omega
  have hstderr1 : l.stderr ≠ 1 := by have := h.stderr; omega
  refine ⟨rfl, ?_, ?_⟩
  · simp [Launch.stdioTable, Table.dup2, Table.put_ne _ _ hstdout, kept,
      Table.put_ne]
  · simp [Launch.stdioTable, Table.dup2, Table.put_ne _ _ hstderr0,
      Table.put_ne _ _ hstderr1, kept]

/-! ### The hooks -/

/-- The table once the containment's hooks have run. -/
def resourceTable (l : Launch) (t : Table File) : Table File := fun fd =>
  if l.prepared.cgroupLeaf.any (·.procsFd == fd) then none
  else if l.prepared.marker.any (·.fd == fd) then kept t fd
  else t fd

/-- The leaf the child is in. -/
def childLeaf (l : Launch) (admits : Bool) (inherited : Option Nat) :
    Option Nat :=
  if admits then (l.prepared.cgroupLeaf.map (·.seq)).or inherited
  else inherited

theorem placeSelf_eq (admits : Bool) {fd leaf : Nat} {cloexec : Bool}
    {child : Forked} (h : child.table fd = some ⟨.procs leaf, cloexec⟩) :
    child.placeSelf admits fd =
      { child with
        leaf := if admits then some leaf else child.leaf
        table := child.table.close fd } := by
  cases admits <;> simp [Forked.placeSelf, Forked.writeZero, h]

/-- No spawn has both a leaf and a marker. -/
theorem leaf_or_marker (l : Launch) :
    l.prepared.cgroupLeaf = none ∨ l.prepared.marker = none := by
  obtain ⟨os, mode, isRoot, suppressed, _, _, _, _, leaf, marker⟩ := l
  cases os with
  | linux =>
      refine .inr ?_
      simp only [prepared, prepare, prepareLinux]
      repeat' split
      all_goals rfl
  | macos =>
      refine .inl ?_
      simp only [prepared, prepare, prepareMacos]
      repeat' split
      all_goals rfl

/-- What `prepare` keeps of a leaf and a marker that were prepared because they
were wanted. -/
theorem prepared_eq {l : Launch}
    (hleaf : ∀ leaf, l.leaf = some leaf →
      l.os = .linux ∧ leafWanted l.mode l.isRoot)
    (hmarker : ∀ m, l.marker = some m →
      l.os = .macos ∧ markerWanted l.mode l.isRoot l.suppressed) :
    l.prepared.cgroupLeaf = l.leaf ∧ l.prepared.marker = l.marker := by
  obtain ⟨os, mode, isRoot, suppressed, _, _, _, _, leaf, marker⟩ := l
  simp only at hleaf hmarker
  constructor
  · cases leaf with
    | none =>
        cases os <;> simp only [prepared, prepare, prepareLinux,
          prepareMacos] <;> (repeat' split) <;> rfl
    | some leaf =>
        obtain ⟨rfl, hwanted⟩ := hleaf leaf rfl
        cases mode with
        | none => exact absurd hwanted (by simp [leafWanted])
        | some mode =>
            cases isRoot <;> cases mode <;>
              first | rfl | exact absurd hwanted (by decide)
  · cases marker with
    | none =>
        cases os <;> simp only [prepared, prepare, prepareLinux,
          prepareMacos] <;> (repeat' split) <;> rfl
    | some m =>
        obtain ⟨rfl, hwanted⟩ := hmarker m rfl
        cases mode with
        | none => exact absurd hwanted (by simp [markerWanted])
        | some mode =>
            cases isRoot <;> cases suppressed <;>
              first | rfl | exact absurd hwanted (by simp [markerWanted])

theorem resourceTable_bare {l : Launch} (t : Table File)
    (hleaf : l.prepared.cgroupLeaf = none)
    (hmarker : l.prepared.marker = none) :
    l.resourceTable t = t := by
  funext fd
  simp [resourceTable, hleaf, hmarker]

theorem resourceTable_leaf {l : Launch} {leaf : Leaf} (t : Table File)
    (hleaf : l.prepared.cgroupLeaf = some leaf)
    (hmarker : l.prepared.marker = none) :
    l.resourceTable t = t.close leaf.procsFd := by
  funext fd
  by_cases h : fd = leaf.procsFd
  · simp [resourceTable, hleaf, Table.close, h]
  · simp [resourceTable, hleaf, hmarker, Table.close, Table.put_ne _ _ h,
      Ne.symm h]

theorem resourceTable_marker {l : Launch} {m : PreparedMarker} (t : Table File)
    (hleaf : l.prepared.cgroupLeaf = none)
    (hmarker : l.prepared.marker = some m) :
    l.resourceTable t = t.setCloexec m.fd false := by
  funext fd
  by_cases h : fd = m.fd
  · simp [resourceTable, hleaf, hmarker, Table.setCloexec, h, kept]
  · simp [resourceTable, hleaf, hmarker, Table.setCloexec, Table.put_ne _ _ h,
      Ne.symm h]

/-- The child enters the leaf if it is let in, and its descriptor is gone; the
marker stays open. -/
theorem run_resourceHooks {l : Launch} {cf : CommandFds} {admits : Bool}
    {child : Forked}
    (h : ∀ leaf, l.prepared.cgroupLeaf = some leaf →
      child.table leaf.procsFd = some ⟨.procs leaf.seq, false⟩) :
    l.resourceHooks.foldlM (Hook.run cf admits) child = .ok { child with
      leaf := l.childLeaf admits child.leaf
      table := l.resourceTable child.table } := by
  cases hleaf : l.prepared.cgroupLeaf with
  | some leaf =>
      have hmarker := l.leaf_or_marker.resolve_left (by rw [hleaf]; nofun)
      have hrun := placeSelf_eq admits (h leaf hleaf)
      rw [resourceTable_leaf _ hleaf hmarker]
      simp only [resourceHooks, hleaf, hmarker, childLeaf, Option.toList,
        List.map_cons, List.map_nil, List.append_nil, List.foldlM_cons,
        List.foldlM_nil, Hook.run, hrun]
      rfl
  | none =>
      have hkeep : l.childLeaf admits child.leaf = child.leaf := by
        cases admits <;> simp [childLeaf, hleaf]
      rw [hkeep]
      cases hmarker : l.prepared.marker with
      | none =>
          rw [resourceTable_bare _ hleaf hmarker]
          simp only [resourceHooks, hleaf, hmarker, Option.toList, List.map_nil,
            List.append_nil, List.foldlM_nil]
          rfl
      | some m =>
          rw [resourceTable_marker _ hleaf hmarker]
          simp only [resourceHooks, hleaf, hmarker, Option.toList, List.map_nil,
            List.map_cons, List.nil_append, List.foldlM_cons, List.foldlM_nil,
            Hook.run]
          rfl

/-- The process group of the child. -/
def childPgid (l : Launch) (child : Forked) : Nat :=
  if l.setup = .none then child.pgid else child.pid

/-- The session of the child. -/
def childSid (l : Launch) (child : Forked) : Nat :=
  if l.setup = .session then child.pid else child.sid

/-- The child once std has set its process group. -/
def joined (l : Launch) (child : Forked) : Forked :=
  if l.setup = .processGroup then { child with pgid := child.pid } else child

/-- A child that does not lead its session may lead a group. -/
theorem joinGroup_eq (l : Launch) (child : Forked)
    (hsid : child.sid ≠ child.pid) :
    l.command.joinGroup child = .ok (l.joined child) := by
  rw [command_eq]
  unfold joined StdCommand.joinGroup
  cases l.setup with
  | session => rfl
  | processGroup => exact if_neg hsid
  | none => rfl

/-- A child that does not lead its group gets the group or the session that its
mode asks for, and never both. -/
theorem run_groupHooks (l : Launch) (cf : CommandFds) (admits : Bool)
    (child : Forked) (hpgid : child.pgid ≠ child.pid) :
    l.groupHooks.foldlM (Hook.run cf admits) (l.joined child) =
      .ok { child with
        pgid := l.childPgid child
        sid := l.childSid child } := by
  unfold groupHooks joined childPgid childSid
  cases l.setup with
  | session =>
      have hsetsid : child.setsid =
          .ok { child with pgid := child.pid, sid := child.pid } :=
        if_neg hpgid
      exact congrArg (· >>= pure) hsetsid
  | processGroup => rfl
  | none => rfl

/-! ### The mapping -/

theorem resourceTable_ne {l : Launch} {t : Table File} {fd : Nat}
    (hleaf : ∀ leaf, l.prepared.cgroupLeaf = some leaf → fd ≠ leaf.procsFd)
    (hmarker : ∀ m, l.prepared.marker = some m → fd ≠ m.fd) :
    l.resourceTable t fd = t fd := by
  have hclosed : l.prepared.cgroupLeaf.any (·.procsFd == fd) = false := by
    cases hl : l.prepared.cgroupLeaf with
    | none => rfl
    | some leaf => simpa using Ne.symm (hleaf leaf hl)
  have hkept : l.prepared.marker.any (·.fd == fd) = false := by
    cases hm : l.prepared.marker with
    | none => rfl
    | some m => simpa using Ne.symm (hmarker m hm)
  simp [resourceTable, hclosed, hkept]

/-- The containment leaves the stdio alone. -/
theorem Ready.resourceTable_stdio {l : Launch} {t t' : Table File} {fd : Nat}
    (h : l.Ready t) (hfd : fd < 3) : l.resourceTable t' fd = t' fd := by
  apply resourceTable_ne
  · intro leaf hleaf
    have := (h.leaf leaf hleaf).1
    omega
  · intro m hm
    have := (h.marker m hm).1
    simp only [highFloor] at this
    omega

/-- What `exec` leaves where nothing is mapped. -/
theorem Ready.exec_resourceTable {l : Launch} {t : Table File} (h : l.Ready t)
    {fd : Nat} (hunmapped : l.mappings.find? (·.childFd == fd) = none) :
    (l.resourceTable (l.stdioTable t)).exec fd = l.execTable t fd := by
  obtain ⟨h0, h1, h2⟩ := h.stdioTable
  have hkept : ∀ src,
      (kept t src).filter (fun e => !e.cloexec) = kept t src := by
    intro src
    unfold kept
    cases t src <;> rfl
  by_cases hfd : fd < 3
  · have hstdio : (l.resourceTable (l.stdioTable t)).exec fd =
        (l.stdioTable t fd).filter fun e => !e.cloexec := by
      rw [Table.exec, h.resourceTable_stdio hfd]
    rw [hstdio]
    obtain rfl | rfl | rfl : fd = 0 ∨ fd = 1 ∨ fd = 2 := by omega
    · rw [h0, hkept]
      rfl
    · rw [h1, hkept]
      rfl
    · rw [h2, hkept]
      rfl
  · have habove : l.stdioTable t fd = t fd := stdioTable_above (by omega)
    have hne0 : fd ≠ 0 := by omega
    have hne1 : fd ≠ 1 := by omega
    have hne2 : fd ≠ 2 := by omega
    simp only [execTable, hne0, hne1, hne2, if_false, hunmapped, Table.exec,
      resourceTable]
    split
    · rfl
    · split
      · rw [show kept (l.stdioTable t) fd = kept t fd by
          rw [kept, habove, kept], hkept]
      · rw [habove]

/-- What is mapped is what the parent had. -/
theorem Ready.resourceTable_parent {l : Launch} {t : Table File}
    (h : l.Ready t) {x : FdMapping} (hx : x ∈ l.mappings) :
    kept (l.resourceTable (l.stdioTable t)) x.parentFd = kept t x.parentFd := by
  have habove : l.stdioTable t x.parentFd = t x.parentFd :=
    stdioTable_above (h.parent x hx).1
  have hleaf : l.prepared.cgroupLeaf.any (·.procsFd == x.parentFd) = false := by
    cases hl : l.prepared.cgroupLeaf with
    | none => rfl
    | some leaf => simpa using Ne.symm ((h.leaf leaf hl).2.2 x hx)
  simp only [kept, resourceTable, hleaf, habove, Bool.false_eq_true, if_false]
  split
  · cases t x.parentFd <;> rfl
  · rfl

theorem Ready.mapped {l : Launch} {t t' : Table File} (h : l.Ready t)
    {cf : CommandFds} {x : FdMapping} (hx : x ∈ l.mappings)
    (hmap : cf.mapFds l.mappings (l.resourceTable (l.stdioTable t)) = .ok t') :
    t'.exec x.childFd = kept t x.parentFd := by
  have hopen : ∀ y ∈ l.mappings,
      l.resourceTable (l.stdioTable t) y.parentFd ≠ none := by
    intro y hy hnone
    have hparent := h.resourceTable_parent hy
    rw [kept, hnone, Option.map_none] at hparent
    exact (h.parent y hy).2 (Option.map_eq_none_iff.mp hparent.symm)
  rw [cf.mapped l.mappings _ t' x hmap h.nodup hopen hx]
  exact h.resourceTable_parent hx

/-- What the mapping makes of the child's descriptors. -/
def mapping (l : Launch) (cf : CommandFds) (t : Table File) :
    Except IoError (Table File) :=
  if l.mappings.isEmpty then .ok t else cf.mapFds l.mappings t

theorem run_mappingHooks (l : Launch) (cf : CommandFds) (admits : Bool)
    (child : Forked) :
    l.mappingHooks.foldlM (Hook.run cf admits) child =
      (l.mapping cf child.table).map fun t => { child with table := t } := by
  unfold mappingHooks mapping
  cases l.mappings.isEmpty with
  | true => rfl
  | false =>
      cases hmap : cf.mapFds l.mappings child.table with
      | error e => simp [Hook.run, hmap, Except.map, bind, Except.bind]
      | ok t => simp [Hook.run, hmap, Except.map, bind, Except.bind, pure,
          Except.pure]

/-- After the mapping and `exec` every number is what it is to be. -/
theorem Ready.exec_mapping {l : Launch} {t t' : Table File} (h : l.Ready t)
    {cf : CommandFds}
    (hmap : l.mapping cf (l.resourceTable (l.stdioTable t)) = .ok t') :
    t'.exec = l.execTable t := by
  unfold mapping at hmap
  funext fd
  cases hempty : l.mappings.isEmpty with
  | true =>
      rw [hempty, if_pos rfl] at hmap
      obtain rfl := Except.ok.inj hmap
      have hnil : l.mappings = [] := List.isEmpty_iff.mp hempty
      exact h.exec_resourceTable (by rw [hnil]; rfl)
  | false =>
      rw [hempty, if_neg Bool.false_ne_true] at hmap
      cases hfind : l.mappings.find? (·.childFd == fd) with
      | none =>
          rw [cf.others l.mappings _ t' fd hmap]
          · exact h.exec_resourceTable hfind
          · intro hmem
            obtain ⟨x, hx, rfl⟩ := List.mem_map.mp hmem
            exact List.find?_eq_none.mp hfind x hx (beq_self_eq_true _)
      | some x =>
          have hx : x ∈ l.mappings := List.mem_of_find?_eq_some hfind
          obtain rfl : x.childFd = fd := by
            simpa using List.find?_some hfind
          have hge := h.child x hx
          have hne0 : x.childFd ≠ 0 := by omega
          have hne1 : x.childFd ≠ 1 := by omega
          have hne2 : x.childFd ≠ 2 := by omega
          simp only [execTable, hne0, hne1, hne2, if_false, hfind]
          exact h.mapped hx hmap

/-! ### The `exec` -/

/-- The child at its `exec`. -/
def atExec (l : Launch) (admits : Bool) (child : Forked) : Forked where
  pid := child.pid
  pgid := l.childPgid child
  sid := l.childSid child
  leaf := l.childLeaf admits child.leaf
  table := l.execTable child.table
  spoiled := child.spoiled

/-- A child that reaches its `exec` is as the launch says, and one that does not
has failed in a step of std's own or in the mapping. -/
structure Execs (l : Launch) (cf : CommandFds)
    (std : StdStep → Except IoError Unit) (admits : Bool) (child : Forked)
    (result : Except IoError Forked) : Prop where
  reached : ∀ child', result = .ok child' → child' = l.atExec admits child
  failed : ∀ e, result = .error e → (∃ step, std step = .error e) ∨
    l.mappings ≠ [] ∧ cf.mapFds l.mappings
      (l.resourceTable (l.stdioTable child.table)) = .error e

section Execs

variable {l : Launch} {cf : CommandFds} {std : StdStep → Except IoError Unit}
  {admits : Bool} {child : Forked}

/-- A step of std's own in front of the others. -/
theorem Execs.after_std {step : StdStep} {rest : Except IoError Forked}
    (h : l.Execs cf std admits child rest) :
    l.Execs cf std admits child (std step >>= fun _ => rest) := by
  cases hstep : std step with
  | error e =>
      refine ⟨nofun, fun e' he => .inl ⟨step, ?_⟩⟩
      obtain rfl := Except.error.inj he
      exact hstep
  | ok u => exact h

/-- The hooks, once std's own steps are done. -/
theorem Ready.execs_hooks (h : l.Ready child.table)
    (hpgid : child.pgid ≠ child.pid) :
    l.Execs cf std admits child (do
      let child ← l.command.hooks.foldlM (Hook.run cf admits)
        (l.joined { child with table := l.stdioTable child.table })
      return { child with table := child.table.exec }) := by
  let placed : Forked := { child with table := l.stdioTable child.table }
  let grouped : Forked :=
    { placed with pgid := l.childPgid placed, sid := l.childSid placed }
  let contained : Forked :=
    { grouped with
      leaf := l.childLeaf admits grouped.leaf
      table := l.resourceTable grouped.table }
  have hgroup := run_groupHooks l cf admits placed hpgid
  have hresource : l.resourceHooks.foldlM (Hook.run cf admits) grouped =
      .ok contained := by
    refine run_resourceHooks fun leaf hleaf => ?_
    obtain ⟨hge, hopen, _⟩ := h.leaf leaf hleaf
    exact (stdioTable_above hge).trans hopen
  have hhooks : l.command.hooks.foldlM (Hook.run cf admits) (l.joined placed) =
      (l.mapping cf contained.table).map fun t =>
        { contained with table := t } := by
    calc l.command.hooks.foldlM (Hook.run cf admits) (l.joined placed)
        = (l.groupHooks.foldlM (Hook.run cf admits) (l.joined placed) >>=
            l.resourceHooks.foldlM (Hook.run cf admits)) >>=
            l.mappingHooks.foldlM (Hook.run cf admits) := by
          simp only [command_eq, List.foldlM_append]
      _ = l.resourceHooks.foldlM (Hook.run cf admits) grouped >>=
            l.mappingHooks.foldlM (Hook.run cf admits) := by
          rw [hgroup]
          rfl
      _ = l.mappingHooks.foldlM (Hook.run cf admits) contained := by
          rw [hresource]
          rfl
      _ = _ := run_mappingHooks l cf admits contained
  rw [hhooks]
  cases hmap : l.mapping cf contained.table with
  | error e =>
      refine ⟨nofun, fun e' he => .inr ?_⟩
      obtain rfl := Except.error.inj he
      unfold mapping at hmap
      split at hmap
      · cases hmap
      · next hne => exact ⟨fun hnil => hne (List.isEmpty_iff.mpr hnil), hmap⟩
  | ok t =>
      refine ⟨fun child' he => ?_, nofun⟩
      obtain rfl := Except.ok.inj he
      have hexec : t.exec = l.execTable child.table := h.exec_mapping hmap
      simp only [atExec, hexec]
      rfl

end Execs

/-- The hooks of a spawn do not get in each other's way, whatever descriptors
are mapped and whether or not the kernel lets the child into its leaf: `exec` is
reached, in the group of the mode, with exactly the descriptors of the launch,
and nothing but a `cgroup.procs` was written to, unless a step of std's own or
of the mapping fails. -/
theorem reaches_exec (l : Launch) (cf : CommandFds)
    (std : StdStep → Except IoError Unit) (admits : Bool)
    (child : Forked) (h : l.Ready child.table) (hsid : child.sid ≠ child.pid)
    (hpgid : child.pgid ≠ child.pid) :
    l.Execs cf std admits child
      (l.command.doExec cf std admits child) := by
  have hrest : l.Execs cf std admits child (do
      let child ← l.command.joinGroup
        { child with table := l.stdioTable child.table }
      std .signals
      let child ← l.command.hooks.foldlM (Hook.run cf admits) child
      return { child with table := child.table.exec }) := by
    have hjoin : l.command.joinGroup
        { child with table := l.stdioTable child.table } = .ok _ :=
      joinGroup_eq l _ hsid
    rw [hjoin]
    exact (h.execs_hooks hpgid).after_std
  unfold StdCommand.doExec
  obtain ⟨hin, hout, herr⟩ := l.command_stdio
  rw [hin, hout, herr]
  exact hrest.after_std.after_std.after_std.after_std

/-- A mapping that is done in one go, below a limit of descriptors. -/
def assignFds (limit : Nat) : CommandFds where
  mapFds mappings t :=
    if mappings.all (·.childFd < limit) then
      .ok fun fd =>
        match mappings.find? (·.childFd == fd) with
        | some x => kept t x.parentFd
        | none => t fd
    else .error (.os 9)
  mapped := by
    intro mappings t t' x hmap hnodup _ hx
    split at hmap
    · obtain rfl := Except.ok.inj hmap
      have hfind : mappings.find? (·.childFd == x.childFd) = some x := by
        cases hfound : mappings.find? (·.childFd == x.childFd) with
        | none =>
            exact absurd (beq_self_eq_true _)
              (List.find?_eq_none.mp hfound x hx)
        | some y =>
            have heq : y.childFd = x.childFd := by
              simpa using List.find?_some hfound
            have hy := List.mem_of_find?_eq_some hfound
            rw [List.inj_on_of_nodup_map hnodup hy hx heq]
      simp only [Table.exec, hfind, kept]
      cases t x.parentFd <;> rfl
    · cases hmap
  others := by
    intro mappings t t' fd hmap hfd
    split at hmap
    · obtain rfl := Except.ok.inj hmap
      have hfind : mappings.find? (·.childFd == fd) = none := by
        refine List.find?_eq_none.mpr fun x hx heq => hfd ?_
        obtain rfl : x.childFd = fd := by simpa using heq
        exact List.mem_map_of_mem hx
      simp only [Table.exec, hfind]
    · cases hmap

/-- A contained root on Linux, with a descriptor mapped to the number that its
leaf is open on. -/
def sample : Launch where
  os := .linux
  mode := some .strongest
  isRoot := true
  suppressed := false
  stdin := 3
  stdout := 4
  stderr := 5
  mappings := [⟨6, 7⟩]
  leaf := some ⟨0, 7⟩
  marker := none

/-- What the supervisor has open then. -/
def sampleTable : Table File := fun fd =>
  if fd = 7 then some ⟨.procs 0, false⟩
  else if fd < 7 then some ⟨.other fd, true⟩
  else none

theorem sample_ready : sample.Ready sampleTable := by
  refine ⟨by decide, by decide, by decide, by decide, by decide, ?_, ?_, nofun⟩
  · intro x hx
    obtain rfl := List.mem_singleton.mp hx
    exact ⟨by decide, nofun⟩
  · rintro leaf hleaf
    obtain rfl := Option.some.inj hleaf
    exact ⟨by decide, rfl, by decide⟩

theorem reaches_exec_sample : sampleTable 7 = some ⟨.procs 0, false⟩ ∧
    ∃ child, sample.command.doExec (assignFds 1024) (fun _ => .ok ()) true
        ⟨100, 1, 1, none, sampleTable, []⟩ = .ok child ∧
      child.pgid = 100 ∧ child.leaf = some 0 ∧
      child.table 7 = some ⟨.other 6, false⟩ := by
  have hexecs := sample.reaches_exec (assignFds 1024) (fun _ => .ok ()) true
    ⟨100, 1, 1, none, sampleTable, []⟩ sample_ready (by decide) (by decide)
  refine ⟨rfl, ?_⟩
  cases hrun : sample.command.doExec (assignFds 1024) (fun _ => .ok ()) true
      ⟨100, 1, 1, none, sampleTable, []⟩ with
  | error e =>
      obtain ⟨step, hstep⟩ | ⟨_, hmap⟩ := hexecs.failed e hrun
      · cases hstep
      · cases hmap
  | ok child =>
      obtain rfl := hexecs.reached child hrun
      exact ⟨_, rfl, rfl, rfl, rfl⟩

end Launch

end Cosca.Ports.ForkedChild


