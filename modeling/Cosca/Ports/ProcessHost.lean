import Cosca.Ports.Identity

/-!
# A host that does not reparent

The history of the processes of a host on which a pid may be given out again
after its holder's exit, a process keeps its creator's pid as its parent pid
for ever, and start tokens grow with every creation.  The host remembers who
created whom; the crate under verification cannot see that.
-/

namespace Cosca.Ports.ProcessHost

open Cosca.Ports.Identity

/-- A process: its identity, the parent pid on record, and the start token of
the process that created it. -/
structure Process where
  id : ProcessId
  ppid : RawPid
  creator : Option UInt64
  deriving DecidableEq, Repr

/-- The live processes, and all that were ever created. -/
structure Host where
  live : List Process
  created : List Process
  deriving DecidableEq, Repr

/-- A host with its first process, which nobody created. -/
def Host.boot (id : ProcessId) (ppid : RawPid) : Host where
  live := [⟨id, ppid, none⟩]
  created := [⟨id, ppid, none⟩]

/-- The child a process creates. -/
def Process.child (parent : Process) (id : ProcessId) : Process where
  id := id
  ppid := parent.id.pid
  creator := some parent.id.start

/-- One event of the history. -/
inductive Host.Step : Host → Host → Prop where
  /-- A live process creates another one, under a pid that is free. -/
  | create {h : Host} {parent : Process} (id : ProcessId)
      (hparent : parent ∈ h.live) (hpid : ∀ p ∈ h.live, p.id.pid ≠ id.pid)
      (hstart : ∀ p ∈ h.created, p.id.start < id.start) :
      Host.Step h ⟨parent.child id :: h.live, parent.child id :: h.created⟩
  /-- A live process exits. -/
  | exit {h : Host} (p : Process) :
      Host.Step h ⟨h.live.filter (· ≠ p), h.created⟩

/-- The hosts some history ends in. -/
inductive Host.Reachable : Host → Prop where
  | boot (id : ProcessId) (ppid : RawPid) : Host.Reachable (Host.boot id ppid)
  | step {h h' : Host} (hreach : Host.Reachable h) (hstep : Host.Step h h') :
      Host.Reachable h'

/-- `x` was created by `root`, or by a process that descends from it. -/
inductive Host.Descends (h : Host) (root : ProcessId) : Process → Prop where
  | child {x : Process} (hx : x ∈ h.created)
      (hcreator : x.creator = some root.start) : Host.Descends h root x
  | step {x y : Process} (hy : Host.Descends h root y) (hx : x ∈ h.created)
      (hcreator : x.creator = some y.id.start) : Host.Descends h root x

/-- The process with this identity is a genuine descendant. -/
def Host.Genuine (h : Host) (root id : ProcessId) : Prop :=
  ∃ x, h.Descends root x ∧ x.id = id

/-- The snapshot of the live processes, in some order and perhaps with
repetitions. -/
def Host.IsSnapshot (h : Host) (parents : List (RawPid × RawPid)) : Prop :=
  ∀ e, e ∈ parents ↔ ∃ x ∈ h.live, (x.id.pid, x.ppid) = e

/-- The snapshot in the order of the live list. -/
def Host.snapshot (h : Host) : List (RawPid × RawPid) :=
  h.live.map fun x => (x.id.pid, x.ppid)

theorem Host.isSnapshot_snapshot (h : Host) : h.IsSnapshot h.snapshot := by
  intro e
  exact List.mem_map

/-- Exact identity resolution. -/
def Host.resolve (h : Host) (pid : RawPid) : Option ProcessId :=
  (h.live.find? fun p => p.id.pid == pid).map (·.id)

/-! ## The invariant of a history -/

structure Host.WellFormed (h : Host) : Prop where
  live_created : ∀ p ∈ h.live, p ∈ h.created
  pid_inj : ∀ p ∈ h.live, ∀ q ∈ h.live, p.id.pid = q.id.pid → p = q
  start_inj : ∀ p ∈ h.created, ∀ q ∈ h.created,
    p.id.start = q.id.start → p = q
  creator_older : ∀ p ∈ h.created, ∀ start, p.creator = some start →
    start < p.id.start
  not_self : ∀ p ∈ h.created, ∀ start, p.creator = some start →
    p.id.pid ≠ p.ppid
  /-- A parent pid that names a live, older process names the creator. -/
  authentic : ∀ p ∈ h.created, ∀ q ∈ h.live, p.ppid = q.id.pid →
    q.id.start < p.id.start → p.creator = some q.id.start

theorem Host.WellFormed.boot (id : ProcessId) (ppid : RawPid) :
    (Host.boot id ppid).WellFormed := by
  have honly : ∀ p ∈ (Host.boot id ppid).created, p = ⟨id, ppid, none⟩ :=
    fun p hp => List.mem_singleton.mp hp
  refine
    { live_created := fun p hp => hp
      pid_inj := fun p hp q hq _ => (honly p hp).trans (honly q hq).symm
      start_inj := fun p hp q hq _ => (honly p hp).trans (honly q hq).symm
      creator_older := ?_
      not_self := ?_
      authentic := ?_ }
  · intro p hp start hcreator
    rw [honly p hp] at hcreator
    cases hcreator
  · intro p hp start hcreator
    rw [honly p hp] at hcreator
    cases hcreator
  · intro p hp q hq _ hlt
    rw [honly p hp, honly q hq] at hlt
    exact absurd hlt (UInt64.lt_irrefl _)

/-- One event keeps the invariant. -/
theorem Host.WellFormed.step {h h' : Host} (hwf : h.WellFormed)
    (hstep : Host.Step h h') : h'.WellFormed := by
  cases hstep with
  | exit p =>
      have hlive : ∀ q ∈ h.live.filter (· ≠ p), q ∈ h.live := fun q hq =>
        (List.mem_filter.mp hq).1
      exact
        { live_created := fun q hq => hwf.live_created q (hlive q hq)
          pid_inj := fun q hq r hr =>
            hwf.pid_inj q (hlive q hq) r (hlive r hr)
          start_inj := hwf.start_inj
          creator_older := hwf.creator_older
          not_self := hwf.not_self
          authentic := fun q hq r hr => hwf.authentic q hq r (hlive r hr) }
  | @create parent id hparent hpid hstart =>
      have hne : ∀ p ∈ h.created, p.id.start ≠ id.start := by
        intro p hp heq
        have hlt := hstart p hp
        rw [heq] at hlt
        exact UInt64.lt_irrefl _ hlt
      refine
        { live_created := ?_
          pid_inj := ?_
          start_inj := ?_
          creator_older := ?_
          not_self := ?_
          authentic := ?_ }
      · intro p hp
        rcases List.mem_cons.mp hp with rfl | hp
        · exact List.mem_cons_self
        · exact List.mem_cons_of_mem _ (hwf.live_created p hp)
      · intro p hp q hq heq
        rcases List.mem_cons.mp hp with rfl | hp
        · rcases List.mem_cons.mp hq with rfl | hq
          · rfl
          · exact absurd heq.symm (hpid q hq)
        · rcases List.mem_cons.mp hq with rfl | hq
          · exact absurd heq (hpid p hp)
          · exact hwf.pid_inj p hp q hq heq
      · intro p hp q hq heq
        rcases List.mem_cons.mp hp with rfl | hp
        · rcases List.mem_cons.mp hq with rfl | hq
          · rfl
          · exact absurd heq.symm (hne q hq)
        · rcases List.mem_cons.mp hq with rfl | hq
          · exact absurd heq (hne p hp)
          · exact hwf.start_inj p hp q hq heq
      · intro p hp start hcreator
        rcases List.mem_cons.mp hp with rfl | hp
        · cases hcreator
          exact hstart parent (hwf.live_created parent hparent)
        · exact hwf.creator_older p hp start hcreator
      · intro p hp start hcreator
        rcases List.mem_cons.mp hp with rfl | hp
        · exact fun heq => hpid parent hparent heq.symm
        · exact hwf.not_self p hp start hcreator
      · intro p hp q hq heq hlt
        rcases List.mem_cons.mp hp with rfl | hp
        · rcases List.mem_cons.mp hq with rfl | hq
          · exact absurd hlt (UInt64.lt_irrefl _)
          · rw [← hwf.pid_inj parent hparent q hq heq]
            rfl
        · rcases List.mem_cons.mp hq with rfl | hq
          · exact absurd (UInt64.lt_trans hlt (hstart p hp))
              (UInt64.lt_irrefl _)
          · exact hwf.authentic p hp q hq heq hlt

/-- Every reachable host is well formed. -/
theorem Host.Reachable.wellFormed {h : Host} (hreach : h.Reachable) :
    h.WellFormed := by
  induction hreach with
  | boot id ppid => exact Host.WellFormed.boot id ppid
  | step _ hstep ih => exact ih.step hstep

/-! ## Descent -/

section

variable {h : Host} {root : ProcessId}

theorem Host.Descends.created {x : Process} (hx : h.Descends root x) :
    x ∈ h.created ∧ ∃ start, x.creator = some start := by
  cases hx with
  | child hx hcreator => exact ⟨hx, _, hcreator⟩
  | step _ hx hcreator => exact ⟨hx, _, hcreator⟩

/-- A descendant is younger. -/
theorem Host.Descends.younger (hwf : h.WellFormed) {x : Process}
    (hx : h.Descends root x) : root.start < x.id.start := by
  induction hx with
  | child hx hcreator => exact hwf.creator_older _ hx _ hcreator
  | step _ hx hcreator ih =>
      exact UInt64.lt_trans ih (hwf.creator_older _ hx _ hcreator)

/-- A live process resolves to its own identity. -/
theorem Host.WellFormed.resolve_live (hwf : h.WellFormed) {x : Process}
    (hx : x ∈ h.live) : h.resolve x.id.pid = some x.id := by
  unfold Host.resolve
  cases hfind : h.live.find? fun p => p.id.pid == x.id.pid with
  | none =>
      have hnone := List.find?_eq_none.mp hfind x hx
      simp at hnone
  | some y =>
      have hpid : y.id.pid = x.id.pid := by
        simpa using List.find?_some hfind
      rw [hwf.pid_inj y (List.mem_of_find?_eq_some hfind) x hx hpid]
      rfl

end

end Cosca.Ports.ProcessHost
