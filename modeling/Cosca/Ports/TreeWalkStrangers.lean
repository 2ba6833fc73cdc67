import Cosca.Ports.ProcessHost
import Cosca.Ports.TreeWalk

/-!
# The tree walk on a host that does not reparent

Every candidate's token is compared with the root's, never with its parent's.
Below the root's own children that leaves a gap: a parent pid on record may
name a descendant that took the pid over, and the process that carries it may
be younger than the root.

## Main results

* `descendantsWith_genuine_iff`: the walk returns genuine descendants only,
  exactly when no such process is there.
* `childrenOfWith_genuine`: the one-level filter, which compares with the
  parent, returns genuine children always.
-/

namespace Cosca.Ports.TreeWalkStrangers

open Cosca.Ports.Identity
open Cosca.Ports.ProcessHost
open Cosca.Ports.TreeWalk

/-- The live descendants a chain of parent pids leads to, and the root. -/
inductive Attached (h : Host) (root : Process) : Process → Prop where
  | root : Attached h root root
  | link {q x : Process} (hq : Attached h root q) (hlive : x ∈ h.live)
      (hppid : x.ppid = q.id.pid) (hx : h.Descends root.id x) :
      Attached h root x

/-- A process of no concern to the root, younger than it, whose parent pid on
record now names an attached process that is younger still. -/
def StaleStranger (h : Host) (root : Process) : Prop :=
  ∃ q x, Attached h root q ∧ x ∈ h.live ∧ x.ppid = q.id.pid ∧
    root.id.start < x.id.start ∧ x.id.start < q.id.start ∧
    ¬ h.Descends root.id x

section

variable {h : Host} {root : Process} {parents : List Edge}

theorem Attached.live (hroot : root ∈ h.live) {q : Process}
    (hq : Attached h root q) : q ∈ h.live := by
  cases hq with
  | root => exact hroot
  | link _ hlive _ _ => exact hlive

/-- A live process younger than an attached parent descends from the root. -/
theorem Attached.descends (hwf : h.WellFormed) (hroot : root ∈ h.live)
    {q x : Process} (hq : Attached h root q) (hx : x ∈ h.live)
    (hppid : x.ppid = q.id.pid) (hlt : q.id.start < x.id.start) :
    h.Descends root.id x := by
  have hcreated := hwf.live_created x hx
  have hcreator :=
    hwf.authentic x hcreated q (hq.live hroot) hppid hlt
  cases hq with
  | root => exact .child hcreated hcreator
  | link _ _ _ hdesc => exact .step hdesc hcreated hcreator

/-- The filter takes the live processes younger than the root. -/
theorem takes_iff (hwf : h.WellFormed) {x : Process} (hx : x ∈ h.live) :
    Takes root.id false h.resolve x.id.pid ↔ root.id.start < x.id.start := by
  unfold Takes keepsToken
  rw [hwf.resolve_live hx]
  constructor
  · rintro ⟨id, hid, hkeep⟩
    cases hid
    simpa using hkeep
  · intro hlt
    exact ⟨x.id, rfl, by simpa using hlt⟩

/-- Without a stale stranger, what the walk reaches is attached. -/
theorem attached_of_reached (hwf : h.WellFormed) (hroot : root ∈ h.live)
    (hsnapshot : h.IsSnapshot parents) (hnone : ¬ StaleStranger h root)
    {pid : RawPid} (hpid : Reached root.id false h.resolve parents pid) :
    ∃ x, Attached h root x ∧ h.Descends root.id x ∧ x.id.pid = pid := by
  -- one edge below an attached process; `hne` rules out a self-loop
  have hlink : ∀ q, Attached h root q → ∀ p, (p, q.id.pid) ∈ parents →
      p ≠ q.id.pid → Takes root.id false h.resolve p →
      ∃ x, Attached h root x ∧ h.Descends root.id x ∧ x.id.pid = p := by
    intro q hq p hedge hne htakes
    obtain ⟨x, hx, heq⟩ := (hsnapshot _).mp hedge
    obtain ⟨rfl, hppid⟩ := Prod.mk.inj heq
    have hyounger := (takes_iff hwf hx).mp htakes
    have hdesc : h.Descends root.id x := by
      by_cases hlt : q.id.start < x.id.start
      · exact hq.descends hwf hroot hx hppid hlt
      · by_cases heq : x.id.start = q.id.start
        · have hsame := hwf.start_inj x (hwf.live_created x hx) q
            (hwf.live_created q (hq.live hroot)) heq
          exact absurd (congrArg (·.id.pid) hsame) hne
        · have hle := UInt64.not_lt.mp hlt
          have hstale := UInt64.lt_of_le_of_ne hle heq
          by_cases hdesc : h.Descends root.id x
          · exact hdesc
          · exact absurd ⟨q, x, hq, hx, hppid, hyounger, hstale, hdesc⟩ hnone
    exact ⟨x, .link hq hx hppid hdesc, hdesc, rfl⟩
  induction hpid with
  | child hedge hne htakes => exact hlink root .root _ hedge hne htakes
  | step _ hedge hne htakes ih =>
      obtain ⟨q, hq, _, rfl⟩ := ih
      exact hlink q hq _ hedge hne htakes

/-- An attached process is the root or reached. -/
theorem Attached.reached (hwf : h.WellFormed) (hroot : root ∈ h.live)
    (hsnapshot : h.IsSnapshot parents) {q : Process}
    (hq : Attached h root q) :
    q = root ∨ Reached root.id false h.resolve parents q.id.pid := by
  induction hq with
  | root => exact .inl rfl
  | @link q x hq hlive hppid hx ih =>
      right
      have hedge : (x.id.pid, q.id.pid) ∈ parents :=
        (hsnapshot _).mpr ⟨x, hlive, by rw [hppid]⟩
      obtain ⟨hcreated, start, hcreator⟩ := hx.created
      have hne : x.id.pid ≠ q.id.pid := by
        rw [← hppid]
        exact hwf.not_self x hcreated start hcreator
      have htakes := (takes_iff hwf hlive).mpr (hx.younger hwf)
      rcases ih with rfl | hreached
      · exact .child hedge hne htakes
      · exact .step hreached hedge hne htakes

end

/-- Of every history and every live root: the walk returns genuine descendants
only, exactly when no younger stranger's parent pid has been taken over by a
process the walk goes through. -/
theorem descendantsWith_genuine_iff (h : Host) (root : Process)
    (parents : List Edge) (hreach : h.Reachable) (hroot : root ∈ h.live)
    (hsnapshot : h.IsSnapshot parents) :
    (∀ id ∈ descendantsWith root.id false h.resolve parents,
      h.Genuine root.id id) ↔ ¬ StaleStranger h root := by
  have hwf := hreach.wellFormed
  constructor
  · rintro hgenuine ⟨q, x, hq, hx, hppid, hyounger, hstale, hnot⟩
    have hedge : (x.id.pid, q.id.pid) ∈ parents :=
      (hsnapshot _).mpr ⟨x, hx, by rw [hppid]⟩
    have hne : x.id.pid ≠ q.id.pid := by
      intro heq
      have hsame := hwf.pid_inj x hx q (hq.live hroot) heq
      rw [hsame] at hstale
      exact UInt64.lt_irrefl _ hstale
    have htakes := (takes_iff hwf hx).mpr hyounger
    have hreached : Reached root.id false h.resolve parents x.id.pid := by
      rcases hq.reached hwf hroot hsnapshot with rfl | hreached
      · exact .child hedge hne htakes
      · exact .step hreached hedge hne htakes
    have hmem := (mem_descendantsWith_iff root.id parents false h.resolve
      x.id).mpr ⟨_, hreached, hwf.resolve_live hx⟩
    obtain ⟨y, hy, hid⟩ := hgenuine x.id hmem
    have hsame := hwf.start_inj y hy.created.1 x (hwf.live_created x hx)
      (by rw [hid])
    rw [hsame] at hy
    exact hnot hy
  · intro hnone id hid
    obtain ⟨pid, hpid, hresolve⟩ :=
      (mem_descendantsWith_iff root.id parents false h.resolve id).mp hid
    obtain ⟨x, hx, hdesc, rfl⟩ :=
      attached_of_reached hwf hroot hsnapshot hnone hpid
    rw [hwf.resolve_live (hx.live hroot)] at hresolve
    cases hresolve
    exact ⟨x, hdesc, rfl⟩

/-- The one-level filter compares with the parent, and returns nothing but
processes the parent created. -/
theorem childrenOfWith_genuine (h : Host) (parent : Process)
    (parents : List Edge) (hreach : h.Reachable) (hparent : parent ∈ h.live)
    (hsnapshot : h.IsSnapshot parents) :
    ∀ id ∈ childrenOfWith parent.id parents false h.resolve,
      ∃ x ∈ h.live, x.id = id ∧ x.creator = some parent.id.start := by
  have hwf := hreach.wellFormed
  intro id hid
  obtain ⟨pid, hedge, hresolve, hkeep⟩ := mem_childrenOfWith hid
  obtain ⟨x, hx, heq⟩ := (hsnapshot _).mp hedge
  obtain ⟨rfl, hppid⟩ := Prod.mk.inj heq
  rw [hwf.resolve_live hx] at hresolve
  cases hresolve
  have hlt : parent.id.start < x.id.start := by
    simpa [keepsToken] using hkeep
  exact ⟨x, hx, rfl,
    hwf.authentic x (hwf.live_created x hx) parent hparent hppid hlt⟩

/-! ## A stranger in the walk -/

/-- The first process, a child of it that becomes the root of a tree, and a
second child. -/
def firstProcess : Process := ⟨⟨1, 1⟩, 0, none⟩
def treeRoot : Process := firstProcess.child ⟨5, 10⟩
def neighbour : Process := firstProcess.child ⟨6, 11⟩

/-- The second child's child, and the root's child that takes over the pid of
the second child after its exit. -/
def stranger : Process := neighbour.child ⟨7, 12⟩
def successor : Process := treeRoot.child ⟨6, 20⟩

/-- The host at the end of that history. -/
def takenOver : Host where
  live := [successor, stranger, treeRoot, firstProcess]
  created := [successor, stranger, neighbour, treeRoot, firstProcess]

theorem takenOver_reachable : takenOver.Reachable := by
  have hboot : Host.Reachable ⟨[firstProcess], [firstProcess]⟩ := .boot _ _
  have hroot : Host.Reachable ⟨[treeRoot, firstProcess],
      [treeRoot, firstProcess]⟩ :=
    .step hboot (.create _ List.mem_cons_self (by decide) (by decide))
  have hneighbour : Host.Reachable ⟨[neighbour, treeRoot, firstProcess],
      [neighbour, treeRoot, firstProcess]⟩ :=
    .step hroot (.create _ (by decide) (by decide) (by decide))
  have hstranger : Host.Reachable
      ⟨[stranger, neighbour, treeRoot, firstProcess],
        [stranger, neighbour, treeRoot, firstProcess]⟩ :=
    .step hneighbour (.create _ List.mem_cons_self (by decide) (by decide))
  have hexit : Host.Reachable ⟨[stranger, treeRoot, firstProcess],
      [stranger, neighbour, treeRoot, firstProcess]⟩ :=
    .step hstranger (.exit neighbour)
  exact .step hexit (.create _ (by decide) (by decide) (by decide))

theorem descendantsWith_genuine_takenOver :
    (∀ id ∈ descendantsWith treeRoot.id false takenOver.resolve
        takenOver.snapshot, takenOver.Genuine treeRoot.id id) ↔
      ¬ StaleStranger takenOver treeRoot :=
  descendantsWith_genuine_iff takenOver treeRoot _ takenOver_reachable
    (by decide) takenOver.isSnapshot_snapshot

theorem not_descends_stranger :
    ¬ takenOver.Descends treeRoot.id stranger := by
  have hwf := takenOver_reachable.wellFormed
  have hneighbour : ¬ takenOver.Descends treeRoot.id neighbour := by
    intro h
    cases h with
    | child _ hcreator => exact absurd hcreator (by decide)
    | step hy _ hcreator =>
        have hyounger := hy.younger hwf
        rw [← Option.some.inj hcreator] at hyounger
        exact absurd hyounger (by decide)
  intro h
  cases h with
  | child _ hcreator => exact absurd hcreator (by decide)
  | @step _ y hy _ hcreator =>
      have hsame := hwf.start_inj y hy.created.1 neighbour (by decide)
        (Option.some.inj hcreator).symm
      rw [hsame] at hy
      exact hneighbour hy

/-- The walk from the root returns a process the root's tree never created. -/
theorem descendantsWith_returns_stranger :
    takenOver.Reachable ∧ treeRoot ∈ takenOver.live ∧
      takenOver.IsSnapshot takenOver.snapshot ∧
      ¬ ∀ id ∈ descendantsWith treeRoot.id false takenOver.resolve
        takenOver.snapshot, takenOver.Genuine treeRoot.id id := by
  refine ⟨takenOver_reachable, by decide, takenOver.isSnapshot_snapshot, ?_⟩
  intro hgenuine
  have hwalk : descendantsWith treeRoot.id false takenOver.resolve
      takenOver.snapshot = [successor.id, stranger.id] := by decide
  obtain ⟨x, hx, hid⟩ := hgenuine stranger.id (by rw [hwalk]; decide)
  have hsame := takenOver_reachable.wellFormed.start_inj x hx.created.1
    stranger (by decide) (by rw [hid])
  rw [hsame] at hx
  exact not_descends_stranger hx

end Cosca.Ports.TreeWalkStrangers
