import Cosca.Ports.FleetLaunches
import Cosca.Verified.Progress

/-!
# Who holds the containment's descriptors

A process holds of the containment what its root was given, whatever the
interleaving.

## Main results

* `marker_holders`: the processes that hold a marker are those of its tree.
* `procs_holders`: the processes that hold the `cgroup.procs` of a leaf are
  those of the other trees whose roots were spawned while it was open.
-/

namespace Cosca.Ports.SpawnFleet

open Cosca.Ports.ForkedChild
open Cosca.Verified.Descriptors
open Cosca.Verified.Progress
open Relation (ReflTransGen)

/-! ## The processes -/

/-- A process holds of the containment only what its root was given, and all of
it if everybody is naive. -/
structure Proc.Keeps (naive : Prop) (proc : Proc) : Prop where
  within : ∀ r n, proc.table.Holds (Resource.file r n) →
    Given proc.tree proc.launch proc.atFork r n
  keeps : naive → ∀ r n, Given proc.tree proc.launch proc.atFork r n →
    proc.table.Holds (Resource.file r n)

/-- What holds of every state that is reached. -/
structure Holds (os : Os) (naive : Prop) (s : Fleet) : Prop where
  owned : Owned s
  sound : ∀ k job, s.jobs k = some job → job.Sound os
  procs : ∀ pid proc, s.procs pid = some proc → proc.Keeps naive

theorem Fresh.holds {s : Fleet} (h : Fresh s) (os : Os) (naive : Prop) :
    Holds os naive s where
  owned := h.owned
  sound := by
    intro k job hjob
    rw [h.jobs k] at hjob
    exact nomatch hjob
  procs := by
    intro pid proc hproc
    rw [h.procs pid] at hproc
    exact nomatch hproc

section Steps

variable {os : Os} {cf : CommandFds} {naive : Prop} {s : Fleet} {k : Nat}
  {job : Job}

theorem Holds.sound_setJob (hs : Holds os naive s) (hjob : job.Sound os)
    (n : Nat) (job' : Job) (hn : (s.setJob k job).jobs n = some job') :
    job'.Sound os := by
  by_cases h : n = k
  · rw [h, Fleet.setJob_self] at hn
    exact Option.some.inj hn ▸ hjob
  · rw [Fleet.setJob_ne h] at hn
    exact hs.sound n job' hn

theorem Holds.setProc (hs : Holds os naive s) {pid : Nat}
    {proc : Option Proc} (hproc : ∀ p, proc = some p → p.Keeps naive) :
    Holds os naive (s.setProc pid proc) where
  owned := ⟨hs.owned.stdio, hs.owned.opened, hs.owned.owned⟩
  sound := hs.sound
  procs := by
    intro n p hn
    simp only [Fleet.setProc] at hn
    split at hn
    · exact hproc p hn
    · exact hs.procs n p hn

theorem Proc.Keeps.act {proc : Proc} (h : proc.Keeps naive) {t : Table File}
    (hacts : Acts naive proc.table t) :
    Proc.Keeps naive { proc with table := t } where
  within := fun r n hholds => h.within r n (hacts.within r n hholds)
  keeps := fun hnaive r n hgiven =>
    hacts.keeps hnaive r n (h.keeps hnaive r n hgiven)

/-- Every step keeps it. -/
theorem Step.holds {s' : Fleet} (hs : Holds os naive s)
    (h : Step os cf naive s s') : Holds os naive s' := by
  cases h with
  | begin k mode isRoot suppressed reserved nodup above hjob =>
      refine ⟨hs.owned.setJob _ fun r fd => ⟨nofun, ?_⟩,
        hs.sound_setJob (.begin ..), hs.procs⟩
      rintro ⟨job, hk, _⟩
      rw [hjob] at hk
      exact nomatch hk
  | tryCreateLeaf k job fd hos hjob hdone hwanted hnew hfree =>
      rw [openLeaf_eq]
      exact ⟨hs.owned.own hjob hnew hfree,
        hs.sound_setJob ((hs.sound k job hjob).ownLeaf hos hwanted fd),
        hs.procs⟩
  | install k job readFd writeFd placedFd hos hjob hdone hwanted hnew hfree
      hne hplaced hmax =>
      rw [openMarker_eq hfree.2.1 hne]
      have hread := hs.owned.own (r := .read) hjob hnew.1 hfree.1
      have hwrite := hread.own (r := .write) Fleet.setJob_self hnew.2
        ((Table.put_ne _ _ hne.2.1).trans hfree.2.2)
      refine ⟨?_, hs.sound_setJob
        ((hs.sound k job hjob).ownMarker hos hwanted hplaced hmax), hs.procs⟩
      rw [← Fleet.setJob_setJob]
      exact hwrite
  | spawn k job stdin stdout stderr mappings std admits pid pgid sid child hjob
      hdone hreserved hstdio hparents hpid hpgid hsid hexec =>
      have hsound := hs.sound k job hjob
      have hready := hs.owned.ready hjob hsound hreserved hstdio hparents
      have hspawned :
          Holds os naive (s.setJob k { job with done := true }) := by
        refine ⟨hs.owned.setJob _ fun r fd => ⟨fun hfd => ⟨job, hjob, hfd⟩, ?_⟩,
          hs.sound_setJob hsound.finish, hs.procs⟩
        rintro ⟨job', hk, hfd⟩
        rw [hjob] at hk
        obtain rfl := Option.some.inj hk
        exact hfd
      refine hspawned.setProc fun p hp => ?_
      obtain rfl := Option.some.inj hp
      obtain rfl := (Launch.reaches_exec _ cf std admits _ hready hsid
        hpgid).reached child hexec
      exact ⟨fun r n => hs.owned.given_of_holds hjob hsound hstdio hparents,
        fun _ r n => hs.owned.holds_of_given hjob hsound hreserved⟩
  | drop k job r fd hjob hfd =>
      exact ⟨hs.owned.disown hjob hfd,
        hs.sound_setJob ((hs.sound k job hjob).disown r), hs.procs⟩
  | «open» fd id cloexec hfree =>
      refine ⟨hs.owned.putPlain ?_ ?_ fun _ => Option.some_ne_none _, hs.sound,
        hs.procs⟩
      · intro e he
        rw [hfree] at he
        exact nomatch he
      · rintro e' he'
        exact ⟨id, by rw [← Option.some.inj he']⟩
  | close fd hfd hplain =>
      refine ⟨hs.owned.putPlain ?_ nofun fun hlt => absurd hlt (by omega),
        hs.sound, hs.procs⟩
      rintro e he
      obtain ⟨id, cloexec, hid⟩ := hplain
      rw [hid] at he
      exact ⟨id, by rw [← Option.some.inj he]⟩
  | fork pid pid' proc hproc hnew =>
      refine hs.setProc fun p hp => ?_
      obtain rfl := Option.some.inj hp
      exact hs.procs pid proc hproc
  | act pid proc t hproc hacts =>
      refine hs.setProc fun p hp => ?_
      obtain rfl := Option.some.inj hp
      exact (hs.procs pid proc hproc).act hacts
  | exit pid => exact hs.setProc nofun

end Steps

/-- It holds after every run. -/
theorem Fresh.reaches {os : Os} {cf : CommandFds} {naive : Prop}
    {start s : Fleet} (hstart : Fresh start)
    (h : ReflTransGen (Step os cf naive) start s) : Holds os naive s :=
  invariant_of_steps (fun _ _ hs hstep => hstep.holds hs)
    (hstart.holds os naive) h

/-- Whenever a job is ready, its child reaches `exec`, if the mapping does not
fail. -/
theorem Holds.spawns {os : Os} {naive : Prop} {s : Fleet}
    (h : Holds os naive s) (cf : CommandFds) (k : Nat) (job : Job)
    (stdin stdout stderr : Nat) (mappings : List FdMapping) (pid : Nat)
    (hjob : s.jobs k = some job) (hdone : job.done = false)
    (hreserved : mappings.map (·.childFd) = job.reserved)
    (hstdio : ∀ fd ∈ [stdin, stdout, stderr], 3 ≤ fd ∧ Plain s.sup fd)
    (hparents : ∀ x ∈ mappings, 3 ≤ x.parentFd ∧ Plain s.sup x.parentFd)
    (hpid : s.procs pid = none)
    (hmap : mappings ≠ [] → ∀ t e, cf.mapFds mappings t ≠ .error e) :
    Step os cf naive s
      ((s.setJob k { job with done := true }).setProc pid (some
        ⟨k, job.launch os k stdin stdout stderr mappings, s.sup,
          (job.launch os k stdin stdout stderr mappings).execTable
            s.sup⟩)) := by
  have hready := h.owned.ready hjob (h.sound k job hjob) hreserved hstdio
    hparents
  have hne : pid + 1 ≠ pid := Nat.succ_ne_self pid
  let child : Forked := ⟨pid, pid + 1, pid + 1, none, s.sup, []⟩
  have hexecs := Launch.reaches_exec _ cf (fun _ => .ok ()) true child hready
    hne hne
  cases hrun : (job.launch os k stdin stdout stderr mappings).command.doExec
      cf (fun _ => .ok ()) true child with
  | error e =>
      obtain ⟨step, hstep⟩ | ⟨hsome, hfail⟩ := hexecs.failed e hrun
      · cases hstep
      · exact absurd hfail (hmap hsome _ e)
  | ok child' =>
      obtain rfl := hexecs.reached child' hrun
      exact .spawn s k job stdin stdout stderr mappings (fun _ => .ok ()) true
        pid (pid + 1) (pid + 1) _ hjob hdone hreserved hstdio hparents hpid
        hne hne hrun

/-! ## Markers -/

/-- What the marker of a spawn tells. -/
structure Marks (naive : Prop) (s : Fleet) (k : Nat) : Prop where
  /-- Who holds it belongs to the tree. -/
  members : ∀ pid proc, s.procs pid = some proc →
    proc.table.Holds (.markerWrite k) → proc.tree = k
  /-- Who belongs to the tree holds it. -/
  complete : naive → ∀ pid proc, s.procs pid = some proc → proc.tree = k →
    proc.launch.prepared.marker ≠ none → proc.table.Holds (.markerWrite k)
  /-- No process holds the read end. -/
  unread : ∀ pid proc, s.procs pid = some proc →
    ¬ proc.table.Holds (.markerRead k)
  /-- The supervisor holds an end as long as it is its own, and lets no other
  child inherit it. -/
  supervisor : ∀ fd e, s.sup fd = some e →
    e.file = .markerWrite k ∨ e.file = .markerRead k →
    e.cloexec = true ∧ ∃ job, s.jobs k = some job ∧
      (job.fd .write = some fd ∨ job.fd .read = some fd)
  /-- Once the command is dropped, the write end is closed exactly where the
  tree is gone. -/
  drained : naive → (∀ job, s.jobs k = some job → job.fd .write = none) →
    ((¬ s.sup.Holds (.markerWrite k) ∧ ∀ pid proc, s.procs pid = some proc →
        ¬ proc.table.Holds (.markerWrite k)) ↔
      ∀ pid proc, s.procs pid = some proc → proc.tree = k →
        proc.launch.prepared.marker = none)

theorem Holds.marks {os : Os} {naive : Prop} {s : Fleet}
    (h : Holds os naive s) (k : Nat) : Marks naive s k := by
  have hmembers : ∀ pid proc, s.procs pid = some proc →
      proc.table.Holds (.markerWrite k) →
      k = proc.tree ∧ proc.launch.prepared.marker ≠ none :=
    fun pid proc hproc => (h.procs pid proc hproc).within .write k
  have hcomplete : naive → ∀ pid proc, s.procs pid = some proc →
      proc.tree = k → proc.launch.prepared.marker ≠ none →
      proc.table.Holds (.markerWrite k) := by
    rintro hnaive pid proc hproc rfl hmarker
    exact (h.procs pid proc hproc).keeps hnaive .write proc.tree ⟨rfl, hmarker⟩
  refine ⟨fun pid proc hproc hholds => (hmembers pid proc hproc hholds).1.symm,
    hcomplete, fun pid proc hproc => (h.procs pid proc hproc).within .read k,
    ?_, ?_⟩
  · intro fd e he hfile
    have hend : ∃ r, (r = .write ∨ r = .read) ∧ e.file = Resource.file r k := by
      obtain hfile | hfile := hfile
      · exact ⟨.write, .inl rfl, hfile⟩
      · exact ⟨.read, .inr rfl, hfile⟩
    obtain ⟨r, hr, hfile⟩ := hend
    obtain ⟨job, hjob, hfd⟩ := h.owned.owned r k fd e he hfile
    have hopen := h.owned.opened k job r fd hjob hfd
    rw [he] at hopen
    obtain rfl := Option.some.inj hopen
    obtain rfl | rfl := hr
    · exact ⟨rfl, job, hjob, .inl hfd⟩
    · exact ⟨rfl, job, hjob, .inr hfd⟩
  · intro hnaive hdropped
    constructor
    · rintro ⟨_, hnone⟩ pid proc hproc htree
      by_contra hmarker
      exact hnone pid proc hproc (hcomplete hnaive pid proc hproc htree hmarker)
    · refine fun hgone => ⟨?_, fun pid proc hproc hholds => ?_⟩
      · rintro ⟨fd, e, he, hfile⟩
        obtain ⟨job, hjob, hfd⟩ := h.owned.owned .write k fd e he hfile
        rw [hdropped job hjob] at hfd
        exact nomatch hfd
      · obtain ⟨htree, hmarker⟩ := hmembers pid proc hproc hholds
        exact hmarker (hgone pid proc hproc htree.symm)

/-- A marker tells the tree it was prepared for from all others, in every state
that the supervisor and the processes can reach. -/
theorem marker_holders (os : Os) (cf : CommandFds) (naive : Prop)
    (start s : Fleet) (hstart : Fresh start)
    (h : ReflTransGen (Step os cf naive) start s) (k : Nat) :
    Marks naive s k :=
  (hstart.reaches h).marks k

/-- The mapping, below a limit of descriptors. -/
abbrev mapper : CommandFds := Launch.assignFds 1024

/-- A supervisor with its stdio, and three ends for a child. -/
def quiet : Fleet where
  sup := fun fd => if fd < 6 then some ⟨.other fd, true⟩ else none
  jobs := fun _ => none
  procs := fun _ => none

theorem quiet_plain {fd : Nat} (h : fd < 6) : Plain quiet.sup fd :=
  ⟨fd, true, if_pos h⟩

theorem quiet_fresh : Fresh quiet where
  stdio := fun fd h => quiet_plain (by omega)
  plain := by
    intro fd e he
    simp only [quiet] at he
    split at he
    · exact ⟨fd, by rw [← Option.some.inj he]⟩
    · exact nomatch he
  jobs := fun _ => rfl
  procs := fun _ => rfl

/-- The three ends are still there. -/
theorem three_plain {t : Table File} (h3 : t 3 = quiet.sup 3)
    (h4 : t 4 = quiet.sup 4) (h5 : t 5 = quiet.sup 5) :
    ∀ fd ∈ [3, 4, 5], 3 ≤ fd ∧ Plain t fd := by
  simp only [List.forall_mem_cons]
  exact ⟨⟨by decide, 3, true, h3⟩, ⟨by decide, 4, true, h4⟩,
    ⟨by decide, 5, true, h5⟩, nofun⟩

/-- A contained root. -/
def rootJob : Job :=
  .begin (some .strongest) true false [] List.nodup_nil nofun

/-- Its marker. -/
theorem marker_runs : ∃ s, ReflTransGen (Step .macos mapper True) quiet s ∧
    ∃ proc, s.procs 100 = some proc ∧ proc.tree = 0 ∧
      proc.launch.prepared.marker = some ⟨0, 6, 64⟩ := by
  have hbegin : Step .macos mapper True quiet
      (quiet.setJob 0 rootJob) :=
    .begin quiet 0 (some .strongest) true false [] List.nodup_nil nofun rfl
  have hinstall :
      Step .macos mapper True (quiet.setJob 0 rootJob) _ :=
    .install _ 0 rootJob 6 7 64 rfl rfl rfl rfl ⟨rfl, rfl⟩ ⟨rfl, rfl, rfl⟩
      (by decide) (by decide) (by decide)
  have hrun := (ReflTransGen.single hbegin).tail hinstall
  have hspawn := (quiet_fresh.reaches hrun).spawns mapper 0 _ 3 4 5
    [] 100 rfl rfl rfl (three_plain rfl rfl rfl) nofun rfl (absurd rfl)
  exact ⟨_, hrun.tail hspawn, _, rfl, rfl, rfl⟩

theorem marker_holders_root : ∃ s : Fleet,
    (∃ proc, s.procs 100 = some proc ∧ proc.table.Holds (.markerWrite 0)) ∧
      Marks True s 0 := by
  obtain ⟨s, hrun, proc, hproc, htree, hmarker⟩ := marker_runs
  have hmarks := marker_holders .macos _ True _ s quiet_fresh hrun 0
  refine ⟨s, ⟨proc, hproc, ?_⟩, hmarks⟩
  apply hmarks.complete trivial 100 proc hproc htree
  rw [hmarker]
  exact Option.some_ne_none _

/-! ## Leaves -/

/-- Who holds the `cgroup.procs` of a spawn's leaf. -/
structure Shares (naive : Prop) (s : Fleet) (k : Nat) : Prop where
  /-- Nobody in the leaf's own tree, and of the others only where the leaf was
  open as the root was spawned. -/
  others : ∀ pid proc, s.procs pid = some proc →
    proc.table.Holds (.procs k) → proc.tree ≠ k ∧
      ∃ fd, proc.atFork fd = some ⟨.procs k, false⟩ ∧
        fd ∉ proc.launch.reserved
  /-- All of these inherit it. -/
  inherited : naive → ∀ pid proc fd, s.procs pid = some proc →
    proc.tree ≠ k → proc.atFork fd = some ⟨.procs k, false⟩ →
    fd ∉ proc.launch.reserved → proc.table.Holds (.procs k)
  /-- The supervisor has it open exactly as long as the leaf is held. -/
  supervisor : s.sup.Holds (.procs k) ↔
    ∃ job fd, s.jobs k = some job ∧ job.fd .procs = some fd

theorem Holds.shares {os : Os} {naive : Prop} {s : Fleet}
    (h : Holds os naive s) (k : Nat) : Shares naive s k where
  others := fun pid proc hproc hholds =>
    have hgiven := (h.procs pid proc hproc).within .procs k hholds
    ⟨hgiven.1.symm, hgiven.2⟩
  inherited := fun hnaive pid proc fd hproc htree hopen hclear =>
    (h.procs pid proc hproc).keeps hnaive .procs k
      ⟨htree.symm, fd, hopen, hclear⟩
  supervisor := by
    constructor
    · rintro ⟨fd, e, he, hfile⟩
      obtain ⟨job, hjob, hfd⟩ := h.owned.owned .procs k fd e he hfile
      exact ⟨job, fd, hjob, hfd⟩
    · rintro ⟨job, fd, hjob, hfd⟩
      exact ⟨fd, _, h.owned.opened k job .procs fd hjob hfd, rfl⟩

/-- The `cgroup.procs` that places a child in its leaf is closed in the child,
but a child that is spawned while another's leaf is held inherits that one's. -/
theorem procs_holders (os : Os) (cf : CommandFds) (naive : Prop)
    (start s : Fleet) (hstart : Fresh start)
    (h : ReflTransGen (Step os cf naive) start s) (k : Nat) :
    Shares naive s k :=
  (hstart.reaches h).shares k

/-- Two leaves and their children, one after the other. -/
theorem leaf_runs : ∃ s, ReflTransGen (Step .linux mapper True) quiet s ∧
    ∃ proc, s.procs 101 = some proc ∧ proc.tree = 1 ∧
      proc.atFork 6 = some ⟨.procs 0, false⟩ ∧ proc.launch.reserved = [] := by
  have hbegin : Step .linux mapper True quiet
      (quiet.setJob 0 rootJob) :=
    .begin quiet 0 (some .strongest) true false [] List.nodup_nil nofun rfl
  have hleaf : Step .linux mapper True (quiet.setJob 0 rootJob) _ :=
    .tryCreateLeaf _ 0 rootJob 6 rfl rfl rfl rfl rfl rfl
  have hrun := (ReflTransGen.single hbegin).tail hleaf
  have hspawn := (quiet_fresh.reaches hrun).spawns mapper 0 _ 3 4 5
    [] 100 rfl rfl rfl (three_plain rfl rfl rfl) nofun rfl (absurd rfl)
  have hrun := hrun.tail hspawn
  have hrun := hrun.tail (.begin _ 1 (some .strongest) true false []
    List.nodup_nil nofun rfl)
  have hrun := hrun.tail (.tryCreateLeaf _ 1 rootJob 7 rfl rfl rfl rfl rfl rfl)
  have hspawn := (quiet_fresh.reaches hrun).spawns mapper 1 _ 3 4 5
    [] 101 rfl rfl rfl (three_plain rfl rfl rfl) nofun rfl (absurd rfl)
  exact ⟨_, hrun.tail hspawn, _, rfl, rfl, rfl, rfl⟩

theorem procs_holders_sibling : ∃ s : Fleet, ∃ proc,
    s.procs 101 = some proc ∧ proc.tree = 1 ∧
      proc.table.Holds (.procs 0) := by
  obtain ⟨s, hrun, proc, hproc, htree, hopen, hreserved⟩ := leaf_runs
  have hshares := procs_holders .linux _ True _ s quiet_fresh hrun 0
  refine ⟨s, proc, hproc, htree, ?_⟩
  apply hshares.inherited trivial 101 proc 6 hproc _ hopen
  · rw [hreserved]
    exact List.not_mem_nil
  · rw [htree]
    decide

end Cosca.Ports.SpawnFleet


