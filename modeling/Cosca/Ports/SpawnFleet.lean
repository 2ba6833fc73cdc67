import Cosca.Ports.ForkedExec

/-!
# A supervisor and its spawns

A supervisor and everything its spawns have started, over any interleaving of
its threads: leaves and markers are prepared, children are spawned, handles are
dropped in any order, and the processes of the trees fork, `exec`, close and
duplicate descriptors.

The `cgroup.procs` of a leaf is opened to survive `exec` and stays open in the
supervisor as long as the leaf is held; an end of a marker's pipe closes at
`exec`, except in the child that it was prepared for.

A child is seen from its `exec` on, and a thread that forks by other means than
a spawn not at all.
-/

namespace Cosca.Ports.SpawnFleet

open Cosca.Ports.CommandRecord
open Cosca.Ports.Errors (IoError)
open Cosca.Ports.ForkedChild
open Cosca.Verified.Descriptors

/-! ## The supervisor -/

/-- A descriptor that the containment opens in the supervisor. -/
inductive Resource where
  /-- The `cgroup.procs` of a leaf. -/
  | procs
  /-- The write end of a marker. -/
  | write
  /-- The read end of a marker. -/
  | read
  deriving DecidableEq

/-- What it is open on, for the spawn of this number. -/
def Resource.file : Resource → Nat → File
  | .procs => .procs
  | .write => .markerWrite
  | .read => .markerRead

/-- Whether it closes at `exec`. -/
def Resource.cloexec : Resource → Bool
  | .procs => false
  | .write | .read => true

theorem Resource.file_inj {r r' : Resource} {k k' : Nat}
    (h : r.file k = r'.file k') : r = r' ∧ k = k' := by
  cases r <;> cases r' <;> simp_all [Resource.file]

theorem Resource.file_ne_other (r : Resource) (k id : Nat) :
    r.file k ≠ .other id := by
  cases r <;> nofun

/-- A spawn and the handle it leaves: the descriptors of its containment that
are open, and whether its child was forked or given up. -/
structure Job where
  mode : Option ContainMode
  isRoot : Bool
  suppressed : Bool
  reserved : List Nat
  fd : Resource → Option Nat
  done : Bool
  nodup : reserved.Nodup
  above : ∀ fd ∈ reserved, 3 ≤ fd

/-- A spawn that has prepared nothing yet. -/
def Job.begin (mode : Option ContainMode) (isRoot suppressed : Bool)
    (reserved : List Nat) (nodup : reserved.Nodup)
    (above : ∀ fd ∈ reserved, 3 ≤ fd) : Job :=
  ⟨mode, isRoot, suppressed, reserved, fun _ => none, false, nodup, above⟩

/-- One descriptor of the containment is open. -/
def Job.own (job : Job) (r : Resource) (fd : Nat) : Job :=
  { job with fd := fun r' => if r' = r then some fd else job.fd r' }

/-- One descriptor of the containment is closed. -/
def Job.disown (job : Job) (r : Resource) : Job :=
  { job with
    fd := fun r' => if r' = r then none else job.fd r'
    done := true }

/-- The launch of a spawn, by the descriptors of its child. -/
def Job.launch (job : Job) (os : Os) (k stdin stdout stderr : Nat)
    (mappings : List FdMapping) : Launch where
  os := os
  mode := job.mode
  isRoot := job.isRoot
  suppressed := job.suppressed
  stdin := stdin
  stdout := stdout
  stderr := stderr
  mappings := mappings
  leaf := (job.fd .procs).map (⟨k, ·⟩)
  marker := (job.fd .read).bind fun readFd =>
    (job.fd .write).map (⟨k, readFd, ·⟩)

/-- The descriptors of `try_create_leaf`. -/
def openLeaf (t : Table File) (k fd : Nat) : Table File :=
  (t.open fd (.procs k) true).setCloexec fd false

/-- The descriptors of `install`: `pipe`, then `place_write_end`. -/
def openMarker (t : Table File) (k readFd writeFd placedFd : Nat) :
    Table File :=
  (((t.open readFd (.markerRead k) true).open writeFd (.markerWrite k)
    true).dupCloexec writeFd placedFd).close writeFd

/-! ## The fleet -/

/-- A process of a tree: which spawn its root came from, how that was launched
and from which descriptors, and its own. -/
structure Proc where
  tree : Nat
  launch : Launch
  atFork : Table File
  table : Table File

/-- The supervisor's descriptors and spawns, and the processes below it. -/
structure Fleet where
  sup : Table File
  jobs : Nat → Option Job
  procs : Nat → Option Proc

/-- Another state of one spawn. -/
def Fleet.setJob (s : Fleet) (k : Nat) (job : Job) : Fleet :=
  { s with jobs := fun n => if n = k then some job else s.jobs n }

/-- Another state of one process. -/
def Fleet.setProc (s : Fleet) (pid : Nat) (proc : Option Proc) : Fleet :=
  { s with procs := fun n => if n = pid then proc else s.procs n }

/-- A descriptor that is none of the containment's. -/
def Plain (t : Table File) (fd : Nat) : Prop :=
  ∃ id cloexec, t fd = some ⟨.other id, cloexec⟩

/-- What a process may make of its descriptors: it opens none of the
containment's, and closes none if it is `naive`. -/
structure Acts (naive : Prop) (t t' : Table File) : Prop where
  within : ∀ r k, t'.Holds (Resource.file r k) → t.Holds (r.file k)
  keeps : naive → ∀ r k, t.Holds (Resource.file r k) → t'.Holds (r.file k)

/-- A step of the supervisor or of a process. -/
inductive Step (os : Os) (cf : CommandFds) (naive : Prop) :
    Fleet → Fleet → Prop where
  | begin (s : Fleet) (k : Nat) (mode : Option ContainMode)
      (isRoot suppressed : Bool) (reserved : List Nat)
      (nodup : reserved.Nodup) (above : ∀ fd ∈ reserved, 3 ≤ fd)
      (hjob : s.jobs k = none) :
      Step os cf naive s
        (s.setJob k (.begin mode isRoot suppressed reserved nodup above))
  | tryCreateLeaf (s : Fleet) (k : Nat) (job : Job) (fd : Nat)
      (hos : os = .linux) (hjob : s.jobs k = some job)
      (hdone : job.done = false) (hwanted : leafWanted job.mode job.isRoot)
      (hnew : job.fd .procs = none) (hfree : s.sup fd = none) :
      Step os cf naive s
        { s.setJob k (job.own .procs fd) with sup := openLeaf s.sup k fd }
  | install (s : Fleet) (k : Nat) (job : Job)
      (readFd writeFd placedFd : Nat) (hos : os = .macos)
      (hjob : s.jobs k = some job) (hdone : job.done = false)
      (hwanted : markerWanted job.mode job.isRoot job.suppressed)
      (hnew : job.fd .read = none ∧ job.fd .write = none)
      (hfree : s.sup readFd = none ∧ s.sup writeFd = none ∧
        s.sup placedFd = none)
      (hne : readFd ≠ writeFd ∧ placedFd ≠ readFd ∧ placedFd ≠ writeFd)
      (hplaced : safeMarkerFd writeFd job.reserved ≤ placedFd)
      (hmax : placedFd < rawFdMax) :
      Step os cf naive s
        { s.setJob k ((job.own .read readFd).own .write placedFd) with
          sup := openMarker s.sup k readFd writeFd placedFd }
  | spawn (s : Fleet) (k : Nat) (job : Job) (stdin stdout stderr : Nat)
      (mappings : List FdMapping) (std : StdStep → Except IoError Unit)
      (admits : Bool) (pid pgid sid : Nat) (child : Forked)
      (hjob : s.jobs k = some job) (hdone : job.done = false)
      (hreserved : mappings.map (·.childFd) = job.reserved)
      (hstdio : ∀ fd ∈ [stdin, stdout, stderr], 3 ≤ fd ∧ Plain s.sup fd)
      (hparents : ∀ x ∈ mappings, 3 ≤ x.parentFd ∧ Plain s.sup x.parentFd)
      (hpid : s.procs pid = none) (hpgid : pgid ≠ pid) (hsid : sid ≠ pid)
      (hexec : (job.launch os k stdin stdout stderr mappings).command.doExec
        cf std admits ⟨pid, pgid, sid, none, s.sup, []⟩ = .ok child) :
      Step os cf naive s
        ((s.setJob k { job with done := true }).setProc pid (some
          ⟨k, job.launch os k stdin stdout stderr mappings, s.sup,
            child.table⟩))
  | drop (s : Fleet) (k : Nat) (job : Job) (r : Resource) (fd : Nat)
      (hjob : s.jobs k = some job) (hfd : job.fd r = some fd) :
      Step os cf naive s
        { s.setJob k (job.disown r) with sup := s.sup.close fd }
  | open (s : Fleet) (fd id : Nat) (cloexec : Bool) (hfree : s.sup fd = none) :
      Step os cf naive s { s with sup := s.sup.open fd (.other id) cloexec }
  | close (s : Fleet) (fd : Nat) (hfd : 3 ≤ fd) (hplain : Plain s.sup fd) :
      Step os cf naive s { s with sup := s.sup.close fd }
  | fork (s : Fleet) (pid pid' : Nat) (proc : Proc)
      (hproc : s.procs pid = some proc) (hnew : s.procs pid' = none) :
      Step os cf naive s (s.setProc pid' (some proc))
  | act (s : Fleet) (pid : Nat) (proc : Proc) (t : Table File)
      (hproc : s.procs pid = some proc) (hacts : Acts naive proc.table t) :
      Step os cf naive s (s.setProc pid (some { proc with table := t }))
  | exit (s : Fleet) (pid : Nat) : Step os cf naive s (s.setProc pid none)

/-- A supervisor that has spawned nothing: no descriptor is the containment's,
and the stdio is open. -/
structure Fresh (s : Fleet) : Prop where
  stdio : ∀ fd < 3, Plain s.sup fd
  plain : ∀ fd e, s.sup fd = some e → ∃ id, e.file = .other id
  jobs : ∀ k, s.jobs k = none
  procs : ∀ pid, s.procs pid = none

/-! ## What the supervisor owns -/

/-- The containment's descriptors in the supervisor are those of its jobs. -/
structure Owned (s : Fleet) : Prop where
  stdio : ∀ fd < 3, Plain s.sup fd
  opened : ∀ k job r fd, s.jobs k = some job → job.fd r = some fd →
    s.sup fd = some ⟨r.file k, r.cloexec⟩
  owned : ∀ r k fd e, s.sup fd = some e → e.file = Resource.file r k →
    ∃ job, s.jobs k = some job ∧ job.fd r = some fd

theorem Fresh.owned {s : Fleet} (h : Fresh s) : Owned s where
  stdio := h.stdio
  opened := by
    intro k job r fd hjob
    rw [h.jobs k] at hjob
    exact nomatch hjob
  owned := by
    intro r k fd e he hfile
    obtain ⟨id, hid⟩ := h.plain fd e he
    exact absurd (hfile.symm.trans hid) (r.file_ne_other k id)

theorem Plain.ne_file {t : Table File} {fd : Nat} {e : Entry File}
    (h : Plain t fd) (he : t fd = some e) (r : Resource) (k : Nat) :
    e.file ≠ r.file k := by
  obtain ⟨id, cloexec, hid⟩ := h
  rw [hid] at he
  obtain rfl := Option.some.inj he
  exact (r.file_ne_other k id).symm

section Owned

variable {s : Fleet} {k : Nat} {job : Job} {r : Resource} {fd : Nat}

@[simp]
theorem Fleet.setJob_self : (s.setJob k job).jobs k = some job :=
  if_pos rfl

theorem Fleet.setJob_ne {n : Nat} (h : n ≠ k) :
    (s.setJob k job).jobs n = s.jobs n :=
  if_neg h

/-- Whoever owns a number still does where the job that is replaced keeps
it. -/
theorem Fleet.owner_setJob {n : Nat} {job' : Job}
    (hkeeps : n = k → ∀ job, s.jobs n = some job → job.fd r = some fd →
      job'.fd r = some fd)
    (h : ∃ job, s.jobs n = some job ∧ job.fd r = some fd) :
    ∃ job, (s.setJob k job').jobs n = some job ∧ job.fd r = some fd := by
  obtain ⟨job, hn, hfd⟩ := h
  by_cases hk : n = k
  · subst hk
    exact ⟨job', Fleet.setJob_self, hkeeps rfl job hn hfd⟩
  · exact ⟨job, (Fleet.setJob_ne hk).trans hn, hfd⟩

theorem Fleet.setJob_setJob (job' : Job) :
    (s.setJob k job).setJob k job' = s.setJob k job' := by
  simp only [Fleet.setJob, Fleet.mk.injEq, true_and, and_true]
  funext n
  split <;> rfl

/-- A job that changes none of its descriptors. -/
theorem Owned.setJob (hs : Owned s) (job' : Job)
    (hjob : ∀ r fd, job'.fd r = some fd ↔
      ∃ job, s.jobs k = some job ∧ job.fd r = some fd) :
    Owned (s.setJob k job') where
  stdio := hs.stdio
  opened := by
    intro n job r fd hn hfd
    by_cases h : n = k
    · rw [h, Fleet.setJob_self] at hn
      obtain rfl := Option.some.inj hn
      obtain ⟨job, hk, hold⟩ := (hjob r fd).mp hfd
      exact h ▸ hs.opened k job r fd hk hold
    · rw [Fleet.setJob_ne h] at hn
      exact hs.opened n job r fd hn hfd
  owned := by
    intro r n fd e he hfile
    refine Fleet.owner_setJob ?_ (hs.owned r n fd e he hfile)
    rintro rfl job hn hfd
    exact (hjob r fd).mpr ⟨job, hn, hfd⟩

/-- A free number is taken for a job. -/
theorem Owned.own (hs : Owned s) (hjob : s.jobs k = some job)
    (hnew : job.fd r = none) (hfree : s.sup fd = none) :
    Owned { s.setJob k (job.own r fd) with
      sup := s.sup.put fd (some ⟨r.file k, r.cloexec⟩) } where
  stdio := by
    intro n hn
    have hne : n ≠ fd := by
      rintro rfl
      obtain ⟨id, cloexec, hid⟩ := hs.stdio n hn
      rw [hfree] at hid
      exact nomatch hid
    obtain ⟨id, cloexec, hid⟩ := hs.stdio n hn
    exact ⟨id, cloexec, (Table.put_ne _ _ hne).trans hid⟩
  opened := by
    intro n job' r' fd' hn hfd'
    have hold : ∀ job, s.jobs n = some job → job.fd r' = some fd' →
        s.sup.put fd (some ⟨r.file k, r.cloexec⟩) fd' =
          some ⟨r'.file n, r'.cloexec⟩ := by
      intro job hn hfd'
      have hopen := hs.opened n job r' fd' hn hfd'
      have hne : fd' ≠ fd := by
        rintro rfl
        rw [hfree] at hopen
        exact nomatch hopen
      exact (Table.put_ne _ _ hne).trans hopen
    by_cases h : n = k
    · subst h
      rw [Fleet.setJob_self] at hn
      obtain rfl := Option.some.inj hn
      simp only [Job.own] at hfd'
      split at hfd'
      · next heq =>
          obtain rfl := Option.some.inj hfd'
          rw [heq]
          exact Table.put_self ..
      · exact hold job hjob hfd'
    · rw [Fleet.setJob_ne h] at hn
      exact hold job' hn hfd'
  owned := by
    intro r' n fd' e he hfile
    by_cases h : fd' = fd
    · subst h
      simp only [Table.put_self] at he
      obtain rfl := Option.some.inj he
      obtain ⟨rfl, rfl⟩ := Resource.file_inj hfile
      exact ⟨_, Fleet.setJob_self, if_pos rfl⟩
    · simp only [Table.put_ne _ _ h] at he
      refine Fleet.owner_setJob ?_ (hs.owned r' n fd' e he hfile)
      rintro rfl job' hn hfd'
      obtain rfl : job' = job := Option.some.inj (hn.symm.trans hjob)
      by_cases hr : r' = r
      · rw [hr, hnew] at hfd'
        exact nomatch hfd'
      · exact (if_neg hr).trans hfd'

/-- A job closes a descriptor of its own. -/
theorem Owned.disown (hs : Owned s) (hjob : s.jobs k = some job)
    (hfd : job.fd r = some fd) :
    Owned { s.setJob k (job.disown r) with sup := s.sup.close fd } where
  stdio := by
    intro n hn
    have hne : n ≠ fd := by
      rintro rfl
      exact (hs.stdio n hn).ne_file (hs.opened k job r n hjob hfd) r k rfl
    obtain ⟨id, cloexec, hid⟩ := hs.stdio n hn
    exact ⟨id, cloexec, (Table.put_ne _ _ hne).trans hid⟩
  opened := by
    intro n job' r' fd' hn hfd'
    have hold : ∀ job', s.jobs n = some job' → job'.fd r' = some fd' →
        ¬ (n = k ∧ r' = r) →
        s.sup.close fd fd' = some ⟨r'.file n, r'.cloexec⟩ := by
      intro job' hn hfd' hother
      have hopen := hs.opened n job' r' fd' hn hfd'
      have hne : fd' ≠ fd := by
        rintro rfl
        have hsame := hs.opened k job r fd' hjob hfd
        rw [hopen] at hsame
        have hentry := Option.some.inj hsame
        have hfile := congrArg Entry.file hentry
        obtain ⟨hr, hn⟩ := Resource.file_inj hfile
        exact hother ⟨hn, hr⟩
      exact (Table.put_ne _ _ hne).trans hopen
    by_cases h : n = k
    · subst h
      rw [Fleet.setJob_self] at hn
      obtain rfl := Option.some.inj hn
      simp only [Job.disown] at hfd'
      split at hfd'
      · exact absurd hfd'.symm (Option.some_ne_none fd')
      · next hr => exact hold job hjob hfd' fun hboth => hr hboth.2
    · rw [Fleet.setJob_ne h] at hn
      exact hold job' hn hfd' fun hboth => h hboth.1
  owned := by
    intro r' n fd' e he hfile
    have hne : fd' ≠ fd := by
      rintro rfl
      simp only [Table.close, Table.put_self] at he
      exact absurd he.symm (Option.some_ne_none e)
    simp only [Table.close, Table.put_ne _ _ hne] at he
    refine Fleet.owner_setJob ?_ (hs.owned r' n fd' e he hfile)
    rintro rfl job' hn hfd'
    obtain rfl : job' = job := Option.some.inj (hn.symm.trans hjob)
    by_cases hr : r' = r
    · rw [hr, hfd] at hfd'
      exact absurd (Option.some.inj hfd').symm hne
    · exact (if_neg hr).trans hfd'

/-- A descriptor that is nobody's comes or goes. -/
theorem Owned.putPlain (hs : Owned s) {e : Option (Entry File)}
    (hbefore : ∀ e, s.sup fd = some e → ∃ id, e.file = .other id)
    (hafter : ∀ e', e = some e' → ∃ id, e'.file = .other id)
    (hstdio : fd < 3 → e ≠ none) :
    Owned { s with sup := s.sup.put fd e } where
  stdio := by
    intro n hn
    by_cases h : n = fd
    · subst h
      obtain ⟨e', he'⟩ := Option.ne_none_iff_exists'.mp (hstdio hn)
      obtain ⟨id, hid⟩ := hafter e' he'
      refine ⟨id, e'.cloexec, (Table.put_self ..).trans ?_⟩
      rw [he', ← hid]
    · obtain ⟨id, cloexec, hid⟩ := hs.stdio n hn
      exact ⟨id, cloexec, (Table.put_ne _ _ h).trans hid⟩
  opened := by
    intro n job r' fd' hn hfd'
    have hopen := hs.opened n job r' fd' hn hfd'
    have hne : fd' ≠ fd := by
      rintro rfl
      obtain ⟨id, hid⟩ := hbefore _ hopen
      exact r'.file_ne_other n id hid
    exact (Table.put_ne _ _ hne).trans hopen
  owned := by
    intro r' n fd' e' he' hfile
    by_cases h : fd' = fd
    · subst h
      simp only [Table.put_self] at he'
      obtain ⟨id, hid⟩ := hafter e' he'
      exact absurd (hfile.symm.trans hid) (r'.file_ne_other n id)
    · simp only [Table.put_ne _ _ h] at he'
      exact hs.owned r' n fd' e' he' hfile

end Owned

end Cosca.Ports.SpawnFleet
