import Cosca.Ports.JobAttachment

/-!
# A spawn and its job

`attach_tree`, the identity of the child and what `spawn_unelevated` and
`spawn_raw` do with a child that they cannot hand out.

## Main results

* `spawnTail_outcome`: whatever the flags of a spawn, its child is not left
  suspended and its tree is not left in part outside of the job.
-/

namespace Cosca.Ports.AttachJob

open Cosca.Ports.CommandRecord
open Cosca.Ports.Errors
open Cosca.Ports.Identity
open Cosca.Ports.ChildRelease (Attached Containment)
open Cosca.Ports.CreationFlags
open Cosca.Verified.Flags

section Spawn

variable {pid : RawPid} {job : Option Handle} {hs : List Handle}
  {given : Prop} {ids : List UInt32} {k : Host} {h : Handle}

/-! ## The whole spawn -/

/-- A child as `CreateProcess` has left it, suspended or not. -/
structure Launched (pid : RawPid) (suspended : Bool) (k : Host) : Prop where
  frozen : suspended = true → Frozen pid k
  awoken : suspended = false → Awoken pid k
  distinct : Distinct k
  deserted : Deserted k
  closed : ∀ h, k.handles h = none
  clean : k.failures = []

/-- The job that is attached. -/
def jobOf : Attached → Option Handle
  | .jobObject ⟨some job⟩ => some job
  | _ => none

/-- What is attached fits what was prepared, and is reported as what it is. -/
def Fits (prepared : Prepared) : Containment → Attached → Prop
  | .none, .none => prepared.mode = none
  | .delegated, .delegated =>
      prepared.mode ≠ none ∧ prepared.isRoot = false
  | .jobObject, .jobObject ⟨some _⟩ => prepared.isRoot = true ∧
      prepared.mode ≠ none ∧ prepared.mode ≠ some .treeWalk
  | .treeWalk, .treeWalk _ => prepared.isRoot = true ∧ prepared.mode ≠ none
  | _, _ => False

/-- The child runs, with all of its tree in the job if one is attached. -/
abbrev Runs (pid : RawPid) (attached : Attached) : Host → Prop :=
  Walking pid (jobOf attached) (jobOf attached).toList True []

/-- What an attachment amounts to. -/
def TreeAttached (pid : RawPid) (prepared : Prepared) :
    Except Error (Containment × Attached) → Host → Prop :=
  Replied Abandoned fun r k => Fits prepared r.1 r.2 ∧ Runs pid r.2 k

theorem stable_launched (suspended : Bool) :
    (spawning pid).Stable (Launched pid suspended) := by
  intro k k' hmove hk
  have hmoved := hmove.moved
  exact ⟨fun h => stable_frozen k k' hmove (hk.frozen h),
    fun h => stable_heldIn [] k k' hmove (hk.awoken h),
    stable_distinct k k' hmove hk.distinct,
    stable_deserted k k' hmove hk.deserted, hmoved.handles ▸ hk.closed,
    hmoved.failures ▸ hk.clean⟩

theorem Launched.suspended (hk : Launched pid true k) : Suspended pid k :=
  ⟨hk.frozen rfl, hk.distinct, hk.deserted, hk.closed⟩

theorem Launched.runs (hk : Launched pid false k) :
    Walking pid none [] True [] k :=
  ⟨hk.distinct, hk.deserted, fun h hopen => absurd (hk.closed h) hopen,
    fun _ => hk.awoken rfl⟩

theorem treeWalk_attaches {prepared : Prepared}
    (hroot : prepared.isRoot = true) (hmode : prepared.mode ≠ none) :
    (treeWalk pid).Guarantees (spawning pid) (Walking pid none [] True [])
      (TreeAttached pid prepared) := by
  have hresolve : (resolveRootId pid).Guarantees (spawning pid)
      (Walking pid none [] True [])
      fun _ => Walking pid none [] True [] := by
    refine .query_bind (fun _ => Walking pid none [] True []) stable_walking
      ?_ fun id => ?_
    · intro k reply k' hanswer hk
      obtain rfl : k' = k := hanswer
      exact hk
    · cases id <;> exact .pure stable_walking fun k hk => hk
  refine .bind _ hresolve fun id => .pure stable_walking fun k hk => ?_
  cases id with
  | error e => exact hk.abandoned
  | ok id => exact ⟨⟨hroot, hmode⟩, hk⟩

/-- Whether a child is created suspended for this. -/
def suspends (prepared : Prepared) : Bool :=
  prepared.isRoot && prepared.mode.isSome && prepared.mode != some .treeWalk

/-- A child is attached as it was prepared, and no child stays suspended. -/
theorem attachTree_attaches (text : IoError → String) (prepared : Prepared) :
    (attachTree text pid prepared).Guarantees (spawning pid)
      (Launched pid (suspends prepared)) (TreeAttached pid prepared) := by
  obtain ⟨mode, isRoot, graceful⟩ := prepared
  cases mode with
  | none =>
      have hrunning : suspends ⟨none, isRoot, graceful⟩ = false := by
        cases isRoot <;> rfl
      rw [hrunning]
      exact .pure (stable_launched false) fun k hk => ⟨rfl, hk.runs⟩
  | some mode =>
      cases isRoot with
      | false =>
          exact .pure (stable_launched false) fun k hk =>
            ⟨⟨Option.some_ne_none mode, rfl⟩, hk.runs⟩
      | true =>
          by_cases hmode : mode = .treeWalk
          · subst hmode
            refine (treeWalk_attaches rfl (Option.some_ne_none _)).conseq
              (fun k hk => ?_) fun _ _ hk => hk
            exact Launched.runs hk
          · have hsuspended : suspends ⟨some mode, true, graceful⟩ = true := by
              cases mode <;> first | rfl | exact absurd rfl hmode
            rw [hsuspended]
            simp only [attachTree, if_neg hmode, if_true]
            refine .bind (Attempted pid)
              (attachJob_attempts.conseq (fun k hk => hk.suspended)
                fun _ _ hk => hk) fun job => ?_
            cases job with
            | error e => exact .pure stable_abandoned fun k hk => hk
            | ok job =>
                cases job with
                | none => exact treeWalk_attaches rfl (Option.some_ne_none _)
                | some job =>
                    refine .pure stable_walking fun k hk => ⟨⟨rfl,
                      Option.some_ne_none _, fun h => hmode ?_⟩, hk⟩
                    exact Option.some.inj h

/-- The child is gone, or it could not be killed or waited for. -/
def Gone (pid : RawPid) (backend : SpawnBackend) (k : Host) : Prop :=
  k.processes pid = none ∨ .wait ∈ k.failures ∨
    backend = .raw ∧ .kill ∈ k.failures

theorem stable_gone (backend : SpawnBackend) :
    (spawning pid).Stable (Gone pid backend) := by
  refine stable_of fun k k' h hk => ?_
  rw [Gone, h.failures]
  refine hk.imp_left fun hnone => Option.eq_none_iff_forall_ne_some.mpr ?_
  intro p hp
  obtain hp | ⟨hne, _⟩ := h.process pid p hp
  · exact absurd (hnone.symm.trans hp) (Option.some_ne_none p).symm
  · exact hne rfl

theorem wait_goes (backend : SpawnBackend) :
    (do let _ ← call .wait; return () : Attaching Unit).Guarantees
      (spawning pid) (fun _ => True) fun _ => Gone pid backend := by
  refine .query_bind (fun _ => Gone pid backend) (fun _ _ _ h => h) ?_
    fun _ => .pure (stable_gone backend) fun _ hk => hk
  intro k reply k' hanswer _
  cases reply with
  | ok _ => exact .inl (hanswer.2 ▸ hanswer.1)
  | error e =>
      obtain rfl : k' = k.fail .wait := hanswer
      exact .inr (.inl (List.mem_append_right _ List.mem_cons_self))

/-- A child that is torn down is gone. -/
theorem teardown_goes (backend : SpawnBackend) :
    (teardown backend).Guarantees (spawning pid) (fun _ => True)
      fun _ => Gone pid backend := by
  refine .query_bind (Replied (fun k => .kill ∈ k.failures) fun _ _ => True)
    (fun _ _ _ h => h) ?_ fun killed => ?_
  · intro k reply k' hanswer _
    cases reply with
    | ok _ => exact trivial
    | error e =>
        obtain rfl : k' = k.fail .kill := hanswer
        exact List.mem_append_right _ List.mem_cons_self
  · cases killed with
    | ok _ => cases backend <;> exact wait_goes _
    | error e =>
        cases backend with
        | std =>
            exact (wait_goes .std).conseq (fun _ _ => trivial) fun _ _ h => h
        | raw =>
            have hstable : (spawning pid).Stable
                fun k => Failure.kill ∈ k.failures :=
              stable_of fun k k' h hk => h.failures ▸ hk
            exact .pure hstable fun k hk => .inr (.inr ⟨rfl, hk⟩)

/-- The calls that only end things, the close of a handle among them or not. -/
def IsEnding (closes : Prop) : AttachCall → Prop
  | .kill | .wait => True
  | .closeHandle _ => closes
  | _ => False

/-- A condition that failures do not break, nor the close of a handle if there
is one, is kept while things are ended. -/
theorem ending_keeps {closes : Prop} {p : Attaching Unit}
    (hasks : p.Asks (IsEnding closes)) {cond : Host → Prop}
    (hstable : (spawning pid).Stable cond)
    (hclose : closes → ∀ k h, cond k → cond (k.close h))
    (hfail : ∀ k failure, cond k → cond (k.fail failure)) :
    p.Guarantees (spawning pid) cond fun _ => cond := by
  refine .frame (IsEnding closes) hasks hstable ?_
  intro q hok k reply k' hanswer hk
  cases q with
  | closeHandle h =>
      cases reply with
      | ok _ => exact (show k' = k.close h from hanswer) ▸ hclose hok k h hk
      | error e =>
          exact (show k' = k.fail (.close h) from hanswer) ▸ hfail k _ hk
  | kill =>
      cases reply with
      | ok _ => exact (show k' = k from hanswer) ▸ hk
      | error e =>
          exact (show k' = k.fail .kill from hanswer) ▸ hfail k _ hk
  | wait =>
      cases reply with
      | ok _ => exact hanswer.2 ▸ hk
      | error e =>
          exact (show k' = k.fail .wait from hanswer) ▸ hfail k _ hk
  | _ => exact hok.elim

theorem teardown_asks (backend : SpawnBackend) :
    (teardown backend).Asks (IsEnding False) := by
  refine ⟨trivial, fun killed => ?_⟩
  cases backend <;> cases killed <;>
    first | exact trivial | exact ⟨trivial, fun _ => trivial⟩

theorem dropAttached_asks (attached : Attached) :
    (dropAttached attached).Asks (IsEnding True) := by
  unfold dropAttached
  split
  · exact ⟨trivial, fun _ => trivial⟩
  · exact trivial

/-- What is attached is given up. -/
theorem dropAttached_abandons (attached : Attached) :
    (dropAttached attached).Guarantees (spawning pid) (Runs pid attached)
      fun _ => Abandoned := by
  unfold dropAttached
  split
  · next job =>
      exact close_abandons.conseq (fun k hk => Walking.closing hk)
        fun _ _ hk => hk
  · next hnone =>
      have hjob : jobOf attached = none := by
        unfold jobOf
        split
        · next job => exact absurd rfl (hnone job)
        · rfl
      refine .pure stable_walking fun k hk => ?_
      rw [Runs, hjob] at hk
      exact hk.abandoned

/-- What a spawn amounts to: a child that runs, attached as it was prepared and
with its whole tree in the job if it has one; or nothing that it would still
hold, with a child that is gone unless the adoption failed. -/
def Outcome (pid : RawPid) (backend : SpawnBackend) (prepared : Prepared) :
    Except Error (ProcessId × Attachment) → Host → Prop :=
  Replied
    (fun k => Abandoned k ∧ (Gone pid backend k ∨
      .adopt ∈ k.failures ∧ Awoken pid k))
    fun r k => r.2.graceful = prepared.graceful ∧
      Fits prepared r.2.containment r.2.attached ∧ Runs pid r.2.attached k

variable {prepared : Prepared} {attachment : Attachment}

theorem Gone.fail {backend : SpawnBackend} (hk : Gone pid backend k)
    (failure : Failure) : Gone pid backend (k.fail failure) :=
  hk.imp id (Or.imp (List.mem_append_left _)
    (And.imp_right (List.mem_append_left _)))

/-- A child whose identity is unknown is given up with what is attached. -/
theorem unidentified (backend : SpawnBackend) (e : Error) :
    (do teardown backend
        dropAttached attachment.attached
        return .error e :
      Attaching (Except Error (ProcessId × Attachment))).Guarantees
      (spawning pid) (Runs pid attachment.attached)
      (Outcome pid backend prepared) := by
  have hruns : (teardown backend).Guarantees (spawning pid)
      (Runs pid attachment.attached) fun _ => Runs pid attachment.attached :=
    ending_keeps (teardown_asks backend) stable_walking False.elim
      fun k failure hk => ⟨hk.distinct, hk.standing.fail failure,
        hk.holding.fail failure, hk.held⟩
  have hgone : (dropAttached attachment.attached).Guarantees (spawning pid)
      (Gone pid backend) fun _ => Gone pid backend :=
    ending_keeps (dropAttached_asks attachment.attached) (stable_gone backend)
      (fun _ _ _ hk => hk) fun k failure hk => hk.fail failure
  have htorn := (hruns.and (teardown_goes backend)).conseq
    (fun k (hk : Runs pid attachment.attached k) => ⟨hk, trivial⟩)
    fun _ _ hk => hk
  refine htorn.bind _ fun _ => ?_
  refine ((dropAttached_abandons attachment.attached).and hgone).bind _
    fun _ => ?_
  exact .pure (stable_abandoned.and (stable_gone backend))
    fun k hk => ⟨hk.1, .inl hk.2⟩

/-- A child that could not be adopted; it runs. -/
def Unadopted (pid : RawPid) (k : Host) : Prop :=
  .adopt ∈ k.failures ∧ Awoken pid k

theorem stable_unadopted : (spawning pid).Stable (Unadopted pid) :=
  (stable_of fun _ _ h hk => h.failures ▸ hk :
    (spawning pid).Stable fun k => Failure.adopt ∈ k.failures).and
    (stable_heldIn [])

theorem adopt_runs (backend : SpawnBackend) {attached : Attached} :
    (adopt backend).Guarantees (spawning pid) (Runs pid attached)
      (Replied (fun k => Runs pid attached k ∧ Unadopted pid k)
        fun _ => Runs pid attached) := by
  cases backend with
  | raw => exact .pure stable_walking fun k hk => hk
  | std =>
      refine .ask (Replied (fun k => Runs pid attached k ∧ Unadopted pid k)
        fun _ => Runs pid attached) stable_walking ?_ fun reply => ?_
      · intro k reply k' hanswer hk
        cases reply with
        | ok _ =>
            obtain rfl : k' = k := hanswer
            exact hk
        | error e =>
            obtain rfl : k' = k.fail .adopt := hanswer
            exact ⟨⟨hk.distinct, hk.standing.fail _, hk.holding.fail _,
              hk.held⟩, List.mem_append_right _ List.mem_cons_self,
              hk.held trivial⟩
      · cases reply with
        | ok _ => exact .pure stable_walking fun k hk => hk
        | error e =>
            exact .pure (stable_walking.and stable_unadopted) fun k hk => hk

/-- A child that could not be adopted is given up with what is attached. -/
theorem unadopted (backend : SpawnBackend) (e : Error) :
    (do dropAttached attachment.attached
        return .error e :
      Attaching (Except Error (ProcessId × Attachment))).Guarantees
      (spawning pid)
      (fun k => Runs pid attachment.attached k ∧ Unadopted pid k)
      (Outcome pid backend prepared) := by
  have hkept : (dropAttached attachment.attached).Guarantees (spawning pid)
      (Unadopted pid) fun _ => Unadopted pid :=
    ending_keeps (dropAttached_asks attachment.attached) stable_unadopted
      (fun _ _ _ hk => hk)
      fun k failure hk => ⟨List.mem_append_left _ hk.1, hk.2⟩
  refine ((dropAttached_abandons attachment.attached).and hkept).bind _
    fun _ => ?_
  exact .pure (stable_abandoned.and stable_unadopted)
    fun k hk => ⟨hk.1, .inr hk.2⟩

theorem identify_outcome (backend : SpawnBackend)
    (hgraceful : attachment.graceful = prepared.graceful)
    (hfits : Fits prepared attachment.containment attachment.attached) :
    (identify backend pid attachment).Guarantees (spawning pid)
      (Runs pid attachment.attached) (Outcome pid backend prepared) := by
  refine .query_bind (fun _ => Runs pid attachment.attached) stable_walking
    ?_ fun id => ?_
  · intro k reply k' hanswer hk
    obtain rfl : k' = k := hanswer
    exact hk
  cases id with
  | gone => exact unidentified backend _
  | unknown => exact unidentified backend _
  | found id =>
      refine (adopt_runs backend).bind _ fun adopted => ?_
      cases adopted with
      | ok _ => exact .pure stable_walking fun k hk => ⟨hgraceful, hfits, hk⟩
      | error e => exact unadopted backend _

theorem spawnTail_guarantees (text : IoError → String) (backend : SpawnBackend)
    (prepared : Prepared) :
    (spawnTail text backend pid prepared).Guarantees (spawning pid)
      (Launched pid (suspends prepared)) (Outcome pid backend prepared) := by
  have hattach : (attach text pid prepared).Guarantees (spawning pid)
      (Launched pid (suspends prepared))
      (Replied Abandoned fun attachment k =>
        attachment.graceful = prepared.graceful ∧
          Fits prepared attachment.containment attachment.attached ∧
          Runs pid attachment.attached k) := by
    refine (attachTree_attaches text prepared).bind _ fun tree => ?_
    cases tree with
    | error e => exact .pure stable_abandoned fun k hk => hk
    | ok tree =>
        refine .given fun hfits => ?_
        exact .pure stable_walking fun k hk => ⟨rfl, hfits, hk⟩
  refine hattach.bind _ fun attachment => ?_
  cases attachment with
  | error e =>
      have habandoned : (teardown backend).Guarantees (spawning pid)
          Abandoned fun _ => Abandoned :=
        ending_keeps (teardown_asks backend) stable_abandoned False.elim
          fun k failure hk => ⟨hk.tree.imp_right (And.imp_right
            (Or.imp_right fun ⟨job, hopen, hclose⟩ =>
              ⟨job, hopen, List.mem_append_left _ hclose⟩)),
            hk.holding.fail failure⟩
      have htorn := (habandoned.and (teardown_goes backend)).conseq
        (fun k (hk : Abandoned k) => ⟨hk, trivial⟩) fun _ _ hk => hk
      refine htorn.bind _ fun _ => ?_
      exact .pure (stable_abandoned.and (stable_gone backend))
        fun k hk => ⟨hk.1, .inl hk.2⟩
  | ok attachment =>
      refine .given fun hgraceful => .given fun hfits => ?_
      exact identify_outcome backend hgraceful hfits

end Spawn

/-- Whatever flags a spawn was accepted with and whatever else runs on the host,
its child is not left suspended and its tree is not left with a part in the job
and a part outside. -/
theorem spawnTail_outcome (text : IoError → String) (contain : ContainRequest)
    (flags : FlagsRequest) (isRoot : Bool) (backend : SpawnBackend)
    (spawn : WindowsSpawn) (pid : RawPid) (k k' : Host)
    (r : Except Error (ProcessId × Attachment))
    (h : windowsSpawn contain flags isRoot backend = .ok spawn)
    (hk : Launched pid (has spawn.creationFlags createSuspended) k)
    (hrun : (spawnTail text backend pid ⟨contain.mode, isRoot,
      mechanismFromFlags spawn.creationFlags⟩).RunsOn (spawning pid) k r k') :
    Outcome pid backend ⟨contain.mode, isRoot, mechanismFor contain flags⟩ r
      k' := by
  obtain ⟨_, hword, _, hmechanism⟩ := windowsSpawn_accepts h
  rw [hmechanism] at hrun
  refine spawnTail_guarantees text backend _ k r k' hrun ?_
  rw [hword.suspended] at hk
  exact hk

/-- A child with one thread, that was created suspended. -/
def sampleHost : Host where
  processes := fun pid => if pid = 7 then some ⟨true, false⟩ else none
  threads := fun key => if key = 0 then some ⟨11, 7, true⟩ else none
  job := none
  handles := fun _ => none
  failures := []

theorem sample_threads {key : Nat} {t : Thread}
    (h : sampleHost.threads key = some t) : key = 0 ∧ t = ⟨11, 7, true⟩ := by
  simp only [sampleHost] at h
  split at h
  · next hkey =>
      cases h
      exact ⟨hkey, rfl⟩
  · cases h

theorem sample_process {n : RawPid} {p : Process}
    (h : sampleHost.processes n = some p) : n = 7 ∧ p = ⟨true, false⟩ := by
  simp only [sampleHost] at h
  split at h
  · next hpid =>
      cases h
      exact ⟨hpid, rfl⟩
  · cases h

theorem sample_launched : Launched 7 true sampleHost := by
  constructor
  · refine fun _ => ⟨fun n p hp _ => (sample_process hp).1,
      fun key t ht _ => ?_⟩
    rw [(sample_threads ht).2]
  · exact fun h => absurd h.symm Bool.false_ne_true
  · intro key key' t t' ht ht' _
    exact (sample_threads ht).1.trans (sample_threads ht').1.symm
  · intro n p hp
    rw [(sample_process hp).2]
  · exact fun _ => rfl
  · rfl

/-- The same child in its job. -/
def sampleAssigned : Host :=
  Host.assign { sampleHost.open 1 .job with
    job := some ⟨jobObjectLimitKillOnJobClose, false⟩ } 7

/-- It in its job, as the walk opens its thread. -/
def sampleOpened : Host :=
  (sampleAssigned.open 2 .snapshot).open 3 (.thread 0)

theorem sample_runs : ∃ k', (spawnTail (fun _ => "") .std 7
    ⟨some .strongest, true, .consoleGroup⟩).RunsOn (spawning 7) sampleHost
    (.ok (⟨7, 1⟩, ⟨.jobObject, .jobObject ⟨some 1⟩, .consoleGroup⟩)) k' := by
  have hcreate : (spawning 7).serves sampleHost .createJobObject
      (Except.ok (1 : Handle))
      { sampleHost.open 1 .job with job := some ⟨0, false⟩ } := ⟨rfl, rfl⟩
  have hset : (spawning 7).serves
      { sampleHost.open 1 .job with job := some ⟨0, false⟩ }
      (.setInformationJobObject 1 jobObjectLimitKillOnJobClose) (Except.ok ())
      { sampleHost.open 1 .job with
        job := some ⟨jobObjectLimitKillOnJobClose, false⟩ } := ⟨rfl, rfl⟩
  have hassign : (spawning 7).serves
      { sampleHost.open 1 .job with
        job := some ⟨jobObjectLimitKillOnJobClose, false⟩ }
      (.assignProcessToJobObject 1) (Except.ok ()) sampleAssigned := ⟨rfl, rfl⟩
  have hpid : (spawning 7).serves sampleAssigned .getProcessId (7 : RawPid)
      sampleAssigned := ⟨rfl, rfl⟩
  have hsnapshot : (spawning 7).serves sampleAssigned .createToolhelp32Snapshot
      (Except.ok (⟨2, [⟨11, 7⟩], endOfWalk⟩ : Snapshot))
      (sampleAssigned.open 2 .snapshot) := by
    refine ⟨rfl, rfl, fun entry hentry => ?_, fun _ key t ht => ?_⟩
    · cases List.mem_singleton.mp hentry
      exact ⟨0, ⟨11, 7, true⟩, rfl, rfl⟩
    · obtain ⟨_, rfl⟩ := sample_threads ht
      exact List.mem_cons_self
  have hopen : (spawning 7).serves (sampleAssigned.open 2 .snapshot)
      (.openThread 11) (Except.ok (3 : Handle)) sampleOpened :=
    ⟨rfl, 0, ⟨11, 7, true⟩, rfl, rfl, rfl⟩
  have hresume : (spawning 7).serves sampleOpened (.resumeThread 3) (1 : UInt32)
      (sampleOpened.wake 0) := ⟨0, rfl, rfl⟩
  have hclose (k : Host) (h : Handle) : (spawning 7).serves k (.closeHandle h)
      (Except.ok ()) (k.close h) := rfl
  have hidentity (k : Host) : (spawning 7).serves k (.identityOf 7)
      (Resolved.found (⟨7, 1⟩ : ProcessId)) k := rfl
  have hadopt (k : Host) : (spawning 7).serves k .adopt (Except.ok ()) k := rfl
  exact ⟨_, .ask _ hcreate (.ask _ hset (.ask _ hassign (.ask _ hpid
    (.ask _ hsnapshot (.ask _ hopen (.ask _ hresume (.ask _ (hclose _ 3)
      (.ask _ (hclose _ 2) (.ask _ (hidentity _) (.ask _ (hadopt _)
        (.done _ _)))))))))))⟩

/-- The child that was created suspended is handed out in its job. -/
theorem spawnTail_outcome_sample : ∃ (spawn : WindowsSpawn) (k' : Host),
    has spawn.creationFlags createSuspended = true ∧
      Outcome 7 .std ⟨some .strongest, true, .consoleGroup⟩
        (.ok (⟨7, 1⟩, ⟨.jobObject, .jobObject ⟨some 1⟩, .consoleGroup⟩))
        k' := by
  have hspawn : windowsSpawn ⟨some .strongest, .mark⟩
      ⟨false, false, false, 0⟩ true .std = .ok ⟨rootFlags, true⟩ := by
    have hraw : has 0 managed = false := has_zero managed
    simp only [windowsSpawn, reservedBitsIn_isEmpty, hraw]
    rfl
  have hsuspended : has rootFlags createSuspended = true := by decide
  have hlaunched : Launched 7 (has rootFlags createSuspended) sampleHost := by
    rw [hsuspended]
    exact sample_launched
  obtain ⟨k', hrun⟩ := sample_runs
  exact ⟨⟨rootFlags, true⟩, k', hsuspended, spawnTail_outcome (fun _ => "") _ _
    true .std _ 7 sampleHost k' _ hspawn hlaunched hrun⟩

end Cosca.Ports.AttachJob


