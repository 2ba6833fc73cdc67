import Cosca.Ports.ThreadWalk

/-!
# The attachment of the job

`assign_to_kill_on_close_job` puts the whole tree into the job before any of it
has run, and `attach_job` gives the tree up with the job if its threads cannot
be resumed.

## Main results

* `attachJob_attempts`: a suspended child runs with its whole tree in the job or
  without a job, or it is given up with whoever is in the job.
-/

namespace Cosca.Ports.AttachJob

open Cosca.Ports.Identity
open Cosca.Verified.Flags

section Attachment

variable {pid : RawPid} {job : Option Handle} {hs : List Handle}
  {given : Prop} {ids : List UInt32} {k : Host} {h : Handle}

/-! ## The assignment -/

/-- A child that was created suspended, by a spawn that has nothing open. -/
structure Suspended (pid : RawPid) (k : Host) : Prop where
  frozen : Frozen pid k
  distinct : Distinct k
  deserted : Deserted k
  closed : ∀ h, k.handles h = none

theorem stable_suspended : (spawning pid).Stable (Suspended pid) := by
  intro k k' hmove hk
  exact ⟨stable_frozen k k' hmove hk.frozen,
    stable_distinct k k' hmove hk.distinct,
    stable_deserted k k' hmove hk.deserted,
    hmove.moved.handles ▸ hk.closed⟩

theorem Suspended.walking (hk : Suspended pid k) :
    Walking pid none [] False [] k :=
  ⟨hk.distinct, hk.deserted, fun h hopen => absurd (hk.closed h) hopen,
    False.elim⟩

/-- The child is still suspended, and the job is there with these limits. -/
structure Created (pid : RawPid) (job : Handle) (limits : UInt32) (k : Host) :
    Prop where
  frozen : Frozen pid k
  distinct : Distinct k
  deserted : Deserted k
  handles : k.handles = Function.update (fun _ => none) job (some .job)
  object : k.job = some ⟨limits, false⟩

theorem stable_created (job : Handle) (limits : UInt32) :
    (spawning pid).Stable (Created pid job limits) := by
  intro k k' hmove hk
  exact ⟨stable_frozen k k' hmove hk.frozen,
    stable_distinct k k' hmove hk.distinct,
    stable_deserted k k' hmove hk.deserted,
    hmove.moved.handles ▸ hk.handles, hmove.moved.job ▸ hk.object⟩

section Created

variable {limits : UInt32} {j : Handle}

theorem Created.eq_of_open (hk : Created pid j limits k)
    (hopen : k.handles h ≠ none) : h = j := by
  rw [hk.handles, Function.update_apply] at hopen
  split at hopen
  · assumption
  · exact absurd rfl hopen

theorem Created.holding (hk : Created pid j limits k) : Holding [j] k :=
  fun _ hopen => .inl (List.mem_singleton.mpr (hk.eq_of_open hopen))

theorem Created.walking (hk : Created pid j limits k) :
    Walking pid none [j] False [] k :=
  ⟨hk.distinct, hk.deserted, hk.holding, False.elim⟩

/-- The child is put into the job before it has run, and so is its tree. -/
theorem Created.assign (hk : Created pid j limits k)
    (hkills : has limits jobObjectLimitKillOnJobClose = true) :
    Walking pid (some j) [j] False [] (k.assign pid) := by
  refine ⟨hk.distinct, ⟨fun n p hp htree => ?_, ?_, ?_, ?_⟩, hk.holding,
    False.elim⟩
  · simp only [Host.assign, Function.update_apply] at hp
    split at hp
    · obtain ⟨q, _, rfl⟩ := Option.map_eq_some_iff.mp hp
      rfl
    · next hne => exact absurd (hk.frozen.tree n p hp htree) hne
  · exact (congrFun hk.handles j).trans (Function.update_self ..)
  · intro h hopen
    refine hk.eq_of_open fun hnone => ?_
    exact absurd (hopen.symm.trans hnone) (Option.some_ne_none _)
  · exact ⟨_, hk.object, hkills, rfl⟩

end Created

/-- What is left of an assignment that failed. -/
theorem close_created {j : Handle} {limits : UInt32} {e : IoError} :
    (do close j; return (.error e) :
        Attaching (Except IoError Handle)).Guarantees (spawning pid)
      (Created pid j limits)
      fun r => Walking pid r.toOption r.toOption.toList False [] := by
  have hclose : (close j).Guarantees (spawning pid) (Created pid j limits)
      fun _ => Walking pid none [] False [] :=
    (close_walks fun hnone => absurd hnone.symm
      (Option.some_ne_none _)).conseq (fun k hk => hk.walking)
        fun _ _ hk => hk
  exact hclose.bind _ fun _ => .pure stable_walking fun k hk => hk

/-- The job has the whole tree of the suspended child, or nobody. -/
theorem assignToKillOnCloseJob_walks :
    assignToKillOnCloseJob.Guarantees (spawning pid) (Suspended pid)
      fun r => Walking pid r.toOption r.toOption.toList False [] := by
  refine .query_bind (Replied (Walking pid none [] False [])
    fun job => Created pid job 0) stable_suspended ?_ fun created => ?_
  · intro k reply k' hanswer hk
    cases reply with
    | error e =>
        obtain rfl : k' = k := hanswer
        exact hk.walking
    | ok job =>
        obtain ⟨_, rfl⟩ := hanswer
        refine ⟨⟨hk.frozen.tree, hk.frozen.held⟩, hk.distinct, hk.deserted, ?_,
          rfl⟩
        exact congrArg (Function.update · job (some .job)) (funext hk.closed)
  cases created with
  | error e => exact .pure stable_walking fun k hk => hk
  | ok job =>
      refine .query_bind (Replied (Created pid job 0)
        fun _ => Created pid job jobObjectLimitKillOnJobClose)
        (stable_created job 0) ?_ fun set => ?_
      · intro k reply k' hanswer hk
        cases reply with
        | error e =>
            obtain rfl : k' = k := hanswer
            exact hk
        | ok _ =>
            obtain ⟨_, rfl⟩ := hanswer
            refine ⟨⟨hk.frozen.tree, hk.frozen.held⟩, hk.distinct, hk.deserted,
              hk.handles, ?_⟩
            exact congrArg (Option.map _) hk.object
      cases set with
      | error e => exact close_created
      | ok _ =>
          refine .query_bind (Replied
            (Created pid job jobObjectLimitKillOnJobClose)
            fun _ => Walking pid (some job) [job] False [])
            (stable_created job _) ?_ fun assigned => ?_
          · intro k reply k' hanswer hk
            cases reply with
            | error e =>
                obtain rfl : k' = k := hanswer
                exact hk
            | ok _ =>
                obtain ⟨_, rfl⟩ := hanswer
                exact hk.assign (by decide)
          cases assigned with
          | error e => exact close_created
          | ok _ => exact .pure stable_walking fun k hk => hk

/-! ## The attachment of the job -/

/-- Windows kills whoever is in the job: it was terminated, or its last handle
was closed while it kills on close. -/
def Doomed (k : Host) : Prop :=
  ∃ j, k.job = some j ∧ (j.terminated = true ∨
    has j.limits jobObjectLimitKillOnJobClose = true ∧
      ∀ h, k.handles h ≠ some .job)

/-- The handle of the job did not close. -/
def Lost (k : Host) : Prop :=
  ∃ job, k.handles job = some .job ∧ .close job ∈ k.failures

/-- What a failed spawn leaves of a job: nobody was ever in it, or the whole
tree is and is killed; no handle is left but those that did not close. -/
structure Abandoned (k : Host) : Prop where
  tree : Deserted k ∨ InJob k ∧ (Doomed k ∨ Lost k)
  holding : Holding [] k

theorem stable_abandoned : (spawning pid).Stable Abandoned := by
  intro k k' hmove hk
  have hmoved := hmove.moved
  refine ⟨hk.tree.imp (stable_deserted k k' hmove) fun h => ?_,
    stable_holding [] k k' hmove hk.holding⟩
  rw [Doomed, Lost, hmoved.job, hmoved.handles, hmoved.failures]
  exact ⟨stable_inJob k k' hmove h.1, h.2⟩

theorem Walking.abandoned (hk : Walking pid none [] given ids k) :
    Abandoned k :=
  ⟨.inl hk.standing, hk.holding⟩

/-- The handle of the job is about to be closed. -/
structure Closing (job : Handle) (k : Host) : Prop where
  inJob : InJob k
  isOpen : k.handles job = some .job
  alone : ∀ h, k.handles h = some .job → h = job
  kills : ∃ j, k.job = some j ∧
    has j.limits jobObjectLimitKillOnJobClose = true
  holding : Holding [job] k

theorem stable_closing (job : Handle) :
    (spawning pid).Stable (Closing job) := by
  intro k k' hmove hk
  have hmoved := hmove.moved
  exact ⟨stable_inJob k k' hmove hk.inJob, hmoved.handles ▸ hk.isOpen,
    hmoved.handles ▸ hk.alone, hmoved.job ▸ hk.kills,
    stable_holding _ k k' hmove hk.holding⟩

theorem Walking.closing {j : Handle}
    (hk : Walking pid (some j) [j] given ids k) : Closing j k := by
  obtain ⟨hin, harmed⟩ := hk.standing
  obtain ⟨obj, hobj, hkills, _⟩ := harmed.kills
  exact ⟨hin, harmed.isOpen, harmed.alone, ⟨obj, hobj, hkills⟩, hk.holding⟩

/-- The close of the last handle kills the tree. -/
theorem close_abandons {j : Handle} :
    (close j).Guarantees (spawning pid) (Closing j) fun _ => Abandoned := by
  refine .query_bind (fun _ => Abandoned) (stable_closing j) ?_ fun _ =>
    .pure stable_abandoned fun _ hk => hk
  intro k reply k' hanswer hk
  obtain ⟨obj, hobj, hkills⟩ := hk.kills
  cases reply with
  | ok _ =>
      obtain rfl : k' = k.close j := hanswer
      refine ⟨.inr ⟨hk.inJob, .inl ⟨obj, hobj, .inr ⟨hkills,
        fun h hopen => ?_⟩⟩⟩, hk.holding.close⟩
      simp only [Host.close, Function.update_apply] at hopen
      split at hopen
      · cases hopen
      · next hne => exact hne (hk.alone h hopen)
  | error e =>
      obtain rfl : k' = k.fail (.close j) := hanswer
      exact ⟨.inr ⟨hk.inJob, .inr ⟨j, hk.isOpen,
        List.mem_append_right _ List.mem_cons_self⟩⟩, hk.holding.leak⟩

theorem hardKill_abandons (j : Handle) :
    (hardKill j).Guarantees (spawning pid)
      (Walking pid (some j) [j] given ids) fun _ => Abandoned := by
  refine .query_bind (fun _ => Closing j) stable_walking ?_ fun reply => ?_
  · intro k reply k' hanswer hk
    have hclosing := hk.closing
    cases reply with
    | ok _ =>
        obtain ⟨_, rfl⟩ := hanswer
        obtain ⟨obj, hobj, hkills⟩ := hclosing.kills
        exact ⟨hclosing.inJob, hclosing.isOpen, hclosing.alone,
          ⟨{ obj with terminated := true }, congrArg (Option.map _) hobj,
            hkills⟩, hclosing.holding⟩
    | error e =>
        obtain rfl : k' = k.fail .terminate := hanswer
        exact ⟨hclosing.inJob, hclosing.isOpen, hclosing.alone, hclosing.kills,
          hclosing.holding.fail _⟩
  · exact .bind (fun _ => Abandoned) close_abandons fun _ =>
      .pure stable_abandoned fun _ hk => hk

/-- What an attached job amounts to. -/
def Attempted (pid : RawPid) : Except IoError (Option Handle) → Host → Prop :=
  Replied Abandoned fun job => Walking pid job job.toList True []

/-- Whatever else runs on the host, a suspended child is attached to a job with
its whole tree and runs, or it runs without a job, or it is given up with
whoever is in the job. -/
theorem attachJob_attempts :
    attachJob.Guarantees (spawning pid) (Suspended pid) (Attempted pid) := by
  refine .bind (fun r => Walking pid r.toOption r.toOption.toList False [])
    assignToKillOnCloseJob_walks fun job => ?_
  refine .bind (fun r => Walking pid job.toOption job.toOption.toList
    (r = .ok ()) []) resumeInitialThreads_walks fun resumed => ?_
  cases resumed with
  | error e =>
      refine .bind (fun _ => Abandoned) ?_ fun _ =>
        .pure stable_abandoned fun _ hk => hk
      cases job with
      | error e => exact .pure stable_walking fun k hk => hk.abandoned
      | ok job =>
          refine .bind (fun _ => Abandoned) (hardKill_abandons job) fun _ =>
            .pure stable_abandoned fun _ hk => hk
  | ok _ =>
      refine .pure stable_walking fun k hk => ?_
      exact ⟨hk.distinct, hk.standing, hk.holding, fun _ => hk.held rfl⟩

end Attachment

end Cosca.Ports.AttachJob
