import Cosca.Ports.ChildRelease

/-!
# What an opted-out release kills

A handle opts out of the teardown by `kill_on_drop(false)` or by `detach`.
`Drop for Child` then returns early, but the drops of its fields follow:
`CgroupLeaf` writes `cgroup.kill` when its leaf cannot be removed, and the job
closes with `KILL_ON_JOB_CLOSE` set unless `detach` disarmed it.

## Main results

* `release_spares_iff`: after any session of operations that kill nothing, the
  release of an opted-out handle spares everybody exactly where no one is left
  in the leaf, or in a job that was not disarmed.
-/

namespace Cosca.Ports.DetachKills

open Cosca.Ports.CommandRecord
open Cosca.Ports.Errors
open Cosca.Ports.Identity
open Cosca.Ports.ChildRelease
open Cosca.Verified.Interact

/-! ## The kernel -/

/-- The kernel's side of one child: the leaf and the job it may have, the live
members of its tree inside and outside of them, and whom a kill was delivered
to. -/
structure Kernel where
  leafPath : String
  leafPresent : Bool
  job : UInt64
  killOnJobClose : Bool
  inside : List ProcessId
  outside : List ProcessId
  killed : List ProcessId

/-- Every member inside is delivered a kill; it exits in its own time. -/
def Kernel.killInside (k : Kernel) : Kernel :=
  { k with killed := k.killed ++ k.inside }

/-- The kernel's answers.  An occupied leaf is not removed, `1` written to
`cgroup.kill` kills the leaf, the last close of a job kills it while the limit
is set, and the limit can be changed. -/
def Kernel.serves (k : Kernel) : (q : Question) → Answer q → Kernel → Prop
  | .removeDir path, answer, k' =>
      if path = k.leafPath ∧ k.leafPresent = true ∧ k.inside = [] then
        answer = .ok () ∧ k' = { k with leafPresent := false }
      else answer ≠ .ok () ∧ k' = k
  | .write path contents, answer, k' =>
      if path = k.leafPath ++ "/cgroup.kill" ∧ contents = "1" ∧
          k.leafPresent = true then
        answer = .ok () ∧ k' = k.killInside
      else answer ≠ .ok () ∧ k' = k
  | .setJobLimits job limit, answer, k' =>
      if job = k.job then
        answer = .ok () ∧ k' = { k with killOnJobClose := limit }
      else k' = k
  | .terminateJob job _, _, k' =>
      if job = k.job then k' = k.killInside else k' = k
  | .closeJob job, _, k' =>
      if job = k.job ∧ k.killOnJobClose = true then k' = k.killInside
      else k' = k
  | .killTree, _, k' =>
      k' = { k with killed := k.killed ++ k.inside ++ k.outside }
  | .teardownOnDrop id, _, k' => k' = { k with killed := k.killed ++ [id] }
  | _, _, k' => k' = k

/-- What happens meanwhile: members exit, fork and leave, and an empty leaf may
be removed by others. -/
inductive Kernel.Moves : Kernel → Kernel → Prop where
  | exit (k : Kernel) (id : ProcessId) :
      Moves k { k with
        inside := k.inside.filter (· != id)
        outside := k.outside.filter (· != id) }
  | forkInside (k : Kernel) (parent child : ProcessId)
      (hparent : parent ∈ k.inside) :
      Moves k { k with inside := child :: k.inside }
  | forkOutside (k : Kernel) (parent child : ProcessId)
      (hparent : parent ∈ k.outside) :
      Moves k { k with outside := child :: k.outside }
  | leave (k : Kernel) (id : ProcessId) (hid : id ∈ k.inside) :
      Moves k { k with
        inside := k.inside.filter (· != id)
        outside := id :: k.outside }
  | reclaim (k : Kernel) (hempty : k.inside = []) :
      Moves k { k with leafPresent := false }

/-- The kernel as an environment of the handle. -/
def kernel : Environment Answer Kernel where
  serves := Kernel.serves
  moves := Kernel.Moves

/-! ## Sessions -/

/-- An operation that kills nothing. -/
inductive Op where
  | wait
  | tryWait
  | waitDeadline (deadline : Nat)
  | isAlive
  | waitTree (deadline : Option Nat)
  | fdWriteEnd (fd : Fd)
  | fdReadEnd (fd : Fd)

/-- The operation, by the handle it leaves. -/
def Op.run (os : String) (c : Child) : Op → Releasing Child
  | .wait => do
      let _ ← c.wait
      return c
  | .tryWait => do
      let _ ← c.tryWait
      return c
  | .waitDeadline deadline => do
      let _ ← c.waitDeadline deadline
      return c
  | .isAlive => do
      let _ ← c.isAlive
      return c
  | .waitTree deadline => do
      let _ ← c.waitTree os deadline
      return c
  | .fdWriteEnd fd => return (c.fdWriteEnd fd).2
  | .fdReadEnd fd => return (c.fdReadEnd fd).2

/-- A sequence of operations. -/
def session (os : String) (ops : List Op) (c : Child) : Releasing Child :=
  ops.foldlM (Op.run os) c

/-- The end of a handle: it is detached or dropped. -/
def release (c : Child) (detached : Bool) : Releasing Unit :=
  if detached then c.detach else c.drop

/-- The kernel has just spawned the child: nobody was killed, the leaf is
there, the job is armed. -/
structure Spawned (c : Child) (k : Kernel) : Prop where
  unharmed : k.killed = []
  leaf : ∀ leaf, c.attached = .cgroup leaf →
    k.leafPath = leaf.leafPath ∧ k.leafPresent = true
  job : ∀ job, c.attached = .jobObject job →
    job.raw = some k.job ∧ k.killOnJobClose = true

/-- Nobody is where the field drops kill: in the leaf, or in a job that was
not disarmed. -/
def Vacant (c : Child) (detached : Bool) (k : Kernel) : Prop :=
  match c.attached with
  | .cgroup _ => k.inside = []
  | .jobObject _ => detached = true ∨ k.inside = []
  | _ => True

/-! ## A session changes nothing -/

/-- What a session keeps. -/
structure Held (c : Child) (k : Kernel) : Prop where
  unharmed : k.killed = []
  leaf : ∀ leaf, c.attached = .cgroup leaf →
    k.leafPath = leaf.leafPath ∧ (k.leafPresent = true ∨ k.inside = [])
  job : ∀ job, c.attached = .jobObject job →
    job.raw = some k.job ∧ k.killOnJobClose = true

theorem Spawned.held {c : Child} {k : Kernel} (h : Spawned c k) : Held c k where
  unharmed := h.unharmed
  leaf := fun leaf hleaf => ⟨(h.leaf leaf hleaf).1, .inl (h.leaf leaf hleaf).2⟩
  job := h.job

/-- Nobody enters an empty leaf or job. -/
theorem Kernel.Moves.inside {k k' : Kernel} (h : Kernel.Moves k k')
    (hempty : k.inside = []) : k'.inside = [] := by
  cases h with
  | exit id =>
      show k.inside.filter _ = []
      rw [hempty]
      rfl
  | forkInside parent child hparent =>
      rw [hempty] at hparent
      cases hparent
  | forkOutside parent child hparent => exact hempty
  | leave id hid =>
      rw [hempty] at hid
      cases hid
  | reclaim _ => exact hempty

/-- The kernel neither kills nor rearms by itself. -/
theorem Kernel.Moves.same {k k' : Kernel} (h : Kernel.Moves k k') :
    k'.killed = k.killed ∧ k'.leafPath = k.leafPath ∧ k'.job = k.job ∧
      k'.killOnJobClose = k.killOnJobClose := by
  cases h <;> exact ⟨rfl, rfl, rfl, rfl⟩

theorem Held.moves {c : Child} {k k' : Kernel} (hmove : Kernel.Moves k k')
    (h : Held c k) : Held c k' := by
  obtain ⟨hkilled, hpath, hjob, hlimit⟩ := hmove.same
  refine
    { unharmed := hkilled.trans h.unharmed
      leaf := ?_
      job := ?_ }
  · intro leaf hleaf
    obtain ⟨hleafPath, hleaf⟩ := h.leaf leaf hleaf
    refine ⟨hpath.trans hleafPath, ?_⟩
    rcases hleaf with hpresent | hempty
    · cases hmove with
      | reclaim hempty => exact .inr hempty
      | _ => exact .inl hpresent
    · exact .inr (hmove.inside hempty)
  · intro job hattached
    obtain ⟨hraw, harmed⟩ := h.job job hattached
    rw [hjob, hlimit]
    exact ⟨hraw, harmed⟩

/-- The questions of a session. -/
def Idle : Question → Prop
  | .wait _ | .tryWait _ | .waitDeadline .. | .isRunning _ => True
  | .waitDrained _ => True
  | _ => False

theorem serves_idle {q : Question} (hq : Idle q) {k k' : Kernel}
    {answer : Answer q} (h : kernel.serves k q answer k') : k' = k := by
  cases q with
  | wait id => exact h
  | tryWait id => exact h
  | waitDeadline id deadline => exact h
  | isRunning id => exact h
  | waitDrained deadline => exact h
  | _ => exact hq.elim

theorem fdWriteEnd_attached (c : Child) (fd : Fd) :
    (c.fdWriteEnd fd).2.attached = c.attached ∧
      (c.fdWriteEnd fd).2.killOnDrop = c.killOnDrop := by
  unfold Child.fdWriteEnd
  split <;> exact ⟨rfl, rfl⟩

theorem fdReadEnd_attached (c : Child) (fd : Fd) :
    (c.fdReadEnd fd).2.attached = c.attached ∧
      (c.fdReadEnd fd).2.killOnDrop = c.killOnDrop := by
  unfold Child.fdReadEnd
  split <;> exact ⟨rfl, rfl⟩

theorem opRun_asks (os : String) (c : Child) (op : Op) :
    (op.run os c).Asks Idle := by
  cases op with
  | wait => exact ⟨trivial, fun _ => trivial⟩
  | tryWait => exact ⟨trivial, fun _ => trivial⟩
  | waitDeadline deadline => exact ⟨trivial, fun _ => trivial⟩
  | isAlive => exact ⟨trivial, fun _ => trivial⟩
  | waitTree deadline =>
      show Prog.Asks Idle (c.waitTree os deadline >>= fun _ => pure c)
      unfold Child.waitTree
      split
      · exact ⟨trivial, fun _ => trivial⟩
      · trivial
  | fdWriteEnd fd => trivial
  | fdReadEnd fd => trivial

/-- An operation leaves a handle with the same containment. -/
theorem opRun_attached {os : String} {c c' : Child} {op : Op} {k k' : Kernel}
    (h : (op.run os c).RunsOn kernel k c' k') :
    c'.attached = c.attached ∧ c'.killOnDrop = c.killOnDrop := by
  have hsame : ∀ {α : Type} {p : Releasing α},
      Prog.RunsOn kernel (p >>= fun _ => pure c) k c' k' →
      c'.attached = c.attached ∧ c'.killOnDrop = c.killOnDrop := by
    intro α p hp
    obtain ⟨_, _, _, hrest⟩ := hp.of_bind
    rw [hrest.of_pure]
    exact ⟨rfl, rfl⟩
  cases op with
  | wait => exact hsame h
  | tryWait => exact hsame h
  | waitDeadline deadline => exact hsame h
  | isAlive => exact hsame h
  | waitTree deadline => exact hsame h
  | fdWriteEnd fd =>
      rw [Prog.RunsOn.of_pure h]
      exact fdWriteEnd_attached c fd
  | fdReadEnd fd =>
      rw [Prog.RunsOn.of_pure h]
      exact fdReadEnd_attached c fd

theorem session_held {os : String} (ops : List Op) :
    ∀ {c c' : Child} {k k' : Kernel},
      (session os ops c).RunsOn kernel k c' k' → Held c k →
      c'.attached = c.attached ∧ c'.killOnDrop = c.killOnDrop ∧ Held c' k' := by
  induction ops with
  | nil =>
      intro c c' k k' h hheld
      have hresult : c' = c := Prog.RunsOn.of_pure h
      have hend := Prog.RunsOn.invariant (Held c)
        (fun _ _ hmove => Held.moves hmove) (fun _ hq => hq.elim)
        (show Prog.Asks (fun _ => False) (session os [] c) from trivial) h hheld
      rw [hresult]
      exact ⟨rfl, rfl, hend⟩
  | cons op ops ih =>
      intro c c' k k' h hheld
      unfold session at h
      rw [List.foldlM_cons] at h
      obtain ⟨c₁, k₁, hop, hrest⟩ := h.of_bind
      obtain ⟨hattached, hkill⟩ := opRun_attached hop
      have hheld₁ : Held c k₁ := Prog.RunsOn.invariant (Held c)
        (fun _ _ hmove => Held.moves hmove)
        (fun _ hq _ _ _ hserves hk => (serves_idle hq hserves).symm ▸ hk)
        (opRun_asks os c op) hop hheld
      have hheld₁' : Held c₁ k₁ :=
        { unharmed := hheld₁.unharmed
          leaf := hattached ▸ hheld₁.leaf
          job := hattached ▸ hheld₁.job }
      obtain ⟨hattached', hkill', hheld'⟩ := ih hrest hheld₁'
      exact ⟨hattached'.trans hattached, hkill'.trans hkill, hheld'⟩

/-! ## What a release asks -/

/-- An opted-out release disarms, if it detaches, and drops the fields. -/
theorem release_eq {c : Child} {detached : Bool}
    (hopt : c.killOnDrop = false ∨ detached = true) :
    release c detached =
      ((if detached then c.attached.disarm else pure ()) >>=
        fun _ => c.dropFields) := by
  cases detached with
  | true => rfl
  | false =>
      have hkill : c.killOnDrop = false := by simpa using hopt
      show c.drop = c.dropFields
      rw [Child.drop, hkill]
      rfl

/-- Neither a signal nor the teardown of the root. -/
def Quiet : Question → Prop
  | .killTree | .teardownOnDrop _ => False
  | _ => True

/-- The close of a handle or a descriptor. -/
def Closing : Question → Prop
  | .closeProc | .closeEnd _ | .closeMarker _ | .closeJob _ => True
  | _ => False

theorem forM_closeEnd_asks {ok : Question → Prop}
    (hclose : ∀ pipe, ok (.closeEnd pipe)) (pipes : List (Fd × ParentEnd)) :
    (forM pipes closeEnd : Releasing Unit).Asks ok := by
  induction pipes with
  | nil => trivial
  | cons entry pipes ih => exact ⟨hclose entry.2, fun _ => ih⟩

theorem dropFields_asks {c : Child} {ok : Question → Prop}
    (hproc : ok .closeProc) (hclose : ∀ pipe, ok (.closeEnd pipe))
    (hattached : c.attached.drop.Asks ok) : c.dropFields.Asks ok := by
  refine ⟨hproc, fun _ => ?_⟩
  exact (forM_closeEnd_asks hclose c.pipes).bind fun _ => hattached

theorem disarm_quiet (attached : Attached) : attached.disarm.Asks Quiet := by
  cases attached with
  | jobObject job =>
      show job.disarm.Asks Quiet
      unfold JobHandle.disarm
      split
      · trivial
      · exact ⟨trivial, fun _ => trivial⟩
  | _ => trivial

theorem drop_quiet (attached : Attached) : attached.drop.Asks Quiet := by
  cases attached with
  | jobObject job =>
      show job.drop.Asks Quiet
      unfold JobHandle.drop
      split
      · trivial
      · exact ⟨trivial, fun _ => trivial⟩
  | cgroup leaf =>
      refine ⟨trivial, fun _ => ⟨trivial, fun removed => ?_⟩⟩
      cases removed with
      | ok _ => trivial
      | error e => exact ⟨trivial, fun _ => ⟨trivial, fun _ => trivial⟩⟩
  | fdMarker marker => exact ⟨trivial, fun _ => trivial⟩
  | _ => trivial

/-- Without a leaf, the drop of the fields only closes. -/
theorem drop_closing {attached : Attached}
    (h : ∀ leaf, attached ≠ .cgroup leaf) : attached.drop.Asks Closing := by
  cases attached with
  | jobObject job =>
      show job.drop.Asks Closing
      unfold JobHandle.drop
      split
      · trivial
      · exact ⟨trivial, fun _ => trivial⟩
  | cgroup leaf => exact absurd rfl (h leaf)
  | fdMarker marker => exact ⟨trivial, fun _ => trivial⟩
  | _ => trivial

/-! ## Spared -/

/-- What a quiet question can do to the kernel. -/
theorem serves_quiet {q : Question} (hq : Quiet q) {k k' : Kernel}
    {answer : Answer q} (hserves : kernel.serves k q answer k') :
    k' = k ∨ k' = k.killInside ∨ k' = { k with leafPresent := false } ∨
      ∃ limit, k' = { k with killOnJobClose := limit } := by
  cases q with
  | killTree => exact hq.elim
  | teardownOnDrop id => exact hq.elim
  | removeDir path =>
      simp only [kernel, Kernel.serves] at hserves
      split at hserves
      · exact .inr (.inr (.inl hserves.2))
      · exact .inl hserves.2
  | write path contents =>
      simp only [kernel, Kernel.serves] at hserves
      split at hserves
      · exact .inr (.inl hserves.2)
      · exact .inl hserves.2
  | setJobLimits job limit =>
      simp only [kernel, Kernel.serves] at hserves
      split at hserves
      · exact .inr (.inr (.inr ⟨limit, hserves.2⟩))
      · exact .inl hserves
  | terminateJob job exitCode =>
      simp only [kernel, Kernel.serves] at hserves
      split at hserves
      · exact .inr (.inl hserves)
      · exact .inl hserves
  | closeJob job =>
      simp only [kernel, Kernel.serves] at hserves
      split at hserves
      · exact .inr (.inl hserves)
      · exact .inl hserves
  | _ => exact .inl hserves

/-- Nobody is inside and nobody was killed. -/
def Unharmed (k : Kernel) : Prop :=
  k.inside = [] ∧ k.killed = []

theorem Unharmed.moves {k k' : Kernel} (hmove : kernel.moves k k')
    (h : Unharmed k) : Unharmed k' :=
  ⟨Kernel.Moves.inside hmove h.1, (Kernel.Moves.same hmove).1.trans h.2⟩

/-- While nobody is inside, quiet questions kill nobody. -/
theorem Unharmed.serves {q : Question} (hq : Quiet q) {k k' : Kernel}
    {answer : Answer q} (hserves : kernel.serves k q answer k')
    (h : Unharmed k) : Unharmed k' := by
  obtain ⟨hempty, hkilled⟩ := h
  rcases serves_quiet hq hserves with rfl | rfl | rfl | ⟨limit, rfl⟩
  · exact ⟨hempty, hkilled⟩
  · constructor
    · exact hempty
    · show k.killed ++ k.inside = []
      rw [hempty, hkilled]
      rfl
  · exact ⟨hempty, hkilled⟩
  · exact ⟨hempty, hkilled⟩

/-- A close kills nobody unless it is that of an armed job. -/
theorem serves_closing {q : Question} (hq : Closing q) {k k' : Kernel}
    {answer : Answer q} (hserves : kernel.serves k q answer k')
    (hjob : ∀ job, q = .closeJob job → k.killOnJobClose = false) :
    k' = k := by
  cases q with
  | closeProc => exact hserves
  | closeEnd pipe => exact hserves
  | closeMarker handle => exact hserves
  | closeJob job =>
      simp only [kernel, Kernel.serves, hjob job rfl] at hserves
      simpa using hserves
  | _ => exact hq.elim

/-- Nobody inside: the release spares everybody. -/
theorem spares_of_vacant {c : Child} {detached : Bool} {k k' : Kernel}
    (hopt : c.killOnDrop = false ∨ detached = true)
    (hempty : k.inside = []) (hkilled : k.killed = [])
    (h : (release c detached).RunsOn kernel k () k') : k'.killed = [] := by
  have hasks : (release c detached).Asks Quiet := by
    rw [release_eq hopt]
    apply Prog.Asks.bind
    · split
      · exact disarm_quiet c.attached
      · trivial
    · intro _
      exact dropFields_asks trivial (fun _ => trivial) (drop_quiet c.attached)
  have hend := Prog.RunsOn.invariant Unharmed
    (fun _ _ hmove hk => hk.moves hmove)
    (fun _ hq _ _ _ hserves hk => hk.serves hq hserves) hasks h
    ⟨hempty, hkilled⟩
  exact hend.2

/-- Nobody was killed, and a close would kill nobody. -/
def Disarmed (k : Kernel) : Prop :=
  k.killOnJobClose = false ∧ k.killed = []

theorem Disarmed.moves {k k' : Kernel} (hmove : kernel.moves k k')
    (h : Disarmed k) : Disarmed k' := by
  obtain ⟨hkilled, _, _, hlimit⟩ := Kernel.Moves.same hmove
  exact ⟨hlimit.trans h.1, hkilled.trans h.2⟩

theorem Disarmed.serves {q : Question} (hq : Closing q) {k k' : Kernel}
    {answer : Answer q} (hserves : kernel.serves k q answer k')
    (h : Disarmed k) : Disarmed k' := by
  rw [serves_closing hq hserves fun _ _ => h.1]
  exact h

/-- A detached job: the limit is cleared before the handle closes. -/
theorem spares_of_detached_job {c : Child} {k k' : Kernel} {job : JobHandle}
    (hheld : Held c k) (hattached : c.attached = .jobObject job)
    (h : (release c true).RunsOn kernel k () k') : k'.killed = [] := by
  have hraw := (hheld.job job hattached).1
  rw [release_eq (.inr rfl), if_pos rfl, hattached, Attached.disarm,
    JobHandle.disarm, hraw] at h
  obtain ⟨k₁, _, k₂, hheld₁, hserves, hrest⟩ := Prog.RunsOn.of_ask h (Held c)
    (fun _ _ hmove => Held.moves hmove) hheld
  have hjob : k.job = k₁.job :=
    Option.some.inj (hraw.symm.trans (hheld₁.job job hattached).1)
  have hdisarmed : Disarmed k₂ := by
    simp only [kernel, Kernel.serves, hjob, if_true] at hserves
    rw [hserves.2]
    exact ⟨rfl, hheld₁.unharmed⟩
  have hasks : c.dropFields.Asks Closing := by
    apply dropFields_asks trivial (fun _ => trivial)
    apply drop_closing
    rw [hattached]
    intro leaf hleaf
    cases hleaf
  have hend := Prog.RunsOn.invariant Disarmed
    (fun _ _ hmove hk => hk.moves hmove)
    (fun _ hq _ _ _ hserves hk => hk.serves hq hserves) hasks hrest hdisarmed
  exact hend.2

/-- Neither leaf nor job: closing is all there is. -/
theorem spares_of_bare {c : Child} {detached : Bool} {k k' : Kernel}
    (hopt : c.killOnDrop = false ∨ detached = true)
    (hleaf : ∀ leaf, c.attached ≠ .cgroup leaf)
    (hjob : ∀ job, c.attached ≠ .jobObject job) (hkilled : k.killed = [])
    (h : (release c detached).RunsOn kernel k () k') : k'.killed = [] := by
  have hasks : (release c detached).Asks
      fun q => Closing q ∧ ∀ job, q ≠ .closeJob job := by
    have hdisarm : c.attached.disarm = pure () := by
      unfold Attached.disarm
      split
      · next job hattached => exact absurd hattached (hjob job)
      · rfl
    have hdrop : c.attached.drop.Asks
        fun q => Closing q ∧ ∀ job, q ≠ .closeJob job := by
      unfold Attached.drop
      split
      · next leaf hattached => exact absurd hattached (hleaf leaf)
      · next job hattached => exact absurd hattached (hjob job)
      · exact ⟨⟨trivial, by simp⟩, fun _ => trivial⟩
      · trivial
    rw [release_eq hopt, hdisarm]
    apply Prog.Asks.bind
    · split <;> trivial
    · intro _
      exact dropFields_asks ⟨trivial, by simp⟩
        (fun _ => ⟨trivial, by simp⟩) hdrop
  exact Prog.RunsOn.invariant (fun k : Kernel => k.killed = [])
    (fun _ _ hmove hk => (Kernel.Moves.same hmove).1.trans hk)
    (fun q hq _ _ _ hserves hk => by
      rw [serves_closing hq.1 hserves fun job hq' => absurd hq' (hq.2 job)]
      exact hk) hasks h hkilled

/-! ## Killed -/

/-- The drop of the pipe ends, undisturbed. -/
theorem forM_closeEnd_runs (pipes : List (Fd × ParentEnd)) (k : Kernel) :
    (forM pipes closeEnd : Releasing Unit).RunsOn kernel k () k := by
  induction pipes with
  | nil => exact .done () k
  | cons entry pipes ih =>
      exact .ask (q := Question.closeEnd entry.2) (Except.ok ()) rfl ih

theorem dropFields_runs {c : Child} {k k' : Kernel}
    (h : c.attached.drop.RunsOn kernel k () k') :
    c.dropFields.RunsOn kernel k () k' :=
  .ask (q := Question.closeProc) (Except.ok ()) rfl
    ((forM_closeEnd_runs c.pipes k).bind h)

/-- An occupied leaf cannot be removed, so its drop kills it. -/
theorem leafDrop_kills {leaf : CgroupLeaf} {k : Kernel}
    (hpath : k.leafPath = leaf.leafPath) (hpresent : k.leafPresent = true)
    (hinside : k.inside ≠ []) :
    leaf.drop.RunsOn kernel k () k.killInside := by
  have hbusy : ∀ k' : Kernel, k'.inside = k.inside → kernel.serves k'
      (.removeDir leaf.leafPath) (.error (.os 16)) k' := by
    intro k' hsame
    simp only [kernel, Kernel.serves, hsame]
    rw [if_neg fun h => hinside h.2.2]
    simp
  have hkill : kernel.serves k (.write (leaf.leafPath ++ "/cgroup.kill") "1")
      (.ok ()) k.killInside := by
    simp only [kernel, Kernel.serves, hpath, hpresent]
    simp
  refine .ask (q := Question.close leaf.procsFd) (Except.ok ()) rfl ?_
  refine .ask (q := Question.removeDir leaf.leafPath) (Except.error (.os 16))
    (hbusy k rfl) ?_
  refine .ask (q := Question.write (leaf.leafPath ++ "/cgroup.kill") "1")
    (Except.ok ()) hkill ?_
  exact .ask (q := Question.removeDir leaf.leafPath) (Except.error (.os 16))
    (hbusy k.killInside rfl) (.done () _)

/-- An armed job kills as it closes. -/
theorem jobDrop_kills {job : JobHandle} {k : Kernel}
    (hraw : job.raw = some k.job) (harmed : k.killOnJobClose = true) :
    job.drop.RunsOn kernel k () k.killInside := by
  have hclose : kernel.serves k (.closeJob k.job) (.ok ()) k.killInside := by
    simp only [kernel, Kernel.serves, harmed]
    simp
  rw [JobHandle.drop, hraw]
  exact .ask (q := Question.closeJob k.job) (Except.ok ()) hclose (.done () _)

theorem killInside_ne_nil {k : Kernel} (h : k.inside ≠ []) :
    k.killInside.killed ≠ [] := by
  intro hnone
  exact h (List.append_eq_nil_iff.mp hnone).2

/-- The release of an opted-out handle kills whoever is in its leaf. -/
theorem release_kills_leaf {c : Child} {detached : Bool} {k : Kernel}
    {leaf : CgroupLeaf} (hopt : c.killOnDrop = false ∨ detached = true)
    (hattached : c.attached = .cgroup leaf)
    (hpath : k.leafPath = leaf.leafPath) (hpresent : k.leafPresent = true)
    (hinside : k.inside ≠ []) :
    (release c detached).RunsOn kernel k () k.killInside := by
  have hdrop : c.attached.drop.RunsOn kernel k () k.killInside := by
    rw [hattached]
    exact leafDrop_kills hpath hpresent hinside
  have hdisarm : c.attached.disarm = pure () := by
    rw [hattached]
    rfl
  rw [release_eq hopt, hdisarm, ite_self]
  exact dropFields_runs hdrop

/-- The drop of an opted-out handle kills whoever is in its job. -/
theorem drop_kills_job {c : Child} {k : Kernel} {job : JobHandle}
    (hkill : c.killOnDrop = false) (hattached : c.attached = .jobObject job)
    (hraw : job.raw = some k.job) (harmed : k.killOnJobClose = true) :
    (release c false).RunsOn kernel k () k.killInside := by
  have hdrop : c.attached.drop.RunsOn kernel k () k.killInside := by
    rw [hattached]
    exact jobDrop_kills hraw harmed
  rw [release_eq (.inl hkill)]
  exact dropFields_runs hdrop

/-! ## Every session -/

/-- After any session of operations that kill nothing, and whatever the tree
does meanwhile, the release of an opted-out handle delivers a kill to no one
exactly where no one is left in its leaf, or in its job if that was not
disarmed.  The session itself kills no one. -/
theorem release_spares_iff (os : String) (ops : List Op) (c c' : Child)
    (k k' : Kernel) (detached : Bool) (hspawned : Spawned c k)
    (hopt : c.killOnDrop = false ∨ detached = true)
    (hsession : (session os ops c).RunsOn kernel k c' k') :
    k'.killed = [] ∧
      ((∀ k'', (release c' detached).RunsOn kernel k' () k'' →
        k''.killed = []) ↔ Vacant c detached k') := by
  obtain ⟨hattached, hkill, hheld⟩ := session_held ops hsession hspawned.held
  have hopt' : c'.killOnDrop = false ∨ detached = true := by
    rw [hkill]
    exact hopt
  refine ⟨hheld.unharmed, ?_⟩
  unfold Vacant
  rw [← hattached]
  cases hmechanism : c'.attached with
  | cgroup leaf =>
      obtain ⟨hpath, hleaf⟩ := hheld.leaf leaf hmechanism
      constructor
      · intro hspares
        rcases hleaf with hpresent | hempty
        · by_cases hempty : k'.inside = []
          · exact hempty
          · have hrun := release_kills_leaf hopt' hmechanism hpath hpresent
              hempty
            exact absurd (hspares _ hrun) (killInside_ne_nil hempty)
        · exact hempty
      · intro hempty k'' hrun
        exact spares_of_vacant hopt' hempty hheld.unharmed hrun
  | jobObject job =>
      obtain ⟨hraw, harmed⟩ := hheld.job job hmechanism
      constructor
      · intro hspares
        cases detached with
        | true => exact .inl rfl
        | false =>
            by_cases hempty : k'.inside = []
            · exact .inr hempty
            · have hkeep : c'.killOnDrop = false := by simpa using hopt'
              have hrun := drop_kills_job hkeep hmechanism hraw harmed
              exact absurd (hspares _ hrun) (killInside_ne_nil hempty)
      · rintro (rfl | hempty) k'' hrun
        · exact spares_of_detached_job hheld hmechanism hrun
        · exact spares_of_vacant hopt' hempty hheld.unharmed hrun
  | _ =>
      refine ⟨fun _ => trivial, fun _ k'' hrun => ?_⟩
      refine spares_of_bare hopt' ?_ ?_ hheld.unharmed hrun
      · intro leaf hleaf
        rw [hmechanism] at hleaf
        cases hleaf
      · intro job hjob
        rw [hmechanism] at hjob
        cases hjob

/-- A child in a leaf, and one in a job. -/
def leafChild (killOnDrop : Bool) : Child where
  id := ⟨7, 1⟩
  pipes := [(Fd.stdin, .writer 3)]
  killOnDrop := killOnDrop
  containment := .cgroupV2
  attached := .cgroup ⟨"/sys/fs/cgroup/cosca-7", 4⟩

def jobChild (killOnDrop : Bool) : Child where
  id := ⟨7, 1⟩
  pipes := []
  killOnDrop := killOnDrop
  containment := .jobObject
  attached := .jobObject ⟨some 9⟩

/-- The kernel with the given members in the leaf and in the job. -/
def kernelWith (inside : List ProcessId) : Kernel where
  leafPath := "/sys/fs/cgroup/cosca-7"
  leafPresent := true
  job := 9
  killOnJobClose := true
  inside := inside
  outside := []
  killed := []

theorem spawned_leafChild (killOnDrop : Bool) (inside : List ProcessId) :
    Spawned (leafChild killOnDrop) (kernelWith inside) where
  unharmed := rfl
  leaf := fun leaf hleaf => by
    cases hleaf
    exact ⟨rfl, rfl⟩
  job := fun job hjob => by cases hjob

theorem spawned_jobChild (killOnDrop : Bool) (inside : List ProcessId) :
    Spawned (jobChild killOnDrop) (kernelWith inside) where
  unharmed := rfl
  leaf := fun leaf hleaf => by cases hleaf
  job := fun job hjob => by
    cases hjob
    exact ⟨rfl, rfl⟩

theorem release_spares_drained :
    Vacant (leafChild true) true (kernelWith []) ∧
      ∀ k'', (release (leafChild true) true).RunsOn kernel (kernelWith []) ()
        k'' → k''.killed = [] := by
  have hsession : (session "linux" [.tryWait] (leafChild true)).RunsOn kernel
      (kernelWith []) (leafChild true) (kernelWith []) :=
    .ask (q := Question.tryWait ⟨7, 1⟩) (Except.ok none) rfl (.done _ _)
  have hiff := release_spares_iff "linux" [.tryWait] (leafChild true)
    (leafChild true) (kernelWith []) (kernelWith []) true
    (spawned_leafChild true []) (.inr rfl) hsession
  exact ⟨rfl, hiff.2.mpr rfl⟩

/-- `kill_on_drop(false)` and `detach` kill the only member of a leaf, and
`kill_on_drop(false)` that of a job. -/
theorem release_kills :
    (Spawned (leafChild false) (kernelWith [⟨7, 1⟩]) ∧
      (release (leafChild false) false).RunsOn kernel (kernelWith [⟨7, 1⟩]) ()
        (kernelWith [⟨7, 1⟩]).killInside) ∧
    (Spawned (leafChild true) (kernelWith [⟨7, 1⟩]) ∧
      (release (leafChild true) true).RunsOn kernel (kernelWith [⟨7, 1⟩]) ()
        (kernelWith [⟨7, 1⟩]).killInside) ∧
    (Spawned (jobChild false) (kernelWith [⟨7, 1⟩]) ∧
      (release (jobChild false) false).RunsOn kernel (kernelWith [⟨7, 1⟩]) ()
        (kernelWith [⟨7, 1⟩]).killInside) ∧
    (kernelWith [⟨7, 1⟩]).killInside.killed = [⟨7, 1⟩] := by
  have hinside : (kernelWith [⟨7, 1⟩]).inside ≠ [] := by simp [kernelWith]
  exact ⟨⟨spawned_leafChild false _,
      release_kills_leaf (.inl rfl) rfl rfl rfl hinside⟩,
    ⟨spawned_leafChild true _,
      release_kills_leaf (.inr rfl) rfl rfl rfl hinside⟩,
    ⟨spawned_jobChild false _, drop_kills_job rfl rfl rfl rfl⟩, rfl⟩

end Cosca.Ports.DetachKills
