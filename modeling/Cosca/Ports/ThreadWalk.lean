import Cosca.Ports.AttachJob

/-!
# The walk over the threads

`resume_initial_threads` while the host goes on.  Nothing that a move brings is
held or outside of the job, so that a snapshot of the child's threads names all
those that are still to be resumed.

## Main results

* `resumeInitialThreads_walks`: a walk that succeeds leaves no thread held, and
  every walk leaves the job as it was.
-/

namespace Cosca.Ports.AttachJob

open Cosca.Ports.Errors
open Cosca.Ports.Identity
open Cosca.Ports.StartToken (HResult HResult.io)
open Cosca.Verified.Flags
open Cosca.Verified.Interact

/-! ## What a move can do -/

/-- No two threads have one number. -/
def Distinct (k : Host) : Prop :=
  ∀ key key' t t', k.threads key = some t → k.threads key' = some t' →
    t.threadId = t'.threadId → key = key'

/-- No thread is new. -/
def Older (k k' : Host) : Prop :=
  ∀ key t, k'.threads key = some t →
    ∃ t', k.threads key = some t' ∧ t'.threadId = t.threadId

theorem Distinct.older {k k' : Host} (h : Distinct k) (holder : Older k k') :
    Distinct k' := by
  intro key key' t t' ht ht' hsame
  obtain ⟨s, hs, hid⟩ := holder key t ht
  obtain ⟨s', hs', hid'⟩ := holder key' t' ht'
  exact h key key' s s' hs hs' ((hid.trans hsame).trans hid'.symm)

theorem Distinct.start {k k' : Host} {key : Nat} {t : Thread}
    (h : Distinct k) (hfree : k.FreeThread t.threadId key)
    (hthreads : k'.threads = Function.update k.threads key (some t)) :
    Distinct k' := by
  intro key₁ key₂ t₁ t₂ h₁ h₂ hsame
  rw [hthreads, Function.update_apply] at h₁ h₂
  split at h₁
  · next heq₁ =>
      split at h₂
      · next heq₂ => exact heq₁.trans heq₂.symm
      · cases h₁
        exact absurd hsame.symm (hfree.distinct key₂ t₂ h₂)
  · split at h₂
    · cases h₂
      exact absurd hsame (hfree.distinct key₁ t₁ h₁)
    · exact h key₁ key₂ t₁ t₂ h₁ h₂ hsame

/-- The threads of a host in which one was resumed. -/
theorem wake_threads {k : Host} {key key' : Nat} {t : Thread}
    (h : (k.wake key).threads key' = some t) :
    key' ≠ key ∧ k.threads key' = some t ∨ key' = key ∧ t.held = false ∧
      ∃ t', k.threads key = some t' ∧ t = { t' with held := false } := by
  simp only [Host.wake, Function.update_apply] at h
  split at h
  · next heq =>
      obtain ⟨t', ht', rfl⟩ := Option.map_eq_some_iff.mp h
      exact .inr ⟨heq, rfl, t', ht', rfl⟩
  · next hne => exact .inl ⟨hne, h⟩

theorem older_wake (k : Host) (key : Nat) : Older k (k.wake key) := by
  intro key' t ht
  obtain ⟨_, ht⟩ | ⟨rfl, _, t', ht', rfl⟩ := wake_threads ht
  · exact ⟨t, ht, rfl⟩
  · exact ⟨t', ht', rfl⟩

/-- Whatever a move brings comes from what runs, and the spawn's own things stay
as they are. -/
structure Moved (pid : RawPid) (k k' : Host) : Prop where
  process : ∀ n p, k'.processes n = some p → k.processes n = some p ∨
    n ≠ pid ∧ ∃ parent, k.Awake parent ∧ k.processes parent = some p
  thread : ∀ key t, k'.threads key = some t → t.owner = pid →
    k.threads key = some t ∨ t.held = false ∧ k.Awake pid
  distinct : Distinct k → Distinct k'
  job : k'.job = k.job
  handles : k'.handles = k.handles
  failures : k'.failures = k.failures

section Moves

variable {pid : RawPid} {k k' : Host}

theorem Host.Moves.moved (h : Host.Moves pid k k') : Moved pid k k' := by
  cases h with
  | fork parent new p threadId key held hparent hawake hfree hpinned hthread =>
      refine ⟨fun n q hq => ?_, fun key' t ht howner => ?_,
        fun h => h.start (t := ⟨threadId, new, held⟩) hthread rfl, rfl, rfl,
        rfl⟩
      · simp only [Function.update_apply] at hq
        split at hq
        · next heq =>
            cases hq
            exact .inr ⟨heq ▸ hpinned, parent, hawake, hparent⟩
        · exact .inl hq
      · simp only [Function.update_apply] at ht
        split at ht
        · cases ht
          exact absurd howner hpinned
        · exact .inl ht
  | start owner threadId key hawake hthread =>
      refine ⟨fun n q hq => .inl hq, fun key' t ht howner => ?_,
        fun h => h.start (t := ⟨threadId, owner, false⟩) hthread rfl, rfl, rfl,
        rfl⟩
      simp only [Function.update_apply] at ht
      split at ht
      · cases ht
        exact .inr ⟨rfl, howner ▸ hawake⟩
      · exact .inl ht
  | stop key =>
      have hold : ∀ key' t, Function.update k.threads key none key' = some t →
          k.threads key' = some t := by
        intro key' t ht
        rw [Function.update_apply] at ht
        split at ht
        · cases ht
        · exact ht
      exact ⟨fun n q hq => .inl hq, fun key' t ht _ => .inl (hold key' t ht),
        fun h => h.older fun key' t ht => ⟨t, hold key' t ht, rfl⟩, rfl, rfl,
        rfl⟩
  | exit gone =>
      have hold : ∀ key t, (k.exit gone).threads key = some t →
          k.threads key = some t :=
        fun key t ht => (Option.filter_eq_some_iff.mp ht).1
      refine ⟨fun n q hq => ?_, fun key t ht _ => .inl (hold key t ht),
        fun h => h.older fun key t ht => ⟨t, hold key t ht, rfl⟩, rfl, rfl,
        rfl⟩
      simp only [Host.exit, Function.update_apply] at hq
      split at hq
      · cases hq
      · exact .inl hq
  | resume key t ht hother =>
      refine ⟨fun n q hq => .inl hq, fun key' t' ht' howner => ?_,
        fun h => h.older (older_wake k key), rfl, rfl, rfl⟩
      obtain ⟨_, ht'⟩ | ⟨_, _, s, hs, rfl⟩ := wake_threads ht'
      · exact .inl ht'
      · rw [ht] at hs
        cases hs
        exact absurd howner hother

/-- A thread that is still held was there before. -/
theorem Moved.held (h : Moved pid k k') {key : Nat} {t : Thread}
    (ht : k'.threads key = some t) (howner : t.owner = pid)
    (hheld : t.held = true) : k.threads key = some t := by
  obtain ht | ⟨hwoken, _⟩ := h.thread key t ht howner
  · exact ht
  · exact absurd (hwoken.symm.trans hheld) Bool.false_ne_true

end Moves

/-! ## Assertions -/

/-- The child has not run: it is its whole tree, and all its threads are
held. -/
structure Frozen (pid : RawPid) (k : Host) : Prop where
  tree : ∀ n p, k.processes n = some p → p.tree = true → n = pid
  held : ∀ key t, k.threads key = some t → t.owner = pid → t.held = true

/-- The whole tree is in the job. -/
def InJob (k : Host) : Prop :=
  ∀ n p, k.processes n = some p → p.tree = true → p.inJob = true

/-- Nobody is in the job. -/
def Deserted (k : Host) : Prop :=
  ∀ n p, k.processes n = some p → p.inJob = false

/-- The threads of the child that are held have these numbers. -/
def HeldIn (pid : RawPid) (ids : List UInt32) (k : Host) : Prop :=
  ∀ key t, k.threads key = some t → t.owner = pid → t.held = true →
    t.threadId ∈ ids

/-- The job is open on this handle alone, kills when that is closed, and has
not been terminated. -/
structure Armed (job : Handle) (k : Host) : Prop where
  isOpen : k.handles job = some .job
  alone : ∀ h, k.handles h = some .job → h = job
  kills : ∃ j, k.job = some j ∧
    has j.limits jobObjectLimitKillOnJobClose = true ∧ j.terminated = false

/-- The handles are those listed, and those that did not close. -/
def Holding (hs : List Handle) (k : Host) : Prop :=
  ∀ h, k.handles h ≠ none → h ∈ hs ∨ .close h ∈ k.failures

section Stable

variable {pid : RawPid}

theorem stable_of {cond : Host → Prop}
    (h : ∀ k k', Moved pid k k' → cond k → cond k') :
    (spawning pid).Stable cond :=
  fun k k' hmove hk => h k k' hmove.moved hk

theorem stable_distinct : (spawning pid).Stable Distinct :=
  stable_of fun _ _ h => h.distinct

theorem stable_frozen : (spawning pid).Stable (Frozen pid) := by
  refine stable_of fun k k' h hk => ?_
  have hasleep : ¬ k.Awake pid := by
    rintro ⟨key, t, ht, howner, hawake⟩
    rw [hk.held key t ht howner] at hawake
    exact Bool.false_ne_true hawake.symm
  constructor
  · intro n p hp htree
    obtain hp | ⟨hne, parent, hawake, hparent⟩ := h.process n p hp
    · exact hk.tree n p hp htree
    · exact absurd (hk.tree parent p hparent htree ▸ hawake) hasleep
  · intro key t ht howner
    obtain ht | ⟨_, hawake⟩ := h.thread key t ht howner
    · exact hk.held key t ht howner
    · exact absurd hawake hasleep

theorem stable_inJob : (spawning pid).Stable InJob := by
  refine stable_of fun k k' h hk n p hp htree => ?_
  obtain hp | ⟨_, parent, _, hparent⟩ := h.process n p hp
  · exact hk n p hp htree
  · exact hk parent p hparent htree

theorem stable_deserted : (spawning pid).Stable Deserted := by
  refine stable_of fun k k' h hk n p hp => ?_
  obtain hp | ⟨_, parent, _, hparent⟩ := h.process n p hp
  · exact hk n p hp
  · exact hk parent p hparent

theorem stable_heldIn (ids : List UInt32) :
    (spawning pid).Stable (HeldIn pid ids) := by
  refine stable_of fun k k' h hk key t ht howner hheld => ?_
  exact hk key t (h.held ht howner hheld) howner hheld

theorem stable_armed (job : Handle) : (spawning pid).Stable (Armed job) := by
  refine stable_of fun k k' h hk => ?_
  exact ⟨h.handles ▸ hk.isOpen, h.handles ▸ hk.alone, h.job ▸ hk.kills⟩

theorem stable_holding (hs : List Handle) :
    (spawning pid).Stable (Holding hs) := by
  refine stable_of fun k k' h hk => ?_
  rw [Holding, h.handles, h.failures]
  exact hk

end Stable

/-! ## The walk over the threads -/

/-- The whole tree is in the job of this handle; or there is no such job. -/
def Standing : Option Handle → Host → Prop
  | some job, k => InJob k ∧ Armed job k
  | none, k => Deserted k

/-- What holds during the walk: where the job stands, which handles are open,
and, while nothing has gone wrong, which threads are still held. -/
structure Walking (pid : RawPid) (job : Option Handle) (hs : List Handle)
    (given : Prop) (ids : List UInt32) (k : Host) : Prop where
  distinct : Distinct k
  standing : Standing job k
  holding : Holding hs k
  held : given → HeldIn pid ids k

section Walk

variable {pid : RawPid} {job : Option Handle} {hs : List Handle}
  {given : Prop} {ids : List UInt32} {k : Host} {h : Handle}

theorem stable_standing (job : Option Handle) :
    (spawning pid).Stable (Standing job) := by
  cases job with
  | none => exact stable_deserted
  | some job => exact stable_inJob.and (stable_armed job)

theorem stable_walking :
    (spawning pid).Stable (Walking pid job hs given ids) := by
  intro k k' hmove hk
  exact ⟨stable_distinct k k' hmove hk.distinct,
    stable_standing job k k' hmove hk.standing,
    stable_holding hs k k' hmove hk.holding,
    fun hgiven => stable_heldIn ids k k' hmove (hk.held hgiven)⟩

theorem Standing.open {obj : Obj} (hk : Standing job k)
    (hfree : k.handles h = none) (hobj : obj ≠ .job) :
    Standing job (k.open h obj) := by
  cases job with
  | none => exact hk
  | some j =>
      obtain ⟨hin, harmed⟩ := hk
      refine ⟨hin, ?_, fun h' hh' => ?_, harmed.kills⟩
      · have hne : j ≠ h := by
          rintro rfl
          exact absurd (harmed.isOpen.symm.trans hfree) (Option.some_ne_none _)
        exact (Function.update_of_ne hne ..).trans harmed.isOpen
      · simp only [Host.open, Function.update_apply] at hh'
        split at hh'
        · exact absurd (Option.some.inj hh') hobj
        · exact harmed.alone h' hh'

theorem Standing.close (hk : Standing job k) (hne : job ≠ some h) :
    Standing job (k.close h) := by
  cases job with
  | none => exact hk
  | some j =>
      obtain ⟨hin, harmed⟩ := hk
      refine ⟨hin, ?_, fun h' hh' => ?_, harmed.kills⟩
      · have hother : j ≠ h := fun heq => hne (congrArg some heq)
        exact (Function.update_of_ne hother ..).trans harmed.isOpen
      · simp only [Host.close, Function.update_apply] at hh'
        split at hh'
        · cases hh'
        · exact harmed.alone h' hh'

theorem Standing.fail (hk : Standing job k) (failure : Failure) :
    Standing job (k.fail failure) := by
  cases job with
  | none => exact hk
  | some j => exact ⟨hk.1, hk.2.isOpen, hk.2.alone, hk.2.kills⟩

theorem Standing.wake (hk : Standing job k) (key : Nat) :
    Standing job (k.wake key) := by
  cases job with
  | none => exact hk
  | some j => exact ⟨hk.1, hk.2.isOpen, hk.2.alone, hk.2.kills⟩

theorem Holding.open {obj : Obj} (hk : Holding hs k) :
    Holding (h :: hs) (k.open h obj) := by
  intro h' hh'
  simp only [Host.open, Function.update_apply] at hh'
  split at hh'
  · next heq => exact .inl (heq ▸ List.mem_cons_self)
  · exact (hk h' hh').imp_left (List.mem_cons_of_mem _)

theorem Holding.close (hk : Holding (h :: hs) k) : Holding hs (k.close h) := by
  intro h' hh'
  simp only [Host.close, Function.update_apply] at hh'
  split at hh'
  · exact absurd rfl hh'
  · next hne =>
      exact (hk h' hh').imp_left fun hmem =>
        (List.mem_cons.mp hmem).resolve_left hne

theorem Holding.fail (hk : Holding hs k) (failure : Failure) :
    Holding hs (k.fail failure) :=
  fun h' hh' => (hk h' hh').imp_right (List.mem_append_left _)

theorem Holding.leak (hk : Holding (h :: hs) k) :
    Holding hs (k.fail (.close h)) := by
  intro h' hh'
  obtain hmem | hfailed := hk h' hh'
  · obtain rfl | hmem := List.mem_cons.mp hmem
    · exact .inr (List.mem_append_right _ List.mem_cons_self)
    · exact .inl hmem
  · exact .inr (List.mem_append_left _ hfailed)

theorem Walking.open {obj : Obj} (hk : Walking pid job hs given ids k)
    (hfree : k.handles h = none) (hobj : obj ≠ .job) :
    Walking pid job (h :: hs) given ids (k.open h obj) :=
  ⟨hk.distinct, hk.standing.open hfree hobj, hk.holding.open, hk.held⟩

/-- A handle is closed, or it is lost. -/
theorem close_walks (hne : job ≠ some h) :
    (close h).Guarantees (spawning pid) (Walking pid job (h :: hs) given ids)
      fun _ => Walking pid job hs given ids := by
  refine .query_bind (fun _ => Walking pid job hs given ids) stable_walking
    ?_ ?_
  · intro k reply k' hanswer hk
    cases reply with
    | ok _ =>
        obtain rfl : k' = k.close h := hanswer
        exact ⟨hk.distinct, hk.standing.close hne, hk.holding.close, hk.held⟩
    | error e =>
        obtain rfl : k' = k.fail (.close h) := hanswer
        exact ⟨hk.distinct, hk.standing.fail _,
          hk.holding.leak, hk.held⟩
  · exact fun _ => .pure stable_walking fun _ hk => hk

/-- Nothing has gone wrong so far. -/
def Given (stop : HResult) (acc : Nat × Option IoError) : Prop :=
  stop = endOfWalk ∧ acc.2 = none

/-- The numbers of the child's threads among the entries. -/
def todoIds (pid : RawPid) (entries : List ThreadEntry) : List UInt32 :=
  (entries.filter (·.ownerProcessId = pid)).map (·.threadId)

theorem counted_walks {stop : HResult} {acc : Nat × Option IoError}
    (previous : UInt32) :
    (counted acc previous).Guarantees (spawning pid)
      (Walking pid job hs (previous ≠ 0xffffffff ∧ Given stop acc) ids)
      fun acc => Walking pid job hs (Given stop acc) ids := by
  unfold counted
  split
  · refine .query_bind (fun _ => Walking pid job hs False ids) stable_walking
      ?_ ?_
    · intro k reply k' hanswer hk
      obtain rfl : k' = k := hanswer
      exact ⟨hk.distinct, hk.standing, hk.holding, False.elim⟩
    · intro e
      refine .pure stable_walking fun k hk => ?_
      exact ⟨hk.distinct, hk.standing, hk.holding,
        fun hgiven => absurd hgiven.2 (Option.some_ne_none e)⟩
  · next hcount =>
      refine .pure stable_walking fun k hk => ?_
      exact ⟨hk.distinct, hk.standing, hk.holding,
        fun hgiven => hk.held ⟨hcount, hgiven⟩⟩

/-- The number that a thread was opened by is no other held thread's. -/
def Opened (pid : RawPid) (id : UInt32) (thread : Handle) (k : Host) : Prop :=
  ∃ key, k.handles thread = some (.thread key) ∧
    ∀ key' t, k.threads key' = some t → t.owner = pid → t.held = true →
      t.threadId = id → key' = key

theorem stable_opened (id : UInt32) (thread : Handle) :
    (spawning pid).Stable (Opened pid id thread) := by
  rintro k k' hmove ⟨key, hopen, honly⟩
  have hmoved := hmove.moved
  refine ⟨key, hmoved.handles ▸ hopen, fun key' t ht howner hheld => ?_⟩
  exact honly key' t (hmoved.held ht howner hheld) howner hheld

/-- A thread that was opened by its number is resumed, or the failure
counts. -/
theorem resume_walks {stop : HResult} {acc : Nat × Option IoError}
    {id : UInt32} {ids : List UInt32} {thread : Handle} {previous : UInt32}
    {k k' : Host} (hanswer : (spawning pid).serves k (.resumeThread thread)
      previous k')
    (hk : Walking pid job hs (Given stop acc) (id :: ids) k)
    (hopened : Opened pid id thread k) :
    Walking pid job hs (previous ≠ 0xffffffff ∧ Given stop acc) ids k' := by
  obtain ⟨key, hopen, honly⟩ := hopened
  by_cases hprevious : previous = 0xffffffff
  · have hsame : k' = k := by
      simpa [spawning, Host.serves, hprevious] using hanswer
    rw [hsame]
    exact ⟨hk.distinct, hk.standing, hk.holding,
      fun hgiven => absurd hprevious hgiven.1⟩
  · have hwoken : k' = k.wake key := by
      have hcases : ∃ key, k.handles thread = some (.thread key) ∧
          k' = k.wake key := by
        simpa [spawning, Host.serves, hprevious] using hanswer
      obtain ⟨key', hopen', rfl⟩ := hcases
      rw [hopen] at hopen'
      cases hopen'
      rfl
    rw [hwoken]
    refine ⟨hk.distinct.older (older_wake k key), hk.standing.wake key,
      hk.holding, fun hgiven key' t ht howner hheld => ?_⟩
    obtain ⟨hne, ht⟩ | ⟨_, hawake, _⟩ := wake_threads ht
    · obtain rfl | hmem :=
        List.mem_cons.mp (hk.held hgiven.2 key' t ht howner hheld)
      · exact absurd (honly key' t ht howner hheld rfl) hne
      · exact hmem
    · exact absurd (hawake.symm.trans hheld) Bool.false_ne_true

/-- What holds after a call that may fail. -/
def Replied {ε α : Type} (bad : Host → Prop) (good : α → Host → Prop) :
    Except ε α → Host → Prop
  | .error _, k => bad k
  | .ok a, k => good a k

/-- After the attempt to open a thread. -/
def Tried (pid : RawPid) (job : Option Handle) (hs : List Handle)
    (given : Prop) (id : UInt32) (ids : List UInt32) :
    Except HResult Handle → Host → Prop :=
  Replied (Walking pid job hs False ids) fun thread k => job ≠ some thread ∧
    Walking pid job (thread :: hs) given (id :: ids) k ∧ Opened pid id thread k

theorem Standing.ne_free (hk : Standing job k) (hfree : k.handles h = none) :
    job ≠ some h := by
  rintro rfl
  exact absurd (hk.2.isOpen.symm.trans hfree) (Option.some_ne_none _)

theorem open_walks {id : UInt32} {reply : Except HResult Handle} {k k' : Host}
    (hanswer : (spawning pid).serves k (.openThread id) reply k')
    (hk : Walking pid job hs given (id :: ids) k) :
    Tried pid job hs given id ids reply k' := by
  cases reply with
  | error e =>
      obtain rfl : k' = k := hanswer
      exact ⟨hk.distinct, hk.standing, hk.holding, False.elim⟩
  | ok thread =>
      obtain ⟨hfree, key, t, ht, hid, rfl⟩ := hanswer
      have hother : Obj.thread key ≠ .job := Obj.noConfusion
      refine ⟨hk.standing.ne_free hfree, hk.open hfree hother, key,
        Function.update_self .., fun key' t' ht' _ _ hid' => ?_⟩
      exact hk.distinct key' key t' t ht' ht (hid'.trans hid.symm)

theorem resumeEntry_walks {stop : HResult} (entry : ThreadEntry)
    (todo : List ThreadEntry) (acc : Nat × Option IoError) :
    (resumeEntry pid acc entry).Guarantees (spawning pid)
      (Walking pid job hs (Given stop acc) (todoIds pid (entry :: todo)))
      fun acc => Walking pid job hs (Given stop acc) (todoIds pid todo) := by
  unfold resumeEntry
  by_cases howner : entry.ownerProcessId = pid
  · have hids : todoIds pid (entry :: todo) =
        entry.threadId :: todoIds pid todo := by
      simp [todoIds, howner]
    rw [if_pos howner, hids]
    refine .query_bind (Tried pid job hs (Given stop acc) entry.threadId
      (todoIds pid todo)) stable_walking
      (fun k reply k' hanswer hk => open_walks hanswer hk) fun opened => ?_
    cases opened with
    | error e =>
        refine .pure stable_walking fun k hk => ?_
        exact ⟨hk.distinct, hk.standing, hk.holding,
          fun hgiven => absurd hgiven.2 (Option.some_ne_none _)⟩
    | ok thread =>
        refine .given fun hne => ?_
        refine .query_bind (fun previous => Walking pid job (thread :: hs)
          (previous ≠ 0xffffffff ∧ Given stop acc) (todoIds pid todo))
          (stable_walking.and (stable_opened _ _))
          (fun k previous k' hanswer hk => resume_walks hanswer hk.1 hk.2)
          fun previous => ?_
        refine .bind (fun acc => Walking pid job (thread :: hs)
          (Given stop acc) (todoIds pid todo)) (counted_walks previous)
          fun acc => ?_
        refine .bind (fun _ => Walking pid job hs (Given stop acc)
          (todoIds pid todo)) (close_walks hne) fun _ => ?_
        exact .pure stable_walking fun k hk => hk
  · have hids : todoIds pid (entry :: todo) = todoIds pid todo := by
      simp [todoIds, howner]
    rw [if_neg howner, hids]
    exact .pure stable_walking fun k hk => hk

/-- No thread of the child is held. -/
abbrev Awoken (pid : RawPid) : Host → Prop :=
  HeldIn pid []

/-- After the attempt to take a snapshot. -/
def Taken (pid : RawPid) (job : Option Handle) (hs : List Handle) :
    Except HResult Snapshot → Host → Prop :=
  Replied (Walking pid job hs False []) fun snap k => job ≠ some snap.handle ∧
    Walking pid job (snap.handle :: hs) (Given snap.stop (0, none))
      (todoIds pid snap.entries) k

/-- A snapshot that did not break off lists all threads that are held. -/
theorem snapshot_walks {reply : Except HResult Snapshot} {k k' : Host}
    (hanswer : (spawning pid).serves k .createToolhelp32Snapshot reply k')
    (hk : Walking pid job hs False [] k) : Taken pid job hs reply k' := by
  cases reply with
  | error e =>
      obtain rfl : k' = k := hanswer
      exact hk
  | ok snap =>
      obtain ⟨hfree, rfl, _, hall⟩ := hanswer
      have hother : Obj.snapshot ≠ .job := by decide
      have hopen := hk.open hfree hother
      refine ⟨hk.standing.ne_free hfree, hopen.distinct, hopen.standing,
        hopen.holding, fun hgiven key t ht howner _ => ?_⟩
      have hentry := hall hgiven.1 key t ht
      exact List.mem_map.mpr ⟨_, List.mem_filter.mpr
        ⟨hentry, decide_eq_true howner⟩, rfl⟩

theorem given_of_walked {stop : HResult} {acc : Nat × Option IoError}
    (h : walked stop acc = .ok ()) : Given stop acc := by
  unfold walked at h
  split at h
  · cases h
  · next hstop =>
      split at h
      · cases h
      · next hnone => exact ⟨Decidable.not_not.mp hstop, hnone⟩

/-- If the threads of the child were resumed, then none is held any more. -/
theorem resumeInitialThreads_walks :
    resumeInitialThreads.Guarantees (spawning pid)
      (Walking pid job hs False [])
      fun r => Walking pid job hs (r = .ok ()) [] := by
  refine .query_bind (fun answer k => answer = pid ∧
    Walking pid job hs False [] k) stable_walking ?_ fun answer => ?_
  · intro k answer k' hanswer hk
    obtain ⟨rfl, rfl⟩ := hanswer
    exact ⟨rfl, hk⟩
  refine .given fun hpid => ?_
  subst hpid
  refine .query_bind (Taken answer job hs) stable_walking
    (fun k reply k' hanswer hk => snapshot_walks hanswer hk) fun snap => ?_
  cases snap with
  | error e =>
      refine .pure stable_walking fun k hk => ?_
      exact ⟨hk.distinct, hk.standing, hk.holding, nofun⟩
  | ok snap =>
      refine .given fun hne => ?_
      refine .bind (fun acc => Walking answer job (snap.handle :: hs)
        (Given snap.stop acc) (todoIds answer [])) ?_ fun acc => ?_
      · exact Prog.Guarantees.foldlM
          (fun todo acc => Walking answer job (snap.handle :: hs)
            (Given snap.stop acc) (todoIds answer todo))
          (fun _ => stable_walking)
          (fun entry todo acc => resumeEntry_walks entry todo acc)
          snap.entries (0, none)
      · refine .bind (fun _ => Walking answer job hs (Given snap.stop acc)
          (todoIds answer [])) (close_walks hne) fun _ => ?_
        refine .pure stable_walking fun k hk => ?_
        exact ⟨hk.distinct, hk.standing, hk.holding,
          fun hok => hk.held (given_of_walked hok)⟩

end Walk

end Cosca.Ports.AttachJob
