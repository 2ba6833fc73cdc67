import Cosca.Ports.JobOwnership

/-!
# The operations on a job handle

Each operation on a shared `JobHandle` as an outline over the ownership of
handles: what it may rely on while others run, and what it leaves.

## Main results

* `body_abides`: every operation keeps what the others rely on.
-/

namespace Cosca.Ports.JobLifetime

open Cosca.Ports.Errors
open Cosca.Ports.Identity
open Cosca.Ports.StartToken (HResult)
open Cosca.Ports.JobDrain
open Cosca.Ports.JobHandle
open Cosca.Ports.JobOwnership
open Cosca.Verified.Interact

section

variable {C : Type} {job : Handle} {c : C}

/-! ## Everybody else -/

/-- A caller among all others and the other code of the process. -/
def role (job : Handle) (c : C) : Role Answer (Host C) where
  env :=
    { serves := Host.serves c
      moves := fun k k' => Inv job k ∧ Inv job k' ∧
        (Host.Moves k k' ∨ ∃ c', c' ≠ c ∧ Guar job (some c') k k') }
  inv := Inv job
  guar := Guar job (some c)
  ready := fun _ _ => True

theorem stable_of {cond : Host C → Prop}
    (h : ∀ actor k k', some c ≠ actor → Inv job k → Guar job actor k k' →
      cond k → cond k') : (role job c).env.Stable cond := by
  intro k k' hmove hk
  obtain ⟨hinv, hinv', hmove⟩ := hmove
  cases hmove with
  | inl hmove => exact h none k k' (by simp) hinv (hinv.moves hmove).2 hk
  | inr hother =>
      obtain ⟨c', hne, hguar⟩ := hother
      refine h (some c') k k' ?_ hinv hguar hk
      intro heq
      exact hne (Option.some.inj heq).symm

theorem stable_holding {hs : List Handle} :
    (role job c).env.Stable (Holding job c hs) :=
  stable_of fun _ _ _ hne _ hguar hk => hk.keep hguar hne

theorem stable_consumed :
    (role job c).env.Stable fun k => k.raw = none :=
  stable_of fun _ _ _ _ _ hguar hk => hguar.consumed hk

theorem stable_taken : (role job c).env.Stable (Taken job c) := by
  apply stable_of
  intro actor k k' hne _ hguar hk
  exact ⟨hguar.owns c job hne hk.1,
    (hguar.taker c hne hk.1.1).2.trans hk.2⟩

theorem stable_owns {h : Handle} : (role job c).env.Stable (Owns c h) :=
  stable_of fun _ _ _ hne _ hguar hk => hguar.owns c h hne hk

/-! ## Code outside of the lock -/

/-- The same caller, in code that knows nothing of the lock. -/
abbrev drainRole (job : Handle) (c : C) : Role JobCall.Reply (Host C) :=
  (role job c).pull Question.call fun _ a => a

section

variable {hs : List Handle}

theorem drain_plain {α : Type} {q : JobCall} {f : q.Reply → Draining α}
    {post : α → Host C → Prop} (hplain : isPlain q = true)
    (hhandles : ∀ h ∈ q.handles, h ∈ hs)
    (hf : ∀ a, (f a).Abides (drainRole job c) (Holding job c hs) post) :
    Prog.Abides (drainRole job c) (call q >>= f) (Holding job c hs) post := by
  refine Prog.Abides.query_bind (fun _ => Holding job c hs)
    (Role.pull_stable stable_holding) ?_ ?_ fun _ _ _ => trivial
  · intro k a k' hserves hinv hheld
    obtain ⟨a', heq, hanswer⟩ := hserves
    exact plain_steps hplain hanswer hinv hheld (hheld.allowed hhandles)
  · exact hf

theorem drain_close (handle : Handle) :
    Prog.Abides (drainRole job c) (JobDrain.close handle)
      (Holding job c (handle :: hs)) fun _ => Holding job c hs := by
  refine Prog.Abides.query_bind (fun _ => Holding job c hs)
    (Role.pull_stable stable_holding) ?_ ?_ fun _ _ _ => trivial
  · intro k a k' hserves hinv hheld
    obtain ⟨a', heq, hanswer⟩ := hserves
    exact closing_steps hanswer hinv hheld
  · intro a
    exact .pure (Role.pull_stable stable_holding) fun k _ hk => hk

theorem drain_open {α : Type} {mask : UInt32} {pid : RawPid}
    {f : Except HResult Handle → Draining α} {post : α → Host C → Prop}
    (hf : ∀ r, (f r).Abides (drainRole job c) (Opened job c hs r) post) :
    Prog.Abides (drainRole job c) (call (.openProcess mask pid) >>= f)
      (Holding job c hs) post := by
  refine Prog.Abides.query_bind (Opened job c hs)
    (Role.pull_stable stable_holding) ?_ ?_ fun _ _ _ => trivial
  · intro k a k' hserves hinv hheld
    obtain ⟨a', heq, hanswer⟩ := hserves
    have heq : a' = a := heq
    rw [heq] at hanswer
    have hallowed : Allowed job c (.openProcess mask pid) k :=
      hheld.allowed fun h hh => absurd hh List.not_mem_nil
    apply opening_steps _ hinv hheld hallowed rfl rfl
    cases a with
    | ok h => exact hanswer
    | error e => exact hanswer
  · exact hf

/-- A program that keeps the handles the caller holds. -/
abbrev Keeps (job : Handle) (c : C) (hs : List Handle) {α : Type}
    (p : Draining α) : Prop :=
  p.Abides (drainRole job c) (Holding job c hs) fun _ => Holding job c hs

theorem keeps_pure {α : Type} (a : α) : Keeps job c hs (pure a) :=
  .pure (Role.pull_stable stable_holding) fun _ _ hk => hk

theorem Keeps.bind {α β : Type} {p : Draining α} {f : α → Draining β}
    (h : Keeps job c hs p) (hf : ∀ a, Keeps job c hs (f a)) :
    Keeps job c hs (p >>= f) :=
  Prog.Abides.bind _ h hf

theorem queryJobPidListFrom_keeps {dup : Handle} (hdup : dup ∈ hs)
    (fuel : Nat) :
    ∀ capacity, Keeps job c hs (queryJobPidListFrom dup fuel capacity) := by
  induction fuel with
  | zero => exact fun _ => keeps_pure none
  | succ fuel ih =>
      intro capacity
      unfold queryJobPidListFrom
      apply drain_plain (q := .queryProcessIds dup capacity) rfl
      · intro h hh
        rw [List.mem_singleton.mp hh]
        exact hdup
      intro ids
      cases ids.listed with
      | some pids => exact keeps_pure _
      | none =>
          dsimp only
          split
          · exact ih _
          · apply drain_plain (q := .lastError) rfl
            · exact fun h hh => absurd hh List.not_mem_nil
            exact fun e => keeps_pure _

theorem remaining_keeps (deadline : Option (Option Nat)) :
    Keeps job c hs (remaining deadline) := by
  unfold remaining
  split
  · exact keeps_pure _
  · exact keeps_pure _
  · apply drain_plain (q := .now) rfl
    · exact fun h hh => absurd hh List.not_mem_nil
    exact fun now => keeps_pure _

theorem isCancelled_keeps (cancel : Bool) :
    Keeps job c hs (isCancelled cancel) := by
  unfold isCancelled
  split
  · apply drain_plain (q := .cancelState) rfl
    · exact fun h hh => absurd hh List.not_mem_nil
    exact fun state => keeps_pure _
  · exact keeps_pure _

theorem waitError_keeps (waited : UInt32) :
    Keeps job c hs (waitError waited) := by
  unfold waitError
  split
  · apply drain_plain (q := .lastError) rfl
    · exact fun h hh => absurd hh List.not_mem_nil
    exact fun e => keeps_pure _
  · exact keeps_pure _

/-- What the loop over the pids opens is the caller's, besides the handle to
the job. -/
theorem openMember_holding (dup : Handle)
    (acc : List Handle × Option IoError) (pid : RawPid) :
    (openMember dup acc pid).Abides (drainRole job c)
      (Holding job c (dup :: acc.1))
      fun acc' => Holding job c (dup :: acc'.1) := by
  unfold openMember
  apply drain_open
  intro opened
  cases opened with
  | error e =>
      dsimp only
      split
      · exact .pure (Role.pull_stable stable_holding) fun k _ hk => hk
      · exact .pure (Role.pull_stable stable_holding) fun k _ hk => hk
  | ok handle =>
      apply drain_plain (q := .isProcessInJob handle dup) rfl
      · intro h hh
        simp only [JobCall.handles, List.mem_cons, List.not_mem_nil,
          or_false] at hh
        simp only [List.mem_cons]
        cases hh with
        | inl heq => exact Or.inl heq
        | inr heq => exact Or.inr (Or.inl heq)
      intro confirmed
      match confirmed with
      | .ok true =>
          apply Prog.Abides.pure (Role.pull_stable stable_holding)
          intro k _ hk
          apply hk.perm
          refine (List.Perm.swap dup handle acc.1).trans ?_
          exact List.Perm.cons dup (List.perm_append_singleton handle acc.1).symm
      | .ok false =>
          refine Prog.Abides.bind _ (drain_close handle) ?_
          intro u
          exact .pure (Role.pull_stable stable_holding) fun k _ hk => hk
      | .error e =>
          refine Prog.Abides.bind _ (drain_close handle) ?_
          intro u
          exact .pure (Role.pull_stable stable_holding) fun k _ hk => hk

theorem closeAll_holding (dup : Handle) (handles : List Handle) :
    (forM handles JobDrain.close).Abides (drainRole job c)
      (Holding job c (dup :: handles)) fun _ => Holding job c [dup] := by
  induction handles with
  | nil => exact keeps_pure _
  | cons h handles ih =>
      show (JobDrain.close h >>= fun _ => forM handles JobDrain.close).Abides
        (drainRole job c) _ _
      have hclose : (JobDrain.close h).Abides (drainRole job c)
          (Holding job c (dup :: h :: handles))
          fun _ => Holding job c (dup :: handles) := by
        apply (drain_close h).strengthen (Role.pull_stable stable_holding)
        intro k _ hk
        exact hk.perm (List.Perm.swap h dup handles)
      exact Prog.Abides.bind _ hclose fun _ => ih

theorem waitMembers_holding (dup : Handle) (handles : List Handle)
    (cancel : Bool) (left : Option Nat) :
    (waitMembers handles cancel left).Abides (drainRole job c)
      (Holding job c (dup :: handles)) fun _ => Holding job c [dup] := by
  unfold waitMembers
  apply drain_plain
    (q := .waitForMultipleObjects handles cancel (waitMs left)) rfl
  · exact fun h hh => List.mem_cons_of_mem _ hh
  intro waited
  refine Prog.Abides.bind _ (waitError_keeps waited) ?_
  intro failed
  refine Prog.Abides.bind _ (closeAll_holding dup handles) ?_
  exact fun _ => keeps_pure _

theorem watchMembers_keeps (dup : Handle) (deadline : Option (Option Nat))
    (cancel : Bool) (pids : List RawPid) :
    Keeps job c [dup] (watchMembers dup deadline cancel pids) := by
  unfold watchMembers
  refine Prog.Abides.bind _ (Prog.Abides.foldlM
    (fun _ acc => Holding job c (dup :: acc.1))
    (fun _ => Role.pull_stable stable_holding)
    (fun pid _ acc => openMember_holding dup acc pid) _ _) ?_
  intro acc
  refine Prog.Abides.bind _ (remaining_keeps deadline) ?_
  intro left
  split
  · next hempty =>
      rw [List.isEmpty_iff.mp hempty]
      exact keeps_pure _
  · exact waitMembers_holding dup acc.1 cancel left

theorem drainRound_keeps (dup : Handle) (deadline : Option (Option Nat))
    (cancel : Bool) (fuel : Nat) :
    Keeps job c [dup] (drainRound dup deadline cancel fuel) := by
  unfold drainRound
  apply (isCancelled_keeps cancel).bind
  intro cancelled
  split
  · exact keeps_pure _
  apply Keeps.bind
    (queryJobPidListFrom_keeps (List.mem_singleton.mpr rfl) fuel 64)
  intro listed
  match listed with
  | none => exact keeps_pure _
  | some (.error e) => exact keeps_pure _
  | some (.ok []) => exact keeps_pure _
  | some (.ok (pid :: pids)) =>
      apply (watchMembers_keeps dup deadline cancel (pid :: pids)).bind
      exact fun ended => keeps_pure _

theorem waitDrainedRaw_keeps (dup : Handle) (deadline : Option (Option Nat))
    (cancel : Bool) (fuel : Nat) :
    Keeps job c [dup] (waitDrainedRaw dup deadline cancel fuel) := by
  induction fuel with
  | zero => exact keeps_pure _
  | succ fuel ih =>
      unfold waitDrainedRaw
      apply (drainRound_keeps dup deadline cancel fuel).bind
      intro ended
      match ended with
      | none => exact keeps_pure _
      | some (.verdict r) => exact keeps_pure _
      | some .again => exact ih

end

/-! ## The operations -/

theorem holding_nil {k : Host C} (h : k.owner job.opened ≠ .caller c) :
    Holding job c [] k :=
  ⟨fun _ hh => absurd hh List.not_mem_nil, .nil, h⟩

/-- A call through the lock is made on the job's open handle, if at all. -/
theorem withHandle_allowed {use : Use} {k : Host C} {hs : List Handle}
    {h : Handle} (hinv : Inv job k) (hraw : k.raw = some h)
    (hheld : Holding job c hs k)
    (hhandles : ∀ h ∈ (use.call job).handles, h = job ∨ h ∈ hs) :
    Allowed job c (use.call job) k where
  live := by
    intro h' hh'
    cases hhandles h' hh' with
    | inl heq => exact heq ▸ (hinv.raw_some hraw).2.1
    | inr hmem => exact (hheld.owns h' hmem).2
  taken := by
    intro _ hnone
    rw [hraw] at hnone
    cases hnone

/-- A section finds the lock empty, or the job's handle in it. -/
theorem withHandle_cases {use : Use} {k k' : Host C}
    {answer : Option use.Reply} (h : k.withHandle c use answer k')
    (hinv : Inv job k) :
    (answer = none ∧ k' = k) ∨
      k.raw = some job ∧ ∃ reply, answer = some (use.result job reply) ∧
        k.answers c (use.call job) reply k' := by
  unfold Host.withHandle at h
  cases hraw : k.raw with
  | none =>
      rw [hraw] at h
      exact Or.inl h
  | some raw =>
      rw [hraw] at h
      have hjob := (hinv.raw_some hraw).1
      subst hjob
      exact Or.inr ⟨rfl, h⟩

/-- A section that opens nothing. -/
theorem withHandle_steps {use : Use} {k k' : Host C} {hs : List Handle}
    {answer : Option use.Reply} (h : k.withHandle c use answer k')
    (hplain : ∀ h, isPlain (use.call h) = true) (hinv : Inv job k)
    (hheld : Holding job c hs k)
    (hhandles : ∀ h ∈ (use.call job).handles, h = job ∨ h ∈ hs) :
    Steps job c k k' (Holding job c hs) ∧ (k.raw = none → answer = none) := by
  rcases withHandle_cases h hinv with ⟨rfl, rfl⟩ |
    ⟨hraw, reply, rfl, hanswer⟩
  · exact ⟨⟨hinv, .refl _ k', hheld⟩, fun _ => rfl⟩
  · refine ⟨plain_steps (hplain job) hanswer hinv hheld ?_, by simp [hraw]⟩
    exact withHandle_allowed hinv hraw hheld hhandles

/-- What the section that duplicates the handle leaves behind. -/
def Duplicated (job : Handle) (c : C)
    (answer : Option (Except HResult Handle)) (k : Host C) : Prop :=
  match answer with
  | none => Holding job c [] k
  | some opened => Opened job c [] opened k

theorem duplicateJob_steps {k k' : Host C}
    {answer : Option (Except HResult Handle)}
    (h : k.withHandle c .duplicateJob answer k') (hinv : Inv job k)
    (hheld : Holding job c [] k) :
    Steps job c k k' (Duplicated job c answer) ∧
      (k.raw = none → answer = none) := by
  rcases withHandle_cases h hinv with ⟨rfl, rfl⟩ |
    ⟨hraw, reply, rfl, hanswer⟩
  · exact ⟨⟨hinv, .refl _ k', hheld⟩, fun _ => rfl⟩
  · have hhandles : ∀ h ∈ (Use.duplicateJob.call job).handles,
        h = job ∨ h ∈ [] :=
      fun h hh => Or.inl (List.mem_singleton.mp hh)
    have hallowed : Allowed job c (.duplicateHandle job) k :=
      withHandle_allowed hinv hraw hheld hhandles
    refine ⟨?_, by simp [hraw]⟩
    apply opening_steps _ hinv hheld hallowed rfl rfl
    cases reply with
    | ok h => exact hanswer
    | error e => exact hanswer

/-- An operation that began in the state `start` and has nothing in hand. -/
def Begun (job : Handle) (c : C) (start k : Host C) : Prop :=
  (start.raw = none → k.raw = none) ∧ Holding job c [] k

/-- How an operation ends: with nothing in hand, and where it began with the
handle consumed, with the answer for that. -/
def Ended (job : Handle) (c : C) (start : Host C) {ρ : Type} (consumed r : ρ)
    (k : Host C) : Prop :=
  (start.raw = none → r = consumed) ∧ Holding job c [] k

variable {start : Host C}

theorem stable_begun : (role job c).env.Stable (Begun job c start) :=
  (stable_consumed.imp _).and stable_holding

/-- The end of an operation that began before the take, or finds its answer. -/
theorem ended_pure {ρ : Type} {consumed r : ρ} {pre : Host C → Prop}
    (hstable : (role job c).env.Stable pre)
    (hpre : ∀ k, pre k → Holding job c [] k)
    (hr : start.raw = none → r = consumed) :
    (pure r : Calling ρ).Abides (role job c) pre
      (Ended job c start consumed) :=
  .pure hstable fun k _ hk => ⟨hr, hpre k hk⟩

theorem ask_close {ρ : Type} {handle : Handle} {hs : List Handle}
    {f : Except HResult Unit → Calling ρ} {post : ρ → Host C → Prop}
    (hf : ∀ a, (f a).Abides (role job c) (Holding job c hs) post) :
    Prog.Abides (role job c) (ask (.call (.closeHandle handle)) >>= f)
      (Holding job c (handle :: hs)) post := by
  refine Prog.Abides.query_bind (fun _ => Holding job c hs) stable_holding
    ?_ hf fun _ _ _ => trivial
  intro k a k' hanswer hinv hheld
  exact closing_steps hanswer hinv hheld

theorem disarm_abides :
    disarm.Abides (role job c) (Begun job c start)
      (Ended job c start ()) := by
  refine Prog.Abides.query_bind (fun _ => Holding job c []) stable_begun
    ?_ ?_ fun _ _ _ => trivial
  · intro k answer k' hanswer hinv hk
    apply (withHandle_steps hanswer (fun _ => rfl) hinv hk.2 _).1
    exact fun h hh => Or.inl (List.mem_singleton.mp hh)
  · intro answer
    exact ended_pure stable_holding (fun _ hk => hk) fun _ => rfl

theorem waitDrained_abides (deadline : Option (Option Nat)) (cancel : Bool)
    (fuel : Nat) :
    (waitDrained deadline cancel fuel).Abides (role job c)
      (Begun job c start)
      (Ended job c start (.error consumedJobHandleError)) := by
  refine Prog.Abides.query_bind (fun answer k =>
    (start.raw = none → answer = none) ∧ Duplicated job c answer k)
    stable_begun ?_ ?_ fun _ _ _ => trivial
  · intro k answer k' hanswer hinv hk
    obtain ⟨⟨hinv', hguar, hdup⟩, hnone⟩ :=
      duplicateJob_steps hanswer hinv hk.2
    exact ⟨hinv', hguar, fun hstart => hnone (hk.1 hstart), hdup⟩
  · intro answer
    apply Prog.Abides.given
    intro hstart
    match answer with
    | none => exact ended_pure stable_holding (fun _ hk => hk) fun _ => rfl
    | some (.error e) =>
        apply ended_pure stable_holding (fun _ hk => hk)
        exact fun h => absurd (hstart h) (by simp)
    | some (.ok dup) =>
        refine Prog.Abides.bind (fun _ => Holding job c [dup])
          (Prog.Abides.embed
            (waitDrainedRaw_keeps dup deadline cancel fuel)) ?_
        intro ended
        cases ended with
        | none =>
            -- the wait goes on for ever
            refine Prog.Abides.query_bind (fun _ _ => False) stable_holding
              ?_ ?_ fun _ _ _ => trivial
            · intro k answer k' hanswer
              exact hanswer.elim
            · intro never
              cases never
        | some result =>
            apply ask_close
            intro closed
            apply ended_pure stable_holding (fun _ hk => hk)
            exact fun h => absurd (hstart h) (by simp)

theorem jobContainsPid_abides (pid : UInt32) :
    (jobContainsPid pid).Abides (role job c) (Begun job c start)
      (Ended job c start false) := by
  refine Prog.Abides.query_bind (fun opened k =>
    (start.raw = none → k.raw = none) ∧ Opened job c [] opened k)
    stable_begun ?_ ?_ fun _ _ _ => trivial
  · intro k opened k' hanswer hinv hk
    have hallowed : Allowed job c (.openProcess processQueryInformation pid)
        k := hk.2.allowed fun h hh => absurd hh List.not_mem_nil
    have hsteps : Steps job c k k' (Opened job c [] opened) := by
      apply opening_steps _ hinv hk.2 hallowed rfl rfl
      cases opened with
      | ok h => exact hanswer
      | error e => exact hanswer
    obtain ⟨hinv', hguar, hopened⟩ := hsteps
    exact ⟨hinv', hguar, fun h => hguar.consumed (hk.1 h), hopened⟩
  · intro opened
    cases opened with
    | error e =>
        apply ended_pure ((stable_consumed.imp _).and stable_holding)
        · exact fun _ hk => hk.2
        · exact fun _ => rfl
    | ok process =>
        refine Prog.Abides.query_bind (fun queried k =>
          (start.raw = none → queried = none) ∧ Holding job c [process] k)
          ((stable_consumed.imp _).and stable_holding)
          ?_ ?_ fun _ _ _ => trivial
        · intro k queried k' hanswer hinv hk
          obtain ⟨⟨hinv', hguar, hheld⟩, hnone⟩ :=
            withHandle_steps hanswer (fun _ => rfl) hinv hk.2 (by
              intro h hh
              simp only [Use.call, JobCall.handles, List.mem_cons,
                List.not_mem_nil, or_false] at hh
              simp only [List.mem_cons, List.not_mem_nil, or_false]
              exact hh.symm)
          exact ⟨hinv', hguar, fun h => hnone (hk.1 h), hheld⟩
        · intro queried
          apply Prog.Abides.given
          intro hqueried
          apply ask_close
          intro closed
          apply ended_pure stable_holding (fun _ hk => hk)
          intro h
          rw [hqueried h]
          rfl

/-! ## The operations that take the handle -/

theorem stable_took {answer : Option Handle} :
    (role job c).env.Stable (Took job c answer) := by
  apply stable_of
  intro actor k k' hne hinv hguar hk
  refine ⟨hguar.consumed hk.1, ?_⟩
  cases answer with
  | none => exact hguar.not_taker c hne hk.2
  | some h =>
      obtain ⟨hjob, howns, hcount⟩ := hk.2
      exact ⟨hjob, hguar.owns c job hne howns,
        (hguar.taker c hne howns.1).2.trans hcount⟩

/-- The rule for `take` in front of the rest of an operation. -/
theorem ask_take {ρ : Type} {f : Option Handle → Calling ρ}
    {post : ρ → Host C → Prop}
    (hnone : (f none).Abides (role job c)
      (fun k => k.raw = none ∧ Holding job c [] k) post)
    (hsome : start.raw ≠ none → (f (some job)).Abides (role job c)
      (fun k => k.raw = none ∧ Taken job c k) post) :
    Prog.Abides (role job c) (ask .take >>= f) (Begun job c start) post := by
  refine Prog.Abides.query_bind (fun answer k =>
    (start.raw = none → answer = none) ∧ Took job c answer k)
    stable_begun ?_ ?_ fun _ _ _ => trivial
  · intro k answer k' hanswer hinv hk
    obtain ⟨hinv', hguar, htook, hempty⟩ :=
      take_took hanswer hinv hk.2.not_taker
    exact ⟨hinv', hguar, fun h => hempty (hk.1 h), htook⟩
  · intro answer
    apply Prog.Abides.given
    intro hempty
    cases answer with
    | none =>
        apply hnone.strengthen stable_took
        exact fun k _ hk => ⟨hk.1, holding_nil hk.2⟩
    | some h =>
        by_cases hjob : h = job
        · rw [hjob]
          have hstart : start.raw ≠ none := fun hnone =>
            absurd (hempty hnone) (by simp)
          apply (hsome hstart).strengthen stable_took
          exact fun k _ hk => ⟨hk.1, hk.2.2⟩
        · exact .of_false fun k hk => hjob hk.2.1

/-- The rule for closing the handle that was taken. -/
theorem ask_close_job {ρ : Type} {f : Except HResult Unit → Calling ρ}
    {post : ρ → Host C → Prop}
    (hf : ∀ a, (f a).Abides (role job c)
      (fun k => k.raw = none ∧ Holding job c [] k) post) :
    Prog.Abides (role job c) (ask (.call (closing job)) >>= f)
      (fun k => k.raw = none ∧ Owns c job k) post := by
  refine Prog.Abides.query_bind
    (fun _ k => k.raw = none ∧ Holding job c [] k)
    (stable_consumed.and stable_owns) ?_ hf fun _ _ _ => trivial
  intro k closed k' hanswer hinv hk
  obtain ⟨hinv', hguar, hgone⟩ := closing_job_steps hanswer hinv hk.2
  exact ⟨hinv', hguar, hguar.consumed hk.1, holding_nil hgone⟩

theorem hardKill_abides :
    hardKill.Abides (role job c) (Begun job c start)
      (Ended job c start (.ok ())) := by
  apply ask_take
  · apply ended_pure (stable_consumed.and stable_holding)
    · exact fun _ hk => hk.2
    · exact fun _ => rfl
  · intro hstart
    refine Prog.Abides.query_bind (fun _ k => k.raw = none ∧ Owns c job k)
      (stable_consumed.and stable_taken) ?_ ?_ fun _ _ _ => trivial
    · intro k terminated k' hserves hinv hk
      have hanswer : k.answers c (terminating job) terminated k' := hserves
      obtain ⟨hinv', hguar, howns⟩ := terminating_steps hanswer hinv hk.2
      exact ⟨hinv', hguar, hguar.consumed hk.1, howns⟩
    · intro terminated
      apply ask_close_job
      intro closed
      apply ended_pure (stable_consumed.and stable_holding)
      · exact fun _ hk => hk.2
      · exact fun h => absurd h hstart

theorem drop_abides :
    drop.Abides (role job c) (Begun job c start)
      fun _ k => k.raw = none ∧ Holding job c [] k := by
  apply ask_take
  · exact .pure (stable_consumed.and stable_holding) fun k _ hk => hk
  · intro _
    have hstable : (role job c).env.Stable
        fun k => k.raw = none ∧ Owns c job k :=
      stable_consumed.and stable_owns
    have hclose : Prog.Abides (role job c)
        (ask (.call (closing job)) >>= fun _ => pure ())
        (fun k => k.raw = none ∧ Owns c job k)
        fun (_ : Unit) k => k.raw = none ∧ Holding job c [] k := by
      apply ask_close_job
      intro closed
      exact .pure (stable_consumed.and stable_holding) fun k _ hk => hk
    apply hclose.strengthen (stable_consumed.and stable_taken)
    exact fun k _ hk => ⟨hk.1, hk.2.1⟩

theorem body_abides (op : Op) :
    op.body.Abides (role job c) (Begun job c start)
      (Ended job c start op.consumed) := by
  cases op with
  | disarm => exact disarm_abides
  | waitDrained deadline cancel fuel =>
      exact waitDrained_abides deadline cancel fuel
  | jobContainsPid pid => exact jobContainsPid_abides pid
  | hardKill => exact hardKill_abides

end

end Cosca.Ports.JobLifetime
