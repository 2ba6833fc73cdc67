import Cosca.Ports.ShutdownSteps

/-!
# The order of a tree shutdown

`graceful_shutdown_tree` signals the group, watches it, sweeps what is left
and reaps the root.  `Orderly` says of a run which step comes before which,
which are left out, and whose error the call returns.

## Main results

* `gracefulShutdownTree_orderly`: the runs of the sync and of the async body
  are in order, and they are the same.
-/

namespace Cosca.Ports.ShutdownTree

open Cosca.Ports.Errors
open Cosca.Ports.Shutdown
open Cosca.Ports.ChildRelease (Attached ExitStatus TreeDrain)
open Cosca.Verified.Interact

/-! ## The order -/

/-- What holds of a run of a tree shutdown whose cooperative half ended with
`term`. -/
structure Orderly (io : IoError → String) (windows : Bool) (c : Child)
    (term : Except Error Unit) (events : List (Event Answer))
    (r : Except Error ExitStatus) : Prop where
  /-- The signal, the watch, the sweep, the reap. -/
  phases : events.Pairwise fun e e' => phase e.question ≤ phase e'.question
  /-- The root is not reaped before the sweep, and not without one unless the
  tree drained. -/
  reap : (reaped events).isSome = true →
    (swept io windows c events).isSome = true ∨ drained events = true
  /-- Another error than a refusal ends the call. -/
  refused : ∀ e, term = .error e → isHeld e = false →
    r = .error e ∧ ∀ event ∈ events, phase event.question = 0
  /-- Otherwise the sweep is skipped for a drained tree alone. -/
  skipped : (∀ e, term = .error e → isHeld e = true) →
    (swept io windows c events = none ↔ drained events = true)
  /-- After a failed sweep the root is reaped if its exit was seen. -/
  failed : ∀ e, swept io windows c events = some (.error e) →
    r = .error e ∧ ((reaped events).isSome = true ↔ rootSeen events = true)
  /-- Without one the reap speaks, then the watch. -/
  surfaced : (∀ e, term = .error e → isHeld e = true) →
    (∀ e, swept io windows c events ≠ some (.error e)) →
    ∃ answer, reaped events = some answer ∧
      r = finished (watchError events) answer
  /-- A status means that all of it went well. -/
  succeeded : ∀ status, r = .ok status →
    (drained events = true ∨ swept io windows c events = some (.ok ())) ∧
      watchError events = none ∧ reaped events = some (.ok status)

/-! ### Reading a run off its parts -/

section

variable {events : List (Event Answer)}

theorem reaped_eq_none (h : ∀ e ∈ events, phase e.question ≠ 3) :
    reaped events = none := by
  refine List.findSome?_eq_none_iff.mpr ?_
  rintro ⟨q, answer⟩ he
  cases q <;> first | rfl | exact absurd rfl (h _ he)

theorem terminated_eq_none (h : ∀ e ∈ events, phase e.question ≠ 0) :
    terminated events = none := by
  refine List.findSome?_eq_none_iff.mpr ?_
  rintro ⟨q, answer⟩ he
  cases q <;> first | rfl | exact absurd rfl (h _ he)

theorem groupKilled_eq_none (h : ∀ e ∈ events, phase e.question ≠ 2) :
    groupKilled events = none := by
  refine List.findSome?_eq_none_iff.mpr ?_
  rintro ⟨q, answer⟩ he
  cases q <;> first | rfl | exact absurd rfl (h _ he)

theorem handleKilled_eq_none (h : ∀ e ∈ events, phase e.question ≠ 2) :
    handleKilled events = none := by
  refine List.findSome?_eq_none_iff.mpr ?_
  rintro ⟨q, answer⟩ he
  cases q <;> first | rfl | exact absurd rfl (h _ he)

theorem watchError_eq_none (h : ∀ e ∈ events, phase e.question ≠ 1) :
    watchError events = none := by
  refine List.findSome?_eq_none_iff.mpr ?_
  rintro ⟨q, answer⟩ he
  cases q <;> first | rfl | exact absurd rfl (h _ he)

theorem drained_eq_false (h : ∀ e ∈ events, phase e.question ≠ 1) :
    drained events = false := by
  refine List.any_eq_false.mpr ?_
  rintro ⟨q, answer⟩ he
  cases q <;> first | exact absurd rfl (h _ he) | simp

theorem rootSeen_eq_false (h : ∀ e ∈ events, phase e.question ≠ 1) :
    rootSeen events = false := by
  refine List.any_eq_false.mpr ?_
  rintro ⟨q, answer⟩ he
  cases q <;> first | exact absurd rfl (h _ he) | simp

end

section

variable {io : IoError → String} {windows : Bool} {c : Child}
  {term : Except Error Unit} {signals watches sweeps : List (Event Answer)}
  {isDrained rootExited : Bool} {watchErr : Option Error}
  {r : Except Error ExitStatus}

theorem SweepRun.phases
    (h : SweepRun io windows c rootExited watchErr isDrained sweeps r) :
    (∀ e ∈ sweeps, 2 ≤ phase e.question) ∧
      sweeps.Pairwise fun e e' => phase e.question ≤ phase e'.question := by
  cases h <;> simp [phase]

/-- What a run says of its watch it says by its watch alone. -/
theorem watch_readings
    (hsignals : ∀ e ∈ signals, phase e.question = 0)
    (hsweeps : ∀ e ∈ sweeps, 2 ≤ phase e.question) :
    drained (signals ++ watches ++ sweeps) = drained watches ∧
      rootSeen (signals ++ watches ++ sweeps) = rootSeen watches ∧
      watchError (signals ++ watches ++ sweeps) = watchError watches := by
  have hsignals' : ∀ e ∈ signals, phase e.question ≠ 1 := by
    intro e he
    have := hsignals e he
    omega
  have hsweeps' : ∀ e ∈ sweeps, phase e.question ≠ 1 := by
    intro e he
    have := hsweeps e he
    omega
  refine ⟨?_, ?_, ?_⟩
  · rw [drained_append, drained_append, drained_eq_false hsignals',
      drained_eq_false hsweeps', Bool.false_or, Bool.or_false]
  · rw [rootSeen_append, rootSeen_append, rootSeen_eq_false hsignals',
      rootSeen_eq_false hsweeps', Bool.false_or, Bool.or_false]
  · rw [watchError_append, watchError_append, watchError_eq_none hsignals',
      watchError_eq_none hsweeps', Option.none_or, Option.or_none]

/-- What it says of its sweep and its reap it says by its end. -/
theorem sweep_readings
    (hsignals : ∀ e ∈ signals, phase e.question = 0)
    (hwatches : ∀ e ∈ watches, phase e.question = 1) :
    swept io windows c (signals ++ watches ++ sweeps) =
        swept io windows c sweeps ∧
      reaped (signals ++ watches ++ sweeps) = reaped sweeps := by
  have hbefore : ∀ e ∈ signals ++ watches, phase e.question < 2 := by
    intro e he
    rcases List.mem_append.mp he with he | he
    · have := hsignals e he
      omega
    · have := hwatches e he
      omega
  have hsweep : ∀ e ∈ signals ++ watches, phase e.question ≠ 2 :=
    fun e he => Nat.ne_of_lt (hbefore e he)
  have hreap : ∀ e ∈ signals ++ watches, phase e.question ≠ 3 := by
    intro e he
    have := hbefore e he
    omega
  constructor
  · rw [swept, groupKilled_append, handleKilled_append,
      groupKilled_eq_none hsweep, handleKilled_eq_none hsweep, Option.none_or,
      Option.none_or]
    rfl
  · rw [reaped_append, reaped_eq_none hreap, Option.none_or]

/-- A cooperative half that ends the call. -/
theorem Orderly.ended {e : Error}
    (hsignals : ∀ e ∈ signals, phase e.question = 0)
    (hsorted : signals.Pairwise fun e e' =>
      phase e.question ≤ phase e'.question)
    (hheld : isHeld e = false) :
    Orderly io windows c (.error e) signals (.error e) := by
  have hswept : swept io windows c signals = none := by
    rw [swept, groupKilled_eq_none fun e he => by rw [hsignals e he]; decide]
    rfl
  have hreaped : reaped signals = none :=
    reaped_eq_none fun e he => by rw [hsignals e he]; decide
  refine
    { phases := hsorted
      reap := ?_
      refused := ?_
      skipped := ?_
      failed := ?_
      surfaced := ?_
      succeeded := ?_ }
  · intro h
    rw [hreaped] at h
    cases h
  · intro e' he' _
    cases he'
    exact ⟨rfl, hsignals⟩
  · intro h
    rw [h e rfl] at hheld
    cases hheld
  · intro e' h
    rw [hswept] at h
    cases h
  · intro h
    rw [h e rfl] at hheld
    cases hheld
  · intro status h
    cases h

/-- A cooperative half that does not, then the watch and what follows it. -/
theorem Orderly.escalated
    (hsignals : ∀ e ∈ signals, phase e.question = 0)
    (hsorted : signals.Pairwise fun e e' =>
      phase e.question ≤ phase e'.question)
    (hheld : ∀ e, term = .error e → isHeld e = true)
    (hwatch : WatchRun watches isDrained rootExited watchErr)
    (hsweep : SweepRun io windows c rootExited watchErr isDrained sweeps r) :
    Orderly io windows c term (signals ++ watches ++ sweeps) r := by
  obtain ⟨hlate, hsweeps⟩ := hsweep.phases
  obtain ⟨hdrained, hseen, herror⟩ :=
    @watch_readings signals watches sweeps hsignals hlate
  obtain ⟨hswept, hreaped⟩ :=
    @sweep_readings io windows c signals watches sweeps hsignals
      hwatch.watches
  rw [hwatch.verdict] at hdrained
  rw [hwatch.failed] at herror
  refine
    { phases := ?_
      reap := ?_
      refused := ?_
      skipped := fun _ => ?_
      failed := ?_
      surfaced := fun _ hclear => ?_
      succeeded := ?_ }
  · have hwatches : watches.Pairwise fun e e' =>
        phase e.question ≤ phase e'.question :=
      List.pairwise_of_forall_mem_list fun e he e' he' =>
        Nat.le_of_eq ((hwatch.watches e he).trans (hwatch.watches e' he').symm)
    rw [List.append_assoc, List.pairwise_append, List.pairwise_append]
    refine ⟨hsorted, ⟨hwatches, hsweeps, ?_⟩, ?_⟩
    · intro e he e' he'
      rw [hwatch.watches e he]
      have := hlate e' he'
      omega
    · intro e he e' he'
      rw [hsignals e he]
      exact Nat.zero_le _
  · rw [hreaped, hswept, hdrained]
    intro _
    cases hsweep with
    | skipped answer => exact Or.inr rfl
    | cleared group handle answer _ => exact Or.inl rfl
    | reaped group handle answer e _ _ => exact Or.inl rfl
    | failed group handle e _ _ => exact Or.inl rfl
  · intro e he hnot
    rw [hheld e he] at hnot
    cases hnot
  · rw [hswept, hdrained]
    cases hsweep with
    | skipped answer => exact ⟨fun _ => rfl, fun _ => rfl⟩
    | cleared group handle answer _ =>
        exact ⟨fun h => (nomatch h), fun h => (nomatch h)⟩
    | reaped group handle answer e _ _ =>
        exact ⟨fun h => (nomatch h), fun h => (nomatch h)⟩
    | failed group handle e _ _ =>
        exact ⟨fun h => (nomatch h), fun h => (nomatch h)⟩
  · rw [hswept, hreaped, hseen]
    intro e h
    cases hsweep with
    | skipped answer => cases h
    | cleared group handle answer hclear =>
        have h' : sweepResult io windows c group handle = .error e :=
          Option.some.inj h
        rw [hclear] at h'
        cases h'
    | reaped group handle answer e' herr hexited =>
        have h' : sweepResult io windows c group handle = .error e :=
          Option.some.inj h
        rw [herr] at h'
        cases h'
        refine ⟨rfl, fun _ => ?_, fun _ => rfl⟩
        rw [hwatch.seen rfl]
        exact hexited
    | failed group handle e' herr hexited =>
        have h' : sweepResult io windows c group handle = .error e :=
          Option.some.inj h
        rw [herr] at h'
        cases h'
        refine ⟨rfl, fun hsome => (nomatch hsome), fun hexit => ?_⟩
        rw [hwatch.seen rfl, hexited] at hexit
        cases hexit
  · rw [hreaped, herror]
    rw [hswept] at hclear
    cases hsweep with
    | skipped answer => exact ⟨answer, rfl, rfl⟩
    | cleared group handle answer _ => exact ⟨answer, rfl, rfl⟩
    | reaped group handle answer e herr _ =>
        exact absurd (congrArg some herr) (hclear e)
    | failed group handle e herr _ =>
        exact absurd (congrArg some herr) (hclear e)
  · rw [hswept, hreaped, hdrained, herror]
    intro status h
    cases hsweep with
    | skipped answer =>
        obtain ⟨hwatchErr, hanswer⟩ := finished_eq_ok h
        exact ⟨Or.inl rfl, hwatchErr, congrArg some hanswer⟩
    | cleared group handle answer hclear =>
        obtain ⟨hwatchErr, hanswer⟩ := finished_eq_ok h
        exact ⟨Or.inr (congrArg some hclear), hwatchErr,
          congrArg some hanswer⟩
    | reaped group handle answer e _ _ => cases h
    | failed group handle e _ _ => cases h

end

/-! ## The two bodies -/

section

variable (io : IoError → String) (windows : Bool) (clock : Clock)
  (os : String)

/-- What both bodies do once `terminate_tree` has returned. -/
def afterTerminate (c : Child) (grace : Nat) (term : Except Error Unit) :
    ShuttingDown ExitStatus := do
  if let .error e := term then
    if !isHeld e then throw e
  let (drained, rootExited, watchErr) ← c.watchTree clock grace
  c.sweepAndReap io windows os drained rootExited watchErr

/-- `terminate_tree` of the async child, with the error it makes up for a pid
that it does not pin. -/
def TokioChild.refusal (c : TokioChild) : Option Error :=
  if windows && !c.pinsPid then some (c.unpinnedPidRefusal "terminate_tree")
  else none

/-- What `terminate_tree` returned in a run of a body, when it makes up the
error `refusal` instead of asking. -/
def termination (refusal : Option Error) (c : Child)
    (events : List (Event Answer)) : Option (Except Error Unit) :=
  match requireContained os c.attached, refusal with
  | .error e, _ => some (.error e)
  | .ok (), some e => some (.error e)
  | .ok (), none => terminated events

theorem Child.gracefulShutdownTree_eq (c : Child) (grace : Nat) :
    c.gracefulShutdownTree io windows clock os grace = (do
      propagate (requireContained os c.attached)
      afterTerminate io windows clock os c grace
        (← result (c.terminateTree os))) := rfl

theorem TokioChild.watchRoot_eq (c : TokioChild) (timeout : Nat) :
    c.watchRoot timeout = c.sync.watchRoot timeout := by
  unfold TokioChild.watchRoot Child.watchRoot
  congr 1
  funext answer
  cases answer <;> rfl

theorem TokioChild.watchTree_eq (c : TokioChild) (grace : Nat) :
    c.watchTree clock grace = c.sync.watchTree clock grace := by
  unfold TokioChild.watchTree Child.watchTree
  simp only [TokioChild.watchRoot_eq]
  by_cases hobserve : canObserveDrain c.containment = true
  · rw [if_pos hobserve, if_pos hobserve]
    congr 1
    funext answer
    cases answer <;> rfl
  · rw [if_neg hobserve, if_neg hobserve]

theorem TokioChild.kill_result (c : TokioChild) :
    result (c.kill io windows) = (do
      return (← ask (.kill c.id)).mapError fun e =>
        mapElevatedKillError io windows e c.isElevatedWrapper) := by
  show Prog.ask _ _ = Prog.ask _ _
  congr 1
  funext handle
  cases handle <;> rfl

theorem TokioChild.killTree_eq (c : TokioChild) :
    c.killTree io windows os = c.sync.killTree io windows os := by
  unfold TokioChild.killTree
  rw [TokioChild.kill_result]
  rfl

theorem TokioChild.sweepAndReap_eq (c : TokioChild)
    (isDrained rootExited : Bool) (watchErr : Option Error) :
    c.sweepAndReap io windows os isDrained rootExited watchErr =
      c.sync.sweepAndReap io windows os isDrained rootExited watchErr := by
  unfold TokioChild.sweepAndReap Child.sweepAndReap
  rw [TokioChild.killTree_eq]
  rfl

theorem TokioChild.gracefulShutdownTree_eq (c : TokioChild) (grace : Nat) :
    c.gracefulShutdownTree io windows clock os grace = (do
      afterTerminate io windows clock os c.sync grace
        (← result (c.terminateTree windows os))) := by
  unfold TokioChild.gracefulShutdownTree afterTerminate
  refine congrArg (result (c.terminateTree windows os) >>= ·)
    (funext fun term => ?_)
  cases term with
  | error e =>
      simp only [TokioChild.watchTree_eq, TokioChild.sweepAndReap_eq]
  | ok u =>
      simp only [TokioChild.watchTree_eq, TokioChild.sweepAndReap_eq]

end

section

variable {io : IoError → String} {windows : Bool} {clock : Clock}
  {os : String} {c : Child} {grace : Nat} {term : Except Error Unit}
  {signals events : List (Event Answer)} {r : Except Error ExitStatus}

/-- A body after its cooperative half, which asked `signals`. -/
theorem afterTerminate_runs (hc : isActionable c.attached = true)
    (hsignals : ∀ e ∈ signals, phase e.question = 0)
    (hsorted : signals.Pairwise fun e e' =>
      phase e.question ≤ phase e'.question)
    (h : Prog.Runs (afterTerminate io windows clock os c grace term).run
      events r) :
    Orderly io windows c term (signals ++ events) r ∧
      terminated events = none := by
  by_cases hheld : ∀ e, term = .error e → isHeld e = true
  · have h' : Prog.Runs (c.watchTree clock grace >>= fun verdict =>
        c.sweepAndReap io windows os verdict.1 verdict.2.1
          verdict.2.2).run events r := by
      cases term with
      | ok u => exact h
      | error e =>
          unfold afterTerminate at h
          simp only [hheld e rfl, Bool.not_true, Bool.false_eq_true,
            if_false] at h
          exact h
    rcases Prog.Runs.of_run_bind h' with
      ⟨verdict, watches, sweeps, hwatch, hrest, rfl⟩ | ⟨e, hwatch, -⟩
    · obtain ⟨isDrained, rootExited, watchErr, hverdict, hwatched⟩ :=
        watchTree_runs hwatch
      cases hverdict
      have hswept := sweepAndReap_runs hc hrest
      rw [← List.append_assoc]
      refine ⟨Orderly.escalated hsignals hsorted hheld hwatched hswept,
        terminated_eq_none ?_⟩
      intro e he
      rcases List.mem_append.mp he with he | he
      · have := hwatched.watches e he
        omega
      · have := hswept.phases.1 e he
        omega
    · obtain ⟨isDrained, rootExited, watchErr, hverdict, -⟩ :=
        watchTree_runs hwatch
      cases hverdict
  · cases term with
    | ok u => exact absurd (fun e he => nomatch he) hheld
    | error e =>
        have hnot : isHeld e = false := by
          by_cases he : isHeld e = true
          · exact absurd (fun e' he' => by cases he'; exact he) hheld
          · simpa using he
        unfold afterTerminate at h
        simp only [hnot, Bool.not_false, if_true] at h
        obtain ⟨rfl, rfl⟩ := runs_throw h
        rw [List.append_nil]
        exact ⟨Orderly.ended hsignals hsorted hnot, rfl⟩

theorem requireContained_ok (hc : isActionable c.attached = true) :
    requireContained os c.attached = .ok () := if_pos hc

theorem requireContained_error (hc : isActionable c.attached = false) :
    ∃ e, requireContained os c.attached = .error e ∧ isHeld e = false := by
  rw [requireContained, if_neg (by simp [hc])]
  exact ⟨_, rfl, rfl⟩

/-- A child without containment is refused before anything is asked. -/
theorem uncontained_runs {program : ShuttingDown ExitStatus}
    {refusal : Option Error} {e : Error}
    (he : requireContained os c.attached = .error e)
    (hheld : isHeld e = false) (hprogram : program = throw e)
    (h : Prog.Runs program.run events r) :
    ∃ term, termination os refusal c events = some term ∧
      Orderly io windows c term events r := by
  subst hprogram
  obtain ⟨rfl, rfl⟩ := Prog.Runs.of_pure h
  refine ⟨.error e, ?_, Orderly.ended (by simp) .nil hheld⟩
  unfold termination
  rw [he]

theorem Child.gracefulShutdownTree_contained
    (hc : isActionable c.attached = true) :
    c.gracefulShutdownTree io windows clock os grace = (do
      afterTerminate io windows clock os c grace
        (← ask (.terminate c.attached c.id.pid))) := by
  rw [Child.gracefulShutdownTree_eq, Child.terminateTree,
    requireContained_ok hc]
  rfl

theorem Child.gracefulShutdownTree_uncontained {e : Error}
    (he : requireContained os c.attached = .error e) :
    c.gracefulShutdownTree io windows clock os grace = throw e := by
  rw [Child.gracefulShutdownTree_eq, he]
  rfl

end

section

variable {io : IoError → String} {windows : Bool} {clock : Clock}
  {os : String} {c : TokioChild} {grace : Nat} {e : Error}
  {events : List (Event Answer)} {r : Except Error ExitStatus}

theorem TokioChild.gracefulShutdownTree_uncontained
    (he : requireContained os c.attached = .error e)
    (hheld : isHeld e = false) :
    c.gracefulShutdownTree io windows clock os grace = throw e := by
  rw [TokioChild.gracefulShutdownTree_eq, TokioChild.terminateTree, he]
  show afterTerminate io windows clock os c.sync grace (.error e) = _
  unfold afterTerminate
  simp only [hheld, Bool.not_false, if_true]
  rfl

theorem TokioChild.gracefulShutdownTree_refused
    (hc : isActionable c.attached = true)
    (hrefusal : TokioChild.refusal windows c = some e) :
    c.gracefulShutdownTree io windows clock os grace =
      afterTerminate io windows clock os c.sync grace (.error e) := by
  rw [TokioChild.gracefulShutdownTree_eq, TokioChild.terminateTree,
    requireContained_ok hc]
  unfold TokioChild.refusal at hrefusal
  by_cases hunpinned : (windows && !c.pinsPid) = true
  · rw [if_pos hunpinned] at hrefusal
    cases hrefusal
    rw [if_pos hunpinned]
    rfl
  · rw [if_neg hunpinned] at hrefusal
    cases hrefusal

theorem TokioChild.gracefulShutdownTree_pinned
    (hrefusal : TokioChild.refusal windows c = none) :
    c.gracefulShutdownTree io windows clock os grace =
      c.sync.gracefulShutdownTree io windows clock os grace := by
  by_cases hc : isActionable c.attached = true
  · rw [TokioChild.gracefulShutdownTree_eq, TokioChild.terminateTree,
      requireContained_ok hc, Child.gracefulShutdownTree_contained hc]
    unfold TokioChild.refusal at hrefusal
    by_cases hunpinned : (windows && !c.pinsPid) = true
    · rw [if_pos hunpinned] at hrefusal
      cases hrefusal
    · rw [if_neg hunpinned]
      rfl
  · obtain ⟨e, he, hheld⟩ := @requireContained_error os c.sync
      (by simpa using hc)
    rw [TokioChild.gracefulShutdownTree_uncontained he hheld,
      Child.gracefulShutdownTree_uncontained he]

theorem Child.gracefulShutdownTree_runs {c : Child}
    (h : Prog.Runs (c.gracefulShutdownTree io windows clock os grace).run
      events r) :
    ∃ term, termination os none c events = some term ∧
      Orderly io windows c term events r := by
  by_cases hc : isActionable c.attached = true
  · rw [Child.gracefulShutdownTree_contained hc] at h
    obtain ⟨term, rest, rfl, hrest⟩ := runs_ask_bind h
    refine ⟨term, ?_, ?_⟩
    · unfold termination
      rw [requireContained_ok hc]
      rfl
    · have hsignals : ∀ e ∈ [(⟨.terminate c.attached c.id.pid, term⟩ :
          Event Answer)], phase e.question = 0 := by simp [phase]
      exact (afterTerminate_runs hc hsignals (by simp) hrest).1
  · obtain ⟨e, he, hheld⟩ := @requireContained_error os c (by simpa using hc)
    exact uncontained_runs he hheld
      (Child.gracefulShutdownTree_uncontained he) h

theorem TokioChild.gracefulShutdownTree_runs
    (h : Prog.Runs (c.gracefulShutdownTree io windows clock os grace).run
      events r) :
    ∃ term, termination os (refusal windows c) c.sync events = some term ∧
      Orderly io windows c.sync term events r := by
  cases hrefusal : refusal windows c with
  | none =>
      rw [TokioChild.gracefulShutdownTree_pinned hrefusal] at h
      exact Child.gracefulShutdownTree_runs h
  | some e =>
      by_cases hc : isActionable c.attached = true
      · rw [TokioChild.gracefulShutdownTree_refused hc hrefusal] at h
        refine ⟨.error e, ?_, ?_⟩
        · unfold termination
          rw [show requireContained os c.sync.attached = .ok () from
            requireContained_ok hc]
        · exact (@afterTerminate_runs io windows clock os c.sync grace
            (.error e) [] events r hc (by simp) .nil h).1
      · obtain ⟨e', he, hheld⟩ := @requireContained_error os c.sync
          (by simpa using hc)
        exact uncontained_runs he hheld
          (TokioChild.gracefulShutdownTree_uncontained he hheld) h

/-- After a refusal the async body goes on as the sync one does when the group
answers with that refusal. -/
theorem TokioChild.gracefulShutdownTree_refused_iff
    (hc : isActionable c.attached = true)
    (hrefusal : refusal windows c = some e) :
    Prog.Runs (c.gracefulShutdownTree io windows clock os grace).run events r ↔
      Prog.Runs (c.sync.gracefulShutdownTree io windows clock os grace).run
        (⟨.terminate c.attached c.id.pid, .error e⟩ :: events) r := by
  rw [TokioChild.gracefulShutdownTree_refused hc hrefusal,
    Child.gracefulShutdownTree_contained hc]
  constructor
  · intro h
    exact Prog.Runs.ask (Question.terminate c.attached c.id.pid)
      (fun term : Except Error Unit =>
        (afterTerminate io windows clock os c.sync grace term).run)
      (Except.error e) h
  · intro h
    obtain ⟨answer, rest, hevents, hrest⟩ := runs_ask_bind h
    cases hevents
    exact hrest

end

/-- Every run of either body is in order, and the two bodies have the same
runs; where the async child refuses to signal a pid it does not pin, they are
those in which the group gives that refusal. -/
theorem gracefulShutdownTree_orderly (io : IoError → String) (windows : Bool)
    (clock : Clock) (os : String) (c : TokioChild) (grace : Nat)
    (events : List (Event Answer)) (r : Except Error ExitStatus) :
    (Prog.Runs (c.sync.gracefulShutdownTree io windows clock os grace).run
        events r →
      ∃ term, termination os none c.sync events = some term ∧
        Orderly io windows c.sync term events r) ∧
    (Prog.Runs (c.gracefulShutdownTree io windows clock os grace).run
        events r →
      ∃ term,
        termination os (TokioChild.refusal windows c) c.sync events =
          some term ∧ Orderly io windows c.sync term events r) ∧
    (Prog.Runs (c.gracefulShutdownTree io windows clock os grace).run
        events r ↔
      Prog.Runs (c.sync.gracefulShutdownTree io windows clock os grace).run
        (match requireContained os c.attached, TokioChild.refusal windows c with
          | .ok (), some e =>
              ⟨.terminate c.attached c.id.pid, .error e⟩ :: events
          | _, _ => events) r) := by
  refine ⟨Child.gracefulShutdownTree_runs, TokioChild.gracefulShutdownTree_runs,
    ?_⟩
  cases hrefusal : TokioChild.refusal windows c with
  | none =>
      rw [TokioChild.gracefulShutdownTree_pinned hrefusal]
      cases requireContained os c.attached <;> exact Iff.rfl
  | some e =>
      by_cases hc : isActionable c.attached = true
      · rw [requireContained_ok hc]
        exact TokioChild.gracefulShutdownTree_refused_iff hc hrefusal
      · obtain ⟨e', he, hheld⟩ := @requireContained_error os c.sync
          (by simpa using hc)
        rw [TokioChild.gracefulShutdownTree_uncontained he hheld,
          Child.gracefulShutdownTree_uncontained he, he]

end Cosca.Ports.ShutdownTree


