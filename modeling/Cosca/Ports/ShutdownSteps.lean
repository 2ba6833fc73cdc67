import Cosca.Ports.Shutdown

/-!
# The steps of a tree shutdown

A run of `graceful_shutdown_tree` is the list of what it asked and was
answered.  Each helper of the two bodies asks at most one thing of each kind.

## Main results

* `watchTree_runs` and `sweepAndReap_runs`: what the watch and the sweep ask, and
  what they make of the answers.
-/

namespace Cosca.Ports.ShutdownTree

open Cosca.Ports.Errors
open Cosca.Ports.Shutdown
open Cosca.Ports.ChildRelease (Attached ExitStatus TreeDrain)
open Cosca.Verified.Interact

/-! ## What a run says -/

/-- The steps of a tree shutdown, in their order. -/
def phase : Question → Nat
  | .signal .. | .terminate .. => 0
  | .watchExit .. | .waitDrained .. => 1
  | .hardKill _ | .kill _ => 2
  | .reap _ => 3

/-- The answer of the group to the cooperative signal. -/
def terminated (events : List (Event Answer)) : Option (Except Error Unit) :=
  events.findSome? fun
    | ⟨.terminate .., answer⟩ => some answer
    | _ => none

/-- The drain watch said `AllMembersExited`. -/
def drained (events : List (Event Answer)) : Bool :=
  events.any fun
    | ⟨.waitDrained .., .ok .allMembersExited⟩ => true
    | _ => false

/-- A watch of the root saw its exit. -/
def rootSeen (events : List (Event Answer)) : Bool :=
  events.any fun
    | ⟨.watchExit .., .ok true⟩ => true
    | _ => false

/-- The error of a watch. -/
def watchError (events : List (Event Answer)) : Option Error :=
  events.findSome? fun
    | ⟨.waitDrained .., .error e⟩ => some e
    | ⟨.watchExit .., .error e⟩ => some e
    | _ => none

/-- The status of the root, where it was reaped. -/
def reaped (events : List (Event Answer)) :
    Option (Except IoError ExitStatus) :=
  events.findSome? fun
    | ⟨.reap _, answer⟩ => some answer
    | _ => none

/-- The answers of the group and of the handle to the sweep. -/
def groupKilled (events : List (Event Answer)) : Option (Except Error Unit) :=
  events.findSome? fun
    | ⟨.hardKill _, answer⟩ => some answer
    | _ => none

def handleKilled (events : List (Event Answer)) :
    Option (Except IoError Unit) :=
  events.findSome? fun
    | ⟨.kill _, answer⟩ => some answer
    | _ => none

/-- The result of the sweep, where there was one: the error of the group, then
that of the handle. -/
def swept (io : IoError → String) (windows : Bool) (c : Child)
    (events : List (Event Answer)) : Option (Except Error Unit) :=
  (groupKilled events).bind fun group =>
    (handleKilled events).map fun handle =>
      group.bind fun _ => handle.mapError fun e =>
        mapElevatedKillError io windows e c.isElevatedWrapper

theorem drained_append (a b : List (Event Answer)) :
    drained (a ++ b) = (drained a || drained b) := List.any_append

theorem rootSeen_append (a b : List (Event Answer)) :
    rootSeen (a ++ b) = (rootSeen a || rootSeen b) := List.any_append

theorem watchError_append (a b : List (Event Answer)) :
    watchError (a ++ b) = (watchError a).or (watchError b) :=
  List.findSome?_append

theorem groupKilled_append (a b : List (Event Answer)) :
    groupKilled (a ++ b) = (groupKilled a).or (groupKilled b) :=
  List.findSome?_append

theorem handleKilled_append (a b : List (Event Answer)) :
    handleKilled (a ++ b) = (handleKilled a).or (handleKilled b) :=
  List.findSome?_append

theorem reaped_append (a b : List (Event Answer)) :
    reaped (a ++ b) = (reaped a).or (reaped b) := List.findSome?_append

/-! ## One step at a time -/

section

variable {io : IoError → String} {windows : Bool} {clock : Clock}
  {os : String} {c : Child} {grace : Nat} {events : List (Event Answer)}

theorem runs_throw {α β : Type} {e : Error} {f : α → ShuttingDown β}
    {r : Except Error β}
    (h : Prog.Runs ((throw e : ShuttingDown α) >>= f).run events r) :
    events = [] ∧ r = .error e :=
  Prog.Runs.of_pure h

theorem wait_runs {r : Except Error ExitStatus}
    (h : Prog.Runs c.wait.run events r) :
    ∃ answer, events = [⟨.reap c.id, answer⟩] ∧ r = answer.mapError .io := by
  obtain ⟨answer, rest, rfl, hrest⟩ := runs_ask_bind h
  obtain ⟨rfl, rfl⟩ := runs_propagate hrest
  exact ⟨answer, rfl, rfl⟩

theorem killTree_runs (hc : isActionable c.attached = true)
    {r : Except Error Unit}
    (h : Prog.Runs (c.killTree io windows os).run events r) :
    ∃ group handle, events =
        [⟨.hardKill c.attached, group⟩, ⟨.kill c.id, handle⟩] ∧
      r = group.bind fun _ => handle.mapError fun e =>
        mapElevatedKillError io windows e c.isElevatedWrapper := by
  have h' : Prog.Runs (ask (.hardKill c.attached) >>= fun group =>
      ask (.kill c.id) >>= fun handle =>
        propagate (group.bind fun _ => handle.mapError fun e =>
          mapElevatedKillError io windows e c.isElevatedWrapper)).run
      events r := by
    unfold Child.killTree at h
    rw [requireContained, if_pos hc] at h
    exact h
  obtain ⟨group, rest, rfl, hrest⟩ := runs_ask_bind h'
  obtain ⟨handle, rest', rfl, hrest'⟩ := runs_ask_bind hrest
  obtain ⟨rfl, rfl⟩ := runs_propagate hrest'
  exact ⟨group, handle, rfl, rfl⟩

/-- A run of the watch, with the verdict it returns. -/
structure WatchRun (events : List (Event Answer)) (isDrained rootExited : Bool)
    (watchErr : Option Error) : Prop where
  watches : ∀ e ∈ events, phase e.question = 1
  asked : events ≠ []
  verdict : drained events = isDrained
  seen : isDrained = false → rootSeen events = rootExited
  failed : watchError events = watchErr

/-- What a watch of the root says of its exit, and its error. -/
def rootVerdict : Except Error Bool → Bool × Option Error
  | .ok exited => (exited, none)
  | .error e => (false, some e)

/-- The watch of the root alone, after a drain watch that said nothing of it. -/
theorem WatchRun.root {past : List (Event Answer)} {timeout : Nat}
    {r : Except Error (Bool × Bool × Option Error)}
    (hpast : ∀ e ∈ past, phase e.question = 1)
    (hdrained : drained past = false) (hseen : rootSeen past = false)
    (hfailed : watchError past = none)
    (h : Prog.Runs (c.watchRoot timeout).run events r) :
    ∃ exited watchErr, r = .ok (false, exited, watchErr) ∧
      WatchRun (past ++ events) false exited watchErr := by
  obtain ⟨answer, rest, rfl, hrest⟩ := runs_ask_bind h
  have hrest' : rest = [] ∧ r = .ok (false, rootVerdict answer) := by
    cases answer <;> exact Prog.Runs.of_pure hrest
  obtain ⟨rfl, rfl⟩ := hrest'
  have hwatches : ∀ e ∈ past ++ [⟨.watchExit c.id timeout, answer⟩],
      phase e.question = 1 := by
    intro e he
    rcases List.mem_append.mp he with he | he
    · exact hpast e he
    · rw [List.mem_singleton.mp he]
      rfl
  refine ⟨_, _, rfl,
    { watches := hwatches
      asked := by simp
      verdict := ?_
      seen := ?_
      failed := ?_ }⟩
  · rw [drained_append, hdrained]
    rfl
  · intro _
    rw [rootSeen_append, hseen]
    cases answer with
    | ok exited => cases exited <;> rfl
    | error e => rfl
  · rw [watchError_append, hfailed]
    cases answer <;> rfl

theorem watchTree_runs {r : Except Error (Bool × Bool × Option Error)}
    (h : Prog.Runs (c.watchTree clock grace).run events r) :
    ∃ isDrained rootExited watchErr,
      r = .ok (isDrained, rootExited, watchErr) ∧
        WatchRun events isDrained rootExited watchErr := by
  unfold Child.watchTree at h
  by_cases hobserve : canObserveDrain c.containment = true
  · rw [if_pos hobserve] at h
    obtain ⟨answer, rest, rfl, hrest⟩ := runs_ask_bind h
    cases answer with
    | error e =>
        obtain ⟨rfl, rfl⟩ := Prog.Runs.of_pure hrest
        exact ⟨false, false, some e, rfl,
          { watches := by simp [phase]
            asked := by simp
            verdict := rfl
            seen := fun _ => rfl
            failed := rfl }⟩
    | ok verdict =>
        simp only at hrest
        by_cases hskip : permitsSkippingSweep verdict = true
        · rw [if_pos hskip] at hrest
          obtain ⟨rfl, rfl⟩ := Prog.Runs.of_pure hrest
          have hverdict : verdict = .allMembersExited := by
            cases verdict with
            | allMembersExited => rfl
            | allMarkersClosed => cases hskip
            | membersRemain => cases hskip
          subst hverdict
          exact ⟨true, true, none, rfl,
            { watches := by simp [phase]
              asked := by simp
              verdict := rfl
              seen := fun hfalse => nomatch hfalse
              failed := rfl }⟩
        · rw [if_neg hskip] at hrest
          have hdrained : drained [⟨.waitDrained c.attached
              (clock.checkedAdd grace), .ok verdict⟩] = false := by
            cases verdict with
            | allMembersExited => exact absurd rfl hskip
            | allMarkersClosed => rfl
            | membersRemain => rfl
          obtain ⟨exited, watchErr, hr, hrun⟩ := WatchRun.root
            (by simp [phase]) hdrained rfl rfl hrest
          exact ⟨false, exited, watchErr, hr, hrun⟩
  · rw [if_neg hobserve] at h
    obtain ⟨exited, watchErr, hr, hrun⟩ :=
      @WatchRun.root c events [] grace r (by simp) rfl rfl rfl h
    exact ⟨false, exited, watchErr, hr, hrun⟩

/-- The status a reaped root returns, unless the watch failed. -/
def finished (watchErr : Option Error)
    (answer : Except IoError ExitStatus) : Except Error ExitStatus :=
  (answer.mapError .io).bind fun status =>
    match watchErr with
    | some e => .error e
    | none => .ok status

theorem finished_eq_ok {watchErr : Option Error}
    {answer : Except IoError ExitStatus} {status : ExitStatus}
    (h : finished watchErr answer = .ok status) :
    watchErr = none ∧ answer = .ok status := by
  cases answer with
  | error e => cases h
  | ok status' =>
      cases watchErr with
      | some e => cases h
      | none =>
          have hstatus : status' = status := Except.ok.inj h
          exact ⟨rfl, by rw [hstatus]⟩

/-- The result of a sweep, from its two answers. -/
def sweepResult (io : IoError → String) (windows : Bool) (c : Child)
    (group : Except Error Unit) (handle : Except IoError Unit) :
    Except Error Unit :=
  group.bind fun _ => handle.mapError fun e =>
    mapElevatedKillError io windows e c.isElevatedWrapper

/-- The runs after the watch. -/
inductive SweepRun (io : IoError → String) (windows : Bool) (c : Child)
    (rootExited : Bool) (watchErr : Option Error) :
    Bool → List (Event Answer) → Except Error ExitStatus → Prop where
  | skipped (answer : Except IoError ExitStatus) :
      SweepRun io windows c rootExited watchErr true [⟨.reap c.id, answer⟩]
        (finished watchErr answer)
  | cleared (group : Except Error Unit) (handle : Except IoError Unit)
      (answer : Except IoError ExitStatus)
      (hswept : sweepResult io windows c group handle = .ok ()) :
      SweepRun io windows c rootExited watchErr false
        [⟨.hardKill c.attached, group⟩, ⟨.kill c.id, handle⟩,
          ⟨.reap c.id, answer⟩]
        (finished watchErr answer)
  | reaped (group : Except Error Unit) (handle : Except IoError Unit)
      (answer : Except IoError ExitStatus) (e : Error)
      (hswept : sweepResult io windows c group handle = .error e)
      (hexited : rootExited = true) :
      SweepRun io windows c rootExited watchErr false
        [⟨.hardKill c.attached, group⟩, ⟨.kill c.id, handle⟩,
          ⟨.reap c.id, answer⟩]
        (.error e)
  | failed (group : Except Error Unit) (handle : Except IoError Unit)
      (e : Error) (hswept : sweepResult io windows c group handle = .error e)
      (hexited : rootExited = false) :
      SweepRun io windows c rootExited watchErr false
        [⟨.hardKill c.attached, group⟩, ⟨.kill c.id, handle⟩] (.error e)

theorem reapRoot_runs {watchErr : Option Error} {r : Except Error ExitStatus}
    (h : Prog.Runs (c.reapRoot watchErr).run events r) :
    ∃ answer, events = [⟨.reap c.id, answer⟩] ∧
      r = finished watchErr answer := by
  rcases Prog.Runs.of_run_bind h with
    ⟨status, first, rest, hwait, hrest, rfl⟩ | ⟨e, hwait, rfl⟩
  · obtain ⟨answer, rfl, hanswer⟩ := wait_runs hwait
    have hend : rest = [] ∧ r = finished watchErr answer := by
      unfold finished
      rw [← hanswer]
      cases watchErr <;> exact Prog.Runs.of_pure hrest
    exact ⟨answer, by rw [hend.1]; rfl, hend.2⟩
  · obtain ⟨answer, rfl, hanswer⟩ := wait_runs hwait
    refine ⟨answer, rfl, ?_⟩
    rw [finished, ← hanswer]
    rfl

theorem sweepAndReap_runs (hc : isActionable c.attached = true)
    {isDrained rootExited : Bool} {watchErr : Option Error}
    {r : Except Error ExitStatus}
    (h : Prog.Runs (c.sweepAndReap io windows os isDrained rootExited
      watchErr).run events r) :
    SweepRun io windows c rootExited watchErr isDrained events r := by
  unfold Child.sweepAndReap at h
  cases isDrained with
  | true =>
      obtain ⟨answer, rfl, rfl⟩ := reapRoot_runs h
      exact .skipped answer
  | false =>
      rw [if_neg (by simp)] at h
      rcases Prog.Runs.of_run_bind h with
        ⟨sweep, first, rest, hkill, hrest, rfl⟩ | ⟨e, hkill, rfl⟩
      · obtain ⟨value, hkill', hvalue⟩ := runs_result hkill
        cases hvalue
        obtain ⟨group, handle, rfl, hswept⟩ := killTree_runs hc hkill'
        cases sweep with
        | ok u =>
            obtain ⟨answer, rfl, rfl⟩ := reapRoot_runs hrest
            exact .cleared group handle answer hswept.symm
        | error e =>
            by_cases hexited : rootExited = true
            · rw [hexited] at hrest
              -- The status of the best-effort reap is dropped.
              rcases Prog.Runs.of_run_bind hrest with
                ⟨status, reaps, rest', hwait, hthrow, rfl⟩ | ⟨e', hwait, -⟩
              · obtain ⟨value, hwait', hvalue⟩ := runs_result hwait
                obtain ⟨answer, rfl, -⟩ := wait_runs hwait'
                obtain ⟨rfl, rfl⟩ := runs_propagate hthrow
                exact .reaped group handle answer e hswept.symm hexited
              · obtain ⟨value, -, hvalue⟩ := runs_result hwait
                cases hvalue
            · have hfalse : rootExited = false := by simpa using hexited
              rw [hfalse] at hrest
              obtain ⟨rfl, rfl⟩ := runs_propagate hrest
              exact .failed group handle e hswept.symm hfalse
      · obtain ⟨value, -, hvalue⟩ := runs_result hkill
        cases hvalue

end

end Cosca.Ports.ShutdownTree
