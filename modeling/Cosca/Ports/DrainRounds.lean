import Mathlib.Data.List.Basic
import Cosca.Ports.JobDrain

/-!
# The rounds of a job drain

What one round of `wait_drained_raw` asks and how it ends, for every sequence
of answers, and a run of the wait as its rounds one after the other.

## Main results

* `drainRound_cases`: the ways a round goes.
* `waitDrainedRaw_rounds`: a run is a sequence of rounds.
-/

namespace Cosca.Ports.DrainRounds

open Cosca.Ports.Errors
open Cosca.Ports.Identity
open Cosca.Ports.StartToken (HResult HResult.io invalidParameterHresult)
open Cosca.Ports.PinnedHost (processQueryLimitedInformation processSynchronize
  waitObject0 waitTimeout)
open Cosca.Ports.ChildRelease (TreeDrain)
open Cosca.Ports.JobDrain
open Cosca.Verified.Interact

/-- A call and what it returned. -/
abbrev JobEvent := Event JobCall.Reply

/-! ## The parts of a round -/

/-- The look at the cancel event. -/
inductive Check : Bool → List JobEvent → Bool → Prop where
  | uncancellable : Check false [] false
  | asked (state : UInt32) :
      Check true [⟨.cancelState, state⟩] (state == waitObject0)

/-- An enumeration with room for `capacity` ids; `none` where it still goes
on. -/
inductive Enumerated (job : Handle) : Nat → List JobEvent →
    Option (Except IoError (List RawPid)) → Prop where
  | unfinished (capacity : Nat) : Enumerated job capacity [] none
  | listed (capacity : Nat) {ids : ProcessIds} {pids : List RawPid}
      (hlisted : ids.listed = some pids) :
      Enumerated job capacity [⟨.queryProcessIds job capacity, ids⟩]
        (some (.ok (pids.take capacity)))
  | failed (capacity : Nat) {ids : ProcessIds} (e : IoError)
      (hlisted : ids.listed = none) :
      Enumerated job capacity
        [⟨.queryProcessIds job capacity, ids⟩, ⟨.lastError, e⟩]
        (some (.error e))
  | grown {capacity : Nat} {ids : ProcessIds} {events : List JobEvent}
      {r : Option (Except IoError (List RawPid))}
      (hlisted : ids.listed = none) (hmore : capacity < ids.assigned)
      (hrest : Enumerated job ids.assigned events r) :
      Enumerated job capacity
        (⟨.queryProcessIds job capacity, ids⟩ :: events) r

/-- The rights a member is opened with. -/
abbrev memberRights : UInt32 :=
  processSynchronize ||| processQueryLimitedInformation

/-- What opening one pid does to the handles and to the last failure. -/
inductive MemberOpened (job : Handle) (pid : RawPid) :
    List JobEvent → List Handle × Option IoError →
      List Handle × Option IoError → Prop where
  | exited (acc : List Handle × Option IoError) :
      MemberOpened job pid
        [⟨.openProcess memberRights pid, .error invalidParameterHresult⟩] acc
        acc
  | denied (acc : List Handle × Option IoError) {e : HResult}
      (hother : e ≠ invalidParameterHresult) :
      MemberOpened job pid [⟨.openProcess memberRights pid, .error e⟩] acc
        (acc.1, some (HResult.io e))
  | member (acc : List Handle × Option IoError) (handle : Handle) :
      MemberOpened job pid [⟨.openProcess memberRights pid, .ok handle⟩,
        ⟨.isProcessInJob handle job, .ok true⟩] acc
        (acc.1 ++ [handle], acc.2)
  | bystander (acc : List Handle × Option IoError) (handle : Handle)
      (closed : Except HResult Unit) :
      MemberOpened job pid [⟨.openProcess memberRights pid, .ok handle⟩,
        ⟨.isProcessInJob handle job, .ok false⟩,
        ⟨.closeHandle handle, closed⟩] acc acc
  | unconfirmed (acc : List Handle × Option IoError) (handle : Handle)
      (e : HResult) (closed : Except HResult Unit) :
      MemberOpened job pid [⟨.openProcess memberRights pid, .ok handle⟩,
        ⟨.isProcessInJob handle job, .error e⟩,
        ⟨.closeHandle handle, closed⟩] acc (acc.1, some (HResult.io e))

/-- The pids opened one after the other. -/
inductive Opened (job : Handle) : List RawPid → List JobEvent →
    List Handle × Option IoError → List Handle × Option IoError → Prop where
  | nil (acc : List Handle × Option IoError) : Opened job [] [] acc acc
  | cons {pid : RawPid} {pids : List RawPid} {events rest : List JobEvent}
      {acc mid acc' : List Handle × Option IoError}
      (hpid : MemberOpened job pid events acc mid)
      (hrest : Opened job pids rest mid acc') :
      Opened job (pid :: pids) (events ++ rest) acc acc'

/-- The time that is left. -/
inductive Reading : Option (Option Nat) → List JobEvent → Option Nat →
    Prop where
  | unbounded : Reading none [] none
  | overflowed : Reading (some none) [] none
  | bounded (due now : Nat) :
      Reading (some (some due)) [⟨.now, now⟩] (some (due - now))

/-- The error of a wait that failed. -/
inductive Failure : UInt32 → List JobEvent → Option IoError → Prop where
  | none {waited : UInt32} (hwaited : waited ≠ waitFailed) :
      Failure waited [] none
  | failed (e : IoError) :
      Failure waitFailed [⟨.lastError, e⟩] (some e)

/-- The handles closed one after the other. -/
inductive Closed : List Handle → List JobEvent → Prop where
  | nil : Closed [] []
  | cons (handle : Handle) (closed : Except HResult Unit)
      {handles : List Handle} {events : List JobEvent}
      (hrest : Closed handles events) :
      Closed (handle :: handles) (⟨.closeHandle handle, closed⟩ :: events)

section

variable {job : Handle} {deadline : Option (Option Nat)} {cancel : Bool}

theorem isCancelled_cases {events : List JobEvent} {r : Bool}
    (h : (isCancelled cancel).Runs events r) : Check cancel events r := by
  cases cancel with
  | false =>
      obtain ⟨rfl, rfl⟩ := Prog.Runs.of_pure h
      exact .uncancellable
  | true =>
      obtain ⟨state, rest, rfl, hrest⟩ := Prog.Runs.of_query_bind h
      obtain ⟨rfl, rfl⟩ := Prog.Runs.of_pure hrest
      exact .asked state

theorem check_signalled {events : List JobEvent} {r : Bool}
    (h : Check cancel events r) (hr : r = true) :
    cancel = true ∧ (⟨.cancelState, waitObject0⟩ : JobEvent) ∈ events := by
  cases h with
  | uncancellable => exact nomatch hr
  | asked state =>
      rw [beq_iff_eq.mp hr]
      exact ⟨rfl, List.mem_cons_self⟩

theorem queryJobPidListFrom_cases (fuel : Nat) :
    ∀ {capacity : Nat} {events : List JobEvent}
      {r : Option (Except IoError (List RawPid))},
      (queryJobPidListFrom job fuel capacity).Runs events r →
        Enumerated job capacity events r := by
  induction fuel with
  | zero =>
      intro capacity events r h
      obtain ⟨rfl, rfl⟩ := Prog.Runs.of_pure h
      exact .unfinished capacity
  | succ fuel ih =>
      intro capacity events r h
      obtain ⟨ids, rest, rfl, hrest⟩ := Prog.Runs.of_query_bind h
      split at hrest
      · next pids hlisted =>
          obtain ⟨rfl, rfl⟩ := Prog.Runs.of_pure hrest
          exact .listed capacity hlisted
      · next hlisted =>
          split at hrest
          · next hmore => exact .grown hlisted hmore (ih hrest)
          · obtain ⟨e, _, rfl, hdone⟩ := Prog.Runs.of_query_bind hrest
            obtain ⟨rfl, rfl⟩ := Prog.Runs.of_pure hdone
            exact .failed capacity e hlisted

/-- A handle that is closed at once. -/
theorem close_cases {handle : Handle} {α : Type} {a r : α}
    {events : List JobEvent}
    (h : Prog.Runs (do close handle; return a) events r) :
    ∃ closed, events = [⟨.closeHandle handle, closed⟩] ∧ r = a := by
  obtain ⟨closed, _, rfl, hdone⟩ := Prog.Runs.of_query_bind h
  obtain ⟨rfl, rfl⟩ := Prog.Runs.of_pure hdone
  exact ⟨closed, rfl, rfl⟩

theorem openMember_cases {pid : RawPid}
    {acc acc' : List Handle × Option IoError} {events : List JobEvent}
    (h : (openMember job acc pid).Runs events acc') :
    MemberOpened job pid events acc acc' := by
  obtain ⟨opened, rest, rfl, hrest⟩ := Prog.Runs.of_query_bind h
  cases opened with
  | error e =>
      dsimp only at hrest
      split at hrest
      · next hexited =>
          obtain ⟨rfl, rfl⟩ := Prog.Runs.of_pure hrest
          rw [hexited]
          exact .exited _
      · next hother =>
          obtain ⟨rfl, rfl⟩ := Prog.Runs.of_pure hrest
          exact .denied acc hother
  | ok handle =>
      dsimp only at hrest
      obtain ⟨confirmed, rest, rfl, hnext⟩ := Prog.Runs.of_query_bind hrest
      split at hnext
      · obtain ⟨rfl, rfl⟩ := Prog.Runs.of_pure hnext
        exact .member acc handle
      · obtain ⟨closed, rfl, rfl⟩ := close_cases hnext
        exact .bystander _ handle closed
      · next e =>
          obtain ⟨closed, rfl, rfl⟩ := close_cases hnext
          exact .unconfirmed acc handle e closed

theorem openMembers_cases (pids : List RawPid) :
    ∀ {acc acc' : List Handle × Option IoError} {events : List JobEvent},
      (pids.foldlM (openMember job) acc).Runs events acc' →
        Opened job pids events acc acc' := by
  induction pids with
  | nil =>
      intro acc acc' events h
      obtain ⟨rfl, rfl⟩ := Prog.Runs.of_pure h
      exact .nil acc'
  | cons pid pids ih =>
      intro acc acc' events h
      rw [List.foldlM_cons] at h
      obtain ⟨mid, first, rest, hfirst, hrest, rfl⟩ := h.of_bind
      exact .cons (openMember_cases hfirst) (ih hrest)

theorem remaining_cases {events : List JobEvent} {left : Option Nat}
    (h : (remaining deadline).Runs events left) :
    Reading deadline events left := by
  rcases deadline with _ | _ | due
  · obtain ⟨rfl, rfl⟩ := Prog.Runs.of_pure h
    exact .unbounded
  · obtain ⟨rfl, rfl⟩ := Prog.Runs.of_pure h
    exact .overflowed
  · obtain ⟨now, rest, rfl, hrest⟩ := Prog.Runs.of_query_bind h
    obtain ⟨rfl, rfl⟩ := Prog.Runs.of_pure hrest
    exact .bounded due now

theorem waitError_cases {waited : UInt32} {events : List JobEvent}
    {failed : Option IoError} (h : (waitError waited).Runs events failed) :
    Failure waited events failed := by
  unfold waitError at h
  split at h
  · next hfailed =>
      rw [hfailed]
      obtain ⟨e, rest, rfl, hrest⟩ := Prog.Runs.of_query_bind h
      obtain ⟨rfl, rfl⟩ := Prog.Runs.of_pure hrest
      exact .failed e
  · next hwaited =>
      obtain ⟨rfl, rfl⟩ := Prog.Runs.of_pure h
      exact .none hwaited

theorem closeAll_cases (handles : List Handle) :
    ∀ {events : List JobEvent} {u : PUnit},
      (forM handles close : Draining PUnit).Runs events u →
        Closed handles events := by
  induction handles with
  | nil =>
      intro events u h
      obtain ⟨rfl, rfl⟩ := Prog.Runs.of_pure h
      exact .nil
  | cons handle handles ih =>
      intro events u h
      rw [List.forM_cons] at h
      obtain ⟨_, first, rest, hfirst, hrest, rfl⟩ := h.of_bind
      obtain ⟨closed, rfl, _⟩ := close_cases hfirst
      exact .cons handle closed (ih hrest)

/-! ## A round -/

/-- What a round does before it waits: the look at the cancel event, the
enumeration, the members opened and the time read. -/
inductive Looked (job : Handle) (deadline : Option (Option Nat))
    (cancel : Bool) :
    List JobEvent → List Handle → Option IoError → Option Nat → Prop where
  | mk {check queries openings reading : List JobEvent} {pids : List RawPid}
      {handles : List Handle} {denied : Option IoError} {left : Option Nat}
      (hcheck : Check cancel check false)
      (hqueries : Enumerated job 64 queries (some (.ok pids)))
      (hopened : Opened job (pids.take (budget cancel)) openings ([], none)
        (handles, denied))
      (hreading : Reading deadline reading left) :
      Looked job deadline cancel
        (check ++ (queries ++ (openings ++ reading))) handles denied left

/-- The ways a round goes. -/
inductive RoundRun (job : Handle) (deadline : Option (Option Nat))
    (cancel : Bool) : List JobEvent → Option RoundEnd → Prop where
  /-- The cancel event was signalled. -/
  | cancelled {check : List JobEvent} (hcheck : Check cancel check true) :
      RoundRun job deadline cancel check
        (some (.verdict (.ok .membersRemain)))
  /-- The enumeration still goes on. -/
  | unfinished {check queries : List JobEvent}
      (hcheck : Check cancel check false)
      (hqueries : Enumerated job 64 queries none) :
      RoundRun job deadline cancel (check ++ queries) none
  | failed {check queries : List JobEvent} {e : IoError}
      (hcheck : Check cancel check false)
      (hqueries : Enumerated job 64 queries (some (.error e))) :
      RoundRun job deadline cancel (check ++ queries)
        (some (.verdict (.error (.io e))))
  | drained {check queries : List JobEvent}
      (hcheck : Check cancel check false)
      (hqueries : Enumerated job 64 queries (some (.ok []))) :
      RoundRun job deadline cancel (check ++ queries)
        (some (.verdict (.ok .allMembersExited)))
  /-- No member could be opened. -/
  | unwatched {looked : List JobEvent} {denied : Option IoError}
      {left : Option Nat}
      (hlooked : Looked job deadline cancel looked [] denied left) :
      RoundRun job deadline cancel looked (some (nothingOpened denied left))
  /-- The members that could be opened were waited for. -/
  | watched {looked failure closings : List JobEvent} {handles : List Handle}
      {denied failed : Option IoError} {left : Option Nat} {waited : UInt32}
      (hlooked : Looked job deadline cancel looked handles denied left)
      (hsome : handles ≠ []) (hfailure : Failure waited failure failed)
      (hclosings : Closed handles closings) :
      RoundRun job deadline cancel
        (looked ++
          ⟨.waitForMultipleObjects handles cancel (waitMs left), waited⟩ ::
            (failure ++ closings))
        (some (waitEnd handles cancel waited failed))

theorem watchMembers_cases {pids : List RawPid} {check queries : List JobEvent}
    {events : List JobEvent} {ended : RoundEnd}
    (hcheck : Check cancel check false)
    (hqueries : Enumerated job 64 queries (some (.ok pids)))
    (h : (watchMembers job deadline cancel pids).Runs events ended) :
    RoundRun job deadline cancel (check ++ (queries ++ events))
      (some ended) := by
  obtain ⟨⟨handles, denied⟩, openings, rest, hopenings, hrest, rfl⟩ :=
    Prog.Runs.of_bind h
  obtain ⟨left, reading, rest, hreading, hend, rfl⟩ :=
    Prog.Runs.of_bind hrest
  have hlooked : Looked job deadline cancel
      (check ++ (queries ++ (openings ++ reading))) handles denied left :=
    .mk hcheck hqueries (openMembers_cases _ hopenings)
      (remaining_cases hreading)
  cases handles with
  | nil =>
      obtain ⟨rfl, rfl⟩ := Prog.Runs.of_pure hend
      rw [List.append_nil]
      exact .unwatched hlooked
  | cons handle handles =>
      obtain ⟨waited, rest, rfl, hwaited⟩ := Prog.Runs.of_query_bind hend
      obtain ⟨failed, failure, rest, hfailure, hclose, rfl⟩ :=
        Prog.Runs.of_bind hwaited
      obtain ⟨_, closings, rest, hclosings, hdone, rfl⟩ :=
        Prog.Runs.of_bind hclose
      obtain ⟨rfl, rfl⟩ := Prog.Runs.of_pure hdone
      have hwatched := RoundRun.watched hlooked nofun
        (waitError_cases hfailure) (closeAll_cases _ hclosings)
      simpa only [List.append_assoc, List.append_nil] using hwatched

theorem drainRound_cases {fuel : Nat} {events : List JobEvent}
    {ended : Option RoundEnd}
    (h : (drainRound job deadline cancel fuel).Runs events ended) :
    RoundRun job deadline cancel events ended := by
  obtain ⟨cancelled, check, rest, hcheck, hrest, rfl⟩ := Prog.Runs.of_bind h
  have hcheck' := isCancelled_cases hcheck
  cases cancelled with
  | true =>
      obtain ⟨rfl, rfl⟩ := Prog.Runs.of_pure hrest
      rw [List.append_nil]
      exact .cancelled hcheck'
  | false =>
      obtain ⟨listed, queries, rest, hqueries, hlisted, rfl⟩ :=
        Prog.Runs.of_bind hrest
      have hqueries' := queryJobPidListFrom_cases fuel hqueries
      rcases listed with _ | e | pids
      · obtain ⟨rfl, rfl⟩ := Prog.Runs.of_pure hlisted
        rw [List.append_nil]
        exact .unfinished hcheck' hqueries'
      · obtain ⟨rfl, rfl⟩ := Prog.Runs.of_pure hlisted
        rw [List.append_nil]
        exact .failed hcheck' hqueries'
      · cases pids with
        | nil =>
            obtain ⟨rfl, rfl⟩ := Prog.Runs.of_pure hlisted
            rw [List.append_nil]
            exact .drained hcheck' hqueries'
        | cons pid pids =>
            obtain ⟨ended, events, rest, hwatch, hdone, rfl⟩ :=
              Prog.Runs.of_bind hlisted
            obtain ⟨rfl, rfl⟩ := Prog.Runs.of_pure hdone
            rw [List.append_nil]
            exact watchMembers_cases hcheck' hqueries' hwatch

/-! ## What a round asks -/

/-- A question about no process: the cancel event, the job's list, the clock
and the last error. -/
def Aside : JobEvent → Prop
  | ⟨.cancelState, _⟩ | ⟨.queryProcessIds .., _⟩ | ⟨.lastError, _⟩
  | ⟨.now, _⟩ => True
  | _ => False

theorem check_aside {events : List JobEvent} {r : Bool}
    (h : Check cancel events r) : ∀ e ∈ events, Aside e := by
  cases h with
  | uncancellable => exact nofun
  | asked state => simp [Aside]

theorem enumerated_aside {capacity : Nat} {events : List JobEvent}
    {r : Option (Except IoError (List RawPid))}
    (h : Enumerated job capacity events r) : ∀ e ∈ events, Aside e := by
  induction h with
  | unfinished => exact nofun
  | listed capacity hlisted => simp [Aside]
  | failed capacity e hlisted => simp [Aside]
  | grown hlisted hmore hrest ih => simpa [Aside] using ih

/-- The events of a round that opens nothing. -/
theorem listed_aside {check queries : List JobEvent} {r : Bool}
    {listed : Option (Except IoError (List RawPid))}
    (hcheck : Check cancel check r)
    (hqueries : Enumerated job 64 queries listed) :
    ∀ e ∈ check ++ queries, Aside e := by
  intro e he
  rcases List.mem_append.mp he with he | he
  · exact check_aside hcheck e he
  · exact enumerated_aside hqueries e he

theorem reading_aside {events : List JobEvent} {left : Option Nat}
    (h : Reading deadline events left) : ∀ e ∈ events, Aside e := by
  cases h with
  | unbounded => exact nofun
  | overflowed => exact nofun
  | bounded due now => simp [Aside]

theorem failure_aside {waited : UInt32} {events : List JobEvent}
    {failed : Option IoError} (h : Failure waited events failed) :
    ∀ e ∈ events, Aside e := by
  cases h with
  | none hwaited => exact nofun
  | failed e => simp [Aside]

/-- A wait for members. -/
def IsWait : JobEvent → Prop
  | ⟨.waitForMultipleObjects .., _⟩ => True
  | _ => False

theorem Aside.not_isWait {e : JobEvent} (h : Aside e) : ¬ IsWait e := by
  obtain ⟨question, answer⟩ := e
  cases question <;> first | exact h.elim | exact id

theorem memberOpened_not_isWait {pid : RawPid} {events : List JobEvent}
    {acc acc' : List Handle × Option IoError}
    (h : MemberOpened job pid events acc acc') :
    ∀ e ∈ events, ¬ IsWait e := by
  cases h <;> simp [IsWait]

theorem opened_not_isWait {pids : List RawPid} {events : List JobEvent}
    {acc acc' : List Handle × Option IoError}
    (h : Opened job pids events acc acc') : ∀ e ∈ events, ¬ IsWait e := by
  induction h with
  | nil acc => exact nofun
  | cons hpid hrest ih =>
      intro e he
      rcases List.mem_append.mp he with he | he
      · exact memberOpened_not_isWait hpid e he
      · exact ih e he

theorem closed_not_isWait {handles : List Handle} {events : List JobEvent}
    (h : Closed handles events) : ∀ e ∈ events, ¬ IsWait e := by
  induction h with
  | nil => exact nofun
  | cons handle closed hrest ih => simpa [IsWait] using ih

/-- The events of a round before its wait. -/
theorem looked_not_isWait {looked : List JobEvent} {handles : List Handle}
    {denied : Option IoError} {left : Option Nat}
    (h : Looked job deadline cancel looked handles denied left) :
    ∀ e ∈ looked, ¬ IsWait e := by
  cases h with
  | mk hcheck hqueries hopened hreading =>
      intro e he
      simp only [List.mem_append] at he
      rcases he with he | he | he | he
      · exact (check_aside hcheck e he).not_isWait
      · exact (enumerated_aside hqueries e he).not_isWait
      · exact opened_not_isWait hopened e he
      · exact (reading_aside hreading e he).not_isWait

/-- The events of a round after its wait. -/
theorem ended_not_isWait {failure closings : List JobEvent}
    {handles : List Handle} {waited : UInt32} {failed : Option IoError}
    (hfailure : Failure waited failure failed)
    (hclosings : Closed handles closings) :
    ∀ e ∈ failure ++ closings, ¬ IsWait e := by
  intro e he
  rcases List.mem_append.mp he with he | he
  · exact (failure_aside hfailure e he).not_isWait
  · exact closed_not_isWait hclosings e he

/-- The one wait of a round. -/
theorem RoundRun.of_wait {events : List JobEvent} {ended : Option RoundEnd}
    (h : RoundRun job deadline cancel events ended)
    {before after : List JobEvent} {e : JobEvent}
    (hevents : events = before ++ e :: after) (hwait : IsWait e) :
    ∃ handles denied left waited failed,
      e = ⟨.waitForMultipleObjects handles cancel (waitMs left), waited⟩ ∧
      Looked job deadline cancel before handles denied left ∧
      handles ≠ [] ∧ (∃ failure, Failure waited failure failed) ∧
      ended = some (waitEnd handles cancel waited failed) := by
  have he : e ∈ events := by
    rw [hevents]
    exact List.mem_append_right _ List.mem_cons_self
  cases h with
  | cancelled hcheck =>
      exact absurd hwait (check_aside hcheck e he).not_isWait
  | unfinished hcheck hqueries =>
      exact absurd hwait (listed_aside hcheck hqueries e he).not_isWait
  | failed hcheck hqueries =>
      exact absurd hwait (listed_aside hcheck hqueries e he).not_isWait
  | drained hcheck hqueries =>
      exact absurd hwait (listed_aside hcheck hqueries e he).not_isWait
  | unwatched hlooked => exact absurd hwait (looked_not_isWait hlooked e he)
  | watched hlooked hsome hfailure hclosings =>
      -- no other event of the round is a wait, so this is the one
      obtain ⟨rfl, rfl, rfl⟩ := (List.append_cons_inj_of_notMem
        (fun hmem => looked_not_isWait hlooked e hmem hwait)
        (fun hmem => ended_not_isWait hfailure hclosings e hmem hwait)).mp
          hevents
      exact ⟨_, _, _, _, _, rfl, hlooked, hsome, ⟨_, hfailure⟩, rfl⟩

end

/-! ## A run -/

/-- A round with events of any kind, and how it ended; `none` where it still
goes on. -/
structure Round (E : Type) where
  events : List E
  ended : Option RoundEnd

section

variable {E : Type} (job : Handle) (deadline : Option (Option Nat))
  (cancel : Bool) (f : E → JobEvent)

/-- The round is one of the wait's. -/
def IsRound (round : Round E) : Prop :=
  ∃ fuel, (drainRound job deadline cancel fuel).Runs (round.events.map f)
    round.ended

/-- The rounds of a run: every one but the last goes round again. -/
inductive Rounds : List (Round E) → Option (Except Error TreeDrain) → Prop
    where
  | spent : Rounds [] none
  | unfinished {round : Round E}
      (hround : IsRound job deadline cancel f round)
      (hended : round.ended = none) : Rounds [round] none
  | last {round : Round E} {r : Except Error TreeDrain}
      (hround : IsRound job deadline cancel f round)
      (hended : round.ended = some (.verdict r)) : Rounds [round] (some r)
  | next {round : Round E} {rounds : List (Round E)}
      {r : Option (Except Error TreeDrain)}
      (hround : IsRound job deadline cancel f round)
      (hended : round.ended = some .again) (hrest : Rounds rounds r) :
      Rounds (round :: rounds) r

variable {job deadline cancel f}

theorem waitDrainedRaw_rounds (fuel : Nat) :
    ∀ {events : List E} {r : Option (Except Error TreeDrain)},
      (waitDrainedRaw job deadline cancel fuel).Runs (events.map f) r →
        ∃ rounds, events = rounds.flatMap (·.events) ∧
          Rounds job deadline cancel f rounds r := by
  induction fuel with
  | zero =>
      intro events r h
      obtain ⟨hnil, rfl⟩ := Prog.Runs.of_pure h
      rw [List.map_eq_nil_iff.mp hnil]
      exact ⟨[], rfl, .spent⟩
  | succ fuel ih =>
      intro events r h
      obtain ⟨ended, first, rest, hround, hrest, hevents⟩ :=
        Prog.Runs.of_bind h
      obtain ⟨es, fs, rfl, rfl, rfl⟩ := List.map_eq_append_iff.mp hevents
      have hone : IsRound job deadline cancel f ⟨es, ended⟩ :=
        ⟨fuel, hround⟩
      rcases ended with _ | v | _
      · obtain ⟨hnil, rfl⟩ := Prog.Runs.of_pure hrest
        rw [List.map_eq_nil_iff.mp hnil]
        exact ⟨[⟨es, none⟩], by simp, .unfinished hone rfl⟩
      · obtain ⟨hnil, rfl⟩ := Prog.Runs.of_pure hrest
        rw [List.map_eq_nil_iff.mp hnil]
        exact ⟨[⟨es, some (.verdict v)⟩], by simp, .last hone rfl⟩
      · obtain ⟨rounds, rfl, hrounds⟩ := ih hrest
        exact ⟨⟨es, some .again⟩ :: rounds, by simp, .next hone rfl hrounds⟩

theorem Rounds.isRound {rounds : List (Round E)}
    {r : Option (Except Error TreeDrain)}
    (h : Rounds job deadline cancel f rounds r) :
    ∀ round ∈ rounds, IsRound job deadline cancel f round := by
  induction h with
  | spent => exact nofun
  | unfinished hround _ => simpa using hround
  | last hround _ => simpa using hround
  | next hround _ _ ih =>
      intro round hmem
      rcases List.mem_cons.mp hmem with rfl | hmem
      · exact hround
      · exact ih round hmem

theorem IsRound.cases {round : Round E}
    (h : IsRound job deadline cancel f round) :
    RoundRun job deadline cancel (round.events.map f) round.ended := by
  obtain ⟨fuel, hruns⟩ := h
  exact drainRound_cases hruns

/-- A round that does not go round again is the last one. -/
theorem Rounds.eq_nil {rounds : List (Round E)}
    {r : Option (Except Error TreeDrain)}
    (h : Rounds job deadline cancel f rounds r) :
    ∀ {before after : List (Round E)} {round : Round E},
      rounds = before ++ round :: after → round.ended ≠ some .again →
        after = [] := by
  induction h with
  | spent =>
      intro before after round heq
      simp at heq
  | unfinished hround hended =>
      intro before after round heq _
      have hlength := congrArg List.length heq
      simp only [List.length_append, List.length_cons, List.length_nil]
        at hlength
      exact List.length_eq_zero_iff.mp (by omega)
  | last hround hended =>
      intro before after round heq _
      have hlength := congrArg List.length heq
      simp only [List.length_append, List.length_cons, List.length_nil]
        at hlength
      exact List.length_eq_zero_iff.mp (by omega)
  | next hround hended hrest ih =>
      intro before after round heq hlast
      cases before with
      | nil =>
          obtain ⟨rfl, _⟩ := List.cons.inj heq
          exact absurd hended hlast
      | cons first before => exact ih (List.cons.inj heq).2 hlast

/-- The result is how the last round ended. -/
theorem Rounds.last_ended {rounds : List (Round E)} {r : Except Error TreeDrain}
    (h : Rounds job deadline cancel f rounds (some r)) :
    ∃ before last, rounds = before ++ [last] ∧
      last.ended = some (.verdict r) := by
  generalize hr : some r = result at h
  induction h with
  | spent => exact nomatch hr
  | unfinished _ _ => exact nomatch hr
  | @last round _ _ hended =>
      rw [← Option.some.inj hr] at hended
      exact ⟨[], round, rfl, hended⟩
  | @next round _ _ _ _ _ ih =>
      obtain ⟨before, last, rfl, hended⟩ := ih hr
      exact ⟨round :: before, last, rfl, hended⟩

end

end Cosca.Ports.DrainRounds
