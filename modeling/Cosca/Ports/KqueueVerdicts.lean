import Cosca.Ports.KqueueRounds

/-!
# The verdict of a kqueue wait

## Main results

* `blockOnKqueue_honours`: no event is lost and the deadline is kept.
* `blockUntilExit_false`, `blockUntilDrained_verdict`: what the results of its
  callers say.
-/

namespace Cosca.Ports.KqueueWait

open Cosca.Ports.Errors
open Cosca.Ports.Identity (ProcessId)
open Cosca.Ports.ChildRelease (TreeDrain)
open Cosca.Verified.Interact
open Cosca.Verified.Clocks

variable {T : Type}

/-! ## The wait -/

/-- A wait that honours its deadline and loses no event. -/
structure Honours (deadline : Option (Option Instant)) (onTimeout : T)
    (fuel : Nat) (timed : List (Timed (KqueueCall.Reply T)))
    (r : Option (Except Error T)) (stop : Nat) : Prop where
  /-- What is delivered is interpreted, in the order of delivery. -/
  interprets : (timed.map (·.event)).filterMap delivered =
    (timed.map (·.event)).filterMap interpreted
  /-- The first conclusive event gives the result. -/
  returns : ∀ v, ((timed.map (·.event)).filterMap verdict).head? = some v →
    r = some (.ok v)
  /-- Any other verdict is the one of a timeout, after the deadline. -/
  elapsed : ∀ v, r = some (.ok v) →
    (timed.map (·.event)).filterMap verdict = [] →
      v = onTimeout ∧
        ∃ due, deadline = some (some due) ∧ due.nanos ≤ stop
  /-- Of all the rounds, one at most overruns the deadline. -/
  overrun : ∀ due, deadline = some (some due) →
    (rounds timed).countP (Round.overran due) ≤ 1
  /-- Where the wait is not over, it has made all its rounds. -/
  spent : r = none → (rounds timed).length = fuel

/-- For every deadline, clock, answers and interpretations, where a wait with a
timeout takes its time and one without does not time out. -/
theorem blockOnKqueue_honours (deadline : Option (Option Instant))
    (onTimeout : T) (fuel start stop : Nat)
    (timed : List (Timed (KqueueCall.Reply T)))
    (r : Option (Except Error T))
    (h : RunsIn reading (blockOnKqueue deadline onTimeout fuel) start timed r
      stop)
    (hpunctual : Punctual timeout timed)
    (hforever : timedOutForever ∉ timed.map (·.event)) :
    Honours deadline onTimeout fuel timed r stop := by
  have hwaits := blockOnKqueue_cases fuel h.runs
  refine ⟨hwaits.interprets, ?_, ?_, ?_, ?_⟩
  · intro v hv
    exact hwaits.returns (List.mem_of_mem_head? hv)
  · intro v hr hverdicts
    exact (hwaits.timedOut hr hforever hverdicts).due_le h hpunctual
  · rintro due rfl
    exact Nat.le_trans (countP_overran_le h.clocked)
      (hwaits.late timed rfl)
  · intro hr
    rw [length_rounds]
    exact hwaits.countP hr

/-- Three rounds: an event that is not conclusive before the deadline, and
after it an interrupted call and the conclusive event. -/
def pastDeadline : List (Timed (KqueueCall.Reply Bool)) :=
  [⟨clockAt ⟨3, by decide⟩, 3, 3⟩,
    ⟨waitFor (some 2) (.ok (some ⟨0, 1⟩)), 3, 4⟩,
    ⟨interpretedAs ⟨0, 1⟩ (.ok none), 4, 4⟩,
    ⟨clockAt ⟨6, by decide⟩, 6, 6⟩,
    ⟨waitFor (some 0) (.error eintr), 6, 7⟩,
    ⟨clockAt ⟨8, by decide⟩, 8, 8⟩,
    ⟨waitFor (some 0) (.ok (some ⟨evEof, 0⟩)), 8, 8⟩,
    ⟨interpretedAs ⟨evEof, 0⟩ (.ok (some true)), 8, 9⟩]

theorem blockOnKqueue_honours_pastDeadline :
    Honours (some (some ⟨5, by decide⟩)) false 3 pastDeadline
      (some (.ok true)) 9 := by
  apply blockOnKqueue_honours _ _ _ 3
  · refine ⟨?_, ?_, ?_⟩
    · repeat' apply Prog.Runs.ask
      exact .done _
    · simp [pastDeadline, Timeline]
    · simp [pastDeadline, Clocked, reading]
  · simp [pastDeadline, Punctual, timeout]
  · simp [pastDeadline]

/-! ## The verdicts of the callers -/

section

variable {deadline : Option (Option Instant)} {onTimeout : T} {fuel : Nat}
  {events : List (KqueueEvent T)}

/-- An event that was delivered was interpreted, and the result is what it
settles. -/
theorem Waits.settled_of_delivered {r : Option (Except Error T)}
    (h : Waits deadline onTimeout fuel events r) {event : KEvent}
    (hmem : event ∈ events.filterMap delivered) :
    ∃ result, interpretedAs event result ∈ events ∧
      ∀ out, settles result = some out → r = some out := by
  rw [h.interprets] at hmem
  obtain ⟨e, he, hinterpreted⟩ := List.mem_filterMap.mp hmem
  obtain ⟨result, rfl⟩ := interpreted_eq_some hinterpreted
  exact ⟨result, he, fun out hout => h.settled he hout⟩

/-- Without an event there is no verdict. -/
theorem Waits.inconclusive {r : Option (Except Error T)}
    (h : Waits deadline onTimeout fuel events r)
    (hnone : events.filterMap delivered = []) :
    events.filterMap verdict = [] := by
  rw [h.interprets] at hnone
  apply List.filterMap_eq_nil_iff.mpr
  intro e he
  have hinterpreted := List.filterMap_eq_nil_iff.mp hnone e he
  cases hverdict : verdict e with
  | none => rfl
  | some v =>
      obtain ⟨event, rfl⟩ := verdict_eq_some hverdict
      exact nomatch hinterpreted

end

/-- Every result of `interpretExit` settles the wait, and not with the
timeout's verdict. -/
theorem interpretExit_settles (event : KEvent) :
    ∃ out, settles (interpretExit event) = some out ∧ out ≠ .ok false := by
  unfold interpretExit
  split
  · exact ⟨_, rfl, nofun⟩
  · exact ⟨_, rfl, nofun⟩

/-- `block_until_exit` says that the process has not exited only where no event
was delivered and the deadline has elapsed. -/
theorem blockUntilExit_false {id : ProcessId}
    {deadline : Option (Option Instant)} {fuel start stop : Nat}
    {timed : List (Timed (KqueueCall.Reply Bool))}
    (h : RunsIn reading (blockUntilExit id deadline fuel) start timed
      (some (.ok false)) stop)
    (hpunctual : Punctual timeout timed)
    (hforever : timedOutForever ∉ timed.map (·.event))
    (hexit : ∀ event result,
      interpretedAs event result ∈ timed.map (·.event) →
        result = interpretExit event) :
    (timed.map (·.event)).filterMap delivered = [] ∧
      ∃ due, deadline = some (some due) ∧ due.nanos ≤ stop := by
  obtain ⟨armed, rest, hevents, hblock⟩ := Prog.Runs.of_query_bind h.runs
  match armed with
  | .error e => exact nomatch (Prog.Runs.of_pure hblock).2
  | .ok none => exact nomatch (Prog.Runs.of_pure hblock).2
  | .ok (some ()) =>
      have hwaits := blockOnKqueue_cases fuel hblock
      have hrest : ∀ e ∈ rest, e ∈ timed.map (·.event) := by
        rw [hevents]
        exact fun e he => List.mem_cons_of_mem _ he
      have hnone : rest.filterMap delivered = [] := by
        apply List.eq_nil_iff_forall_not_mem.mpr
        intro event hmem
        obtain ⟨result, hin, hsettled⟩ := hwaits.settled_of_delivered hmem
        obtain ⟨out, hout, hother⟩ := interpretExit_settles event
        rw [hexit event result (hrest _ hin)] at hsettled
        exact hother (Option.some.inj (hsettled out hout)).symm
      have htimed := hwaits.timedOut rfl (fun hin => hforever (hrest _ hin))
        (hwaits.inconclusive hnone)
      have hall : TimedOut deadline false (timed.map (·.event)) false := by
        rw [hevents]
        exact htimed.append_left [_]
      refine ⟨?_, (hall.due_le h hpunctual).2⟩
      rw [hevents]
      exact hnone

section

variable {deadline : Option (Option Instant)} {fuel : Nat}
  {events : List (KqueueEvent TreeDrain)} {unboundedWait : Bool}
  {d : TreeDrain}

/-- Every interpretation is one of `interpret_read_event`. -/
def Reads (unboundedWait : Bool) (events : List (KqueueEvent TreeDrain)) :
    Prop :=
  ∀ event result, interpretedAs event result ∈ events →
    ∃ drained, result = interpretReadEvent event unboundedWait drained

theorem interpretReadEvent_conclusive {event : KEvent}
    {drained : Except Error Unit}
    (h : interpretReadEvent event unboundedWait drained = .ok (some d)) :
    d = .allMarkersClosed ∧ event.has evEof := by
  unfold interpretReadEvent at h
  split at h
  · exact nomatch h
  · split at h
    · next heof => exact ⟨(Option.some.inj (Except.ok.inj h)).symm, heof⟩
    · split at h
      · exact nomatch Except.ok.inj h
      · cases drained <;> exact nomatch h

/-- `EV_EOF` settles the wait, and not with the timeout's verdict. -/
theorem interpretReadEvent_eof {event : KEvent} (heof : event.has evEof)
    (drained : Except Error Unit) :
    ∃ out, settles (interpretReadEvent event unboundedWait drained) = some out
      ∧ out ≠ .ok .membersRemain := by
  unfold interpretReadEvent
  by_cases herror : event.has evError
  · rw [if_pos herror]
    exact ⟨_, rfl, nofun⟩
  · rw [if_neg herror, if_pos heof]
    exact ⟨_, rfl, nofun⟩

/-- The markers are closed if `EV_EOF` was delivered, also after the deadline;
otherwise the deadline has elapsed. -/
theorem Waits.drained
    (h : Waits deadline .membersRemain fuel events (some (.ok d)))
    (hreads : Reads unboundedWait events) (hforever : timedOutForever ∉ events) :
    (d = .allMarkersClosed ∧
        ∃ event ∈ events.filterMap delivered, event.has evEof) ∨
      (TimedOut deadline .membersRemain events d ∧
        ∀ event ∈ events.filterMap delivered, ¬ event.has evEof) := by
  cases hverdicts : events.filterMap verdict with
  | nil =>
      have htimed := h.timedOut rfl hforever hverdicts
      refine Or.inr ⟨htimed, ?_⟩
      intro event hmem heof
      obtain ⟨result, hin, hsettled⟩ := h.settled_of_delivered hmem
      obtain ⟨drained, rfl⟩ := hreads event result hin
      obtain ⟨out, hout, hother⟩ := interpretReadEvent_eof heof drained
      have hresult := Option.some.inj (hsettled out hout)
      rw [htimed.1] at hresult
      exact hother hresult.symm
  | cons v vs =>
      have hv : v ∈ events.filterMap verdict := by simp [hverdicts]
      obtain rfl := Except.ok.inj (Option.some.inj (h.returns hv))
      obtain ⟨e, he, hverdict⟩ := List.mem_filterMap.mp hv
      obtain ⟨event, rfl⟩ := verdict_eq_some hverdict
      obtain ⟨drained, hresult⟩ := hreads event _ he
      obtain ⟨hd, heof⟩ := interpretReadEvent_conclusive hresult.symm
      refine Or.inl ⟨hd, event, ?_, heof⟩
      rw [h.interprets]
      exact List.mem_filterMap.mpr ⟨_, he, rfl⟩

/-- What a run of `block_until_drained` says of the markers, on a clock that
never goes back. -/
theorem blockUntilDrained_verdict {start stop : Nat}
    {timed : List (Timed (KqueueCall.Reply TreeDrain))}
    (h : RunsIn reading (blockUntilDrained deadline fuel) start timed
      (some (.ok d)) stop)
    (hpunctual : Punctual timeout timed)
    (hforever : timedOutForever ∉ timed.map (·.event))
    (hreads : Reads unboundedWait (timed.map (·.event))) :
    (d = .allMarkersClosed ∧
        ∃ event ∈ (timed.map (·.event)).filterMap delivered,
          event.has evEof) ∨
      ((d = .membersRemain ∧
          ∃ due, deadline = some (some due) ∧ due.nanos ≤ stop) ∧
        ∀ event ∈ (timed.map (·.event)).filterMap delivered,
          ¬ event.has evEof) := by
  obtain ⟨left, sample, _, hleft, harm, hevents⟩ := Prog.Runs.of_bind h.runs
  have hsample := remaining_cases hleft
  obtain ⟨armed, rest, rfl, hblock⟩ := Prog.Runs.of_query_bind harm
  match armed with
  | .error e => exact nomatch (Prog.Runs.of_pure hblock).2
  | .ok () =>
      have hwaits := blockOnKqueue_cases fuel hblock
      have hrest : ∀ e ∈ rest, e ∈ timed.map (·.event) := by
        rw [hevents]
        intro e he
        exact List.mem_append_right sample (List.mem_cons_of_mem _ he)
      have hdelivered : (timed.map (·.event)).filterMap delivered =
          rest.filterMap delivered := by
        rw [hevents, List.filterMap_append,
          hsample.filterMap_eq_nil fun _ => rfl]
        rfl
      rw [hdelivered]
      rcases hwaits.drained (fun event result hin => hreads event result
          (hrest _ hin)) (fun hin => hforever (hrest _ hin)) with
        hclosed | ⟨htimed, hopen⟩
      · exact Or.inl hclosed
      · have hall : TimedOut deadline .membersRemain (timed.map (·.event)) d := by
          rw [hevents]
          exact (htimed.append_left [_]).append_left sample
        exact Or.inr ⟨hall.due_le h hpunctual, hopen⟩

end

end Cosca.Ports.KqueueWait


