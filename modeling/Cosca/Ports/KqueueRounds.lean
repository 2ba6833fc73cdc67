import Cosca.Ports.KqueueWait
import Cosca.Verified.Clocks

/-!
# The rounds of a kqueue wait

A round samples the clock, waits once and interprets what it was told.  A run is
read off its rounds, first as events and then in time.

## Main results

* `blockOnKqueue_cases`: the runs of `block_on_kqueue`.
* `countP_overran_le`: at most one wait starts after the deadline.
-/

namespace Cosca.Ports.KqueueWait

open Cosca.Ports.Errors
open Cosca.Verified.Interact
open Cosca.Verified.Clocks

variable {T : Type}

/-! ## Rounds -/

/-- The samples of `remaining`. -/
inductive Samples : Option (Option Instant) → List (KqueueEvent T) →
    Option Nat → Prop where
  | absent : Samples none [] none
  | unbounded : Samples (some none) [] none
  | bounded (due now : Instant) :
      Samples (some (some due)) [clockAt now] (some (due.nanos - now.nanos))

/-- The rest of a round after which the loop ends. -/
inductive Ends (onTimeout : T) (left : Option Nat) :
    List (KqueueEvent T) → Except Error T → Prop where
  | timedOut : Ends onTimeout left [waitFor left (.ok none)] (.ok onTimeout)
  | concluded (event : KEvent) (v : T) :
      Ends onTimeout left [waitFor left (.ok (some event)),
        interpretedAs event (.ok (some v))] (.ok v)
  | rejected (event : KEvent) (e : Error) :
      Ends onTimeout left [waitFor left (.ok (some event)),
        interpretedAs event (.error e)] (.error e)
  | expired (event : KEvent) (hleft : left = some 0) :
      Ends onTimeout left [waitFor left (.ok (some event)),
        interpretedAs event (.ok none)] (.ok onTimeout)
  | failed (errno : Int) (herrno : errno ≠ eintr) :
      Ends onTimeout left [waitFor left (.error errno)]
        (.error (.io (.os errno)))

/-- The rest of a round after which the loop goes on. -/
inductive GoesOn (left : Option Nat) : List (KqueueEvent T) → Prop where
  | inconclusive (event : KEvent) (hleft : left ≠ some 0) :
      GoesOn left [waitFor left (.ok (some event)),
        interpretedAs event (.ok none)]
  | interrupted : GoesOn left [waitFor left (.error eintr)]

/-- The runs of `block_on_kqueue`, by the rounds it has left. -/
inductive Waits (deadline : Option (Option Instant)) (onTimeout : T) :
    Nat → List (KqueueEvent T) → Option (Except Error T) → Prop where
  | spent : Waits deadline onTimeout 0 [] none
  | last {fuel : Nat} {sample round : List (KqueueEvent T)}
      {left : Option Nat} {r : Except Error T}
      (hsample : Samples deadline sample left)
      (hends : Ends onTimeout left round r) :
      Waits deadline onTimeout (fuel + 1) (sample ++ round) (some r)
  | more {fuel : Nat} {sample round events : List (KqueueEvent T)}
      {left : Option Nat} {r : Option (Except Error T)}
      (hsample : Samples deadline sample left) (hround : GoesOn left round)
      (hrest : Waits deadline onTimeout fuel events r) :
      Waits deadline onTimeout (fuel + 1) (sample ++ (round ++ events)) r

section

variable {deadline : Option (Option Instant)} {onTimeout : T}

theorem remaining_cases {events : List (KqueueEvent T)} {left : Option Nat}
    (h : (remaining deadline).Runs events left) :
    Samples deadline events left := by
  match deadline with
  | none =>
      obtain ⟨rfl, rfl⟩ := Prog.Runs.of_pure h
      exact .absent
  | some none =>
      obtain ⟨rfl, rfl⟩ := Prog.Runs.of_pure h
      exact .unbounded
  | some (some due) =>
      obtain ⟨now, _, rfl, hleft⟩ := Prog.Runs.of_query_bind h
      obtain ⟨rfl, rfl⟩ := Prog.Runs.of_pure hleft
      exact .bounded due now

/-- A round ends the loop or goes on with it. -/
theorem afterWait_cases {left : Option Nat}
    {again : Blocking T (Option (Except Error T))}
    {waited : Except Int (Option KEvent)} {events : List (KqueueEvent T)}
    {r : Option (Except Error T)}
    (h : (afterWait onTimeout (left == some 0) again waited).Runs events r) :
    (∃ result, r = some result ∧
      Ends onTimeout left (waitFor left waited :: events) result) ∨
    ∃ round rest, waitFor left waited :: events = round ++ rest ∧
      GoesOn left round ∧ again.Runs rest r := by
  match waited with
  | .ok none =>
      obtain ⟨rfl, rfl⟩ := Prog.Runs.of_pure h
      exact Or.inl ⟨_, rfl, .timedOut⟩
  | .ok (some event) =>
      obtain ⟨result, _, rfl, hevent⟩ := Prog.Runs.of_query_bind h
      match result with
      | .error e =>
          obtain ⟨rfl, rfl⟩ := Prog.Runs.of_pure hevent
          exact Or.inl ⟨_, rfl, .rejected event e⟩
      | .ok (some v) =>
          obtain ⟨rfl, rfl⟩ := Prog.Runs.of_pure hevent
          exact Or.inl ⟨_, rfl, .concluded event v⟩
      | .ok none =>
          change Prog.Runs (if left == some 0 then _ else _) _ _ at hevent
          split at hevent
          · next helapsed =>
              obtain ⟨rfl, rfl⟩ := Prog.Runs.of_pure hevent
              exact Or.inl ⟨_, rfl, .expired event (eq_of_beq helapsed)⟩
          · next hearly =>
              have hleft : left ≠ some 0 := by
                intro hzero
                exact hearly (beq_iff_eq.mpr hzero)
              exact Or.inr ⟨_, _, rfl, .inconclusive event hleft, hevent⟩
  | .error errno =>
      change Prog.Runs (if errno = eintr then _ else _) _ _ at h
      split at h
      · next hinterrupted =>
          rw [hinterrupted]
          exact Or.inr ⟨[_], _, rfl, .interrupted, h⟩
      · next hfailed =>
          obtain ⟨rfl, rfl⟩ := Prog.Runs.of_pure h
          exact Or.inl ⟨_, rfl, .failed errno hfailed⟩

theorem blockOnKqueue_cases (fuel : Nat) : ∀ {events : List (KqueueEvent T)}
    {r : Option (Except Error T)},
    (blockOnKqueue deadline onTimeout fuel).Runs events r →
      Waits deadline onTimeout fuel events r := by
  induction fuel with
  | zero =>
      intro events r h
      obtain ⟨rfl, rfl⟩ := Prog.Runs.of_pure h
      exact .spent
  | succ fuel ih =>
      intro events r h
      obtain ⟨left, sample, _, hleft, hwait, rfl⟩ := Prog.Runs.of_bind h
      have hsample := remaining_cases hleft
      obtain ⟨waited, _, rfl, hrest⟩ := Prog.Runs.of_query_bind hwait
      rcases afterWait_cases hrest with ⟨result, rfl, hends⟩ |
        ⟨round, rest, hround, hgoesOn, hagain⟩
      · exact .last hsample hends
      · rw [hround]
        exact .more hsample hgoesOn (ih hagain)

end

/-! ## Events of a run -/

/-- What a result of the interpretation makes of the loop. -/
def settles : Except Error (Option T) → Option (Except Error T)
  | .error e => some (.error e)
  | .ok v => v.map .ok

section

variable {deadline : Option (Option Instant)} {onTimeout : T}
  {left : Option Nat} {fuel : Nat} {sample round events : List (KqueueEvent T)}
  {r : Option (Except Error T)}

/-- A sample only reads the clock. -/
theorem Samples.of_mem (h : Samples deadline sample left)
    {e : KqueueEvent T} (he : e ∈ sample) : ∃ now, e = clockAt now := by
  cases h with
  | absent => exact nomatch he
  | unbounded => exact nomatch he
  | bounded due now => exact ⟨now, List.mem_singleton.mp he⟩

theorem Samples.filterMap_eq_nil {β : Type} {f : KqueueEvent T → Option β}
    (h : Samples deadline sample left) (hf : ∀ now, f (clockAt now) = none) :
    sample.filterMap f = [] := by
  apply List.filterMap_eq_nil_iff.mpr
  intro e he
  obtain ⟨now, rfl⟩ := h.of_mem he
  exact hf now

/-- Every event that is delivered is interpreted, in the order of delivery. -/
theorem Waits.interprets (h : Waits deadline onTimeout fuel events r) :
    events.filterMap delivered = events.filterMap interpreted := by
  induction h with
  | spent => rfl
  | last hsample hends =>
      rw [List.filterMap_append, List.filterMap_append,
        hsample.filterMap_eq_nil fun _ => rfl,
        hsample.filterMap_eq_nil fun _ => rfl]
      cases hends <;> rfl
  | more hsample hround hrest ih =>
      rw [List.filterMap_append, List.filterMap_append, List.filterMap_append,
        List.filterMap_append, hsample.filterMap_eq_nil fun _ => rfl,
        hsample.filterMap_eq_nil fun _ => rfl, ih]
      cases hround <;> rfl

theorem Ends.settled {out : Except Error T} (h : Ends onTimeout left round out)
    {event : KEvent} {result : Except Error (Option T)} {out' : Except Error T}
    (hmem : interpretedAs event result ∈ round)
    (hout : settles result = some out') : out = out' := by
  cases h with
  | timedOut => simp at hmem
  | concluded event' v =>
      have hresult : result = .ok (some v) := by simp_all
      rw [hresult] at hout
      exact Option.some.inj hout
  | rejected event' e =>
      have hresult : result = .error e := by simp_all
      rw [hresult] at hout
      exact Option.some.inj hout
  | expired event' hleft =>
      have hresult : result = .ok none := by simp_all
      rw [hresult] at hout
      exact nomatch hout
  | failed errno herrno => simp at hmem

theorem GoesOn.unsettled (h : GoesOn left round) {event : KEvent}
    {result : Except Error (Option T)}
    (hmem : interpretedAs event result ∈ round) : settles result = none := by
  cases h with
  | inconclusive event' hleft =>
      have hresult : result = .ok none := by simp_all
      rw [hresult]
      rfl
  | interrupted => simp at hmem

/-- An interpretation that settles the wait is its result. -/
theorem Waits.settled (h : Waits deadline onTimeout fuel events r)
    {event : KEvent} {result : Except Error (Option T)} {out : Except Error T}
    (hmem : interpretedAs event result ∈ events)
    (hout : settles result = some out) : r = some out := by
  have hclock {sample : List (KqueueEvent T)} {left : Option Nat}
      (hsample : Samples deadline sample left) :
      interpretedAs event result ∉ sample := by
    intro hin
    obtain ⟨now, hnow⟩ := hsample.of_mem hin
    exact nomatch hnow
  induction h with
  | spent => exact nomatch hmem
  | last hsample hends =>
      have hround := (List.mem_append.mp hmem).resolve_left (hclock hsample)
      rw [hends.settled hround hout]
  | more hsample hround hrest ih =>
      have hlater := (List.mem_append.mp hmem).resolve_left (hclock hsample)
      rcases List.mem_append.mp hlater with hin | hin
      · rw [hround.unsettled hin] at hout
        exact nomatch hout
      · exact ih hin

/-- The verdict of a conclusive event is the result. -/
theorem Waits.returns (h : Waits deadline onTimeout fuel events r) {v : T}
    (hv : v ∈ events.filterMap verdict) : r = some (.ok v) := by
  obtain ⟨e, he, hverdict⟩ := List.mem_filterMap.mp hv
  obtain ⟨event, rfl⟩ := verdict_eq_some hverdict
  exact h.settled he rfl

theorem Samples.countP (h : Samples deadline sample left) :
    sample.countP isWait = 0 := by
  cases h <;> rfl

theorem GoesOn.countP (h : GoesOn left round) : round.countP isWait = 1 := by
  cases h <;> rfl

/-- A wait that is not over has made all its rounds. -/
theorem Waits.countP (h : Waits deadline onTimeout fuel events r)
    (hr : r = none) : events.countP isWait = fuel := by
  induction h with
  | spent => rfl
  | last hsample hends => exact nomatch hr
  | more hsample hround hrest ih =>
      rw [List.countP_append, List.countP_append, hsample.countP,
        hround.countP, ih hr]
      omega

end

/-! ## The deadline -/

/-- A `kevent` call without a timeout does not time out. -/
abbrev timedOutForever : KqueueEvent T :=
  waitFor none (.ok none)

/-- The result is that of a timeout, after the deadline. -/
def TimedOut (deadline : Option (Option Instant)) (onTimeout : T)
    (events : List (KqueueEvent T)) (v : T) : Prop :=
  v = onTimeout ∧ ∃ due, deadline = some (some due) ∧
    TimesOut reading timeout id due.nanos events

section

variable {deadline : Option (Option Instant)} {onTimeout v : T}
  {left : Option Nat} {fuel : Nat} {sample round events : List (KqueueEvent T)}

theorem TimedOut.append_left (first : List (KqueueEvent T))
    (h : TimedOut deadline onTimeout events v) :
    TimedOut deadline onTimeout (first ++ events) v := by
  obtain ⟨hv, due, hdue, htimes⟩ := h
  exact ⟨hv, due, hdue, htimes.append_left first⟩

/-- A run that times out does not end before the deadline. -/
theorem TimedOut.due_le {α : Type} {p : Blocking T α} {start stop : Nat}
    {timed : List (Timed (KqueueCall.Reply T))} {a : α}
    (h : TimedOut deadline onTimeout (timed.map (·.event)) v)
    (hruns : RunsIn reading p start timed a stop)
    (hpunctual : Punctual timeout timed) :
    v = onTimeout ∧ ∃ due, deadline = some (some due) ∧ due.nanos ≤ stop := by
  obtain ⟨hv, due, hdue, htimes⟩ := h
  obtain ⟨now, hnow⟩ := htimes.reads
  exact ⟨hv, due, hdue,
    hruns.not_early hpunctual htimes hnow (Nat.le_refl _)⟩

/-- A round that times out leaves no time of the deadline. -/
theorem Samples.timedOut (h : Samples deadline sample left)
    (hforever : timedOutForever ∉ round)
    (hround : round = [waitFor left (.ok none)]) :
    TimedOut deadline onTimeout (sample ++ round) onTimeout := by
  rw [hround] at hforever ⊢
  cases h with
  | absent => exact absurd List.mem_cons_self hforever
  | unbounded => exact absurd List.mem_cons_self hforever
  | bounded due now =>
      refine ⟨rfl, due, rfl, [], clockAt now, now.nanos, _, rfl, rfl, ?_,
        Or.inr ⟨_, List.mem_cons_self, timeout_waitFor due now⟩⟩
      intro f hf
      rw [List.mem_singleton.mp hf]
      rfl

/-- A round that starts without time left is after the deadline. -/
theorem Samples.elapsed (h : Samples deadline sample left)
    (hleft : left = some 0) (hround : ∀ e ∈ round, reading e = none) :
    TimedOut deadline onTimeout (sample ++ round) onTimeout := by
  cases h with
  | absent => exact nomatch hleft
  | unbounded => exact nomatch hleft
  | bounded due now =>
      have hpassed : due.nanos ≤ now.nanos :=
        Nat.le_of_sub_eq_zero (Option.some.inj hleft)
      exact ⟨rfl, due, rfl, [], clockAt now, now.nanos, round, rfl, rfl,
        hround, Or.inl hpassed⟩

/-- A result that is no verdict is the one of a timeout. -/
theorem Waits.timedOut {r : Option (Except Error T)}
    (h : Waits deadline onTimeout fuel events r) (hr : r = some (.ok v))
    (hforever : timedOutForever ∉ events)
    (hverdicts : events.filterMap verdict = []) :
    TimedOut deadline onTimeout events v := by
  induction h with
  | spent => exact nomatch hr
  | last hsample hends =>
      rw [List.mem_append, not_or] at hforever
      rw [List.filterMap_append, List.append_eq_nil_iff] at hverdicts
      cases hends with
      | timedOut =>
          obtain rfl := Except.ok.inj (Option.some.inj hr)
          exact hsample.timedOut hforever.2 rfl
      | concluded event v => exact nomatch hverdicts.2
      | rejected event e => exact nomatch Option.some.inj hr
      | expired event hleft =>
          obtain rfl := Except.ok.inj (Option.some.inj hr)
          exact hsample.elapsed hleft (by simp [reading])
      | failed errno herrno => exact nomatch Option.some.inj hr
  | more hsample hround hrest ih =>
      rw [List.mem_append, List.mem_append, not_or, not_or] at hforever
      rw [List.filterMap_append, List.filterMap_append,
        List.append_eq_nil_iff, List.append_eq_nil_iff] at hverdicts
      have htimed := ih hr hforever.2.2 hverdicts.2.2
      exact (htimed.append_left _).append_left _

end

/-! ## Rounds in time -/

/-- A round: when it started, what the clock read and what `kevent`
answered. -/
structure Round where
  started : Nat
  read : Nat
  waited : Except Int (Option KEvent)

/-- The answer is `EINTR`. -/
def Round.interrupted (round : Round) : Bool :=
  match round.waited with
  | .error errno => errno == eintr
  | .ok _ => false

/-- The rounds of a run, one for every `kevent` call.  A round starts with the
reading of the clock in front of the call; a call with no reading of its own
starts a round itself. -/
def rounds : List (Timed (KqueueCall.Reply T)) → List Round
  | ⟨⟨.now, now⟩, started, _⟩ :: ⟨⟨.kevent _, waited⟩, _, _⟩ :: es =>
      ⟨started, now.nanos, waited⟩ :: rounds es
  | ⟨⟨.kevent _, waited⟩, started, _⟩ :: es =>
      ⟨started, started, waited⟩ :: rounds es
  | _ :: es => rounds es
  | [] => []

/-- The round started when the deadline had elapsed, and its answer is not
`EINTR`. -/
def Round.overran (due : Instant) (round : Round) : Bool :=
  decide (due.nanos ≤ round.started) && !round.interrupted

/-- The clock of the round reads the deadline or later, and its answer is not
`EINTR`. -/
def Round.late (due : Instant) (round : Round) : Bool :=
  decide (due.nanos ≤ round.read) && !round.interrupted

section

variable {timed : List (Timed (KqueueCall.Reply T))}

theorem rounds_round {now : Instant} {left : Option Nat}
    {waited : Except Int (Option KEvent)} {events : List (KqueueEvent T)}
    (h : timed.map (·.event) = clockAt now :: waitFor left waited :: events) :
    ∃ started rest, rest.map (·.event) = events ∧
      rounds timed = ⟨started, now.nanos, waited⟩ :: rounds rest := by
  obtain ⟨⟨_, started, _⟩, _, rfl, rfl, hwait⟩ := List.map_eq_cons_iff.mp h
  obtain ⟨⟨_, _, _⟩, rest, rfl, rfl, hrest⟩ := List.map_eq_cons_iff.mp hwait
  exact ⟨started, rest, hrest, rfl⟩

theorem rounds_interpreted {event : KEvent}
    {result : Except Error (Option T)} {events : List (KqueueEvent T)}
    (h : timed.map (·.event) = interpretedAs event result :: events) :
    ∃ rest, rest.map (·.event) = events ∧ rounds timed = rounds rest := by
  obtain ⟨⟨_, _, _⟩, rest, rfl, rfl, hrest⟩ := List.map_eq_cons_iff.mp h
  exact ⟨rest, hrest, rfl⟩

/-- No `kevent` call is left out of the rounds. -/
theorem length_rounds (timed : List (Timed (KqueueCall.Reply T))) :
    (rounds timed).length = (timed.map (·.event)).countP isWait := by
  induction timed using rounds.induct with
  | case1 now started _ _ waited _ _ es ih =>
      rw [rounds, List.length_cons, ih, List.map_cons, List.map_cons,
        List.countP_cons_of_neg Bool.false_ne_true, List.countP_cons_of_pos rfl]
  | case2 _ waited started _ es ih =>
      rw [rounds, List.length_cons, ih, List.map_cons,
        List.countP_cons_of_pos rfl]
  | case3 e es hpair hwait ih =>
      have hnot : isWait e.event = false := by
        obtain ⟨⟨call, reply⟩, asked, answered⟩ := e
        cases call with
        | kevent time => exact absurd rfl (hwait time reply asked answered)
        | now | interpret event | armProcExit id | arm unboundedWait => rfl
      rw [rounds, ih, List.map_cons, List.countP_cons_of_neg (by simp [hnot])]
      · exact hpair
      · exact hwait
  | case4 => rfl

/-- The clock is read when the round has started. -/
theorem rounds_started_le (h : Clocked reading timed) :
    ∀ round ∈ rounds timed, round.started ≤ round.read := by
  induction timed using rounds.induct with
  | case1 now started _ _ waited _ _ es ih =>
      intro round hround
      rcases List.mem_cons.mp hround with rfl | hround
      · exact (h _ List.mem_cons_self now.nanos rfl).1
      · refine ih ?_ round hround
        intro e he
        exact h e (List.mem_cons_of_mem _ (List.mem_cons_of_mem _ he))
  | case2 _ waited started _ es ih =>
      intro round hround
      rcases List.mem_cons.mp hround with rfl | hround
      · exact Nat.le_refl started
      · refine ih ?_ round hround
        intro e he
        exact h e (List.mem_cons_of_mem _ he)
  | case3 e es hpair hwait ih =>
      rw [rounds]
      · refine ih ?_
        intro f hf
        exact h f (List.mem_cons_of_mem e hf)
      · exact hpair
      · exact hwait
  | case4 => simp [rounds]

end

/-- The rest of a round: the wait, and the interpretation of what it
delivered. -/
def Answers (left : Option Nat) (waited : Except Int (Option KEvent))
    (round : List (KqueueEvent T)) : Prop :=
  round = [waitFor left waited] ∨
    ∃ event result, round = [waitFor left waited, interpretedAs event result]

section

variable {due : Instant} {onTimeout : T} {left : Option Nat} {fuel : Nat}
  {sample round events : List (KqueueEvent T)}

theorem Ends.answers {r : Except Error T} (h : Ends onTimeout left round r) :
    ∃ waited, Answers left waited round := by
  cases h with
  | timedOut => exact ⟨_, Or.inl rfl⟩
  | concluded event v => exact ⟨_, Or.inr ⟨event, _, rfl⟩⟩
  | rejected event e => exact ⟨_, Or.inr ⟨event, _, rfl⟩⟩
  | expired event hleft => exact ⟨_, Or.inr ⟨event, _, rfl⟩⟩
  | failed errno herrno => exact ⟨_, Or.inl rfl⟩

/-- The loop goes on where time was left or the call was interrupted. -/
theorem GoesOn.answers (h : GoesOn left round) :
    ∃ waited, Answers left waited round ∧
      (left ≠ some 0 ∨ waited = .error eintr) := by
  cases h with
  | inconclusive event hleft =>
      exact ⟨_, Or.inr ⟨event, _, rfl⟩, Or.inl hleft⟩
  | interrupted => exact ⟨_, Or.inl rfl, Or.inr rfl⟩

/-- The first round of a timed run. -/
theorem Samples.rounds {timed : List (Timed (KqueueCall.Reply T))}
    {waited : Except Int (Option KEvent)}
    (h : Samples (some (some due)) sample left)
    (hround : Answers left waited round)
    (htimed : timed.map (·.event) = sample ++ (round ++ events)) :
    ∃ started now rest, rest.map (·.event) = events ∧
      left = some (due.nanos - now) ∧
        rounds timed = ⟨started, now, waited⟩ :: rounds rest := by
  cases h with
  | bounded due now =>
      rcases hround with rfl | ⟨event, result, rfl⟩
      · obtain ⟨started, rest, hrest, hrounds⟩ := rounds_round htimed
        exact ⟨started, now.nanos, rest, hrest, rfl, hrounds⟩
      · obtain ⟨started, between, hbetween, hrounds⟩ := rounds_round htimed
        obtain ⟨rest, hrest, hsame⟩ := rounds_interpreted hbetween
        rw [hsame] at hrounds
        exact ⟨started, now.nanos, rest, hrest, rfl, hrounds⟩

/-- At most one round is late. -/
theorem Waits.late {r : Option (Except Error T)}
    (h : Waits (some (some due)) onTimeout fuel events r) :
    ∀ timed : List (Timed (KqueueCall.Reply T)),
      timed.map (·.event) = events →
        (rounds timed).countP (Round.late due) ≤ 1 := by
  induction h with
  | spent =>
      intro timed htimed
      rw [List.map_eq_nil_iff.mp htimed]
      exact Nat.zero_le 1
  | last hsample hends =>
      intro timed htimed
      obtain ⟨waited, hround⟩ := hends.answers
      obtain ⟨started, now, rest, hrest, -, hrounds⟩ :=
        hsample.rounds hround (by rw [htimed, List.append_nil])
      rw [List.map_eq_nil_iff.mp hrest] at hrounds
      rw [hrounds]
      exact List.countP_le_length
  | more hsample hround hrest ih =>
      intro timed htimed
      obtain ⟨waited, hanswers, hagain⟩ := hround.answers
      obtain ⟨started, now, rest, hevents, hleft, hrounds⟩ :=
        hsample.rounds hanswers htimed
      have hnot : ¬ Round.late due ⟨started, now, waited⟩ := by
        unfold Round.late
        rcases hagain with htime | rfl
        · have hearly : ¬ due.nanos ≤ now := by
            intro hpassed
            rw [hleft, Nat.sub_eq_zero_of_le hpassed] at htime
            exact htime rfl
          simp [hearly]
        · simp [Round.interrupted]
      rw [hrounds, List.countP_cons_of_neg hnot]
      exact ih rest hevents

/-- A round that overran is late. -/
theorem countP_overran_le {timed : List (Timed (KqueueCall.Reply T))}
    (h : Clocked reading timed) :
    (rounds timed).countP (Round.overran due) ≤
      (rounds timed).countP (Round.late due) := by
  apply List.countP_mono_left
  intro round hmem hover
  unfold Round.overran at hover
  unfold Round.late
  have hstarted := rounds_started_le h round hmem
  simp only [Bool.and_eq_true, decide_eq_true_eq] at hover ⊢
  exact ⟨Nat.le_trans hover.1 hstarted, hover.2⟩

end

end Cosca.Ports.KqueueWait
