import Cosca.Ports.PidfdWait

/-!
# The verdicts of the pidfd wait

A pidfd that was checked is one of the process itself from then on, whatever
becomes of its pid, so that what it tells is told of that process.

## Main results

* `blockUntilExit_tells`: what either verdict says of the process itself, and
  that it is neither signalled nor reaped.
* `graceWait_tells`: the same of the reactor's wait.
-/

namespace Cosca.Ports.PidfdWait

open Cosca.Ports.Errors
open Cosca.Ports.Identity
open Cosca.Ports.Deadlines
open Cosca.Ports.KqueueWait (Instant timespecOf timespecOf_nanos eintr)
open Cosca.Ports.UnixSignals (Panic)
open Cosca.Ports.PinnedHost
open Cosca.Ports.IdentityKill
open Cosca.Verified.Interact

/-! ## Stability -/

theorem TimedHost.Moves.time_drifts {k k' : TimedHost}
    (h : TimedHost.Moves k k') : k.time.Drifts k'.time := by
  cases h with
  | host h hmove => exact ⟨rfl, Nat.le_refl _⟩
  | pass now h => exact ⟨rfl, h⟩

/-- Nothing but the host and the time has changed. -/
structure Passes (k k' : TimedHost) : Prop where
  timer : k'.timer = k.timer
  interrupts : k'.interrupts = k.interrupts
  now : k.time.now ≤ k'.time.now

theorem TimedHost.Moves.passes {k k' : TimedHost} (h : TimedHost.Moves k k') :
    Passes k k' := by
  cases h with
  | host h hmove => exact ⟨rfl, rfl, Nat.le_refl _⟩
  | pass now h => exact ⟨rfl, rfl, h⟩

/-- The host moves as it does without a clock, or not at all. -/
theorem TimedHost.Moves.host_moves {k k' : TimedHost}
    (h : TimedHost.Moves k k') :
    k'.host = k.host ∨ Host.Moves k.host k'.host := by
  cases h with
  | host h hmove => exact Or.inr hmove
  | pass now h => exact Or.inl rfl

theorem stable_host {cond : Host → Prop} (h : linux.Stable cond) :
    pidfds.Stable fun k => cond k.host := by
  intro k k' hmove hk
  rcases hmove.host_moves with hsame | hmove
  · exact hsame ▸ hk
  · exact h _ _ hmove hk

/-- What passing time cannot break. -/
theorem stable_of_passes {frame : TimedHost → Prop}
    (h : ∀ k k', Passes k k' → frame k → frame k') : pidfds.Stable frame :=
  fun k k' hmove => h k k' hmove.passes

section

variable {id : ProcessId} {start : TimedHost}
  {deadline : Option (Option Instant)}

/-- What `open_verified` finds, beside a clock. -/
theorem opened_guarantees {frame : TimedHost → Prop}
    (hframe : ∀ k k', Passes k k' → frame k → frame k') :
    (opened id).Guarantees pidfds
      (fun k => Untouched id start.host k.host ∧ frame k)
      fun r k => PidfdVerified id start.host r k.host ∧ frame k := by
  refine (openVerified_guarantees _).embed TimedHost.host frame ?_ ?_
    (stable_of_passes hframe) ?_
  · exact fun k k' hmove => hmove.host_moves
  · exact fun question k answer k' hserves => hserves.1
  · rintro question k answer k' ⟨_, htime, htimer, hinterrupts⟩ hk
    refine hframe k k' ⟨htimer, hinterrupts, ?_⟩ hk
    rw [htime]
    exact Nat.le_refl k.time.now

theorem stable_opened {frame : TimedHost → Prop}
    (hframe : ∀ k k', Passes k k' → frame k → frame k')
    (r : Except Panic (Except Error (Option Nat))) :
    pidfds.Stable fun k => PidfdVerified id start.host r k.host ∧ frame k :=
  (stable_host stable_pidfdVerified).and (stable_of_passes hframe)

/-- The pidfd is one of the process, and the rounds were interrupted. -/
def Held (id : ProcessId) (start : TimedHost) (pidfd m : Nat)
    (k : TimedHost) : Prop :=
  Untouched id start.host k.host ∧ k.host.pinned pidfd = some id ∧
    m + start.interrupts ≤ k.interrupts

theorem stable_held {pidfd m : Nat} :
    pidfds.Stable (Held id start pidfd m) := by
  rintro k k' hmove ⟨huntouched, hpinned, hpaid⟩
  exact ⟨stable_host stable_untouched k k' hmove huntouched,
    stable_host stable_pinned k k' hmove hpinned,
    hmove.passes.interrupts ▸ hpaid⟩

/-- What a verdict says of the process. -/
def VerdictSays (id : ProcessId) (deadline : Option (Option Instant)) :
    Except Error Bool → Recorded → Prop
  | .ok true, s => id ∈ s.1.host.exited
  | .ok false, s => ∃ k ∈ s.2, id ∉ k.host.exited ∧ Elapsed deadline k.time
  | .error _, _ => True

/-- What a round of the loop makes of it, the one after `m` others. -/
def RoundSays (id : ProcessId) (start : TimedHost)
    (deadline : Option (Option Instant)) (pidfd m : Nat) :
    Option (Except Error Bool) → Recorded → Prop
  | some verdict, s =>
      Untouched id start.host s.1.host ∧ VerdictSays id deadline verdict s
  | none, s => Held id start pidfd m s.1

theorem verdictSays_stable (verdict : Except Error Bool) :
    pidfds.recording.Stable (VerdictSays id deadline verdict) := by
  match verdict with
  | .ok true => exact (stable_host stable_exited).recording
  | .ok false => exact Environment.recording_once _
  | .error e => exact fun _ _ _ h => h

theorem roundSays_stable {pidfd m : Nat} (r : Option (Except Error Bool)) :
    pidfds.recording.Stable (RoundSays id start deadline pidfd m r) := by
  cases r with
  | none => exact stable_held.recording
  | some verdict =>
      exact (stable_host stable_untouched).recording.and
        (verdictSays_stable verdict)

/-! ## Polling -/

/-- Where a round polls. -/
def Polling (id : ProcessId) (start : TimedHost)
    (deadline : Option (Option Instant)) (pidfd m : Nat) (left : Option Nat)
    (s : Recorded) : Prop :=
  Held id start pidfd m s.1 ∧ Sampled deadline left s.1.time

theorem polling_stable {pidfd m : Nat} {left : Option Nat} :
    pidfds.recording.Stable (Polling id start deadline pidfd m left) :=
  stable_held.recording.and
    fun _ _ hmove hsampled => hsampled.drifts hmove.1.time_drifts

theorem sample_guarantees {pidfd m : Nat} :
    (remaining (query WaitCall.now) deadline).Guarantees pidfds.recording
      (fun s => Held id start pidfd m s.1)
      (Polling id start deadline pidfd m) := by
  refine remaining_guarantees (fun s : Recorded => s.1.time)
    stable_held.recording (fun s s' hmove => hmove.1.time_drifts) ?_ deadline
  refine Prog.Guarantees.query_recorded (f := Pure.pure)
    (fun now s => Held id start pidfd m s.1 ∧
      now.nanos ≤ s.1.time.returned) stable_held.recording ?_ ?_
  · rintro k past now k' ⟨hnow, rfl⟩ hheld
    exact ⟨hheld, Nat.le_of_eq hnow⟩
  · intro now
    refine .pure (stable_held.recording.and ?_) fun _ h => h
    intro s s' hmove hnow
    exact hmove.1.time_drifts.1 ▸ hnow

/-- What the answer to a poll says. -/
theorem poll_says {pidfd m : Nat} {left : Option Nat} {k k' : TimedHost}
    {past : List TimedHost} {polled : Except Int (Option Bool)}
    (hserves : k.serves (.poll pidfd (left.map timespecOf)) polled k')
    (hpolling : Polling id start deadline pidfd m left (k, past)) :
    RoundSays id start deadline pidfd (m + 1) (polledVerdict polled)
      (k', k' :: past) := by
  obtain ⟨⟨huntouched, hpinned, hpaid⟩, hsampled⟩ := hpolling
  match polled with
  | .ok none =>
      obtain ⟨⟨t, htime, hwaited⟩, ⟨p, hp, halive⟩, rfl⟩ := hserves
      obtain ⟨time, rfl, rfl⟩ := Option.map_eq_some_iff.mp htime
      rw [timespecOf_nanos hsampled.fits] at hwaited
      obtain rfl : id = p := Option.some.inj (hpinned.symm.trans hp)
      exact ⟨huntouched, k.back, List.mem_cons_self, halive,
        hsampled.elapsed hwaited⟩
  | .ok (some true) =>
      obtain ⟨_, rfl⟩ := hserves
      exact ⟨huntouched, trivial⟩
  | .ok (some false) =>
      obtain ⟨hexit, rfl⟩ := hserves
      obtain ⟨p, hp, hexited⟩ := hexit rfl
      obtain rfl : id = p := Option.some.inj (hpinned.symm.trans hp)
      exact ⟨huntouched, hexited⟩
  | .error errno =>
      obtain rfl := hserves
      by_cases hinterrupted : errno = eintr
      · rw [hinterrupted]
        refine ⟨huntouched, hpinned, ?_⟩
        show m + 1 + start.interrupts ≤ k.interrupts + 1
        have hrounds : m + start.interrupts ≤ k.interrupts := hpaid
        omega
      · have hverdict : polledVerdict (.error errno) =
            some (.error (.io (.os errno))) := if_neg hinterrupted
        rw [hverdict]
        exact ⟨huntouched, trivial⟩

theorem pollLoop_guarantees {pidfd : Nat} (fuel : Nat) : ∀ m,
    (pollLoop pidfd deadline fuel).Guarantees pidfds.recording
      (fun s => Held id start pidfd m s.1)
      (RoundSays id start deadline pidfd (m + fuel)) := by
  induction fuel with
  | zero => exact fun m => .pure stable_held.recording fun _ h => h
  | succ fuel ih =>
      intro m
      refine Prog.Guarantees.bind _ sample_guarantees ?_
      intro left
      refine Prog.Guarantees.query_recorded
        (fun polled => RoundSays id start deadline pidfd (m + 1)
          (polledVerdict polled)) polling_stable
        (fun k past polled k' hserves hpolling =>
          poll_says hserves hpolling) ?_
      intro polled
      cases polledVerdict polled with
      | some verdict => exact .pure (roundSays_stable _) fun _ h => h
      | none =>
          have hrest := ih (m + 1)
          rw [Nat.add_right_comm, Nat.add_assoc] at hrest
          exact hrest

/-- What a wait tells of the process, where it ends before `fuel` rounds. -/
structure Tells (id : ProcessId) (deadline : Option (Option Instant))
    (fuel : Nat) (start : TimedHost) (path : List TimedHost)
    (r : Except Panic (Option (Except Error Bool))) (stop : TimedHost) :
    Prop where
  /-- Nobody was signalled. -/
  untouched : Untouched id start.host stop.host
  /-- The process itself has exited. -/
  exited : r = .ok (some (.ok true)) → id ∈ stop.host.exited
  /-- At some instant after the deadline the process had not exited. -/
  alive : r = .ok (some (.ok false)) →
    ∃ k ∈ path, id ∉ k.host.exited ∧ Elapsed deadline k.time
  /-- Only interrupted rounds are repeated. -/
  spins : r = .ok none → fuel + start.interrupts ≤ stop.interrupts

/-- A verdict is told. -/
theorem VerdictSays.tells {verdict : Except Error Bool} {s : Recorded}
    (h : VerdictSays id deadline verdict s)
    (huntouched : Untouched id start.host s.1.host) (fuel : Nat) :
    Tells id deadline fuel start s.2 (.ok (some verdict)) s.1 := by
  refine ⟨huntouched, ?_, ?_, nofun⟩
  · intro hr
    obtain rfl := Option.some.inj (Except.ok.inj hr)
    exact h
  · intro hr
    obtain rfl := Option.some.inj (Except.ok.inj hr)
    exact h

/-- What the loop ends in is told. -/
theorem RoundSays.tells {pidfd fuel : Nat} {r : Option (Except Error Bool)}
    {s : Recorded} (h : RoundSays id start deadline pidfd fuel r s) :
    Tells id deadline fuel start s.2 (.ok r) s.1 := by
  cases r with
  | none => exact ⟨h.1, nofun, nofun, fun _ => h.2.2⟩
  | some verdict => exact h.2.tells h.1 fuel

/-- The wait was not interrupted more often than at its start. -/
theorem interrupts_passes (start k k' : TimedHost) (h : Passes k k')
    (hk : start.interrupts ≤ k.interrupts) :
    start.interrupts ≤ k'.interrupts :=
  h.interrupts ▸ hk

theorem blockUntilExit_guarantees (fuel : Nat) :
    (blockUntilExit id deadline fuel).Guarantees pidfds.recording
      (fun s => Untouched id start.host s.1.host ∧
        start.interrupts ≤ s.1.interrupts)
      fun r s => Tells id deadline fuel start s.2 r s.1 := by
  refine Prog.Guarantees.bind _
    (opened_guarantees (interrupts_passes start)).recording ?_
  intro r
  have hstable : pidfds.recording.Stable fun s =>
      PidfdVerified id start.host r s.1.host ∧
        start.interrupts ≤ s.1.interrupts :=
    (stable_opened (interrupts_passes start) r).recording
  match r with
  | .error panic =>
      exact .pure hstable fun s hs => ⟨hs.1.1, nofun, nofun, nofun⟩
  | .ok (.error e) =>
      refine .pure hstable fun s hs => ?_
      have hsays : VerdictSays id deadline (.error e) s := trivial
      exact hsays.tells hs.1.1 fuel
  | .ok (.ok none) =>
      refine .pure hstable fun s hs => ?_
      have hsays : VerdictSays id deadline (.ok true) s := hs.1.2
      exact hsays.tells hs.1.1 fuel
  | .ok (.ok (some pidfd)) =>
      have hloop : (pollLoop pidfd deadline fuel).Guarantees pidfds.recording
          (fun s => Held id start pidfd 0 s.1)
          (RoundSays id start deadline pidfd (0 + fuel)) :=
        pollLoop_guarantees fuel 0
      rw [Nat.zero_add] at hloop
      refine Prog.Guarantees.bind _ (hloop.conseq ?_ fun _ _ h => h) ?_
      · rintro s ⟨⟨huntouched, hpinned⟩, hinterrupts⟩
        refine ⟨huntouched, hpinned, ?_⟩
        rw [Nat.zero_add]
        exact hinterrupts
      · exact fun verdict => .pure (roundSays_stable verdict)
          fun s hs => hs.tells

/-! ## The reactor's wait -/

variable {grace : Nat}

/-- The timer ends after the grace. -/
def Graced (start : TimedHost) (grace : Nat) (k : TimedHost) : Prop :=
  ∃ due, k.timer = some due ∧ start.time.now + grace ≤ due

theorem graced_passes (start : TimedHost) (grace : Nat) (k k' : TimedHost)
    (h : Passes k k') (hk : Graced start grace k) : Graced start grace k' := by
  obtain ⟨due, htimer, hdue⟩ := hk
  exact ⟨due, h.timer.trans htimer, hdue⟩

/-- The pidfd is one of the process, and the timer ends after the grace. -/
def Watching (id : ProcessId) (start : TimedHost) (grace pidfd : Nat)
    (k : TimedHost) : Prop :=
  (Untouched id start.host k.host ∧ k.host.pinned pidfd = some id) ∧
    Graced start grace k

theorem stable_watching {pidfd : Nat} :
    pidfds.Stable (Watching id start grace pidfd) :=
  (stable_host (stable_untouched.and stable_pinned)).and
    (stable_of_passes (graced_passes start grace))

/-- What the end of a watch says of the process. -/
def WatchedSays (id : ProcessId) (start : TimedHost) (grace : Nat) :
    Watched → TimedHost → Prop
  | .out, k => Untouched id start.host k.host
  | .dropped, k => Untouched id start.host k.host ∧
      start.time.now + grace ≤ k.time.now
  | .resolved (.ok ()), k =>
      Untouched id start.host k.host ∧ id ∈ k.host.exited
  | .resolved (.error _), k => Untouched id start.host k.host

theorem stable_late (start : TimedHost) (grace : Nat) :
    pidfds.Stable fun k => start.time.now + grace ≤ k.time.now :=
  stable_of_passes fun _ _ h hk => Nat.le_trans hk h.now

theorem watchedSays_stable (watched : Watched) :
    pidfds.Stable (WatchedSays id start grace watched) := by
  match watched with
  | .out => exact stable_host stable_untouched
  | .dropped =>
      exact (stable_host stable_untouched).and (stable_late start grace)
  | .resolved (.ok ()) =>
      exact stable_host (stable_untouched.and stable_exited)
  | .resolved (.error e) => exact stable_host stable_untouched

/-- What a classified readiness says. -/
def ClassSays (id : ProcessId) (start : TimedHost) (grace pidfd : Nat) :
    Option (Except Error Unit) → TimedHost → Prop
  | some verdict, k => WatchedSays id start grace (.resolved verdict) k
  | none, k => Watching id start grace pidfd k

/-- What an answer to `ready` says. -/
def ReadySays (id : ProcessId) (start : TimedHost) (grace pidfd : Nat) :
    Option (Except IoError Ready) → TimedHost → Prop
  | none, k => WatchedSays id start grace .dropped k
  | some (.error _), k => Untouched id start.host k.host
  | some (.ok ready), k =>
      ClassSays id start grace pidfd (classifyPidfdReady ready) k

theorem classSays_stable {pidfd : Nat} (verdict : Option (Except Error Unit)) :
    pidfds.Stable (ClassSays id start grace pidfd verdict) := by
  cases verdict with
  | some verdict => exact watchedSays_stable (.resolved verdict)
  | none => exact stable_watching

theorem readySays_stable {pidfd : Nat} (ready : Option (Except IoError Ready)) :
    pidfds.Stable (ReadySays id start grace pidfd ready) := by
  match ready with
  | none => exact watchedSays_stable .dropped
  | some (.error e) => exact stable_host stable_untouched
  | some (.ok ready) => exact classSays_stable (classifyPidfdReady ready)

/-- A readiness of the process's own pidfd. -/
theorem classify_says {pidfd : Nat} {k : TimedHost} {ready : Ready}
    (hexit : ready.error = false → ready.readable || ready.readClosed →
      k.tellsExit pidfd)
    (hk : Watching id start grace pidfd k) :
    ClassSays id start grace pidfd (classifyPidfdReady ready) k := by
  obtain ⟨⟨huntouched, hpinned⟩, hgraced⟩ := hk
  unfold classifyPidfdReady
  split
  · exact huntouched
  · next herror =>
      split
      · next hready =>
          obtain ⟨p, hp, hexited⟩ :=
            hexit (Bool.eq_false_iff.mpr herror) hready
          obtain rfl : id = p := Option.some.inj (hpinned.symm.trans hp)
          exact ⟨huntouched, hexited⟩
      · exact ⟨⟨huntouched, hpinned⟩, hgraced⟩

theorem ready_says {pidfd : Nat} {k k' : TimedHost}
    {ready : Option (Except IoError Ready)}
    (hserves : k.serves (.ready pidfd) ready k')
    (hk : Watching id start grace pidfd k) :
    ReadySays id start grace pidfd ready k' := by
  match ready with
  | none =>
      obtain ⟨⟨huntouched, _⟩, due, htimer, hdue⟩ := hk
      obtain ⟨⟨due', htimer', hpassed⟩, rfl⟩ := hserves
      obtain rfl : due = due' := Option.some.inj (htimer.symm.trans htimer')
      exact ⟨huntouched, Nat.le_trans hdue hpassed⟩
  | some (.error e) =>
      obtain rfl := hserves
      exact hk.1.1
  | some (.ok ready) =>
      obtain ⟨hexit, rfl⟩ := hserves
      exact classify_says (k := k.back) hexit hk

theorem readyLoop_guarantees {pidfd : Nat} (fuel : Nat) :
    (readyLoop pidfd fuel).Guarantees pidfds (Watching id start grace pidfd)
      (WatchedSays id start grace) := by
  induction fuel with
  | zero => exact .pure stable_watching fun k hk => hk.1.1
  | succ fuel ih =>
      refine Prog.Guarantees.query_bind (ReadySays id start grace pidfd)
        stable_watching (fun k ready k' hserves hk => ready_says hserves hk) ?_
      intro ready
      match ready with
      | none => exact .pure (readySays_stable none) fun _ h => h
      | some (.error e) =>
          exact .pure (readySays_stable (some (.error e))) fun _ h => h
      | some (.ok ready) =>
          show (afterClassified pidfd (readyLoop pidfd fuel)
            (classifyPidfdReady ready)).Guarantees pidfds
              (ClassSays id start grace pidfd (classifyPidfdReady ready)) _
          cases classifyPidfdReady ready with
          | some verdict => exact .pure (classSays_stable _) fun _ h => h
          | none =>
              refine Prog.Guarantees.query_bind
                (fun _ => Watching id start grace pidfd) stable_watching ?_
                fun _ => ih
              rintro k _ k' rfl hk
              exact hk

/-- What the end of a watch says, where it did not panic. -/
def ExitSays (id : ProcessId) (start : TimedHost) (grace : Nat) :
    Except Panic Watched → TimedHost → Prop
  | .error _, k => Untouched id start.host k.host
  | .ok watched, k => WatchedSays id start grace watched k

theorem readyRegistered_guarantees {pidfd : Nat} (fuel : Nat)
    (registered : Except IoError Unit) :
    (readyRegistered pidfd fuel registered).Guarantees pidfds
      (Watching id start grace pidfd) (WatchedSays id start grace) := by
  cases registered with
  | error e => exact .pure stable_watching fun k hk => hk.1.1
  | ok u => exact readyLoop_guarantees fuel

theorem exitWatch_guarantees (fuel : Nat) :
    (exitWatch id fuel).Guarantees pidfds
      (fun k => Untouched id start.host k.host ∧ Graced start grace k)
      (ExitSays id start grace) := by
  refine Prog.Guarantees.bind _
    (opened_guarantees (graced_passes start grace)) ?_
  intro r
  have hstable : pidfds.Stable fun k =>
      PidfdVerified id start.host r k.host ∧ Graced start grace k :=
    stable_opened (graced_passes start grace) r
  match r with
  | .error panic => exact .pure hstable fun k hk => hk.1.1
  | .ok (.error e) => exact .pure hstable fun k hk => hk.1.1
  | .ok (.ok none) => exact .pure hstable fun k hk => hk.1
  | .ok (.ok (some pidfd)) =>
      refine Prog.Guarantees.query_bind
        (fun _ => Watching id start grace pidfd) hstable ?_ ?_
      · rintro k registered k' hserves ⟨⟨huntouched, hpinned⟩, hgraced⟩
        obtain rfl : k' = k.back := hserves
        exact ⟨⟨huntouched, hpinned⟩, hgraced⟩
      · intro registered
        refine Prog.Guarantees.bind _
          (readyRegistered_guarantees fuel registered) ?_
        exact fun watched => .pure (watchedSays_stable watched) fun _ h => h

/-- What the reactor's wait tells of the process. -/
structure TellsAsync (id : ProcessId) (grace : Nat) (start : TimedHost)
    (path : List TimedHost) (r : Except Panic (Option (Except Error Bool)))
    (stop : TimedHost) : Prop where
  /-- Nobody was signalled. -/
  untouched : Untouched id start.host stop.host
  /-- The process itself has exited. -/
  exited : r = .ok (some (.ok true)) → id ∈ stop.host.exited
  /-- The grace is over; a probe has found the process alive. -/
  elapsed : r = .ok (some (.ok false)) → ∃ k ∈ path,
    start.time.now + grace ≤ k.time.now ∧ (grace = 0 → id ∉ k.host.exited)

/-- What a watch ends in under a grace is told. -/
theorem ExitSays.tells {r : Except Panic Watched} {s : Recorded}
    (h : ExitSays id start grace r s.1) (hgrace : grace ≠ 0)
    (hpath : s.1 ∈ s.2) :
    TellsAsync id grace start s.2 (r.map Watched.verdict) s.1 := by
  match r with
  | .error panic => exact ⟨h, nofun, nofun⟩
  | .ok .out => exact ⟨h, nofun, nofun⟩
  | .ok .dropped =>
      exact ⟨h.1, nofun, fun _ => ⟨s.1, hpath, h.2, fun hzero =>
        absurd hzero hgrace⟩⟩
  | .ok (.resolved (.ok ())) => exact ⟨h.1, fun _ => h.2, nofun⟩
  | .ok (.resolved (.error e)) => exact ⟨h, nofun, nofun⟩

/-- The call has begun. -/
def Begun (id : ProcessId) (start k : TimedHost) : Prop :=
  Untouched id start.host k.host ∧ start.interrupts ≤ k.interrupts ∧
    start.time.now ≤ k.time.now

theorem stable_begun : pidfds.Stable (Begun id start) :=
  (stable_host stable_untouched).and
    ((stable_of_passes (interrupts_passes start)).and (stable_late start 0))

/-- A probe is told as a wait whose grace is over at once. -/
theorem Tells.probe {now : Instant} {fuel : Nat} {path : List TimedHost}
    {r : Except Panic (Option (Except Error Bool))} {stop : TimedHost}
    (h : Tells id (some (some now)) fuel start path r stop)
    (hnow : start.time.now ≤ now.nanos) :
    TellsAsync id 0 start path r stop := by
  refine ⟨h.untouched, h.exited, ?_⟩
  intro hr
  obtain ⟨k, hk, halive, due, hdue, hpassed⟩ := h.alive hr
  obtain rfl := Option.some.inj (Option.some.inj hdue)
  exact ⟨k, hk, Nat.le_trans hnow hpassed, fun _ => halive⟩

theorem probe_guarantees (fuel : Nat) :
    (graceWait id 0 fuel).Guarantees pidfds.recording
      (fun s => Begun id start s.1)
      fun r s => TellsAsync id 0 start s.2 r s.1 := by
  refine Prog.Guarantees.query_recorded
    (fun now s => start.time.now ≤ now.nanos ∧
      Untouched id start.host s.1.host ∧
        start.interrupts ≤ s.1.interrupts) stable_begun.recording ?_ ?_
  · rintro k past now k' ⟨hnow, rfl⟩ ⟨huntouched, hinterrupts, htime⟩
    exact ⟨hnow ▸ htime, huntouched, hinterrupts⟩
  · rintro now s r s' hrun ⟨hnow, hs⟩
    exact (blockUntilExit_guarantees fuel s r s' hrun hs).probe hnow

theorem timeout_guarantees (hgrace : grace ≠ 0) (fuel : Nat) :
    (graceWait id grace fuel).Guarantees pidfds (Begun id start)
      fun r k => ∃ watched, r = watched.map Watched.verdict ∧
        ExitSays id start grace watched k := by
  unfold graceWait
  rw [if_neg hgrace]
  refine Prog.Guarantees.query_bind
    (fun _ k => Untouched id start.host k.host ∧ Graced start grace k)
    stable_begun ?_ ?_
  · rintro k _ k' rfl ⟨huntouched, _, htime⟩
    exact ⟨huntouched, _, rfl, Nat.add_le_add_right htime grace⟩
  · intro _
    refine Prog.Guarantees.bind _ (exitWatch_guarantees fuel) ?_
    intro watched
    refine .pure ?_ fun k hk => ⟨watched, rfl, hk⟩
    cases watched with
    | error panic => exact stable_host stable_untouched
    | ok watched => exact watchedSays_stable watched

end

/-- For every deadline and every run beside a host that recycles pids. -/
theorem blockUntilExit_tells (id : ProcessId)
    (deadline : Option (Option Instant)) (fuel : Nat) (start stop : TimedHost)
    (path : List TimedHost) (r : Except Panic (Option (Except Error Bool)))
    (hid : id ∈ start.host.created)
    (h : (blockUntilExit id deadline fuel).RunsOn pidfds.recording
      (start, [start]) r (stop, path)) :
    Tells id deadline fuel start path r stop :=
  blockUntilExit_guarantees fuel _ r _ h
    ⟨Untouched.refl hid, Nat.le_refl start.interrupts⟩

/-- One call of a recorded run. -/
theorem call_runs {α : Type} {q : WaitCall} {f : q.Reply → Waiting α}
    (a : q.Reply) {k k' : TimedHost} {past : List TimedHost} {r : α}
    {s : Recorded} (hserves : k.serves q a k')
    (hrest : (f a).RunsOn pidfds.recording (k', k' :: past) r s) :
    (Prog.ask q f).RunsOn pidfds.recording (k, past) r s :=
  .ask a ⟨hserves, rfl⟩ hrest

theorem move_runs {α : Type} {p : Waiting α} {k k' : TimedHost}
    {past : List TimedHost} {r : α} {s : Recorded}
    (hmove : TimedHost.Moves k k')
    (hrest : p.RunsOn pidfds.recording (k', k' :: past) r s) :
    p.RunsOn pidfds.recording (k, past) r s :=
  .move ⟨hmove, rfl⟩ hrest

/-- A host at its first instant. -/
def timedHost (host : Host) (timer : Option Nat) : TimedHost where
  host := host
  time := .first
  timer := timer
  interrupts := 0

/-- A process runs. -/
abbrev running : Host := hostOf ⟨7, 1⟩

/-- It was opened. -/
abbrev pinned : Host := running.pin 3 ⟨7, 1⟩

/-- The answers to `open_verified` on that host. -/
theorem opened_runs {α : Type} {timer : Option Nat}
    {f : Except Panic (Except Error (Option Nat)) → Waiting α}
    {past : List TimedHost} {r : α} {s : Recorded}
    (hrest : (f (.ok (.ok (some 3)))).RunsOn pidfds.recording
      (timedHost pinned timer,
        timedHost pinned timer :: timedHost pinned timer :: past) r s) :
    (opened ⟨7, 1⟩ >>= f).RunsOn pidfds.recording
      (timedHost running timer, past) r s := by
  have hholder : running.holder 7 = some ⟨7, 1⟩ := by decide
  have htoken : pinned.readsToken 7 (.found 1) := Or.inr (by decide)
  have hopen : (timedHost running timer).serves (.os (.pidfdOpen 7)) (.ok 3)
      (timedHost pinned timer) := ⟨⟨⟨7, 1⟩, hholder, rfl, rfl⟩, rfl, rfl, rfl⟩
  have hread : (timedHost pinned timer).serves (.os (.startToken 7)) (.found 1)
      (timedHost pinned timer) := ⟨⟨htoken, rfl⟩, rfl, rfl, rfl⟩
  refine call_runs (q := .os (.pidfdOpen 7)) _ hopen ?_
  exact call_runs (q := .os (.startToken 7)) _ hread hrest

/-- The process exits before the poll. -/
theorem exit_runs : ∃ path stop,
    (blockUntilExit ⟨7, 1⟩ none 1).RunsOn pidfds.recording
      (timedHost running none, [timedHost running none])
      (.ok (some (.ok true))) (stop, path) := by
  apply Exists.intro
  apply Exists.intro
  refine opened_runs ?_
  refine move_runs (.host _ _ (.exit _ ⟨7, 1⟩ (by decide))) ?_
  refine call_runs (q := .poll 3 _) (.ok (some false))
    ⟨fun _ => ⟨⟨7, 1⟩, rfl, by decide⟩, rfl⟩ ?_
  exact .done _ _

theorem blockUntilExit_tells_exit : ∃ path stop, Tells ⟨7, 1⟩ none 1
    (timedHost running none) path (.ok (some (.ok true))) stop := by
  obtain ⟨path, stop, h⟩ := exit_runs
  exact ⟨path, stop, blockUntilExit_tells _ _ _ _ _ _ _ (by decide) h⟩

/-- The same for the reactor's wait and every grace. -/
theorem graceWait_tells (id : ProcessId) (grace fuel : Nat)
    (start stop : TimedHost) (path : List TimedHost)
    (r : Except Panic (Option (Except Error Bool)))
    (hid : id ∈ start.host.created)
    (h : (graceWait id grace fuel).RunsOn pidfds.recording (start, [start]) r
      (stop, path)) : TellsAsync id grace start path r stop := by
  have hbegun : Begun id start start :=
    ⟨Untouched.refl hid, Nat.le_refl _, Nat.le_refl _⟩
  by_cases hgrace : grace = 0
  · rw [hgrace] at h ⊢
    exact probe_guarantees fuel _ r _ h hbegun
  · obtain ⟨watched, rfl, hsays⟩ :=
      (timeout_guarantees hgrace fuel).recording _ r _ h hbegun
    exact hsays.tells hgrace (h.stop_mem List.mem_cons_self)

/-- The process outlives the timeout. -/
theorem outlives_runs (past : List TimedHost) : ∃ path stop,
    (exitWatch ⟨7, 1⟩ 1).RunsOn pidfds.recording
      (timedHost running (some 5), past) (.ok .dropped) (stop, path) := by
  apply Exists.intro
  apply Exists.intro
  refine opened_runs ?_
  refine call_runs (q := .register 3) (.ok ()) rfl ?_
  refine move_runs (.pass _ 9 (by decide)) ?_
  refine call_runs (q := .ready 3) none ⟨⟨5, rfl, by decide⟩, rfl⟩ ?_
  exact .done _ _

theorem graceWait_tells_outlives : ∃ path stop, TellsAsync ⟨7, 1⟩ 5
    (timedHost running none) path (.ok (some (.ok false))) stop := by
  obtain ⟨path, stop, hwatch⟩ := outlives_runs
    [timedHost running (some 5), timedHost running none]
  have hrun : (graceWait ⟨7, 1⟩ 5 1).RunsOn pidfds.recording
      (timedHost running none, [timedHost running none])
      (.ok (some (.ok false))) (stop, path) :=
    call_runs (q := .timeout 5) () rfl (hwatch.bind (.done _ _))
  exact ⟨path, stop, graceWait_tells _ _ _ _ _ _ _ (by decide) hrun⟩

end Cosca.Ports.PidfdWait


