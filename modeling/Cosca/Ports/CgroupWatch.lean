import Cosca.Ports.CgroupDrain

/-!
# What the drain watch of a cgroup leaf says

The rounds of the watches are accounted for: a round that does not end the
watch is paid for by a change of `populated` that the next read is the first to
see, or by a wakeup that nothing caused.  The account of the polling watch is
kept in what the file has told, that of the reactor's in the readiness that was
cleared.

## Main results

* `wait_keeps`: what either verdict says, that removal is never an error, and
  that a watch never spins.
-/

namespace Cosca.Ports.CgroupDrain

open Cosca.Ports.Errors
open Cosca.Ports.ChildRelease (TreeDrain)
open Cosca.Ports.Deadlines
open Cosca.Ports.KqueueWait (Instant Timespec timespecOf_nanos eintr)
open Cosca.Verified.Interact

/-! ## The loop -/

/-- What a verdict of the watch says. -/
def VerdictSays (deadline : Option (Option Instant)) :
    Except Error TreeDrain → Recorded → Prop
  | .ok .allMembersExited, s => Emptied s
  | .ok .membersRemain, s => Elapsed deadline s.1.time ∧ Occupied s
  | .ok .allMarkersClosed, _ => False
  | .error e, _ => Failure e

/-- What the result of a round, or of the loop, says. -/
def RoundSays (deadline : Option (Option Instant)) (acc : Account) (m : Nat) :
    Outcome → Recorded → Prop
  | some verdict, s => VerdictSays deadline verdict s
  | none, s => acc.head m s.1

/-- Where a round waits. -/
def Waiting (deadline : Option (Option Instant)) (acc : Account) (m : Nat)
    (left : Option Nat) (s : Recorded) : Prop :=
  (acc.armed m s.1 ∧ Occupied s) ∧ Sampled deadline left s.1.time

/-- A wait that keeps the account and gives up only once the time is over. -/
def Awaits (deadline : Option (Option Instant)) (acc : Account)
    (await : Await) : Prop :=
  ∀ m left, (await left).Guarantees kernfs.recording
    (Waiting deadline acc m left) (RoundSays deadline acc (m + 1))

section

variable {deadline : Option (Option Instant)} {acc : Account} {m : Nat}

theorem verdictSays_stable (verdict : Except Error TreeDrain) :
    kernfs.recording.Stable (VerdictSays deadline verdict) := by
  match verdict with
  | .ok .allMembersExited => exact stable_emptied
  | .ok .membersRemain => exact stable_elapsed.recording.and stable_occupied
  | .ok .allMarkersClosed => exact stable_const False
  | .error e => exact stable_const (Failure e)

theorem roundSays_stable (r : Outcome) :
    kernfs.recording.Stable (RoundSays deadline acc m r) := by
  cases r with
  | none => exact (stable_head acc m).recording
  | some verdict => exact verdictSays_stable verdict

theorem waiting_stable (left : Option Nat) :
    kernfs.recording.Stable (Waiting deadline acc m left) :=
  ((stable_armed acc m).recording.and stable_occupied).and
    stable_sampled.recording

theorem Occupied.next {l : Leaf} {past : List Leaf}
    (h : Occupied (l, past)) (l' : Leaf) : Occupied (l', l' :: past) := by
  obtain ⟨l₀, hmem, hmembers⟩ := h
  exact ⟨l₀, List.mem_cons_of_mem _ hmem, hmembers⟩

/-- After the sample of a round. -/
theorem sample_guarantees :
    (remaining (query DrainCall.now) deadline).Guarantees kernfs.recording
      (fun s => acc.armed m s.1 ∧ Occupied s) (Waiting deadline acc m) := by
  have hstable := (stable_armed acc m).recording.and stable_occupied
  refine remaining_guarantees (fun s : Recorded => s.1.time) hstable
    (fun s s' hmove => hmove.1.drifts.time) ?_ deadline
  refine Prog.Guarantees.query_recorded (f := Pure.pure)
    (fun now s => (acc.armed m s.1 ∧ Occupied s) ∧
      now.nanos ≤ s.1.time.returned) hstable ?_ ?_
  · rintro l past now l' ⟨hnow, rfl⟩ ⟨harmed, hoccupied⟩
    exact ⟨⟨acc.armed_back m l harmed, hoccupied.next l.back⟩,
      Nat.le_of_eq hnow⟩
  · intro now
    refine .pure (hstable.and ?_) fun _ => id
    intro s s' hmove hnow
    exact hmove.1.drifts.time.1 ▸ hnow

theorem drainLoop_guarantees {await : Await}
    (hawait : Awaits deadline acc await) (fuel : Nat) : ∀ m,
    (drainLoop deadline await fuel).Guarantees kernfs.recording
      (fun s => acc.head m s.1) (RoundSays deadline acc (m + fuel)) := by
  induction fuel with
  | zero => exact fun m => .pure (stable_head acc m).recording fun _ => id
  | succ fuel ih =>
      intro m
      refine Prog.Guarantees.bind (ReadSays acc m) readPopulated_guarantees ?_
      intro populated
      match populated with
      | .error e => exact .pure (readSays_stable _) fun _ => id
      | .ok false => exact .pure (readSays_stable _) fun _ => id
      | .ok true =>
          refine Prog.Guarantees.bind _ sample_guarantees ?_
          intro left
          split
          · next hzero =>
              refine Prog.Guarantees.pure (waiting_stable left) ?_
              rintro s ⟨⟨_, hoccupied⟩, hsampled⟩
              rw [hzero] at hsampled
              exact ⟨hsampled.elapsed_zero, hoccupied⟩
          · refine Prog.Guarantees.bind _ (hawait m left) ?_
            intro verdict
            cases verdict with
            | some verdict => exact .pure (roundSays_stable _) fun _ => id
            | none =>
                have hrest := ih (m + 1)
                rw [Nat.add_right_comm, Nat.add_assoc] at hrest
                exact hrest

end

/-! ## Polling -/

/-- A round of the polling watch is paid for by a change that the file tells of
only now, or by an interrupted call. -/
def pollAccount (start : Leaf) : Account where
  head m l :=
    m + start.changes + start.interrupts ≤ l.changes + l.interrupts + l.gone
  armed m l := ∃ n, l.told = some n ∧
    m + start.changes + start.interrupts ≤ n + l.interrupts
  head_drifts := by
    intro m l l' h hpaid
    have hchanges := h.changes
    have hinterrupts := h.interrupts
    have hgone := h.gone
    omega
  armed_drifts := by
    rintro m l l' h ⟨n, htold, hpaid⟩
    exact ⟨n, h.told.trans htold, h.interrupts ▸ hpaid⟩
  head_back := fun _ _ h => h
  armed_back := fun _ _ h => h
  tell := by
    intro m l hpresent hpaid
    rw [Leaf.gone_of_present hpresent] at hpaid
    exact ⟨l.changes, rfl, hpaid⟩

/-- How the kernel answers a poll. -/
theorem poll_cases {l l' : Leaf} {timeout : Option Timespec}
    {polled : Except Int Nat} (h : l.serves (.poll timeout) polled l') :
    (∃ time, polled = .ok 0 ∧ timeout = some time ∧
      l.time.returned + time.nanos ≤ l.time.now ∧ l' = l.back) ∨
    (∃ events, polled = .ok (events + 1) ∧ l.Wakes l.told l') ∨
    ∃ errno, polled = .error errno ∧
      removedAfterDrain (.os errno) = false ∧ l' = l.interrupt.back := by
  match polled, timeout with
  | .ok 0, none => exact False.elim h
  | .ok 0, some time => exact Or.inl ⟨time, rfl, rfl, h⟩
  | .ok (events + 1), none => exact Or.inr (Or.inl ⟨events, rfl, h⟩)
  | .ok (events + 1), some _ => exact Or.inr (Or.inl ⟨events, rfl, h⟩)
  | .error errno, none => exact Or.inr (Or.inr ⟨errno, rfl, h⟩)
  | .error errno, some _ => exact Or.inr (Or.inr ⟨errno, rfl, h⟩)

theorem polledVerdict_error (errno : Int) : polledVerdict (.error errno) =
    if errno = eintr then none else some (.error (.io (.os errno))) := rfl

/-- A poll that was interrupted, or returned for no change, is paid for. -/
theorem interrupted_paid {start l : Leaf} {m : Nat}
    (harmed : (pollAccount start).armed m l) :
    (pollAccount start).head (m + 1) l.interrupt.back := by
  obtain ⟨n, htold, hpaid⟩ := harmed
  have hle := l.told_le n htold
  show m + 1 + start.changes + start.interrupts ≤
    l.changes + (l.interrupts + 1) + l.gone
  omega

/-- A poll that returned is paid for. -/
theorem Leaf.Wakes.polled {start l l' : Leaf} {m : Nat}
    (h : l.Wakes l.told l') (harmed : (pollAccount start).armed m l) :
    (pollAccount start).head (m + 1) l' := by
  rcases h with ⟨hready, rfl⟩ | rfl
  · obtain ⟨n, htold, hpaid⟩ := harmed
    have hle := l.told_le n htold
    show m + 1 + start.changes + start.interrupts ≤
      l.changes + l.interrupts + l.gone
    rcases hready with hgone | hchanged
    · rw [Leaf.gone_of_removed hgone]
      omega
    · have hne : n ≠ l.changes := by
        rintro rfl
        exact hchanged htold
      omega
  · exact interrupted_paid harmed

theorem pollEvents_awaits (deadline : Option (Option Instant)) (start : Leaf) :
    Awaits deadline (pollAccount start) pollEvents := by
  intro m left
  refine Prog.Guarantees.query_recorded
    (fun polled => RoundSays deadline (pollAccount start) (m + 1)
      (polledVerdict polled)) (waiting_stable left) ?_ ?_
  · rintro l past polled l' hserves ⟨⟨harmed, hoccupied⟩, hsampled⟩
    rcases poll_cases hserves with ⟨time, rfl, htime, hwaited, rfl⟩ |
      ⟨events, rfl, hwakes⟩ | ⟨errno, rfl, hfail, rfl⟩
    · obtain ⟨left', rfl, rfl⟩ := Option.map_eq_some_iff.mp htime
      rw [timespecOf_nanos hsampled.fits] at hwaited
      exact ⟨hsampled.elapsed hwaited, hoccupied.next l.back⟩
    · exact hwakes.polled harmed
    · rw [polledVerdict_error]
      by_cases hinterrupted : errno = eintr
      · rw [if_pos hinterrupted]
        exact interrupted_paid harmed
      · rw [if_neg hinterrupted]
        exact ⟨.os errno, rfl, hfail⟩
  · exact fun polled => .pure (roundSays_stable _) fun _ => id

/-! ## Awaiting readiness -/

/-- A round of the reactor's watch is paid for by a change after the last one
that it was answered for, but for the readiness at the registration. -/
def Cleared (start : Leaf) (m : Nat) (credit : Nat) (l : Leaf) : Prop :=
  match l.cleared with
  | none => m + start.interrupts ≤ l.interrupts + credit ∧
      start.changes ≤ l.changes
  | some n =>
      m + start.changes + start.interrupts ≤ n + l.interrupts + 1 + credit

theorem Cleared.of_drifts {start l l' : Leaf} {m credit credit' : Nat}
    (hdrifts : Drifts l l') (hcredit : credit ≤ credit')
    (h : Cleared start m credit l) : Cleared start m credit' l' := by
  have hchanges := hdrifts.changes
  unfold Cleared at h ⊢
  rw [hdrifts.cleared, hdrifts.interrupts]
  cases hcleared : l.cleared with
  | none =>
      rw [hcleared] at h
      exact ⟨by omega, by omega⟩
  | some n =>
      rw [hcleared] at h
      exact Nat.le_trans h (Nat.add_le_add_left hcredit _)

/-- The account of the reactor's watch; reading costs nothing. -/
def readyAccount (start : Leaf) : Account where
  head m l := Cleared start m l.gone l
  armed m l := Cleared start m 0 l
  head_drifts := fun _ _ _ hdrifts h => h.of_drifts hdrifts hdrifts.gone
  armed_drifts := fun _ _ _ hdrifts h => h.of_drifts hdrifts (Nat.le_refl 0)
  head_back := fun _ _ h => h
  armed_back := fun _ _ h => h
  tell := by
    intro m l hpresent hpaid
    rw [Leaf.gone_of_present hpresent] at hpaid
    exact hpaid

/-- Between the readiness and its clearing. -/
def Woken (start : Leaf) (m : Nat) (l : Leaf) : Prop :=
  m + start.changes + start.interrupts ≤ l.changes + l.interrupts + l.gone

theorem stable_woken (start : Leaf) (m : Nat) :
    kernfs.Stable (Woken start m) := by
  apply stable_of_drifts
  intro l l' h hpaid
  have hchanges := h.changes
  have hinterrupts := h.interrupts
  have hgone := h.gone
  unfold Woken at hpaid ⊢
  omega

/-- A wakeup is paid for. -/
theorem Leaf.Wakes.woken {start l l' : Leaf} {m : Nat}
    (h : l.Wakes l.cleared l') (hpaid : Cleared start m 0 l) :
    Woken start m l' := by
  unfold Cleared at hpaid
  cases hcleared : l.cleared with
  | none =>
      rw [hcleared] at hpaid
      rcases h with ⟨_, rfl⟩ | rfl
      · show m + start.changes + start.interrupts ≤
          l.changes + l.interrupts + l.gone
        omega
      · show m + start.changes + start.interrupts ≤
          l.changes + (l.interrupts + 1) + l.gone
        omega
  | some n =>
      rw [hcleared] at hpaid
      have hle := l.cleared_le n hcleared
      rcases h with ⟨hready, rfl⟩ | rfl
      · show m + start.changes + start.interrupts ≤
          l.changes + l.interrupts + l.gone
        rcases hready with hgone | hchanged
        · rw [Leaf.gone_of_removed hgone]
          omega
        · have hne : n ≠ l.changes := by
            rintro rfl
            exact hchanged hcleared
          omega
      · show m + start.changes + start.interrupts ≤
          l.changes + (l.interrupts + 1) + l.gone
        omega

/-- What a readiness is known to be before it is cleared. -/
def ReadySays (start : Leaf) (m : Nat) : Except IoError Unit → Recorded → Prop
  | .ok (), s => Woken start m s.1
  | .error e, _ => removedAfterDrain e = false

theorem readySays_stable {start : Leaf} {m : Nat}
    (ready : Except IoError Unit) :
    kernfs.recording.Stable (ReadySays start m ready) := by
  cases ready with
  | ok u => exact (stable_woken start m).recording
  | error e => exact stable_const (removedAfterDrain e = false)

theorem afterReady_guarantees (deadline : Option (Option Instant))
    (start : Leaf) (m : Nat) (ready : Except IoError Unit) :
    (afterReady ready).Guarantees kernfs.recording (ReadySays start m ready)
      (RoundSays deadline (readyAccount start) (m + 1)) := by
  cases ready with
  | error e => exact .pure (readySays_stable _) fun _ h => ⟨e, rfl, h⟩
  | ok u =>
      refine Prog.Guarantees.query_recorded
        (fun _ => RoundSays deadline (readyAccount start) (m + 1) none)
        (stable_woken start m).recording ?_ ?_
      · rintro l past _ l' rfl hpaid
        have hwoken : m + start.changes + start.interrupts ≤
            l.changes + l.interrupts + l.gone := hpaid
        show m + 1 + start.changes + start.interrupts ≤
          l.changes + l.interrupts + 1 + l.gone
        omega
      · exact fun _ => .pure (roundSays_stable none) fun _ => id

/-- What a readiness under a timeout is known to be. -/
def ReadyWithinSays (deadline : Option (Option Instant)) (start : Leaf)
    (m : Nat) : Option (Except IoError Unit) → Recorded → Prop
  | none, s => Elapsed deadline s.1.time ∧ Occupied s
  | some ready, s => ReadySays start m ready s

theorem awaitReady_awaits (deadline : Option (Option Instant)) (start : Leaf) :
    Awaits deadline (readyAccount start) awaitReady := by
  intro m left
  cases left with
  | none =>
      refine Prog.Guarantees.query_recorded (ReadySays start m)
        (waiting_stable none) ?_ (afterReady_guarantees deadline start m)
      rintro l past ready l' hserves ⟨⟨hpaid, _⟩, _⟩
      cases ready with
      | ok u => exact Leaf.Wakes.woken hserves hpaid
      | error e => exact hserves.1
  | some time =>
      refine Prog.Guarantees.query_recorded
        (ReadyWithinSays deadline start m) (waiting_stable (some time)) ?_ ?_
      · rintro l past ready l' hserves ⟨⟨hpaid, hoccupied⟩, hsampled⟩
        match ready with
        | none =>
            obtain ⟨hwaited, rfl⟩ := hserves
            exact ⟨hsampled.elapsed hwaited, hoccupied.next l.back⟩
        | some (.ok ()) => exact Leaf.Wakes.woken hserves hpaid
        | some (.error e) => exact hserves.1
      · intro ready
        cases ready with
        | none =>
            exact .pure (stable_elapsed.recording.and stable_occupied)
              fun _ => id
        | some ready => exact afterReady_guarantees deadline start m ready

/-! ## The watch -/

/-- What the watch keeps. -/
structure Keeps (deadline : Option (Option Instant)) (fuel : Nat)
    (start : Leaf) (path : List Leaf) (r : Outcome) (stop : Leaf) : Prop where
  /-- At some instant nobody lived in the leaf. -/
  exited : r = some (.ok .allMembersExited) → ∃ l ∈ path, l.members = []
  /-- The deadline has passed, and at some instant somebody lived in it. -/
  remain : r = some (.ok .membersRemain) → Elapsed deadline stop.time ∧
    ∃ l ∈ path, l.members ≠ []
  markers : r ≠ some (.ok .allMarkersClosed)
  /-- The removal of the leaf is not an error. -/
  fails : ∀ e, r = some (.error e) → Failure e
  /-- Every round but two is paid for by a change of `populated` or by a wakeup
  without one. -/
  spins : r = none → fuel + start.changes + start.interrupts ≤
    stop.changes + stop.interrupts + 2

/-- Where the loop starts with nothing owed, it keeps what is promised. -/
theorem RoundSays.keeps {deadline : Option (Option Instant)} {acc : Account}
    {fuel : Nat} {start : Leaf} {r : Outcome}
    {s : Recorded} (h : RoundSays deadline acc fuel r s)
    (hpaid : acc.head fuel s.1 → fuel + start.changes + start.interrupts ≤
      s.1.changes + s.1.interrupts + 2) :
    Keeps deadline fuel start s.2 r s.1 := by
  cases r with
  | none => exact ⟨nofun, nofun, nofun, nofun, fun _ => hpaid h⟩
  | some verdict =>
      refine ⟨?_, ?_, ?_, ?_, nofun⟩
      · rintro hr
        obtain rfl := Option.some.inj hr
        exact h
      · rintro hr
        obtain rfl := Option.some.inj hr
        exact h
      · rintro hr
        obtain rfl := Option.some.inj hr
        exact h
      · rintro e hr
        obtain rfl := Option.some.inj hr
        exact h

theorem pollAccount_settles {fuel : Nat} {start l : Leaf}
    (h : (pollAccount start).head fuel l) :
    fuel + start.changes + start.interrupts ≤
      l.changes + l.interrupts + 2 := by
  have hpaid : fuel + start.changes + start.interrupts ≤
    l.changes + l.interrupts + l.gone := h
  have hgone := l.gone_le
  omega

theorem readyAccount_settles {fuel : Nat} {start l : Leaf}
    (h : (readyAccount start).head fuel l) :
    fuel + start.changes + start.interrupts ≤
      l.changes + l.interrupts + 2 := by
  have hpaid : Cleared start fuel l.gone l := h
  have hgone := l.gone_le
  unfold Cleared at hpaid
  cases hcleared : l.cleared with
  | none =>
      rw [hcleared] at hpaid
      omega
  | some n =>
      rw [hcleared] at hpaid
      have hle := l.cleared_le n hcleared
      omega

/-- No change and no wakeup is undone. -/
def Since (start l : Leaf) : Prop :=
  start.changes ≤ l.changes ∧ start.interrupts ≤ l.interrupts

theorem stable_since (start : Leaf) : kernfs.Stable (Since start) := by
  apply stable_of_drifts
  rintro l l' h ⟨hchanges, hinterrupts⟩
  exact ⟨Nat.le_trans hchanges h.changes, h.interrupts ▸ hinterrupts⟩

/-- What an answer to `open` is known to be. -/
def OpenSays (deadline : Option (Option Instant)) (start : Leaf) :
    Except IoError Unit → Recorded → Prop
  | .ok (), s => Since start s.1
  | .error e, s => VerdictSays deadline (openFailed e) s

section

variable {deadline : Option (Option Instant)} {start : Leaf}

theorem openEvents_says {l l' : Leaf} {opened : Except IoError Unit}
    (h : l.serves .openEvents opened l') (hsince : Since start l)
    (past : List Leaf) : OpenSays deadline start opened (l', l' :: past) := by
  cases opened with
  | ok u =>
      obtain ⟨_, rfl⟩ := h
      exact hsince
  | error e =>
      obtain ⟨hgone, rfl⟩ := h
      show VerdictSays deadline (openFailed e) _
      unfold openFailed
      split
      · next hremoved => exact emptied_of_removed (hgone hremoved) past
      · next hfail => exact ⟨e, rfl, Bool.eq_false_iff.mpr hfail⟩

/-- What a verdict before the loop says. -/
theorem VerdictSays.keeps {verdict : Except Error TreeDrain} {s : Recorded}
    (h : VerdictSays deadline verdict s) (fuel : Nat) :
    Keeps deadline fuel start s.2 (some verdict) s.1 := by
  have hround : RoundSays deadline (pollAccount start) fuel (some verdict) s :=
    h
  exact hround.keeps pollAccount_settles

theorem waitDrained_guarantees (fuel : Nat) :
    (waitDrained deadline fuel).Guarantees kernfs.recording
      (fun s => Since start s.1)
      fun r s => Keeps deadline fuel start s.2 r s.1 := by
  refine Prog.Guarantees.query_recorded (OpenSays deadline start)
    (stable_since start).recording
    (fun l past opened l' hserves hsince =>
      openEvents_says hserves hsince past) ?_
  intro opened
  cases opened with
  | error e =>
      exact .pure (verdictSays_stable _) fun s hs => hs.keeps fuel
  | ok u =>
      have hloop := drainLoop_guarantees
        (pollEvents_awaits deadline start) fuel 0
      rw [Nat.zero_add] at hloop
      refine hloop.conseq ?_ fun r s hround => hround.keeps pollAccount_settles
      rintro s ⟨hchanges, hinterrupts⟩
      show 0 + start.changes + start.interrupts ≤
        s.1.changes + s.1.interrupts + s.1.gone
      omega

/-- What an answer to the registration is known to be. -/
def RegisterSays (start : Leaf) : Except IoError Unit → Recorded → Prop
  | .ok (), s => Cleared start 0 s.1.gone s.1
  | .error e, _ => removedAfterDrain e = false

theorem registerSays_stable (registered : Except IoError Unit) :
    kernfs.recording.Stable (RegisterSays start registered) := by
  cases registered with
  | ok u => exact (stable_head (readyAccount start) 0).recording
  | error e => exact stable_const (removedAfterDrain e = false)

theorem register_says {l l' : Leaf} {registered : Except IoError Unit}
    (h : l.serves .register registered l') (hsince : Since start l)
    (past : List Leaf) : RegisterSays start registered (l', l' :: past) := by
  cases registered with
  | ok u =>
      obtain rfl : l' = l.registered.back := h
      obtain ⟨hchanges, hinterrupts⟩ := hsince
      show 0 + start.interrupts ≤ l.interrupts + _ ∧ start.changes ≤ l.changes
      omega
  | error e => exact h.1

theorem cgroupWaitTreeDrained_guarantees (fuel : Nat) :
    (cgroupWaitTreeDrained deadline fuel).Guarantees kernfs.recording
      (fun s => Since start s.1)
      fun r s => Keeps deadline fuel start s.2 r s.1 := by
  refine Prog.Guarantees.query_recorded (OpenSays deadline start)
    (stable_since start).recording
    (fun l past opened l' hserves hsince =>
      openEvents_says hserves hsince past) ?_
  intro opened
  cases opened with
  | error e =>
      exact .pure (verdictSays_stable _) fun s hs => hs.keeps fuel
  | ok u =>
      refine Prog.Guarantees.query_recorded (RegisterSays start)
        (stable_since start).recording
        (fun l past registered l' hserves hsince =>
          register_says hserves hsince past) ?_
      intro registered
      cases registered with
      | error e =>
          refine .pure (registerSays_stable _) fun s hs => ?_
          have hfails : VerdictSays deadline (.error (.io e)) s := ⟨e, rfl, hs⟩
          exact hfails.keeps fuel
      | ok u =>
          have hloop := drainLoop_guarantees
            (awaitReady_awaits deadline start) fuel 0
          rw [Nat.zero_add] at hloop
          exact hloop.conseq (fun s => id)
            fun r s hround => hround.keeps readyAccount_settles

end

/-- For every deadline and every run of either watch beside a kernel that does
what it likes in between. -/
theorem wait_keeps (twin : Twin) (deadline : Option (Option Instant))
    (fuel : Nat) (start stop : Leaf) (path : List Leaf) (r : Outcome)
    (h : (twin.wait deadline fuel).RunsOn kernfs.recording (start, [start]) r
      (stop, path)) : Keeps deadline fuel start path r stop := by
  have hsince : Since start start := ⟨Nat.le_refl _, Nat.le_refl _⟩
  cases twin with
  | sync => exact waitDrained_guarantees fuel _ r _ h hsince
  | async => exact cgroupWaitTreeDrained_guarantees fuel _ r _ h hsince

/-- A leaf with one process in it. -/
def occupiedLeaf : Leaf where
  members := [7]
  removed := false
  changes := 0
  told := none
  cleared := none
  interrupts := 0
  time := .first
  removed_empty := by decide
  told_le := fun _ h => nomatch h
  cleared_le := fun _ h => nomatch h

/-- A text without other keys. -/
theorem renders_alone (populated : Bool) :
    Renders populated ("populated ".toList ++
      [if populated then '1' else '0'] ++ ['\n']) :=
  ⟨[], [], nofun, by rw [List.nil_append, List.flatMap_singleton]⟩

/-- One call of a recorded run. -/
theorem call_runs {q : DrainCall} {f : q.Reply → Watching Outcome}
    (a : q.Reply) {l l' : Leaf} {past : List Leaf} {r : Outcome} {s : Recorded}
    (hserves : l.serves q a l')
    (hrest : (f a).RunsOn kernfs.recording (l', l' :: past) r s) :
    (query q >>= f).RunsOn kernfs.recording (l, past) r s :=
  .ask a ⟨hserves, rfl⟩ hrest

theorem move_runs {p : Watching Outcome} {l l' : Leaf} {past : List Leaf}
    {r : Outcome} {s : Recorded} (hmove : Leaf.Moves l l')
    (hrest : p.RunsOn kernfs.recording (l', l' :: past) r s) :
    p.RunsOn kernfs.recording (l, past) r s :=
  .move ⟨hmove, rfl⟩ hrest

/-- The process exits between the read and the poll. -/
theorem exit_runs : ∃ path stop, (Twin.sync.wait
    (some (some ⟨5, by decide⟩)) 2).RunsOn kernfs.recording
      (occupiedLeaf, [occupiedLeaf]) (some (.ok .allMembersExited))
      (stop, path) := by
  apply Exists.intro
  apply Exists.intro
  refine call_runs (q := .openEvents) (.ok ()) ⟨rfl, rfl⟩ ?_
  refine call_runs (q := .seekStart) (.ok ()) rfl ?_
  refine call_runs (q := .readToString) (.ok _)
    ⟨rfl, renders_alone true, rfl⟩ ?_
  refine call_runs (q := .now) ⟨0, by decide⟩ ⟨rfl, rfl⟩ ?_
  refine move_runs (.become _ [] fun _ => rfl) ?_
  refine call_runs (q := .poll _) (.ok 1) (.inl ⟨.inr (by decide), rfl⟩) ?_
  refine call_runs (q := .seekStart) (.ok ()) rfl ?_
  refine call_runs (q := .readToString) (.ok _)
    ⟨rfl, renders_alone false, rfl⟩ ?_
  exact .done _ _

theorem wait_keeps_exit : ∃ path stop, Keeps (some (some ⟨5, by decide⟩)) 2
    occupiedLeaf path (some (.ok .allMembersExited)) stop := by
  obtain ⟨path, stop, h⟩ := exit_runs
  exact ⟨path, stop, wait_keeps .sync _ _ _ _ _ _ h⟩

end Cosca.Ports.CgroupDrain
