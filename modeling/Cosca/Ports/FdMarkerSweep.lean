import Cosca.Ports.FdMarkerPass

/-!
# What a finished fd-marker sweep means

The passes of `Marker::hard_kill` put together.  A pass that makes progress
adds an identity to the ones attempted, none is attempted twice, and the last
pass adds none: that bounds the number of passes and says what the last one
saw.

## Main results

* `hardKill_complete`: what `Ok` from `hard_kill` implies, and what holds on
  every run of it.
-/

namespace Cosca.Ports.FdMarkerSweep

open Cosca.Ports.Errors
open Cosca.Ports.Identity
open Cosca.Ports.TreeWalk
open Cosca.Ports.FdMarker
open Cosca.Ports.FdMarkerPass
open Cosca.Verified.Interact

/-! ## Counting passes -/

def isSnapshot : SweepEvent → Bool
  | ⟨.snapshot, _⟩ => true
  | _ => false

/-- The number of passes: each takes one snapshot. -/
def passes (events : List SweepEvent) : Nat :=
  events.countP isSnapshot

section

variable {m : Marker} {sup : Supervisor} {signal : Signal}

theorem isSnapshot_of_inPass {e : SweepEvent}
    (h : InPass m signal e.question) : isSnapshot e = false := by
  obtain ⟨q, a⟩ := e
  cases q with
  | snapshot => exact absurd h id
  | _ => rfl

/-- A pass counts once. -/
theorem passes_append {t last : List SweepEvent}
    (answer : Answer .snapshot)
    (hlast : ∀ e ∈ last, InPass m signal e.question) :
    passes (t ++ ⟨.snapshot, answer⟩ :: last) = passes t + 1 := by
  have hnone : last.countP isSnapshot = 0 := by
    rw [List.countP_eq_zero]
    intro e he
    rw [isSnapshot_of_inPass (hlast e he)]
    simp
  unfold passes
  rw [List.countP_append, List.countP_cons, hnone]
  simp [isSnapshot]

/-! ## The loop -/

/-- An event of `hard_kill`. -/
def OfHardKill (m : Marker) (e : SweepEvent) : Prop :=
  e.question = .readEnd ∨ e.question = .snapshot ∨
    InPass m .sigkill e.question

/-- Before pass `n + 1` the sweep has attempted at least `n` identities. -/
structure BetweenPasses (m : Marker) (sup : Supervisor) (n : Nat)
    (s : Sweep) (t : List SweepEvent) : Prop where
  inv : SweepInv m sup [] s t
  own : ∀ e ∈ t, OfHardKill m e
  count : passes t = n
  progress : n ≤ s.seen.length

/-- The last pass turned up nothing new. -/
structure LastPass (m : Marker) (before last : List SweepEvent) : Prop where
  within : ∀ e ∈ last, InPass m .sigkill e.question
  quiet : attempts last = []
  handled : ∀ id ∈ found last, id ∈ attempts before

/-- The sweep stops with pass `n`. -/
structure AfterPasses (m : Marker) (sup : Supervisor) (n : Nat)
    (s : Sweep) (t : List SweepEvent) : Prop where
  inv : SweepInv m sup [] s t
  own : ∀ e ∈ t, OfHardKill m e
  count : passes t = n
  progress : n ≤ s.seen.length + 1
  denied : s.incomplete = false → m.rootDenied = false
  rooted : ∀ root, m.root = some root → root ∈ s.seen
  last : s.incomplete = false → ∃ before answer last,
    t = before ++ ⟨.snapshot, answer⟩ :: last ∧
      LastPass m before last

/-- One pass of the loop. -/
theorem sweepPass_between {n : Nat} {s : Sweep} {t : List SweepEvent}
    (h : BetweenPasses m sup n s t) (firstPass : Bool) :
    (m.sweepPass sup .sigkill firstPass s).Ensures t fun r t' =>
      (r.1 = true → BetweenPasses m sup (n + 1) r.2 t') ∧
      (r.1 = false → AfterPasses m sup (n + 1) r.2 t') := by
  have hpass := sweepPass_spec h.inv .sigkill firstPass
  apply (hpass.and (sweepPass_events firstPass s t)).mono
  rintro ⟨again, s'⟩ t' ⟨hpassed, answer, last, ht', hlast⟩
  obtain ⟨new, hseen, hgrown, hstalled⟩ := hpassed.grown
  have hlength : s'.seen.length = s.seen.length + new.length := by
    rw [show s'.seen = s.seen ++ new from hseen, List.length_append]
  have hprogress := h.progress
  have hcount : passes t' = n + 1 := by
    rw [ht', passes_append answer hlast, h.count]
  have hown : ∀ e ∈ t', OfHardKill m e := by
    intro e he
    rw [ht'] at he
    rcases List.mem_append.mp he with he | he
    · exact h.own e he
    · rcases List.mem_cons.mp he with rfl | he
      · exact .inr (.inl rfl)
      · exact .inr (.inr (hlast e he))
  constructor
  · intro hagain
    have hnew : 0 < new.length := List.length_pos_iff.mpr (hgrown hagain)
    exact
      { inv := hpassed.inv
        own := hown
        count := hcount
        progress := by
          show n + 1 ≤ s'.seen.length
          omega }
  · intro hagain
    refine
      { inv := hpassed.inv
        own := hown
        count := hcount
        progress := by
          show n + 1 ≤ s'.seen.length + 1
          omega
        denied := hpassed.denied
        rooted := hpassed.rooted
        last := ?_ }
    intro hincomplete
    -- the set is as it was, so the pass attempted nothing
    have hsame : s'.seen = s.seen := by
      rw [show s'.seen = s.seen ++ new from hseen,
        hstalled hagain hincomplete, List.append_nil]
    refine ⟨t, answer, last, ht', hlast, ?_, ?_⟩
    · have hafter := hpassed.inv.seen
      rw [hsame, h.inv.seen, ht'] at hafter
      simp only [List.append_nil, attempts_append] at hafter
      have hnone := List.self_eq_append_right.mp hafter
      simpa [attempts, attemptBy] using hnone
    · intro id hid
      have hin : id ∈ s'.seen := by
        apply hpassed.inv.found_seen
        rw [ht', found_append]
        apply List.mem_append_right
        simpa [found, foundBy] using hid
      rw [hsame, h.inv.seen, List.append_nil] at hin
      exact hin

/-- One round of the loop. -/
theorem sweepRound_spec (n : Nat) (v : Bool × Sweep) {t : List SweepEvent}
    (hbetween : BetweenPasses m sup n v.2 t) :
    Prog.Ensures (do
      let (progressed, s) ← m.sweepPass sup .sigkill v.1 v.2
      return (progressed, (false, s))) t fun (again, v') t' =>
        if again then BetweenPasses m sup (n + 1) v'.2 t'
        else AfterPasses m sup (n + 1) v'.2 t' := by
  apply Prog.Ensures.bind (sweepPass_between hbetween v.1)
  rintro ⟨again, s'⟩ t' ⟨hagain, hstop⟩
  cases again with
  | true => exact hagain rfl
  | false => exact hstop rfl

/-- The loop: it stops after as many passes as its progress allows. -/
theorem sweepLoop_spec (fuel : Nat) {t : List SweepEvent}
    (h : BetweenPasses m sup 0 Sweep.start t) :
    (m.sweepLoop sup fuel).Ensures t fun r t' =>
      (r = none → ∃ s, BetweenPasses m sup fuel s t') ∧
      ∀ firstPass s, r = some (firstPass, s) →
        ∃ n, AfterPasses m sup n s t' := by
  have hloop := Prog.Ensures.loop
    (fun n (v : Bool × Sweep) => BetweenPasses m sup n v.2)
    (fun n v => AfterPasses m sup n v.2)
    (fun n v t hbetween => sweepRound_spec n v hbetween) fuel
    (show BetweenPasses m sup 0 (true, Sweep.start).2 t from h)
  apply hloop.mono
  intro r t' hr
  cases r with
  | none =>
      obtain ⟨v, hv⟩ := hr
      rw [Nat.zero_add] at hv
      exact ⟨fun _ => ⟨v.2, hv⟩, by simp⟩
  | some v =>
      obtain ⟨n, _, _, hn⟩ := hr
      refine ⟨by simp, ?_⟩
      intro firstPass s heq
      cases heq
      exact ⟨n, hn⟩

/-! ## `hard_kill` -/

/-- The identity was dealt with: it was terminated, it had gone already, or it
no longer held the marker. -/
def Settled (m : Marker) (events : List SweepEvent) (id : ProcessId) : Prop :=
  (∃ channel, ⟨.killByIdentity channel id .sigkill, .terminated⟩ ∈ events) ∨
  (∃ channel, ⟨.killByIdentity channel id .sigkill, .alreadyGone⟩ ∈ events) ∨
  ⟨.holdsMarker id m.handle, .notHeld⟩ ∈ events

/-- A kill that left no gap settled its identity. -/
theorem settled_of_kill {events : List SweepEvent} {channel : Channel}
    {id : ProcessId} {sent : Signal} {outcome : KillOutcome}
    (he : ⟨.killByIdentity channel id sent, outcome⟩ ∈ events)
    (hown : ∀ e ∈ events, OfHardKill m e)
    (hclean : ∀ e ∈ events, Clean e) : Settled m events id := by
  have hsent : sent = .sigkill := by
    rcases hown _ he with hq | hq | hq
    · cases hq
    · cases hq
    · exact hq
  subst hsent
  cases outcome with
  | terminated => exact .inl ⟨channel, he⟩
  | alreadyGone => exact .inr (.inl ⟨channel, he⟩)
  | notAttempted => exact absurd rfl (hclean _ he)

/-- An attempt that left no gap settled its identity. -/
theorem settled_of_attempt {todo : List ProcessId} {s : Sweep}
    {events : List SweepEvent} {id : ProcessId}
    (h : SweepInv m sup todo s events)
    (hown : ∀ e ∈ events, OfHardKill m e) (hincomplete : s.incomplete = false)
    (hid : id ∈ attempts events) : Settled m events id := by
  have hclean := h.clean hincomplete
  obtain ⟨⟨q, a⟩, he, hattempt⟩ := List.mem_flatMap.mp hid
  cases q with
  | killByIdentity channel target sent =>
      cases channel with
      | walk =>
          rw [List.mem_singleton.mp hattempt]
          exact settled_of_kill he hown hclean
      | holder => cases hattempt
  | holdsMarker target handle =>
      rw [List.mem_singleton.mp hattempt]
      have hhandle : handle = m.handle := by
        rcases hown _ he with hq | hq | hq
        · cases hq
        · cases hq
        · exact hq
      subst hhandle
      cases a with
      | notHeld => exact .inr (.inr he)
      | denied => exact absurd rfl (hclean _ he)
      | held =>
          obtain ⟨⟨q, a⟩, hkill, htarget⟩ :=
            List.mem_flatMap.mp (h.held target m.handle he)
          cases q with
          | killByIdentity channel target' sent =>
              rw [← List.mem_singleton.mp htarget] at hkill
              exact settled_of_kill hkill hown hclean
          | _ => cases htarget
  | _ => cases hattempt

/-- `finish_sweep` returns `Ok` exactly where nothing was left open. -/
theorem finishSweep_ok_iff (handle : UInt64) (groupResult : Except Error Unit)
    (incomplete : Bool) :
    finishSweep sup handle groupResult incomplete = .ok () ↔
      groupResult = .ok () ∧ incomplete = false := by
  cases incomplete with
  | false => simp [finishSweep]
  | true =>
      unfold finishSweep
      cases groupResult <;> simp

/-- What holds of the events of `hard_kill`, whatever it returns. -/
structure Swept (m : Marker) (sup : Supervisor) (fuel : Nat) (s : Sweep)
    (result : Option (Except Error Unit)) (t : List SweepEvent) : Prop where
  inv : SweepInv m sup [] s t
  own : ∀ e ∈ t, OfHardKill m e
  bounded : passes t ≤ (attempts t).length + 1
  exhausted : result = none → fuel ≤ (attempts t).length
  ended : result = some (.ok ()) → s.incomplete = false ∧
    s.groupResult = .ok () ∧ ∃ n, AfterPasses m sup n s t

/-- The check at sweep entry leaves everything to the first pass. -/
theorem checkReadEnd_spec :
    m.checkReadEndStillValid.Ensures [] fun _ t =>
      BetweenPasses m sup 0 Sweep.start t := by
  intro info
  have hbetween : BetweenPasses m sup 0 Sweep.start [⟨.readEnd, info⟩] :=
    { inv := SweepInv.start m sup info
      own := by simp [OfHardKill]
      count := rfl
      progress := Nat.zero_le _ }
  show Prog.Ensures (if _ then _ else _) [⟨Question.readEnd, info⟩] _
  split
  · exact hbetween
  · exact hbetween

theorem hardKill_spec (fuel : Nat) :
    (m.hardKill sup fuel).Ensures [] fun result t =>
      ∃ s, Swept m sup fuel s result t := by
  unfold Marker.hardKill
  apply Prog.Ensures.bind (checkReadEnd_spec (m := m))
  intro checked t hbetween
  cases checked with
  | ok _ =>
      apply Prog.Ensures.bind (sweepLoop_spec fuel hbetween)
      intro r t ⟨hnone, hsome⟩
      cases r with
      | none =>
          obtain ⟨s, hs⟩ := hnone rfl
          have hseen : s.seen = attempts t := by
            rw [hs.inv.seen, List.append_nil]
          have hprogress := hs.progress
          rw [hseen] at hprogress
          exact ⟨s,
            { inv := hs.inv
              own := hs.own
              bounded := by rw [hs.count]; omega
              exhausted := fun _ => hprogress
              ended := by simp }⟩
      | some v =>
          obtain ⟨firstPass, s⟩ := v
          obtain ⟨n, hn⟩ := hsome firstPass s rfl
          have hseen : s.seen = attempts t := by
            rw [hn.inv.seen, List.append_nil]
          have hprogress := hn.progress
          rw [hseen] at hprogress
          refine ⟨s,
            { inv := hn.inv
              own := hn.own
              bounded := by rw [hn.count]; exact hprogress
              exhausted := by simp
              ended := ?_ }⟩
          intro hok
          obtain ⟨hgroup, hincomplete⟩ :=
            (finishSweep_ok_iff m.handle _ _).mp (Option.some.inj hok)
          exact ⟨hincomplete, hgroup, n, hn⟩
  | error e =>
      exact ⟨Sweep.start,
        { inv := hbetween.inv
          own := hbetween.own
          bounded := by
            rw [hbetween.count]
            exact Nat.zero_le _
          exhausted := by simp
          ended := by simp }⟩

/-- Whoever may be signalled is neither 0 nor 1 nor the supervisor. -/
theorem ne_of_isSignalable {pid : RawPid} (h : isSignalable sup pid = true) :
    pid ≠ 0 ∧ pid ≠ 1 ∧ pid ≠ sup.pid := by
  simp only [isSignalable, Bool.and_eq_true, decide_eq_true_eq, bne_iff_ne,
    ne_eq] at h
  obtain ⟨hpid, hsup⟩ := h
  refine ⟨?_, ?_, hsup⟩
  · rintro rfl
    exact absurd hpid (by decide)
  · rintro rfl
    exact absurd hpid (by decide)

end

/-- What `Ok` from `hard_kill` means, and what holds on every run: no identity
is attempted twice, the holder channel spares pid 0, pid 1 and the supervisor,
and with `N` identities around the loop ends within `N + 1` passes. -/
theorem hardKill_complete (m : Marker) (sup : Supervisor) (fuel : Nat)
    (events : List SweepEvent) (result : Option (Except Error Unit))
    (hruns : (m.hardKill sup fuel).Runs events result) :
    (result = some (.ok ()) →
      m.rootDenied = false ∧
      (∀ pids parents, ⟨.snapshot, (pids, parents)⟩ ∈ events → pids ≠ []) ∧
      (∀ pgid sent r, ⟨.signalGroup pgid sent, r⟩ ∈ events → r = .ok ()) ∧
      (∀ id ∈ appeared m events, Settled m events id) ∧
      (∀ e ∈ events, Clean e) ∧
      ∃ before answer last, events = before ++ ⟨.snapshot, answer⟩ :: last ∧
        LastPass m before last) ∧
    (attempts events).Nodup ∧ (kills events).Nodup ∧
    (∀ id sent outcome, ⟨.killByIdentity .holder id sent, outcome⟩ ∈ events →
      id.pid ≠ 0 ∧ id.pid ≠ 1 ∧ id.pid ≠ sup.pid) ∧
    ∀ ids : List ProcessId, (∀ id ∈ appeared m events, id ∈ ids) →
      passes events ≤ ids.length + 1 ∧ (ids.length < fuel → result ≠ none) := by
  obtain ⟨s, hswept⟩ := (hardKill_spec (m := m) fuel).of_runs hruns
  rw [List.nil_append] at hswept
  have hinv := hswept.inv
  have hseen : s.seen = attempts events := by
    rw [hinv.seen, List.append_nil]
  have hnodup : (attempts events).Nodup := hseen ▸ hinv.nodup
  refine ⟨?_, hnodup, hinv.kills_nodup, ?_, ?_⟩
  · intro hok
    obtain ⟨hincomplete, hgroup, n, hafter⟩ := hswept.ended hok
    have hclean := hinv.clean hincomplete
    refine ⟨hafter.denied hincomplete, ?_, ?_, ?_, hclean,
      hafter.last hincomplete⟩
    · intro pids parents he
      exact hclean _ he
    · intro pgid sent r he
      exact hinv.group hgroup _ he
    · intro id hid
      apply settled_of_attempt hinv hswept.own hincomplete
      rw [← hseen]
      rcases List.mem_append.mp hid with hroot | hfound
      · exact hafter.rooted id (Option.mem_toList.mp hroot)
      · exact hinv.found_seen id hfound
  · intro id sent outcome he
    exact ne_of_isSignalable (hinv.aimed _ he)
  · intro ids hids
    have hlength : (attempts events).length ≤ ids.length := by
      apply hnodup.length_le_of_subset
      intro id hid
      exact hids id (hinv.known id (hseen ▸ hid))
    have hbounded := hswept.bounded
    refine ⟨by omega, ?_⟩
    intro hfuel hnone
    have hexhausted := hswept.exhausted hnone
    omega

def sampleMarker : Marker where
  handle := 7
  readHandle := 8
  root := some ⟨10, 5⟩
  rootDenied := false
  pgid := some 10

def sampleSupervisor : Supervisor where
  pid := 99
  displayIo := fun _ => "refused"

/-- The root and one holder are killed, and a second pass finds neither. -/
def sampleRun : List SweepEvent :=
  [⟨.readEnd, some 8⟩,
    ⟨.snapshot, ([10, 12], [])⟩,
    ⟨.walk ⟨10, 5⟩ [], fun _ => .gone⟩,
    ⟨.holders 7 [10, 12], [12]⟩,
    ⟨.identity 12, .found 6⟩,
    ⟨.getpgid 12, some 10⟩,
    ⟨.signalGroup 10 .sigkill, .ok ()⟩,
    ⟨.killByIdentity .walk ⟨10, 5⟩ .sigkill, .terminated⟩,
    ⟨.holdsMarker ⟨12, 6⟩ 7, .held⟩,
    ⟨.killByIdentity .holder ⟨12, 6⟩ .sigkill, .alreadyGone⟩,
    ⟨.snapshot, ([1], [])⟩,
    ⟨.walk ⟨10, 5⟩ [], fun _ => .gone⟩,
    ⟨.holders 7 [1], []⟩]

theorem sampleRun_runs :
    (sampleMarker.hardKill sampleSupervisor 3).Runs sampleRun
      (some (.ok ())) := by
  unfold sampleRun
  repeat' apply Prog.Runs.ask
  exact Prog.Runs.done _

theorem hardKill_complete_sample :
    sampleMarker.rootDenied = false ∧
      ∀ id ∈ appeared sampleMarker sampleRun,
        Settled sampleMarker sampleRun id := by
  have hcomplete := hardKill_complete sampleMarker sampleSupervisor 3
    sampleRun (some (.ok ())) sampleRun_runs
  obtain ⟨hdenied, _, _, hsettled, _⟩ := hcomplete.1 rfl
  exact ⟨hdenied, hsettled⟩

end Cosca.Ports.FdMarkerSweep
