import Cosca.Ports.Shutdown

/-!
# The two lone shutdowns

`graceful_shutdown` of the sync and of the async child are played against the
same answers of a Unix system.  The sync watch reaps, and the sync escalation
kills the process itself instead of through `kill`.

## Main results

* `gracefulShutdown_agrees_iff`: the answers under which the two do the same.
-/

namespace Cosca.Ports.ShutdownAgreement

open Cosca.Ports.Errors
open Cosca.Ports.Shutdown
open Cosca.Ports.ChildRelease (ExitStatus)
open Cosca.Verified.Interact

section

variable (io : IoError → String) (clock : Clock) (answers : Answers Answer)
  (past : List (Event Answer))

/-! ## One call at a time -/

theorem Child.terminate_play (c : Child) :
    Prog.play answers c.terminate.run past =
      (past ++ [⟨.signal c.graceful c.id,
          answers past (.signal c.graceful c.id)⟩],
        answers past (.signal c.graceful c.id)) := by
  simp only [Child.terminate, Prog.play_run_bind, play_ask, play_propagate]

theorem Child.wait_play (c : Child) :
    Prog.play answers c.wait.run past =
      (past ++ [⟨.reap c.id, answers past (.reap c.id)⟩],
        (answers past (.reap c.id)).mapError .io) := by
  simp only [Child.wait, Prog.play_run_bind, play_ask, play_propagate]

theorem TokioChild.terminate_play (c : TokioChild) :
    Prog.play answers (c.terminate false).run past =
      Prog.play answers c.sync.terminate.run past := by
  rfl

theorem TokioChild.wait_play (c : TokioChild) :
    Prog.play answers c.wait.run past =
      (past ++ [⟨.reap c.id, answers past (.reap c.id)⟩],
        (answers past (.reap c.id)).mapError .io) := by
  simp only [TokioChild.wait, Prog.play_run_bind, play_ask, play_propagate]

theorem TokioChild.kill_play (c : TokioChild) :
    Prog.play answers (c.kill io false).run past =
      (past ++ [⟨.kill c.id, answers past (.kill c.id)⟩],
        (answers past (.kill c.id)).mapError fun e =>
          mapElevatedKillError io false e c.isElevatedWrapper) := by
  cases hkill : answers past (.kill c.id) with
  | ok u =>
      simp only [TokioChild.kill, Prog.play_run_bind, play_ask, hkill]
      rfl
  | error e =>
      simp only [TokioChild.kill, Prog.play_run_bind, play_ask, hkill]
      rfl

/-- The sync watch, when there is a deadline: once it has seen the exit it
reaps. -/
theorem Child.waitTimeout_play (c : Child) {grace : Nat}
    (hfits : (clock.checkedAdd grace).isSome = true) :
    Prog.play answers (c.waitTimeout clock grace).run past =
      match answers past (.watchExit c.id grace) with
      | .ok true =>
          (past ++ [⟨.watchExit c.id grace, .ok true⟩] ++
              [⟨.reap c.id, answers
                (past ++ [⟨.watchExit c.id grace, .ok true⟩]) (.reap c.id)⟩],
            ((answers (past ++ [⟨.watchExit c.id grace, .ok true⟩])
              (.reap c.id)).mapError .io).map some)
      | .ok false => (past ++ [⟨.watchExit c.id grace, .ok false⟩], .ok none)
      | .error e => (past ++ [⟨.watchExit c.id grace, .error e⟩], .error e) := by
  have hadd : clock.checkedAdd grace = some (clock.now + grace) := by
    unfold Clock.checkedAdd at hfits ⊢
    by_cases hle : clock.now + grace ≤ clock.last
    · rw [if_pos hle]
    · simp [hle] at hfits
  have hlong : clock.now + grace - clock.now = grace := by omega
  rw [Child.waitTimeout, hadd]
  show Prog.play answers (c.waitDeadline clock (clock.now + grace)).run past = _
  rw [Child.waitDeadline, hlong]
  cases hwatch : answers past (.watchExit c.id grace) with
  | error e =>
      simp only [Prog.play_run_bind, play_ask, hwatch]
      rfl
  | ok exited =>
      cases exited with
      | false =>
          simp only [Prog.play_run_bind, play_ask, hwatch]
          rfl
      | true =>
          simp only [Prog.play_run_bind, play_ask, play_propagate, hwatch,
            if_pos, Child.wait_play]
          cases answers (past ++ [⟨.watchExit c.id grace, .ok true⟩])
            (.reap c.id) <;> rfl

/-- The sync escalation. -/
theorem Child.escalate_play (c : Child)
    (watch : Except Error (Option ExitStatus)) :
    Prog.play answers (c.escalate watch).run past =
      match answers past (.kill c.id) with
      | .error e => (past ++ [⟨.kill c.id, .error e⟩], .error (.io e))
      | .ok () =>
          (past ++ [⟨.kill c.id, .ok ()⟩, ⟨.reap c.id,
              answers (past ++ [⟨.kill c.id, .ok ()⟩]) (.reap c.id)⟩],
            ((answers (past ++ [⟨.kill c.id, .ok ()⟩])
              (.reap c.id)).mapError .io).bind fun status =>
                watch.map fun _ => status) := by
  simp only [Child.escalate, Prog.play_run_bind, play_ask, play_propagate,
    Child.wait_play]
  cases hkill : answers past (.kill c.id) with
  | error e => rfl
  | ok u =>
      simp only [mapError_ok, List.append_assoc, List.cons_append,
        List.nil_append]
      cases answers (past ++ [⟨.kill c.id, .ok u⟩]) (.reap c.id) with
      | error e => rfl
      | ok status => cases watch <;> rfl

/-- The escalation begins with the kill. -/
theorem Child.escalate_kills (c : Child)
    (watch : Except Error (Option ExitStatus)) :
    ∃ rest, (Prog.play answers (c.escalate watch).run past).1 =
      past ++ ⟨.kill c.id, answers past (.kill c.id)⟩ :: rest := by
  rw [Child.escalate_play]
  cases hkill : answers past (.kill c.id) with
  | error e => exact ⟨[], rfl⟩
  | ok u => exact ⟨[_], rfl⟩

end

/-! ## Whole runs -/

section

variable (io : IoError → String) (clock : Clock) (answers : Answers Answer)
  (c : TokioChild) (grace : Nat)

/-- The events up to the escalation. -/
def watched (watch : Except Error Bool) : List (Event Answer) :=
  [⟨.signal c.graceful c.id, .ok ()⟩, ⟨.watchExit c.id grace, watch⟩]

/-- The signal was sent, and this is what the watch saw. -/
structure Watched (watch : Except Error Bool) : Prop where
  signal : answers [] (.signal c.graceful c.id) = .ok ()
  watch : answers [⟨.signal c.graceful c.id, .ok ()⟩]
    (.watchExit c.id grace) = watch

variable {answers c grace}

theorem sync_refused {e : Error}
    (h : answers [] (.signal c.graceful c.id) = .error e) :
    Prog.play answers (c.sync.gracefulShutdown clock grace).run [] =
      ([⟨.signal c.graceful c.id, .error e⟩], .error e) := by
  simp only [Child.gracefulShutdown, Prog.play_run_bind, Child.terminate_play,
    h, List.nil_append]

theorem tokio_refused {e : Error}
    (h : answers [] (.signal c.graceful c.id) = .error e) :
    Prog.play answers (c.gracefulShutdown io false grace).run [] =
      ([⟨.signal c.graceful c.id, .error e⟩], .error e) := by
  simp only [TokioChild.gracefulShutdown, Prog.play_run_bind,
    TokioChild.terminate_play, Child.terminate_play, h, List.nil_append]

theorem tokio_seen (h : Watched answers c grace (.ok true)) :
    Prog.play answers (c.gracefulShutdown io false grace).run [] =
      (watched c grace (.ok true) ++
          [⟨.reap c.id, answers (watched c grace (.ok true)) (.reap c.id)⟩],
        (answers (watched c grace (.ok true)) (.reap c.id)).mapError .io) := by
  simp only [TokioChild.gracefulShutdown, Prog.play_run_bind,
    TokioChild.terminate_play, Child.terminate_play, h.signal, h.watch,
    List.nil_append, play_ask, TokioChild.wait_play, watched,
    List.cons_append, Bool.not_true, Bool.false_eq_true, if_false]
  cases answers [⟨.signal c.graceful c.id, .ok ()⟩,
    ⟨.watchExit c.id grace, .ok true⟩] (.reap c.id) <;> rfl

theorem tokio_killed {watch : Except Error Bool}
    (h : Watched answers c grace watch) (hwatch : watch ≠ .ok true) :
    Prog.play answers (c.gracefulShutdown io false grace).run [] =
      match answers (watched c grace watch) (.kill c.id) with
      | .error e =>
          (watched c grace watch ++ [⟨.kill c.id, .error e⟩],
            .error (mapElevatedKillError io false e c.isElevatedWrapper))
      | .ok () =>
          (watched c grace watch ++ [⟨.kill c.id, .ok ()⟩,
              ⟨.reap c.id, answers
                (watched c grace watch ++ [⟨.kill c.id, .ok ()⟩])
                (.reap c.id)⟩],
            ((answers (watched c grace watch ++ [⟨.kill c.id, .ok ()⟩])
              (.reap c.id)).mapError .io).bind fun status =>
                watch.map fun _ => status) := by
  simp only [TokioChild.gracefulShutdown, Prog.play_run_bind,
    TokioChild.terminate_play, Child.terminate_play, h.signal, h.watch,
    List.nil_append, play_ask, TokioChild.wait_play, TokioChild.kill_play,
    watched, List.cons_append, Bool.not_false, if_true]
  cases answers [⟨.signal c.graceful c.id, .ok ()⟩,
    ⟨.watchExit c.id grace, watch⟩] (.kill c.id) with
  | error e => rfl
  | ok u =>
      simp only [mapError_ok, List.cons_append, List.nil_append]
      cases answers [⟨.signal c.graceful c.id, .ok ()⟩,
        ⟨.watchExit c.id grace, watch⟩, ⟨.kill c.id, .ok u⟩] (.reap c.id) with
      | error e => rfl
      | ok status => cases watch <;> rfl

/-- Without an exit in time the sync child is killed and reaped. -/
theorem sync_killed {watch : Except Error Bool}
    (hfits : (clock.checkedAdd grace).isSome = true)
    (h : Watched answers c grace watch) (hwatch : watch ≠ .ok true) :
    Prog.play answers (c.sync.gracefulShutdown clock grace).run [] =
      match answers (watched c grace watch) (.kill c.id) with
      | .error e =>
          (watched c grace watch ++ [⟨.kill c.id, .error e⟩], .error (.io e))
      | .ok () =>
          (watched c grace watch ++ [⟨.kill c.id, .ok ()⟩,
              ⟨.reap c.id, answers
                (watched c grace watch ++ [⟨.kill c.id, .ok ()⟩])
                (.reap c.id)⟩],
            ((answers (watched c grace watch ++ [⟨.kill c.id, .ok ()⟩])
              (.reap c.id)).mapError .io).bind fun status =>
                watch.map fun _ => status) := by
  have htimeout : Prog.play answers (c.sync.waitTimeout clock grace).run
      [⟨.signal c.graceful c.id, .ok ()⟩] =
        (watched c grace watch, watch.map fun _ => none) := by
    rw [Child.waitTimeout_play clock answers _ c.sync hfits, h.watch]
    cases watch with
    | error e => rfl
    | ok exited =>
        cases exited with
        | false => rfl
        | true => exact absurd rfl hwatch
  have hescalate : Prog.play answers
      (c.sync.gracefulShutdown clock grace).run [] =
        Prog.play answers (c.sync.escalate (watch.map fun _ => none)).run
          (watched c grace watch) := by
    simp only [Child.gracefulShutdown, Prog.play_run_bind,
      Child.terminate_play, h.signal, List.nil_append, play_result, htimeout]
    cases watch <;> rfl
  rw [hescalate, Child.escalate_play]
  cases answers (watched c grace watch) (.kill c.id) with
  | error e => rfl
  | ok u => cases watch <;> rfl

/-- Once the exit was seen and the reap succeeded there is nothing left to do. -/
theorem sync_seen {status : ExitStatus}
    (hfits : (clock.checkedAdd grace).isSome = true)
    (h : Watched answers c grace (.ok true))
    (hreap : answers (watched c grace (.ok true)) (.reap c.id) = .ok status) :
    Prog.play answers (c.sync.gracefulShutdown clock grace).run [] =
      (watched c grace (.ok true) ++ [⟨.reap c.id, .ok status⟩],
        .ok status) := by
  have hreap' : answers ([⟨.signal c.graceful c.id, .ok ()⟩] ++
      [⟨.watchExit c.id grace, .ok true⟩]) (.reap c.id) = .ok status := hreap
  simp only [Child.gracefulShutdown, Prog.play_run_bind, Child.terminate_play,
    h.signal, List.nil_append, play_result,
    Child.waitTimeout_play clock answers _ c.sync hfits, h.watch, hreap']
  rfl

/-- A child whose exit was seen and whose reap fails is killed. -/
theorem sync_unreaped {e : IoError}
    (hfits : (clock.checkedAdd grace).isSome = true)
    (h : Watched answers c grace (.ok true))
    (hreap : answers (watched c grace (.ok true)) (.reap c.id) = .error e) :
    ∃ killed rest, (Prog.play answers
      (c.sync.gracefulShutdown clock grace).run []).1 =
        watched c grace (.ok true) ++ [⟨.reap c.id, .error e⟩] ++
          ⟨.kill c.id, killed⟩ :: rest := by
  have hreap' : answers ([⟨.signal c.graceful c.id, .ok ()⟩] ++
      [⟨.watchExit c.id grace, .ok true⟩]) (.reap c.id) = .error e := hreap
  have hescalate : Prog.play answers
      (c.sync.gracefulShutdown clock grace).run [] =
        Prog.play answers (c.sync.escalate (.error (.io e))).run
          (watched c grace (.ok true) ++ [⟨.reap c.id, .error e⟩]) := by
    simp only [Child.gracefulShutdown, Prog.play_run_bind,
      Child.terminate_play, h.signal, List.nil_append, play_result,
      Child.waitTimeout_play clock answers _ c.sync hfits, h.watch, hreap']
    rfl
  rw [hescalate]
  exact ⟨_, Child.escalate_kills answers _ c.sync _⟩

/-- Without a deadline the sync child is reaped without a watch before. -/
theorem sync_unbounded (hfits : clock.checkedAdd grace = none)
    (h : answers [] (.signal c.graceful c.id) = .ok ()) :
    ∃ reaped rest, (Prog.play answers
      (c.sync.gracefulShutdown clock grace).run []).1 =
        ⟨.signal c.graceful c.id, .ok ()⟩ :: ⟨.reap c.id, reaped⟩ :: rest := by
  have htimeout : Prog.play answers (c.sync.waitTimeout clock grace).run
      [⟨.signal c.graceful c.id, .ok ()⟩] =
        ([⟨.signal c.graceful c.id, .ok ()⟩, ⟨.reap c.id,
            answers [⟨.signal c.graceful c.id, .ok ()⟩] (.reap c.id)⟩],
          ((answers [⟨.signal c.graceful c.id, .ok ()⟩]
            (.reap c.id)).mapError .io).map some) := by
    rw [Child.waitTimeout, hfits]
    simp only [Prog.play_run_bind, Child.wait_play]
    cases answers [⟨.signal c.graceful c.id, .ok ()⟩] (.reap c.id) <;> rfl
  simp only [Child.gracefulShutdown, Prog.play_run_bind, Child.terminate_play,
    h, List.nil_append, play_result, htimeout]
  cases answers [⟨.signal c.graceful c.id, .ok ()⟩] (.reap c.id) with
  | ok status => exact ⟨.ok status, [], rfl⟩
  | error e =>
      obtain ⟨rest, hrest⟩ := Child.escalate_kills answers
        [⟨.signal c.graceful c.id, .ok ()⟩, ⟨.reap c.id, .error e⟩] c.sync
        (.error (.io e))
      exact ⟨.error e, _, hrest⟩

end

/-! ## Agreement -/

/-- The order of a shutdown: nothing follows a failed signal, an exit seen in
time is reaped, and otherwise the child is killed, and reaped unless that
fails. -/
def InOrder (c : TokioChild) (grace : Nat) (events : List (Event Answer)) :
    Prop :=
  (∃ e, events = [⟨.signal c.graceful c.id, .error e⟩]) ∨
  (∃ reaped, events =
    watched c grace (.ok true) ++ [⟨.reap c.id, reaped⟩]) ∨
  (∃ watch e, watch ≠ .ok true ∧ events =
    watched c grace watch ++ [⟨.kill c.id, .error e⟩]) ∨
  (∃ watch reaped, watch ≠ .ok true ∧ events =
    watched c grace watch ++ [⟨.kill c.id, .ok ()⟩, ⟨.reap c.id, reaped⟩])

/-- The answers under which the twins do the same.  Once the signal is sent,
the grace has an end, an exit seen in time can be reaped, and otherwise the
kill of an elevated wrapper is not refused. -/
def AgreesUnder (clock : Clock) (answers : Answers Answer) (c : TokioChild)
    (grace : Nat) : Prop :=
  answers [] (.signal c.graceful c.id) = .ok () →
    (clock.checkedAdd grace).isSome = true ∧
    let watch := answers [⟨.signal c.graceful c.id, .ok ()⟩]
      (.watchExit c.id grace)
    (watch = .ok true →
      (answers (watched c grace watch) (.reap c.id)).isOk = true) ∧
    (watch ≠ .ok true → ∀ e,
      answers (watched c grace watch) (.kill c.id) = .error e →
        (c.isElevatedWrapper && e.isPermissionDenied false) = false)

section

variable (io : IoError → String) (clock : Clock) (answers : Answers Answer)
  (c : TokioChild) (grace : Nat)

theorem tokio_inOrder :
    InOrder c grace
      (Prog.play answers (c.gracefulShutdown io false grace).run []).1 := by
  cases hsignal : answers [] (.signal c.graceful c.id) with
  | error e =>
      rw [tokio_refused io hsignal]
      exact Or.inl ⟨e, rfl⟩
  | ok u =>
      have hwatched : Watched answers c grace
          (answers [⟨.signal c.graceful c.id, .ok ()⟩]
            (.watchExit c.id grace)) := ⟨hsignal, rfl⟩
      by_cases hseen : answers [⟨.signal c.graceful c.id, .ok ()⟩]
          (.watchExit c.id grace) = .ok true
      · rw [hseen] at hwatched
        rw [tokio_seen io hwatched]
        exact Or.inr (Or.inl ⟨_, rfl⟩)
      · rw [tokio_killed io hwatched hseen]
        cases answers (watched c grace _) (.kill c.id) with
        | error e => exact Or.inr (Or.inr (Or.inl ⟨_, e, hseen, rfl⟩))
        | ok u => exact Or.inr (Or.inr (Or.inr ⟨_, _, hseen, rfl⟩))

theorem play_eq_of_agreesUnder (h : AgreesUnder clock answers c grace) :
    Prog.play answers (c.sync.gracefulShutdown clock grace).run [] =
      Prog.play answers (c.gracefulShutdown io false grace).run [] := by
  cases hsignal : answers [] (.signal c.graceful c.id) with
  | error e => rw [sync_refused clock hsignal, tokio_refused io hsignal]
  | ok u =>
      obtain ⟨hfits, hreaped, hkilled⟩ := h hsignal
      have hwatched : Watched answers c grace
          (answers [⟨.signal c.graceful c.id, .ok ()⟩]
            (.watchExit c.id grace)) := ⟨hsignal, rfl⟩
      by_cases hseen : answers [⟨.signal c.graceful c.id, .ok ()⟩]
          (.watchExit c.id grace) = .ok true
      · have hok := hreaped hseen
        rw [hseen] at hwatched hok
        rw [tokio_seen io hwatched]
        cases hreap : answers (watched c grace (.ok true)) (.reap c.id) with
        | error e =>
            rw [hreap] at hok
            cases hok
        | ok status =>
            rw [sync_seen clock hfits hwatched hreap]
            rfl
      · rw [tokio_killed io hwatched hseen, sync_killed clock hfits hwatched hseen]
        have hmapped := hkilled hseen
        generalize answers [⟨.signal c.graceful c.id, .ok ()⟩]
          (.watchExit c.id grace) = watch at hmapped ⊢
        cases hkill : answers (watched c grace watch) (.kill c.id) with
        | error e =>
            simp only [mapElevatedKillError, hmapped e hkill,
              Bool.false_eq_true, if_false]
        | ok u => rfl

/-- Once the signal is sent the async child is watched. -/
theorem tokio_watches (hsignal : answers [] (.signal c.graceful c.id) = .ok ()) :
    ∃ watch rest,
      (Prog.play answers (c.gracefulShutdown io false grace).run []).1 =
        ⟨.signal c.graceful c.id, .ok ()⟩ :: ⟨.watchExit c.id grace, watch⟩ ::
          rest := by
  have hwatched : Watched answers c grace
      (answers [⟨.signal c.graceful c.id, .ok ()⟩]
        (.watchExit c.id grace)) := ⟨hsignal, rfl⟩
  by_cases hseen : answers [⟨.signal c.graceful c.id, .ok ()⟩]
      (.watchExit c.id grace) = .ok true
  · rw [hseen] at hwatched
    rw [tokio_seen io hwatched]
    exact ⟨_, _, rfl⟩
  · rw [tokio_killed io hwatched hseen]
    cases answers (watched c grace _) (.kill c.id) with
    | error e => exact ⟨_, _, rfl⟩
    | ok u => exact ⟨_, _, rfl⟩

theorem agreesUnder_of_play_eq
    (h : Prog.play answers (c.sync.gracefulShutdown clock grace).run [] =
      Prog.play answers (c.gracefulShutdown io false grace).run []) :
    AgreesUnder clock answers c grace := by
  intro hsignal
  have hwatched : Watched answers c grace
      (answers [⟨.signal c.graceful c.id, .ok ()⟩]
        (.watchExit c.id grace)) := ⟨hsignal, rfl⟩
  have hfits : (clock.checkedAdd grace).isSome = true := by
    cases hadd : clock.checkedAdd grace with
    | some deadline => rfl
    | none =>
        -- The second event is a reap for one twin and a watch for the other.
        obtain ⟨reaped, rest, hsync⟩ := sync_unbounded clock hadd hsignal
        obtain ⟨watch, rest', htokio⟩ :=
          tokio_watches io answers c grace hsignal
        rw [h, htokio] at hsync
        have hquestion := congrArg (fun events =>
          (events.map Event.question)[1]?) hsync
        simp at hquestion
  refine ⟨hfits, ?_, ?_⟩
  · intro hseen
    rw [hseen] at hwatched
    rw [hseen]
    cases hreap : answers (watched c grace (.ok true)) (.reap c.id) with
    | ok status => rfl
    | error e =>
        -- The sync twin goes on to the kill.
        obtain ⟨killed, rest, hsync⟩ :=
          sync_unreaped clock hfits hwatched hreap
        rw [h, tokio_seen io hwatched] at hsync
        have hlength := congrArg List.length hsync
        simp [watched] at hlength
  · intro hseen e hkill
    rw [sync_killed clock hfits hwatched hseen, tokio_killed io hwatched hseen,
      hkill] at h
    have herror : Error.io e =
        mapElevatedKillError io false e c.isElevatedWrapper :=
      Except.error.inj (congrArg Prod.snd h)
    by_cases hmapped :
        (c.isElevatedWrapper && e.isPermissionDenied false) = true
    · rw [mapElevatedKillError, if_pos hmapped] at herror
      cases herror
    · exact Bool.eq_false_iff.mpr hmapped

/-- For every child, grace and answers of the system: the twins make the same
calls in the order of a shutdown and return the same result exactly when the
answers let them agree. -/
theorem gracefulShutdown_agrees_iff :
    (Prog.play answers (c.sync.gracefulShutdown clock grace).run [] =
        Prog.play answers (c.gracefulShutdown io false grace).run [] ∧
      InOrder c grace
        (Prog.play answers (c.sync.gracefulShutdown clock grace).run []).1) ↔
      AgreesUnder clock answers c grace := by
  constructor
  · rintro ⟨hplay, -⟩
    exact agreesUnder_of_play_eq io clock answers c grace hplay
  · intro hagrees
    have hplay := play_eq_of_agreesUnder io clock answers c grace hagrees
    refine ⟨hplay, ?_⟩
    rw [hplay]
    exact tokio_inOrder io answers c grace

/-- A child behind `sudo`. -/
def sampleWrapper : TokioChild where
  id := ⟨42, 7⟩
  pipes := []
  killOnDrop := false
  containment := .none
  attached := .none
  graceful := .process
  elevation := some ⟨.wrapped .«sudo», [], .passthrough⟩
  pinsPid := true

/-- It outlives the grace and may not be killed. -/
def sampleAnswers : Answers Answer
  | _, .signal .. => .ok ()
  | _, .terminate .. => .ok ()
  | _, .watchExit .. => .ok false
  | _, .waitDrained .. => .ok .membersRemain
  | _, .hardKill _ => .ok ()
  | _, .kill _ => .error (.os 1)
  | _, .reap _ => .ok 0

/-- The sync twin returns the raw `EPERM`, the async one `Unkillable`. -/
theorem gracefulShutdown_eperm :
    (Prog.play sampleAnswers
        (sampleWrapper.sync.gracefulShutdown ⟨0, 100⟩ 5).run []).2 =
      .error (.io (.os 1)) ∧
    (Prog.play sampleAnswers
        (sampleWrapper.gracefulShutdown (fun _ => "Operation not permitted")
          false 5).run []).2 =
      .error (.elevation .unkillable
        "could not signal the elevated child: Operation not permitted") :=
  ⟨rfl, rfl⟩

end

end Cosca.Ports.ShutdownAgreement
