import Cosca.Ports.CommandRecord
import Cosca.Ports.Errors
import Cosca.Ports.Identity
import Cosca.Verified.Unwind

/-!
# A reaper worker

`tokio/child/reaper.rs::{work, run_teardown}`: a worker takes one job after the
other, waits for the child and then drops what the job carries.  The wait, the
log calls and the resource drops are the calls that may panic; a placement says
which of them do.

## Main results

* `runTeardown_ending`: a teardown returns, or aborts the process; it never
  unwinds.
* `work_reaps_iff`: a worker that is given any jobs goes on receiving and
  releases the resources of each once, after its wait region, if and only if no
  job has two panics in its release region.
-/

namespace Cosca.Ports.ReaperWorker

open Cosca.Ports.CommandRecord (Fd)
open Cosca.Ports.Errors
open Cosca.Ports.Identity (RawPid)
open Cosca.Verified.Unwind

variable {ρ : Type}

/-! ## The code -/

/-- `OsResources` over resources `ρ`, in declaration order.  The maps are lists
in the order of their keys. -/
structure OsResources (ρ : Type) where
  proc : Option ρ
  attached : ρ
  pipes : List (Fd × ρ)
  ownedStd : List (Fd × ρ)

/-- The order in which the drop of an `OsResources` releases. -/
def OsResources.inOrder (os : OsResources ρ) : List ρ :=
  os.proc.toList ++ os.attached :: os.pipes.map Prod.snd ++
    os.ownedStd.map Prod.snd

/-- `ReapJob`. -/
structure ReapJob (ρ : Type) where
  os : OsResources ρ
  pid : RawPid

/-- The levels of the lines the reaper logs. -/
inductive Level where
  | error
  | debug
  deriving DecidableEq, Repr

/-- A log line; an error it reports is written after the text. -/
structure LogLine where
  level : Level
  text : String
  error : Option IoError
  deriving DecidableEq, Repr

/-- The calls of a worker that may panic. -/
inductive Event (ρ : Type) where
  | waitAndReap (proc : ρ) (pid : RawPid)
  | log (line : LogLine)
  | debugAssert (text : String)
  | release (resource : ρ)
  deriving DecidableEq, Repr

/-- Which calls panic. -/
abbrev Placement (ρ : Type) := Event ρ → Bool

/-- `OsResources::proc_mut`, with the `expect`. -/
def OsResources.procMut (os : OsResources ρ) : Code (Event ρ) ρ :=
  match os.proc with
  | some proc => pure proc
  | none => raise

/-- `drop(os)`. -/
def dropOs (panics : Placement ρ) (os : OsResources ρ) : Code (Event ρ) Unit :=
  dropGlue (fun r => call panics (.release r)) os.inOrder

/-- The first region of `run_teardown`; `os` is only borrowed. -/
def waitRegion (panics : Placement ρ) (job : ReapJob ρ) :
    Code (Event ρ) Unit := do
  let proc ← job.os.procMut
  call panics (.waitAndReap proc job.pid)

def reapingPanicked (pid : RawPid) : LogLine :=
  ⟨.error, s!"reaping child {pid} panicked; releasing its resources anyway",
    none⟩

/-- The log call of the second region. -/
def report (panics : Placement ρ) (pid : RawPid) :
    Except Unit Unit → Code (Event ρ) Unit
  | .ok () => pure ()
  | .error () => call panics (.log (reapingPanicked pid))

/-- The second region of `run_teardown`; its closure owns `os`. -/
def releaseRegion (panics : Placement ρ) (job : ReapJob ρ)
    (waited : Except Unit Unit) : Code (Event ρ) Unit := do
  (report panics job.pid waited).owning (dropOs panics job.os)
  dropOs panics job.os

def releasingPanicked (pid : RawPid) : LogLine :=
  ⟨.error, s!"releasing child {pid}'s resources panicked; its wait had already completed",
    none⟩

/-- The end of `run_teardown`. -/
def concludeRelease (panics : Placement ρ) (pid : RawPid) :
    Except Unit Unit → Code (Event ρ) Unit
  | .ok () => pure ()
  | .error () => do
      let _ ← (call panics (.log (releasingPanicked pid))).catchUnwind
      pure ()

/-- `run_teardown`. -/
def runTeardown (panics : Placement ρ) (job : ReapJob ρ) :
    Code (Event ρ) Unit := do
  let waited ← (waitRegion panics job).catchUnwind
  let released ← (releaseRegion panics job waited).catchUnwind
  concludeRelease panics job.pid released

def teardownUnwound : LogLine :=
  ⟨.error, "a reaper teardown unwound despite its no-unwind contract", none⟩

/-- The recovery in `work`. -/
def recover (panics : Placement ρ) : Except Unit Unit → Code (Event ρ) Unit
  | .ok () => pure ()
  | .error () => do
      let recovery : Code (Event ρ) Unit := do
        call panics (.log teardownUnwound)
        call panics (.debugAssert
          "run_teardown unwound despite its no-unwind contract")
      let _ ← recovery.catchUnwind
      pure ()

/-- The body of the loop in `work`. -/
def workOn (panics : Placement ρ) (job : ReapJob ρ) : Code (Event ρ) Unit := do
  let tornDown ← (runTeardown panics job).catchUnwind
  recover panics tornDown

/-- `work` on the jobs that it receives, each with the panics in its teardown;
it returns where `recv` is called for one more. -/
def work : List (ReapJob ρ × Placement ρ) → Code (Event ρ) Unit
  | [] => pure ()
  | (job, panics) :: later => do
      workOn panics job
      work later

/-! ## What a teardown is for -/

/-- What the wait region does. -/
def ReapJob.waits (job : ReapJob ρ) : List (Event ρ) :=
  match job.os.proc with
  | some proc => [.waitAndReap proc job.pid]
  | none => []

def Event.isWait : Event ρ → Bool
  | .waitAndReap .. => true
  | _ => false

def Event.released : Event ρ → Option ρ
  | .release r => some r
  | _ => none

/-- The job's wait region ran, and after it each of the job's resources was
released once, in order. -/
def TornDown (job : ReapJob ρ) (events : List (Event ρ)) : Prop :=
  ∃ after, events = job.waits ++ after ∧ (∀ e ∈ after, e.isWait = false) ∧
    after.filterMap Event.released = job.os.inOrder

/-- Every job was torn down, one after the other. -/
def AllTornDown : List (ReapJob ρ) → List (Event ρ) → Prop
  | [], events => events = []
  | job :: later, events => ∃ now rest, events = now ++ rest ∧
      TornDown job now ∧ AllTornDown later rest

/-- The worker received every job, goes on receiving, and tore every job
down. -/
structure Reaps (received : List (ReapJob ρ × Placement ρ)) : Prop where
  receiving : (work received).ending = .returned ()
  tornDown : AllTornDown (received.map Prod.fst) (work received).events

/-! ## One teardown -/

section

variable (panics : Placement ρ) (job : ReapJob ρ)

/-- The wait region panics. -/
def waitPanics : Bool :=
  match job.os.proc with
  | some proc => panics (.waitAndReap proc job.pid)
  | none => true

/-- The calls of the release region, when nothing aborts it. -/
def releases : List (Event ρ) :=
  (if waitPanics panics job then [.log (reapingPanicked job.pid)] else []) ++
    job.os.inOrder.map .release

/-- Two panics in the release region: the second comes while the first
unwinds. -/
def Fatal : Prop :=
  2 ≤ (releases panics job).countP panics

instance : Decidable (Fatal panics job) :=
  inferInstanceAs (Decidable (_ ≤ _))

/-- What the wait region comes to. -/
def waited : Except Unit Unit :=
  if waitPanics panics job then .error () else .ok ()

theorem waitRegion_caught : (waitRegion panics job).catchUnwind =
    ⟨job.waits, .returned (waited panics job)⟩ := by
  unfold waitRegion OsResources.procMut waited waitPanics ReapJob.waits
  cases job.os.proc with
  | none => rfl
  | some proc =>
      by_cases hwait : panics (.waitAndReap proc job.pid) = true
      · have hcall : (call panics (.waitAndReap proc job.pid)).ending =
            .unwinding := by
          simp [call, hwait]
        rw [bind_of_returned rfl, hcall]
        simp [Code.catchUnwind, call, pure, hwait]
      · have hcall : (call panics (.waitAndReap proc job.pid)).ending =
            .returned () := by
          simp [call, hwait]
        rw [bind_of_returned rfl, hcall]
        simp [Code.catchUnwind, call, pure, hwait]

theorem releaseRegion_eq : releaseRegion panics job (waited panics job) =
    dropGlue (call panics) (releases panics job) := by
  have hdrop : dropOs panics job.os =
      dropGlue (call panics) (job.os.inOrder.map .release) :=
    dropGlue_map (call panics) .release job.os.inOrder
  unfold releaseRegion releases waited
  rw [hdrop]
  by_cases hwait : waitPanics panics job = true
  · rw [if_pos hwait, if_pos hwait]
    rfl
  · rw [if_neg hwait, if_neg hwait]
    rfl

/-- The last log call is caught whatever it does. -/
theorem concludeRelease_eq (released : Except Unit Unit) :
    ∃ lines : List LogLine, concludeRelease panics job.pid released =
      ⟨lines.map .log, .returned ()⟩ := by
  cases released with
  | ok u => exact ⟨[], rfl⟩
  | error u =>
      refine ⟨[releasingPanicked job.pid], ?_⟩
      unfold concludeRelease call
      by_cases hlog : panics (.log (releasingPanicked job.pid)) = true
      · rw [if_pos hlog]
        rfl
      · rw [if_neg hlog]
        rfl

/-- What follows the wait region, up to the end of the teardown. -/
def afterWait : Code (Event ρ) Unit := do
  let released ← (dropGlue (call panics) (releases panics job)).catchUnwind
  concludeRelease panics job.pid released

theorem runTeardown_eq : runTeardown panics job =
    ⟨job.waits ++ (afterWait panics job).events,
      (afterWait panics job).ending⟩ := by
  unfold runTeardown
  rw [waitRegion_caught, bind_of_returned rfl, releaseRegion_eq]
  rfl

theorem afterWait_aborts (h : Fatal panics job) :
    (afterWait panics job).ending = .aborted := by
  have hend := dropGlue_ending panics (releases panics job)
  rw [ofPanics_aborted_iff.mpr h] at hend
  unfold afterWait
  rw [catchUnwind_of_aborted hend, bind_of_aborted rfl]

theorem afterWait_returns (h : ¬ Fatal panics job) :
    ∃ lines : List LogLine, afterWait panics job =
      ⟨releases panics job ++ lines.map .log, .returned ()⟩ := by
  have hcount : (releases panics job).countP panics ≤ 1 := by
    unfold Fatal at h
    omega
  have hevents := dropGlue_events panics _ hcount
  have hcaught : ∃ released,
      (dropGlue (call panics) (releases panics job)).catchUnwind =
        ⟨releases panics job, .returned released⟩ := by
    have hend := dropGlue_ending panics (releases panics job)
    by_cases hnone : (releases panics job).countP panics = 0
    · rw [hnone] at hend
      exact ⟨_, (catchUnwind_of_returned hend).trans (by rw [hevents])⟩
    · have hone : (releases panics job).countP panics = 1 := by omega
      rw [hone] at hend
      exact ⟨_, (catchUnwind_of_unwinding hend).trans (by rw [hevents])⟩
  obtain ⟨released, hreleased⟩ := hcaught
  obtain ⟨lines, hlines⟩ := concludeRelease_eq panics job released
  refine ⟨lines, ?_⟩
  unfold afterWait
  rw [hreleased, bind_of_returned rfl, hlines]

/-- A teardown never unwinds. -/
theorem runTeardown_ending : (runTeardown panics job).ending =
    if Fatal panics job then .aborted else .returned () := by
  rw [runTeardown_eq]
  by_cases h : Fatal panics job
  · rw [if_pos h]
    exact afterWait_aborts panics job h
  · rw [if_neg h]
    obtain ⟨lines, hlines⟩ := afterWait_returns panics job h
    rw [hlines]

theorem isWait_releases : ∀ e ∈ releases panics job, e.isWait = false := by
  intro e he
  cases List.mem_append.mp he with
  | inl hlog =>
      by_cases hwait : waitPanics panics job = true
      · rw [if_pos hwait] at hlog
        rw [List.mem_singleton.mp hlog]
        rfl
      · rw [if_neg hwait] at hlog
        exact absurd hlog List.not_mem_nil
  | inr hdrop =>
      obtain ⟨r, _, rfl⟩ := List.mem_map.mp hdrop
      rfl

theorem released_releases :
    (releases panics job).filterMap Event.released = job.os.inOrder := by
  have hdrops : (job.os.inOrder.map .release).filterMap Event.released =
      job.os.inOrder := by
    rw [List.filterMap_map]
    exact List.filterMap_some
  unfold releases
  rw [List.filterMap_append, hdrops]
  by_cases hwait : waitPanics panics job = true
  · rw [if_pos hwait]
    rfl
  · rw [if_neg hwait]
    rfl

theorem runTeardown_tornDown (h : ¬ Fatal panics job) :
    TornDown job (runTeardown panics job).events := by
  obtain ⟨lines, hlines⟩ := afterWait_returns panics job h
  refine ⟨releases panics job ++ lines.map .log, ?_, ?_, ?_⟩
  · rw [runTeardown_eq, hlines]
  · intro e he
    cases List.mem_append.mp he with
    | inl hrelease => exact isWait_releases panics job e hrelease
    | inr hline =>
        obtain ⟨line, _, rfl⟩ := List.mem_map.mp hline
        rfl
  · have hlogs : (lines.map Event.log).filterMap Event.released =
        ([] : List ρ) := by
      rw [List.filterMap_map]
      exact List.filterMap_eq_nil_iff.mpr fun _ _ => rfl
    rw [List.filterMap_append, hlogs, released_releases, List.append_nil]

/-- The recovery of `work` has nothing to recover. -/
theorem workOn_eq : workOn panics job = runTeardown panics job := by
  unfold workOn
  by_cases h : Fatal panics job
  · have hend : (runTeardown panics job).ending = .aborted := by
      rw [runTeardown_ending, if_pos h]
    rw [catchUnwind_of_aborted hend, bind_of_aborted rfl, ← hend]
  · have hend : (runTeardown panics job).ending = .returned () := by
      rw [runTeardown_ending, if_neg h]
    rw [catchUnwind_of_returned hend, bind_of_returned rfl]
    show (⟨_ ++ [], .returned ()⟩ : Code (Event ρ) Unit) = _
    rw [List.append_nil, ← hend]

theorem workOn_ending : (workOn panics job).ending =
    if Fatal panics job then .aborted else .returned () := by
  rw [workOn_eq, runTeardown_ending]

theorem workOn_ne_unwinding : (workOn panics job).ending ≠ .unwinding := by
  rw [workOn_ending]
  by_cases h : Fatal panics job
  · rw [if_pos h]
    exact nofun
  · rw [if_neg h]
    exact nofun

end

/-! ## The loop -/

theorem work_cons (job : ReapJob ρ) (panics : Placement ρ)
    (later : List (ReapJob ρ × Placement ρ)) :
    work ((job, panics) :: later) = workOn panics job >>= fun _ => work later :=
  rfl

theorem work_of_fatal {job : ReapJob ρ} {panics : Placement ρ}
    (h : Fatal panics job) (later : List (ReapJob ρ × Placement ρ)) :
    (work ((job, panics) :: later)).ending = .aborted := by
  have hend : (workOn panics job).ending = .aborted := by
    rw [workOn_ending, if_pos h]
  rw [work_cons, bind_of_aborted hend]

theorem work_of_not_fatal {job : ReapJob ρ} {panics : Placement ρ}
    (h : ¬ Fatal panics job) (later : List (ReapJob ρ × Placement ρ)) :
    work ((job, panics) :: later) =
      ⟨(runTeardown panics job).events ++ (work later).events,
        (work later).ending⟩ := by
  have hend : (workOn panics job).ending = .returned () := by
    rw [workOn_ending, if_neg h]
  rw [work_cons, bind_of_returned hend, workOn_eq]

theorem work_ending_iff (received : List (ReapJob ρ × Placement ρ)) :
    (work received).ending = .returned () ↔
      ∀ r ∈ received, ¬ Fatal r.2 r.1 := by
  induction received with
  | nil => exact ⟨fun _ => nofun, fun _ => rfl⟩
  | cons r later ih =>
      obtain ⟨job, panics⟩ := r
      rw [List.forall_mem_cons]
      by_cases h : Fatal panics job
      · rw [work_of_fatal h]
        exact ⟨nofun, fun hall => absurd h hall.1⟩
      · rw [work_of_not_fatal h, ih]
        exact ⟨fun hlater => ⟨h, hlater⟩, fun hall => hall.2⟩

theorem work_tornDown (received : List (ReapJob ρ × Placement ρ))
    (h : ∀ r ∈ received, ¬ Fatal r.2 r.1) :
    AllTornDown (received.map Prod.fst) (work received).events := by
  induction received with
  | nil => rfl
  | cons r later ih =>
      obtain ⟨job, panics⟩ := r
      obtain ⟨hjob, hlater⟩ := List.forall_mem_cons.mp h
      rw [work_of_not_fatal hjob]
      exact ⟨_, _, rfl, runTeardown_tornDown panics job hjob, ih hlater⟩

theorem work_reaps_iff (received : List (ReapJob ρ × Placement ρ)) :
    Reaps received ↔ ∀ r ∈ received, ¬ Fatal r.2 r.1 := by
  constructor
  · intro h
    exact (work_ending_iff received).mp h.receiving
  · intro h
    exact ⟨(work_ending_iff received).mpr h, work_tornDown received h⟩

end Cosca.Ports.ReaperWorker
