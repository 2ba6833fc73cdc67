import Cosca.Ports.UnixSignals

/-!
# Which signals address more than one process

`kill(2)` with target 0 addresses the caller's own process group and with a
negative target a whole group, -1 being everything; `killpg` is `kill` with the
group id negated.  The identity paths go through `signal_target` and never do
so.  The group guard lets id 1 through, and `CgroupLeaf::terminate` has none:
it signals whatever number the text holds, and the kernel itself writes `0` for
a member outside the reader's pid namespace.

## Main results

* `teardown_targeted_iff`: a run of a teardown path aims every signal at one
  process, or at a group of its own, exactly where its input does.
* `listedPids_kernelText`: the kernel's own text lists exactly its pids.
-/

namespace Cosca.Ports.NoBroadcast

open Cosca.Ports.Errors
open Cosca.Ports.Identity
open Cosca.Ports.UnixSignals
open Cosca.Verified.Interact
open Cosca.Verified.Text

/-! ## Targets -/

/-- The signal is aimed at one process with a positive pid, or at a group that
is neither the caller's own nor everything. -/
def Targeted : Question → Prop
  | .kill target _ => 0 < target
  | .killpg pgid _ => -pgid ≠ 0 ∧ -pgid ≠ -1
  | _ => True

/-- Whatever the host answers, the program's signals are targeted. -/
def Spares {α : Type} (p : Signalling α) : Prop :=
  Prog.Asks Targeted p.run

theorem Spares.pure {α : Type} (a : α) : Spares (Pure.pure a) :=
  Prog.Asks.run_pure a

theorem Spares.bind {α β : Type} {p : Signalling α} {f : α → Signalling β}
    (h : Spares p) (hf : ∀ a, Spares (f a)) : Spares (p >>= f) :=
  Prog.Asks.run_bind h hf

theorem Spares.ask_bind {α : Type} {q : Question}
    {f : Answer q → Signalling α} (h : Targeted q)
    (hf : ∀ a, Spares (f a)) : Spares (ask q >>= f) :=
  ⟨h, hf⟩

theorem Spares.foldlM {σ ι : Type} {step : σ → ι → Signalling σ}
    (hstep : ∀ s x, Spares (step s x)) (xs : List ι) (s : σ) :
    Spares (xs.foldlM step s) :=
  Prog.Asks.run_foldlM hstep xs s

/-- `signal_target` yields positive targets only. -/
theorem signalTarget_pos {pid : RawPid} {target : Int32}
    (h : signalTarget pid = some target) : 0 < target := by
  unfold signalTarget at h
  split at h
  · split at h
    · next hpos =>
        rw [← Option.some.inj h]
        exact hpos
    · cases h
  · cases h

/-! ## The identity paths -/

theorem killByIdentity_spares (id : ProcessId) (signal : Signal) :
    Spares (killByIdentity id signal) := by
  unfold killByIdentity
  apply Spares.ask_bind
  · trivial
  intro start
  split
  · exact Spares.pure _
  · exact Spares.pure _
  · split
    · exact Spares.pure _
    · split
      · exact Spares.pure _
      · next target htarget =>
          apply Spares.ask_bind
          · exact signalTarget_pos htarget
          intro sent
          split
          · exact Spares.pure _
          · split
            · exact Spares.pure _
            · exact Spares.pure _

theorem checkOrSignal_spares (pid : RawPid) (id : ProcessId)
    (signal : Option Signal) : Spares (checkOrSignal pid id signal) := by
  unfold checkOrSignal
  apply Spares.ask_bind
  · trivial
  intro start
  split
  · exact Spares.pure _
  · exact Spares.pure _
  · split
    · exact Spares.pure _
    · split
      · exact Spares.pure _
      · next target htarget =>
          apply Spares.ask_bind
          · exact signalTarget_pos htarget
          intro sent
          exact Spares.pure _

theorem openVerified_spares (id : ProcessId) (what : String) :
    Spares (openVerified id what) := by
  unfold openVerified
  split
  · trivial
  · apply Spares.ask_bind
    · trivial
    intro opened
    split
    · split
      · exact Spares.pure _
      · split
        · exact Spares.pure _
        · exact Spares.pure _
    · apply Spares.ask_bind
      · trivial
      intro start
      split
      · exact Spares.pure _
      · exact Spares.pure _
      · exact Spares.pure _

theorem checkOrSignalLinuxSigkill_spares (pid : RawPid) (id : ProcessId) :
    Spares (checkOrSignalLinuxSigkill pid id) := by
  unfold checkOrSignalLinuxSigkill
  apply (openVerified_spares id _).bind
  intro opened
  split
  · exact Spares.pure _
  · apply Spares.ask_bind
    · trivial
    intro sent
    exact Spares.pure _
  · exact checkOrSignal_spares pid id _
  · exact checkOrSignal_spares pid id _
  · exact Spares.pure _

/-! ## The group -/

theorem reachMember_spares (platform : Platform) (signal : Signal)
    (m : Member) : Spares (reachMember platform signal m) := by
  unfold reachMember
  split
  · exact Spares.pure _
  · split
    · cases platform with
      | linux => exact checkOrSignalLinuxSigkill_spares m.pid _
      | macos => exact checkOrSignal_spares m.pid _ _
      | otherUnix => exact checkOrSignal_spares m.pid _ _
    · exact checkOrSignal_spares m.pid _ _

theorem reached_spares (pid : RawPid) {reached : Signalling Reached}
    (h : Spares reached) : Spares (do
      match ← reached with
      | .yes => return MemberOutcome.notASurvivor
      | .no => return .survivor pid
      | .unknown => return .unassessable pid) := by
  apply h.bind
  intro answer
  cases answer <;> exact Spares.pure _

theorem classifyMember_spares (pid : RawPid) (liveness : Liveness)
    {reached : Signalling Reached} (h : Spares reached) :
    Spares (classifyMember pid liveness reached) := by
  cases liveness with
  | dead => exact Spares.pure _
  | alive => exact reached_spares pid h
  | unknown => exact reached_spares pid h

theorem reconfirmSurvivor_spares (outcome : MemberOutcome)
    {recheck : Signalling Liveness} (h : Spares recheck) :
    Spares (reconfirmSurvivor outcome recheck) := by
  cases outcome with
  | notASurvivor => exact Spares.pure _
  | unassessable pid => exact Spares.pure _
  | survivor pid =>
      apply h.bind
      intro liveness
      cases liveness <;> exact Spares.pure _

theorem memberVisit_spares (platform : Platform) (signal : Signal)
    (acc : List RawPid × List RawPid) (m : Member) :
    Spares (memberVisit platform signal acc m) := by
  unfold memberVisit
  apply Spares.ask_bind
  · trivial
  intro liveness
  apply (classifyMember_spares m.pid liveness
    (reachMember_spares platform signal m)).bind
  intro outcome
  have hrecheck : Spares (ask (.isRunning ⟨m.pid, m.token⟩)) :=
    ⟨trivial, fun _ => trivial⟩
  apply (reconfirmSurvivor_spares outcome hrecheck).bind
  intro confirmed
  cases confirmed <;> exact Spares.pure _

theorem members_spares (platform : Platform) (pgid : Int32) :
    Spares (members platform pgid) := by
  cases platform with
  | linux => exact ⟨trivial, fun _ => trivial⟩
  | macos => exact ⟨trivial, fun _ => trivial⟩
  | otherUnix => exact Spares.pure _

/-- What `verify` sends goes to single members. -/
theorem verify_spares (platform : Platform) (pgid : Int32)
    (signal : Signal) : Spares (verify platform pgid signal) := by
  have hconverge : Spares (converge platform pgid signal) := by
    apply (members_spares platform pgid).bind
    intro listed
    cases listed with
    | error e => exact Spares.pure _
    | ok listed =>
        apply (Spares.foldlM (memberVisit_spares platform signal) listed
          _).bind
        intro acc
        exact Spares.pure _
  have hstate : Spares (groupState platform pgid signal) := by
    apply hconverge.bind
    intro state
    cases state <;> exact Spares.pure _
  apply hstate.bind
  intro state
  cases state <;> exact Spares.pure _

theorem signalDirect_spares {pid : Int32} (h : 0 < pid) (signal : Signal) :
    Spares (signalDirect pid signal) := by
  unfold signalDirect
  apply Spares.ask_bind
  · exact h
  intro sent
  split
  · exact Spares.pure _
  · split
    · exact Spares.pure _
    · exact Spares.pure _

/-- The group guard suffices for every id but 1. -/
theorem signalGroup_spares (platform : Platform) {pgid : Int32}
    (h : pgid ≠ 1) (signal : Signal) :
    Spares (signalGroup platform pgid signal) := by
  unfold signalGroup
  split
  · exact Spares.pure _
  · next hguard =>
      have hpos : 0 < pgid := Int32.not_le.mp hguard
      have htargeted : Targeted (.killpg pgid signal) := by
        constructor
        · show -pgid ≠ 0
          grind
        · show -pgid ≠ -1
          grind
      apply Spares.ask_bind
      · exact htargeted
      intro sent
      split
      · exact verify_spares platform pgid signal
      · split
        · exact verify_spares platform pgid signal
        · split
          · apply (signalDirect_spares hpos signal).bind
            intro direct
            exact verify_spares platform pgid signal
          · exact Spares.pure _

/-! ## The leaf -/

/-- What a run asked, in order. -/
def asked (events : List (Event Answer)) : List Question :=
  events.map Event.question

/-- The loop over the lines signals what they list, in order. -/
theorem terminateLines_asked (rows : List (List Char)) :
    ∀ past, Prog.Ensures (forM rows terminateLine).run past fun r t =>
      r = .ok () ∧ asked t = asked past ++
        (rows.filterMap fun line => parseI32 (trim line)).map fun pid =>
          .kill pid (some .sigterm) := by
  induction rows with
  | nil =>
      intro past
      exact ⟨rfl, by simp⟩
  | cons line rows ih =>
      intro past
      cases hline : parseI32 (trim line) with
      | none =>
          have hskip : terminateLine line = Pure.pure () := by
            rw [terminateLine, hline]
          rw [List.forM_cons, hskip, List.filterMap_cons, hline]
          exact ih past
      | some pid =>
          have hkill : terminateLine line = (do
              let _ ← ask (.kill pid (some .sigterm))
              return ()) := by
            rw [terminateLine, hline]
          rw [List.forM_cons, hkill, List.filterMap_cons, hline]
          intro answer
          have hrest :=
            ih (past ++ [⟨.kill pid (some .sigterm), answer⟩])
          apply Prog.Ensures.mono hrest
          intro r t ⟨hr, ht⟩
          refine ⟨hr, ?_⟩
          rw [ht]
          simp [asked]

/-- `terminate` signals exactly the listed numbers. -/
theorem terminate_asked (content : String) :
    Prog.Ensures (CgroupLeaf.terminate (.ok content)).run [] fun _ t =>
      asked t = (listedPids content).map fun pid =>
        .kill pid (some .sigterm) := by
  apply Prog.Ensures.bind (terminateLines_asked (lines content.toList) [])
  intro r t ⟨hr, ht⟩
  rw [hr]
  exact ht

/-- The text the kernel writes: the pids in decimal, each with a line feed. -/
def kernelText (pids : List Nat) : String :=
  String.ofList (pids.flatMap fun pid => decimal pid ++ ['\n'])

/-- The kernel's own text lists exactly its pids, 0 among them where a member
is outside the reader's pid namespace. -/
theorem listedPids_kernelText (pids : List Nat)
    (h : ∀ pid ∈ pids, pid < 2 ^ 31) :
    listedPids (kernelText pids) =
      pids.map fun (pid : Nat) => Int32.ofInt pid := by
  rw [listedPids, kernelText, String.toList_ofList]
  exact parse_lines_decimal pids h

/-! ## Every path -/

/-- The teardown paths that signal by number. -/
inductive Teardown where
  | killByIdentity (id : ProcessId) (signal : Signal)
  | signalGroup (platform : Platform) (pgid : Int32) (signal : Signal)
  | checkOrSignal (pid : RawPid) (id : ProcessId) (signal : Option Signal)
  | terminateLeaf (procs : Except IoError String)

/-- The program of a path, without its result. -/
def Teardown.program : Teardown → Signalling Unit
  | .killByIdentity id signal => do
      let _ ← UnixSignals.killByIdentity id signal
      return ()
  | .signalGroup platform pgid signal => do
      let _ ← UnixSignals.signalGroup platform pgid signal
      return ()
  | .checkOrSignal pid id signal => do
      let _ ← UnixSignals.checkOrSignal pid id signal
      return ()
  | .terminateLeaf procs => do
      let _ ← CgroupLeaf.terminate procs
      return ()

/-- The input addresses single processes only: the group is not group 1, and
every number `cgroup.procs` lists is positive. -/
def Teardown.SingleTargets : Teardown → Prop
  | .signalGroup _ pgid _ => pgid ≠ 1
  | .terminateLeaf (.ok content) => ∀ pid ∈ listedPids content, 0 < pid
  | _ => True

theorem targeted_of_spares {α : Type} {p : Signalling α} (h : Spares p)
    {events : List (Event Answer)} {result : Except Panic α}
    (hruns : p.run.Runs events result) :
    ∀ e ∈ events, Targeted e.question := by
  obtain ⟨new, hnew, htargeted⟩ := (Prog.Asks.ensures h []).of_runs hruns
  rw [List.nil_append, List.nil_append] at hnew
  rw [hnew]
  exact htargeted

/-- A group id of 1 reaches `killpg`. -/
theorem signalGroup_one (platform : Platform) (signal : Signal)
    {events : List (Event Answer)} {result : Except Panic Unit}
    (hruns : (Teardown.signalGroup platform 1 signal).program.run.Runs events
      result) : ∃ answer rest, events = ⟨.killpg 1 signal, answer⟩ :: rest := by
  rw [Teardown.program, UnixSignals.signalGroup, if_neg (by decide)] at hruns
  exact Prog.Runs.first hruns

theorem leaf_targeted_iff (content : String) {events : List (Event Answer)}
    {result : Except Panic Unit}
    (hruns : (Teardown.terminateLeaf (.ok content)).program.run.Runs events
      result) :
    (∀ e ∈ events, Targeted e.question) ↔
      ∀ pid ∈ listedPids content, 0 < pid := by
  have hasked : Prog.Ensures
      (Teardown.terminateLeaf (.ok content)).program.run [] fun _ t =>
        asked t = (listedPids content).map fun pid =>
          .kill pid (some .sigterm) := by
    apply Prog.Ensures.bind (terminate_asked content)
    intro r t ht
    cases r <;> exact ht
  have hevents := hasked.of_runs hruns
  rw [List.nil_append] at hevents
  have hall : (∀ e ∈ events, Targeted e.question) ↔
      ∀ q ∈ asked events, Targeted q := by
    simp [asked]
  rw [hall, hevents]
  simp [Targeted]

/-- In a run of a teardown path every signal is aimed at one process with a
positive pid, or at a group that is neither the caller's own nor everything,
exactly where the input addresses single processes. -/
theorem teardown_targeted_iff (path : Teardown) (events : List (Event Answer))
    (result : Except Panic Unit)
    (hruns : path.program.run.Runs events result) :
    (∀ e ∈ events, Targeted e.question) ↔ path.SingleTargets := by
  cases path with
  | killByIdentity id signal =>
      have hspares : Spares (Teardown.killByIdentity id signal).program :=
        (killByIdentity_spares id signal).bind fun _ => Spares.pure _
      exact ⟨fun _ => trivial, fun _ => targeted_of_spares hspares hruns⟩
  | checkOrSignal pid id signal =>
      have hspares : Spares (Teardown.checkOrSignal pid id signal).program :=
        (checkOrSignal_spares pid id signal).bind fun _ => Spares.pure _
      exact ⟨fun _ => trivial, fun _ => targeted_of_spares hspares hruns⟩
  | signalGroup platform pgid signal =>
      constructor
      · rintro htargeted rfl
        obtain ⟨answer, rest, hevents⟩ :=
          signalGroup_one platform signal hruns
        have hfirst : Targeted (.killpg 1 signal) :=
          htargeted ⟨.killpg 1 signal, answer⟩
            (hevents ▸ List.mem_cons_self)
        exact hfirst.2 rfl
      · intro hpgid
        have hspares :
            Spares (Teardown.signalGroup platform pgid signal).program :=
          (signalGroup_spares platform hpgid signal).bind
            fun _ => Spares.pure _
        exact targeted_of_spares hspares hruns
  | terminateLeaf procs =>
      cases procs with
      | error e =>
          have hspares :
              Spares (Teardown.terminateLeaf (.error e)).program :=
            (Spares.pure _).bind fun _ => Spares.pure _
          exact ⟨fun _ => trivial, fun _ => targeted_of_spares hspares hruns⟩
      | ok content => exact leaf_targeted_iff content hruns

def groupRun : List (Event Answer) :=
  [⟨.killpg 7 .sigkill, .ok ()⟩, ⟨.members 7, .ok []⟩]

theorem groupRun_runs :
    (Teardown.signalGroup .linux 7 .sigkill).program.run.Runs groupRun
      (.ok ()) := by
  unfold groupRun
  repeat' apply Prog.Runs.ask
  exact Prog.Runs.done _

theorem teardown_targeted_group :
    (Teardown.signalGroup .linux 7 .sigkill).SingleTargets ∧
      ∀ e ∈ groupRun, Targeted e.question := by
  have hgroup : (Teardown.signalGroup .linux 7 .sigkill).SingleTargets :=
    show (7 : Int32) ≠ 1 by decide
  exact ⟨hgroup, (teardown_targeted_iff (.signalGroup .linux 7 .sigkill)
    groupRun (.ok ()) groupRun_runs).mpr hgroup⟩

/-- A member outside the pid namespace makes `terminate` signal the caller's
own group, and group 1 makes `kill_group` signal everything. -/
theorem teardown_broadcasts :
    ((Teardown.terminateLeaf (.ok "0\n")).program.run.Runs
        [⟨.kill 0 (some .sigterm), .ok ()⟩] (.ok ()) ∧
      ¬ Targeted (.kill 0 (some .sigterm))) ∧
    ((Teardown.signalGroup .linux 1 .sigkill).program.run.Runs
        [⟨.killpg 1 .sigkill, .ok ()⟩, ⟨.members 1, .ok []⟩] (.ok ()) ∧
      ¬ Targeted (.killpg 1 .sigkill)) := by
  constructor
  · constructor
    · repeat' apply Prog.Runs.ask
      exact Prog.Runs.done _
    · exact (show ¬ (0 : Int32) < 0 by decide)
  · constructor
    · repeat' apply Prog.Runs.ask
      exact Prog.Runs.done _
    · intro h
      exact h.2 rfl

end Cosca.Ports.NoBroadcast
