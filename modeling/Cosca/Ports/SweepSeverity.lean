import Cosca.Ports.FdMarkerSweep

/-!
# The severity of a sweep's errors

A sweep folds the results of its passes' group signals and ends with
`finish_sweep`.  Two errors are merged into one of another variant, and the
merged one is a failure of the teardown mechanism exactly where one of the two
was: neither the order of the passes nor an ordinary refusal changes the
classification.

## Main results

* `sweep_severity`: when the result is `Ok` and when its error is a failure of
  the mechanism, for every sequence of results and in every sweep.
-/

namespace Cosca.Ports.SweepSeverity

open Cosca.Ports.Errors
open Cosca.Ports.Identity
open Cosca.Ports.TreeWalk
open Cosca.Ports.FdMarker
open Cosca.Ports.FdMarkerPass
open Cosca.Ports.FdMarkerSweep
open Cosca.Verified.Interact

/-! ## The fold -/

/-- The result is an error of the teardown mechanism itself. -/
def MechanismFailure (r : Except Error Unit) : Prop :=
  ∃ e, r = .error e ∧ e.isTeardownMechanismFailure = true

theorem mechanismFailure_error (e : Error) :
    MechanismFailure (.error e) ↔ e.isTeardownMechanismFailure = true := by
  constructor
  · rintro ⟨e', he, hfailure⟩
    rw [Except.error.inj he]
    exact hfailure
  · intro h
    exact ⟨e, rfl, h⟩

theorem not_mechanismFailure_ok (u : Unit) : ¬MechanismFailure (.ok u) := by
  rintro ⟨e, he, _⟩
  exact nomatch he

section

variable (sup : Supervisor)

/-- The variant of a merged error keeps the classification. -/
theorem combineGroupErrors_failure (first latest : Error) :
    (combineGroupErrors sup first latest).isTeardownMechanismFailure =
      (first.isTeardownMechanismFailure ||
        latest.isTeardownMechanismFailure) := by
  unfold combineGroupErrors
  cases h : first.isTeardownMechanismFailure ||
      latest.isTeardownMechanismFailure with
  | false => rfl
  | true => rfl

theorem foldGroupResult_ok_iff (earlier latest : Except Error Unit) :
    foldGroupResult sup earlier latest = .ok () ↔
      earlier = .ok () ∧ latest = .ok () := by
  constructor
  · exact foldGroupResult_ok
  · rintro ⟨rfl, rfl⟩
    rfl

theorem foldGroupResult_failure_iff (earlier latest : Except Error Unit) :
    MechanismFailure (foldGroupResult sup earlier latest) ↔
      MechanismFailure earlier ∨ MechanismFailure latest := by
  cases earlier with
  | ok _ =>
      show MechanismFailure latest ↔ _
      simp [not_mechanismFailure_ok]
  | error first =>
      cases latest with
      | ok _ =>
          show MechanismFailure (.error first) ↔ _
          simp [not_mechanismFailure_ok]
      | error latest =>
          show MechanismFailure (.error _) ↔ _
          simp only [mechanismFailure_error, combineGroupErrors_failure,
            Bool.or_eq_true]

/-- The results of the passes, folded. -/
def groupResultOf (results : List (Except Error Unit)) : Except Error Unit :=
  results.foldl (foldGroupResult sup) (.ok ())

theorem foldl_ok_iff (results : List (Except Error Unit)) :
    ∀ earlier, results.foldl (foldGroupResult sup) earlier = .ok () ↔
      earlier = .ok () ∧ ∀ r ∈ results, r = .ok () := by
  induction results with
  | nil =>
      intro earlier
      simp
  | cons r results ih =>
      intro earlier
      rw [List.foldl_cons, ih, foldGroupResult_ok_iff]
      simp only [List.forall_mem_cons, and_assoc]

theorem foldl_failure_iff (results : List (Except Error Unit)) :
    ∀ earlier,
      MechanismFailure (results.foldl (foldGroupResult sup) earlier) ↔
        MechanismFailure earlier ∨ ∃ r ∈ results, MechanismFailure r := by
  induction results with
  | nil =>
      intro earlier
      simp
  | cons r results ih =>
      intro earlier
      rw [List.foldl_cons, ih, foldGroupResult_failure_iff]
      simp only [List.mem_cons, exists_eq_or_imp, or_assoc]

/-- `finish_sweep` adds an error that is none of the mechanism. -/
theorem finishSweep_failure_iff (handle : UInt64)
    (groupResult : Except Error Unit) (incomplete : Bool) :
    MechanismFailure (finishSweep sup handle groupResult incomplete) ↔
      MechanismFailure groupResult := by
  cases incomplete with
  | false => rfl
  | true =>
      cases groupResult with
      | ok _ =>
          show MechanismFailure (.error _) ↔ _
          rw [mechanismFailure_error]
          simp [not_mechanismFailure_ok, Error.isTeardownMechanismFailure]
      | error e =>
          show MechanismFailure (.error (combineGroupErrors sup _ e)) ↔ _
          rw [mechanismFailure_error, mechanismFailure_error,
            combineGroupErrors_failure]
          simp [Error.isTeardownMechanismFailure]

/-- The result of a sweep whose passes returned the results. -/
def sweepResult (handle : UInt64) (results : List (Except Error Unit))
    (incomplete : Bool) : Except Error Unit :=
  finishSweep sup handle (groupResultOf sup results) incomplete

theorem sweepResult_ok_iff (handle : UInt64)
    (results : List (Except Error Unit)) (incomplete : Bool) :
    sweepResult sup handle results incomplete = .ok () ↔
      (∀ r ∈ results, r = .ok ()) ∧ incomplete = false := by
  unfold sweepResult groupResultOf
  rw [finishSweep_ok_iff, foldl_ok_iff]
  simp

theorem sweepResult_failure_iff (handle : UInt64)
    (results : List (Except Error Unit)) (incomplete : Bool) :
    MechanismFailure (sweepResult sup handle results incomplete) ↔
      ∃ r ∈ results, MechanismFailure r := by
  unfold sweepResult groupResultOf
  rw [finishSweep_failure_iff, foldl_failure_iff]
  simp [not_mechanismFailure_ok]

end

/-! ## Sweeps -/

/-- The result of a group signal. -/
def groupResult? : SweepEvent → Option (Except Error Unit)
  | ⟨.signalGroup .., r⟩ => some r
  | _ => none

/-- The results of a sweep's group signals, pass after pass. -/
def groupResults (events : List SweepEvent) : List (Except Error Unit) :=
  events.filterMap groupResult?

/-- The sweep holds the folded results of its group signals. -/
def Tallied (sup : Supervisor) (s : Sweep) (t : List SweepEvent) : Prop :=
  s.groupResult = groupResultOf sup (groupResults t)

section

variable {m : Marker} {sup : Supervisor} {signal : Signal} {s : Sweep}
  {t : List SweepEvent}

/-- A question that signals no group. -/
theorem Tallied.quiet (h : Tallied sup s t) (e : SweepEvent)
    (he : groupResult? e = none) : Tallied sup s (t ++ [e]) := by
  unfold Tallied groupResults
  rw [List.filterMap_append, List.filterMap_cons_none he, List.filterMap_nil,
    List.append_nil]
  exact h

theorem Tallied.signalled (h : Tallied sup s t) (pgid : Int32)
    (signal : Signal) (r : Except Error Unit) :
    Tallied sup
      { s with groupResult := foldGroupResult sup s.groupResult r }
      (t ++ [⟨.signalGroup pgid signal, r⟩]) := by
  have hlast : groupResults (t ++ [⟨.signalGroup pgid signal, r⟩]) =
      groupResults t ++ [r] := by
    unfold groupResults
    rw [List.filterMap_append]
    rfl
  unfold Tallied groupResultOf
  rw [hlast, List.foldl_append]
  exact congrArg (fun earlier => foldGroupResult sup earlier r) h

theorem walkChannel_tallied (h : Tallied sup s t) (blind : Bool)
    (parents : List Edge) :
    (m.walkChannel blind parents s).Ensures t fun r t' =>
      Tallied sup r.2 t' := by
  unfold Marker.walkChannel
  cases m.root with
  | none => exact h
  | some root =>
      cases blind with
      | true => exact h
      | false =>
          intro start
          exact h.quiet _ rfl

theorem scanHolders_tallied (h : Tallied sup s t) (blind : Bool)
    (pids : List RawPid) :
    (m.scanHolders blind pids).Ensures t fun _ t' => Tallied sup s t' := by
  unfold Marker.scanHolders
  cases blind with
  | true => exact h
  | false =>
      intro holders
      exact h.quiet _ rfl

theorem holderVisit_tallied {acc : List ProcessId × Sweep}
    (h : Tallied sup acc.2 t) (pid : RawPid) :
    (holderVisit sup acc pid).Ensures t fun r t' => Tallied sup r.2 t' := by
  obtain ⟨new, s⟩ := acc
  show Prog.Ensures (if _ then _ else _) t _
  split
  · exact h
  · intro start
    cases start with
    | gone => exact h.quiet _ rfl
    | unknown => exact h.quiet _ rfl
    | found start => exact h.quiet _ rfl

theorem anyLiveGroupMember_tallied (pgid : Int32) (holders : List RawPid) :
    ∀ {t}, Tallied sup s t → (anyLiveGroupMember sup pgid holders).Ensures t
      fun _ t' => Tallied sup s t' := by
  induction holders with
  | nil =>
      intro t h
      exact h
  | cons pid holders ih =>
      intro t h
      unfold anyLiveGroupMember
      split
      · exact ih h
      · intro group
        show Prog.Ensures (if _ then _ else _) _ _
        split
        · exact h.quiet _ rfl
        · exact ih (h.quiet _ rfl)

theorem groupChannel_tallied (h : Tallied sup s t) (blind firstPass : Bool)
    (holders : List RawPid) :
    (m.groupChannel sup signal blind firstPass holders s).Ensures t
      (Tallied sup) := by
  have hconfirms : (m.confirmsPgid sup blind holders).Ensures t
      fun _ t' => Tallied sup s t' := by
    unfold Marker.confirmsPgid
    split
    · exact h
    · split
      · exact h
      · exact anyLiveGroupMember_tallied _ holders h
  unfold Marker.groupChannel
  apply Prog.Ensures.bind hconfirms
  intro confirmed t' h'
  split
  · unfold Marker.signalOwnGroup
    cases m.pgid with
    | none =>
        have hsame : foldGroupResult sup s.groupResult (.ok ()) =
            s.groupResult := by
          cases s.groupResult <;> rfl
        show foldGroupResult sup s.groupResult (.ok ()) = _
        rw [hsame]
        exact h'
    | some pgid =>
        intro result
        exact h'.signalled pgid signal result
  · exact h'

theorem settle_tallied {acc : Bool × Sweep} (h : Tallied sup acc.2 t)
    (stuck : Bool) : Tallied sup (settle acc stuck).2 t := by
  cases stuck <;> exact h

theorem walkKill_tallied {acc : Bool × Sweep} (h : Tallied sup acc.2 t)
    (id : ProcessId) :
    (walkKill signal acc id).Ensures t fun r t' => Tallied sup r.2 t' := by
  intro outcome
  exact settle_tallied (h.quiet _ rfl) _

theorem holderKill_tallied {acc : Bool × Sweep} (h : Tallied sup acc.2 t)
    (id : ProcessId) :
    (m.holderKill signal acc id).Ensures t
      fun r t' => Tallied sup r.2 t' := by
  intro holds
  cases holds with
  | notHeld => exact settle_tallied (h.quiet _ rfl) _
  | denied => exact settle_tallied (h.quiet _ rfl) _
  | held =>
      intro outcome
      exact settle_tallied ((h.quiet _ rfl).quiet _ rfl) _

/-- One pass. -/
theorem sweepPass_tallied (h : Tallied sup s t) (firstPass : Bool) :
    (m.sweepPass sup signal firstPass s).Ensures t
      fun r t' => Tallied sup r.2 t' := by
  intro snapshot
  obtain ⟨pids, parents⟩ := snapshot
  have hstart : Tallied sup
      ((s.markIncomplete pids.isEmpty).markIncomplete m.rootDenied)
      (t ++ [⟨.snapshot, (pids, parents)⟩]) := h.quiet _ rfl
  apply Prog.Ensures.bind (walkChannel_tallied hstart pids.isEmpty parents)
  rintro ⟨newWalk, s₁⟩ t₁ h₁
  apply Prog.Ensures.bind (scanHolders_tallied h₁ pids.isEmpty pids)
  intro holders t₂ h₂
  apply Prog.Ensures.bind (Prog.Ensures.foldlM
    (fun _ acc t' => Tallied sup acc.2 t')
    (fun pid _ acc t' h' => holderVisit_tallied h' pid) holders h₂)
  rintro ⟨newHolders, s₃⟩ t₃ h₃
  apply Prog.Ensures.bind
    (groupChannel_tallied h₃ pids.isEmpty firstPass holders)
  intro s₄ t₄ h₄
  show Prog.Ensures (if _ then _ else _) t₄ _
  split
  · exact h₄
  · have hwalk : Tallied sup ((false, s₄) : Bool × Sweep).2 t₄ := h₄
    apply Prog.Ensures.bind (Prog.Ensures.foldlM
      (fun _ (acc : Bool × Sweep) t' => Tallied sup acc.2 t')
      (fun id _ acc t' h' => walkKill_tallied h' id) newWalk hwalk)
    intro acc t₅ h₅
    exact Prog.Ensures.foldlM
      (fun _ (acc : Bool × Sweep) t' => Tallied sup acc.2 t')
      (fun id _ acc t' h' => holderKill_tallied h' id) newHolders h₅

/-- One round of the loop. -/
theorem sweepRound_tallied {v : Bool × Sweep} {t : List SweepEvent}
    (hv : Tallied sup v.2 t) :
    Prog.Ensures (do
      let (progressed, s) ← m.sweepPass sup .sigkill v.1 v.2
      return (progressed, (false, s))) t fun (again, v') t' =>
        if again then Tallied sup v'.2 t' else Tallied sup v'.2 t' := by
  apply Prog.Ensures.bind (sweepPass_tallied hv v.1)
  rintro ⟨again, s'⟩ t' h'
  cases again <;> exact h'

/-- All passes of `hard_kill`. -/
theorem sweepLoop_tallied (h : Tallied sup Sweep.start t) (fuel : Nat) :
    (m.sweepLoop sup fuel).Ensures t fun r t' => ∀ firstPass s,
      r = some (firstPass, s) → Tallied sup s t' := by
  have hloop : Prog.Ensures (m.sweepLoop sup fuel) t _ :=
    @Prog.Ensures.loop _ _ _ _ (fun _ v => Tallied sup v.2)
      (fun _ v => Tallied sup v.2) (fun _ _ _ hv => sweepRound_tallied hv)
      fuel 0 (true, Sweep.start) t h
  apply hloop.mono
  intro r t' hr firstPass s heq
  subst heq
  obtain ⟨_, _, _, hs⟩ := hr
  exact hs

/-- How the result of a sweep comes about: the read end was stale and nothing
was signalled, or the results of the passes were folded and finished. -/
def Folded (m : Marker) (sup : Supervisor) (result : Except Error Unit)
    (t : List SweepEvent) : Prop :=
  (∃ info e, info ≠ some m.readHandle ∧ t = [⟨.readEnd, info⟩] ∧
    result = .error e) ∨
  ∃ rest incomplete, t = ⟨.readEnd, some m.readHandle⟩ :: rest ∧
    result = sweepResult sup m.handle (groupResults t) incomplete

theorem checkReadEnd_ensures :
    m.checkReadEndStillValid.Ensures [] fun r t =>
      (∃ info e, info ≠ some m.readHandle ∧ t = [⟨.readEnd, info⟩] ∧
        r = .error e) ∨
      t = [⟨.readEnd, some m.readHandle⟩] ∧ r = .ok () := by
  intro info
  show Prog.Ensures (if _ then _ else _) _ _
  split
  · next hvalid =>
      rw [eq_of_beq hvalid]
      exact Or.inr ⟨rfl, rfl⟩
  · next hstale => exact Or.inl ⟨info, _, by simpa using hstale, rfl, rfl⟩

/-- What is asked after the check stands after the check. -/
theorem after_check {α : Type} {p : Sweeping α}
    {post : α → List SweepEvent → Prop}
    (h : p.Ensures [⟨.readEnd, some m.readHandle⟩] post) :
    p.Ensures [⟨.readEnd, some m.readHandle⟩] fun r t => post r t ∧
      ∃ rest, t = ⟨.readEnd, some m.readHandle⟩ :: rest := by
  apply (h.and (Prog.ensures_runs p _)).mono
  rintro r t ⟨hpost, new, ht, _⟩
  exact ⟨hpost, new, ht⟩

theorem hardKill_folded (fuel : Nat) :
    (m.hardKill sup fuel).Ensures [] fun r t => ∀ result,
      r = some result → Folded m sup result t := by
  unfold Marker.hardKill
  apply Prog.Ensures.bind checkReadEnd_ensures
  rintro r t (⟨info, e, hstale, rfl, rfl⟩ | ⟨rfl, rfl⟩)
  · rintro result heq
    rw [← Option.some.inj heq]
    exact Or.inl ⟨info, e, hstale, rfl, rfl⟩
  · have hstart : Tallied sup Sweep.start
        [⟨.readEnd, some m.readHandle⟩] := rfl
    apply Prog.Ensures.bind (after_check (sweepLoop_tallied hstart fuel))
    rintro swept t ⟨hswept, rest, rfl⟩
    cases swept with
    | none => exact nofun
    | some v =>
        rintro result heq
        rw [← Option.some.inj heq]
        have hs := hswept v.1 v.2 rfl
        refine Or.inr ⟨rest, v.2.incomplete, rfl, ?_⟩
        show finishSweep sup m.handle v.2.groupResult v.2.incomplete = _
        rw [show v.2.groupResult = _ from hs]
        rfl

theorem terminate_folded :
    (m.terminate sup).Ensures [] (Folded m sup) := by
  unfold Marker.terminate
  apply Prog.Ensures.bind checkReadEnd_ensures
  rintro r t (⟨info, e, hstale, rfl, rfl⟩ | ⟨rfl, rfl⟩)
  · exact Or.inl ⟨info, e, hstale, rfl, rfl⟩
  · have hstart : Tallied sup Sweep.start
        [⟨.readEnd, some m.readHandle⟩] := rfl
    apply Prog.Ensures.bind
      (after_check (sweepPass_tallied hstart true))
    rintro ⟨_, s⟩ t ⟨hs, rest, rfl⟩
    refine Or.inr ⟨rest, s.incomplete, rfl, ?_⟩
    show finishSweep sup m.handle s.groupResult s.incomplete = _
    rw [show s.groupResult = _ from hs]
    rfl

end

/-- The result of a sweep is `Ok` exactly where every pass was and nothing was
left open, and its error is one of the mechanism exactly where some pass's
was, in whatever order the passes came; the results of `hard_kill` and
`terminate` come about so from their group signals. -/
theorem sweep_severity (m : Marker) (sup : Supervisor) :
    (∀ results incomplete,
      (sweepResult sup m.handle results incomplete = .ok () ↔
        (∀ r ∈ results, r = .ok ()) ∧ incomplete = false) ∧
      (MechanismFailure (sweepResult sup m.handle results incomplete) ↔
        ∃ r ∈ results, MechanismFailure r)) ∧
    (∀ results permuted incomplete, permuted.Perm results →
      (sweepResult sup m.handle permuted incomplete = .ok () ↔
        sweepResult sup m.handle results incomplete = .ok ()) ∧
      (MechanismFailure (sweepResult sup m.handle permuted incomplete) ↔
        MechanismFailure (sweepResult sup m.handle results incomplete))) ∧
    (∀ fuel, (m.hardKill sup fuel).Ensures [] fun r t => ∀ result,
      r = some result → Folded m sup result t) ∧
    (m.terminate sup).Ensures [] (Folded m sup) := by
  refine ⟨?_, ?_, hardKill_folded, terminate_folded⟩
  · intro results incomplete
    exact ⟨sweepResult_ok_iff sup m.handle results incomplete,
      sweepResult_failure_iff sup m.handle results incomplete⟩
  · intro results permuted incomplete hperm
    rw [sweepResult_ok_iff, sweepResult_ok_iff, sweepResult_failure_iff,
      sweepResult_failure_iff]
    simp only [hperm.mem_iff, iff_self, and_self]

end Cosca.Ports.SweepSeverity
