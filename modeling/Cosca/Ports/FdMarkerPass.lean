import Cosca.Ports.FdMarkerChannels

/-!
# One pass of the fd-marker sweep

What the channels have found, the pass attempts, each identity once.

## Main results

* `sweepPass_spec`: the invariant across a pass, and what the pass's own
  return value says about the identities it added.
* `sweepPass_events`: a pass is its snapshot and questions about the marker's
  own root, handle and group.
-/

namespace Cosca.Ports.FdMarkerPass

open Cosca.Ports.Identity
open Cosca.Ports.TreeWalk
open Cosca.Ports.FdMarker
open Cosca.Verified.Interact

section

variable {m : Marker} {sup : Supervisor}

/-! ## The attempts of a pass -/

/-- A pass that found `all` still has to attempt `todo`. -/
structure Killing (m : Marker) (sup : Supervisor)
    (base all todo : List ProcessId) (acc : Bool × Sweep)
    (t : List SweepEvent) : Prop where
  inv : SweepInv m sup todo acc.2 t
  seen : acc.2.seen = base ++ all
  denied : acc.2.incomplete = false → m.rootDenied = false
  rooted : ∀ root, m.root = some root → root ∈ acc.2.seen
  /-- Without progress every attempt so far left a gap. -/
  stalled : acc.1 = false → acc.2.incomplete = false → todo = all

/-- One attempt, made of the events `es`. -/
theorem Killing.attempt {base all todo : List ProcessId} {id : ProcessId}
    {acc : Bool × Sweep} {t : List SweepEvent}
    (h : Killing m sup base all (id :: todo) acc t) (es : List SweepEvent)
    (stuck : Bool) (hattempts : attempts es = [id]) (hfound : found es = [])
    (hclean : stuck = false → ∀ e ∈ es, Clean e)
    (hgroup : ∀ e ∈ es, GroupOk e) (haimed : ∀ e ∈ es, Aimed sup e)
    (hheld : ∀ id handle, ⟨.holdsMarker id handle, .held⟩ ∈ es →
      id ∈ kills es)
    (hkilled : ∀ x ∈ kills es, x ∈ [id]) (hkills : (kills es).Nodup) :
    Killing m sup base all todo (settle acc stuck) (t ++ es) := by
  have hseen : (settle acc stuck).2.seen = acc.2.seen := by
    cases stuck <;> rfl
  have hresult : (settle acc stuck).2.groupResult = acc.2.groupResult := by
    cases stuck <;> rfl
  have hincomplete : (settle acc stuck).2.incomplete = false →
      stuck = false ∧ acc.2.incomplete = false := by
    intro hi
    cases stuck with
    | true => simp [settle, Sweep.markIncomplete] at hi
    | false => exact ⟨rfl, hi⟩
  have hinv : SweepInv m sup (todo ++ []) (settle acc stuck).2 (t ++ es) := by
    apply SweepInv.extend [id] h.inv es [] hattempts
    · rw [hseen, List.append_nil]
    · rw [hseen]
      exact h.inv.nodup
    · intro x hx
      rw [hfound] at hx
      cases hx
    · intro x hx
      cases hx
    · intro hi
      obtain ⟨hstuck, hold⟩ := hincomplete hi
      exact ⟨hold, hclean hstuck⟩
    · intro hr
      rw [hresult] at hr
      exact ⟨hr, hgroup⟩
    · exact haimed
    · exact hheld
    · exact hkilled
    · exact hkills
  rw [List.append_nil] at hinv
  refine
    { inv := hinv
      seen := hseen.trans h.seen
      denied := fun hi => h.denied (hincomplete hi).2
      rooted := fun root hr => hseen ▸ h.rooted root hr
      stalled := ?_ }
  intro hprogress hi
  rw [(hincomplete hi).1] at hprogress
  cases hprogress

theorem walkKill_spec {base all todo : List ProcessId} {id : ProcessId}
    {acc : Bool × Sweep} {t : List SweepEvent}
    (h : Killing m sup base all (id :: todo) acc t) (signal : Signal) :
    (walkKill signal acc id).Ensures t (Killing m sup base all todo) := by
  intro outcome
  apply h.attempt [⟨.killByIdentity .walk id signal, outcome⟩]
  · rfl
  · rfl
  · intro hstuck
    simpa [Clean] using hstuck
  · simp [GroupOk]
  · simp [Aimed]
  · simp
  · simp [kills, killBy]
  · simp [kills, killBy]

theorem holderKill_spec {base all todo : List ProcessId} {id : ProcessId}
    {acc : Bool × Sweep} {t : List SweepEvent}
    (h : Killing m sup base all (id :: todo) acc t)
    (hid : isSignalable sup id.pid = true) (signal : Signal) :
    (m.holderKill signal acc id).Ensures t
      (Killing m sup base all todo) := by
  intro holds
  cases holds with
  | notHeld =>
      apply h.attempt [⟨.holdsMarker id m.handle, .notHeld⟩] false
      · rfl
      · rfl
      · simp [Clean]
      · simp [GroupOk]
      · simpa [Aimed] using hid
      · simp
      · simp [kills, killBy]
      · simp [kills, killBy]
  | denied =>
      apply h.attempt [⟨.holdsMarker id m.handle, .denied⟩] true
      · rfl
      · rfl
      · simp
      · simp [GroupOk]
      · simpa [Aimed] using hid
      · simp
      · simp [kills, killBy]
      · simp [kills, killBy]
  | held =>
      intro outcome
      have hattempt := h.attempt
        [⟨.holdsMarker id m.handle, .held⟩,
          ⟨.killByIdentity .holder id signal, outcome⟩]
        (outcome == .notAttempted) rfl rfl ?_ ?_ ?_ ?_ ?_ ?_
      · rw [List.append_assoc]
        exact hattempt
      · intro hstuck
        simpa [Clean] using hstuck
      · simp [GroupOk]
      · simpa [Aimed] using hid
      · simp [kills, killBy]
      · simp [kills, killBy]
      · simp [kills, killBy]

/-- The attempts of a pass, one after the other. -/
theorem killNew_spec {base newWalk newHolders : List ProcessId} {s : Sweep}
    {t : List SweepEvent}
    (h : Discovered m sup base (newWalk ++ newHolders) s t)
    (hsignalable : ∀ id ∈ newHolders, isSignalable sup id.pid = true)
    (signal : Signal) :
    Prog.Ensures (newWalk.foldlM (walkKill signal) (false, s) >>=
        newHolders.foldlM (m.holderKill signal)) t
      (Killing m sup base (newWalk ++ newHolders) []) := by
  have hstart : Killing m sup base (newWalk ++ newHolders)
      (newWalk ++ newHolders) (false, s) t :=
    { inv := h.inv
      seen := h.seen
      denied := h.denied
      rooted := h.rooted
      stalled := fun _ _ => rfl }
  have hwalk := Prog.Ensures.foldlM
    (fun todo => Killing m sup base (newWalk ++ newHolders)
      (todo ++ newHolders))
    (fun _ _ _ _ hk => walkKill_spec hk signal) newWalk hstart
  apply Prog.Ensures.bind hwalk
  intro acc t' hk
  rw [List.nil_append] at hk
  have hstep : ∀ (id : ProcessId) todo acc t,
      (∀ x ∈ id :: todo, isSignalable sup x.pid = true) ∧
        Killing m sup base (newWalk ++ newHolders) (id :: todo) acc t →
      (m.holderKill signal acc id).Ensures t fun acc' t' =>
        (∀ x ∈ todo, isSignalable sup x.pid = true) ∧
          Killing m sup base (newWalk ++ newHolders) todo acc' t' := by
    intro id todo acc t ⟨htodo, hk⟩
    apply (holderKill_spec hk (htodo id List.mem_cons_self) signal).mono
    intro acc' t' hk'
    exact ⟨fun x hx => htodo x (List.mem_cons_of_mem _ hx), hk'⟩
  have hholders := Prog.Ensures.foldlM
    (fun todo acc t => (∀ x ∈ todo, isSignalable sup x.pid = true) ∧
      Killing m sup base (newWalk ++ newHolders) todo acc t)
    hstep newHolders ⟨hsignalable, hk⟩
  exact hholders.mono fun _ _ hend => hend.2

/-! ## A pass -/

/-- What a pass that began with the set `base` leaves behind. -/
structure Passed (m : Marker) (sup : Supervisor) (base : List ProcessId)
    (r : Bool × Sweep) (t : List SweepEvent) : Prop where
  inv : SweepInv m sup [] r.2 t
  grown : ∃ new, r.2.seen = base ++ new ∧ (r.1 = true → new ≠ []) ∧
    (r.1 = false → r.2.incomplete = false → new = [])
  denied : r.2.incomplete = false → m.rootDenied = false
  rooted : ∀ root, m.root = some root → root ∈ r.2.seen

/-- Holders found, in the order of the scan. -/
theorem visitHolders_spec {base newWalk : List ProcessId} {s : Sweep}
    {t : List SweepEvent} (h : Discovered m sup base newWalk s t)
    (holders : List RawPid) :
    Prog.Ensures (holders.foldlM (holderVisit sup) ([], s)) t fun r t' =>
      Discovered m sup base (newWalk ++ r.1) r.2 t' ∧
        ∀ id ∈ r.1, isSignalable sup id.pid = true := by
  apply Prog.Ensures.foldlM
    (fun (_ : List RawPid) (acc : List ProcessId × Sweep) t =>
      Discovered m sup base (newWalk ++ acc.1) acc.2 t ∧
        ∀ id ∈ acc.1, isSignalable sup id.pid = true)
  · intro pid _ acc t ⟨hfound, hsignalable⟩
    exact holderVisit_spec hfound hsignalable pid
  · exact ⟨by simpa using h, by simp⟩

theorem scanHolders_spec {base new : List ProcessId} {s : Sweep}
    {t : List SweepEvent} (h : Discovered m sup base new s t) (blind : Bool)
    (pids : List RawPid) :
    (m.scanHolders blind pids).Ensures t fun _ t' =>
      Discovered m sup base new s t' := by
  unfold Marker.scanHolders
  split
  · exact h
  · intro holders
    exact h.neutral ⟨.holders m.handle pids, holders⟩ rfl rfl rfl trivial
      trivial

/-- A pass whose variables were `s` before its snapshot. -/
theorem sweepPass_spec {s : Sweep} {t : List SweepEvent}
    (h : SweepInv m sup [] s t) (signal : Signal) (firstPass : Bool) :
    (m.sweepPass sup signal firstPass s).Ensures t
      (Passed m sup s.seen) := by
  unfold Marker.sweepPass
  intro snapshot
  obtain ⟨pids, parents⟩ := snapshot
  dsimp only
  have hsnapshot := h.snapshot (m := m) (pids, parents)
  have hdenied : ((s.markIncomplete pids.isEmpty).markIncomplete
      m.rootDenied).incomplete = false → m.rootDenied = false := by
    intro hincomplete
    simp only [Sweep.markIncomplete, Bool.or_eq_false_iff] at hincomplete
    exact hincomplete.2
  apply Prog.Ensures.bind
    (walkChannel_spec hsnapshot hdenied pids.isEmpty parents)
  rintro ⟨newWalk, s₁⟩ t₁ h₁
  apply Prog.Ensures.bind (scanHolders_spec h₁ pids.isEmpty pids)
  intro holders t₂ h₂
  apply Prog.Ensures.bind (visitHolders_spec h₂ holders)
  rintro ⟨newHolders, s₃⟩ t₃ ⟨h₃, hsignalable⟩
  apply Prog.Ensures.bind
    (groupChannel_spec h₃ signal pids.isEmpty firstPass holders)
  intro s₄ t₄ h₄
  by_cases hnew : newWalk ++ newHolders = []
  · obtain ⟨hwalk, hholders⟩ := List.append_eq_nil_iff.mp hnew
    subst hwalk hholders
    show Passed m sup s.seen (false, s₄) t₄
    exact
      { inv := h₄.inv
        grown := ⟨[], h₄.seen, by simp, by simp⟩
        denied := h₄.denied
        rooted := h₄.rooted }
  · rw [if_neg (by simpa using hnew)]
    apply (killNew_spec h₄ hsignalable signal).mono
    intro acc t₅ h₅
    have hstalled : acc.1 = false → acc.2.incomplete = false →
        newWalk ++ newHolders = [] :=
      fun hprogress hincomplete => (h₅.stalled hprogress hincomplete).symm
    exact
      { inv := h₅.inv
        grown := ⟨newWalk ++ newHolders, h₅.seen, fun _ => hnew, hstalled⟩
        denied := h₅.denied
        rooted := h₅.rooted }

/-! ## Passes in the events -/

/-- The questions of a pass after its snapshot: they are about the marker's
own root, handle and group, and send the signal of the sweep. -/
def InPass (m : Marker) (signal : Signal) : Question → Prop
  | .readEnd => False
  | .snapshot => False
  | .walk root _ => m.root = some root
  | .holders handle _ => handle = m.handle
  | .identity _ => True
  | .getpgid _ => True
  | .signalGroup pgid sent => m.pgid = some pgid ∧ sent = signal
  | .holdsMarker _ handle => handle = m.handle
  | .killByIdentity _ _ sent => sent = signal

variable {signal : Signal}

theorem walkChannel_asks (blind : Bool) (parents : List Edge) (s : Sweep) :
    (m.walkChannel blind parents s).Asks (InPass m signal) := by
  unfold Marker.walkChannel
  cases hroot : m.root with
  | none => exact Prog.Asks.pure _
  | some root =>
      cases blind with
      | true => trivial
      | false => exact ⟨hroot, fun _ => trivial⟩

theorem scanHolders_asks (blind : Bool) (pids : List RawPid) :
    (m.scanHolders blind pids).Asks (InPass m signal) := by
  cases blind with
  | true => trivial
  | false => exact Prog.Asks.query rfl

theorem holderVisit_asks (acc : List ProcessId × Sweep) (pid : RawPid) :
    (holderVisit sup acc pid).Asks (InPass m signal) := by
  obtain ⟨new, s⟩ := acc
  unfold holderVisit
  dsimp only
  split
  · trivial
  · constructor
    · trivial
    · intro start
      cases start <;> trivial

theorem anyLiveGroupMember_asks (pgid : Int32) (holders : List RawPid) :
    (anyLiveGroupMember sup pgid holders).Asks (InPass m signal) := by
  induction holders with
  | nil => trivial
  | cons pid rest ih =>
      unfold anyLiveGroupMember
      split
      · exact ih
      · refine ⟨trivial, ?_⟩
        intro group
        show Prog.Asks (InPass m signal) (if group == some pgid then pure true
          else anyLiveGroupMember sup pgid rest)
        split
        · trivial
        · exact ih

theorem confirmsPgid_asks (blind : Bool) (holders : List RawPid) :
    (m.confirmsPgid sup blind holders).Asks (InPass m signal) := by
  unfold Marker.confirmsPgid
  split
  · trivial
  · split
    · trivial
    · exact anyLiveGroupMember_asks _ holders

theorem groupChannel_asks (blind firstPass : Bool) (holders : List RawPid)
    (s : Sweep) :
    (m.groupChannel sup signal blind firstPass holders s).Asks
      (InPass m signal) := by
  unfold Marker.groupChannel
  apply (confirmsPgid_asks blind holders).bind
  intro confirmed
  split
  · unfold Marker.signalOwnGroup
    cases hpgid : m.pgid with
    | none => trivial
    | some pgid => exact ⟨⟨hpgid, rfl⟩, fun _ => trivial⟩
  · trivial

theorem walkKill_asks (acc : Bool × Sweep) (id : ProcessId) :
    (walkKill signal acc id).Asks (InPass m signal) :=
  ⟨rfl, fun _ => trivial⟩

theorem holderKill_asks (acc : Bool × Sweep) (id : ProcessId) :
    (m.holderKill signal acc id).Asks (InPass m signal) := by
  refine ⟨rfl, ?_⟩
  intro holds
  cases holds with
  | notHeld => trivial
  | denied => trivial
  | held => exact ⟨rfl, fun _ => trivial⟩

/-- A pass is its snapshot and events that are none. -/
theorem sweepPass_events (firstPass : Bool) (s : Sweep) (t : List SweepEvent) :
    (m.sweepPass sup signal firstPass s).Ensures t fun _ t' =>
      ∃ answer last, t' = t ++ ⟨.snapshot, answer⟩ :: last ∧
        ∀ e ∈ last, InPass m signal e.question := by
  unfold Marker.sweepPass
  intro snapshot
  obtain ⟨pids, parents⟩ := snapshot
  refine Prog.Ensures.mono
    (@Prog.Asks.ensures _ _ _ (InPass m signal) _ ?_ _) ?_
  · apply (walkChannel_asks _ _ _).bind
    intro ⟨newWalk, s₁⟩
    apply (scanHolders_asks _ _).bind
    intro holders
    apply (Prog.Asks.foldlM holderVisit_asks holders _).bind
    intro ⟨newHolders, s₃⟩
    apply (groupChannel_asks _ _ _ _).bind
    intro s₄
    split
    · trivial
    · apply (Prog.Asks.foldlM walkKill_asks newWalk _).bind
      intro acc
      exact Prog.Asks.foldlM holderKill_asks newHolders acc
  · rintro r t' ⟨last, ht', hlast⟩
    refine ⟨(pids, parents), last, ?_, hlast⟩
    rw [ht', List.append_assoc]
    rfl

end

end Cosca.Ports.FdMarkerPass


