import Cosca.Ports.StdioPasses

/-!
# The pre-pass of the async spawn

The pre-pass takes the piped std slots that a merge targets, with what merges
into them, and hands the parent its ends of them.

## Main results

* `prePass_passed`: what it has assigned, and what it leaves.
-/

namespace Cosca.Ports.AsyncStdio

open Cosca.Ports.CommandRecord
open Cosca.Ports.StdioEnds

section

variable {fds : FdTable} {done : List Fd}

/-- The pre-pass assigns the slot with the targets `done`. -/
def assigned (fds : FdTable) (done : List Fd) (slot : Fd) : Bool :=
  done.contains slot ||
    match fds.get? slot with
    | some (.merge target) => done.contains target
    | _ => false

/-- The end a merging slot gets from the targets `done`. -/
def mergerEnd (fds : FdTable) (done : List Fd) (slot : Fd) : Option ChildEnd :=
  match fds.get? slot with
  | some (.merge target) =>
      if done.contains target then soloEnd fds target else none
  | _ => none

/-- The state of the pre-pass after the targets `done`. -/
structure Passed (fds : FdTable) (done : List Fd) (state : PrePass) :
    Prop where
  fds_eq : state.fds = fds.filter fun entry => !assigned fds done entry.1
  preassigned : ∀ s, state.preassigned s =
    if done.contains s then soloEnd fds s
    else if s.raw < 3 then mergerEnd fds done s else none
  mergeFdEnds : ∀ s, state.mergeFdEnds s =
    if s.raw < 3 then none else mergerEnd fds done s
  ownedStd : ∀ s, state.ownedStd s =
    if done.contains s then soloParent fds s else none

theorem foldl_assignMerger (childEnd : ChildEnd) (slots : List Fd) :
    ∀ state : PrePass, slots.foldl (assignMerger childEnd) state =
      { state with
        fds := state.fds.filter fun entry => !slots.contains entry.1
        preassigned := fun s =>
          if slots.contains s ∧ s.raw < 3 then some childEnd
          else state.preassigned s
        mergeFdEnds := fun s =>
          if slots.contains s ∧ ¬ s.raw < 3 then some childEnd
          else state.mergeFdEnds s } := by
  induction slots with
  | nil =>
      intro state
      have hall : (state.fds.filter fun _ => true) = state.fds :=
        List.filter_eq_self.mpr fun _ _ => rfl
      simp [hall]
  | cons slot slots ih =>
      intro state
      rw [List.foldl_cons, ih]
      by_cases hlow : slot.raw < 3
      · simp only [assignMerger, if_pos hlow, removeFd, List.filter_filter]
        congr 1
        · congr 1
          funext entry
          simp [Bool.and_comm, eq_comm]
        · funext s
          by_cases hs : s = slot
          · subst hs
            simp [hlow, SlotMap.insert, dup]
          · simp [SlotMap.insert, hs]
        · funext s
          by_cases hs : s = slot
          · subst hs
            simp [hlow]
          · simp [hs]
      · simp only [assignMerger, if_neg hlow, removeFd, List.filter_filter]
        congr 1
        · congr 1
          funext entry
          simp [Bool.and_comm, eq_comm]
        · funext s
          by_cases hs : s = slot
          · subst hs
            simp [hlow]
          · simp [hs]
        · funext s
          by_cases hs : s = slot
          · subst hs
            simp [hlow, SlotMap.insert, dup]
          · simp [SlotMap.insert, hs]

/-- The merging slots of a target that is still to come. -/
theorem mem_mergers (hnodup : (fds.map fun (slot, _) => slot).Nodup)
    {state : PrePass} (hstate : Passed fds done state)
    (hdone : ∀ t ∈ done, isPipe (fds.get? t) = true) {target : Fd}
    (htarget : target ∉ done) (s : Fd) :
    (mergers state.fds target).contains s = true ↔
      fds.get? s = some (.merge target) := by
  rw [List.contains_iff_mem, mergers, hstate.fds_eq]
  constructor
  · intro h
    obtain ⟨⟨s', r⟩, hmem, rfl⟩ := List.mem_map.mp h
    obtain ⟨hmem, hr⟩ := List.mem_filter.mp hmem
    have hfds := (List.mem_filter.mp hmem).1
    have hr' : r = .merge target := by simpa using hr
    rw [hr'] at hfds
    exact get?_of_mem hnodup hfds
  · intro h
    refine List.mem_map.mpr ⟨(s, .merge target), ?_, rfl⟩
    refine List.mem_filter.mpr ⟨List.mem_filter.mpr ⟨mem_of_get? h, ?_⟩, ?_⟩
    · have hs : s ∉ done := by
        intro hmem
        have hpipe := hdone s hmem
        rw [h] at hpipe
        cases hpipe
      simp [assigned, h, hs, htarget]
    · simp

/-- One target of the pre-pass. -/
theorem assignTarget_passed (hnodup : (fds.map fun (slot, _) => slot).Nodup)
    {state : PrePass} (hstate : Passed fds done state)
    (hdone : ∀ t ∈ done, isPipe (fds.get? t) = true) {target : Fd}
    (htarget : target ∉ done) (hpipe : isPipe (fds.get? target) = true) :
    ∃ state', assignTarget state target = .ok state' ∧
      Passed fds (done ++ [target]) state' := by
  obtain ⟨dir, hdir⟩ : ∃ dir, fds.get? target = some (.pipe dir) := by
    cases hget : fds.get? target with
    | none =>
        rw [hget] at hpipe
        cases hpipe
    | some r =>
        rw [hget] at hpipe
        cases r with
        | pipe dir => exact ⟨dir, rfl⟩
        | _ => cases hpipe
  have hsolo : soloEnd fds target = some (.pipe dir target) := by
    rw [soloEnd, hdir]
  have hget : state.fds.get? target = some (.pipe dir) := by
    rw [hstate.fds_eq, get?_filter fds (fun s => !assigned fds done s), hdir]
    simp [assigned, hdir, htarget]
  have hmergers := mem_mergers hnodup hstate hdone htarget
  rw [assignTarget, hget]
  refine ⟨_, rfl, ?_⟩
  rw [foldl_assignMerger]
  generalize mergers state.fds target = slots at hmergers
  simp only [List.contains_iff_mem] at hmergers
  have hmerger : ∀ s, mergerEnd fds (done ++ [target]) s =
      if s ∈ slots then some (.pipe dir target) else mergerEnd fds done s := by
    intro s
    by_cases hmem : s ∈ slots
    · simp [mergerEnd, (hmergers s).mp hmem, hmem, hsolo]
    · rw [if_neg hmem, mergerEnd, mergerEnd]
      cases hs : fds.get? s with
      | none => rfl
      | some r =>
          cases r with
          | merge t =>
              have ht : t ≠ target := by
                rintro rfl
                exact hmem ((hmergers s).mpr hs)
              simp [ht]
          | _ => rfl
  have hnotdone : ∀ s ∈ slots, s ∉ done := by
    intro s hs hmem
    have hpipe' := hdone s hmem
    rw [(hmergers s).mp hs] at hpipe'
    cases hpipe'
  have hnottarget : target ∉ slots := by
    intro hmem
    rw [(hmergers target).mp hmem] at hdir
    cases hdir
  refine
    { fds_eq := ?_
      preassigned := ?_
      mergeFdEnds := ?_
      ownedStd := ?_ }
  · rw [hstate.fds_eq, removeFd, List.filter_filter, List.filter_filter]
    refine List.filter_congr fun entry hentry => ?_
    obtain ⟨s, r⟩ := entry
    have hs := get?_of_mem hnodup hentry
    have hm := hmergers s
    rw [hs] at hm
    by_cases hmem : s ∈ slots
    · cases hm.mp hmem
      simp [assigned, hs, hmem]
    · cases r with
      | merge t =>
          have ht : t ≠ target := fun h => hmem (hm.mpr (by rw [h]))
          simp [assigned, hs, hmem, ht, Bool.and_comm, Bool.and_assoc]
      | _ => simp [assigned, hs, hmem, Bool.and_comm]
  · intro s
    show (if s = target then some (ChildEnd.pipe dir target)
      else if slots.contains s = true ∧ s.raw < 3 then
        some (.pipe dir target)
      else state.preassigned s) = _
    rw [hstate.preassigned, hmerger]
    by_cases hs : s = target
    · subst hs
      simp [hsolo]
    · by_cases hmem : s ∈ slots
      · by_cases hlow : s.raw < 3 <;> simp [hs, hmem, hlow, hnotdone s hmem]
      · simp [hs, hmem]
  · intro s
    show (if slots.contains s = true ∧ ¬ s.raw < 3 then
        some (ChildEnd.pipe dir target)
      else state.mergeFdEnds s) = _
    rw [hstate.mergeFdEnds, hmerger]
    by_cases hmem : s ∈ slots
    · by_cases hlow : s.raw < 3 <;> simp [hmem, hlow]
    · simp [hmem]
  · intro s
    show (if s = target then some (parentEnd target dir)
      else state.ownedStd s) = _
    rw [hstate.ownedStd]
    by_cases hs : s = target
    · subst hs
      simp [soloParent, hdir]
    · simp [hs]

theorem foldlM_assignTarget (hnodup : (fds.map fun (slot, _) => slot).Nodup)
    {targets : List Fd} (htargets : targets.Nodup)
    (hpipe : ∀ t ∈ targets, isPipe (fds.get? t) = true) :
    ∀ {done : List Fd} {state : PrePass}, Passed fds done state →
      (∀ t ∈ done, isPipe (fds.get? t) = true) →
      (∀ t ∈ targets, t ∉ done) →
      ∃ state', targets.foldlM assignTarget state = .ok state' ∧
        Passed fds (done ++ targets) state' := by
  induction targets with
  | nil =>
      intro done state hstate _ _
      rw [List.append_nil]
      exact ⟨state, rfl, hstate⟩
  | cons target targets ih =>
      intro done state hstate hdone hnew
      rw [List.nodup_cons] at htargets
      obtain ⟨state', hassign, hstate'⟩ := assignTarget_passed hnodup hstate
        hdone (hnew target List.mem_cons_self) (hpipe target List.mem_cons_self)
      obtain ⟨state'', hrest, hstate''⟩ := ih htargets.2
        (fun t ht => hpipe t (List.mem_cons_of_mem _ ht)) hstate'
        (by
          intro t ht
          rcases List.mem_append.mp ht with ht | ht
          · exact hdone t ht
          · rw [List.mem_singleton.mp ht]
            exact hpipe target List.mem_cons_self)
        (by
          intro t ht hmem
          rcases List.mem_append.mp hmem with hmem | hmem
          · exact hnew t (List.mem_cons_of_mem _ ht) hmem
          · rw [List.mem_singleton.mp hmem] at ht
            exact htargets.1 ht)
      refine ⟨state'', ?_, ?_⟩
      · rw [List.foldlM_cons, hassign]
        exact hrest
      · rw [List.append_assoc] at hstate''
        exact hstate''

theorem mem_mergeTargets (hnodup : (fds.map fun (slot, _) => slot).Nodup)
    {target : Fd} : target ∈ mergeTargets fds ↔ target ∈ stdSlots ∧
      isPipe (fds.get? target) = true ∧
        ∃ s, fds.get? s = some (.merge target) := by
  rw [mergeTargets, List.mem_filter, List.any_eq_true]
  constructor
  · rintro ⟨hstd, ⟨s, r⟩, hmem, hr⟩
    refine ⟨hstd, ?_⟩
    cases r with
    | merge t =>
        by_cases ht : t.raw < 3 ∧ isPipe (fds.get? t) = true
        · have heq : t = target := by simpa [pipedStdTarget, ht] using hr
          rw [← heq]
          exact ⟨ht.2, s, get?_of_mem hnodup hmem⟩
        · simp [pipedStdTarget, ht] at hr
    | _ => simp [pipedStdTarget] at hr
  · rintro ⟨hstd, hpipe, s, hs⟩
    refine ⟨hstd, (s, .merge target), mem_of_get? hs, ?_⟩
    simp [pipedStdTarget, lt_of_mem_stdSlots hstd, hpipe]

/-- The pre-pass assigns the targeted piped std slots and what merges into
them. -/
theorem prePass_passed (hnodup : (fds.map fun (slot, _) => slot).Nodup)
    (hchain : isChained fds = false) :
    ∃ state, prePass fds = .ok state ∧
      Passed fds (mergeTargets fds) state := by
  have hall : (fds.filter fun _ => true) = fds :=
    List.filter_eq_self.mpr fun _ _ => rfl
  have hassigned : ∀ s, assigned fds [] s = false := by
    intro s
    rw [assigned]
    cases hs : fds.get? s with
    | none => rfl
    | some r => cases r <;> rfl
  have hmerger : ∀ s, mergerEnd fds [] s = none := by
    intro s
    rw [mergerEnd]
    cases hs : fds.get? s with
    | none => rfl
    | some r => cases r <;> rfl
  have hstart : Passed fds [] ⟨fds, fun _ => none, fun _ => none,
      fun _ => none⟩ :=
    { fds_eq := by simp [hassigned, hall]
      preassigned := by simp [hmerger]
      mergeFdEnds := by simp [hmerger]
      ownedStd := by simp }
  have hstd : stdSlots.Nodup := by decide
  have htargets : (mergeTargets fds).Nodup := List.Pairwise.filter _ hstd
  obtain ⟨state, hfold, hstate⟩ := foldlM_assignTarget hnodup htargets
    (fun t ht => ((mem_mergeTargets hnodup).mp ht).2.1) hstart (by simp)
    (by simp)
  refine ⟨state, ?_, hstate⟩
  rw [prePass, hchain]
  exact hfold

end

end Cosca.Ports.AsyncStdio
