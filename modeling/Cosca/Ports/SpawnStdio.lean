import Cosca.Ports.MergePrePass

/-!
# The sync and the async spawn

On what the pre-pass leaves, the core does what it does for the sync spawn, so
that the two spawns have the same closed form but for the std slots that tokio
makes the pipes of.

## Main results

* `syncStdio_eq` and `asyncStdio_eq`: the two closed forms.
-/

namespace Cosca.Ports.AsyncStdio

open Cosca.Ports.CommandRecord
open Cosca.Ports.StdioEnds

section

variable {os : String} {fds : StdioMap}

/-- The slots of the sync spawn. -/
def syncSlots (fds : FdTable) : List Fd := stdSlots ++ highSlots fds

theorem isSlot_of_mem {table : FdTable} {s : Fd} (h : s ∈ syncSlots table) :
    IsSlot s := by
  rcases List.mem_append.mp h with h | h
  · exact Or.inl h
  · exact Or.inr (by simpa using (List.mem_filter.mp h).2)

theorem mem_keys {s : Fd} {r : ResolvedStdio}
    (h : fds.table.get? s = some r) :
    s ∈ fds.table.map fun (slot, _) => slot :=
  List.mem_map.mpr ⟨(s, r), mem_of_get? h, rfl⟩

/-- A configured slot is resolved. -/
theorem mem_syncSlots {s : Fd} {r : ResolvedStdio}
    (h : fds.table.get? s = some r) : s ∈ syncSlots fds.table := by
  have hmem := mem_keys h
  rw [syncSlots, List.mem_append]
  by_cases hlow : s.raw < 3
  · exact Or.inl (mem_stdSlots (fds.nonneg s hmem) hlow)
  · refine Or.inr (List.mem_filter.mpr ⟨hmem, ?_⟩)
    simpa using not_lt_iff.mp hlow

theorem isMerge_target (hchain : isChained fds.table = false) {s t : Fd}
    (h : fds.table.get? s = some (.merge t)) :
    isMerge (fds.table.get? t) = false := by
  have hnot := List.any_eq_false.mp hchain (s, .merge t) (mem_of_get? h)
  simpa using hnot

theorem isDeferred_owned (table : FdTable) (s : Fd) :
    isDeferred table .owned s = false := by
  rfl

theorem mergesResolved_owned (hchain : isChained fds.table = false)
    (slots : List Fd) : MergesResolved fds.table .owned slots :=
  fun _ _ _ ht => ⟨isMerge_target hchain ht, rfl⟩

/-- The pre-pass assigns the slot. -/
abbrev isAssigned (fds : StdioMap) (s : Fd) : Bool :=
  assigned fds.table (mergeTargets fds.table) s

/-- A piped std slot that no merge targets: the async spawn leaves it to
tokio. -/
def isTokioPipe (fds : StdioMap) (s : Fd) : Bool :=
  stdSlots.contains s && isPipe (fds.table.get? s) &&
    !(mergeTargets fds.table).contains s

/-- What the pre-pass assigns is piped, or merges into a piped std slot. -/
theorem of_isAssigned {s : Fd} (h : isAssigned fds s = true) :
    s ∈ mergeTargets fds.table ∨
      ∃ t ∈ mergeTargets fds.table, fds.table.get? s = some (.merge t) := by
  rw [isAssigned, assigned, Bool.or_eq_true, List.contains_iff_mem] at h
  rcases h with h | h
  · exact Or.inl h
  · cases hs : fds.table.get? s with
    | none =>
        rw [hs] at h
        cases h
    | some r =>
        rw [hs] at h
        cases r with
        | merge t => exact Or.inr ⟨t, by simpa using h, rfl⟩
        | _ => cases h

/-- The target of a slot that the pre-pass leaves is left too, and is not
deferred. -/
theorem target_of_not_assigned (hchain : isChained fds.table = false)
    {s t : Fd} (hs : isAssigned fds s = false)
    (hmerge : fds.table.get? s = some (.merge t)) :
    isAssigned fds t = false ∧
      isDeferred fds.table .deferred t = false := by
  have htarget : t ∉ mergeTargets fds.table := by
    intro ht
    simp [isAssigned, assigned, hmerge, ht] at hs
  have hnot := isMerge_target hchain hmerge
  constructor
  · by_cases ht : isAssigned fds t = true
    · rcases of_isAssigned ht with ht | ⟨t', -, ht⟩
      · exact absurd ht htarget
      · rw [ht] at hnot
        cases hnot
    · simpa using ht
  · by_cases ht : isDeferred fds.table .deferred t = true
    · simp only [isDeferred, Bool.and_eq_true, decide_eq_true_eq] at ht
      have hmem : t ∈ mergeTargets fds.table := by
        refine (mem_mergeTargets fds.nodup).mpr ⟨?_, ht.2, s, hmerge⟩
        cases hget : fds.table.get? t with
        | none =>
            rw [hget] at ht
            cases ht.2
        | some r =>
            exact mem_stdSlots (fds.nonneg t (mem_keys hget)) ht.1.2
      exact absurd hmem htarget
    · simpa using ht

variable {state : PrePass}

theorem get?_left (hstate : Passed fds.table (mergeTargets fds.table) state)
    {s : Fd} (hs : isAssigned fds s = false) :
    state.fds.get? s = fds.table.get? s := by
  rw [hstate.fds_eq, get?_filter fds.table fun s => !isAssigned fds s, hs]
  rfl

/-- A targeted slot is a pipe of its own. -/
theorem soloEnd_target {t : Fd} (ht : t ∈ mergeTargets fds.table) :
    ∃ dir, fds.table.get? t = some (.pipe dir) ∧
      soloEnd fds.table t = some (.pipe dir t) := by
  have hpipe := ((mem_mergeTargets fds.nodup).mp ht).2.1
  cases hget : fds.table.get? t with
  | none =>
      rw [hget] at hpipe
      cases hpipe
  | some r =>
      rw [hget] at hpipe
      cases r with
      | pipe dir => exact ⟨dir, rfl, by rw [soloEnd, hget]⟩
      | _ => cases hpipe

theorem mergerEnd_left {s : Fd} (hs : isAssigned fds s = false) :
    mergerEnd fds.table (mergeTargets fds.table) s = none := by
  rw [mergerEnd]
  cases hget : fds.table.get? s with
  | none => rfl
  | some r =>
      cases r with
      | merge t =>
          have ht : t ∉ mergeTargets fds.table := by
            intro hmem
            simp [isAssigned, assigned, hget, hmem] at hs
          simp [ht]
      | _ => rfl

theorem preassigned_isNone
    (hstate : Passed fds.table (mergeTargets fds.table) state) {s : Fd}
    (hstd : s ∈ stdSlots) :
    (state.preassigned s).isNone = !isAssigned fds s := by
  rw [hstate.preassigned]
  by_cases hs : isAssigned fds s = true
  · rcases of_isAssigned hs with htarget | ⟨t, ht, hmerge⟩
    · obtain ⟨dir, -, hsolo⟩ := soloEnd_target htarget
      simp [htarget, hsolo, hs]
    · obtain ⟨dir, -, hsolo⟩ := soloEnd_target ht
      have hnot : s ∉ mergeTargets fds.table := by
        intro hmem
        obtain ⟨dir', hpipe, -⟩ := soloEnd_target hmem
        rw [hmerge] at hpipe
        cases hpipe
      simp [hnot, lt_of_mem_stdSlots hstd, mergerEnd, hmerge, ht, hsolo, hs]
  · have hnot : s ∉ mergeTargets fds.table := by
      intro hmem
      exact hs (by simp [isAssigned, assigned, hmem])
    simp [hnot, mergerEnd_left (by simpa using hs), hs]

/-- The async spawn resolves what the pre-pass left. -/
theorem asyncSlots_eq
    (hstate : Passed fds.table (mergeTargets fds.table) state) :
    (stdSlots.filter fun slot => (state.preassigned slot).isNone) ++
        highSlots state.fds =
      (syncSlots fds.table).filter fun s => !isAssigned fds s := by
  rw [syncSlots, List.filter_append]
  congr 1
  · exact List.filter_congr fun s hs => preassigned_isNone hstate hs
  · rw [highSlots, hstate.fds_eq, highSlots, List.filter_map, List.filter_map,
      List.filter_map, List.filter_filter, List.filter_filter]
    congr 2
    funext entry
    exact Bool.and_comm _ _

theorem mergesResolved_left (hchain : isChained fds.table = false)
    (hstate : Passed fds.table (mergeTargets fds.table) state) :
    MergesResolved state.fds .deferred
      ((syncSlots fds.table).filter fun s => !isAssigned fds s) := by
  intro s hs t hmerge
  have hleft : isAssigned fds s = false := by
    simpa using (List.mem_filter.mp hs).2
  rw [get?_left hstate hleft] at hmerge
  obtain ⟨htarget, hdeferred⟩ := target_of_not_assigned hchain hleft hmerge
  rw [isDeferred, get?_left hstate htarget]
  exact ⟨isMerge_target hchain hmerge, hdeferred⟩

/-- What is assigned neither inherits nor merges into nothing. -/
theorem assigned_cases {s : Fd} (hs : isAssigned fds s = true) :
    (∃ dir, fds.table.get? s = some (.pipe dir)) ∨
      ∃ t ∈ mergeTargets fds.table, fds.table.get? s = some (.merge t) := by
  rcases of_isAssigned hs with htarget | hmerge
  · obtain ⟨dir, hdir, -⟩ := soloEnd_target htarget
    exact Or.inl ⟨dir, hdir⟩
  · exact Or.inr hmerge

/-- The first pass fails on the same slot. -/
theorem inheritFailure_left
    (hstate : Passed fds.table (mergeTargets fds.table) state) :
    ((syncSlots fds.table).filter fun s => !isAssigned fds s).findSome?
        (inheritFailure state.fds) =
      (syncSlots fds.table).findSome? (inheritFailure fds.table) := by
  refine findSome?_filter ?_ ?_
  · intro s _ hs
    have hleft : isAssigned fds s = false := by simpa using hs
    rw [inheritFailure, inheritFailure, get?_left hstate hleft]
  · intro s _ hs
    have hassigned : isAssigned fds s = true := by simpa using hs
    rcases assigned_cases hassigned with ⟨dir, hdir⟩ | ⟨t, -, hmerge⟩
    · simp [inheritFailure, hdir]
    · simp [inheritFailure, hmerge]

/-- The ends of the two first passes. -/
abbrev syncMap (fds : StdioMap) : SlotMap ChildEnd :=
  firstMap fds.table .owned (syncSlots fds.table)

abbrev asyncMap (fds : StdioMap) (state : PrePass) : SlotMap ChildEnd :=
  firstMap state.fds .deferred
    ((syncSlots fds.table).filter fun s => !isAssigned fds s)

/-- A slot that is left to the core and not deferred gets its own end. -/
theorem firstEnd_left
    (hstate : Passed fds.table (mergeTargets fds.table) state) {s : Fd}
    (hs : isAssigned fds s = false)
    (hdeferred : isDeferred fds.table .deferred s = false) :
    firstEnd state.fds .deferred s = firstEnd fds.table .owned s := by
  have hget := get?_left hstate hs
  have hdeferred' : isDeferred state.fds .deferred s = false := by
    rw [isDeferred, hget]
    exact hdeferred
  have hsolo : soloEnd state.fds s = soloEnd fds.table s := by
    rw [soloEnd, soloEnd, hget]
  rw [firstEnd, firstEnd, hdeferred', hsolo, isDeferred_owned]

theorem asyncMap_left
    (hstate : Passed fds.table (mergeTargets fds.table) state) {s : Fd}
    (hs : isAssigned fds s = false)
    (hdeferred : isDeferred fds.table .deferred s = false) :
    asyncMap fds state s = syncMap fds s := by
  simp [asyncMap, syncMap, firstMap, hs, firstEnd_left hstate hs hdeferred]

theorem mergeEnd_left (hchain : isChained fds.table = false)
    (hstate : Passed fds.table (mergeTargets fds.table) state) {s : Fd}
    (hs : isAssigned fds s = false) :
    mergeEnd state.fds (asyncMap fds state) s =
      mergeEnd fds.table (syncMap fds) s := by
  rw [mergeEnd, mergeEnd, get?_left hstate hs]
  cases hget : fds.table.get? s with
  | none => rfl
  | some r =>
      cases r with
      | merge t =>
          obtain ⟨htarget, hdeferred⟩ := target_of_not_assigned hchain hs hget
          exact asyncMap_left hstate htarget hdeferred
      | _ => rfl

/-- So does the second. -/
theorem mergeFailure_left (hchain : isChained fds.table = false)
    (hstate : Passed fds.table (mergeTargets fds.table) state) :
    ((syncSlots fds.table).filter fun s => !isAssigned fds s).findSome?
        (mergeFailure os state.fds (asyncMap fds state)) =
      (syncSlots fds.table).findSome?
        (mergeFailure os fds.table (syncMap fds)) := by
  refine findSome?_filter ?_ ?_
  · intro s _ hs
    have hleft : isAssigned fds s = false := by simpa using hs
    rw [mergeFailure, mergeFailure, get?_left hstate hleft]
    cases hget : fds.table.get? s with
    | none => rfl
    | some r =>
        cases r with
        | merge t =>
            obtain ⟨htarget, hdeferred⟩ :=
              target_of_not_assigned hchain hleft hget
            simp only [asyncMap_left hstate htarget hdeferred]
        | _ => rfl
  · intro s _ hs
    have hassigned : isAssigned fds s = true := by simpa using hs
    rcases assigned_cases hassigned with ⟨dir, hdir⟩ | ⟨t, ht, hmerge⟩
    · simp [mergeFailure, hdir]
    · obtain ⟨dir, hdir, hsolo⟩ := soloEnd_target ht
      have hmem : t ∈ syncSlots fds.table := mem_syncSlots hdir
      simp [mergeFailure, hmerge, syncMap, firstMap, hmem, firstEnd,
        isDeferred_owned, hsolo]

/-- What the core of the sync spawn gives a slot. -/
def syncEnd (fds : StdioMap) (s : Fd) : Option ChildEnd :=
  if s ∈ syncSlots fds.table then
    (mergeEnd fds.table (syncMap fds) s).or (firstEnd fds.table .owned s)
  else none

/-- What the core of the async spawn gives a slot. -/
def asyncEnd (fds : StdioMap) (state : PrePass) (s : Fd) : Option ChildEnd :=
  if s ∈ (syncSlots fds.table).filter fun s => !isAssigned fds s then
    (mergeEnd state.fds (asyncMap fds state) s).or
      (firstEnd state.fds .deferred s)
  else none

theorem asyncEnd_left (hchain : isChained fds.table = false)
    (hstate : Passed fds.table (mergeTargets fds.table) state) {s : Fd}
    (hs : isAssigned fds s = false)
    (hdeferred : isDeferred fds.table .deferred s = false) :
    asyncEnd fds state s = syncEnd fds s := by
  simp [asyncEnd, syncEnd, hs, mergeEnd_left hchain hstate hs,
    firstEnd_left hstate hs hdeferred]

/-- A piped slot has its pipe. -/
theorem syncEnd_pipe {s : Fd} {dir : Direction}
    (h : fds.table.get? s = some (.pipe dir)) :
    syncEnd fds s = some (.pipe dir s) := by
  simp [syncEnd, mem_syncSlots h, mergeEnd, firstEnd, isDeferred_owned,
    soloEnd, h]

/-- A slot that merges into a piped std slot has that pipe. -/
theorem syncEnd_merge {s t : Fd} (ht : t ∈ mergeTargets fds.table)
    (h : fds.table.get? s = some (.merge t)) :
    syncEnd fds s = soloEnd fds.table t := by
  obtain ⟨dir, hdir, hsolo⟩ := soloEnd_target ht
  simp [syncEnd, mem_syncSlots h, mergeEnd, h, syncMap, firstMap,
    mem_syncSlots hdir, firstEnd, isDeferred_owned, hsolo]

/-- No merge of the table fails. -/
def Merges (os : String) (fds : StdioMap) : Prop :=
  (syncSlots fds.table).findSome? (mergeFailure os fds.table (syncMap fds)) =
    none

/-- A std slot that is not piped has an end. -/
theorem syncEnd_isSome (hmerges : Merges os fds) {s : Fd}
    (hstd : s ∈ stdSlots) : (syncEnd fds s).isSome = true := by
  have hmem : s ∈ syncSlots fds.table := List.mem_append_left _ hstd
  have hlow : ¬ 3 ≤ s.raw := fun h =>
    not_lt_iff.mpr h (lt_of_mem_stdSlots hstd)
  have hfail := List.findSome?_eq_none_iff.mp hmerges s hmem
  cases hget : fds.table.get? s with
  | none => simp [syncEnd, hmem, mergeEnd, hget, firstEnd, isDeferred_owned,
      soloEnd, hlow]
  | some r =>
      cases r with
      | merge t =>
          rw [mergeFailure, hget] at hfail
          cases hend : syncMap fds t with
          | none => simp [hend] at hfail
          | some e => simp [syncEnd, hmem, mergeEnd, hget, hend]
      | _ => simp [syncEnd, hmem, mergeEnd, hget, firstEnd, isDeferred_owned,
          soloEnd]

theorem not_mem_of_merge {s t : Fd}
    (h : fds.table.get? s = some (.merge t)) :
    s ∉ mergeTargets fds.table := by
  intro hmem
  obtain ⟨dir, hdir, -⟩ := soloEnd_target hmem
  rw [h] at hdir
  cases hdir

theorem not_mem_of_left {s : Fd} (hs : isAssigned fds s = false) :
    s ∉ mergeTargets fds.table := by
  intro hmem
  simp [isAssigned, assigned, hmem] at hs

/-- What the async spawn gives a std slot. -/
theorem assignStd_eq (hchain : isChained fds.table = false)
    (hstate : Passed fds.table (mergeTargets fds.table) state)
    (hmerges : Merges os fds) {ends : Ends}
    (hends : ends.child = asyncEnd fds state) {s : Fd}
    (hstd : s ∈ stdSlots) :
    assignStd state ends s = .ok
      (if isTokioPipe fds s then .pipe (pipedDirection s) s
      else (syncEnd fds s).getD (.inherited s)) := by
  rw [assignStd, hstate.preassigned]
  by_cases hassigned : isAssigned fds s = true
  · rcases of_isAssigned hassigned with htarget | ⟨t, ht, hmerge⟩
    · obtain ⟨dir, hdir, hsolo⟩ := soloEnd_target htarget
      simp [htarget, hsolo, isTokioPipe, syncEnd_pipe hdir]
    · obtain ⟨dir, -, hsolo⟩ := soloEnd_target ht
      simp [not_mem_of_merge hmerge, lt_of_mem_stdSlots hstd, mergerEnd,
        hmerge, ht, hsolo, isTokioPipe, isPipe, syncEnd_merge ht hmerge]
  · have hleft : isAssigned fds s = false := by simpa using hassigned
    have hpre := preassigned_isNone hstate hstd
    rw [hleft, hstate.preassigned] at hpre
    rw [Option.isNone_iff_eq_none.mp hpre]
    have hnot := not_mem_of_left hleft
    have hsome := syncEnd_isSome hmerges hstd
    by_cases hpipe : isPipe (fds.table.get? s) = true
    · cases hget : fds.table.get? s with
      | none =>
          rw [hget] at hpipe
          cases hpipe
      | some r =>
          rw [hget] at hpipe
          cases r with
          | pipe dir =>
              simp only [get?_left hstate hleft, hget]
              simp [isTokioPipe, hstd, isPipe, hget, hnot]
          | _ => cases hpipe
    · have hpipe' : isPipe (fds.table.get? s) = false := by simpa using hpipe
      have hdeferred : isDeferred fds.table .deferred s = false := by
        simp [isDeferred, hpipe']
      have hend : ends.child s = syncEnd fds s := by
        rw [hends, asyncEnd_left hchain hstate hleft hdeferred]
      obtain ⟨e, he⟩ := Option.isSome_iff_exists.mp hsome
      have htokio : isTokioPipe fds s = false := by
        simp [isTokioPipe, hpipe']
      rw [htokio, hend, he, get?_left hstate hleft]
      cases hget : fds.table.get? s with
      | none => rfl
      | some r =>
          cases r with
          | pipe dir =>
              rw [hget] at hpipe'
              cases hpipe'
          | _ => rfl

/-- The other slots are alike. -/
theorem highEnd_eq (hchain : isChained fds.table = false)
    (hstate : Passed fds.table (mergeTargets fds.table) state) {s : Fd}
    (hstd : s ∉ stdSlots) :
    (match state.mergeFdEnds s with
      | some childEnd => some childEnd
      | none => asyncEnd fds state s) = syncEnd fds s := by
  rw [hstate.mergeFdEnds]
  by_cases hlow : s.raw < 3
  · have hmem : s ∉ syncSlots fds.table := by
      intro hmem
      rcases isSlot_of_mem hmem with h | h
      · exact hstd h
      · exact not_lt_iff.mpr h hlow
    simp [hlow, asyncEnd, syncEnd, hmem]
  · rw [if_neg hlow]
    by_cases hassigned : isAssigned fds s = true
    · rcases of_isAssigned hassigned with htarget | ⟨t, ht, hmerge⟩
      · exact absurd ((mem_mergeTargets fds.nodup).mp htarget).1 hstd
      · obtain ⟨dir, -, hsolo⟩ := soloEnd_target ht
        simp [mergerEnd, hmerge, ht, hsolo, syncEnd_merge ht hmerge]
    · have hleft : isAssigned fds s = false := by simpa using hassigned
      rw [mergerEnd_left hleft]
      exact asyncEnd_left hchain hstate hleft (by simp [isDeferred, hlow])

/-- The parent's end of a std slot. -/
theorem stdParentEnd_eq
    (hstate : Passed fds.table (mergeTargets fds.table) state) {s : Fd}
    (hstd : s ∈ stdSlots) :
    stdParentEnd state s =
      if isTokioPipe fds s then some (parentEnd s (pipedDirection s))
      else soloParent fds.table s := by
  rw [stdParentEnd, hstate.ownedStd]
  by_cases hassigned : isAssigned fds s = true
  · have hpre := preassigned_isNone hstate hstd
    rw [hassigned] at hpre
    rcases of_isAssigned hassigned with htarget | ⟨t, ht, hmerge⟩
    · obtain ⟨dir, hdir, -⟩ := soloEnd_target htarget
      simp [htarget, soloParent, hdir, isTokioPipe]
    · cases hend : state.preassigned s with
      | none =>
          rw [hend] at hpre
          cases hpre
      | some e =>
          simp [not_mem_of_merge hmerge, isTokioPipe, isPipe, hmerge,
            soloParent]
  · have hleft : isAssigned fds s = false := by simpa using hassigned
    have hpre := preassigned_isNone hstate hstd
    rw [hleft] at hpre
    have hnot := not_mem_of_left hleft
    rw [Option.isNone_iff_eq_none.mp hpre, get?_left hstate hleft]
    cases hget : fds.table.get? s with
    | none => simp [hnot, isTokioPipe, isPipe, hget, soloParent]
    | some r =>
        cases r with
        | pipe dir => simp [hnot, hstd, isTokioPipe, isPipe, hget]
        | _ => simp [hnot, isTokioPipe, isPipe, hget, soloParent]

/-- The sync spawn, without chained merges. -/
theorem syncStdio_eq (hchain : isChained fds.table = false) :
    syncStdio os fds =
      match (syncSlots fds.table).findSome? (inheritFailure fds.table),
          (syncSlots fds.table).findSome?
            (mergeFailure os fds.table (syncMap fds)) with
      | some e, _ => .error e
      | none, some e => .error e
      | none, none => .ok {
          child := fun s =>
            if s ∈ stdSlots then some ((syncEnd fds s).getD (.inherited s))
            else syncEnd fds s
          parent := soloParent fds.table } := by
  have hcore := @resolveStdio_eq os fds.table .owned (syncSlots fds.table)
    (fun s hs => isSlot_of_mem hs) (mergesResolved_owned hchain _)
  show (resolveStdio os fds.table (syncSlots fds.table) .owned >>= _) = _
  rw [hcore]
  cases (syncSlots fds.table).findSome? (inheritFailure fds.table) with
  | some e => rfl
  | none =>
      cases (syncSlots fds.table).findSome?
          (mergeFailure os fds.table (syncMap fds)) with
      | some e => rfl
      | none =>
          show Except.ok _ = Except.ok _
          congr 2
          funext s
          show (if s ∈ syncSlots fds.table then
            firstParent fds.table .owned s else none) = _
          by_cases hmem : s ∈ syncSlots fds.table
          · rw [if_pos hmem]
            rfl
          · rw [if_neg hmem, soloParent]
            cases hget : fds.table.get? s with
            | none => rfl
            | some r => exact absurd (mem_syncSlots hget) hmem

/-- The core of the async spawn. -/
def asyncCore (fds : StdioMap) (state : PrePass) : Ends where
  child := asyncEnd fds state
  parent := fun s =>
    if s ∈ (syncSlots fds.table).filter fun s => !isAssigned fds s then
      firstParent state.fds .deferred s
    else none

theorem asyncCore_eq (hchain : isChained fds.table = false)
    (hstate : Passed fds.table (mergeTargets fds.table) state) :
    resolveStdio os state.fds
        ((syncSlots fds.table).filter fun s => !isAssigned fds s) .deferred =
      match (syncSlots fds.table).findSome? (inheritFailure fds.table),
          (syncSlots fds.table).findSome?
            (mergeFailure os fds.table (syncMap fds)) with
      | some e, _ => .error e
      | none, some e => .error e
      | none, none => .ok (asyncCore fds state) := by
  have hcore := @resolveStdio_eq os state.fds .deferred
    ((syncSlots fds.table).filter fun s => !isAssigned fds s)
    (fun s hs => isSlot_of_mem (List.mem_filter.mp hs).1)
    (mergesResolved_left hchain hstate)
  rw [inheritFailure_left hstate, mergeFailure_left hchain hstate] at hcore
  exact hcore

/-- The parent's end of another slot. -/
theorem highParent_eq
    (hstate : Passed fds.table (mergeTargets fds.table) state) {s : Fd}
    (hstd : s ∉ stdSlots) :
    (asyncCore fds state).parent s = soloParent fds.table s := by
  show (if s ∈ (syncSlots fds.table).filter fun s => !isAssigned fds s then
    firstParent state.fds .deferred s else none) = _
  cases hget : fds.table.get? s with
  | none =>
      rw [soloParent, hget]
      by_cases hassigned : isAssigned fds s = true
      · simp [hassigned]
      · have hleft : isAssigned fds s = false := by simpa using hassigned
        simp [firstParent, soloParent, get?_left hstate hleft, hget]
  | some r =>
      have hmem := mem_syncSlots hget
      by_cases hassigned : isAssigned fds s = true
      · rcases of_isAssigned hassigned with htarget | ⟨t, -, hmerge⟩
        · exact absurd ((mem_mergeTargets fds.nodup).mp htarget).1 hstd
        · rw [soloParent, hmerge]
          simp [hassigned]
      · have hleft : isAssigned fds s = false := by simpa using hassigned
        have hhigh : ¬ s.raw < 3 := by
          rcases isSlot_of_mem hmem with h | h
          · exact absurd h hstd
          · exact not_lt_iff.mpr h
        simp [hmem, hleft, firstParent, soloParent, get?_left hstate hleft,
          isDeferred, hhigh]

/-- The async spawn, without chained merges: it differs from the sync one in
the pipes of tokio. -/
theorem asyncStdio_eq (hchain : isChained fds.table = false) :
    asyncStdio os fds =
      match (syncSlots fds.table).findSome? (inheritFailure fds.table),
          (syncSlots fds.table).findSome?
            (mergeFailure os fds.table (syncMap fds)) with
      | some e, _ => .error e
      | none, some e => .error e
      | none, none => .ok {
          child := fun s =>
            if isTokioPipe fds s then some (.pipe (pipedDirection s) s)
            else if s ∈ stdSlots then
              some ((syncEnd fds s).getD (.inherited s))
            else syncEnd fds s
          parent := fun s =>
            if isTokioPipe fds s then some (parentEnd s (pipedDirection s))
            else soloParent fds.table s } := by
  obtain ⟨state, hpass, hstate⟩ := prePass_passed fds.nodup hchain
  rw [asyncStdio, hpass]
  simp only [bind, Except.bind, asyncSlots_eq hstate,
    asyncCore_eq hchain hstate]
  cases (syncSlots fds.table).findSome? (inheritFailure fds.table) with
  | some e => rfl
  | none =>
      cases hmerges : (syncSlots fds.table).findSome?
          (mergeFailure os fds.table (syncMap fds)) with
      | some e => rfl
      | none =>
          have hstd : ∀ s ∈ stdSlots, assignStd state (asyncCore fds state) s =
              _ := fun s hs => assignStd_eq hchain hstate hmerges rfl hs
          simp only [hstd Fd.stdin (by decide), hstd Fd.stdout (by decide),
            hstd Fd.stderr (by decide)]
          show Except.ok _ = Except.ok _
          congr 2
          · funext s
            by_cases hmem : s ∈ stdSlots
            · have hcases : s = Fd.stdin ∨ s = Fd.stdout ∨ s = Fd.stderr := by
                simpa [stdSlots] using hmem
              rcases hcases with rfl | rfl | rfl
              · simp [hmem, apply_ite some]
              · simp [hmem, apply_ite some]
              · simp [hmem, apply_ite some]
            · have hne : s ≠ Fd.stdin ∧ s ≠ Fd.stdout ∧ s ≠ Fd.stderr := by
                simpa [stdSlots] using hmem
              have htokio : isTokioPipe fds s = false := by
                simp [isTokioPipe, hmem]
              rw [if_neg hne.1, if_neg hne.2.1, if_neg hne.2.2, htokio,
                if_neg (by simp), if_neg hmem]
              exact highEnd_eq hchain hstate hmem
          · funext s
            by_cases hmem : s ∈ stdSlots
            · rw [if_pos hmem]
              exact stdParentEnd_eq hstate hmem
            · have htokio : isTokioPipe fds s = false := by
                simp [isTokioPipe, hmem]
              rw [if_neg hmem, htokio, if_neg (by simp)]
              exact highParent_eq hstate hmem

end

end Cosca.Ports.AsyncStdio
