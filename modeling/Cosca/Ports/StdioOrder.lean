import Cosca.Ports.AsyncStdio

/-!
# The order of the slots

`resolve_stdio` is given its slots as a list: the standard descriptors and the
configured ones from 3 on, in any order.

## Main results

* `resolveStdio_wired`: every order gives the same ends, which are those that
  the map asks for, and every order fails for a map that is refused.
-/

namespace Cosca.Ports.StdioOrder

open Cosca.Ports.AsyncStdio
open Cosca.Ports.CommandRecord
open Cosca.Ports.Errors
open Cosca.Ports.StdioEnds

/-! ## Maps and orders -/

/-- A descriptor map whose merges name no negative descriptor. -/
structure DescriptorMap extends StdioMap where
  targets_nonneg : ∀ slot target,
    table.get? slot = some (.merge target) → 0 ≤ target.raw

/-- The slots of a resolution, in some order. -/
structure SlotOrder (fds : DescriptorMap) where
  slots : List Fd
  perm : slots.Perm (syncSlots fds.table)

/-- A map that cannot be resolved. -/
def Refused (fds : DescriptorMap) (ownership : PipeOwnership) : Prop :=
  (∃ slot target, fds.table.get? slot = some (.merge target) ∧
      isMerge (fds.table.get? target) = true) ∨
    (∃ slot target, fds.table.get? slot = some (.merge target) ∧
      3 ≤ target.raw ∧ fds.table.get? target = none) ∨
    (∃ slot, fds.table.get? slot = some .inherit ∧ 3 ≤ slot.raw) ∨
    (ownership = .deferred ∧ ∃ slot target,
      fds.table.get? slot = some (.merge target) ∧ target ∈ stdSlots ∧
        isPipe (fds.table.get? target) = true)

/-- The core owns the pipe of the slot. -/
def Owns (ownership : PipeOwnership) (slot : Fd) : Prop :=
  ¬ (ownership = .deferred ∧ slot.raw < 3)

/-- The ends that a map asks for. -/
structure Wired (fds : DescriptorMap) (ownership : PipeOwnership)
    (ends : Ends) : Prop where
  /-- A merging slot has the object of its target. -/
  merge : ∀ slot target, fds.table.get? slot = some (.merge target) →
    ∃ childEnd, ends.child slot = some childEnd ∧
      ends.child target = some childEnd
  unconfigured : ∀ slot ∈ stdSlots, fds.table.get? slot = none →
    ends.child slot = some (.inherited slot)
  inherit : ∀ slot, fds.table.get? slot = some .inherit →
    ends.child slot = some (.inherited slot)
  null : ∀ slot, fds.table.get? slot = some .null →
    ends.child slot = some (.null slot)
  file : ∀ slot handle, fds.table.get? slot = some (.file handle) →
    ends.child slot = some (.file handle)
  pipe : ∀ slot dir, fds.table.get? slot = some (.pipe dir) →
    Owns ownership slot → ends.child slot = some (.pipe dir slot)
  /-- tokio's pipes, and what is no slot, are left out. -/
  none : ∀ slot, ends.child slot = none ↔
    (fds.table.get? slot = none ∧ slot ∉ stdSlots) ∨
      (isPipe (fds.table.get? slot) = true ∧ ¬ Owns ownership slot)
  parent : ∀ slot end_, ends.parent slot = some end_ ↔
    ∃ dir, fds.table.get? slot = some (.pipe dir) ∧ Owns ownership slot ∧
      end_ = parentEnd slot dir

/-! ## Failures of a pass -/

/-- The spawn returns an error. -/
def Refuses {α : Type} (result : Except Failure α) : Prop :=
  ∃ e : Error, result = .error (.error e)

section

variable {α β : Type} {f : β → α → Except Failure β}

theorem Refuses.bind {result : Except Failure α} {g : α → Except Failure β}
    (h : Refuses result) : Refuses (result >>= g) := by
  obtain ⟨e, rfl⟩ := h
  exact ⟨e, rfl⟩

/-- A pass over slots fails if one of them is refused in every state. -/
theorem foldlM_refuses {slots : List α}
    (hstep : ∀ slot ∈ slots, ∀ state,
      (∃ next, f state slot = .ok next) ∨ Refuses (f state slot))
    {bad : α} (hmem : bad ∈ slots) (hbad : ∀ state, Refuses (f state bad)) :
    ∀ state, Refuses (slots.foldlM f state) := by
  induction slots with
  | nil => cases hmem
  | cons slot slots ih =>
      intro state
      rw [List.foldlM_cons]
      rcases hstep slot List.mem_cons_self state with ⟨next, hnext⟩ | hrefuses
      · rcases List.mem_cons.mp hmem with hhead | hrest
        · rw [← hhead]
          exact (hbad state).bind
        · rw [hnext]
          exact ih (fun s hs => hstep s (List.mem_cons_of_mem slot hs)) hrest
            next
      · exact hrefuses.bind

/-- A pass without a state, likewise. -/
theorem forM_refuses {g : α → Except Failure Unit} {slots : List α}
    (hstep : ∀ slot ∈ slots, g slot = .ok () ∨ Refuses (g slot))
    {bad : α} (hmem : bad ∈ slots) (hbad : Refuses (g bad)) :
    Refuses (slots.forM g) := by
  induction slots with
  | nil => cases hmem
  | cons slot slots ih =>
      show Refuses (g slot >>= fun _ => slots.forM g)
      rcases hstep slot List.mem_cons_self with hok | hrefuses
      · rcases List.mem_cons.mp hmem with hhead | hrest
        · rw [← hhead]
          exact hbad.bind
        · rw [hok]
          exact ih (fun s hs => hstep s (List.mem_cons_of_mem slot hs)) hrest
      · exact hrefuses.bind

end

/-! ## One slot of each pass -/

section

variable {os : String} {fds : FdTable} {ownership : PipeOwnership}

theorem checkSlot_cases (slot : Fd) :
    checkSlot os fds slot = .ok () ∨ Refuses (checkSlot os fds slot) := by
  rw [checkSlot]
  cases hget : fds.get? slot with
  | none => exact Or.inl rfl
  | some r =>
      cases r with
      | merge target =>
          by_cases hmerge : isMerge (fds.get? target) = true
          · exact Or.inr ⟨_, if_pos hmerge⟩
          · exact Or.inl (if_neg hmerge)
      | _ => exact Or.inl rfl

theorem checkSlot_refuses {slot target : Fd}
    (hget : fds.get? slot = some (.merge target))
    (hmerge : isMerge (fds.get? target) = true) :
    Refuses (checkSlot os fds slot) := by
  rw [checkSlot, hget]
  exact ⟨_, if_pos hmerge⟩

theorem mergeSlot_cases (slot : Fd) (ends : Ends) :
    (∃ next, mergeSlot os fds ownership ends slot = .ok next) ∨
      Refuses (mergeSlot os fds ownership ends slot) := by
  rw [mergeSlot]
  cases hget : fds.get? slot with
  | none => exact Or.inl ⟨ends, rfl⟩
  | some r =>
      cases r with
      | merge target =>
          by_cases hdeferred : ownership = .deferred ∧ target.raw < 3 ∧
              isPipe (fds.get? target) = true
          · exact Or.inr ⟨_, if_pos hdeferred⟩
          · dsimp only
            rw [if_neg hdeferred]
            cases ends.child target with
            | none => exact Or.inr ⟨_, rfl⟩
            | some src => exact Or.inl ⟨_, rfl⟩
      | _ => exact Or.inl ⟨ends, rfl⟩

theorem mergeSlot_refuses {slot target : Fd}
    (hget : fds.get? slot = some (.merge target))
    (hdeferred : isDeferred fds ownership target = true) (ends : Ends) :
    Refuses (mergeSlot os fds ownership ends slot) := by
  have hall : ownership = .deferred ∧ target.raw < 3 ∧
      isPipe (fds.get? target) = true := by
    simpa [isDeferred, and_assoc] using hdeferred
  rw [mergeSlot, hget]
  exact ⟨_, if_pos hall⟩

theorem inheritFailure_refuses {slot : Fd} {e : Failure} {α : Type}
    (h : inheritFailure fds slot = some e) :
    Refuses (.error e : Except Failure α) := by
  rw [inheritFailure] at h
  by_cases hslot : fds.get? slot = some .inherit ∧ 3 ≤ slot.raw
  · rw [if_pos hslot] at h
    cases h
    exact ⟨_, rfl⟩
  · rw [if_neg hslot] at h
    cases h

theorem mergeFailure_refuses {child : SlotMap ChildEnd} {slot : Fd}
    {e : Failure} {α : Type} (h : mergeFailure os fds child slot = some e) :
    Refuses (.error e : Except Failure α) := by
  rw [mergeFailure] at h
  cases hget : fds.get? slot with
  | none =>
      rw [hget] at h
      cases h
  | some r =>
      rw [hget] at h
      cases r with
      | merge target =>
          dsimp only at h
          by_cases hnone : (child target).isNone = true
          · rw [if_pos hnone] at h
            cases h
            exact ⟨_, rfl⟩
          · rw [if_neg hnone] at h
            cases h
      | _ => cases h

end

/-! ## The ends of a map -/

section

variable {os : String} {fds : DescriptorMap} {ownership : PipeOwnership}

/-- What the first pass writes, in any order. -/
abbrev soloMap (fds : DescriptorMap) (ownership : PipeOwnership) :
    SlotMap ChildEnd :=
  firstMap fds.table ownership (syncSlots fds.table)

/-- What both passes write, in any order. -/
def wiring (fds : DescriptorMap) (ownership : PipeOwnership) : Ends where
  child := fun s =>
    if s ∈ syncSlots fds.table then
      (mergeEnd fds.table (soloMap fds ownership) s).or
        (firstEnd fds.table ownership s)
    else none
  parent := fun s =>
    if s ∈ syncSlots fds.table then firstParent fds.table ownership s
    else none

theorem firstMap_order (order : SlotOrder fds) :
    firstMap fds.table ownership order.slots = soloMap fds ownership := by
  funext s
  have hmem : s ∈ order.slots ↔ s ∈ syncSlots fds.table := order.perm.mem_iff
  simp only [soloMap, firstMap, hmem]

theorem isDeferred_iff {slot : Fd} :
    isDeferred fds.table ownership slot = true ↔
      isPipe (fds.table.get? slot) = true ∧ ¬ Owns ownership slot := by
  simp [isDeferred, Owns, and_comm, and_assoc]

theorem soloMap_of_not_deferred {slot : Fd}
    (h : isDeferred fds.table ownership slot = false) :
    soloMap fds ownership slot = syncMap fds.toStdioMap slot := by
  simp [soloMap, syncMap, firstMap, firstEnd, h, isDeferred_owned]

theorem wiring_merge {slot target : Fd}
    (hget : fds.table.get? slot = some (.merge target)) :
    (wiring fds ownership).child slot = soloMap fds ownership target := by
  have hsolo : firstEnd fds.table ownership slot = none := by
    simp [firstEnd, soloEnd, hget]
  have hmerge : mergeEnd fds.table (soloMap fds ownership) slot =
      soloMap fds ownership target := by
    rw [mergeEnd, hget]
  rw [wiring]
  dsimp only
  rw [if_pos (mem_syncSlots hget), hmerge, hsolo, Option.or_none]

theorem wiring_solo {slot : Fd}
    (hget : isMerge (fds.table.get? slot) = false) :
    (wiring fds ownership).child slot = soloMap fds ownership slot := by
  have hmerge : mergeEnd fds.table (soloMap fds ownership) slot = none := by
    rw [mergeEnd]
    cases h : fds.table.get? slot with
    | none => rfl
    | some r =>
        cases r with
        | merge target =>
            rw [h] at hget
            cases hget
        | _ => rfl
  rw [wiring]
  dsimp only
  rw [hmerge, Option.none_or]
  rfl

/-- What a configured slot resolves to by itself. -/
theorem soloMap_configured {slot : Fd} {r : ResolvedStdio}
    (hget : fds.table.get? slot = some r)
    (h : isDeferred fds.table ownership slot = false) :
    soloMap fds ownership slot = soloEnd fds.table slot := by
  rw [soloMap, firstMap, if_pos (mem_syncSlots hget), firstEnd, h]
  rfl

theorem soloMap_std {slot : Fd} (hstd : slot ∈ stdSlots)
    (hget : fds.table.get? slot = none) :
    soloMap fds ownership slot = some (.inherited slot) := by
  have hmem : slot ∈ syncSlots fds.table := List.mem_append_left _ hstd
  have hlow : ¬ 3 ≤ slot.raw := fun h =>
    not_lt_iff.mpr h (lt_of_mem_stdSlots hstd)
  simp [soloMap, firstMap, hmem, firstEnd, isDeferred, isPipe, soloEnd, hget,
    hlow]

theorem soloMap_eq_none_iff {slot : Fd}
    (hmerge : isMerge (fds.table.get? slot) = false) :
    soloMap fds ownership slot = none ↔
      (fds.table.get? slot = none ∧ slot ∉ stdSlots) ∨
        (isPipe (fds.table.get? slot) = true ∧ ¬ Owns ownership slot) := by
  rw [← isDeferred_iff]
  by_cases hdeferred : isDeferred fds.table ownership slot = true
  · simp [soloMap, firstMap, firstEnd, hdeferred]
  · have hfalse : isDeferred fds.table ownership slot = false := by
      simpa using hdeferred
    rw [soloMap_of_not_deferred hfalse, syncMap_eq_none_iff hmerge]
    simp [hfalse, and_comm]

/-- A map that is not refused resolves every merge. -/
theorem target_of_not_refused (h : ¬ Refused fds ownership) {slot target : Fd}
    (hget : fds.table.get? slot = some (.merge target)) :
    isMerge (fds.table.get? target) = false ∧
      isDeferred fds.table ownership target = false ∧
      ¬ (3 ≤ target.raw ∧ fds.table.get? target = none) := by
  rw [Refused, not_or, not_or, not_or] at h
  obtain ⟨hchain, hconfigured, -, hpiped⟩ := h
  refine ⟨?_, ?_, fun htarget => hconfigured ⟨slot, target, hget, htarget⟩⟩
  · by_cases hmerge : isMerge (fds.table.get? target) = true
    · exact absurd ⟨slot, target, hget, hmerge⟩ hchain
    · simpa using hmerge
  · by_cases hdeferred : isDeferred fds.table ownership target = true
    · have hall : ownership = .deferred ∧ target.raw < 3 ∧
          isPipe (fds.table.get? target) = true := by
        simpa [isDeferred, and_assoc] using hdeferred
      have hstd := mem_stdSlots (fds.targets_nonneg slot target hget) hall.2.1
      exact absurd ⟨hall.1, slot, target, hget, hstd, hall.2.2⟩ hpiped
    · simpa using hdeferred

/-- A merging slot has the object of its target. -/
theorem wiring_merge_some (h : ¬ Refused fds ownership) {slot target : Fd}
    (hget : fds.table.get? slot = some (.merge target)) :
    ∃ childEnd, (wiring fds ownership).child slot = some childEnd ∧
      (wiring fds ownership).child target = some childEnd := by
  obtain ⟨hmerge, hdeferred, htarget⟩ := target_of_not_refused h hget
  have hsome : soloMap fds ownership target ≠ none := by
    rw [Ne, soloMap_eq_none_iff hmerge, ← isDeferred_iff]
    rintro (⟨hnone, hstd⟩ | htrue)
    · refine htarget ⟨?_, hnone⟩
      by_cases hlow : target.raw < 3
      · exact absurd (mem_stdSlots (fds.targets_nonneg slot target hget)
          hlow) hstd
      · exact not_lt_iff.mp hlow
    · rw [hdeferred] at htrue
      cases htrue
  obtain ⟨childEnd, hend⟩ := Option.ne_none_iff_exists'.mp hsome
  refine ⟨childEnd, ?_, ?_⟩
  · rw [wiring_merge hget, hend]
  · rw [wiring_solo hmerge, hend]

theorem wiring_parent {slot : Fd} {end_ : ParentEnd} :
    (wiring fds ownership).parent slot = some end_ ↔
      ∃ dir, fds.table.get? slot = some (.pipe dir) ∧ Owns ownership slot ∧
        end_ = parentEnd slot dir := by
  rw [wiring]
  dsimp only
  cases hget : fds.table.get? slot with
  | none =>
      have hnone : firstParent fds.table ownership slot = none := by
        simp [firstParent, soloParent, hget]
      simp [hnone]
  | some r =>
      rw [if_pos (mem_syncSlots hget), firstParent]
      cases r with
      | pipe dir =>
          have hiff : isDeferred fds.table ownership slot = true ↔
              ¬ Owns ownership slot := by
            simp [isDeferred_iff, hget, isPipe]
          by_cases howns : Owns ownership slot
          · have hfalse : isDeferred fds.table ownership slot = false := by
              rw [← Bool.not_eq_true, hiff]
              simpa using howns
            simp [hfalse, soloParent, hget, howns, eq_comm]
          · rw [if_pos (hiff.mpr howns)]
            simp [howns]
      | _ => simp [soloParent, hget]

/-- The ends of a map that is not refused are those that it asks for. -/
theorem wiring_wired (h : ¬ Refused fds ownership) :
    Wired fds ownership (wiring fds ownership) := by
  have hsolo (slot : Fd) (r : ResolvedStdio)
      (hget : fds.table.get? slot = some r) (hr : isMerge (some r) = false)
      (hdeferred : isDeferred fds.table ownership slot = false) :
      (wiring fds ownership).child slot = soloEnd fds.table slot := by
    rw [wiring_solo (by rw [hget]; exact hr), soloMap_configured hget hdeferred]
  constructor
  case merge => exact fun slot target hget => wiring_merge_some h hget
  case unconfigured =>
    intro slot hstd hget
    rw [wiring_solo (by rw [hget]; rfl), soloMap_std hstd hget]
  case inherit =>
    intro slot hget
    rw [hsolo slot _ hget rfl (by simp [isDeferred, isPipe, hget]), soloEnd,
      hget]
  case null =>
    intro slot hget
    rw [hsolo slot _ hget rfl (by simp [isDeferred, isPipe, hget]), soloEnd,
      hget]
  case file =>
    intro slot handle hget
    rw [hsolo slot _ hget rfl (by simp [isDeferred, isPipe, hget]), soloEnd,
      hget]
  case pipe =>
    intro slot dir hget howns
    have hdeferred : isDeferred fds.table ownership slot = false := by
      by_cases htrue : isDeferred fds.table ownership slot = true
      · exact absurd howns (isDeferred_iff.mp htrue).2
      · simpa using htrue
    rw [hsolo slot _ hget rfl hdeferred, soloEnd, hget]
  case none =>
    intro slot
    cases hmerge : isMerge (fds.table.get? slot) with
    | false => rw [wiring_solo hmerge, soloMap_eq_none_iff hmerge]
    | true =>
        cases hget : fds.table.get? slot with
        | none =>
            rw [hget] at hmerge
            cases hmerge
        | some r =>
            cases r with
            | merge target =>
                obtain ⟨childEnd, hend, -⟩ := wiring_merge_some h hget
                simp [hend, isPipe]
            | _ =>
                rw [hget] at hmerge
                cases hmerge
  case parent => exact fun slot end_ => wiring_parent

/-! ## Every order -/

/-- A map that is refused fails in every order. -/
theorem resolveStdio_refuses (h : Refused fds ownership)
    (order : SlotOrder fds) :
    Refuses (resolveStdio os fds.table order.slots ownership) := by
  have hslots (slot : Fd) (hmem : slot ∈ order.slots) : IsSlot slot :=
    isSlot_of_mem (order.perm.mem_iff.mp hmem)
  have hmem {slot : Fd} {r : ResolvedStdio}
      (hget : fds.table.get? slot = some r) : slot ∈ order.slots :=
    order.perm.mem_iff.mpr (mem_syncSlots hget)
  have hinherits {e : Failure} {α : Type}
      (hfail : order.slots.findSome? (inheritFailure fds.table) = some e) :
      Refuses (.error e : Except Failure α) := by
    obtain ⟨slot, -, hslot⟩ := List.exists_of_findSome?_eq_some hfail
    exact inheritFailure_refuses hslot
  by_cases hchain : ∃ slot target,
      fds.table.get? slot = some (.merge target) ∧
        isMerge (fds.table.get? target) = true
  · obtain ⟨slot, target, hget, hmerge⟩ := hchain
    exact (forM_refuses (fun slot _ => checkSlot_cases slot) (hmem hget)
      (checkSlot_refuses hget hmerge)).bind
  have hunchained (slot target : Fd)
      (hget : fds.table.get? slot = some (.merge target)) :
      isMerge (fds.table.get? target) = false := by
    by_cases hmerge : isMerge (fds.table.get? target) = true
    · exact absurd ⟨slot, target, hget, hmerge⟩ hchain
    · simpa using hmerge
  by_cases hpiped : ∃ slot target,
      fds.table.get? slot = some (.merge target) ∧
        isDeferred fds.table ownership target = true
  · obtain ⟨slot, target, hget, hdeferred⟩ := hpiped
    have hcheck : order.slots.forM (checkSlot os fds.table) = .ok () :=
      @checkPass_ok os fds.table .owned _ fun slot _ target hget =>
        ⟨hunchained slot target hget, rfl⟩
    rw [resolveStdio, hcheck]
    show Refuses (order.slots.foldlM (resolveSlot fds.table ownership)
      Ends.empty >>= fun ends =>
        order.slots.foldlM (mergeSlot os fds.table ownership) ends)
    rw [firstPass_eq hslots]
    cases hfail : order.slots.findSome? (inheritFailure fds.table) with
    | some e => exact (hinherits hfail).bind
    | none =>
        exact foldlM_refuses (fun slot _ ends => mergeSlot_cases slot ends)
          (hmem hget) (mergeSlot_refuses hget hdeferred) _
  -- Neither a chain nor a deferred pipe: the passes write what `resolveStdio_eq`
  -- says, and one of the two remaining conditions fails them.
  have hmerges : MergesResolved fds.table ownership order.slots := by
    refine fun slot _ target hget => ⟨hunchained slot target hget, ?_⟩
    by_cases hdeferred : isDeferred fds.table ownership target = true
    · exact absurd ⟨slot, target, hget, hdeferred⟩ hpiped
    · simpa using hdeferred
  rw [resolveStdio_eq hslots hmerges, firstMap_order]
  cases hfail : order.slots.findSome? (inheritFailure fds.table) with
  | some e => exact hinherits hfail
  | none =>
      cases hmergeFail : order.slots.findSome?
          (mergeFailure os fds.table (soloMap fds ownership)) with
      | some e =>
          obtain ⟨slot, -, hslot⟩ := List.exists_of_findSome?_eq_some hmergeFail
          exact mergeFailure_refuses hslot
      | none =>
          rw [List.findSome?_eq_none_iff] at hfail hmergeFail
          rcases h with h | ⟨slot, target, hget, hhigh, htarget⟩ |
            ⟨slot, hget, hhigh⟩ | ⟨howner, slot, target, hget, hstd, hpipe⟩
          · exact absurd h hchain
          · have hsolo : soloMap fds ownership target = none :=
              (soloMap_eq_none_iff (hunchained slot target hget)).mpr
                (Or.inl ⟨htarget, fun hstd =>
                  not_lt_iff.mpr hhigh (lt_of_mem_stdSlots hstd)⟩)
            have hnone := hmergeFail slot (hmem hget)
            simp [mergeFailure, hget, hsolo] at hnone
          · have hnone := hfail slot (hmem hget)
            simp [inheritFailure, hget, hhigh] at hnone
          · refine absurd ⟨slot, target, hget, ?_⟩ hpiped
            simp [isDeferred, howner, hpipe, lt_of_mem_stdSlots hstd]

/-- A map that is not refused is resolved alike in every order. -/
theorem resolveStdio_ok (h : ¬ Refused fds ownership)
    (order : SlotOrder fds) :
    resolveStdio os fds.table order.slots ownership =
      .ok (wiring fds ownership) := by
  have hslots (slot : Fd) (hmem : slot ∈ order.slots) : IsSlot slot :=
    isSlot_of_mem (order.perm.mem_iff.mp hmem)
  have hmerges : MergesResolved fds.table ownership order.slots :=
    fun slot _ target hget =>
      have htarget := target_of_not_refused h hget
      ⟨htarget.1, htarget.2.1⟩
  have hinherit : order.slots.findSome? (inheritFailure fds.table) = none := by
    refine List.findSome?_eq_none_iff.mpr fun slot _ => ?_
    rw [inheritFailure, if_neg]
    exact fun hslot => h (Or.inr (Or.inr (Or.inl ⟨slot, hslot⟩)))
  have hmerge : order.slots.findSome?
      (mergeFailure os fds.table (soloMap fds ownership)) = none := by
    refine List.findSome?_eq_none_iff.mpr fun slot _ => ?_
    rw [mergeFailure]
    cases hget : fds.table.get? slot with
    | none => rfl
    | some r =>
        cases r with
        | merge target =>
            obtain ⟨childEnd, hend, -⟩ := wiring_merge_some h hget
            rw [wiring_merge hget] at hend
            simp [hend]
        | _ => rfl
  rw [resolveStdio_eq hslots hmerges, firstMap_order, hinherit, hmerge, wiring]
  simp only [order.perm.mem_iff]

end

/-- The resolution does not depend on the order of its slots: a map that is
refused fails in every order, and every other one gives the same ends in every
order, those that it asks for. -/
theorem resolveStdio_wired (os : String) (fds : DescriptorMap)
    (ownership : PipeOwnership) :
    (Refused fds ownership → ∀ order : SlotOrder fds,
      Refuses (resolveStdio os fds.table order.slots ownership)) ∧
    (¬ Refused fds ownership → ∃ ends, Wired fds ownership ends ∧
      ∀ order : SlotOrder fds,
        resolveStdio os fds.table order.slots ownership = .ok ends) := by
  constructor
  · exact fun h order => resolveStdio_refuses h order
  · intro h
    exact ⟨wiring fds ownership, wiring_wired h, resolveStdio_ok h⟩

/-- stderr merged into a piped stdout, which is refused if tokio owns the
pipe. -/
def mergedMap : DescriptorMap where
  table := [(Fd.stdout, .pipe .output), (Fd.stderr, .merge Fd.stdout)]
  nodup := by decide
  nonneg := by decide
  targets_nonneg := by
    intro slot target h
    have hmem := mem_of_get? h
    simp at hmem
    rw [hmem.2]
    decide

example : Refused mergedMap .deferred :=
  Or.inr (Or.inr (Or.inr ⟨rfl, Fd.stderr, Fd.stdout, rfl, by decide, rfl⟩))

end Cosca.Ports.StdioOrder
