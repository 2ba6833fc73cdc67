import Cosca.Ports.SpawnStdio

/-!
# The sync and the async descriptors

All that differs between the two spawns is the direction of the pipes that tokio
makes.

## Main results

* `asyncStdio_agrees_iff`: the tables on which the two spawns give the child
  and the parent the same.
-/

namespace Cosca.Ports.AsyncStdio

open Cosca.Ports.CommandRecord
open Cosca.Ports.Errors
open Cosca.Ports.StdioEnds

section

variable {os : String} {fds : StdioMap}

/-! ## What both reject -/

/-- A table that neither spawn takes: it chains merges, inherits a descriptor
from 3 on, or merges into a descriptor that it does not configure. -/
def Rejected (fds : StdioMap) : Prop :=
  isChained fds.table = true ∨
    (∃ s, fds.table.get? s = some .inherit ∧ 3 ≤ s.raw) ∨
      ∃ s t, fds.table.get? s = some (.merge t) ∧ t ∉ stdSlots ∧
        fds.table.get? t = none

theorem checkPass_chained (hchain : isChained fds.table = true) :
    ∃ e, (syncSlots fds.table).forM (checkSlot os fds.table) = .error e := by
  obtain ⟨⟨s, r⟩, hmem, hr⟩ := List.any_eq_true.mp hchain
  have hget := get?_of_mem fds.nodup hmem
  have hslot := mem_syncSlots hget
  have hfail : ∃ e, checkSlot os fds.table s = .error e := by
    cases r with
    | merge t =>
        have hmerge : isMerge (fds.table.get? t) = true := hr
        rw [checkSlot, hget]
        simp only
        rw [if_pos hmerge]
        exact ⟨_, rfl⟩
    | _ => cases hr
  cases hpass : (syncSlots fds.table).forM (checkSlot os fds.table) with
  | error e => exact ⟨e, rfl⟩
  | ok u =>
      obtain ⟨e, he⟩ := hfail
      rw [forM_eq_ok hpass s hslot] at he
      cases he

/-- Chained merges are rejected alike. -/
theorem chained_eq (hchain : isChained fds.table = true) :
    ∃ e, syncStdio os fds = .error e ∧ asyncStdio os fds = .error e := by
  obtain ⟨e, he⟩ := @checkPass_chained os fds hchain
  have hcore : ∀ ownership, resolveStdio os fds.table (syncSlots fds.table)
      ownership = .error e := by
    intro ownership
    rw [resolveStdio, he]
    rfl
  refine ⟨e, ?_, ?_⟩
  · show (resolveStdio os fds.table (syncSlots fds.table) .owned >>= _) = _
    rw [hcore]
    rfl
  · rw [asyncStdio, prePass, hchain]
    show (resolveStdio os fds.table (syncSlots fds.table) .deferred >>= _) = _
    rw [hcore]
    rfl

theorem inheritFailure_eq_none_iff :
    (syncSlots fds.table).findSome? (inheritFailure fds.table) = none ↔
      ∀ s, fds.table.get? s = some .inherit → ¬ 3 ≤ s.raw := by
  rw [List.findSome?_eq_none_iff]
  constructor
  · intro h s hget hhigh
    have hnone := h s (mem_syncSlots hget)
    rw [inheritFailure, if_pos ⟨hget, hhigh⟩] at hnone
    cases hnone
  · intro h s _
    rw [inheritFailure, if_neg]
    rintro ⟨hget, hhigh⟩
    exact h s hget hhigh

/-- A target holds nothing if it is not configured. -/
theorem syncMap_eq_none_iff {t : Fd}
    (hmerge : isMerge (fds.table.get? t) = false) :
    syncMap fds t = none ↔ t ∉ stdSlots ∧ fds.table.get? t = none := by
  by_cases hstd : t ∈ stdSlots
  · have hmem : t ∈ syncSlots fds.table := List.mem_append_left _ hstd
    have hlow : ¬ 3 ≤ t.raw := fun h =>
      not_lt_iff.mpr h (lt_of_mem_stdSlots hstd)
    cases hget : fds.table.get? t with
    | none => simp [syncMap, firstMap, hmem, firstEnd, isDeferred_owned,
        soloEnd, hget, hlow, hstd]
    | some r =>
        rw [hget] at hmerge
        cases r with
        | merge t' => cases hmerge
        | _ => simp [syncMap, firstMap, hmem, firstEnd, isDeferred_owned,
            soloEnd, hget, hstd]
  · cases hget : fds.table.get? t with
    | none =>
        by_cases hmem : t ∈ syncSlots fds.table
        · have hhigh : 3 ≤ t.raw := (isSlot_of_mem hmem).resolve_left hstd
          simp [syncMap, firstMap, firstEnd, soloEnd, hget, hhigh, hstd]
        · simp [syncMap, firstMap, hmem, hstd]
    | some r =>
        rw [hget] at hmerge
        cases r with
        | merge t' => cases hmerge
        | _ => simp [syncMap, firstMap, mem_syncSlots hget, firstEnd,
            isDeferred_owned, soloEnd, hget]

theorem mergeFailure_eq_none_iff (hchain : isChained fds.table = false) :
    (syncSlots fds.table).findSome?
        (mergeFailure os fds.table (syncMap fds)) = none ↔
      ∀ s t, fds.table.get? s = some (.merge t) →
        ¬ (t ∉ stdSlots ∧ fds.table.get? t = none) := by
  rw [List.findSome?_eq_none_iff]
  constructor
  · intro h s t hget hnot
    have hnone := h s (mem_syncSlots hget)
    rw [← syncMap_eq_none_iff (isMerge_target hchain hget)] at hnot
    simp [mergeFailure, hget, hnot] at hnone
  · intro h s _
    rw [mergeFailure]
    cases hget : fds.table.get? s with
    | none => rfl
    | some r =>
        cases r with
        | merge t =>
            have hnot := h s t hget
            rw [← syncMap_eq_none_iff (isMerge_target hchain hget)] at hnot
            simp [hnot]
        | _ => rfl

/-! ## Agreement -/

/-- What a descriptor is, apart from which one. -/
inductive Kind where
  | inherited (slot : Fd)
  | null
  | file (handle : Nat)
  | pipe (dir : Direction)
  deriving DecidableEq, Repr

def kind : ChildEnd → Kind
  | .inherited slot => .inherited slot
  | .null _ => .null
  | .file handle => .file handle
  | .pipe dir _ => .pipe dir

/-- The parent writes to the pipe. -/
def isWriter : ParentEnd → Bool
  | .writer _ => true
  | .reader _ => false

/-- The child's descriptors are of the same kinds and directions, the same of
them share an object, and the parent holds the same ends. -/
structure Alike (a b : Ends) : Prop where
  kinds : ∀ slot, (a.child slot).map kind = (b.child slot).map kind
  sharing : ∀ slot slot',
    a.child slot = a.child slot' ↔ b.child slot = b.child slot'
  parents : ∀ slot, (a.parent slot).map isWriter = (b.parent slot).map isWriter

/-- Both spawns fail alike, or give the same. -/
def Agree : Except Failure Ends → Except Failure Ends → Prop
  | .ok a, .ok b => Alike a b
  | .error e, .error e' => e = e'
  | _, _ => False

/-- A piped std slot has the direction of its stream, unless a merge targets
it. -/
def Natural (fds : StdioMap) : Prop :=
  ∀ slot ∈ stdSlots, ∀ dir, fds.table.get? slot = some (.pipe dir) →
    dir = pipedDirection slot ∨ ∃ s, fds.table.get? s = some (.merge slot)

theorem isTokioPipe_iff {s : Fd} {dir : Direction} (hstd : s ∈ stdSlots)
    (hget : fds.table.get? s = some (.pipe dir)) :
    isTokioPipe fds s = true ↔
      ¬ ∃ s', fds.table.get? s' = some (.merge s) := by
  have hmem := @mem_mergeTargets fds.table fds.nodup s
  simp only [hstd, hget, isPipe, true_and] at hmem
  rw [← hmem]
  simp [isTokioPipe, hstd, isPipe, hget]

/-- A pipe of tokio is a piped slot. -/
theorem of_isTokioPipe {s : Fd} (h : isTokioPipe fds s = true) :
    s ∈ stdSlots ∧ ∃ dir, fds.table.get? s = some (.pipe dir) := by
  simp only [isTokioPipe, Bool.and_eq_true, List.contains_iff_mem] at h
  refine ⟨h.1.1, ?_⟩
  cases hget : fds.table.get? s with
  | none =>
      rw [hget] at h
      cases h.1.2
  | some r =>
      rw [hget] at h
      cases r with
      | pipe dir => exact ⟨dir, rfl⟩
      | _ => cases h.1.2

/-- Where every pipe of tokio has the direction that was asked for, the two
spawns give the same. -/
theorem asyncStdio_eq_sync (hchain : isChained fds.table = false)
    (hnatural : Natural fds) : asyncStdio os fds = syncStdio os fds := by
  rw [asyncStdio_eq hchain, syncStdio_eq hchain]
  cases (syncSlots fds.table).findSome? (inheritFailure fds.table) with
  | some e => rfl
  | none =>
      cases (syncSlots fds.table).findSome?
          (mergeFailure os fds.table (syncMap fds)) with
      | some e => rfl
      | none =>
          have hdir : ∀ s, isTokioPipe fds s = true → s ∈ stdSlots ∧
              fds.table.get? s = some (.pipe (pipedDirection s)) := by
            intro s hs
            obtain ⟨hstd, dir, hget⟩ := of_isTokioPipe hs
            rcases hnatural s hstd dir hget with rfl | hmerge
            · exact ⟨hstd, hget⟩
            · exact absurd hmerge ((isTokioPipe_iff hstd hget).mp hs)
          show Except.ok _ = Except.ok _
          congr 2
          · funext s
            by_cases hs : isTokioPipe fds s = true
            · obtain ⟨hstd, hget⟩ := hdir s hs
              rw [if_pos hs, if_pos hstd, syncEnd_pipe hget]
              rfl
            · rw [if_neg hs]
          · funext s
            by_cases hs : isTokioPipe fds s = true
            · obtain ⟨-, hget⟩ := hdir s hs
              rw [if_pos hs, soloParent, hget]
            · rw [if_neg hs]

theorem Agree.refl (x : Except Failure Ends) : Agree x x := by
  cases x with
  | error e => exact rfl
  | ok ends => exact ⟨fun _ => rfl, fun _ _ => Iff.rfl, fun _ => rfl⟩

/-- What neither takes is rejected alike. -/
theorem agree_of_rejected (hchain : isChained fds.table = false)
    (hrejected : Rejected fds) :
    Agree (syncStdio os fds) (asyncStdio os fds) := by
  rw [asyncStdio_eq hchain, syncStdio_eq hchain]
  cases hinherit : (syncSlots fds.table).findSome?
      (inheritFailure fds.table) with
  | some e => exact rfl
  | none =>
      cases hmerges : (syncSlots fds.table).findSome?
          (mergeFailure os fds.table (syncMap fds)) with
      | some e => exact rfl
      | none =>
          rcases hrejected with h | ⟨s, hget, hhigh⟩ | ⟨s, t, hget, hnot⟩
          · rw [hchain] at h
            cases h
          · exact absurd hhigh (inheritFailure_eq_none_iff.mp hinherit s hget)
          · exact absurd hnot
              ((mergeFailure_eq_none_iff hchain).mp hmerges s t hget)

/-- A tokio pipe of the other direction is not what was asked for. -/
theorem not_agree (hchain : isChained fds.table = false)
    (hinherit : ∀ s, fds.table.get? s = some .inherit → ¬ 3 ≤ s.raw)
    (hmerges : ∀ s t, fds.table.get? s = some (.merge t) →
      ¬ (t ∉ stdSlots ∧ fds.table.get? t = none))
    (h : Agree (syncStdio os fds) (asyncStdio os fds)) : Natural fds := by
  intro slot hstd dir hget
  by_cases hmerge : ∃ s, fds.table.get? s = some (.merge slot)
  · exact Or.inr hmerge
  · left
    rw [asyncStdio_eq hchain, syncStdio_eq hchain,
      inheritFailure_eq_none_iff.mpr hinherit,
      (mergeFailure_eq_none_iff hchain).mpr hmerges] at h
    have hkind := h.kinds slot
    have htokio := (isTokioPipe_iff hstd hget).mpr hmerge
    simp only [hstd, htokio, if_true, syncEnd_pipe hget] at hkind
    have hpipe : Kind.pipe dir = Kind.pipe (pipedDirection slot) :=
      Option.some.inj hkind
    exact Kind.pipe.inj hpipe

end

/-- The sync and the async spawn agree on a table exactly when neither takes
it, or every piped std slot that no merge targets has the direction of its
stream. -/
theorem asyncStdio_agrees_iff (os : String) (fds : StdioMap) :
    Agree (syncStdio os fds) (asyncStdio os fds) ↔
      Rejected fds ∨ Natural fds := by
  by_cases hchain : isChained fds.table = true
  · obtain ⟨e, hsync, hasync⟩ := @chained_eq os fds hchain
    rw [hsync, hasync]
    exact ⟨fun _ => Or.inl (Or.inl hchain), fun _ => rfl⟩
  · have hfree : isChained fds.table = false := by simpa using hchain
    constructor
    · intro h
      by_cases hrejected : Rejected fds
      · exact Or.inl hrejected
      · refine Or.inr (not_agree hfree ?_ ?_ h)
        · exact fun s hget hhigh => hrejected (Or.inr (Or.inl ⟨s, hget, hhigh⟩))
        · exact fun s t hget hnot =>
            hrejected (Or.inr (Or.inr ⟨s, t, hget, hnot⟩))
    · rintro (hrejected | hnatural)
      · exact agree_of_rejected hfree hrejected
      · rw [asyncStdio_eq_sync hfree hnatural]
        exact Agree.refl _

/-- A stdin that the child writes to: the async spawn makes it read. -/
theorem asyncStdio_pipe_out : ¬ Agree
    (syncStdio "linux" ⟨[(Fd.stdin, .pipe .output)], by decide, by decide⟩)
    (asyncStdio "linux"
      ⟨[(Fd.stdin, .pipe .output)], by decide, by decide⟩) := by
  intro h
  have hkind := h.kinds Fd.stdin
  revert hkind
  decide

end Cosca.Ports.AsyncStdio


