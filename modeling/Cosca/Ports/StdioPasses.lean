import Cosca.Ports.StdioEnds

/-!
# The passes of `resolve_stdio`

The loops of `resolve_stdio` write every slot once, so that each pass has a
closed form: the first slot that fails, or what each slot gets.

## Main results

* `resolveStdio_eq`: the closed form of the whole.
-/

namespace Cosca.Ports.AsyncStdio

open Cosca.Ports.CommandRecord
open Cosca.Ports.StdioEnds

/-! ## Tables -/

theorem mem_stdSlots {slot : Fd} (hlow : 0 ≤ slot.raw) (hhigh : slot.raw < 3) :
    slot ∈ stdSlots := by
  have h0 : 0 ≤ slot.raw.toInt := Int32.le_iff_toInt_le.mp hlow
  have h3 : slot.raw.toInt < 3 := Int32.lt_iff_toInt_lt.mp hhigh
  have hraw : slot.raw.toInt = 0 ∨ slot.raw.toInt = 1 ∨ slot.raw.toInt = 2 := by
    omega
  cases slot with
  | mk raw =>
      rcases hraw with h | h | h
      · have : raw = 0 := Int32.toInt_inj.mp h
        subst this
        decide
      · have : raw = 1 := Int32.toInt_inj.mp h
        subst this
        decide
      · have : raw = 2 := Int32.toInt_inj.mp h
        subst this
        decide

theorem lt_of_mem_stdSlots {slot : Fd} (h : slot ∈ stdSlots) :
    slot.raw < 3 := by
  simp only [stdSlots, List.mem_cons, List.not_mem_nil, or_false] at h
  rcases h with rfl | rfl | rfl <;> decide

theorem not_lt_iff {slot : Fd} : ¬ slot.raw < 3 ↔ 3 ≤ slot.raw := by
  rw [Int32.lt_iff_toInt_lt, Int32.le_iff_toInt_le]
  omega

theorem mem_of_get? {fds : FdTable} {slot : Fd} {r : ResolvedStdio}
    (h : fds.get? slot = some r) : (slot, r) ∈ fds := by
  obtain ⟨⟨s, r'⟩, hfind, hr⟩ := Option.map_eq_some_iff.mp h
  have hs : s = slot := by
    have := List.find?_some hfind
    simpa using this
  have hr' : r' = r := hr
  rw [← hs, ← hr']
  exact List.mem_of_find?_eq_some hfind

theorem get?_of_mem {fds : FdTable}
    (hnodup : (fds.map fun (slot, _) => slot).Nodup) {slot : Fd}
    {r : ResolvedStdio} (h : (slot, r) ∈ fds) : fds.get? slot = some r := by
  induction fds with
  | nil => cases h
  | cons entry fds ih =>
      obtain ⟨s, r'⟩ := entry
      rw [List.map_cons, List.nodup_cons] at hnodup
      rcases List.mem_cons.mp h with heq | hmem
      · cases heq
        simp [FdTable.get?]
      · have hne : s ≠ slot := by
          rintro rfl
          exact hnodup.1 (List.mem_map.mpr ⟨(s, r), hmem, rfl⟩)
        have hrest := ih hnodup.2 hmem
        rw [FdTable.get?] at hrest ⊢
        rw [List.find?_cons_of_neg (by simpa using hne)]
        exact hrest

theorem get?_filter (fds : FdTable) (p : Fd → Bool) (slot : Fd) :
    FdTable.get? (fds.filter fun entry => p entry.1) slot =
      if p slot then fds.get? slot else none := by
  induction fds with
  | nil => simp [FdTable.get?]
  | cons entry fds ih =>
      obtain ⟨s, r⟩ := entry
      by_cases hs : s = slot
      · subst hs
        by_cases hp : p s = true
        · rw [List.filter_cons_of_pos (by simpa using hp)]
          simp [FdTable.get?, hp]
        · rw [List.filter_cons_of_neg (by simpa using hp), ih, if_neg hp,
            if_neg hp]
      · have hskip : FdTable.get? ((s, r) :: fds) slot =
            FdTable.get? fds slot := by
          rw [FdTable.get?, FdTable.get?,
            List.find?_cons_of_neg (by simpa using hs)]
        rw [hskip]
        by_cases hp : p s = true
        · rw [List.filter_cons_of_pos (by simpa using hp), ← ih]
          rw [FdTable.get?, FdTable.get?,
            List.find?_cons_of_neg (by simpa using hs)]
        · rw [List.filter_cons_of_neg (by simpa using hp), ih]

theorem findSome?_filter {α β : Type} {p : α → Bool} {f g : α → Option β}
    {xs : List α} (hkept : ∀ x ∈ xs, p x = true → f x = g x)
    (hdropped : ∀ x ∈ xs, p x = false → g x = none) :
    (xs.filter p).findSome? f = xs.findSome? g := by
  induction xs with
  | nil => rfl
  | cons x xs ih =>
      have hrest := ih (fun x' hx' => hkept x' (List.mem_cons_of_mem x hx'))
        fun x' hx' => hdropped x' (List.mem_cons_of_mem x hx')
      by_cases hp : p x = true
      · rw [List.filter_cons_of_pos hp, List.findSome?_cons,
          List.findSome?_cons, hkept x List.mem_cons_self hp, hrest]
      · have hg := hdropped x List.mem_cons_self (by simpa using hp)
        rw [List.filter_cons_of_neg hp, List.findSome?_cons, hg, hrest]

/-! ## The passes of the core -/

section

variable {os : String} {fds : FdTable} {ownership : PipeOwnership}

/-- What a slot resolves to by itself. -/
def soloEnd (fds : FdTable) (slot : Fd) : Option ChildEnd :=
  match fds.get? slot with
  | none => if 3 ≤ slot.raw then none else some (.inherited slot)
  | some .inherit => some (.inherited slot)
  | some .null => some (.null slot)
  | some (.file handle) => some (.file handle)
  | some (.pipe dir) => some (.pipe dir slot)
  | some (.merge _) => none

/-- The parent's end of a piped slot. -/
def soloParent (fds : FdTable) (slot : Fd) : Option ParentEnd :=
  match fds.get? slot with
  | some (.pipe dir) => some (parentEnd slot dir)
  | _ => none

/-- The core leaves the slot to tokio. -/
def isDeferred (fds : FdTable) (ownership : PipeOwnership) (slot : Fd) : Bool :=
  ownership == .deferred && decide (slot.raw < 3) && isPipe (fds.get? slot)

/-- A descriptor that has no stream of the parent to inherit. -/
def inheritFailure (fds : FdTable) (slot : Fd) : Option Failure :=
  if fds.get? slot = some .inherit ∧ 3 ≤ slot.raw then
    some (.error (.unsupported
      ("Stdio::inherit() on " ++ Fd.display slot) "unix"
      ("inherit on fd >= 3 has no defined parent stream; " ++
        "use pipe/file/null instead")))
  else none

/-- A slot that is a std slot or a descriptor from 3 on. -/
def IsSlot (slot : Fd) : Prop := slot ∈ stdSlots ∨ 3 ≤ slot.raw

theorem inheritEnd_eq {slot : Fd} (hslot : IsSlot slot) :
    inheritEnd slot = if 3 ≤ slot.raw then .error (.error (.unsupported
        ("Stdio::inherit() on " ++ Fd.display slot) "unix"
        ("inherit on fd >= 3 has no defined parent stream; " ++
          "use pipe/file/null instead")))
      else .ok (.inherited slot) := by
  rw [inheritEnd]
  by_cases hhigh : 3 ≤ slot.raw
  · rw [if_pos hhigh, if_neg]
    rintro (rfl | rfl | rfl) <;> exact absurd hhigh (by decide)
  · rw [if_neg hhigh, if_pos]
    rcases hslot with hstd | h
    · simpa [stdSlots] using hstd
    · exact absurd h hhigh

/-- A map with the value of a slot, where there is one. -/
def put {V : Type} (map : SlotMap V) (slot : Fd) (value : Option V) :
    SlotMap V :=
  fun s => if s = slot then value.or (map s) else map s

theorem put_none {V : Type} (map : SlotMap V) (slot : Fd) :
    put map slot none = map := by
  funext s
  by_cases hs : s = slot <;> simp [put]

theorem put_some {V : Type} (map : SlotMap V) (slot : Fd) (value : V) :
    put map slot (some value) = map.insert slot value := by
  funext s
  by_cases hs : s = slot <;> simp [put, SlotMap.insert, hs]

/-- What the first pass writes for a slot. -/
def firstEnd (fds : FdTable) (ownership : PipeOwnership) (slot : Fd) :
    Option ChildEnd :=
  if isDeferred fds ownership slot then none else soloEnd fds slot

def firstParent (fds : FdTable) (ownership : PipeOwnership) (slot : Fd) :
    Option ParentEnd :=
  if isDeferred fds ownership slot then none else soloParent fds slot

/-- One slot of the first pass writes its own end and nothing else. -/
theorem resolveSlot_eq (ends : Ends) {slot : Fd} (hslot : IsSlot slot) :
    resolveSlot fds ownership ends slot =
      match inheritFailure fds slot with
      | some e => .error e
      | none => .ok {
          child := put ends.child slot (firstEnd fds ownership slot)
          parent := put ends.parent slot (firstParent fds ownership slot) } := by
  rw [resolveSlot, inheritFailure, firstEnd, firstParent, isDeferred, soloEnd,
    soloParent]
  cases hget : fds.get? slot with
  | none =>
      by_cases hhigh : 3 ≤ slot.raw
      · simp [isPipe, hhigh, put_none]
      · simp [isPipe, hhigh, put_none, put_some, resolveNonMerge,
          inheritEnd_eq hslot, Except.map, bind, Except.bind, pure, Except.pure]
  | some r =>
      cases r with
      | inherit =>
          by_cases hhigh : 3 ≤ slot.raw
          · simp [hhigh, resolveNonMerge, inheritEnd_eq hslot, Except.map, bind,
              Except.bind]
          · simp [isPipe, hhigh, put_none, put_some, resolveNonMerge,
              inheritEnd_eq hslot, Except.map, bind, Except.bind, pure,
              Except.pure]
      | null =>
          simp [isPipe, put_none, put_some, resolveNonMerge, bind, Except.bind,
            pure, Except.pure]
      | file handle =>
          simp [isPipe, put_none, put_some, resolveNonMerge, bind, Except.bind,
            pure, Except.pure]
      | pipe dir =>
          by_cases hdeferred : ownership = .deferred ∧ slot.raw < 3
          · simp [isPipe, hdeferred, put_none]
          · rw [if_neg hdeferred]
            have hnot : (ownership == .deferred && decide (slot.raw < 3)) =
                false := by
              simpa using hdeferred
            simp [isPipe, hnot, put_some, resolveNonMerge, makePipe, bind,
              Except.bind, pure, Except.pure]
      | merge target => simp [isPipe, put_none]

/-- The first pass. -/
theorem firstPass_eq {slots : List Fd} (hslots : ∀ slot ∈ slots, IsSlot slot) :
    ∀ ends : Ends, slots.foldlM (resolveSlot fds ownership) ends =
      match slots.findSome? (inheritFailure fds) with
      | some e => .error e
      | none => .ok {
          child := fun s =>
            if s ∈ slots then
              (firstEnd fds ownership s).or (ends.child s)
            else ends.child s
          parent := fun s =>
            if s ∈ slots then
              (firstParent fds ownership s).or (ends.parent s)
            else ends.parent s } := by
  induction slots with
  | nil =>
      intro ends
      simp [pure, Except.pure]
  | cons slot slots ih =>
      intro ends
      have hrest := ih fun s hs => hslots s (List.mem_cons_of_mem slot hs)
      rw [List.foldlM_cons, resolveSlot_eq ends (hslots slot
        List.mem_cons_self), List.findSome?_cons]
      cases hfail : inheritFailure fds slot with
      | some e => rfl
      | none =>
          show slots.foldlM (resolveSlot fds ownership) _ = _
          rw [hrest]
          cases slots.findSome? (inheritFailure fds) with
          | some e => rfl
          | none =>
              simp only
              congr 2
              · funext s
                by_cases hs : s = slot
                · subst hs
                  by_cases hmem : s ∈ slots <;>
                    simp [put, hmem, ← Option.or_assoc]
                · simp [put, hs]
              · funext s
                by_cases hs : s = slot
                · subst hs
                  by_cases hmem : s ∈ slots <;>
                    simp [put, hmem, ← Option.or_assoc]
                · simp [put, hs]

/-- A merge whose target holds nothing. -/
def mergeFailure (os : String) (fds : FdTable) (child : SlotMap ChildEnd)
    (slot : Fd) : Option Failure :=
  match fds.get? slot with
  | some (.merge target) =>
      if (child target).isNone then
        some (.error (.unsupported
          ("merge " ++ Fd.display slot ++ " -> " ++ Fd.display target) os
          "merge target descriptor is not configured"))
      else none
  | _ => none

/-- What the second pass writes for a slot. -/
def mergeEnd (fds : FdTable) (child : SlotMap ChildEnd) (slot : Fd) :
    Option ChildEnd :=
  match fds.get? slot with
  | some (.merge target) => child target
  | _ => none

/-- No merge targets a merge, and none a slot that the core leaves to tokio. -/
def MergesResolved (fds : FdTable) (ownership : PipeOwnership)
    (slots : List Fd) : Prop :=
  ∀ slot ∈ slots, ∀ target, fds.get? slot = some (.merge target) →
    isMerge (fds.get? target) = false ∧
      isDeferred fds ownership target = false

theorem mergeSlot_eq (ends : Ends) {slot : Fd}
    (hslot : ∀ target, fds.get? slot = some (.merge target) →
      isDeferred fds ownership target = false) :
    mergeSlot os fds ownership ends slot =
      match mergeFailure os fds ends.child slot with
      | some e => .error e
      | none => .ok { ends with
          child := put ends.child slot (mergeEnd fds ends.child slot) } := by
  rw [mergeSlot, mergeFailure, mergeEnd]
  cases hget : fds.get? slot with
  | none => simp [put_none]
  | some r =>
      cases r with
      | merge target =>
          have hnot : ¬ (ownership = .deferred ∧ target.raw < 3 ∧
              isPipe (fds.get? target) = true) := by
            rintro ⟨howner, hlow, hpipe⟩
            have hdeferred := hslot target hget
            simp [isDeferred, howner, hlow, hpipe] at hdeferred
          simp only
          rw [if_neg hnot]
          cases hchild : ends.child target with
          | none => simp
          | some e => simp [put_some, dup]
      | inherit => simp [put_none]
      | null => simp [put_none]
      | file handle => simp [put_none]
      | pipe dir => simp [put_none]

/-- The second pass: what it reads is not what it writes. -/
theorem secondPass_eq {slots : List Fd}
    (hmerges : MergesResolved fds ownership slots) (child : SlotMap ChildEnd) :
    ∀ ends : Ends,
      (∀ s, isMerge (fds.get? s) = false → ends.child s = child s) →
      slots.foldlM (mergeSlot os fds ownership) ends =
        match slots.findSome? (mergeFailure os fds child) with
        | some e => .error e
        | none => .ok { ends with
            child := fun s =>
              if s ∈ slots then (mergeEnd fds child s).or (ends.child s)
              else ends.child s } := by
  induction slots with
  | nil =>
      intro ends _
      simp [pure, Except.pure]
  | cons slot slots ih =>
      intro ends hchild
      have hhead := hmerges slot List.mem_cons_self
      have hfailure : mergeFailure os fds ends.child slot =
          mergeFailure os fds child slot := by
        rw [mergeFailure, mergeFailure]
        cases hget : fds.get? slot with
        | none => rfl
        | some r =>
            cases r with
            | merge target =>
                simp only [hchild target (hhead target hget).1]
            | _ => rfl
      have hend : mergeEnd fds ends.child slot = mergeEnd fds child slot := by
        rw [mergeEnd, mergeEnd]
        cases hget : fds.get? slot with
        | none => rfl
        | some r =>
            cases r with
            | merge target => exact hchild target (hhead target hget).1
            | _ => rfl
      rw [List.foldlM_cons, mergeSlot_eq ends fun target hget =>
        (hhead target hget).2, hfailure, hend, List.findSome?_cons]
      cases mergeFailure os fds child slot with
      | some e => rfl
      | none =>
          show slots.foldlM (mergeSlot os fds ownership) _ = _
          rw [ih (fun s hs => hmerges s (List.mem_cons_of_mem slot hs))]
          · cases slots.findSome? (mergeFailure os fds child) with
            | some e => rfl
            | none =>
                simp only
                congr 2
                funext s
                by_cases hs : s = slot
                · subst hs
                  by_cases hmem : s ∈ slots <;>
                    simp [put, hmem, ← Option.or_assoc]
                · simp [put, hs]
          · intro s hs
            by_cases heq : s = slot
            · subst heq
              have hnone : mergeEnd fds child s = none := by
                rw [mergeEnd]
                cases hget : fds.get? s with
                | none => rfl
                | some r =>
                    cases r with
                    | merge target =>
                        rw [hget] at hs
                        cases hs
                    | _ => rfl
              rw [hnone, put_none]
              exact hchild s hs
            · show put ends.child slot _ s = _
              rw [put, if_neg heq]
              exact hchild s hs

theorem checkPass_ok {slots : List Fd}
    (hmerges : MergesResolved fds ownership slots) :
    slots.forM (checkSlot os fds) = .ok () := by
  induction slots with
  | nil => rfl
  | cons slot slots ih =>
      have hslot : checkSlot os fds slot = .ok () := by
        rw [checkSlot]
        cases hget : fds.get? slot with
        | none => rfl
        | some r =>
            cases r with
            | merge target =>
                have hnot := (hmerges slot List.mem_cons_self target hget).1
                simp [hnot]
            | _ => rfl
      show (checkSlot os fds slot >>= fun _ => slots.forM (checkSlot os fds)) = _
      rw [hslot]
      exact ih fun s hs => hmerges s (List.mem_cons_of_mem slot hs)

/-- What the core gives a slot before its second pass. -/
def firstMap (fds : FdTable) (ownership : PipeOwnership) (slots : List Fd) :
    SlotMap ChildEnd :=
  fun s => if s ∈ slots then firstEnd fds ownership s else none

/-- The core. -/
theorem resolveStdio_eq {slots : List Fd}
    (hslots : ∀ slot ∈ slots, IsSlot slot)
    (hmerges : MergesResolved fds ownership slots) :
    resolveStdio os fds slots ownership =
      match slots.findSome? (inheritFailure fds),
          slots.findSome?
            (mergeFailure os fds (firstMap fds ownership slots)) with
      | some e, _ => .error e
      | none, some e => .error e
      | none, none => .ok {
          child := fun s =>
            if s ∈ slots then
              (mergeEnd fds (firstMap fds ownership slots) s).or
                (firstEnd fds ownership s)
            else none
          parent := fun s =>
            if s ∈ slots then firstParent fds ownership s else none } := by
  rw [resolveStdio, checkPass_ok hmerges]
  show (slots.foldlM (resolveSlot fds ownership) Ends.empty >>= fun ends =>
    slots.foldlM (mergeSlot os fds ownership) ends) = _
  rw [firstPass_eq hslots]
  cases slots.findSome? (inheritFailure fds) with
  | some e => rfl
  | none =>
      show slots.foldlM (mergeSlot os fds ownership) _ = _
      rw [secondPass_eq hmerges (firstMap fds ownership slots)]
      · cases slots.findSome?
            (mergeFailure os fds (firstMap fds ownership slots)) with
        | some e => rfl
        | none =>
            simp only
            congr 2
            · funext s
              by_cases hs : s ∈ slots <;> simp [hs, Ends.empty]
            · funext s
              by_cases hs : s ∈ slots <;> simp [hs, Ends.empty]
      · intro s _
        by_cases hs : s ∈ slots <;> simp [hs, firstMap, Ends.empty]

end

end Cosca.Ports.AsyncStdio
