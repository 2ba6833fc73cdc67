import Cosca.Verified.Interact

/-!
# Runs in time

An event with the instants at which it was asked and answered, and timelines:
events that follow on one another on a clock that never goes back.
-/

namespace Cosca.Verified.Clocks

open Cosca.Verified.Interact

/-- An event, and when it was asked and answered. -/
structure Timed {Q : Type} (A : Q → Type) where
  event : Event A
  asked : Nat
  answered : Nat

variable {Q : Type} {A : Q → Type} {α β : Type}

/-- The events happen one after the other, between the two instants. -/
def Timeline : Nat → List (Timed A) → Nat → Prop
  | start, [], stop => start ≤ stop
  | start, e :: es, stop =>
      start ≤ e.asked ∧ e.asked ≤ e.answered ∧ Timeline e.answered es stop

theorem Timeline.le {es : List (Timed A)} : ∀ {start stop : Nat},
    Timeline start es stop → start ≤ stop := by
  induction es with
  | nil =>
      intro start stop h
      exact h
  | cons e es ih =>
      intro start stop h
      have hrest := ih h.2.2
      have hasked := h.1
      have hanswered := h.2.1
      omega

/-- A timeline can be cut anywhere. -/
theorem timeline_append {es fs : List (Timed A)} : ∀ {start stop : Nat},
    Timeline start (es ++ fs) stop ↔
      ∃ mid, Timeline start es mid ∧ Timeline mid fs stop := by
  induction es with
  | nil =>
      intro start stop
      constructor
      · intro h
        exact ⟨start, Nat.le_refl start, h⟩
      · rintro ⟨mid, hmid, h⟩
        cases fs with
        | nil => exact Nat.le_trans hmid h
        | cons f fs => exact ⟨Nat.le_trans hmid h.1, h.2⟩
  | cons e es ih =>
      intro start stop
      show _ ∧ _ ∧ Timeline e.answered (es ++ fs) stop ↔ _
      rw [ih]
      constructor
      · rintro ⟨hasked, hanswered, mid, hes, hfs⟩
        exact ⟨mid, ⟨hasked, hanswered, hes⟩, hfs⟩
      · rintro ⟨mid, ⟨hasked, hanswered, hes⟩, hfs⟩
        exact ⟨hasked, hanswered, mid, hes, hfs⟩

/-- Every event lies between the two instants. -/
theorem Timeline.within {es : List (Timed A)} {start stop : Nat}
    (h : Timeline start es stop) {e : Timed A} (he : e ∈ es) :
    start ≤ e.asked ∧ e.asked ≤ e.answered ∧ e.answered ≤ stop := by
  obtain ⟨before, after, rfl⟩ := List.append_of_mem he
  obtain ⟨mid, hbefore, hasked, hanswered, hafter⟩ := timeline_append.mp h
  have hstart := hbefore.le
  have hstop := hafter.le
  omega

/-- What is asked later is asked after the answer. -/
theorem Timeline.ordered {es fs : List (Timed A)} {start stop : Nat}
    (h : Timeline start (es ++ fs) stop) {e f : Timed A} (he : e ∈ es)
    (hf : f ∈ fs) : e.answered ≤ f.asked := by
  obtain ⟨mid, hes, hfs⟩ := timeline_append.mp h
  have hbefore := (hes.within he).2.2
  have hafter := (hfs.within hf).1
  omega

/-! ## Clocks and timeouts -/

/-- A reading of the clock lies between its question and its answer. -/
def Clocked (reading : Event A → Option Nat) (es : List (Timed A)) : Prop :=
  ∀ e ∈ es, ∀ now, reading e.event = some now →
    e.asked ≤ now ∧ now ≤ e.answered

/-- The last reading of the clock. -/
def lastReading (reading : Event A → Option Nat) (es : List (Event A)) :
    Option Nat :=
  (es.filterMap reading).getLast?

theorem lastReading_append {reading : Event A → Option Nat}
    {es fs : List (Event A)} {now : Nat}
    (h : lastReading reading fs = some now) :
    lastReading reading (es ++ fs) = some now := by
  unfold lastReading at h ⊢
  rw [List.filterMap_append, List.getLast?_append, h]
  rfl

/-- Events that read no clock leave the last reading as it is. -/
theorem lastReading_append_of_none {reading : Event A → Option Nat}
    {es fs : List (Event A)} (h : ∀ f ∈ fs, reading f = none) :
    lastReading reading (es ++ fs) = lastReading reading es := by
  unfold lastReading
  rw [List.filterMap_append, List.filterMap_eq_nil_iff.mpr h, List.append_nil]

/-- A wait that says that its time is over has taken that time. -/
def Punctual (timeout : Event A → Option Nat) (es : List (Timed A)) : Prop :=
  ∀ e ∈ es, ∀ time, timeout e.event = some time → e.asked + time ≤ e.answered

/-- A run of a program on a clock that never goes back. -/
structure RunsIn (reading : Event A → Option Nat) (p : Prog Q A α)
    (start : Nat) (timed : List (Timed A)) (r : α) (stop : Nat) : Prop where
  runs : p.Runs (timed.map (·.event)) r
  timeline : Timeline start timed stop
  clocked : Clocked reading timed

section

variable {reading timeout : Event A → Option Nat} {p : Prog Q A α}
  {start stop : Nat} {timed : List (Timed A)} {r : α}

/-- The end of a run is not before any reading of the clock. -/
theorem RunsIn.read_le (h : RunsIn reading p start timed r stop) {e : Event A}
    (he : e ∈ timed.map (·.event)) {now : Nat} (hnow : reading e = some now) :
    now ≤ stop := by
  obtain ⟨t, ht, rfl⟩ := List.mem_map.mp he
  have hread := (h.clocked t ht now hnow).2
  have hend := (h.timeline.within ht).2.2
  omega

/-- A timeout after a reading of the clock is over at that reading and the
time waited, or later. -/
theorem RunsIn.elapsed (h : RunsIn reading p start timed r stop)
    (hpunctual : Punctual timeout timed) {before after : List (Event A)}
    (hevents : timed.map (·.event) = before ++ after) {e f : Event A}
    (he : e ∈ before) (hf : f ∈ after) {now time : Nat}
    (hnow : reading e = some now) (htime : timeout f = some time) :
    now + time ≤ stop := by
  obtain ⟨es, fs, rfl, rfl, rfl⟩ := List.map_eq_append_iff.mp hevents
  obtain ⟨t, ht, rfl⟩ := List.mem_map.mp he
  obtain ⟨u, hu, rfl⟩ := List.mem_map.mp hf
  have hread := (h.clocked t (List.mem_append_left fs ht) now hnow).2
  have hwait := hpunctual u (List.mem_append_right es hu) time htime
  have hordered := h.timeline.ordered ht hu
  have hend := (h.timeline.within (List.mem_append_right es hu)).2.2
  omega

end

/-- The last reading of the clock is at the deadline or later, or a wait for
`span` of the time that it leaves has timed out after it. -/
def TimesOut (reading timeout : Event A → Option Nat) (span : Nat → Nat)
    (due : Nat) (es : List (Event A)) : Prop :=
  ∃ before e now after, es = before ++ e :: after ∧ reading e = some now ∧
    (∀ f ∈ after, reading f = none) ∧
      (due ≤ now ∨ ∃ f ∈ after, timeout f = some (span (due - now)))

section

variable {reading timeout : Event A → Option Nat} {span : Nat → Nat}
  {due : Nat}

theorem TimesOut.append_left {fs : List (Event A)} (es : List (Event A))
    (h : TimesOut reading timeout span due fs) :
    TimesOut reading timeout span due (es ++ fs) := by
  obtain ⟨before, e, now, after, rfl, hrest⟩ := h
  exact ⟨es ++ before, e, now, after, by rw [List.append_assoc], hrest⟩

theorem TimesOut.reads {es : List (Event A)}
    (h : TimesOut reading timeout span due es) :
    ∃ now, lastReading reading es = some now := by
  obtain ⟨before, e, now, after, rfl, hnow, hafter, _⟩ := h
  have hread : lastReading reading (e :: after) = some now := by
    rw [show e :: after = [e] ++ after from rfl,
      lastReading_append_of_none hafter]
    simp [lastReading, hnow]
  exact ⟨now, lastReading_append hread⟩

/-- A run that times out does not end early where the span of the time left is
all of it. -/
theorem RunsIn.not_early {p : Prog Q A α} {start stop now : Nat}
    {timed : List (Timed A)} {r : α} (h : RunsIn reading p start timed r stop)
    (hpunctual : Punctual timeout timed)
    (htimes : TimesOut reading timeout span due (timed.map (·.event)))
    (hnow : lastReading reading (timed.map (·.event)) = some now)
    (hspan : due - now ≤ span (due - now)) : due ≤ stop := by
  obtain ⟨before, e, last, after, heq, hlast, hafter, hwait⟩ := htimes
  have hsplit : timed.map (·.event) = (before ++ [e]) ++ after := by
    rw [heq, List.append_assoc]
    rfl
  have hread : lastReading reading [e] = some last := by
    simp [lastReading, hlast]
  rw [hsplit, lastReading_append_of_none hafter,
    lastReading_append hread] at hnow
  rw [Option.some.inj hnow] at hlast hwait
  have hmem : e ∈ before ++ [e] := by simp
  rcases hwait with hpassed | ⟨f, hf, htime⟩
  · have hend := h.read_le (hsplit ▸ List.mem_append_left after hmem) hlast
    omega
  · have hend := h.elapsed hpunctual hsplit hmem hf hlast htime
    omega

end

/-- Events that all happen at one instant. -/
def instantly (now : Nat) (es : List (Event A)) : List (Timed A) :=
  es.map fun e => ⟨e, now, now⟩

@[simp] theorem instantly_event (now : Nat) (es : List (Event A)) :
    (instantly now es).map (·.event) = es := by
  rw [instantly, List.map_map]
  exact List.map_id es

theorem timeline_instantly (now : Nat) (es : List (Event A)) :
    Timeline now (instantly now es) now := by
  induction es with
  | nil => exact Nat.le_refl now
  | cons e es ih => exact ⟨Nat.le_refl now, Nat.le_refl now, ih⟩

/-- Events at one instant, a wait that takes its time, and events at its end.
-/
def spanning (now time : Nat) (before : List (Event A)) (wait : Event A)
    (after : List (Event A)) : List (Timed A) :=
  instantly now before ++
    ⟨wait, now, now + time⟩ :: instantly (now + time) after

section

variable {reading timeout : Event A → Option Nat} {now time : Nat}
  {before after : List (Event A)} {wait : Event A}

@[simp] theorem spanning_event :
    (spanning now time before wait after).map (·.event) =
      before ++ wait :: after := by
  unfold spanning
  rw [List.map_append, List.map_cons, instantly_event, instantly_event]

theorem timeline_spanning :
    Timeline now (spanning now time before wait after) (now + time) := by
  apply timeline_append.mpr
  exact ⟨now, timeline_instantly now before, Nat.le_refl now,
    Nat.le_add_right now time, timeline_instantly (now + time) after⟩

/-- Where an event of such a run lies. -/
theorem mem_spanning {e : Timed A}
    (he : e ∈ spanning now time before wait after) :
    (e.event ∈ before ∧ e.asked = now ∧ e.answered = now) ∨
      e = ⟨wait, now, now + time⟩ ∨ e.event ∈ after := by
  unfold spanning instantly at he
  rcases List.mem_append.mp he with he | he
  · obtain ⟨event, hevent, rfl⟩ := List.mem_map.mp he
    exact Or.inl ⟨hevent, rfl, rfl⟩
  · rcases List.mem_cons.mp he with rfl | he
    · exact Or.inr (Or.inl rfl)
    · obtain ⟨event, hevent, rfl⟩ := List.mem_map.mp he
      exact Or.inr (Or.inr hevent)

theorem clocked_spanning
    (hbefore : ∀ e ∈ before, ∀ read, reading e = some read → read = now)
    (hwait : reading wait = none) (hafter : ∀ e ∈ after, reading e = none) :
    Clocked reading (spanning now time before wait after) := by
  intro e he read hread
  rcases mem_spanning he with ⟨hmem, hasked, hanswered⟩ | rfl | hmem
  · have hnow := hbefore e.event hmem read hread
    omega
  · rw [hwait] at hread
    exact nomatch hread
  · rw [hafter e.event hmem] at hread
    exact nomatch hread

theorem punctual_spanning (hbefore : ∀ e ∈ before, timeout e = none)
    (hwait : timeout wait = some time)
    (hafter : ∀ e ∈ after, timeout e = none) :
    Punctual timeout (spanning now time before wait after) := by
  intro e he took htook
  rcases mem_spanning he with ⟨hmem, _⟩ | rfl | hmem
  · rw [hbefore e.event hmem] at htook
    exact nomatch htook
  · rw [hwait] at htook
    have htime := Option.some.inj htook
    show now + took ≤ now + time
    omega
  · rw [hafter e.event hmem] at htook
    exact nomatch htook

end

end Cosca.Verified.Clocks
