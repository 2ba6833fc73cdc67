import Cosca.Ports.DrainRounds

/-!
# The verdict of a job drain

What `wait_drained_raw` may be trusted with, for every sequence of answers:
when it says that all members have exited, what it waits on, and that it
closes what it opened.

## Main results

* `waitDrainedRaw_sound`: the rounds of a run, its verdict and its handles.
-/

namespace Cosca.Ports.DrainSound

open Cosca.Ports.Errors
open Cosca.Ports.Identity
open Cosca.Ports.StartToken (HResult HResult.io invalidParameterHresult)
open Cosca.Ports.PinnedHost (waitObject0 waitTimeout)
open Cosca.Ports.ChildRelease (TreeDrain)
open Cosca.Ports.JobDrain
open Cosca.Ports.DrainRounds
open Cosca.Verified.Interact

/-! ## The handles of a run -/

/-- What an event does to the process handles that are held: one that is not
held cannot be closed. -/
def ledgerStep (held : List Handle) : JobEvent → Option (List Handle)
  | ⟨.openProcess .., .ok handle⟩ => some (handle :: held)
  | ⟨.closeHandle handle, _⟩ =>
      if handle ∈ held then some (held.erase handle) else none
  | _ => some held

/-- The process handles held after the events, `none` where one was closed
that was not held. -/
def ledger (held : List Handle) (events : List JobEvent) :
    Option (List Handle) :=
  events.foldlM ledgerStep held

theorem ledger_append (held : List Handle) (events more : List JobEvent) :
    ledger held (events ++ more) =
      (ledger held events).bind fun held' => ledger held' more :=
  List.foldlM_append

theorem ledger_of_append {held held' : List Handle} {events : List JobEvent}
    (more : List JobEvent) (h : ledger held events = some held') :
    ledger held (events ++ more) = ledger held' more := by
  rw [ledger_append, h]
  rfl

theorem aside_ledgerStep {e : JobEvent} (h : Aside e) (held : List Handle) :
    ledgerStep held e = some held := by
  obtain ⟨question, answer⟩ := e
  cases question <;> first | rfl | exact h.elim

theorem ledger_aside {events : List JobEvent} (h : ∀ e ∈ events, Aside e)
    (held : List Handle) : ledger held events = some held := by
  induction events with
  | nil => rfl
  | cons e events ih =>
      unfold ledger
      rw [List.foldlM_cons, aside_ledgerStep (h e List.mem_cons_self) held]
      exact ih fun e' he' => h e' (List.mem_cons_of_mem e he')

/-- Whatever an event leaves held was held before or is opened by it. -/
theorem mem_ledgerStep {held held' : List Handle} {e : JobEvent}
    (h : ledgerStep held e = some held') {handle : Handle}
    (hmem : handle ∈ held') : handle ∈ held ∨
      ∃ rights pid, e = ⟨.openProcess rights pid, .ok handle⟩ := by
  unfold ledgerStep at h
  split at h
  · next rights pid opened =>
      rw [← Option.some.inj h] at hmem
      rcases List.mem_cons.mp hmem with rfl | hmem
      · exact Or.inr ⟨rights, pid, rfl⟩
      · exact Or.inl hmem
  · next closed _ =>
      split at h
      · rw [← Option.some.inj h] at hmem
        exact Or.inl (List.mem_of_mem_erase hmem)
      · exact nomatch h
  · rw [Option.some.inj h]
    exact Or.inl hmem

/-- Whatever is closed was held before or has been opened. -/
theorem closed_of_ledger {events : List JobEvent} :
    ∀ {held held' : List Handle}, ledger held events = some held' →
      ∀ {handle : Handle} {closed : Except HResult Unit},
        (⟨.closeHandle handle, closed⟩ : JobEvent) ∈ events →
          handle ∈ held ∨ ∃ rights pid,
            (⟨.openProcess rights pid, .ok handle⟩ : JobEvent) ∈ events := by
  induction events with
  | nil => exact fun _ _ _ hmem => nomatch hmem
  | cons e events ih =>
      intro held held' h handle closed hmem
      unfold ledger at h
      rw [List.foldlM_cons] at h
      cases hstep : ledgerStep held e with
      | none =>
          rw [hstep] at h
          exact nomatch h
      | some mid =>
          rw [hstep] at h
          rcases List.mem_cons.mp hmem with rfl | hmem
          · have hclose : (if handle ∈ held then some (held.erase handle)
                else none) = some mid := hstep
            by_cases hheld : handle ∈ held
            · exact Or.inl hheld
            · rw [if_neg hheld] at hclose
              exact nomatch hclose
          · rcases ih h hmem with hmid | ⟨rights, pid, hopened⟩
            · rcases mem_ledgerStep hstep hmid with hheld |
                ⟨rights, pid, rfl⟩
              · exact Or.inl hheld
              · exact Or.inr ⟨rights, pid, List.mem_cons_self⟩
            · exact Or.inr ⟨rights, pid, List.mem_cons_of_mem e hopened⟩

section

variable {job : Handle} {deadline : Option (Option Nat)} {cancel : Bool}

/-- The handles that are kept are the ones still held. -/
theorem memberOpened_ledger {pid : RawPid} {events : List JobEvent}
    {acc acc' : List Handle × Option IoError}
    (h : MemberOpened job pid events acc acc') :
    ledger acc.1.reverse events = some acc'.1.reverse := by
  cases h with
  | exited acc => rfl
  | denied acc hother => rfl
  | member acc handle =>
      rw [List.reverse_append]
      rfl
  | bystander acc handle closed => simp [ledger, ledgerStep]
  | unconfirmed acc handle e closed => simp [ledger, ledgerStep]

theorem opened_ledger {pids : List RawPid} {events : List JobEvent}
    {acc acc' : List Handle × Option IoError}
    (h : Opened job pids events acc acc') :
    ledger acc.1.reverse events = some acc'.1.reverse := by
  induction h with
  | nil acc => rfl
  | cons hpid hrest ih =>
      rw [ledger_of_append _ (memberOpened_ledger hpid)]
      exact ih

/-- Closing what is held leaves nothing held. -/
theorem closed_ledger {handles : List Handle} {events : List JobEvent}
    (h : Closed handles events) : ∀ {held : List Handle},
      held.Perm handles → ledger held events = some [] := by
  induction h with
  | nil =>
      intro held hperm
      rw [hperm.eq_nil]
      rfl
  | @cons handle closed handles events hrest ih =>
      intro held hperm
      have hmem : handle ∈ held := hperm.mem_iff.mpr List.mem_cons_self
      have hstep : ledgerStep held ⟨.closeHandle handle, closed⟩ =
          some (held.erase handle) := if_pos hmem
      unfold ledger
      rw [List.foldlM_cons, hstep]
      apply ih
      have herase := hperm.erase handle
      rw [List.erase_cons_head] at herase
      exact herase

/-- Before it waits a round holds the handles it kept. -/
theorem looked_ledger {looked : List JobEvent} {handles : List Handle}
    {denied : Option IoError} {left : Option Nat}
    (h : Looked job deadline cancel looked handles denied left) :
    ledger [] looked = some handles.reverse := by
  cases h with
  | mk hcheck hqueries hopened hreading =>
      have hheld : ledger [] _ = some handles.reverse := opened_ledger hopened
      rw [ledger_of_append _ (ledger_aside (check_aside hcheck) []),
        ledger_of_append _ (ledger_aside (enumerated_aside hqueries) []),
        ledger_of_append _ hheld]
      exact ledger_aside (reading_aside hreading) _

/-- Every handle a round opens it closes once. -/
theorem roundRun_ledger {events : List JobEvent} {ended : Option RoundEnd}
    (h : RoundRun job deadline cancel events ended) :
    ledger [] events = some [] := by
  cases h with
  | cancelled hcheck => exact ledger_aside (check_aside hcheck) []
  | unfinished hcheck hqueries =>
      exact ledger_aside (listed_aside hcheck hqueries) []
  | failed hcheck hqueries =>
      exact ledger_aside (listed_aside hcheck hqueries) []
  | drained hcheck hqueries =>
      exact ledger_aside (listed_aside hcheck hqueries) []
  | unwatched hlooked => exact looked_ledger hlooked
  | @watched _ failure closings handles _ _ _ _ hlooked hsome hfailure
      hclosings =>
      rw [ledger_of_append _ (looked_ledger hlooked)]
      show ledger handles.reverse (failure ++ closings) = some []
      rw [ledger_of_append _ (ledger_aside (failure_aside hfailure) _)]
      exact closed_ledger hclosings (List.reverse_perm handles)

/-! ## What a round asks -/

/-- A member that could not be opened, or not be confirmed. -/
def Denies : JobEvent → Prop
  | ⟨.openProcess .., .error e⟩ => e ≠ invalidParameterHresult
  | ⟨.isProcessInJob .., .error _⟩ => True
  | _ => False

/-- The process of the handle is in the job. -/
abbrev confirmedIn (job handle : Handle) : JobEvent :=
  ⟨.isProcessInJob handle job, .ok true⟩

theorem aside_not_denies {e : JobEvent} (h : Aside e) : ¬ Denies e := by
  obtain ⟨question, answer⟩ := e
  cases question <;> first | exact h.elim | exact id

/-- A handle is kept where it is confirmed. -/
theorem memberOpened_confirmed {pid : RawPid} {events : List JobEvent}
    {acc acc' : List Handle × Option IoError}
    (h : MemberOpened job pid events acc acc') {handle : Handle}
    (hmem : handle ∈ acc'.1) :
    handle ∈ acc.1 ∨ confirmedIn job handle ∈ events := by
  cases h with
  | member acc opened => simpa [confirmedIn] using hmem
  | exited acc => exact Or.inl hmem
  | denied acc hother => exact Or.inl hmem
  | bystander acc opened closed => exact Or.inl hmem
  | unconfirmed acc opened e closed => exact Or.inl hmem

theorem opened_confirmed {pids : List RawPid} {events : List JobEvent}
    {acc acc' : List Handle × Option IoError}
    (h : Opened job pids events acc acc') {handle : Handle}
    (hmem : handle ∈ acc'.1) :
    handle ∈ acc.1 ∨ confirmedIn job handle ∈ events := by
  induction h with
  | nil acc => exact Or.inl hmem
  | cons hpid hrest ih =>
      rcases ih hmem with hmid | hlater
      · rcases memberOpened_confirmed hpid hmid with hkept | hfirst
        · exact Or.inl hkept
        · exact Or.inr (List.mem_append_left _ hfirst)
      · exact Or.inr (List.mem_append_right _ hlater)

/-- `MAXIMUM_WAIT_OBJECTS` less one, the cancel event counted. -/
theorem budget_add (cancel : Bool) :
    budget cancel + (if cancel then 1 else 0) = 64 - 1 := by
  cases cancel <;> rfl

/-- A pid adds one handle at most. -/
theorem opened_length {pids : List RawPid} {events : List JobEvent}
    {acc acc' : List Handle × Option IoError}
    (h : Opened job pids events acc acc') :
    acc'.1.length ≤ acc.1.length + pids.length := by
  induction h with
  | nil acc => exact Nat.le_refl _
  | @cons pid pids events rest acc mid acc' hpid hrest ih =>
      have hstep : mid.1.length ≤ acc.1.length + 1 := by
        cases hpid with
        | member acc handle => simp
        | exited acc => exact Nat.le_succ _
        | denied acc hother => exact Nat.le_succ _
        | bystander acc handle closed => exact Nat.le_succ _
        | unconfirmed acc handle e closed => exact Nat.le_succ _
      simp only [List.length_cons]
      omega

/-- A failure to open or to confirm is remembered. -/
theorem memberOpened_denied {pid : RawPid} {events : List JobEvent}
    {acc acc' : List Handle × Option IoError}
    (h : MemberOpened job pid events acc acc')
    (hdenied : acc.2 ≠ none ∨ ∃ e ∈ events, Denies e) : acc'.2 ≠ none := by
  cases h with
  | exited acc => simpa [Denies] using hdenied
  | denied acc hother => exact nofun
  | member acc handle => simpa [Denies] using hdenied
  | bystander acc handle closed => simpa [Denies] using hdenied
  | unconfirmed acc handle e closed => exact nofun

theorem opened_denied {pids : List RawPid} {events : List JobEvent}
    {acc acc' : List Handle × Option IoError}
    (h : Opened job pids events acc acc')
    (hdenied : acc.2 ≠ none ∨ ∃ e ∈ events, Denies e) : acc'.2 ≠ none := by
  induction h with
  | nil acc => simpa using hdenied
  | cons hpid hrest ih =>
      apply ih
      rcases hdenied with hbefore | ⟨e, he, hdenies⟩
      · exact Or.inl (memberOpened_denied hpid (Or.inl hbefore))
      · rcases List.mem_append.mp he with hfirst | hlater
        · exact Or.inl (memberOpened_denied hpid
            (Or.inr ⟨e, hfirst, hdenies⟩))
        · exact Or.inr ⟨e, hlater, hdenies⟩

/-- Before an enumeration tells, the job is asked. -/
theorem enumerated_asked {capacity : Nat} {events : List JobEvent}
    {listed : Option (Except IoError (List RawPid))}
    (h : Enumerated job capacity events listed) (htold : listed ≠ none) :
    ∃ room ids, (⟨.queryProcessIds job room, ids⟩ : JobEvent) ∈ events := by
  cases h with
  | unfinished => exact absurd rfl htold
  | listed _ hlisted => exact ⟨capacity, _, List.mem_cons_self⟩
  | failed _ e hlisted => exact ⟨capacity, _, List.mem_cons_self⟩
  | grown hlisted hmore hrest => exact ⟨capacity, _, List.mem_cons_self⟩

/-- An enumeration tells of no process only where the job's list is empty. -/
theorem enumerated_empty {capacity : Nat} {events : List JobEvent}
    {listed : Option (Except IoError (List RawPid))}
    (h : Enumerated job capacity events listed) (hroom : 0 < capacity)
    (hempty : listed = some (.ok [])) :
    ∃ before room ids, events = before ++ [⟨.queryProcessIds job room, ids⟩] ∧
      ids.listed = some [] := by
  induction h with
  | unfinished => exact nomatch hempty
  | failed capacity e hlisted => exact nomatch hempty
  | @listed capacity ids pids hlisted =>
      have htake : pids.take capacity = [] :=
        Except.ok.inj (Option.some.inj hempty)
      have hnil : pids = [] := by
        rcases List.take_eq_nil_iff.mp htake with hzero | hnil
        · omega
        · exact hnil
      exact ⟨[], capacity, ids, rfl, hnil ▸ hlisted⟩
  | @grown capacity ids events r hlisted hmore hrest ih =>
      obtain ⟨before, room, ids', rfl, hids⟩ := ih (by omega) hempty
      exact ⟨⟨.queryProcessIds job capacity, ids⟩ :: before, room, ids', rfl,
        hids⟩

section

variable {looked : List JobEvent} {handles : List Handle}
  {denied : Option IoError} {left : Option Nat}

theorem looked_asked
    (h : Looked job deadline cancel looked handles denied left) :
    ∃ room ids, (⟨.queryProcessIds job room, ids⟩ : JobEvent) ∈ looked := by
  cases h with
  | mk hcheck hqueries hopened hreading =>
      obtain ⟨room, ids, hmem⟩ := enumerated_asked hqueries nofun
      exact ⟨room, ids,
        List.mem_append_right _ (List.mem_append_left _ hmem)⟩

theorem looked_confirmed
    (h : Looked job deadline cancel looked handles denied left)
    {handle : Handle} (hmem : handle ∈ handles) :
    confirmedIn job handle ∈ looked := by
  cases h with
  | mk hcheck hqueries hopened hreading =>
      rcases opened_confirmed hopened hmem with hnil | hconfirmed
      · exact nomatch hnil
      · simp [hconfirmed]

theorem looked_length
    (h : Looked job deadline cancel looked handles denied left) :
    handles.length + (if cancel then 1 else 0) ≤ 64 - 1 := by
  cases h with
  | mk hcheck hqueries hopened hreading =>
      have hlength := opened_length hopened
      have hbudget := budget_add cancel
      simp only [List.length_nil, List.length_take] at hlength
      omega

/-- A member that is denied is remembered. -/
theorem looked_denied
    (h : Looked job deadline cancel looked handles denied left) {e : JobEvent}
    (he : e ∈ looked) (hdenies : Denies e) : denied ≠ none := by
  cases h with
  | mk hcheck hqueries hopened hreading =>
      simp only [List.mem_append] at he
      rcases he with he | he | he | he
      · exact absurd hdenies (aside_not_denies (check_aside hcheck e he))
      · exact absurd hdenies (aside_not_denies (enumerated_aside hqueries e he))
      · exact opened_denied hopened (Or.inr ⟨e, he, hdenies⟩)
      · exact absurd hdenies (aside_not_denies (reading_aside hreading e he))

end

end

/-! ## A round's verdict -/

/-- What a round may be trusted with. -/
structure RoundSound (job : Handle) (cancel : Bool) (events : List JobEvent)
    (ended : Option RoundEnd) : Prop where
  /-- All members have exited only where the enumeration is empty. -/
  drained : ended = some (.verdict (.ok .allMembersExited)) →
    ∃ before room ids, events = before ++ [⟨.queryProcessIds job room, ids⟩] ∧
      ids.listed = some []
  /-- Nothing is said before the job was asked, unless cancelled. -/
  looked : ended ≠ none →
    (cancel = true ∧ (⟨.cancelState, waitObject0⟩ : JobEvent) ∈ events) ∨
      ∃ room ids, (⟨.queryProcessIds job room, ids⟩ : JobEvent) ∈ events
  /-- A wait is for confirmed members whose handles are held, and for the
  cancel event where there is one. -/
  waits : ∀ before handles withCancel ms waited after, events = before ++
      ⟨.waitForMultipleObjects handles withCancel ms, waited⟩ :: after →
    withCancel = cancel ∧
      handles.length + (if withCancel then 1 else 0) ≤ 64 - 1 ∧
      (∀ handle ∈ handles, confirmedIn job handle ∈ before) ∧
      ∃ held, ledger [] before = some held ∧ held.Perm handles
  /-- A denied member and nothing to wait for is an error. -/
  denied : (∃ e ∈ events, Denies e) →
    (∀ handle, confirmedIn job handle ∉ events) →
      ∃ detail cause, ended =
        some (.verdict (.error (.unassessable detail cause)))
  /-- What is opened is closed. -/
  closed : ledger [] events = some []

theorem nothingOpened_ne (denied : Option IoError) (left : Option Nat) :
    nothingOpened denied left ≠ .verdict (.ok .allMembersExited) := by
  unfold nothingOpened
  split
  · exact nofun
  · split <;> exact nofun

theorem waitEnd_ne (handles : List Handle) (cancel : Bool) (waited : UInt32)
    (failed : Option IoError) :
    waitEnd handles cancel waited failed ≠
      .verdict (.ok .allMembersExited) := by
  unfold waitEnd
  split
  · exact nofun
  · split
    · exact nofun
    · split <;> exact nofun

section

variable {job : Handle} {deadline : Option (Option Nat)} {cancel : Bool}
  {events : List JobEvent} {ended : Option RoundEnd}

theorem roundRun_drained (h : RoundRun job deadline cancel events ended)
    (hended : ended = some (.verdict (.ok .allMembersExited))) :
    ∃ before room ids, events = before ++ [⟨.queryProcessIds job room, ids⟩] ∧
      ids.listed = some [] := by
  cases h with
  | cancelled hcheck => exact nomatch hended
  | unfinished hcheck hqueries => exact nomatch hended
  | failed hcheck hqueries => exact nomatch hended
  | @drained check queries hcheck hqueries =>
      obtain ⟨before, room, ids, rfl, hids⟩ :=
        enumerated_empty hqueries (by omega) rfl
      exact ⟨check ++ before, room, ids, by rw [List.append_assoc], hids⟩
  | unwatched =>
      exact absurd (Option.some.inj hended) (nothingOpened_ne _ _)
  | watched => exact absurd (Option.some.inj hended) (waitEnd_ne _ _ _ _)

theorem roundRun_looked (h : RoundRun job deadline cancel events ended)
    (hended : ended ≠ none) :
    (cancel = true ∧ (⟨.cancelState, waitObject0⟩ : JobEvent) ∈ events) ∨
      ∃ room ids, (⟨.queryProcessIds job room, ids⟩ : JobEvent) ∈ events := by
  cases h with
  | cancelled hcheck => exact Or.inl (check_signalled hcheck rfl)
  | unfinished hcheck hqueries => exact absurd rfl hended
  | failed hcheck hqueries =>
      obtain ⟨room, ids, hmem⟩ := enumerated_asked hqueries nofun
      exact Or.inr ⟨room, ids, List.mem_append_right _ hmem⟩
  | drained hcheck hqueries =>
      obtain ⟨room, ids, hmem⟩ := enumerated_asked hqueries nofun
      exact Or.inr ⟨room, ids, List.mem_append_right _ hmem⟩
  | unwatched hlooked => exact Or.inr (looked_asked hlooked)
  | watched hlooked hsome hfailure hclosings =>
      obtain ⟨room, ids, hmem⟩ := looked_asked hlooked
      exact Or.inr ⟨room, ids, List.mem_append_left _ hmem⟩

/-- A wait is for the confirmed members whose handles are held. -/
theorem roundRun_waits (h : RoundRun job deadline cancel events ended)
    {before after : List JobEvent} {handles : List Handle} {withCancel : Bool}
    {ms waited : UInt32} (hevents : events = before ++
      ⟨.waitForMultipleObjects handles withCancel ms, waited⟩ :: after) :
    withCancel = cancel ∧
      handles.length + (if withCancel then 1 else 0) ≤ 64 - 1 ∧
      (∀ handle ∈ handles, confirmedIn job handle ∈ before) ∧
      ∃ held, ledger [] before = some held ∧ held.Perm handles := by
  obtain ⟨kept, denied, left, _, _, hsame, hlooked, _⟩ :=
    h.of_wait hevents trivial
  obtain ⟨hquestion, _⟩ := Event.mk.inj hsame
  obtain ⟨rfl, rfl, rfl⟩ := JobCall.waitForMultipleObjects.inj hquestion
  refine ⟨rfl, looked_length hlooked, fun _ => looked_confirmed hlooked,
    handles.reverse, looked_ledger hlooked, List.reverse_perm handles⟩

theorem roundRun_denied (h : RoundRun job deadline cancel events ended)
    (hdenied : ∃ e ∈ events, Denies e)
    (hnone : ∀ handle, confirmedIn job handle ∉ events) :
    ∃ detail cause, ended =
      some (.verdict (.error (.unassessable detail cause))) := by
  obtain ⟨e, he, hdenies⟩ := hdenied
  have hnot {es : List JobEvent} (haside : ∀ e ∈ es, Aside e) : e ∉ es := by
    intro hmem
    exact aside_not_denies (haside e hmem) hdenies
  cases h with
  | cancelled hcheck => exact absurd he (hnot (check_aside hcheck))
  | unfinished hcheck hqueries =>
      exact absurd he (hnot (listed_aside hcheck hqueries))
  | failed hcheck hqueries =>
      exact absurd he (hnot (listed_aside hcheck hqueries))
  | drained hcheck hqueries =>
      exact absurd he (hnot (listed_aside hcheck hqueries))
  | @unwatched looked denied left hlooked =>
      cases denied with
      | none => exact absurd rfl (looked_denied hlooked he hdenies)
      | some cause => exact ⟨_, _, rfl⟩
  | @watched _ _ _ handles _ _ _ _ hlooked hsome hfailure hclosings =>
      -- a member was confirmed: its handle is one of those waited for
      obtain ⟨handle, hmem⟩ := List.exists_mem_of_ne_nil handles hsome
      exact absurd (List.mem_append_left _ (looked_confirmed hlooked hmem))
        (hnone handle)

theorem roundRun_sound (h : RoundRun job deadline cancel events ended) :
    RoundSound job cancel events ended where
  drained := roundRun_drained h
  looked := roundRun_looked h
  waits := fun _ _ _ _ _ _ hevents => roundRun_waits h hevents
  denied := roundRun_denied h
  closed := roundRun_ledger h

end

/-! ## A run's verdict -/

theorem ledger_flatMap {rounds : List (Round JobEvent)}
    (h : ∀ round ∈ rounds, ledger [] round.events = some []) :
    ledger [] (rounds.flatMap (·.events)) = some [] := by
  induction rounds with
  | nil => rfl
  | cons round rounds ih =>
      rw [List.flatMap_cons, ledger_of_append _ (h round List.mem_cons_self)]
      exact ih fun round' hmem => h round' (List.mem_cons_of_mem round hmem)

/-- Whatever the answers are, the wait goes in sound rounds, its verdict is
that of the last one and tells of what was looked at, and it closes the
handles that it opened, once each, and no other. -/
theorem waitDrainedRaw_sound (job : Handle)
    (deadline : Option (Option Nat)) (cancel : Bool) (fuel : Nat) :
    (waitDrainedRaw job deadline cancel fuel).Ensures [] fun r t =>
      (∃ rounds : List (Round JobEvent), t = rounds.flatMap (·.events) ∧
        Rounds job deadline cancel id rounds r ∧
        (∀ round ∈ rounds, RoundSound job cancel round.events round.ended) ∧
        ∀ v, r = some v → ∃ before last, rounds = before ++ [last] ∧
          last.ended = some (.verdict v)) ∧
      (r ≠ none →
        (cancel = true ∧ (⟨.cancelState, waitObject0⟩ : JobEvent) ∈ t) ∨
          ∃ room ids, (⟨.queryProcessIds job room, ids⟩ : JobEvent) ∈ t) ∧
      ledger [] t = some [] ∧
      ∀ handle, (∀ rights pid,
          (⟨.openProcess rights pid, .ok handle⟩ : JobEvent) ∉ t) →
        ∀ closed, (⟨.closeHandle handle, closed⟩ : JobEvent) ∉ t := by
  apply (Prog.ensures_runs (waitDrainedRaw job deadline cancel fuel) []).mono
  rintro r t ⟨events, ht, hruns⟩
  rw [List.nil_append] at ht
  rw [ht]
  rw [← List.map_id events] at hruns
  obtain ⟨rounds, rfl, hrounds⟩ := waitDrainedRaw_rounds fuel hruns
  have hsound : ∀ round ∈ rounds,
      RoundSound job cancel round.events round.ended := by
    intro round hmem
    have hround := (hrounds.isRound round hmem).cases
    rw [List.map_id] at hround
    exact roundRun_sound hround
  have hledger : ledger [] (rounds.flatMap (·.events)) = some [] :=
    ledger_flatMap fun round hmem => (hsound round hmem).closed
  refine ⟨⟨rounds, rfl, hrounds, hsound, ?_⟩, ?_, hledger, ?_⟩
  · intro v hv
    rw [hv] at hrounds
    exact hrounds.last_ended
  · intro htold
    obtain ⟨v, rfl⟩ := Option.ne_none_iff_exists'.mp htold
    obtain ⟨before, last, rfl, hlast⟩ := hrounds.last_ended
    have hsub : last.events ⊆ (before ++ [last]).flatMap (·.events) := by
      simp
    rcases (hsound last (by simp)).looked (by simp [hlast]) with
      ⟨hcancel, hseen⟩ | ⟨room, ids, hasked⟩
    · exact Or.inl ⟨hcancel, hsub hseen⟩
    · exact Or.inr ⟨room, ids, hsub hasked⟩
  · intro handle hopened closed hclosed
    rcases closed_of_ledger hledger hclosed with hheld | ⟨rights, pid, hopen⟩
    · exact nomatch hheld
    · exact hopened rights pid hopen

end Cosca.Ports.DrainSound
