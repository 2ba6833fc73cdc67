import Cosca.Ports.StartToken
import Cosca.Verified.Rely

/-!
# A host that recycles pids

The processes of a host as `wait::kill` meets them: a process keeps its pid
until it has exited and is reaped, a free pid may be given out again, an
identity names one process for ever, and an open pidfd or `HANDLE` refers to
the process it was opened on whatever becomes of its pid.  The host answers the
questions of the Linux backend and the calls of the Windows one, and moves on
in between.

Windows keeps the pid of a process taken while a handle to it is open.  Nothing
here relies on that: any process that has exited may be reaped at any time.
-/

namespace Cosca.Ports.PinnedHost

open Cosca.Ports.Errors
open Cosca.Ports.Identity
open Cosca.Ports.StartToken
open Cosca.Ports.UnixSignals (Errno Errno.srch Question Answer)
open Cosca.Verified.Interact

/-! ## Processes -/

/-- The processes ever created, those that have exited and those that were
reaped, what the open descriptors refer to, and whom this process delivered a
signal to. -/
structure Host where
  created : List ProcessId
  exited : List ProcessId
  reaped : List ProcessId
  pinned : Nat → Option ProcessId
  delivered : List ProcessId
  holder_unique : ∀ p ∈ created, ∀ q ∈ created, p ∉ reaped → q ∉ reaped →
    p.pid = q.pid → p = q
  reaped_exited : ∀ p ∈ reaped, p ∈ exited

/-- The process that holds a pid. -/
def Host.holder (h : Host) (pid : RawPid) : Option ProcessId :=
  h.created.find? fun p => p.pid == pid && !h.reaped.contains p

/-- A process is created under a pid that nobody holds. -/
def Host.create (h : Host) (id : ProcessId) (hfree : h.holder id.pid = none) :
    Host where
  created := id :: h.created
  exited := h.exited
  reaped := h.reaped
  pinned := h.pinned
  delivered := h.delivered
  holder_unique := by
    have hnone : ∀ p ∈ h.created, p ∉ h.reaped → p.pid ≠ id.pid := by
      intro p hp hreaped heq
      have hp' := List.find?_eq_none.mp hfree p hp
      simp [heq, hreaped] at hp'
    intro p hp q hq hpr hqr heq
    cases List.mem_cons.mp hp with
    | inl hp =>
        cases List.mem_cons.mp hq with
        | inl hq => rw [hp, hq]
        | inr hq => exact absurd (heq.symm.trans (by rw [hp])) (hnone q hq hqr)
    | inr hp =>
        cases List.mem_cons.mp hq with
        | inl hq => exact absurd (heq.trans (by rw [hq])) (hnone p hp hpr)
        | inr hq => exact h.holder_unique p hp q hq hpr hqr heq
  reaped_exited := h.reaped_exited

/-- A process exits; it keeps its pid. -/
def Host.exit (h : Host) (p : ProcessId) : Host :=
  { h with
    exited := p :: h.exited
    reaped_exited := fun q hq =>
      List.mem_cons_of_mem _ (h.reaped_exited q hq) }

/-- A process that has exited is reaped, and its pid is free. -/
def Host.reap (h : Host) (p : ProcessId) (hp : p ∈ h.exited) : Host :=
  { h with
    reaped := p :: h.reaped
    holder_unique := fun q hq r hr hqr hrr =>
      h.holder_unique q hq r hr
        (fun hmem => hqr (List.mem_cons_of_mem _ hmem))
        (fun hmem => hrr (List.mem_cons_of_mem _ hmem))
    reaped_exited := by
      intro q hq
      cases List.mem_cons.mp hq with
      | inl hq => exact hq ▸ hp
      | inr hq => exact h.reaped_exited q hq }

/-- A descriptor is opened on a process. -/
def Host.pin (h : Host) (fd : Nat) (p : ProcessId) : Host :=
  { h with pinned := fun fd' => if fd' = fd then some p else h.pinned fd' }

/-- A descriptor is closed. -/
def Host.unpin (h : Host) (fd : Nat) : Host :=
  { h with pinned := fun fd' => if fd' = fd then none else h.pinned fd' }

/-- A signal is delivered. -/
def Host.deliver (h : Host) (p : ProcessId) : Host :=
  { h with delivered := h.delivered ++ [p] }

/-- What happens by itself. -/
inductive Host.Moves : Host → Host → Prop where
  | create (h : Host) (id : ProcessId) (hnew : id ∉ h.created)
      (hfree : h.holder id.pid = none) : Moves h (h.create id hfree)
  | exit (h : Host) (p : ProcessId) (hp : p ∈ h.created) : Moves h (h.exit p)
  | reap (h : Host) (p : ProcessId) (hp : p ∈ h.exited) :
      Moves h (h.reap p hp)

/-- The host as an environment, given how it answers. -/
abbrev recycling {Q : Type} {A : Q → Type}
    (serves : Host → (q : Q) → A q → Host → Prop) : Environment A Host where
  serves := serves
  moves := Host.Moves

/-! ## Linux -/

/-- A by-pid read of the start token answers for the holder, or cannot tell.
Where `/proc` is unreadable the read falls back on probing the pid, and it is
the probe that says whether anybody holds it. -/
def Host.readsToken (h : Host) (pid : RawPid) (answer : Resolved UInt64) :
    Prop :=
  answer = .unknown ∨
    answer = match h.holder pid with
      | some p => .found p.start
      | none => .gone

/-- What Linux answers.  A signal through a pidfd reaches a zombie too, and
`ESRCH` says that the process was reaped.  Calls the teardown by pidfd does
not make may do anything. -/
def Host.linuxServes (h : Host) : (q : Question) → Answer q → Host → Prop
  | .startToken pid, answer, h' => h.readsToken pid answer ∧ h' = h
  | .pidfdOpen pid, .ok fd, h' =>
      ∃ p, h.holder pid = some p ∧ h.pinned fd = none ∧ h' = h.pin fd p
  | .pidfdOpen pid, .error e, h' =>
      (e = Errno.srch → h.holder pid = none) ∧ h' = h
  | .pidfdSendSignal fd _, .ok (), h' =>
      ∃ p, h.pinned fd = some p ∧ p ∉ h.reaped ∧ h' = h.deliver p
  | .pidfdSendSignal fd _, .error e, h' =>
      (e = Errno.srch → ∃ p, h.pinned fd = some p ∧ p ∈ h.reaped) ∧ h' = h
  | _, _, _ => True

abbrev linux : Environment Answer Host :=
  recycling Host.linuxServes

/-! ## Windows -/

/-- `PROCESS_TERMINATE`, `PROCESS_QUERY_LIMITED_INFORMATION` and
`PROCESS_SYNCHRONIZE`. -/
def processTerminate : UInt32 := 0x1
def processQueryLimitedInformation : UInt32 := 0x1000
def processSynchronize : UInt32 := 0x100000

/-- `WAIT_OBJECT_0`, `WAIT_TIMEOUT` and `STILL_ACTIVE`. -/
def waitObject0 : UInt32 := 0
def waitTimeout : UInt32 := 258
def stillActive : UInt32 := 259

/-- The calls of the Windows backend. -/
inductive Win32 where
  | openProcess (mask : UInt32) (pid : RawPid)
  | getProcessTimes (handle : Handle)
  | waitForSingleObject (handle : Handle) (ms : UInt32)
  | getExitCodeProcess (handle : Handle)
  | terminateProcess (handle : Handle) (code : UInt32)
  | closeHandle (handle : Handle)

abbrev Win32.Reply : Win32 → Type
  | .openProcess .. => Except HResult Handle
  | .getProcessTimes _ => Except HResult Filetime
  | .waitForSingleObject .. => UInt32
  | .getExitCodeProcess _ => Except HResult UInt32
  | .terminateProcess .. => Except HResult Unit
  | .closeHandle _ => Except HResult Unit

/-- What Windows answers: `ERROR_INVALID_PARAMETER` says that nobody holds the
pid, everything about a handle is about the process it was opened on, a
signalled handle or an exit code other than `STILL_ACTIVE` says that this
process has exited. -/
def Host.windowsServes (h : Host) : (q : Win32) → q.Reply → Host → Prop
  | .openProcess _ pid, .ok handle, h' =>
      ∃ p, h.holder pid = some p ∧ h.pinned handle = none ∧
        h' = h.pin handle p
  | .openProcess _ pid, .error e, h' =>
      (e = invalidParameterHresult → h.holder pid = none) ∧ h' = h
  | .getProcessTimes handle, .ok times, h' =>
      (∃ p, h.pinned handle = some p ∧ tokenOfFiletime times = p.start) ∧
        h' = h
  | .getProcessTimes _, .error _, h' => h' = h
  | .waitForSingleObject handle _, waited, h' =>
      (waited = waitObject0 → ∃ p, h.pinned handle = some p ∧ p ∈ h.exited) ∧
        h' = h
  | .getExitCodeProcess handle, .ok code, h' =>
      (code ≠ stillActive → ∃ p, h.pinned handle = some p ∧ p ∈ h.exited) ∧
        h' = h
  | .getExitCodeProcess _, .error _, h' => h' = h
  | .terminateProcess handle _, .ok (), h' =>
      ∃ p, h.pinned handle = some p ∧ h' = h.deliver p
  | .terminateProcess .., .error _, h' => h' = h
  | .closeHandle handle, .ok (), h' => h' = h.unpin handle
  | .closeHandle _, .error _, h' => h' = h

abbrev windows : Environment Win32.Reply Host :=
  recycling Host.windowsServes

/-! ## The holder of a pid -/

theorem Host.holder_eq_some {h : Host} {pid : RawPid} {p : ProcessId}
    (hp : h.holder pid = some p) :
    p ∈ h.created ∧ p ∉ h.reaped ∧ p.pid = pid := by
  have hmem := List.mem_of_find?_eq_some hp
  have hcond := List.find?_some hp
  simp only [Bool.and_eq_true, beq_iff_eq, Bool.not_eq_true',
    List.contains_eq_mem, decide_eq_false_iff_not] at hcond
  exact ⟨hmem, hcond.2, hcond.1⟩

/-- A process that was created holds its pid until it is reaped. -/
theorem Host.holder_of_created {h : Host} {id : ProcessId}
    (hid : id ∈ h.created) :
    h.holder id.pid = some id ∨ id ∈ h.reaped := by
  by_cases hreaped : id ∈ h.reaped
  · exact Or.inr hreaped
  · cases hholder : h.holder id.pid with
    | none =>
        have hcond := List.find?_eq_none.mp hholder id hid
        simp [hreaped] at hcond
    | some p =>
        obtain ⟨hcreated, hpr, hpid⟩ := Host.holder_eq_some hholder
        rw [h.holder_unique p hcreated id hid hpr hreaped hpid]
        exact Or.inl rfl

/-- Whoever else holds the pid, the process has been reaped. -/
theorem Host.reaped_of_holder_ne {h : Host} {id : ProcessId}
    (hid : id ∈ h.created) (hne : h.holder id.pid ≠ some id) :
    id ∈ h.reaped := by
  cases Host.holder_of_created hid with
  | inl hholder => exact absurd hholder hne
  | inr hreaped => exact hreaped

/-- A by-pid read that finds the token of an identity found its process. -/
theorem Host.readsToken_found {h : Host} {id : ProcessId} {start : UInt64}
    (hread : h.readsToken id.pid (.found start)) :
    h.holder id.pid = some ⟨id.pid, start⟩ := by
  cases hread with
  | inl hunknown => cases hunknown
  | inr hread =>
      cases hholder : h.holder id.pid with
      | none =>
          rw [hholder] at hread
          cases hread
      | some p =>
          rw [hholder] at hread
          have hstart : start = p.start := by
            injection hread
          have hpid := (Host.holder_eq_some hholder).2.2
          rw [hstart, ← hpid]

theorem Host.readsToken_gone {h : Host} {pid : RawPid}
    (hread : h.readsToken pid .gone) : h.holder pid = none := by
  cases hread with
  | inl hunknown => cases hunknown
  | inr hread =>
      cases hholder : h.holder pid with
      | none => rfl
      | some p =>
          rw [hholder] at hread
          cases hread

/-! ## What the moves keep -/

theorem Host.Moves.keeps {h h' : Host} (hmove : Host.Moves h h') :
    (∀ p ∈ h.created, p ∈ h'.created) ∧ (∀ p ∈ h.exited, p ∈ h'.exited) ∧
      (∀ p ∈ h.reaped, p ∈ h'.reaped) ∧ h'.pinned = h.pinned ∧
      h'.delivered = h.delivered := by
  cases hmove with
  | create id hnew hfree =>
      exact ⟨fun p hp => List.mem_cons_of_mem _ hp, fun p hp => hp,
        fun p hp => hp, rfl, rfl⟩
  | exit p hp =>
      exact ⟨fun p hp => hp, fun p hp => List.mem_cons_of_mem _ hp,
        fun p hp => hp, rfl, rfl⟩
  | reap p hp =>
      exact ⟨fun p hp => hp, fun p hp => hp,
        fun p hp => List.mem_cons_of_mem _ hp, rfl, rfl⟩

/-- The process was created, and nothing was delivered since `before`. -/
structure Untouched (id : ProcessId) (before h : Host) : Prop where
  created : id ∈ h.created
  delivered : h.delivered = before.delivered

/-- The descriptor was opened on the holder of the pid: on the process itself,
unless that was reaped before. -/
def Candidate (id : ProcessId) (fd : Nat) (h : Host) : Prop :=
  ∃ p, h.pinned fd = some p ∧ p.pid = id.pid ∧ (p ≠ id → id ∈ h.reaped)

/-- What a kill ends in: nobody but the process was delivered a signal since
`before`, and with `Ok` it was, or it has exited. -/
def Settled (id : ProcessId) (before : Host) (isOk : Prop) (h : Host) : Prop :=
  ∃ sent, h.delivered = before.delivered ++ sent ∧
    (∀ victim ∈ sent, victim = id) ∧ (isOk → id ∈ sent ∨ id ∈ h.exited)

section

variable {Q : Type} {A : Q → Type}
  {serves : Host → (q : Q) → A q → Host → Prop} {id : ProcessId} {fd : Nat}

theorem stable_untouched {before : Host} :
    (recycling serves).Stable (Untouched id before) := by
  intro h h' hmove hh
  have hkeeps := Host.Moves.keeps hmove
  exact ⟨hkeeps.1 _ hh.created, hkeeps.2.2.2.2.trans hh.delivered⟩

theorem stable_exited :
    (recycling serves).Stable fun h => id ∈ h.exited :=
  fun _ _ hmove hh => (Host.Moves.keeps hmove).2.1 _ hh

theorem stable_pinned :
    (recycling serves).Stable fun h => h.pinned fd = some id := by
  intro h h' hmove hh
  rw [(Host.Moves.keeps hmove).2.2.2.1]
  exact hh

theorem stable_candidate : (recycling serves).Stable (Candidate id fd) := by
  intro h h' hmove hh
  obtain ⟨p, hpinned, hpid, hreaped⟩ := hh
  have hkeeps := Host.Moves.keeps hmove
  rw [← hkeeps.2.2.2.1] at hpinned
  exact ⟨p, hpinned, hpid, fun hne => hkeeps.2.2.1 _ (hreaped hne)⟩

theorem stable_settled {before : Host} {isOk : Prop} :
    (recycling serves).Stable (Settled id before isOk) := by
  intro h h' hmove hh
  obtain ⟨sent, hdelivered, htargets, hok⟩ := hh
  have hkeeps := Host.Moves.keeps hmove
  refine ⟨sent, hkeeps.2.2.2.2.trans hdelivered, htargets, ?_⟩
  intro h
  cases hok h with
  | inl hsent => exact Or.inl hsent
  | inr hexited => exact Or.inr (hkeeps.2.1 _ hexited)

end

/-! ## What opening a pid gives -/

/-- Opening a pid finds its holder. -/
theorem Untouched.pin {id p : ProcessId} {fd : Nat} {before h : Host}
    (hh : Untouched id before h) (hp : h.holder id.pid = some p) :
    Untouched id before (h.pin fd p) ∧ Candidate id fd (h.pin fd p) := by
  refine ⟨⟨hh.created, hh.delivered⟩, p, ?_, (Host.holder_eq_some hp).2.2, ?_⟩
  · simp [Host.pin]
  · intro hne
    apply Host.reaped_of_holder_ne hh.created
    intro hid
    rw [hp] at hid
    exact hne (Option.some.inj hid)

/-- A pid that nobody holds: the process has exited. -/
theorem Untouched.exited {id : ProcessId} {before h : Host}
    (hh : Untouched id before h) (hne : h.holder id.pid ≠ some id) :
    id ∈ h.exited :=
  h.reaped_exited id (Host.reaped_of_holder_ne hh.created hne)

/-- A candidate with the token of the identity is its process. -/
theorem Candidate.of_start {id p : ProcessId} {fd : Nat} {h : Host}
    (hc : Candidate id fd h) (hp : h.pinned fd = some p)
    (hstart : p.start = id.start) : p = id := by
  obtain ⟨q, hq, hpid, -⟩ := hc
  rw [hp] at hq
  have hpq : p = q := Option.some.inj hq
  rw [← hpq] at hpid
  cases p
  cases id
  simp_all

/-- A candidate with another token is another process, and this one has
exited. -/
theorem Candidate.exited {id p : ProcessId} {fd : Nat} {h : Host}
    (hc : Candidate id fd h) (hp : h.pinned fd = some p)
    (hstart : p.start ≠ id.start) : id ∈ h.exited := by
  obtain ⟨q, hq, -, hreaped⟩ := hc
  rw [hp] at hq
  have hpq : p = q := Option.some.inj hq
  apply h.reaped_exited
  apply hreaped
  intro heq
  rw [hpq, heq] at hstart
  exact hstart rfl

/-- A candidate whose process is known to hold its pid still is opened on
it. -/
theorem Candidate.of_holder {id : ProcessId} {fd : Nat} {h : Host}
    (hc : Candidate id fd h) (hholder : h.holder id.pid = some id) :
    h.pinned fd = some id := by
  obtain ⟨p, hp, -, hreaped⟩ := hc
  by_cases heq : p = id
  · rw [hp, heq]
  · exact absurd (hreaped heq) (Host.holder_eq_some hholder).2.1

/-! ## How a kill ends -/

theorem Untouched.settled {id : ProcessId} {isOk : Prop} {before h : Host}
    (hh : Untouched id before h) (hexited : isOk → id ∈ h.exited) :
    Settled id before isOk h :=
  ⟨[], by rw [hh.delivered, List.append_nil], by simp,
    fun hok => Or.inr (hexited hok)⟩

theorem Settled.mono {id : ProcessId} {isOk isOk' : Prop} {before h : Host}
    (hh : Settled id before isOk h) (himp : isOk' → isOk) :
    Settled id before isOk' h := by
  obtain ⟨sent, hdelivered, htargets, hok⟩ := hh
  exact ⟨sent, hdelivered, htargets, fun h => hok (himp h)⟩

/-- A signal through a descriptor of the process itself. -/
theorem Untouched.deliver {id : ProcessId} {isOk : Prop} {before h : Host}
    (hh : Untouched id before h) : Settled id before isOk (h.deliver id) := by
  refine ⟨[id], ?_, by simp, fun _ => Or.inl List.mem_cons_self⟩
  show h.delivered ++ [id] = before.delivered ++ [id]
  rw [hh.delivered]

end Cosca.Ports.PinnedHost
