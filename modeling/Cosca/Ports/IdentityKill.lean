import Cosca.Ports.PinnedHost

/-!
# Killing by identity

`wait::linux::kill` and `terminate`, and `wait::windows::kill` with the
liveness read of its failure arms, `identity/windows.rs::is_running`.  The
Linux backend opens the pid first and checks the identity by pid afterwards;
the Windows backend checks it on the handle it holds.

## Main results

* `kill_identity_bound`: whatever exits, is reaped and is created between the
  steps, a signal reaches the process of the identity only, and success means
  that it reached it or that the process has exited.
-/

namespace Cosca.Ports.IdentityKill

open Cosca.Ports.Errors
open Cosca.Ports.Identity
open Cosca.Ports.StartToken
open Cosca.Ports.UnixSignals (Errno Errno.srch Question Answer Panic Signalling
  ask openVerified)
open Cosca.Ports.PinnedHost
open Cosca.Verified.Interact

/-! ## Linux -/

/-- What the answer of `pidfd_send_signal` says; `ESRCH` is an exit between
the check and the signal. -/
def signalSent : Except Errno Unit → Except Error Unit
  | .ok () => .ok ()
  | .error e => if e == Errno.srch then .ok () else .error (.io (.os e))

/-- The body `kill` and `terminate` share. -/
def signalVerified (id : ProcessId) (signal : Signal) :
    Signalling (Except Error Unit) := do
  match ← openVerified id "no signal was sent" with
  | .error e => return .error e
  | .ok none => return .ok ()
  | .ok (some pidfd) =>
      let sent : Except Errno Unit ← ask (.pidfdSendSignal pidfd signal)
      return signalSent sent

/-- `wait::linux::kill`. -/
def Linux.kill (id : ProcessId) : Signalling (Except Error Unit) :=
  signalVerified id .sigkill

/-- `wait::linux::terminate`. -/
def Linux.terminate (id : ProcessId) : Signalling (Except Error Unit) :=
  signalVerified id .sigterm

/-! ## Windows -/

/-- A program of the Windows backend. -/
abbrev Calling := Prog Win32 Win32.Reply

abbrev call (q : Win32) : Calling q.Reply :=
  query q

/-- `close`. -/
def close (handle : Handle) : Calling Unit := do
  let _ ← call (.closeHandle handle)
  return ()

/-- `creation_token_result`. -/
def creationTokenResult (handle : Handle) : Calling (Except HResult UInt64) := do
  let times : Except HResult Filetime ← call (.getProcessTimes handle)
  return times.map tokenOfFiletime

/-- What the answer of a 0 ms `WaitForSingleObject` says. -/
def signalledState (waited : UInt32) : Liveness :=
  if waited = waitTimeout then .alive
  else if waited = waitObject0 then .dead
  else .unknown

/-- What the answer of `GetExitCodeProcess` says. -/
def exitedState : Except HResult UInt32 → Liveness
  | .ok code => if code ≠ stillActive then .dead else .unknown
  | .error _ => .unknown

/-- The verdict of `liveness_without_synchronize` on the handle it opened. -/
def exitCodeVerdict (start : UInt64) (handle : Handle) :
    Except HResult UInt64 → Calling Liveness
  | .error _ => return .unknown
  | .ok token =>
      if token ≠ start then return .dead
      else do
        let code : Except HResult UInt32 ← call (.getExitCodeProcess handle)
        return exitedState code

/-- `liveness_without_synchronize`. -/
def livenessWithoutSynchronize (pid : RawPid) (start : UInt64) :
    Calling Liveness := do
  let opened : Except HResult Handle ←
    call (.openProcess processQueryLimitedInformation pid)
  match openClassified opened with
  | .gone => return .dead
  | .denied _ => return .unknown
  | .found handle =>
      let token ← creationTokenResult handle
      let verdict ← exitCodeVerdict start handle token
      close handle
      return verdict

/-- The verdict of `is_running` on the handle it opened. -/
def waitVerdict (start : UInt64) (handle : Handle) :
    Except HResult UInt64 → Calling Liveness
  | .error _ => return .unknown
  | .ok token =>
      if token = start then do
        let waited : UInt32 ← call (.waitForSingleObject handle 0)
        return signalledState waited
      else return .dead

/-- `is_running`. -/
def isRunning (pid : RawPid) (start : UInt64) : Calling Liveness := do
  let opened : Except HResult Handle ← call (.openProcess
    (processQueryLimitedInformation ||| processSynchronize) pid)
  match openClassified opened with
  | .gone => return .dead
  | .denied _ => livenessWithoutSynchronize pid start
  | .found handle =>
      let token ← creationTokenResult handle
      let verdict ← waitVerdict start handle token
      close handle
      return verdict

/-- `ProcessId::is_alive`. -/
def isAlive (id : ProcessId) : Calling Liveness :=
  isRunning id.pid id.start

/-- `HandleIdentity`. -/
inductive HandleIdentity where
  | same
  | different
  | unreadable (e : HResult)
  deriving DecidableEq, Repr

/-- What the token read off a handle says about the identity. -/
def HandleIdentity.of (id : ProcessId) : Except HResult UInt64 → HandleIdentity
  | .ok token => if token = id.start then .same else .different
  | .error e => .unreadable e

/-- `windows_handle_identity`. -/
def windowsHandleIdentity (handle : Handle) (id : ProcessId) :
    Calling HandleIdentity := do
  let token ← creationTokenResult handle
  return HandleIdentity.of id token

/-- The result where the pid could not be opened. -/
def openDenied (id : ProcessId) (e : HResult) (liveness : Liveness) :
    Except Error Unit :=
  if liveness == .dead then .ok ()
  else .error (.unassessable ("pid " ++ toString id.pid ++
    " could not be opened to terminate it") (some (HResult.io e)))

/-- The liveness is read only after a failed `TerminateProcess`. -/
def failureVerdict (id : ProcessId) :
    Except HResult Unit → Calling (Option Liveness)
  | .ok () => return none
  | .error _ => do
      let liveness ← isAlive id
      return some liveness

/-- The result of `TerminateProcess` and of the liveness read. -/
def terminated (res : Except HResult Unit) (verdict : Option Liveness) :
    Except Error Unit :=
  match res with
  | .ok () => .ok ()
  | .error e =>
      if verdict == some .dead then .ok () else .error (.io (HResult.io e))

/-- `kill` on the handle that was verified. -/
def terminateHeld (id : ProcessId) (handle : Handle) :
    Calling (Except Error Unit) := do
  let res : Except HResult Unit ← call (.terminateProcess handle 1)
  let verdict ← failureVerdict id res
  close handle
  return terminated res verdict

/-- `kill` on the handle it opened. -/
def killHeld (id : ProcessId) (handle : Handle) :
    HandleIdentity → Calling (Except Error Unit)
  | .same => terminateHeld id handle
  | .different => do
      close handle
      return .ok ()
  | .unreadable e => do
      close handle
      return .error (.unassessable ("pid " ++ toString id.pid ++
        " opened but its identity could not be verified")
        (some (HResult.io e)))

/-- `wait::windows::kill`. -/
def Windows.kill (id : ProcessId) : Calling (Except Error Unit) := do
  let opened : Except HResult Handle ← call (.openProcess
    (processTerminate ||| processQueryLimitedInformation) id.pid)
  match openClassified opened with
  | .gone => return .ok ()
  | .denied e =>
      let liveness ← isAlive id
      return openDenied id e liveness
  | .found handle =>
      let identity ← windowsHandleIdentity handle id
      killHeld id handle identity

/-! ## The Linux backend on a host that recycles pids -/

theorem guarantees_ask {α : Type} {q : Question} {f : Answer q → Signalling α}
    {pre : Host → Prop} {post : Except Panic α → Host → Prop}
    (mid : Answer q → Host → Prop) (hstable : linux.Stable pre)
    (hserves : ∀ h a h', linux.serves h q a h' → pre h → mid a h')
    (hf : ∀ a, Prog.Guarantees linux (mid a) (f a).run post) :
    Prog.Guarantees linux pre (ask q >>= f).run post :=
  Prog.Guarantees.run_query_bind mid hstable hserves hf

section

variable {id : ProcessId} {before : Host}

/-- What `pidfd_open` leaves behind. -/
def PidfdOpened (id : ProcessId) (before : Host) (opened : Except Errno Nat)
    (h : Host) : Prop :=
  Untouched id before h ∧
    match opened with
    | .ok fd => Candidate id fd h
    | .error e => e = Errno.srch → id ∈ h.exited

theorem stable_pidfdOpened {opened : Except Errno Nat} :
    linux.Stable (PidfdOpened id before opened) := by
  cases opened with
  | ok fd => exact stable_untouched.and stable_candidate
  | error e => exact stable_untouched.and (stable_exited.imp _)

theorem pidfdOpen_opened (h : Host) (opened : Except Errno Nat) (h' : Host)
    (hserves : linux.serves h (.pidfdOpen id.pid) opened h')
    (hh : Untouched id before h) : PidfdOpened id before opened h' := by
  cases opened with
  | ok fd =>
      obtain ⟨p, hholder, hfree, hpin⟩ := hserves
      rw [hpin]
      exact hh.pin hholder
  | error e =>
      obtain ⟨hgone, hsame⟩ := hserves
      rw [hsame]
      refine ⟨hh, ?_⟩
      intro heq
      apply hh.exited
      rw [hgone heq]
      simp

/-- What `open_verified` ends in: a pidfd of the process itself, and `None`
only where the process has exited. -/
def PidfdVerified (id : ProcessId) (before : Host)
    (r : Except Panic (Except Error (Option Nat))) (h : Host) : Prop :=
  Untouched id before h ∧
    match r with
    | .ok (.ok (some fd)) => h.pinned fd = some id
    | .ok (.ok none) => id ∈ h.exited
    | _ => True

/-- The identity check by pid comes after the open.  It finds the token only
while the process itself holds the pid, so the process held it at the open
too, and the pidfd is its own. -/
theorem startToken_verified {fd : Nat} (h : Host) (start : Resolved UInt64)
    (h' : Host) (hserves : linux.serves h (.startToken id.pid) start h')
    (hh : PidfdOpened id before (.ok fd) h) :
    Untouched id before h' ∧
      (id.exists start = .present → h'.pinned fd = some id) ∧
      (id.exists start = .gone → id ∈ h'.exited) := by
  obtain ⟨hread, hsame⟩ := hserves
  obtain ⟨huntouched, hcandidate⟩ := hh
  rw [hsame]
  refine ⟨huntouched, ?_, ?_⟩
  · intro hpresent
    cases start with
    | found token =>
        have htoken : token = id.start := by
          by_cases heq : token = id.start
          · exact heq
          · simp [ProcessId.exists, heq] at hpresent
        have hholder := Host.readsToken_found hread
        rw [htoken] at hholder
        exact hcandidate.of_holder hholder
    | gone => cases hpresent
    | unknown => cases hpresent
  · intro hgone
    apply huntouched.exited
    cases start with
    | found token =>
        rw [Host.readsToken_found hread]
        intro heq
        have hid : (⟨id.pid, token⟩ : ProcessId) = id := Option.some.inj heq
        rw [← hid] at hgone
        simp [ProcessId.exists] at hgone
    | gone =>
        rw [Host.readsToken_gone hread]
        simp
    | unknown => cases hgone

theorem openVerified_guarantees (what : String) :
    Prog.Guarantees linux (Untouched id before) (openVerified id what).run
      (PidfdVerified id before) := by
  unfold openVerified
  split
  · exact .run_throw stable_untouched fun h hh => ⟨hh, trivial⟩
  refine guarantees_ask (q := .pidfdOpen id.pid) (PidfdOpened id before)
    stable_untouched pidfdOpen_opened ?_
  intro opened
  cases opened with
  | error e =>
      by_cases hsrch : e = Errno.srch
      · simp only [hsrch, BEq.rfl, if_true]
        exact .run_pure stable_pidfdOpened fun h hh => ⟨hh.1, hh.2 rfl⟩
      · simp only [beq_iff_eq, hsrch, if_false]
        split
        · exact .run_pure stable_pidfdOpened fun h hh => ⟨hh.1, trivial⟩
        · exact .run_pure stable_pidfdOpened fun h hh => ⟨hh.1, trivial⟩
  | ok fd =>
      refine guarantees_ask (q := .startToken id.pid) _ stable_pidfdOpened
        startToken_verified ?_
      intro start
      have hstable : linux.Stable fun h => Untouched id before h ∧
          (id.exists start = .present → h.pinned fd = some id) ∧
          (id.exists start = .gone → id ∈ h.exited) :=
        stable_untouched.and ((stable_pinned.imp _).and (stable_exited.imp _))
      split
      · next hpresent =>
          exact .run_pure hstable fun h hh => ⟨hh.1, hh.2.1 hpresent⟩
      · next hgone => exact .run_pure hstable fun h hh => ⟨hh.1, hh.2.2 hgone⟩
      · exact .run_pure hstable fun h hh => ⟨hh.1, trivial⟩

theorem pidfdSendSignal_settled {fd : Nat} {signal : Signal} (h : Host)
    (sent : Except Errno Unit) (h' : Host)
    (hserves : linux.serves h (.pidfdSendSignal fd signal) sent h')
    (hh : PidfdVerified id before (.ok (.ok (some fd))) h) :
    Settled id before (signalSent sent = .ok ()) h' := by
  obtain ⟨huntouched, hpinned⟩ := hh
  have hpinned : h.pinned fd = some id := hpinned
  cases sent with
  | ok u =>
      obtain ⟨p, hp, hreaped, hsent⟩ := hserves
      rw [hpinned] at hp
      rw [hsent, ← Option.some.inj hp]
      exact huntouched.deliver
  | error e =>
      obtain ⟨hsrch, hsame⟩ := hserves
      rw [hsame]
      apply huntouched.settled
      intro hok
      by_cases heq : e = Errno.srch
      · obtain ⟨p, hp, hreaped⟩ := hsrch heq
        rw [hpinned] at hp
        rw [Option.some.inj hp]
        exact h.reaped_exited p hreaped
      · simp [signalSent, heq] at hok

theorem stable_pidfdVerified {r : Except Panic (Except Error (Option Nat))} :
    linux.Stable (PidfdVerified id before r) := by
  unfold PidfdVerified
  split
  · exact stable_untouched.and stable_pinned
  · exact stable_untouched.and stable_exited
  · exact stable_untouched.and fun _ _ _ h => h

theorem signalVerified_settled (signal : Signal) :
    Prog.Guarantees linux (Untouched id before) (signalVerified id signal).run
      fun r => Settled id before (r = .ok (.ok ())) := by
  unfold signalVerified
  refine Prog.Guarantees.run_bind (PidfdVerified id before)
    (openVerified_guarantees _) ?_ ?_
  · intro opened
    match opened with
    | .error e =>
        exact .run_pure stable_pidfdVerified fun h hh =>
          hh.1.settled (by simp)
    | .ok none =>
        exact .run_pure stable_pidfdVerified fun h hh =>
          hh.1.settled fun _ => hh.2
    | .ok (some fd) =>
        refine guarantees_ask (q := .pidfdSendSignal fd signal) _
          stable_pidfdVerified pidfdSendSignal_settled ?_
        intro sent
        refine .run_pure stable_settled ?_
        exact fun h hh => hh.mono fun hok => Except.ok.inj hok
  · intro e
    exact ⟨stable_pidfdVerified, fun h hh => hh.1.settled (by simp)⟩

end

/-! ## The Windows backend -/

theorem guarantees_call {α : Type} {q : Win32} {f : q.Reply → Calling α}
    {pre : Host → Prop} {post : α → Host → Prop} (mid : q.Reply → Host → Prop)
    (hstable : windows.Stable pre)
    (hserves : ∀ h a h', windows.serves h q a h' → pre h → mid a h')
    (hf : ∀ a, Prog.Guarantees windows (mid a) (f a) post) :
    Prog.Guarantees windows pre (call q >>= f) post :=
  Prog.Guarantees.query_bind mid hstable hserves hf

section

variable {id : ProcessId} {before : Host}

/-- What a classified `OpenProcess` leaves behind. -/
def ProcessOpened (id : ProcessId) (before : Host) (opened : Opened)
    (h : Host) : Prop :=
  Untouched id before h ∧
    match opened with
    | .found handle => Candidate id handle h
    | .gone => id ∈ h.exited
    | .denied _ => True

theorem stable_processOpened {opened : Opened} :
    windows.Stable (ProcessOpened id before opened) := by
  cases opened with
  | found handle => exact stable_untouched.and stable_candidate
  | gone => exact stable_untouched.and stable_exited
  | denied e => exact stable_untouched.and fun _ _ _ h => h

theorem openProcess_opened {mask : UInt32} (h : Host)
    (opened : Except HResult Handle) (h' : Host)
    (hserves : windows.serves h (.openProcess mask id.pid) opened h')
    (hh : Untouched id before h) :
    ProcessOpened id before (openClassified opened) h' := by
  cases opened with
  | ok handle =>
      obtain ⟨p, hholder, hfree, hpin⟩ := hserves
      rw [hpin]
      exact hh.pin hholder
  | error e =>
      obtain ⟨hgone, hsame⟩ := hserves
      rw [hsame]
      refine ⟨hh, ?_⟩
      unfold openClassified
      by_cases heq : e = invalidParameterHresult
      · simp only [heq, if_true]
        apply hh.exited
        rw [hgone heq]
        simp
      · simp only [heq, if_false]

/-- What the token read off a held handle says. -/
def TokenRead (id : ProcessId) (before : Host) (handle : Handle)
    (token : Except HResult UInt64) (h : Host) : Prop :=
  Untouched id before h ∧
    (token = .ok id.start → h.pinned handle = some id) ∧
    (∀ other, token = .ok other → other ≠ id.start → id ∈ h.exited)

theorem stable_tokenRead {handle : Handle} {token : Except HResult UInt64} :
    windows.Stable (TokenRead id before handle token) := by
  refine stable_untouched.and ((stable_pinned.imp _).and ?_)
  intro h h' hmove hh other hother hne
  exact stable_exited h h' hmove (hh other hother hne)

/-- The handle that was opened is the process's own exactly where it carries
the token of the identity. -/
theorem creationTokenResult_guarantees (handle : Handle) :
    Prog.Guarantees windows
      (fun h => Untouched id before h ∧ Candidate id handle h)
      (creationTokenResult handle) (TokenRead id before handle) := by
  unfold creationTokenResult
  refine guarantees_call (q := .getProcessTimes handle)
    (fun times => TokenRead id before handle (times.map tokenOfFiletime))
    (stable_untouched.and stable_candidate) ?_ ?_
  · intro h times h' hserves hh
    obtain ⟨huntouched, hcandidate⟩ := hh
    cases times with
    | ok times =>
        obtain ⟨⟨p, hp, hstart⟩, hsame⟩ := hserves
        rw [hsame]
        refine ⟨huntouched, ?_, ?_⟩
        · intro htoken
          have htoken : tokenOfFiletime times = id.start :=
            Except.ok.inj htoken
          rw [hp, hcandidate.of_start hp (hstart.symm.trans htoken)]
        · intro other hother hne
          have hother : tokenOfFiletime times = other := Except.ok.inj hother
          apply hcandidate.exited hp
          rw [← hstart, hother]
          exact hne
    | error e =>
        have hsame : h' = h := hserves
        rw [hsame]
        refine ⟨huntouched, ?_, ?_⟩
        · intro htoken
          cases htoken
        · intro other hother
          cases hother
  · intro times
    exact .pure stable_tokenRead fun h hh => hh

/-- Closing a handle changes neither what happened to the process nor what was
delivered. -/
theorem close_guarantees (handle : Handle) (cond : Host → Prop)
    (hstable : windows.Stable cond)
    (hunpin : ∀ h, cond h → cond (h.unpin handle)) :
    Prog.Guarantees windows cond (close handle) fun _ => cond := by
  unfold close
  refine guarantees_call (q := .closeHandle handle) (fun _ => cond) hstable
    ?_ ?_
  · intro h closed h' hserves hh
    cases closed with
    | ok u =>
        have hclosed : h' = h.unpin handle := hserves
        rw [hclosed]
        exact hunpin h hh
    | error e =>
        have hsame : h' = h := hserves
        rw [hsame]
        exact hh
  · intro closed
    exact .pure hstable fun h hh => hh

/-- A liveness read answers `Dead` only for a process that has exited. -/
def LivenessRead (id : ProcessId) (before : Host) (liveness : Liveness)
    (h : Host) : Prop :=
  Untouched id before h ∧ (liveness = .dead → id ∈ h.exited)

theorem stable_livenessRead {liveness : Liveness} :
    windows.Stable (LivenessRead id before liveness) :=
  stable_untouched.and (stable_exited.imp _)

theorem close_livenessRead (handle : Handle) (liveness : Liveness) :
    Prog.Guarantees windows (LivenessRead id before liveness) (close handle)
      fun _ => LivenessRead id before liveness :=
  close_guarantees handle _ stable_livenessRead fun _ hh =>
    ⟨⟨hh.1.created, hh.1.delivered⟩, hh.2⟩

theorem waitVerdict_guarantees (handle : Handle)
    (token : Except HResult UInt64) :
    Prog.Guarantees windows (TokenRead id before handle token)
      (waitVerdict id.start handle token) (LivenessRead id before) := by
  unfold waitVerdict
  cases token with
  | error e => exact .pure stable_tokenRead fun h hh => ⟨hh.1, by simp⟩
  | ok token =>
      by_cases heq : token = id.start
      · simp only [heq, if_true]
        refine guarantees_call (q := .waitForSingleObject handle 0)
          (fun waited => LivenessRead id before (signalledState waited))
          stable_tokenRead ?_ ?_
        · intro h waited h' hserves hh
          obtain ⟨hwaited, hsame⟩ := hserves
          rw [hsame]
          refine ⟨hh.1, ?_⟩
          intro hdead
          have hobject : waited = waitObject0 := by
            unfold signalledState at hdead
            split at hdead
            · cases hdead
            · split at hdead
              · assumption
              · cases hdead
          obtain ⟨p, hp, hexited⟩ := hwaited hobject
          rw [hh.2.1 rfl] at hp
          rw [Option.some.inj hp]
          exact hexited
        · intro waited
          exact .pure stable_livenessRead fun h hh => hh
      · simp only [heq, if_false]
        exact .pure stable_tokenRead fun h hh =>
          ⟨hh.1, fun _ => hh.2.2 token rfl heq⟩

theorem exitCodeVerdict_guarantees (handle : Handle)
    (token : Except HResult UInt64) :
    Prog.Guarantees windows (TokenRead id before handle token)
      (exitCodeVerdict id.start handle token) (LivenessRead id before) := by
  unfold exitCodeVerdict
  cases token with
  | error e => exact .pure stable_tokenRead fun h hh => ⟨hh.1, by simp⟩
  | ok token =>
      by_cases heq : token = id.start
      · simp only [heq, ne_eq, not_true_eq_false, if_false]
        refine guarantees_call (q := .getExitCodeProcess handle)
          (fun code => LivenessRead id before (exitedState code))
          stable_tokenRead ?_ ?_
        · intro h code h' hserves hh
          cases code with
          | error e =>
              have hsame : h' = h := hserves
              rw [hsame]
              exact ⟨hh.1, by simp [exitedState]⟩
          | ok code =>
              obtain ⟨hcode, hsame⟩ := hserves
              rw [hsame]
              refine ⟨hh.1, ?_⟩
              intro hdead
              have hne : code ≠ stillActive := by
                intro hactive
                simp [exitedState, hactive] at hdead
              obtain ⟨p, hp, hexited⟩ := hcode hne
              rw [hh.2.1 rfl] at hp
              rw [Option.some.inj hp]
              exact hexited
        · intro code
          exact .pure stable_livenessRead fun h hh => hh
      · simp only [heq, ne_eq, not_false_eq_true, if_true]
        exact .pure stable_tokenRead fun h hh =>
          ⟨hh.1, fun _ => hh.2.2 token rfl heq⟩

/-- The tail both liveness reads share, on the handle they opened. -/
theorem heldLiveness_guarantees {handle : Handle}
    {verdict : Except HResult UInt64 → Calling Liveness}
    (hverdict : ∀ token, Prog.Guarantees windows
      (TokenRead id before handle token) (verdict token)
      (LivenessRead id before)) :
    Prog.Guarantees windows
      (fun h => Untouched id before h ∧ Candidate id handle h)
      (do
        let token ← creationTokenResult handle
        let liveness ← verdict token
        close handle
        return liveness) (LivenessRead id before) := by
  refine Prog.Guarantees.bind _ (creationTokenResult_guarantees handle) ?_
  intro token
  refine Prog.Guarantees.bind _ (hverdict token) ?_
  intro liveness
  refine Prog.Guarantees.bind _ (close_livenessRead handle liveness) ?_
  intro u
  exact .pure stable_livenessRead fun h hh => hh

theorem livenessWithoutSynchronize_guarantees :
    Prog.Guarantees windows (Untouched id before)
      (livenessWithoutSynchronize id.pid id.start)
      (LivenessRead id before) := by
  unfold livenessWithoutSynchronize
  refine guarantees_call (q := .openProcess _ id.pid)
    (fun opened => ProcessOpened id before (openClassified opened))
    stable_untouched openProcess_opened ?_
  intro opened
  cases openClassified opened with
  | gone => exact .pure stable_processOpened fun h hh => ⟨hh.1, fun _ => hh.2⟩
  | denied e => exact .pure stable_processOpened fun h hh => ⟨hh.1, by simp⟩
  | found handle =>
      exact heldLiveness_guarantees (exitCodeVerdict_guarantees handle)

theorem isAlive_guarantees :
    Prog.Guarantees windows (Untouched id before) (isAlive id)
      (LivenessRead id before) := by
  unfold isAlive isRunning
  refine guarantees_call (q := .openProcess _ id.pid)
    (fun opened => ProcessOpened id before (openClassified opened))
    stable_untouched openProcess_opened ?_
  intro opened
  cases openClassified opened with
  | gone => exact .pure stable_processOpened fun h hh => ⟨hh.1, fun _ => hh.2⟩
  | denied e =>
      exact livenessWithoutSynchronize_guarantees.conseq
        (fun h hh => hh.1) fun r h hh => hh
  | found handle =>
      exact heldLiveness_guarantees (waitVerdict_guarantees handle)

/-! ## `kill` on Windows -/

/-- A liveness read whose verdict is a success only for a dead process. -/
theorem isAlive_settled {α : Type} {verdict : Liveness → α} {isOk : α → Prop}
    (hdead : ∀ liveness, isOk (verdict liveness) → liveness = .dead) :
    Prog.Guarantees windows (Untouched id before)
      (isAlive id >>= fun liveness => pure (verdict liveness))
      fun r => Settled id before (isOk r) := by
  refine Prog.Guarantees.bind _ isAlive_guarantees ?_
  intro liveness
  refine .pure stable_livenessRead ?_
  intro h hh
  apply hh.1.settled
  intro hok
  exact hh.2 (hdead liveness hok)

theorem close_settled (handle : Handle) (isOk : Prop) :
    Prog.Guarantees windows (Settled id before isOk) (close handle)
      fun _ => Settled id before isOk :=
  close_guarantees handle _ stable_settled fun _ hh => hh

/-- What `TerminateProcess` on the process's own handle leaves behind. -/
def TerminateSent (id : ProcessId) (before : Host) (res : Except HResult Unit)
    (h : Host) : Prop :=
  match res with
  | .ok () => Settled id before True h
  | .error _ => Untouched id before h

theorem terminateProcess_sent {handle : Handle} {token : Except HResult UInt64}
    (htoken : token = .ok id.start) (h : Host) (res : Except HResult Unit)
    (h' : Host)
    (hserves : windows.serves h (.terminateProcess handle 1) res h')
    (hh : TokenRead id before handle token h) :
    TerminateSent id before res h' := by
  cases res with
  | ok u =>
      show Settled id before True h'
      obtain ⟨p, hp, hsent⟩ := hserves
      rw [hh.2.1 htoken] at hp
      rw [hsent, ← Option.some.inj hp]
      exact hh.1.deliver
  | error e =>
      show Untouched id before h'
      have hsame : h' = h := hserves
      rw [hsame]
      exact hh.1

theorem terminateHeld_settled {handle : Handle}
    {token : Except HResult UInt64} (htoken : token = .ok id.start) :
    Prog.Guarantees windows (TokenRead id before handle token)
      (terminateHeld id handle) fun r => Settled id before (r = .ok ()) := by
  unfold terminateHeld
  refine guarantees_call (q := .terminateProcess handle 1) _ stable_tokenRead
    (terminateProcess_sent htoken) ?_
  intro res
  refine Prog.Guarantees.bind (fun verdict =>
    Settled id before (terminated res verdict = .ok ())) ?_ ?_
  · cases res with
    | ok u =>
        exact .pure stable_settled fun h hh => hh.mono fun _ => trivial
    | error e =>
        refine isAlive_settled ?_
        intro liveness hok
        cases liveness with
        | dead => rfl
        | alive => simp [terminated] at hok
        | unknown => simp [terminated] at hok
  · intro verdict
    refine Prog.Guarantees.bind _ (close_settled handle _) ?_
    intro u
    exact .pure stable_settled fun h hh => hh

theorem killHeld_settled (handle : Handle) (token : Except HResult UInt64) :
    Prog.Guarantees windows (TokenRead id before handle token)
      (killHeld id handle (HandleIdentity.of id token))
      fun r => Settled id before (r = .ok ()) := by
  cases token with
  | error e =>
      have hclosed : Prog.Guarantees windows (Settled id before False)
          (close handle) fun _ => Settled id before False :=
        close_settled handle False
      refine Prog.Guarantees.bind _ (hclosed.conseq
        (fun h hh => hh.1.settled (by simp)) fun _ _ hh => hh) ?_
      intro u
      exact .pure stable_settled fun h hh => hh.mono (by simp)
  | ok token =>
      by_cases heq : token = id.start
      · have hsame : HandleIdentity.of id (.ok token) = .same := by
          simp [HandleIdentity.of, heq]
        rw [hsame]
        exact terminateHeld_settled (congrArg Except.ok heq)
      · have hdifferent : HandleIdentity.of id (.ok token) = .different := by
          simp [HandleIdentity.of, heq]
        rw [hdifferent]
        have hclosed : Prog.Guarantees windows (Settled id before True)
            (close handle) fun _ => Settled id before True :=
          close_settled handle True
        refine Prog.Guarantees.bind _ (hclosed.conseq
          (fun h hh => hh.1.settled fun _ => hh.2.2 token rfl heq)
          fun _ _ hh => hh) ?_
        intro u
        exact .pure stable_settled fun h hh => hh.mono fun _ => trivial

theorem windowsKill_settled :
    Prog.Guarantees windows (Untouched id before) (Windows.kill id)
      fun r => Settled id before (r = .ok ()) := by
  unfold Windows.kill
  refine guarantees_call (q := .openProcess _ id.pid)
    (fun opened => ProcessOpened id before (openClassified opened))
    stable_untouched openProcess_opened ?_
  intro opened
  cases openClassified opened with
  | gone =>
      exact .pure stable_processOpened fun h hh =>
        hh.1.settled fun _ => hh.2
  | denied e =>
      refine (isAlive_settled ?_).conseq (fun h hh => hh.1) fun r h hh => hh
      intro liveness hok
      cases liveness with
      | dead => rfl
      | alive => simp [openDenied] at hok
      | unknown => simp [openDenied] at hok
  | found handle =>
      refine Prog.Guarantees.bind (fun identity h =>
        ∃ token, identity = HandleIdentity.of id token ∧
          TokenRead id before handle token h) ?_ ?_
      · refine Prog.Guarantees.bind _ (creationTokenResult_guarantees handle) ?_
        intro token
        exact .pure stable_tokenRead fun h hh => ⟨token, rfl, hh⟩
      · intro identity h r h' hrun hh
        obtain ⟨token, hidentity, hread⟩ := hh
        rw [hidentity] at hrun
        exact killHeld_settled handle token h r h' hrun hread

end

/-! ## Both backends -/

theorem Untouched.refl {id : ProcessId} {before : Host}
    (hid : id ∈ before.created) : Untouched id before before :=
  ⟨hid, rfl⟩

/-- Over every interleaving of exits, reaps and creations with the steps of
`kill` and `terminate`: a signal is delivered to the process of the identity
only, and `Ok` is returned only where it was or where that process has
exited. -/
theorem kill_identity_bound (id : ProcessId) (before after : Host)
    (hid : id ∈ before.created) :
    (∀ r, (Linux.kill id).run.RunsOn linux before r after →
      Settled id before (r = .ok (.ok ())) after) ∧
    (∀ r, (Linux.terminate id).run.RunsOn linux before r after →
      Settled id before (r = .ok (.ok ())) after) ∧
    (∀ r, (Windows.kill id).RunsOn windows before r after →
      Settled id before (r = .ok ()) after) := by
  have huntouched := Untouched.refl hid
  refine ⟨?_, ?_, ?_⟩
  · intro r hrun
    exact signalVerified_settled .sigkill before r after hrun huntouched
  · intro r hrun
    exact signalVerified_settled .sigterm before r after hrun huntouched
  · intro r hrun
    exact windowsKill_settled before r after hrun huntouched

/-- A host on which one process runs. -/
def hostOf (id : ProcessId) : Host where
  created := [id]
  exited := []
  reaped := []
  pinned := fun _ => none
  delivered := []
  holder_unique := by
    intro p hp q hq _ _ _
    rw [List.mem_singleton.mp hp, List.mem_singleton.mp hq]
  reaped_exited := by simp

/-- That process is opened, exits and is reaped, and its pid is given to
another one. -/
def hostRecycled : Host :=
  ((((hostOf ⟨7, 1⟩).pin 3 ⟨7, 1⟩).exit ⟨7, 1⟩).reap ⟨7, 1⟩
    (by decide)).create ⟨7, 2⟩ (by decide)

/-- The pid is recycled between the open and the check on Linux, and nothing
happens meanwhile on Windows. -/
theorem kill_identity_bound_recycled :
    Settled ⟨7, 1⟩ (hostOf ⟨7, 1⟩) True hostRecycled ∧
      Settled ⟨7, 1⟩ (hostOf ⟨7, 1⟩) True
        ((((hostOf ⟨7, 1⟩).pin 3 ⟨7, 1⟩).deliver ⟨7, 1⟩).unpin 3) := by
  let host := hostOf ⟨7, 1⟩
  let opened := host.pin 3 ⟨7, 1⟩
  constructor
  · have hopen : linux.serves host (.pidfdOpen 7) (.ok 3) opened :=
      ⟨⟨7, 1⟩, by decide, rfl, rfl⟩
    have hread : linux.serves hostRecycled (.startToken 7) (.found 2)
        hostRecycled := ⟨Or.inr (by decide), rfl⟩
    have hrun : (Linux.kill ⟨7, 1⟩).run.RunsOn linux host (.ok (.ok ()))
        hostRecycled := by
      refine .ask _ hopen ?_
      refine .move (.exit _ ⟨7, 1⟩ (by decide)) ?_
      refine .move (.reap _ ⟨7, 1⟩ (by decide)) ?_
      refine .move (.create _ ⟨7, 2⟩ (by decide) (by decide)) ?_
      refine .ask _ hread ?_
      exact .done _ _
    exact ((kill_identity_bound ⟨7, 1⟩ _ _ (by decide)).1 _ hrun).mono
      fun _ => rfl
  · have hopen : windows.serves host (.openProcess
        (processTerminate ||| processQueryLimitedInformation) 7) (.ok 3)
        opened := ⟨⟨7, 1⟩, by decide, rfl, rfl⟩
    have htimes : windows.serves opened (.getProcessTimes 3) (.ok ⟨0, 1⟩)
        opened := ⟨⟨⟨7, 1⟩, rfl, by decide⟩, rfl⟩
    have hterminate : windows.serves opened (.terminateProcess 3 1) (.ok ())
        (opened.deliver ⟨7, 1⟩) := ⟨⟨7, 1⟩, rfl, rfl⟩
    have hclose : windows.serves (opened.deliver ⟨7, 1⟩) (.closeHandle 3)
        (.ok ()) ((opened.deliver ⟨7, 1⟩).unpin 3) := rfl
    have hrun : (Windows.kill ⟨7, 1⟩).RunsOn windows host (.ok ())
        ((opened.deliver ⟨7, 1⟩).unpin 3) := by
      refine .ask _ hopen ?_
      refine .ask _ htimes ?_
      refine .ask _ hterminate ?_
      refine .ask _ hclose ?_
      exact .done _ _
    exact ((kill_identity_bound ⟨7, 1⟩ _ _ (by decide)).2.2 _ hrun).mono
      fun _ => rfl

end Cosca.Ports.IdentityKill
