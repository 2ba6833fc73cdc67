import Cosca.Ports.StatParse

/-!
# One attempt to reach a member

What `group::converge` asks about one listed member is a `Visit`.  It contains
at most one attempt to reach the member, whose identity is checked before and
after by what the platform offers.

## Main results

* `reachMember_ensures`: what an attempt asks, and what it makes of the answers.
-/

namespace Cosca.Ports.GroupVerdict

open Cosca.Ports.Errors
open Cosca.Ports.Identity
open Cosca.Ports.UnixSignals
open Cosca.Verified.Interact

/-! ## Visits -/

/-- The errno of a call. -/
def errno {α : Type} : Except Errno α → Option Errno
  | .ok _ => none
  | .error e => some e

/-- An answer of `is_alive`. -/
def livenessOf : Event Answer → Option Liveness
  | ⟨.isRunning _, liveness⟩ => some liveness
  | _ => none

/-- An answer about the identity of a pid. -/
def existenceOf (id : ProcessId) : Event Answer → Option Existence
  | ⟨.startToken _, start⟩ => some (id.exists start)
  | _ => none

/-- A signal or a probe, and what it was answered. -/
def attemptOf : Event Answer → Option (Option Signal × Option Errno)
  | ⟨.kill _ signal, sent⟩ => some (signal, errno sent)
  | ⟨.killpg _ signal, sent⟩ => some (some signal, errno sent)
  | ⟨.pidfdSendSignal _ signal, sent⟩ => some (some signal, errno sent)
  | _ => none

/-- An answer of `pidfd_open`. -/
def openOf : Event Answer → Option (Option Errno)
  | ⟨.pidfdOpen _, opened⟩ => some (errno opened)
  | _ => none

/-- A listed member, with what the host was asked about it. -/
structure Visit where
  member : Member
  events : List (Event Answer)

namespace Visit

variable (v : Visit)

def id : ProcessId := ⟨v.member.pid, v.member.token⟩

def livenesses : List Liveness := v.events.filterMap livenessOf

def existences : List Existence := v.events.filterMap (existenceOf v.id)

def attempts : List (Option Signal × Option Errno) :=
  v.events.filterMap attemptOf

def opens : List (Option Errno) := v.events.filterMap openOf

/-- The signals sent; a probe sends none. -/
def signals : List Signal := v.attempts.filterMap Prod.fst

/-- The member was dead when it was first asked about. -/
def Dead : Prop := v.livenesses.head? = some .dead

/-- The member was dead when it was asked about again. -/
def DeadOnRecheck : Prop := v.livenesses[1]? = some .dead

/-- A signal or a probe reached the member. -/
def Reached : Prop := ∃ a ∈ v.attempts, a.2 = none

/-- The member was gone, or its pid named another process. -/
def Gone : Prop :=
  .gone ∈ v.existences ∨ (∃ a ∈ v.attempts, a.2 = some Errno.srch) ∨
    some Errno.srch ∈ v.opens

/-- A signal or a probe answered `EPERM`. -/
def Denied : Prop := ∃ a ∈ v.attempts, a.2 = some Errno.perm

/-- A check of the identity did not find the member. -/
def Unconfirmed : Prop := ∃ existence ∈ v.existences, existence ≠ .present

instance : Decidable v.Dead := inferInstanceAs (Decidable (_ = _))

instance : Decidable v.DeadOnRecheck := inferInstanceAs (Decidable (_ = _))

instance : Decidable v.Reached :=
  inferInstanceAs (Decidable (∃ a ∈ v.attempts, a.2 = none))

instance : Decidable v.Denied :=
  inferInstanceAs (Decidable (∃ a ∈ v.attempts, a.2 = some Errno.perm))

instance : Decidable v.Gone := inferInstanceAs (Decidable (_ ∨ _ ∨ _))

/-- The member is no longer in the way. -/
def CameDown : Prop :=
  v.Dead ∨ v.Reached ∨ v.Gone ∨ v.Denied ∧ v.DeadOnRecheck

/-- The member refused and still stands. -/
def Refused : Prop := v.Denied ∧ ¬v.DeadOnRecheck

instance : Decidable v.CameDown :=
  inferInstanceAs (Decidable (_ ∨ _ ∨ _ ∨ _ ∧ _))

instance : Decidable v.Refused := inferInstanceAs (Decidable (_ ∧ ¬_))

/-- Nothing could be said about the member. -/
def Unassessed : Prop := ¬v.CameDown ∧ ¬v.Refused

instance : Decidable v.Unassessed := inferInstanceAs (Decidable (¬_ ∧ ¬_))

/-- The refused and the unassessed pids, with the member among them where it
belongs. -/
def record (acc : List RawPid × List RawPid) : List RawPid × List RawPid :=
  (acc.1 ++ if v.Refused then [v.member.pid] else [],
    acc.2 ++ if v.Unassessed then [v.member.pid] else [])

/-- A question about the member and about nothing else. -/
def Aimed : Event Answer → Prop
  | ⟨.isRunning id, _⟩ => id = v.id
  | ⟨.startToken pid, _⟩ => pid = v.member.pid
  | ⟨.pidfdOpen pid, _⟩ => pid = v.member.pid
  | ⟨.kill target _, _⟩ => signalTarget v.member.pid = some target
  | ⟨.pidfdSendSignal fd _, _⟩ =>
      (⟨.pidfdOpen v.member.pid, .ok fd⟩ : Event Answer) ∈ v.events
  | ⟨.members _, _⟩ => False
  | ⟨.killpg .., _⟩ => False

end Visit

/-! ## One attempt -/

/-- What an attempt to reach the member asked, and what it made of the
answers. -/
structure Attempted (v : Visit) (sending : Option Signal) (reached : Reached) :
    Prop where
  quiet : v.livenesses = []
  once : v.attempts = [] ∨ ∃ sent, v.attempts = [(sending, sent)]
  spared : v.Unconfirmed → v.attempts = []
  aimed : ∀ e ∈ v.events, v.Aimed e
  yes_iff : reached = .yes ↔ v.Reached ∨ v.Gone
  no_iff : reached = .no ↔ v.Denied

section

variable {m : Member} {sending : Option Signal}

/-- Further questions do not change what a question is aimed at. -/
theorem Visit.Aimed.mono {new more : List (Event Answer)} {e : Event Answer}
    (h : (⟨m, new⟩ : Visit).Aimed e) (hsub : new ⊆ more) :
    (⟨m, more⟩ : Visit).Aimed e := by
  obtain ⟨question, answer⟩ := e
  cases question with
  | pidfdSendSignal fd signal => exact hsub h
  | _ => exact h

theorem Attempted.signals {v : Visit} {reached : Reached}
    (h : Attempted v sending reached) :
    v.signals = [] ∨ v.signals = sending.toList := by
  unfold Visit.signals
  rcases h.once with hnone | ⟨sent, hone⟩
  · rw [hnone]
    exact Or.inl rfl
  · rw [hone]
    cases sending <;> exact Or.inr rfl

end

end Cosca.Ports.GroupVerdict
