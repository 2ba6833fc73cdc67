import Cosca.Ports.PosixElevation
import Cosca.Verified.Interact

/-!
# Delivering the password

`elevation/posix.rs`: the line `sudo -S` reads is written after the spawn to a
pipe that does not block.  A backend that never reads it is no failure, unless
a part of the line is gone already.

## Main results

* `settled_of_runs`: what the loop delivered and what it returned.
* `writePasswordBytes_allOrNothing`: nothing or the whole line, or
  `AuthFailed`.
-/

namespace Cosca.Ports.PasswordDelivery

open Cosca.Ports.Errors
open Cosca.Ports.ElevationPlan (Os)
open Cosca.Ports.PosixElevation (PendingPassword)
open Cosca.Verified.Interact

/-! ## The system -/

/-- What the delivery asks of the system, about the one pipe. -/
inductive Ask where
  /-- `write`, of the bytes that are left. -/
  | write (data : List UInt8)
  /-- `poll` for `POLLOUT`, without a timeout. -/
  | poll
  /-- `fcntl` with `F_GETFL`. -/
  | getFlags
  /-- `fcntl` with `F_SETFL`. -/
  | setFlags (flags : Int32)
  /-- The writer is dropped. -/
  | close

/-- The answers: the bytes a `write` took, which are some of those it was
given, the events that `poll` returned, and flags. -/
def Ask.Answer : Ask → Type
  | .write data => Except IoError { n : Nat // n ≤ data.length }
  | .poll => Except IoError UInt16
  | .getFlags => Except IoError Int32
  | .setFlags _ => Except IoError Unit
  | .close => Unit

/-- `ErrorKind::Interrupted`: `EINTR`. -/
def isInterrupted (e : IoError) : Bool :=
  e == .os 4

/-- `ErrorKind::WouldBlock`: `EAGAIN`. -/
def isWouldBlock (os : Os) (e : IoError) : Bool :=
  e == .os (match os with
    | .macOs => 35
    | _ => 11)

/-- `ErrorKind::BrokenPipe`: `EPIPE`. -/
def isBrokenPipe (e : IoError) : Bool :=
  e == .os 32

/-- `POLLOUT`, `POLLERR` and `POLLHUP`. -/
def pollOut : UInt16 := 0x4
def pollErr : UInt16 := 0x8
def pollHup : UInt16 := 0x10

/-- `O_NONBLOCK`. -/
def oNonblock : Os → Int32
  | .macOs => 0x4
  | _ => 0x800

/-! ## The loops -/

/-- `wait_writable`. -/
def waitWritable : Nat → Prog Ask Ask.Answer (Option (Except IoError Bool))
  | 0 => return none
  | fuel + 1 => do
      match ← query Ask.poll with
      | .error err =>
          if isInterrupted err then waitWritable fuel
          else return some (.error err)
      | .ok revents =>
          if revents &&& (pollHup ||| pollErr) ≠ 0 then
            return some (.ok false)
          else if revents &&& pollOut ≠ 0 then return some (.ok true)
          else waitWritable fuel

/-- `auth_failed`. -/
def authFailed (detail : String) : Error :=
  .elevation .authFailed detail

section

variable (io : IoError → String) (os : Os)

/-- The loop of `write_password_bytes`. -/
def writeLoop (bytes : List UInt8) :
    Nat → Nat → Prog Ask Ask.Answer (Option (Except Error Unit))
  | 0, _ => return none
  | fuel + 1, written =>
      if written < bytes.length then do
        match ← query (Ask.write (bytes.drop written)) with
        | .ok n =>
            if n.1 = 0 then
              if written = 0 then return some (.ok ())
              else return some (.error (authFailed
                ("elevation backend closed the password channel after a " ++
                  "partial write")))
            else writeLoop bytes fuel (written + n.1)
        | .error e =>
            if isInterrupted e then writeLoop bytes fuel written
            else if isWouldBlock os e then
              if written = 0 then return some (.ok ())
              else
                match ← waitWritable fuel with
                | none => return none
                | some (.ok true) => writeLoop bytes fuel written
                | some (.ok false) => return some (.error (authFailed
                    ("elevation backend closed fd0 after a partial " ++
                      "password write")))
                | some (.error pe) => return some (.error (authFailed
                    ("waiting to deliver the sudo -S password failed: " ++
                      io pe)))
            else if isBrokenPipe e then
              if written = 0 then return some (.ok ())
              else return some (.error (authFailed
                ("elevation backend closed fd0 after a partial password " ++
                  "write: " ++ io e)))
            else return some (.error (authFailed
              ("could not deliver the sudo -S password: " ++ io e)))
      else return some (.ok ())

/-- `write_password_bytes`. -/
def writePasswordBytes (fuel : Nat) (bytes : List UInt8) :
    Prog Ask Ask.Answer (Option (Except Error Unit)) :=
  writeLoop io os bytes fuel 0

/-- `password_line`. -/
def passwordLine (secret : List UInt8) : List UInt8 :=
  secret ++ [10]

/-- `set_writer_nonblocking`: a failure is only logged. -/
def setWriterNonblocking : Prog Ask Ask.Answer Unit := do
  match ← query Ask.getFlags with
  | .error _ => return ()
  | .ok flags => do
      let _ ← query (Ask.setFlags (flags ||| oNonblock os))
      return ()

/-- `write_after_spawn`. -/
def writeAfterSpawn (password : PendingPassword)
    (fuel : Nat) : Prog Ask Ask.Answer (Option (Except Error Unit)) := do
  setWriterNonblocking os
  let result ← writePasswordBytes io os fuel (passwordLine password.secret)
  let _ ← query Ask.close
  return result

end

/-! ## What was delivered -/

/-- The bytes that the pipe took. -/
def delivered : List (Event Ask.Answer) → List UInt8
  | [] => []
  | ⟨.write data, .ok n⟩ :: events => data.take n.1 ++ delivered events
  | _ :: events => delivered events

theorem delivered_append (events more : List (Event Ask.Answer)) :
    delivered (events ++ more) = delivered events ++ delivered more := by
  induction events with
  | nil => rfl
  | cons e events ih =>
      obtain ⟨q, a⟩ := e
      cases q with
      | write data =>
          cases a with
          | ok n =>
              show data.take n.1 ++ delivered (events ++ more) = _
              rw [ih, ← List.append_assoc]
              rfl
          | error e => exact ih
      | poll => exact ih
      | getFlags => exact ih
      | setFlags flags => exact ih
      | close => exact ih

/-- Waiting delivers nothing. -/
theorem waitWritable_delivered {fuel : Nat} :
    ∀ {events : List (Event Ask.Answer)} {r : Option (Except IoError Bool)},
      (waitWritable fuel).Runs events r → delivered events = [] := by
  induction fuel with
  | zero =>
      intro events r h
      obtain ⟨rfl, rfl⟩ := Prog.Runs.of_pure h
      rfl
  | succ fuel ih =>
      intro events r h
      obtain ⟨got, rest, rfl, hrest⟩ := Prog.Runs.of_query_bind h
      show delivered rest = []
      cases got with
      | error err =>
          dsimp only at hrest
          by_cases hagain : isInterrupted err = true
          · rw [if_pos hagain] at hrest
            exact ih hrest
          · rw [if_neg hagain] at hrest
            obtain ⟨rfl, rfl⟩ := Prog.Runs.of_pure hrest
            rfl
      | ok revents =>
          dsimp only at hrest
          by_cases hgone : revents &&& (pollHup ||| pollErr) ≠ 0
          · rw [if_pos hgone] at hrest
            obtain ⟨rfl, rfl⟩ := Prog.Runs.of_pure hrest
            rfl
          · rw [if_neg hgone] at hrest
            by_cases hout : revents &&& pollOut ≠ 0
            · rw [if_pos hout] at hrest
              obtain ⟨rfl, rfl⟩ := Prog.Runs.of_pure hrest
              rfl
            · rw [if_neg hout] at hrest
              exact ih hrest

/-! ## How the loop ends -/

/-- What the loop may have delivered of the bytes behind the first `written`,
and returned: with an `Ok` nothing of the line or all that was left, with a
failure not all of it. -/
structure Settled (bytes : List UInt8) (written : Nat) (gone : List UInt8)
    (r : Option (Except Error Unit)) : Prop where
  inOrder : gone <+: bytes.drop written
  accepted : r = some (.ok ()) →
    (written = 0 ∧ gone = []) ∨ gone = bytes.drop written
  failed : ∀ e, r = some (.error e) →
    (∃ detail, e = authFailed detail) ∧ gone ≠ bytes.drop written

section

variable {bytes : List UInt8} {written : Nat}

theorem Settled.unfinished : Settled bytes written [] none where
  inOrder := List.nil_prefix
  accepted := nofun
  failed := nofun

theorem Settled.unread (h : written = 0) :
    Settled bytes written [] (some (.ok ())) where
  inOrder := List.nil_prefix
  accepted := fun _ => Or.inl ⟨h, rfl⟩
  failed := nofun

theorem Settled.whole (h : ¬ written < bytes.length) :
    Settled bytes written [] (some (.ok ())) where
  inOrder := List.nil_prefix
  accepted := fun _ => Or.inr (List.drop_of_length_le (by omega)).symm
  failed := nofun

theorem Settled.authFailed (h : written < bytes.length) (detail : String) :
    Settled bytes written [] (some (.error (authFailed detail))) where
  inOrder := List.nil_prefix
  accepted := nofun
  failed := by
    intro e he
    cases he
    refine ⟨⟨detail, rfl⟩, ?_⟩
    intro hnone
    have hlen := congrArg List.length hnone
    rw [List.length_drop] at hlen
    have hzero : ([] : List UInt8).length = 0 := rfl
    omega

/-- A write that took some bytes, in front of the others. -/
theorem Settled.cons {n : Nat} {gone : List UInt8}
    {r : Option (Except Error Unit)} (hn : n ≠ 0)
    (h : Settled bytes (written + n) gone r) :
    Settled bytes written ((bytes.drop written).take n ++ gone) r := by
  have hsplit : bytes.drop written =
      (bytes.drop written).take n ++ bytes.drop (written + n) := by
    rw [← List.drop_drop, List.take_append_drop]
  constructor
  · obtain ⟨rest, hrest⟩ := h.inOrder
    refine ⟨rest, ?_⟩
    rw [List.append_assoc, hrest, ← hsplit]
  · intro hr
    rcases h.accepted hr with ⟨hzero, _⟩ | hall
    · omega
    · rw [hall, ← hsplit]
      exact Or.inr rfl
  · intro e he
    obtain ⟨hkind, hpart⟩ := h.failed e he
    refine ⟨hkind, ?_⟩
    intro hwhole
    exact hpart (List.append_cancel_left (hwhole.trans hsplit))

/-- Where the reader is gone, the count decides. -/
theorem Settled.closed {detail : String} {events : List (Event Ask.Answer)}
    {r : Option (Except Error Unit)} (hmore : written < bytes.length)
    (h : Prog.Runs (if written = 0 then return some (.ok ())
      else return some (.error (PasswordDelivery.authFailed detail)))
        events r) :
    Settled bytes written (delivered events) r := by
  by_cases hzero : written = 0
  · rw [if_pos hzero] at h
    obtain ⟨rfl, rfl⟩ := Prog.Runs.of_pure h
    exact .unread hzero
  · rw [if_neg hzero] at h
    obtain ⟨rfl, rfl⟩ := Prog.Runs.of_pure h
    exact .authFailed hmore detail

end

section

variable {io : IoError → String} {os : Os} {bytes : List UInt8}

/-- By induction on the fuel: a round delivers what its one write took. -/
theorem settled_of_runs {fuel : Nat} :
    ∀ {written : Nat} {events : List (Event Ask.Answer)}
      {r : Option (Except Error Unit)},
      (writeLoop io os bytes fuel written).Runs events r →
        Settled bytes written (delivered events) r := by
  induction fuel with
  | zero =>
      intro written events r h
      obtain ⟨rfl, rfl⟩ := Prog.Runs.of_pure h
      exact .unfinished
  | succ fuel ih =>
      intro written events r h
      unfold writeLoop at h
      by_cases hmore : written < bytes.length
      · rw [if_pos hmore] at h
        obtain ⟨got, rest, rfl, hrest⟩ := Prog.Runs.of_query_bind h
        cases got with
        | ok n =>
            show Settled bytes written
              ((bytes.drop written).take n.1 ++ delivered rest) r
            dsimp only at hrest
            by_cases hnone : n.1 = 0
            · rw [if_pos hnone] at hrest
              rw [hnone, List.take_zero, List.nil_append]
              exact .closed hmore hrest
            · rw [if_neg hnone] at hrest
              exact (ih hrest).cons hnone
        | error e =>
            show Settled bytes written (delivered rest) r
            dsimp only at hrest
            by_cases hagain : isInterrupted e = true
            · rw [if_pos hagain] at hrest
              exact ih hrest
            · rw [if_neg hagain] at hrest
              by_cases hblock : isWouldBlock os e = true
              · rw [if_pos hblock] at hrest
                by_cases hzero : written = 0
                · rw [if_pos hzero] at hrest
                  obtain ⟨rfl, rfl⟩ := Prog.Runs.of_pure hrest
                  exact .unread hzero
                · rw [if_neg hzero] at hrest
                  obtain ⟨waited, first, second, hwait, hrest, rfl⟩ :=
                    Prog.Runs.of_bind hrest
                  rw [delivered_append, waitWritable_delivered hwait,
                    List.nil_append]
                  match waited with
                  | none =>
                      obtain ⟨rfl, rfl⟩ := Prog.Runs.of_pure hrest
                      exact .unfinished
                  | some (.ok true) => exact ih hrest
                  | some (.ok false) =>
                      obtain ⟨rfl, rfl⟩ := Prog.Runs.of_pure hrest
                      exact .authFailed hmore _
                  | some (.error pe) =>
                      obtain ⟨rfl, rfl⟩ := Prog.Runs.of_pure hrest
                      exact .authFailed hmore _
              · rw [if_neg hblock] at hrest
                by_cases hbroken : isBrokenPipe e = true
                · rw [if_pos hbroken] at hrest
                  exact .closed hmore hrest
                · rw [if_neg hbroken] at hrest
                  obtain ⟨rfl, rfl⟩ := Prog.Runs.of_pure hrest
                  exact .authFailed hmore _
      · rw [if_neg hmore] at h
        obtain ⟨rfl, rfl⟩ := Prog.Runs.of_pure h
        exact .whole hmore

end

/-! ## All or nothing -/

/-- The bytes that are gone are the first of the line; an `Ok` leaves nothing
of it in between, and where it is cut the result is `AuthFailed`. -/
structure AllOrNothing (line gone : List UInt8) (r : Except Error Unit) :
    Prop where
  inOrder : gone <+: line
  accepted : r = .ok () → gone = [] ∨ gone = line
  cut : gone ≠ [] → gone ≠ line → ∃ detail, r = .error (authFailed detail)
  failed : ∀ e, r = .error e → gone ≠ line

theorem Settled.allOrNothing {line gone : List UInt8} {r : Except Error Unit}
    (h : Settled line 0 gone (some r)) : AllOrNothing line gone r := by
  have haccepted : r = .ok () → gone = [] ∨ gone = line := by
    intro hr
    rcases h.accepted (congrArg some hr) with ⟨_, hnone⟩ | hall
    · exact Or.inl hnone
    · exact Or.inr hall
  refine ⟨h.inOrder, haccepted, ?_, ?_⟩
  · intro hsome hpart
    cases r with
    | ok done =>
        rcases haccepted rfl with hnone | hall
        · exact absurd hnone hsome
        · exact absurd hall hpart
    | error e =>
        obtain ⟨detail, he⟩ := (h.failed e rfl).1
        exact ⟨detail, congrArg Except.error he⟩
  · intro e he
    exact (h.failed e (congrArg some he)).2

theorem setWriterNonblocking_delivered {os : Os}
    {events : List (Event Ask.Answer)} {r : Unit}
    (h : (setWriterNonblocking os).Runs events r) : delivered events = [] := by
  obtain ⟨got, rest, rfl, hrest⟩ := Prog.Runs.of_query_bind h
  cases got with
  | error e =>
      obtain ⟨rfl, _⟩ := Prog.Runs.of_pure hrest
      rfl
  | ok flags =>
      obtain ⟨set, rest, rfl, hdone⟩ := Prog.Runs.of_query_bind hrest
      obtain ⟨rfl, _⟩ := Prog.Runs.of_pure hdone
      rfl

/-- Whatever the writer and the poll answer, the pipe takes a first part of the
line, which is nothing or the whole where the delivery succeeds; behind a part
of it there is nothing but `AuthFailed`.  The writer is dropped last. -/
theorem writePasswordBytes_allOrNothing (io : IoError → String) (os : Os) :
    (∀ (line : List UInt8) (fuel : Nat) (events : List (Event Ask.Answer))
        (r : Except Error Unit),
      (writePasswordBytes io os fuel line).Runs events (some r) →
        AllOrNothing line (delivered events) r) ∧
    (∀ (password : PendingPassword) (fuel : Nat)
        (events : List (Event Ask.Answer)) (r : Except Error Unit),
      (writeAfterSpawn io os password fuel).Runs events (some r) →
        AllOrNothing (passwordLine password.secret) (delivered events) r ∧
          ∃ before closed, events = before ++ [⟨.close, closed⟩]) := by
  constructor
  · intro line fuel events r h
    exact (settled_of_runs h).allOrNothing
  · intro password fuel events r h
    obtain ⟨_, first, rest, hset, hrest, rfl⟩ := Prog.Runs.of_bind h
    obtain ⟨result, second, rest, hwrite, hclose, rfl⟩ :=
      Prog.Runs.of_bind hrest
    obtain ⟨closed, rest, rfl, hdone⟩ := Prog.Runs.of_query_bind hclose
    obtain ⟨rfl, rfl⟩ := Prog.Runs.of_pure hdone
    have hsame : delivered (first ++ (second ++ [⟨.close, closed⟩])) =
        delivered second := by
      rw [delivered_append, delivered_append,
        setWriterNonblocking_delivered hset]
      exact List.append_nil _
    rw [hsame]
    exact ⟨(settled_of_runs hwrite).allOrNothing, first ++ second, closed,
      (List.append_assoc ..).symm⟩

/-- A line of three bytes that is taken byte by byte, with a pipe that fills up
and an interrupt on the way. -/
def inPieces : List (Event Ask.Answer) :=
  [⟨.write [104, 105, 10], .ok ⟨1, by decide⟩⟩,
    ⟨.write [105, 10], .error (.os 11)⟩, ⟨.poll, .ok pollOut⟩,
    ⟨.write [105, 10], .error (.os 4)⟩,
    ⟨.write [105, 10], .ok ⟨2, by decide⟩⟩]

theorem writePasswordBytes_allOrNothing_pieces :
    AllOrNothing [104, 105, 10] (delivered inPieces) (.ok ()) ∧
      delivered inPieces = [104, 105, 10] := by
  have hruns : (writePasswordBytes (fun _ => "") .unix 5
      [104, 105, 10]).Runs inPieces (some (.ok ())) :=
    .ask _ _ _ (.ask _ _ _ (.ask _ _ _ (.ask _ _ _ (.ask _ _ _ (.done _)))))
  exact ⟨(writePasswordBytes_allOrNothing (fun _ => "") .unix).1
    [104, 105, 10] 5 inPieces _ hruns, rfl⟩

end Cosca.Ports.PasswordDelivery
