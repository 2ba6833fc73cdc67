import Cosca.Ports.Errors

/-!
# Feeding and capturing a child

`pump::communicate` and its twin in `tokio/pump.rs`: input goes to the child's
stdin while its stdout and stderr are read to the end and its exit is waited
for, all at once, so that no full pipe stops the others.

The processes of the child's tree are one script of their reads, writes, closes
and exits, in the order in which these are answered; the pipes between them and
the pumps hold a bounded number of bytes.  A step of the system is one answered
call of a pump, of the tree or of the caller.  An interrupted call is repeated
and is no step, and a `flush` that fails is a `write` that does.
-/

namespace Cosca.Ports.Pump

open Cosca.Ports.Errors

abbrev Bytes := List UInt8

/-! ## The pumps -/

/-- `kind` gives `BrokenPipe`. -/
def isBrokenPipe (windows : Bool) : IoError → Bool
  | .os errno => if windows then errno == 109 || errno == 232 else errno == 32
  | .custom .. => false

/-- Where the writer stands: what is left of the input, or how it ended. -/
inductive Writer where
  | writing (rest : Bytes)
  | finished (r : Except IoError Unit)

/-- Where a reader stands: what it has read, or how it ended. -/
inductive Reader where
  | reading (buf : Bytes)
  | finished (r : Except IoError Bytes)

/-- What the writer ends with after an error: a closed read end is the end of
the input. -/
def writeFailed (windows : Bool) (e : IoError) : Except IoError Unit :=
  if isBrokenPipe windows e then .ok () else .error e

theorem writeFailed_eq_error {windows : Bool} {e e' : IoError}
    (h : writeFailed windows e = .error e') :
    isBrokenPipe windows e' = false := by
  unfold writeFailed at h
  split at h
  · exact nomatch h
  · next hbroken =>
      rw [← Except.error.inj h]
      exact Bool.eq_false_iff.mpr hbroken

theorem writeFailed_eq_ok {windows : Bool} {e : IoError}
    (h : writeFailed windows e = .ok ()) : isBrokenPipe windows e = true := by
  unfold writeFailed at h
  split at h
  · next hbroken => exact hbroken
  · exact nomatch h

/-! ## The pipe to stdin -/

/-- The pipe to the tree's stdin and its writer, which holds the write end as
long as it writes: the bytes in the pipe, whether somebody in the tree holds
the read end, what was read of it, and whether its end was. -/
structure Feed where
  windows : Bool
  input : Bytes
  writer : Writer
  buffer : Bytes
  readOpen : Bool
  consumed : Bytes
  sawEnd : Bool
  within : consumed ++ buffer <+: input
  writing : ∀ rest, writer = .writing rest →
    consumed ++ buffer ++ rest = input ∧ sawEnd = false
  /-- What no closed read end has cut off was written whole. -/
  whole : writer = .finished (.ok ()) → readOpen = true →
    consumed ++ buffer = input
  ended : sawEnd = true → writer = .finished (.ok ()) → consumed = input
  swallowed : ∀ e, writer = .finished (.error e) →
    isBrokenPipe windows e = false

/-- The pipe takes the first bytes of the rest. -/
def Feed.write (f : Feed) (rest : Bytes) (n : Nat)
    (h : f.writer = .writing rest) : Feed :=
  { f with
    writer := .writing (rest.drop n)
    buffer := f.buffer ++ rest.take n
    within := by
      rw [← (f.writing rest h).1, ← List.append_assoc]
      exact List.prefix_append_right_inj _ |>.mpr (List.take_prefix n rest)
    writing := by
      rintro rest' hrest
      obtain rfl := Writer.writing.inj hrest
      obtain ⟨hinput, hend⟩ := f.writing rest h
      refine ⟨?_, hend⟩
      rw [← List.append_assoc, List.append_assoc _ (rest.take n),
        List.take_append_drop, hinput]
    whole := nofun
    ended := nofun
    swallowed := nofun }

/-- All is written, and the write end is closed. -/
def Feed.done (f : Feed) (h : f.writer = .writing []) : Feed :=
  have hwritten := f.writing [] h
  { f with
    writer := .finished (.ok ())
    writing := nofun
    whole := fun _ _ => by rw [← hwritten.1, List.append_nil]
    ended := fun hend => absurd hend (by rw [hwritten.2]; decide)
    swallowed := nofun }

/-- A `write` has failed, for a closed read end or otherwise. -/
def Feed.fail (f : Feed) (rest : Bytes) (e : IoError)
    (h : f.writer = .writing rest)
    (hclosed : isBrokenPipe f.windows e = true → f.readOpen = false) : Feed :=
  have hwritten := f.writing rest h
  { f with
    writer := .finished (writeFailed f.windows e)
    writing := nofun
    whole := by
      intro hok hopen
      have hbroken := writeFailed_eq_ok (Writer.finished.inj hok)
      rw [hclosed hbroken] at hopen
      exact absurd hopen Bool.false_ne_true
    ended := fun hend => absurd hend (by rw [hwritten.2]; decide)
    swallowed := fun e' he => writeFailed_eq_error (Writer.finished.inj he) }

/-- The tree reads the first bytes. -/
def Feed.take (f : Feed) (n : Nat) : Feed :=
  have hsame : f.consumed ++ f.buffer.take n ++ f.buffer.drop n =
      f.consumed ++ f.buffer := by
    rw [List.append_assoc, List.take_append_drop]
  { f with
    buffer := f.buffer.drop n
    consumed := f.consumed ++ f.buffer.take n
    within := by rw [hsame]; exact f.within
    writing := by rw [hsame]; exact f.writing
    whole := by rw [hsame]; exact f.whole
    ended := by
      intro hend hok
      have hall := f.ended hend hok
      have hlength := f.within.length_le
      rw [List.length_append, hall] at hlength
      have hempty : f.buffer = [] :=
        List.length_eq_zero_iff.mp (by omega)
      rw [hempty, List.take_nil, List.append_nil, hall] }

/-- The tree reads the end. -/
def Feed.end (f : Feed) (hbuffer : f.buffer = [])
    (hwriter : ∀ rest, f.writer ≠ .writing rest) (hopen : f.readOpen = true) :
    Feed :=
  { f with
    sawEnd := true
    writing := fun rest h => absurd h (hwriter rest)
    ended := by
      intro _ hok
      have hwhole := f.whole hok hopen
      rw [hbuffer, List.append_nil] at hwhole
      exact hwhole }

/-- Nobody in the tree holds the read end any more. -/
def Feed.close (f : Feed) : Feed :=
  { f with readOpen := false, whole := fun _ h => absurd h Bool.false_ne_true }

/-! ## The pipe from stdout or stderr -/

/-- The pipe from a stream of the tree and its reader, which holds the read end
as long as it reads: the bytes in the pipe, whether somebody in the tree holds
the write end, and what was written to it. -/
structure Capture where
  reader : Reader
  buffer : Bytes
  writeOpen : Bool
  written : Bytes
  reading : ∀ buf, reader = .reading buf → buf ++ buffer = written
  whole : ∀ buf, reader = .finished (.ok buf) →
    buf = written ∧ writeOpen = false

/-- The reader reads the first bytes. -/
def Capture.take (c : Capture) (buf : Bytes) (n : Nat)
    (h : c.reader = .reading buf) : Capture :=
  { c with
    reader := .reading (buf ++ c.buffer.take n)
    buffer := c.buffer.drop n
    reading := by
      rintro buf' hbuf
      obtain rfl := Reader.reading.inj hbuf
      rw [List.append_assoc, List.take_append_drop]
      exact c.reading buf h
    whole := nofun }

/-- The reader reads the end, and closes its own. -/
def Capture.end (c : Capture) (buf : Bytes) (h : c.reader = .reading buf)
    (hbuffer : c.buffer = []) (hclosed : c.writeOpen = false) : Capture :=
  { c with
    reader := .finished (.ok buf)
    reading := nofun
    whole := by
      rintro buf' hbuf
      obtain rfl := Except.ok.inj (Reader.finished.inj hbuf)
      have hall := c.reading buf h
      rw [hbuffer, List.append_nil] at hall
      exact ⟨hall, hclosed⟩ }

/-- A `read` has failed, and the read end is closed. -/
def Capture.fail (c : Capture) (e : IoError) : Capture :=
  { c with
    reader := .finished (.error e)
    reading := nofun
    whole := nofun }

/-- The tree writes a byte. -/
def Capture.write (c : Capture) (b : UInt8) (buf : Bytes)
    (h : c.reader = .reading buf) : Capture :=
  { c with
    buffer := c.buffer ++ [b]
    written := c.written ++ [b]
    reading := by
      intro buf' hbuf
      rw [← List.append_assoc, c.reading buf' hbuf]
    whole := fun buf' hbuf => by rw [h] at hbuf; exact nomatch hbuf }

/-- Nobody in the tree holds the write end any more. -/
def Capture.close (c : Capture) : Capture :=
  { c with
    writeOpen := false
    whole := fun buf h => ⟨(c.whole buf h).1, rfl⟩ }

/-! ## The tree -/

/-- The streams that are captured. -/
inductive Stream where
  | stdout
  | stderr
  deriving DecidableEq

/-- What the processes of the tree do, one call after the other; `last` is the
exit of the last of them. -/
inductive Script where
  | read (next : Bytes → Script)
  | write (stream : Stream) (byte : UInt8) (next : Script)
  | closeStdin (next : Script)
  | close (stream : Stream) (next : Script)
  | exitRoot (status : Int) (next : Script)
  | last (status : Int)

/-- What comes after a call, of whatever answer. -/
inductive Script.After : Option Script → Option Script → Prop where
  | read (next : Bytes → Script) (chunk : Bytes) :
      After (some (next chunk)) (some (.read next))
  | write (stream : Stream) (byte : UInt8) (next : Script) :
      After (some next) (some (.write stream byte next))
  | closeStdin (next : Script) : After (some next) (some (.closeStdin next))
  | close (stream : Stream) (next : Script) :
      After (some next) (some (.close stream next))
  | exitRoot (status : Int) (next : Script) :
      After (some next) (some (.exitRoot status next))
  | last (status : Int) : After none (some (.last status))

theorem Script.acc_none : Acc After none :=
  ⟨_, fun _ h => nomatch h⟩

theorem Script.acc (script : Script) : Acc After (some script) := by
  induction script with
  | read next ih =>
      constructor
      rintro _ ⟨_, chunk⟩
      exact ih chunk
  | write stream byte next ih =>
      constructor
      rintro _ ⟨⟩
      exact ih
  | closeStdin next ih =>
      constructor
      rintro _ ⟨⟩
      exact ih
  | close stream next ih =>
      constructor
      rintro _ ⟨⟩
      exact ih
  | exitRoot status next ih =>
      constructor
      rintro _ ⟨⟩
      exact ih
  | last status =>
      constructor
      rintro _ ⟨⟩
      exact acc_none

/-- No tree goes on for ever. -/
theorem Script.after_wf : WellFounded Script.After :=
  ⟨fun script => match script with
    | none => acc_none
    | some script => acc script⟩

/-! ## The caller -/

/-- `Output`. -/
structure Output where
  status : Int
  stdout : Bytes
  stderr : Bytes

/-- Where the caller stands; `leaving` is the end of the scope, which waits for
its threads. -/
inductive Caller where
  | waiting
  | joinStdout (status : Int)
  | joinStderr (status : Int) (stdout : Bytes)
  | joinWriter (status : Int) (stdout stderr : Bytes)
  | leaving (r : Except Error Output)
  | returned (r : Except Error Output)

/-- `join_bytes`, which blocks as long as the reader reads. -/
def joinBytes : Option Capture → Option (Except Error Bytes)
  | none => some (.ok [])
  | some c =>
      match c.reader with
      | .reading _ => none
      | .finished (.ok buf) => some (.ok buf)
      | .finished (.error e) => some (.error (.io e))

/-- The join of the writer, if there is one. -/
def joinWriter : Option Feed → Option (Except Error Unit)
  | none => some (.ok ())
  | some f =>
      match f.writer with
      | .writing _ => none
      | .finished (.ok ()) => some (.ok ())
      | .finished (.error e) => some (.error (.io e))

/-- What `?` makes of a result. -/
def orLeave {α : Type} (goOn : α → Caller) : Except Error α → Caller
  | .ok a => goOn a
  | .error e => .leaving (.error e)

/-! ## The system -/

/-- The tree, how its root exited, the pipes that were configured, and the
caller. -/
structure Machine where
  tree : Option Script
  status : Option Int
  feed : Option Feed
  capture : Stream → Option Capture
  caller : Caller

/-- The call has returned. -/
def Machine.Returned (m : Machine) : Prop :=
  ∃ r, m.caller = .returned r

theorem not_returned {m : Machine} (h : m.caller = .waiting) :
    ¬ m.Returned := by
  rintro ⟨r, hr⟩
  rw [h] at hr
  exact nomatch hr

/-- The pipe of one stream is another. -/
def Machine.setCapture (m : Machine) (stream : Stream) (c : Capture) :
    Machine :=
  { m with capture := fun s => if s = stream then some c else m.capture s }

/-- The tree goes on. -/
def Machine.goOn (m : Machine) (next : Script) : Machine :=
  { m with tree := some next }

/-- How a call of the writer is answered, where the pipe holds `cap` bytes. -/
inductive Feed.Pumps (cap : Nat) (faulty : Prop) : Feed → Feed → Prop where
  | write (f : Feed) (rest : Bytes) (n : Nat) (h : f.writer = .writing rest)
      (hopen : f.readOpen = true) (hpos : 0 < n) (hn : n ≤ rest.length)
      (hcap : f.buffer.length + n ≤ cap) : Pumps cap faulty f (f.write rest n h)
  | done (f : Feed) (h : f.writer = .writing []) : Pumps cap faulty f (f.done h)
  | broken (f : Feed) (rest : Bytes) (e : IoError)
      (h : f.writer = .writing rest) (hclosed : f.readOpen = false)
      (hbroken : isBrokenPipe f.windows e = true) :
      Pumps cap faulty f (f.fail rest e h fun _ => hclosed)
  | fail (f : Feed) (rest : Bytes) (e : IoError)
      (h : f.writer = .writing rest) (hfault : faulty)
      (hother : isBrokenPipe f.windows e = false) :
      Pumps cap faulty f (f.fail rest e h fun hbroken =>
        absurd hbroken (by rw [hother]; decide))

/-- How a call of a reader is answered. -/
inductive Capture.Pumps (faulty : Prop) : Capture → Capture → Prop where
  | take (c : Capture) (buf : Bytes) (n : Nat) (h : c.reader = .reading buf)
      (hpos : 0 < n) (hn : n ≤ c.buffer.length) :
      Pumps faulty c (c.take buf n h)
  | end (c : Capture) (buf : Bytes) (h : c.reader = .reading buf)
      (hbuffer : c.buffer = []) (hclosed : c.writeOpen = false) :
      Pumps faulty c (c.end buf h hbuffer hclosed)
  | fail (c : Capture) (buf : Bytes) (e : IoError)
      (h : c.reader = .reading buf) (hfault : faulty) :
      Pumps faulty c (c.fail e)

/-- How a `read` of the tree is answered; without a pipe it may read anything,
and through a read end it has closed, nothing. -/
inductive Feed.Reads : Option Feed → Bytes → Option Feed → Prop where
  | inherited (chunk : Bytes) : Reads none chunk none
  | closed (f : Feed) (h : f.readOpen = false) : Reads (some f) [] (some f)
  | take (f : Feed) (n : Nat) (hopen : f.readOpen = true) (hpos : 0 < n)
      (hn : n ≤ f.buffer.length) :
      Reads (some f) (f.buffer.take n) (some (f.take n))
  | end (f : Feed) (hbuffer : f.buffer = [])
      (hwriter : ∀ rest, f.writer ≠ .writing rest) (hopen : f.readOpen = true) :
      Reads (some f) [] (some (f.end hbuffer hwriter hopen))

/-- How a `write` of the tree is answered; it fails where either end is
closed. -/
inductive Capture.Writes (cap : Nat) (b : UInt8) :
    Capture → Capture → Prop where
  | closed (c : Capture) (h : c.writeOpen = false) : Writes cap b c c
  | broken (c : Capture) (r : Except IoError Bytes)
      (h : c.reader = .finished r) : Writes cap b c c
  | write (c : Capture) (buf : Bytes) (h : c.reader = .reading buf)
      (hopen : c.writeOpen = true) (hcap : c.buffer.length < cap) :
      Writes cap b c (c.write b buf h)

/-- A step of the tree. -/
inductive TreeStep (cap : Nat) : Machine → Machine → Prop where
  | read (m : Machine) (next : Bytes → Script) (chunk : Bytes)
      (feed : Option Feed) (h : m.tree = some (.read next))
      (hreads : Feed.Reads m.feed chunk feed) :
      TreeStep cap m { m.goOn (next chunk) with feed := feed }
  | writeInherited (m : Machine) (stream : Stream) (b : UInt8) (next : Script)
      (h : m.tree = some (.write stream b next))
      (hnone : m.capture stream = none) : TreeStep cap m (m.goOn next)
  | write (m : Machine) (stream : Stream) (b : UInt8) (next : Script)
      (c c' : Capture) (h : m.tree = some (.write stream b next))
      (hsome : m.capture stream = some c) (hwrites : c.Writes cap b c') :
      TreeStep cap m ((m.goOn next).setCapture stream c')
  | closeStdin (m : Machine) (next : Script)
      (h : m.tree = some (.closeStdin next)) :
      TreeStep cap m { m.goOn next with feed := m.feed.map Feed.close }
  | close (m : Machine) (stream : Stream) (next : Script)
      (h : m.tree = some (.close stream next)) :
      TreeStep cap m { m.goOn next with
        capture := fun s =>
          if s = stream then (m.capture s).map Capture.close else m.capture s }
  | exitRoot (m : Machine) (status : Int) (next : Script)
      (h : m.tree = some (.exitRoot status next)) :
      TreeStep cap m { m.goOn next with status := m.status.or (some status) }
  | last (m : Machine) (status : Int) (h : m.tree = some (.last status)) :
      TreeStep cap m { m with
        tree := none
        status := m.status.or (some status)
        feed := m.feed.map Feed.close
        capture := fun s => (m.capture s).map Capture.close }

/-- A step of the caller in `child/pump.rs`, where an operation may fail if the
system is `faulty`. -/
inductive SyncStep (faulty : Prop) (m : Machine) : Caller → Prop where
  | waited (status : Int) (h : m.caller = .waiting)
      (hstatus : m.status = some status) :
      SyncStep faulty m (.joinStdout status)
  | waitFailed (e : Error) (h : m.caller = .waiting) (hfault : faulty) :
      SyncStep faulty m (.leaving (.error e))
  | joinStdout (status : Int) (r : Except Error Bytes)
      (h : m.caller = .joinStdout status)
      (hr : joinBytes (m.capture .stdout) = some r) :
      SyncStep faulty m (orLeave (.joinStderr status) r)
  | joinStderr (status : Int) (stdout : Bytes) (r : Except Error Bytes)
      (h : m.caller = .joinStderr status stdout)
      (hr : joinBytes (m.capture .stderr) = some r) :
      SyncStep faulty m (orLeave (.joinWriter status stdout) r)
  | joinWriter (status : Int) (stdout stderr : Bytes) (r : Except Error Unit)
      (h : m.caller = .joinWriter status stdout stderr)
      (hr : joinWriter m.feed = some r) :
      SyncStep faulty m
        (orLeave (fun _ => .leaving (.ok ⟨status, stdout, stderr⟩)) r)
  | leave (r : Except Error Output) (h : m.caller = .leaving r)
      (hfeed : joinWriter m.feed ≠ none)
      (hcapture : ∀ stream, joinBytes (m.capture stream) ≠ none) :
      SyncStep faulty m (.returned r)

/-- A step of the caller in `tokio/pump.rs`: `try_join!` is over with the last
result, or with the first error. -/
inductive AsyncStep (faulty : Prop) (m : Machine) : Caller → Prop where
  | resolve (status : Int) (stdout stderr : Bytes) (h : m.caller = .waiting)
      (hwrite : joinWriter m.feed = some (.ok ()))
      (hout : joinBytes (m.capture .stdout) = some (.ok stdout))
      (herr : joinBytes (m.capture .stderr) = some (.ok stderr))
      (hstatus : m.status = some status) :
      AsyncStep faulty m (.returned (.ok ⟨status, stdout, stderr⟩))
  | writeRejected (e : Error) (h : m.caller = .waiting)
      (he : joinWriter m.feed = some (.error e)) :
      AsyncStep faulty m (.returned (.error e))
  | readRejected (stream : Stream) (e : Error) (h : m.caller = .waiting)
      (he : joinBytes (m.capture stream) = some (.error e)) :
      AsyncStep faulty m (.returned (.error e))
  | waitRejected (e : Error) (h : m.caller = .waiting) (hfault : faulty) :
      AsyncStep faulty m (.returned (.error e))

/-- The two callers. -/
inductive Mode where
  | sync
  | async
  deriving DecidableEq

/-- A step of the caller. -/
def CallerStep (mode : Mode) (faulty : Prop) (m : Machine) (c : Caller) :
    Prop :=
  match mode with
  | .sync => SyncStep faulty m c
  | .async => AsyncStep faulty m c

/-- A step of the system. -/
inductive Step (mode : Mode) (cap : Nat) (faulty : Prop) :
    Machine → Machine → Prop where
  | feed (m : Machine) (f f' : Feed) (hm : ¬ m.Returned)
      (h : m.feed = some f) (hpumps : f.Pumps cap faulty f') :
      Step mode cap faulty m { m with feed := some f' }
  | capture (m : Machine) (stream : Stream) (c c' : Capture)
      (hm : ¬ m.Returned) (h : m.capture stream = some c)
      (hpumps : c.Pumps faulty c') :
      Step mode cap faulty m (m.setCapture stream c')
  | tree (m m' : Machine) (hm : ¬ m.Returned) (h : TreeStep cap m m') :
      Step mode cap faulty m m'
  | caller (m : Machine) (c : Caller) (h : CallerStep mode faulty m c) :
      Step mode cap faulty m { m with caller := c }

/-! ## The start of a call -/

/-- The pipe and the writer of a call: with no input the end is closed at
once. -/
def Feed.start (windows : Bool) (input : Option Bytes) : Feed where
  windows := windows
  input := input.getD []
  writer := .writing (input.getD [])
  buffer := []
  readOpen := true
  consumed := []
  sawEnd := false
  within := List.nil_prefix
  writing := fun _ h => ⟨(Writer.writing.inj h).symm, rfl⟩
  whole := nofun
  ended := fun h => absurd h Bool.false_ne_true
  swallowed := nofun

/-- A pipe and its reader. -/
def Capture.start : Capture where
  reader := .reading []
  buffer := []
  writeOpen := true
  written := []
  reading := fun _ h => by rw [← Reader.reading.inj h, List.nil_append]
  whole := nofun

/-- `communicate` on a child whose tree is yet to run. -/
def communicate (windows : Bool) (tree : Script) (input : Option Bytes)
    (stdin : Bool) (piped : Stream → Bool) : Machine where
  tree := some tree
  status := none
  feed := if stdin then some (.start windows input) else none
  capture := fun stream => if piped stream then some .start else none
  caller := .waiting

end Cosca.Ports.Pump
