import Cosca.Ports.Pump
import Cosca.Verified.Progress

/-!
# What a call returns

What the caller has joined does not change any more, so that a result tells what
went through each pipe when it was put together.

## Main results

* `communicate_output`: what a call returns is what the tree wrote and how the
  root exited.
-/

namespace Cosca.Ports.Pump

open Cosca.Ports.Errors
open Cosca.Verified.Progress
open Relation (ReflTransGen)

/-- What is over in a machine is over in the same way in another. -/
structure Machine.Stays (m m' : Machine) : Prop where
  status : ∀ status, m.status = some status → m'.status = some status
  stdin : ∀ r, joinWriter m.feed = some r → joinWriter m'.feed = some r
  streams : ∀ stream r, joinBytes (m.capture stream) = some r →
    joinBytes (m'.capture stream) = some r

theorem joinWriter_congr {feed feed' : Option Feed}
    (h : feed'.map (·.writer) = feed.map (·.writer)) :
    joinWriter feed' = joinWriter feed := by
  cases feed with
  | none =>
      rw [Option.map_eq_none_iff.mp h]
  | some f =>
      obtain ⟨f', rfl, hw⟩ := Option.map_eq_some_iff.mp h
      simp only [joinWriter, hw]

theorem joinBytes_congr {capture capture' : Option Capture}
    (h : capture'.map (·.reader) = capture.map (·.reader)) :
    joinBytes capture' = joinBytes capture := by
  cases capture with
  | none =>
      rw [Option.map_eq_none_iff.mp h]
  | some c =>
      obtain ⟨c', rfl, hr⟩ := Option.map_eq_some_iff.mp h
      simp only [joinBytes, hr]

theorem Feed.Pumps.not_joined {cap : Nat} {faulty : Prop} {f f' : Feed}
    (h : f.Pumps cap faulty f') : joinWriter (some f) = none := by
  cases h <;> simp only [joinWriter, *]

theorem Capture.Pumps.not_joined {faulty : Prop} {c c' : Capture}
    (h : c.Pumps faulty c') : joinBytes (some c) = none := by
  cases h <;> simp only [joinBytes, *]

theorem Feed.Reads.writer {feed feed' : Option Feed} {chunk : Bytes}
    (h : Feed.Reads feed chunk feed') :
    feed'.map (·.writer) = feed.map (·.writer) := by
  cases h <;> rfl

theorem Capture.Writes.reader {cap : Nat} {b : UInt8} {c c' : Capture}
    (h : c.Writes cap b c') : c'.reader = c.reader := by
  cases h <;> rfl

theorem Feed.Reads.input {feed feed' : Option Feed} {chunk : Bytes}
    (h : Feed.Reads feed chunk feed') :
    feed'.map (·.input) = feed.map (·.input) := by
  cases h <;> rfl

theorem Feed.Pumps.input {cap : Nat} {faulty : Prop} {f f' : Feed}
    (h : f.Pumps cap faulty f') : f'.input = f.input := by
  cases h <;> rfl

/-- What the tree leaves alone: the ends of the pumps, and the caller. -/
structure Machine.Apart (m m' : Machine) : Prop where
  writer : m'.feed.map (·.writer) = m.feed.map (·.writer)
  reader : ∀ stream,
    (m'.capture stream).map (·.reader) = (m.capture stream).map (·.reader)
  caller : m'.caller = m.caller
  input : m'.feed.map (·.input) = m.feed.map (·.input)
  status : ∀ status, m.status = some status → m'.status = some status

theorem status_or {status : Option Int} {new old : Int}
    (h : status = some old) : status.or (some new) = some old := by
  rw [h, Option.some_or]

theorem Machine.setCapture_reader {m : Machine} {stream : Stream}
    {c c' : Capture} (hc : m.capture stream = some c)
    (hr : c'.reader = c.reader) (s : Stream) :
    ((m.setCapture stream c').capture s).map (·.reader) =
      (m.capture s).map (·.reader) := by
  simp only [Machine.setCapture]
  split
  · next heq => rw [heq, hc, Option.map_some, Option.map_some, hr]
  · rfl

theorem TreeStep.apart {cap : Nat} {m m' : Machine} (h : TreeStep cap m m') :
    m.Apart m' := by
  cases h with
  | read next chunk feed htree hreads =>
      exact ⟨hreads.writer, fun _ => rfl, rfl, hreads.input, fun _ h => h⟩
  | writeInherited stream b next htree hnone =>
      exact ⟨rfl, fun _ => rfl, rfl, rfl, fun _ h => h⟩
  | write stream b next c c' htree hsome hwrites =>
      exact ⟨rfl, Machine.setCapture_reader (m := m.goOn next) hsome
        hwrites.reader, rfl, rfl, fun _ h => h⟩
  | closeStdin next htree =>
      refine ⟨?_, fun _ => rfl, rfl, ?_, fun _ h => h⟩
      · cases m.feed <;> rfl
      · cases m.feed <;> rfl
  | close stream next htree =>
      refine ⟨rfl, fun s => ?_, rfl, rfl, fun _ h => h⟩
      dsimp only [Machine.goOn]
      split
      · cases m.capture s <;> rfl
      · rfl
  | exitRoot status next htree =>
      exact ⟨rfl, fun _ => rfl, rfl, rfl, fun _ => status_or⟩
  | last status htree =>
      refine ⟨?_, fun s => ?_, rfl, ?_, fun _ => status_or⟩
      · cases m.feed <;> rfl
      · dsimp only
        cases m.capture s <;> rfl
      · cases m.feed <;> rfl

theorem Machine.Apart.stays {m m' : Machine} (h : m.Apart m') : m.Stays m' where
  status := h.status
  stdin := fun r hr => by rw [joinWriter_congr h.writer, hr]
  streams := fun stream r hr => by rw [joinBytes_congr (h.reader stream), hr]

theorem Machine.Stays.feed {cap : Nat} {faulty : Prop} {m : Machine}
    {f f' : Feed} (hfeed : m.feed = some f) (h : f.Pumps cap faulty f') :
    m.Stays { m with feed := some f' } where
  status := fun _ hs => hs
  stdin := fun r hr => by
    rw [hfeed, h.not_joined] at hr
    exact nomatch hr
  streams := fun _ _ hr => hr

theorem Machine.Stays.capture {faulty : Prop} {m : Machine} {stream : Stream}
    {c c' : Capture} (hc : m.capture stream = some c)
    (h : c.Pumps faulty c') : m.Stays (m.setCapture stream c') where
  status := fun _ hs => hs
  stdin := fun _ hr => hr
  streams := fun s r hr => by
    simp only [Machine.setCapture]
    split
    · next heq =>
        rw [heq, hc, h.not_joined] at hr
        exact nomatch hr
    · exact hr

/-- What a call has come to know of its child. -/
structure Machine.Tells (m : Machine) (out : Output) : Prop where
  status : m.status = some out.status
  stdout : joinBytes (m.capture .stdout) = some (.ok out.stdout)
  stderr : joinBytes (m.capture .stderr) = some (.ok out.stderr)
  stdin : joinWriter m.feed = some (.ok ())

/-- The same, phase by phase. -/
inductive Machine.Told (faulty : Prop) (m : Machine) : Caller → Prop where
  | waiting : Told faulty m .waiting
  | joinStdout (status : Int) (hstatus : m.status = some status) :
      Told faulty m (.joinStdout status)
  | joinStderr (status : Int) (stdout : Bytes)
      (hstatus : m.status = some status)
      (hout : joinBytes (m.capture .stdout) = some (.ok stdout)) :
      Told faulty m (.joinStderr status stdout)
  | joinWriter (status : Int) (stdout stderr : Bytes)
      (hstatus : m.status = some status)
      (hout : joinBytes (m.capture .stdout) = some (.ok stdout))
      (herr : joinBytes (m.capture .stderr) = some (.ok stderr)) :
      Told faulty m (.joinWriter status stdout stderr)
  | leaving (out : Output) (h : m.Tells out) :
      Told faulty m (.leaving (.ok out))
  | returned (out : Output) (h : m.Tells out) :
      Told faulty m (.returned (.ok out))
  | leavingError (e : Error) (h : faulty) : Told faulty m (.leaving (.error e))
  | returnedError (e : Error) (h : faulty) :
      Told faulty m (.returned (.error e))

theorem Machine.Tells.stays {m m' : Machine} {out : Output} (h : m.Tells out)
    (hstays : m.Stays m') : m'.Tells out where
  status := hstays.status _ h.status
  stdout := hstays.streams _ _ h.stdout
  stderr := hstays.streams _ _ h.stderr
  stdin := hstays.stdin _ h.stdin

/-- What the caller knows stays true. -/
theorem Machine.Told.stays {faulty : Prop} {m m' : Machine} {c : Caller}
    (h : m.Told faulty c) (hstays : m.Stays m') : m'.Told faulty c := by
  cases h with
  | waiting => exact .waiting
  | joinStdout status hstatus =>
      exact .joinStdout status (hstays.status _ hstatus)
  | joinStderr status stdout hstatus hout =>
      exact .joinStderr status stdout (hstays.status _ hstatus)
        (hstays.streams _ _ hout)
  | joinWriter status stdout stderr hstatus hout herr =>
      exact .joinWriter status stdout stderr (hstays.status _ hstatus)
        (hstays.streams _ _ hout) (hstays.streams _ _ herr)
  | leaving out h => exact .leaving out (h.stays hstays)
  | returned out h => exact .returned out (h.stays hstays)
  | leavingError e h => exact .leavingError e h
  | returnedError e h => exact .returnedError e h

/-- A call with this input and these pipes, in which only a fault is an
error. -/
structure Machine.Serves (faulty : Prop) (input : Option Bytes)
    (piped : Stream → Bool) (m : Machine) : Prop where
  told : m.Told faulty m.caller
  input : m.feed.map (·.input) = input
  piped : ∀ stream, (m.capture stream).isSome = piped stream
  writer : ∀ e, joinWriter m.feed = some (.error e) → faulty
  reader : ∀ stream e, joinBytes (m.capture stream) = some (.error e) → faulty

theorem communicate_serves (faulty : Prop) (windows : Bool) (tree : Script)
    (input : Option Bytes) (stdin : Bool) (piped : Stream → Bool) :
    (communicate windows tree input stdin piped).Serves faulty
      (if stdin then some (input.getD []) else none) piped where
  told := .waiting
  input := by cases stdin <;> rfl
  piped := fun stream => by
    simp only [communicate]
    cases piped stream <;> rfl
  writer := by cases stdin <;> exact nofun
  reader := fun stream => by
    simp only [communicate]
    cases piped stream <;> exact nofun

theorem Feed.Pumps.error {cap : Nat} {faulty : Prop} {f f' : Feed}
    (h : f.Pumps cap faulty f') (e : Error)
    (he : joinWriter (some f') = some (.error e)) : faulty := by
  cases h with
  | write rest n hw hopen hpos hn hcap => exact nomatch he
  | done hw => exact nomatch he
  | broken rest e' hw hclosed hbroken =>
      simp only [joinWriter, Feed.fail, writeFailed, hbroken, if_true] at he
      exact nomatch he
  | fail rest e' hw hfault hother => exact hfault

theorem Capture.Pumps.error {faulty : Prop} {c c' : Capture}
    (h : c.Pumps faulty c') (e : Error)
    (he : joinBytes (some c') = some (.error e)) : faulty := by
  cases h with
  | take buf n hr hpos hn => exact nomatch he
  | «end» buf hr hbuffer hclosed => exact nomatch he
  | fail buf e' hr hfault => exact hfault

theorem Machine.Told.orLeave {α : Type} {faulty : Prop} {m : Machine}
    {goOn : α → Caller} {r : Except Error α}
    (hok : ∀ a, r = .ok a → m.Told faulty (goOn a))
    (herror : ∀ e, r = .error e → faulty) :
    m.Told faulty (orLeave goOn r) := by
  cases r with
  | ok a => exact hok a rfl
  | error e => exact .leavingError e (herror e rfl)

/-- What the caller learns in a step is so. -/
theorem CallerStep.told {mode : Mode} {faulty : Prop} {input : Option Bytes}
    {piped : Stream → Bool} {m : Machine} {c : Caller}
    (hm : m.Serves faulty input piped) (h : CallerStep mode faulty m c) :
    m.Told faulty c := by
  have htold := hm.told
  cases mode with
  | sync =>
      obtain ⟨status, hc, hstatus⟩ | ⟨e, hc, hfault⟩ | ⟨status, r, hc, hr⟩ |
        ⟨status, stdout, r, hc, hr⟩ | ⟨status, stdout, stderr, r, hc, hr⟩ |
        ⟨r, hc, hfeed, hcapture⟩ := h
      all_goals rw [hc] at htold
      · exact .joinStdout status hstatus
      · exact .leavingError e hfault
      · refine .orLeave (fun stdout hok => ?_) fun e he => ?_
        · cases htold with | joinStdout _ hstatus =>
          rw [hok] at hr
          exact .joinStderr status stdout hstatus hr
        · rw [he] at hr
          exact hm.reader .stdout e hr
      · refine .orLeave (fun stderr hok => ?_) fun e he => ?_
        · cases htold with | joinStderr _ _ hstatus hout =>
          rw [hok] at hr
          exact .joinWriter status stdout stderr hstatus hout hr
        · rw [he] at hr
          exact hm.reader .stderr e hr
      · refine .orLeave (fun u hok => ?_) fun e he => ?_
        · cases htold with | joinWriter _ _ _ hstatus hout herr =>
          rw [hok] at hr
          exact .leaving _ ⟨hstatus, hout, herr, hr⟩
        · rw [he] at hr
          exact hm.writer e hr
      · cases htold with
        | leaving out h => exact .returned out h
        | leavingError e h => exact .returnedError e h
  | async =>
      cases h with
      | resolve status stdout stderr hc hwrite hout herr hstatus =>
          exact .returned _ ⟨hstatus, hout, herr, hwrite⟩
      | writeRejected e hc he => exact .returnedError e (hm.writer e he)
      | readRejected stream e hc he =>
          exact .returnedError e (hm.reader stream e he)
      | waitRejected e hc hfault => exact .returnedError e hfault

theorem TreeStep.serves {cap : Nat} {faulty : Prop} {input : Option Bytes}
    {piped : Stream → Bool} {m m' : Machine} (h : TreeStep cap m m')
    (hm : m.Serves faulty input piped) : m'.Serves faulty input piped where
  told := by
    rw [h.apart.caller]
    exact hm.told.stays h.apart.stays
  input := by rw [h.apart.input, hm.input]
  piped := fun stream => by
    have hsome := congrArg Option.isSome (h.apart.reader stream)
    rw [Option.isSome_map, Option.isSome_map] at hsome
    rw [hsome, hm.piped]
  writer := by
    rw [joinWriter_congr h.apart.writer]
    exact hm.writer
  reader := fun stream => by
    rw [joinBytes_congr (h.apart.reader stream)]
    exact hm.reader stream

theorem Step.serves {mode : Mode} {cap : Nat} {faulty : Prop}
    {input : Option Bytes} {piped : Stream → Bool} {m m' : Machine}
    (hm : m.Serves faulty input piped) (h : Step mode cap faulty m m') :
    m'.Serves faulty input piped := by
  cases h with
  | feed f f' hrun hfeed hpumps =>
      refine ⟨hm.told.stays (.feed hfeed hpumps), ?_, hm.piped,
        fun e he => hpumps.error e he, hm.reader⟩
      rw [Option.map_some, hpumps.input, ← hm.input, hfeed, Option.map_some]
  | capture stream c c' hrun hc hpumps =>
      refine ⟨hm.told.stays (.capture hc hpumps), hm.input, fun s => ?_,
        hm.writer, fun s e he => ?_⟩
      · simp only [Machine.setCapture]
        split
        · next heq => rw [heq, ← hm.piped, hc]; rfl
        · exact hm.piped s
      · simp only [Machine.setCapture] at he
        split at he
        · exact hpumps.error e he
        · exact hm.reader s e he
  | tree _ _ htree => exact htree.serves hm
  | caller c hc =>
      have htold := hc.told hm
      refine ⟨?_, hm.input, hm.piped, hm.writer, hm.reader⟩
      -- what is known is about the tree and the pipes
      exact htold.stays ⟨fun _ h => h, fun _ h => h, fun _ _ h => h⟩

/-! ### The streams of the output -/

/-- One stream of an output. -/
def Output.of (out : Output) : Stream → Bytes
  | .stdout => out.stdout
  | .stderr => out.stderr

theorem joined_bytes {capture : Option Capture} {buf : Bytes}
    (h : joinBytes capture = some (.ok buf)) :
    (capture = none → buf = []) ∧
      ∀ c, capture = some c → c.written = buf ∧ c.writeOpen = false := by
  refine ⟨?_, ?_⟩
  · rintro rfl
    exact (Except.ok.inj (Option.some.inj h)).symm
  · rintro c rfl
    have hfinished : c.reader = .finished (.ok buf) := by
      unfold joinBytes at h
      split at h
      · next heq => exact nomatch heq
      · next heq =>
          obtain rfl := Option.some.inj heq
          split at h
          · exact nomatch h
          · next hr => rw [hr, Except.ok.inj (Option.some.inj h)]
          · exact nomatch h
    obtain ⟨hwritten, hclosed⟩ := c.whole buf hfinished
    exact ⟨hwritten.symm, hclosed⟩

theorem joined_writer {f : Feed} (h : joinWriter (some f) = some (.ok ())) :
    f.writer = .finished (.ok ()) := by
  cases hw : f.writer with
  | writing rest =>
      rw [joinWriter] at h
      simp only [hw] at h
      exact nomatch h
  | finished r =>
      cases r with
      | ok u => rfl
      | error e =>
          rw [joinWriter] at h
          simp only [hw] at h
          exact nomatch h

/-- What the tree read is a beginning of the input, and all of it if the tree
read to the end; what it can still read is there. -/
structure Feed.Fed (input : Bytes) (f : Feed) : Prop where
  within : f.consumed ++ f.buffer <+: input
  ended : f.sawEnd = true → f.consumed = input
  whole : f.readOpen = true → f.consumed ++ f.buffer = input

/-- A result of a call tells how the root exited, and all that was written to
each stream that is captured, to which nobody can write any more; what is not
captured is empty, and a closed stdin no error.  Only a fault is an error. -/
theorem communicate_output (mode : Mode) (windows : Bool) (cap : Nat)
    (faulty : Prop) (tree : Script) (input : Option Bytes) (stdin : Bool)
    (piped : Stream → Bool) (m : Machine)
    (h : ReflTransGen (Step mode cap faulty)
      (communicate windows tree input stdin piped) m)
    (r : Except Error Output) (hr : m.caller = .returned r) :
    (∀ e, r = .error e → faulty) ∧
      ∀ out, r = .ok out →
        m.status = some out.status ∧
        (∀ stream, if piped stream then
            ∃ c, m.capture stream = some c ∧ c.written = out.of stream ∧
              c.writeOpen = false
          else out.of stream = []) ∧
        (stdin = true → ∃ f, m.feed = some f ∧ f.Fed (input.getD [])) := by
  have hm : m.Serves faulty (if stdin then some (input.getD []) else none)
      piped :=
    invariant_of_steps (fun _ _ hm h => h.serves hm)
      (communicate_serves faulty windows tree input stdin piped) h
  have htold := hm.told
  rw [hr] at htold
  constructor
  · rintro e rfl
    cases htold with
    | returnedError _ hfault => exact hfault
  · rintro out rfl
    have htells : m.Tells out := by
      cases htold with
      | returned _ h => exact h
    refine ⟨htells.status, fun stream => ?_, ?_⟩
    · have hjoined :
          joinBytes (m.capture stream) = some (.ok (out.of stream)) := by
        cases stream
        · exact htells.stdout
        · exact htells.stderr
      have hpiped := hm.piped stream
      obtain ⟨hnone, hsome⟩ := joined_bytes hjoined
      cases hc : m.capture stream with
      | none =>
          rw [hc] at hpiped
          rw [← hpiped]
          exact hnone hc
      | some c =>
          rw [hc] at hpiped
          rw [← hpiped]
          exact ⟨c, rfl, hsome c hc⟩
    · rintro rfl
      obtain ⟨f, hf, hinput⟩ := Option.map_eq_some_iff.mp hm.input
      have hw : f.writer = .finished (.ok ()) := by
        apply joined_writer
        rw [← hf]
        exact htells.stdin
      rw [← hinput]
      exact ⟨f, hf, f.within, fun hend => f.ended hend hw, f.whole hw⟩

/-- A child that says the first byte of its input on its stdout, the second on
its stderr, and exits at the end of it. -/
def parting : Script :=
  .read fun first => .write .stdout (first.headD 0) (
    .read fun second => .write .stderr (second.headD 0) (
      .read fun _ => .last 3))

theorem finished_ne_writing {f : Feed} {r : Except IoError Unit}
    (h : f.writer = .finished r) (rest : Bytes) :
    f.writer ≠ .writing rest := by
  rw [h]
  nofun

/-- Its run, over pipes of one byte. -/
theorem communicate_parting :
    ∃ m, ReflTransGen (Step .sync 1 False)
        (communicate false parting (some [65, 66]) true fun _ => true) m ∧
      m.caller = .returned (.ok ⟨3, [65], [66]⟩) := by
  apply Exists.intro
  constructor
  · -- the first byte, while the writer holds the second back
    apply ReflTransGen.head (.feed _ _ _ (not_returned rfl) rfl
      (.write _ [65, 66] 1 rfl rfl Nat.one_pos (by decide) (by decide)))
    apply ReflTransGen.head (.tree _ _ (not_returned rfl) (.read _ _ [65] _ rfl
      (.take _ 1 rfl Nat.one_pos (by decide))))
    apply ReflTransGen.head (.tree _ _ (not_returned rfl) (.write _ .stdout 65
      _ _ _ rfl rfl (.write _ [] rfl rfl Nat.one_pos)))
    -- the second, and the end of the input
    apply ReflTransGen.head (.feed _ _ _ (not_returned rfl) rfl
      (.write _ [66] 1 rfl rfl Nat.one_pos (by decide) (by decide)))
    apply ReflTransGen.head (.capture _ .stdout _ _ (not_returned rfl) rfl
      (.take _ [] 1 rfl Nat.one_pos (by decide)))
    apply ReflTransGen.head (.feed _ _ _ (not_returned rfl) rfl (.done _ rfl))
    apply ReflTransGen.head (.tree _ _ (not_returned rfl) (.read _ _ [66] _ rfl
      (.take _ 1 rfl Nat.one_pos (by decide))))
    apply ReflTransGen.head (.tree _ _ (not_returned rfl) (.write _ .stderr 66
      _ _ _ rfl rfl (.write _ [] rfl rfl Nat.one_pos)))
    apply ReflTransGen.head (.capture _ .stderr _ _ (not_returned rfl) rfl
      (.take _ [] 1 rfl Nat.one_pos (by decide)))
    apply ReflTransGen.head (.tree _ _ (not_returned rfl) (.read _ _ [] _ rfl
      (.end _ rfl (finished_ne_writing rfl) rfl)))
    -- the exit, and the end of the outputs
    apply ReflTransGen.head (.tree _ _ (not_returned rfl) (.last _ 3 rfl))
    apply ReflTransGen.head (.capture _ .stdout _ _ (not_returned rfl) rfl
      (.end _ [65] rfl rfl rfl))
    apply ReflTransGen.head (.capture _ .stderr _ _ (not_returned rfl) rfl
      (.end _ [66] rfl rfl rfl))
    -- the caller's joins
    apply ReflTransGen.head (.caller _ _ (SyncStep.waited 3 rfl rfl))
    apply ReflTransGen.head
      (.caller _ _ (SyncStep.joinStdout 3 (.ok [65]) rfl rfl))
    apply ReflTransGen.head
      (.caller _ _ (SyncStep.joinStderr 3 [65] (.ok [66]) rfl rfl))
    apply ReflTransGen.head
      (.caller _ _ (SyncStep.joinWriter 3 [65] [66] (.ok ()) rfl rfl))
    exact .single (.caller _ _ (SyncStep.leave _ rfl nofun
      fun stream => by cases stream <;> nofun))
  · rfl

theorem communicate_output_parting :
    ∃ m : Machine, m.status = some 3 ∧
      (∃ c, m.capture .stdout = some c ∧ c.written = [65] ∧
        c.writeOpen = false) ∧
      (∃ c, m.capture .stderr = some c ∧ c.written = [66] ∧
        c.writeOpen = false) ∧
      ∃ f, m.feed = some f ∧ f.Fed [65, 66] := by
  obtain ⟨m, hrun, hr⟩ := communicate_parting
  obtain ⟨hstatus, hstreams, hfed⟩ :=
    (communicate_output .sync false 1 False _ (some [65, 66]) true _ m hrun _
      hr).2 _ rfl
  exact ⟨m, hstatus, hstreams .stdout, hstreams .stderr, hfed rfl⟩

end Cosca.Ports.Pump


