import Cosca.Ports.Pump
import Cosca.Verified.Progress

/-!
# Every call completes

A step of the tree shortens its script, and between two of these the pumps and
the caller have a bounded number of calls to make.  Whoever cannot go on waits
for somebody who can: a pump for the tree, and the caller for the pumps.

## Main results

* `communicate_completes`: whatever the tree does, no run is infinite and none
  gets stuck before the call has returned.
-/

namespace Cosca.Ports.Pump

open Cosca.Ports.Errors
open Cosca.Verified.Progress

/-- A tree that is gone has told how its root exited and holds no pipe. -/
structure Machine.Settled (mode : Mode) (m : Machine) : Prop where
  status : m.tree = none → m.status ≠ none
  feed : m.tree = none → ∀ f, m.feed = some f → f.readOpen = false
  capture : m.tree = none → ∀ stream c, m.capture stream = some c →
    c.writeOpen = false
  caller : mode = .async → m.caller = .waiting ∨ m.Returned

theorem communicate_settled (mode : Mode) (windows : Bool) (tree : Script)
    (input : Option Bytes) (stdin : Bool) (piped : Stream → Bool) :
    (communicate windows tree input stdin piped).Settled mode where
  status := nofun
  feed := nofun
  capture := nofun
  caller := fun _ => .inl rfl

theorem Feed.Pumps.readOpen {cap : Nat} {faulty : Prop} {f f' : Feed}
    (h : f.Pumps cap faulty f') : f'.readOpen = f.readOpen := by
  cases h <;> rfl

theorem Capture.Pumps.writeOpen {faulty : Prop} {c c' : Capture}
    (h : c.Pumps faulty c') : c'.writeOpen = c.writeOpen := by
  cases h <;> rfl

/-- What only the tree's end makes true is there at once, or the tree has
gone on. -/
theorem TreeStep.settled {cap : Nat} {mode : Mode} {m m' : Machine}
    (hm : m.Settled mode) (h : TreeStep cap m m') : m'.Settled mode := by
  cases h with
  | last status htree =>
      refine ⟨fun _ => ?_, fun _ f hf => ?_, fun _ stream c hc => ?_, hm.caller⟩
      · cases m.status <;> exact nofun
      · obtain ⟨f', _, rfl⟩ := Option.map_eq_some_iff.mp hf
        rfl
      · obtain ⟨c', _, rfl⟩ := Option.map_eq_some_iff.mp hc
        rfl
  | read => exact ⟨nofun, nofun, nofun, hm.caller⟩
  | writeInherited => exact ⟨nofun, nofun, nofun, hm.caller⟩
  | write => exact ⟨nofun, nofun, nofun, hm.caller⟩
  | closeStdin => exact ⟨nofun, nofun, nofun, hm.caller⟩
  | close => exact ⟨nofun, nofun, nofun, hm.caller⟩
  | exitRoot => exact ⟨nofun, nofun, nofun, hm.caller⟩

/-- All that is left of `try_join!` is its result. -/
theorem AsyncStep.returned {faulty : Prop} {m : Machine} {c : Caller}
    (h : AsyncStep faulty m c) :
    m.caller = .waiting ∧ ∃ r, c = .returned r := by
  cases h <;> exact ⟨‹_›, _, rfl⟩

theorem Step.settled {mode : Mode} {cap : Nat} {faulty : Prop}
    {m m' : Machine} (hm : m.Settled mode) (h : Step mode cap faulty m m') :
    m'.Settled mode := by
  cases h with
  | feed f f' hrun hfeed hpumps =>
      refine ⟨hm.status, fun htree f'' hf'' => ?_, hm.capture, hm.caller⟩
      obtain rfl := Option.some.inj hf''
      rw [hpumps.readOpen]
      exact hm.feed htree f hfeed
  | capture stream c c' hrun hc hpumps =>
      refine ⟨hm.status, hm.feed, fun htree s c'' hc'' => ?_, hm.caller⟩
      simp only [Machine.setCapture] at hc''
      split at hc''
      · obtain rfl := Option.some.inj hc''
        rw [hpumps.writeOpen]
        exact hm.capture htree stream c hc
      · exact hm.capture htree s c'' hc''
  | tree _ _ htree => exact htree.settled hm
  | caller c hc =>
      refine ⟨hm.status, hm.feed, hm.capture, ?_⟩
      rintro rfl
      exact .inr (AsyncStep.returned hc).2

/-! ### What a step costs -/

/-- The calls the writer may still make. -/
def Feed.work (f : Feed) : Nat :=
  match f.writer with
  | .writing rest => rest.length + 1
  | .finished _ => 0

/-- The calls a reader may still make for what is in the pipe. -/
def Capture.work (c : Capture) : Nat :=
  match c.reader with
  | .reading _ => c.buffer.length + 1
  | .finished _ => 0

/-- The phases the caller may still go through. -/
def Caller.work : Caller → Nat
  | .waiting => 5
  | .joinStdout _ => 4
  | .joinStderr .. => 3
  | .joinWriter .. => 2
  | .leaving _ => 1
  | .returned _ => 0

/-- The calls that are possible before the tree's next. -/
def Machine.work (m : Machine) : Nat :=
  (m.feed.elim 0 Feed.work + (m.capture .stdout).elim 0 Capture.work +
    (m.capture .stderr).elim 0 Capture.work) + m.caller.work

/-- A step of the tree counts more than everything the others may do before the
next. -/
def Machine.rank (m : Machine) : Option Script × Nat :=
  (m.tree, m.work)

/-- `rank` goes down in this order. -/
def Lower : Option Script × Nat → Option Script × Nat → Prop :=
  Prod.Lex Script.After (· < ·)

theorem lower_wf : WellFounded Lower :=
  WellFounded.prod_lex Script.after_wf Nat.lt_wfRel.wf

theorem Feed.Pumps.work_lt {cap : Nat} {faulty : Prop} {f f' : Feed}
    (h : f.Pumps cap faulty f') : f'.work < f.work := by
  cases h with
  | write rest n hw hopen hpos hn hcap =>
      simp only [Feed.work, Feed.write, hw, List.length_drop]
      omega
  | done hw => simp [Feed.work, Feed.done, hw]
  | broken rest e hw hclosed hbroken => simp [Feed.work, Feed.fail, hw]
  | fail rest e hw hfault hother => simp [Feed.work, Feed.fail, hw]

theorem Capture.Pumps.work_lt {faulty : Prop} {c c' : Capture}
    (h : c.Pumps faulty c') : c'.work < c.work := by
  cases h with
  | take buf n hr hpos hn =>
      simp only [Capture.work, Capture.take, hr, List.length_drop]
      omega
  | «end» buf hr hbuffer hclosed => simp [Capture.work, Capture.end, hr]
  | fail buf e hr hfault => simp [Capture.work, Capture.fail, hr]

theorem orLeave_work {α : Type} (goOn : α → Caller) (bound : Nat)
    (hbound : 1 < bound) (hgoOn : ∀ a, (goOn a).work < bound)
    (r : Except Error α) : (orLeave goOn r).work < bound := by
  cases r with
  | ok a => exact hgoOn a
  | error e => exact hbound

theorem CallerStep.work_lt {mode : Mode} {faulty : Prop} {m : Machine}
    {c : Caller} (h : CallerStep mode faulty m c) :
    c.work < m.caller.work := by
  cases mode with
  | sync =>
      obtain ⟨status, hc, hstatus⟩ | ⟨e, hc, hfault⟩ | ⟨status, r, hc, hr⟩ |
        ⟨status, stdout, r, hc, hr⟩ | ⟨status, stdout, stderr, r, hc, hr⟩ |
        ⟨r, hc, hfeed, hcapture⟩ := h
      all_goals rw [hc]
      · exact Nat.lt_add_one 4
      · exact (by decide : 1 < 5)
      · exact orLeave_work (.joinStderr status) 4 (by decide)
          (fun _ => Nat.lt_add_one 3) r
      · exact orLeave_work (.joinWriter status stdout) 3 (by decide)
          (fun _ => Nat.lt_add_one 2) r
      · exact orLeave_work (fun _ => .leaving (.ok ⟨status, stdout, stderr⟩)) 2
          (by decide) (fun _ => Nat.lt_add_one 1) r
      · exact Nat.zero_lt_one
  | async =>
      obtain ⟨hc, r, rfl⟩ := AsyncStep.returned h
      rw [hc]
      exact Nat.zero_lt_succ 4

theorem TreeStep.after {cap : Nat} {m m' : Machine} (h : TreeStep cap m m') :
    Script.After m'.tree m.tree := by
  cases h with
  | read next chunk feed htree hreads => rw [htree]; exact .read next chunk
  | writeInherited stream b next htree hnone =>
      rw [htree]; exact .write stream b next
  | write stream b next c c' htree hsome hwrites =>
      rw [htree]; exact .write stream b next
  | closeStdin next htree => rw [htree]; exact .closeStdin next
  | close stream next htree => rw [htree]; exact .close stream next
  | exitRoot status next htree => rw [htree]; exact .exitRoot status next
  | last status htree => rw [htree]; exact .last status

theorem setCapture_work (m : Machine) (stream : Stream) (c c' : Capture)
    (hc : m.capture stream = some c) (hlt : c'.work < c.work) :
    (m.setCapture stream c').work < m.work := by
  cases stream <;>
    simp [Machine.work, Machine.setCapture, hc, hlt]

/-- Every step goes down. -/
theorem Step.lower {mode : Mode} {cap : Nat} {faulty : Prop} {m m' : Machine}
    (h : Step mode cap faulty m m') : Lower m'.rank m.rank := by
  cases h with
  | feed f f' hrun hfeed hpumps =>
      have hlt := hpumps.work_lt
      apply Prod.Lex.right
      simp only [Machine.work, hfeed, Option.elim_some]
      omega
  | capture stream c c' hrun hc hpumps =>
      exact Prod.Lex.right _ (setCapture_work m stream c c' hc hpumps.work_lt)
  | tree _ _ htree => exact Prod.Lex.left _ _ htree.after
  | caller c hc =>
      exact Prod.Lex.right _ (Nat.add_lt_add_left hc.work_lt _)

/-! ### What is left to do -/

/-- A writer that cannot go on waits for the tree to read from a full pipe. -/
theorem Feed.pumps_or_blocked (cap : Nat) (faulty : Prop) (f : Feed)
    (rest : Bytes) (h : f.writer = .writing rest) :
    (∃ f', f.Pumps cap faulty f') ∨
      f.readOpen = true ∧ cap ≤ f.buffer.length := by
  cases hopen : f.readOpen with
  | false =>
      have hbroken : isBrokenPipe f.windows
          (.os (if f.windows then 109 else 32)) = true := by
        cases f.windows <;> rfl
      exact .inl ⟨_, .broken f rest _ h hopen hbroken⟩
  | true =>
      rcases Nat.lt_or_ge f.buffer.length cap with hroom | hfull
      · refine .inl ?_
        cases rest with
        | nil => exact ⟨_, .done f h⟩
        | cons b rest =>
            exact ⟨_, .write f (b :: rest) 1 h hopen Nat.one_pos
              (Nat.succ_le_succ (Nat.zero_le _)) hroom⟩
      · exact .inr ⟨rfl, hfull⟩

/-- A reader that cannot go on waits for the tree to write. -/
theorem Capture.pumps_or_blocked (faulty : Prop) (c : Capture) (buf : Bytes)
    (h : c.reader = .reading buf) :
    (∃ c', c.Pumps faulty c') ∨ c.writeOpen = true ∧ c.buffer = [] := by
  cases hbuffer : c.buffer with
  | cons b rest =>
      have hpos : 1 ≤ c.buffer.length := by
        rw [hbuffer]
        exact Nat.succ_le_succ (Nat.zero_le _)
      exact .inl ⟨_, .take c buf 1 h Nat.one_pos hpos⟩
  | nil =>
      cases hopen : c.writeOpen with
      | false => exact .inl ⟨_, .end c buf h hbuffer hopen⟩
      | true => exact .inr ⟨rfl, rfl⟩

/-- No pump can go on. -/
structure Machine.Quiet (cap : Nat) (m : Machine) : Prop where
  feed : ∀ f rest, m.feed = some f → f.writer = .writing rest →
    f.readOpen = true ∧ cap ≤ f.buffer.length
  capture : ∀ stream c buf, m.capture stream = some c →
    c.reader = .reading buf → c.writeOpen = true ∧ c.buffer = []

theorem pumps_or_quiet {mode : Mode} {cap : Nat} {faulty : Prop} (m : Machine)
    (hrun : ¬ m.Returned) :
    (∃ m', Step mode cap faulty m m') ∨ m.Quiet cap := by
  by_cases hstep : ∃ m', Step mode cap faulty m m'
  · exact .inl hstep
  · refine .inr ⟨fun f rest hf hw => ?_, fun stream c buf hc hr => ?_⟩
    · obtain ⟨f', hpumps⟩ | hblocked := f.pumps_or_blocked cap faulty rest hw
      · exact absurd ⟨_, .feed m f f' hrun hf hpumps⟩ hstep
      · exact hblocked
    · obtain ⟨c', hpumps⟩ | hblocked := c.pumps_or_blocked faulty buf hr
      · exact absurd ⟨_, .capture m stream c c' hrun hc hpumps⟩ hstep
      · exact hblocked

/-- Then a call of the tree is answered. -/
theorem tree_steps {cap : Nat} (hcap : 0 < cap) {m : Machine}
    (hquiet : m.Quiet cap) {script : Script} (h : m.tree = some script) :
    ∃ m', TreeStep cap m m' := by
  cases script with
  | read next =>
      suffices hreads : ∃ chunk feed, Feed.Reads m.feed chunk feed by
        obtain ⟨chunk, feed, hreads⟩ := hreads
        exact ⟨_, .read m next chunk feed h hreads⟩
      cases hfeed : m.feed with
      | none => exact ⟨[], none, .inherited []⟩
      | some f =>
          cases hopen : f.readOpen with
          | false => exact ⟨_, _, .closed f hopen⟩
          | true =>
              cases hbuffer : f.buffer with
              | cons b rest =>
                  have hpos : 1 ≤ f.buffer.length := by
                    rw [hbuffer]
                    exact Nat.succ_le_succ (Nat.zero_le _)
                  exact ⟨_, _, .take f 1 hopen Nat.one_pos hpos⟩
              | nil =>
                  -- a writer that waits has filled the pipe
                  refine ⟨_, _, .end f hbuffer (fun rest hw => ?_) hopen⟩
                  have hfull := (hquiet.feed f rest hfeed hw).2
                  rw [hbuffer, List.length_nil] at hfull
                  omega
  | write stream b next =>
      cases hc : m.capture stream with
      | none => exact ⟨_, .writeInherited m stream b next h hc⟩
      | some c =>
          suffices hwrites : ∃ c', c.Writes cap b c' by
            obtain ⟨c', hwrites⟩ := hwrites
            exact ⟨_, .write m stream b next c c' h hc hwrites⟩
          cases hopen : c.writeOpen with
          | false => exact ⟨c, .closed c hopen⟩
          | true =>
              cases hr : c.reader with
              | finished r => exact ⟨c, .broken c r hr⟩
              | reading buf =>
                  have hempty := (hquiet.capture stream c buf hc hr).2
                  refine ⟨_, .write c buf hr hopen ?_⟩
                  rw [hempty]
                  exact hcap
  | closeStdin next => exact ⟨_, .closeStdin m next h⟩
  | close stream next => exact ⟨_, .close m stream next h⟩
  | exitRoot status next => exact ⟨_, .exitRoot m status next h⟩
  | last status => exact ⟨_, .last m status h⟩

/-- Without the tree the pumps are over. -/
theorem Machine.Settled.joined {mode : Mode} {cap : Nat} {m : Machine}
    (hm : m.Settled mode) (hquiet : m.Quiet cap) (h : m.tree = none) :
    (∃ r, joinWriter m.feed = some r) ∧
      ∀ stream, ∃ r, joinBytes (m.capture stream) = some r := by
  constructor
  · cases hfeed : m.feed with
    | none => exact ⟨_, rfl⟩
    | some f =>
        cases hw : f.writer with
        | writing rest =>
            have hopen := (hquiet.feed f rest hfeed hw).1
            rw [hm.feed h f hfeed] at hopen
            exact absurd hopen Bool.false_ne_true
        | finished r =>
            cases r with
            | ok u => exact ⟨.ok (), by simp only [joinWriter, hw]⟩
            | error e => exact ⟨.error (.io e), by simp only [joinWriter, hw]⟩
  · intro stream
    cases hc : m.capture stream with
    | none => exact ⟨_, rfl⟩
    | some c =>
        cases hr : c.reader with
        | reading buf =>
            have hopen := (hquiet.capture stream c buf hc hr).1
            rw [hm.capture h stream c hc] at hopen
            exact absurd hopen Bool.false_ne_true
        | finished r =>
            cases r with
            | ok buf => exact ⟨.ok buf, by simp only [joinBytes, hr]⟩
            | error e => exact ⟨.error (.io e), by simp only [joinBytes, hr]⟩

/-- Then the caller goes on. -/
theorem caller_steps {mode : Mode} {faulty : Prop} {m : Machine}
    (hm : m.Settled mode) (hrun : ¬ m.Returned)
    (hstatus : m.status ≠ none) (hfeed : ∃ r, joinWriter m.feed = some r)
    (hcapture : ∀ stream, ∃ r, joinBytes (m.capture stream) = some r) :
    ∃ c, CallerStep mode faulty m c := by
  obtain ⟨status, hstatus⟩ := Option.ne_none_iff_exists'.mp hstatus
  obtain ⟨written, hfeed⟩ := hfeed
  obtain ⟨out, hout⟩ := hcapture .stdout
  obtain ⟨err, herr⟩ := hcapture .stderr
  cases mode with
  | sync =>
      cases hc : m.caller with
      | waiting => exact ⟨_, SyncStep.waited status hc hstatus⟩
      | joinStdout status => exact ⟨_, SyncStep.joinStdout status out hc hout⟩
      | joinStderr status stdout =>
          exact ⟨_, SyncStep.joinStderr status stdout err hc herr⟩
      | joinWriter status stdout stderr =>
          exact ⟨_, SyncStep.joinWriter status stdout stderr written hc hfeed⟩
      | leaving r =>
          refine ⟨_, SyncStep.leave r hc ?_ fun stream => ?_⟩
          · rw [hfeed]
            exact Option.some_ne_none _
          · obtain ⟨r, hr⟩ := hcapture stream
            rw [hr]
            exact Option.some_ne_none _
      | returned r => exact absurd ⟨r, hc⟩ hrun
  | async =>
      obtain hc | hc := hm.caller rfl
      · cases written with
        | error e => exact ⟨_, AsyncStep.writeRejected e hc hfeed⟩
        | ok u =>
            cases out with
            | error e => exact ⟨_, AsyncStep.readRejected .stdout e hc hout⟩
            | ok stdout =>
                cases err with
                | error e => exact ⟨_, AsyncStep.readRejected .stderr e hc herr⟩
                | ok stderr =>
                    exact ⟨_, AsyncStep.resolve status stdout stderr hc hfeed
                      hout herr hstatus⟩
      · exact absurd hc hrun

/-- A call that has not returned can go on. -/
theorem Machine.Settled.progress {mode : Mode} {cap : Nat} {faulty : Prop}
    (hcap : 0 < cap) {m : Machine} (hm : m.Settled mode)
    (hrun : ¬ m.Returned) : ∃ m', Step mode cap faulty m m' := by
  obtain hstep | hquiet := pumps_or_quiet m hrun
  · exact hstep
  cases htree : m.tree with
  | some script =>
      obtain ⟨m', hstep⟩ := tree_steps hcap hquiet htree
      exact ⟨m', .tree m m' hrun hstep⟩
  | none =>
      obtain ⟨hfeed, hcapture⟩ := hm.joined hquiet htree
      have hcaller : ∃ c, CallerStep mode faulty m c :=
        caller_steps hm hrun (hm.status htree) hfeed hcapture
      obtain ⟨c, hc⟩ := hcaller
      exact ⟨_, .caller m c hc⟩

/-- Whatever a tree that ends does with its streams, and in whatever order the
pumps, the tree and the caller go on: no pipe that is full or empty keeps a
call from returning. -/
theorem communicate_completes (mode : Mode) (windows : Bool) (cap : Nat)
    (faulty : Prop) (hcap : 0 < cap) (tree : Script) (input : Option Bytes)
    (stdin : Bool) (piped : Stream → Bool) :
    Completes (Step mode cap faulty) Machine.Returned
      (communicate windows tree input stdin piped) :=
  Completes.of_rank lower_wf Machine.rank (fun _ _ hm h => h.settled hm)
    (fun _ _ _ h => h.lower) (fun _ hm hrun => hm.progress hcap hrun)
    (communicate_settled mode windows tree input stdin piped)

/-- A child that answers before it has read its input, through pipes of a
byte. -/
theorem communicate_completes_answer :
    Completes (Step .sync 1 False) Machine.Returned
      (communicate false
        (.write .stdout 65 (.write .stdout 66 (.read fun _ => .last 0)))
        (some [1, 2, 3]) true fun _ => true) :=
  communicate_completes .sync false 1 False Nat.one_pos _ _ true _

end Cosca.Ports.Pump
