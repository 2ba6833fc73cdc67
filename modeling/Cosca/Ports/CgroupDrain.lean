import Cosca.Ports.CreatedAt
import Cosca.Ports.Deadlines

/-!
# The drain watch of a cgroup leaf

`CgroupLeaf::wait_drained` and its twin `cgroup_wait_tree_drained` wait until
nobody lives in the leaf any more.  Both read `populated` from `cgroup.events`
before they wait for a change of it, and take the removal of the leaf for a
drain.  They differ in how they wait: the one polls the file, the other awaits
the readiness that the reactor keeps for it.

The kernel is an environment with a state: processes come and go, an empty
leaf may be removed, and a change of `populated` is told once to whoever has
read the file before it.

## Main results

* `parsePopulated_renders`: what the kernel writes is read back.
* `readPopulated_guarantees`: what a read says of the leaf.
-/

namespace Cosca.Ports.CgroupDrain

open Cosca.Ports.Errors
open Cosca.Ports.CreatedAt (stripPrefix)
open Cosca.Ports.ChildRelease (TreeDrain)
open Cosca.Ports.Deadlines
open Cosca.Ports.KqueueWait (Instant Timespec timespecOf eintr)
open Cosca.Verified.Interact
open Cosca.Verified.Text

/-! ## `cgroup.events` -/

/-- What `populated` is given as. -/
def populatedValue (rest : List Char) : Option Bool :=
  if trim rest = ['0'] then some false
  else if trim rest = ['1'] then some true
  else none

/-- `parse_populated`: the first line of that key decides. -/
def parsePopulated (contents : List Char) : Option Bool :=
  (lines contents).findSome? (stripPrefix "populated ".toList)
    |>.bind populatedValue

/-- `ENOENT`. -/
def enoent : Int := 2

/-- `ENODEV`. -/
def enodev : Int := 19

/-- `removed_after_drain`. -/
def removedAfterDrain : IoError → Bool
  | .os errno => errno == enodev || errno == enoent
  | .custom _ _ => false

/-! ## Calls -/

/-- The calls of a wait; `readyWithin` is `ready` under a timeout. -/
inductive DrainCall where
  | openEvents
  | register
  | seekStart
  | readToString
  | now
  | poll (timeout : Option Timespec)
  | ready
  | readyWithin (time : Nat)
  | clearReady

/-- What a call returns; `readyWithin` returns nothing when its time is over. -/
abbrev DrainCall.Reply : DrainCall → Type
  | .openEvents | .register | .seekStart => Except IoError Unit
  | .readToString => Except IoError (List Char)
  | .now => Instant
  | .poll _ => Except Int Nat
  | .ready => Except IoError Unit
  | .readyWithin _ => Option (Except IoError Unit)
  | .clearReady => Unit

/-- A program that watches a leaf. -/
abbrev Watching := Prog DrainCall DrainCall.Reply

/-- What a watch, or a round of it, comes to: nothing where it is not over. -/
abbrev Outcome := Option (Except Error TreeDrain)

/-! ## Reading -/

/-- The error of a file without the field. -/
def noPopulatedField : Error :=
  .io (.other
    "cgroup.events has no 'populated' field — unexpected kernel format")

/-- What is made of an error of `seek` or `read`. -/
def drainedOr (e : IoError) : Except Error Bool :=
  if removedAfterDrain e then .ok false else .error (.io e)

/-- What is made of the text. -/
def populatedOf : Except IoError (List Char) → Except Error Bool
  | .error e => drainedOr e
  | .ok buf =>
      match parsePopulated buf with
      | some populated => .ok populated
      | none => .error noPopulatedField

/-- What follows the `seek`. -/
def afterSeek : Except IoError Unit → Watching (Except Error Bool)
  | .error e => return drainedOr e
  | .ok () => do
      let text : Except IoError (List Char) ← query DrainCall.readToString
      return populatedOf text

/-- `read_populated`. -/
def readPopulated : Watching (Except Error Bool) := do
  let sought : Except IoError Unit ← query DrainCall.seekStart
  afterSeek sought

/-! ## The loop -/

/-- How a round waits: for the time that is left, if there is a limit, to
nothing where the file is to be read again. -/
abbrev Await := Option Nat → Watching Outcome

/-- What the wait of a round makes of the loop. -/
def afterAwait (again : Watching Outcome) : Outcome → Watching Outcome
  | some verdict => return some verdict
  | none => again

/-- What the read of a round makes of the loop. -/
def afterRead (deadline : Option (Option Instant)) (await : Await)
    (again : Watching Outcome) : Except Error Bool → Watching Outcome
  | .error e => return some (.error e)
  | .ok false => return some (.ok .allMembersExited)
  | .ok true => do
      let left ← remaining (query DrainCall.now) deadline
      if left = some 0 then return some (.ok .membersRemain)
      else do
        let verdict ← await left
        afterAwait again verdict

/-- The loop of both watches. -/
def drainLoop (deadline : Option (Option Instant)) (await : Await) :
    Nat → Watching Outcome
  | 0 => return none
  | fuel + 1 => do
      let populated ← readPopulated
      afterRead deadline await (drainLoop deadline await fuel) populated

/-- What is made of an error of `open`. -/
def openFailed (e : IoError) : Except Error TreeDrain :=
  if removedAfterDrain e then .ok .allMembersExited else .error (.io e)

/-! ## `CgroupLeaf::wait_drained` -/

/-- What is made of the answer of `poll`. -/
def polledVerdict : Except Int Nat → Outcome
  | .ok 0 => some (.ok .membersRemain)
  | .ok (_ + 1) => none
  | .error errno =>
      if errno = eintr then none else some (.error (.io (.os errno)))

/-- The `poll` of a round. -/
def pollEvents : Await := fun left => do
  let polled : Except Int Nat ← query (DrainCall.poll (left.map timespecOf))
  return polledVerdict polled

/-- What follows the `open`. -/
def pollOpened (deadline : Option (Option Instant)) (fuel : Nat) :
    Except IoError Unit → Watching Outcome
  | .error e => return some (openFailed e)
  | .ok () => drainLoop deadline pollEvents fuel

/-- `CgroupLeaf::wait_drained`. -/
def waitDrained (deadline : Option (Option Instant)) (fuel : Nat) :
    Watching Outcome := do
  let opened : Except IoError Unit ← query DrainCall.openEvents
  pollOpened deadline fuel opened

/-! ## `cgroup_wait_tree_drained` -/

/-- What follows a readiness. -/
def afterReady : Except IoError Unit → Watching Outcome
  | .error e => return some (.error (.io e))
  | .ok () => do
      let _ : Unit ← query DrainCall.clearReady
      return none

/-- What follows a readiness under a timeout. -/
def afterReadyWithin : Option (Except IoError Unit) → Watching Outcome
  | none => return some (.ok .membersRemain)
  | some ready => afterReady ready

/-- The `ready` of a round. -/
def awaitReady : Await
  | none => do
      let ready : Except IoError Unit ← query DrainCall.ready
      afterReady ready
  | some time => do
      let ready : Option (Except IoError Unit) ←
        query (DrainCall.readyWithin time)
      afterReadyWithin ready

/-- What follows the registration. -/
def readyRegistered (deadline : Option (Option Instant)) (fuel : Nat) :
    Except IoError Unit → Watching Outcome
  | .error e => return some (.error (.io e))
  | .ok () => drainLoop deadline awaitReady fuel

/-- What follows the `open`. -/
def readyOpened (deadline : Option (Option Instant)) (fuel : Nat) :
    Except IoError Unit → Watching Outcome
  | .error e => return some (openFailed e)
  | .ok () => do
      let registered : Except IoError Unit ← query DrainCall.register
      readyRegistered deadline fuel registered

/-- `cgroup_wait_tree_drained`. -/
def cgroupWaitTreeDrained (deadline : Option (Option Instant)) (fuel : Nat) :
    Watching Outcome := do
  let opened : Except IoError Unit ← query DrainCall.openEvents
  readyOpened deadline fuel opened

/-- The two watches. -/
inductive Twin where
  | sync
  | async
  deriving DecidableEq

/-- What a twin runs. -/
def Twin.wait (deadline : Option (Option Instant)) (fuel : Nat) :
    Twin → Watching Outcome
  | .sync => waitDrained deadline fuel
  | .async => cgroupWaitTreeDrained deadline fuel

/-! ## The kernel -/

/-- A leaf as the kernel keeps it: who lives in it, whether it was removed, how
often `populated` has changed, up to which change the open file has told and
the reactor was answered, the wakeups without a change, and the time. -/
structure Leaf where
  members : List UInt32
  removed : Bool
  changes : Nat
  told : Option Nat
  cleared : Option Nat
  interrupts : Nat
  time : Clock
  removed_empty : removed = true → members = []
  told_le : ∀ n ∈ told, n ≤ changes
  cleared_le : ∀ n ∈ cleared, n ≤ changes

/-- `populated`. -/
def Leaf.populated (l : Leaf) : Bool :=
  !l.members.isEmpty

/-- The number of changes once the members are these. -/
def Leaf.changesTo (l : Leaf) (members : List UInt32) : Nat :=
  if l.members.isEmpty = members.isEmpty then l.changes else l.changes + 1

theorem Leaf.le_changesTo (l : Leaf) (members : List UInt32) :
    l.changes ≤ l.changesTo members := by
  unfold Leaf.changesTo
  split
  · exact Nat.le_refl l.changes
  · exact Nat.le_succ l.changes

/-- Processes fork, exit, or are moved; nobody enters a removed leaf. -/
def Leaf.become (l : Leaf) (members : List UInt32)
    (h : l.removed = true → members = []) : Leaf :=
  { l with
    members := members
    changes := l.changesTo members
    removed_empty := h
    told_le := fun n hn => Nat.le_trans (l.told_le n hn) (l.le_changesTo _)
    cleared_le := fun n hn =>
      Nat.le_trans (l.cleared_le n hn) (l.le_changesTo _) }

/-- `rmdir` takes an empty leaf. -/
def Leaf.remove (l : Leaf) (h : l.members = []) : Leaf :=
  { l with removed := true, removed_empty := fun _ => h }

/-- Time passes. -/
def Leaf.pass (l : Leaf) (now : Nat) (h : l.time.now ≤ now) : Leaf :=
  { l with time := l.time.pass now h }

/-- A call returns. -/
def Leaf.back (l : Leaf) : Leaf :=
  { l with time := l.time.back }

/-- The file is opened, and has told nothing yet. -/
def Leaf.opened (l : Leaf) : Leaf :=
  { l with told := none, told_le := fun _ h => nomatch h }

/-- The file is registered, and is ready at first. -/
def Leaf.registered (l : Leaf) : Leaf :=
  { l with cleared := none, cleared_le := fun _ h => nomatch h }

/-- The file tells the present state. -/
def Leaf.tell (l : Leaf) : Leaf :=
  { l with
    told := some l.changes
    told_le := fun _ h => Nat.le_of_eq (Option.some.inj h).symm }

/-- The readiness so far is cleared. -/
def Leaf.clear (l : Leaf) : Leaf :=
  { l with
    cleared := some l.changes
    cleared_le := fun _ h => Nat.le_of_eq (Option.some.inj h).symm }

/-- A wakeup without a change. -/
def Leaf.interrupt (l : Leaf) : Leaf :=
  { l with interrupts := l.interrupts + 1 }

/-- What happens by itself. -/
inductive Leaf.Moves : Leaf → Leaf → Prop where
  | become (l : Leaf) (members : List UInt32)
      (h : l.removed = true → members = []) : Moves l (l.become members h)
  | remove (l : Leaf) (h : l.members = []) : Moves l (l.remove h)
  | pass (l : Leaf) (now : Nat) (h : l.time.now ≤ now) : Moves l (l.pass now h)

/-- A line of another key. -/
def OtherLine (line : List Char) : Prop :=
  '\n' ∉ line ∧ line.getLast? ≠ some '\r' ∧
    stripPrefix "populated ".toList line = none

/-- The text of `cgroup.events`: a key and its value to a line, in any
order. -/
def Renders (populated : Bool) (text : List Char) : Prop :=
  ∃ before after : List (List Char), (∀ line ∈ before, OtherLine line) ∧
    text = (before ++ ("populated ".toList ++ [if populated then '1' else '0'])
      :: after).flatMap (· ++ ['\n'])

/-- Whoever waits for a change after one is woken for it, or for none: the file
tells of `frozen` too. -/
def Leaf.Wakes (l : Leaf) (seen : Option Nat) (l' : Leaf) : Prop :=
  (l.removed = true ∨ seen ≠ some l.changes) ∧ l' = l.back ∨
    l' = l.interrupt.back

/-- What the kernel answers.  A poll returns for a change that the file has
not told of, and the reactor wakes for a change after the last one it was
answered for, and either may for none; a wait with a limit may end when its time
is over.  `ENODEV` and `ENOENT` say that the leaf was removed. -/
def Leaf.serves (l : Leaf) : (q : DrainCall) → q.Reply → Leaf → Prop
  | .openEvents, .ok (), l' => l.removed = false ∧ l' = l.opened.back
  | .openEvents, .error e, l' =>
      (removedAfterDrain e = true → l.removed = true) ∧ l' = l.back
  | .register, .ok (), l' => l' = l.registered.back
  | .register, .error e, l' => removedAfterDrain e = false ∧ l' = l.back
  | .seekStart, .ok (), l' => l' = l.back
  | .seekStart, .error e, l' =>
      (removedAfterDrain e = true → l.removed = true) ∧ l' = l.back
  | .readToString, .ok text, l' =>
      l.removed = false ∧ Renders l.populated text ∧ l' = l.tell.back
  | .readToString, .error e, l' =>
      (removedAfterDrain e = true → l.removed = true) ∧ l' = l.back
  | .now, now, l' => now.nanos = l.time.now ∧ l' = l.back
  | .poll none, .ok 0, _ => False
  | .poll (some time), .ok 0, l' =>
      l.time.returned + time.nanos ≤ l.time.now ∧ l' = l.back
  | .poll _, .ok (_ + 1), l' => l.Wakes l.told l'
  | .poll _, .error errno, l' =>
      removedAfterDrain (.os errno) = false ∧ l' = l.interrupt.back
  | .ready, .ok (), l' => l.Wakes l.cleared l'
  | .ready, .error e, l' => removedAfterDrain e = false ∧ l' = l.back
  | .readyWithin _, some (.ok ()), l' => l.Wakes l.cleared l'
  | .readyWithin _, some (.error e), l' =>
      removedAfterDrain e = false ∧ l' = l.back
  | .readyWithin time, none, l' =>
      l.time.returned + time ≤ l.time.now ∧ l' = l.back
  | .clearReady, (), l' => l' = l.clear.back

/-- The kernel as an environment. -/
abbrev kernfs : Environment DrainCall.Reply Leaf where
  serves := Leaf.serves
  moves := Leaf.Moves

/-! ## What the kernel does by itself -/

/-- What a move can change of a leaf. -/
structure Drifts (l l' : Leaf) : Prop where
  removed : l.removed = true → l'.removed = true
  changes : l.changes ≤ l'.changes
  told : l'.told = l.told
  cleared : l'.cleared = l.cleared
  interrupts : l'.interrupts = l.interrupts
  time : l.time.Drifts l'.time

theorem Leaf.Moves.drifts {l l' : Leaf} (h : Leaf.Moves l l') :
    Drifts l l' := by
  cases h with
  | become members h =>
      exact ⟨id, l.le_changesTo members, rfl, rfl, rfl, rfl, Nat.le_refl _⟩
  | remove h =>
      exact ⟨fun _ => rfl, Nat.le_refl _, rfl, rfl, rfl, rfl, Nat.le_refl _⟩
  | pass now h => exact ⟨id, Nat.le_refl _, rfl, rfl, rfl, rfl, h⟩

/-- One round more may see the removal. -/
def Leaf.gone (l : Leaf) : Nat :=
  if l.removed then 1 else 0

theorem Leaf.gone_le (l : Leaf) : l.gone ≤ 1 := by
  unfold Leaf.gone
  split <;> decide

theorem Leaf.gone_of_removed {l : Leaf} (h : l.removed = true) :
    l.gone = 1 := by
  rw [Leaf.gone, if_pos h]

theorem Leaf.gone_of_present {l : Leaf} (h : l.removed = false) :
    l.gone = 0 := by
  rw [Leaf.gone, h]
  rfl

theorem Drifts.gone {l l' : Leaf} (h : Drifts l l') : l.gone ≤ l'.gone := by
  cases hremoved : l.removed with
  | false =>
      rw [Leaf.gone_of_present hremoved]
      exact Nat.zero_le l'.gone
  | true =>
      rw [Leaf.gone_of_removed (h.removed hremoved)]
      exact l.gone_le

/-- What no drift breaks, no move does. -/
theorem stable_of_drifts {cond : Leaf → Prop}
    (h : ∀ l l', Drifts l l' → cond l → cond l') : kernfs.Stable cond :=
  fun l l' hmove => h l l' hmove.drifts

/-! ## Assertions -/

/-- A leaf and the leaves that it has been. -/
abbrev Recorded := Leaf × List Leaf

/-- At some instant nobody lived in the leaf. -/
def Emptied (s : Recorded) : Prop :=
  ∃ l ∈ s.2, l.members = []

/-- At some instant somebody did. -/
def Occupied (s : Recorded) : Prop :=
  ∃ l ∈ s.2, l.members ≠ []

/-- The error is a failure, not the removal of the leaf. -/
def Failure (e : Error) : Prop :=
  ∃ io, e = .io io ∧ removedAfterDrain io = false

/-- What accounts for the rounds made: before the read of a round, and after
it. -/
structure Account where
  head : Nat → Leaf → Prop
  armed : Nat → Leaf → Prop
  head_drifts : ∀ m l l', Drifts l l' → head m l → head m l'
  armed_drifts : ∀ m l l', Drifts l l' → armed m l → armed m l'
  head_back : ∀ m l, head m l → head m l.back
  armed_back : ∀ m l, armed m l → armed m l.back
  /-- The read of an occupied leaf. -/
  tell : ∀ m l, l.removed = false → head m l → armed m l.tell

section

variable {deadline : Option (Option Instant)} {left : Option Nat}

theorem stable_emptied : kernfs.recording.Stable Emptied :=
  Environment.recording_once _

theorem stable_occupied : kernfs.recording.Stable Occupied :=
  Environment.recording_once _

theorem stable_elapsed : kernfs.Stable fun l => Elapsed deadline l.time :=
  stable_of_drifts fun _ _ h => Elapsed.drifts h.time

theorem stable_sampled :
    kernfs.Stable fun l => Sampled deadline left l.time :=
  stable_of_drifts fun _ _ h => Sampled.drifts h.time

theorem stable_head (acc : Account) (m : Nat) : kernfs.Stable (acc.head m) :=
  stable_of_drifts (acc.head_drifts m)

theorem stable_armed (acc : Account) (m : Nat) :
    kernfs.Stable (acc.armed m) :=
  stable_of_drifts (acc.armed_drifts m)

end

/-- A fixed fact is stable. -/
theorem stable_const (fact : Prop) :
    kernfs.recording.Stable fun _ => fact :=
  fun _ _ _ h => h

/-! ## The read -/

/-- The lines before the first line of the key are passed over. -/
theorem findSome?_renders {before : List (List Char)}
    (hbefore : ∀ line ∈ before, OtherLine line) (rest : List Char) :
    (lines (before.flatMap (· ++ ['\n']) ++ rest)).findSome?
        (stripPrefix "populated ".toList) =
      (lines rest).findSome? (stripPrefix "populated ".toList) := by
  induction before with
  | nil => rfl
  | cons line before ih =>
      obtain ⟨hline, hcr, hother⟩ := hbefore line List.mem_cons_self
      have hrest := ih fun l hl => hbefore l (List.mem_cons_of_mem line hl)
      rw [List.flatMap_cons, List.append_assoc, List.append_assoc,
        List.singleton_append, lines_line line _ hline hcr,
        List.findSome?_cons, hother]
      exact hrest

/-- What the kernel writes is what `parse_populated` reads. -/
theorem parsePopulated_renders {populated : Bool} {text : List Char}
    (h : Renders populated text) : parsePopulated text = some populated := by
  obtain ⟨before, after, hbefore, rfl⟩ := h
  have hline : '\n' ∉ "populated ".toList ++ [if populated then '1' else '0'] ∧
      ("populated ".toList ++ [if populated then '1' else '0']).getLast? ≠
        some '\r' := by
    cases populated <;> decide
  rw [parsePopulated, List.flatMap_append, List.flatMap_cons,
    findSome?_renders hbefore, List.append_assoc, List.singleton_append,
    lines_line _ _ hline.1 hline.2, List.findSome?_cons]
  cases populated <;> rfl

/-- What the result of a read says. -/
def ReadSays (acc : Account) (m : Nat) : Except Error Bool → Recorded → Prop
  | .ok true, s => acc.armed m s.1 ∧ Occupied s
  | .ok false, s => Emptied s
  | .error e, _ => Failure e

/-- What is removed is empty. -/
theorem emptied_of_removed {l : Leaf} (h : l.removed = true)
    (past : List Leaf) : Emptied (l.back, l.back :: past) :=
  ⟨l.back, List.mem_cons_self, l.removed_empty h⟩

section

variable {acc : Account} {m : Nat}

theorem readSays_stable (r : Except Error Bool) :
    kernfs.recording.Stable (ReadSays acc m r) := by
  cases r with
  | error e => exact stable_const (Failure e)
  | ok populated =>
      cases populated with
      | false => exact stable_emptied
      | true =>
          exact (stable_armed acc m).recording.and stable_occupied

/-- An error of `seek` or `read` is a failure, or the leaf is gone. -/
theorem drainedOr_says {l : Leaf} {e : IoError}
    (h : removedAfterDrain e = true → l.removed = true) (past : List Leaf) :
    ReadSays acc m (drainedOr e) (l.back, l.back :: past) := by
  unfold drainedOr
  split
  · next hgone => exact emptied_of_removed (h hgone) past
  · next hfail => exact ⟨e, rfl, Bool.eq_false_iff.mpr hfail⟩

/-- The text of an occupied leaf arms the watch. -/
theorem populatedOf_says {l : Leaf} {text : List Char}
    (hpresent : l.removed = false) (htext : Renders l.populated text)
    (hhead : acc.head m l) (past : List Leaf) :
    ReadSays acc m (populatedOf (.ok text))
      (l.tell.back, l.tell.back :: past) := by
  have hparse := parsePopulated_renders htext
  have hread : populatedOf (.ok text) = .ok l.populated := by
    simp only [populatedOf, hparse]
  rw [hread]
  cases hpopulated : l.populated with
  | false =>
      have hempty : l.members = [] := by
        simpa [Leaf.populated] using hpopulated
      exact ⟨l.tell.back, List.mem_cons_self, hempty⟩
  | true =>
      have hmembers : l.members ≠ [] := by
        simpa [Leaf.populated] using hpopulated
      exact ⟨acc.armed_back m _ (acc.tell m l hpresent hhead),
        l.tell.back, List.mem_cons_self, hmembers⟩

/-- What an answer to `read_to_string` makes of the state. -/
theorem readToString_says {l l' : Leaf}
    {text : Except IoError (List Char)}
    (h : l.serves .readToString text l') (hhead : acc.head m l)
    (past : List Leaf) :
    ReadSays acc m (populatedOf text) (l', l' :: past) := by
  cases text with
  | error e =>
      obtain ⟨hgone, rfl⟩ := h
      exact drainedOr_says hgone past
  | ok text =>
      obtain ⟨hpresent, htext, rfl⟩ := h
      exact populatedOf_says hpresent htext hhead past

/-- What is carried from the `seek` to the read. -/
def SeekSays (acc : Account) (m : Nat) : Except IoError Unit → Recorded → Prop
  | .ok (), s => acc.head m s.1
  | .error e, s => ReadSays acc m (drainedOr e) s

theorem seekStart_says {l l' : Leaf} {sought : Except IoError Unit}
    (h : l.serves .seekStart sought l') (hhead : acc.head m l)
    (past : List Leaf) : SeekSays acc m sought (l', l' :: past) := by
  cases sought with
  | error e =>
      obtain ⟨hgone, rfl⟩ := h
      exact drainedOr_says hgone past
  | ok u =>
      obtain rfl : l' = l.back := h
      exact acc.head_back m l hhead

theorem readPopulated_guarantees :
    readPopulated.Guarantees kernfs.recording (fun s => acc.head m s.1)
      (ReadSays acc m) := by
  unfold readPopulated
  refine Prog.Guarantees.query_recorded (SeekSays acc m)
    (stable_head acc m).recording ?_ ?_
  · intro l past sought l' hserves hhead
    exact seekStart_says hserves hhead past
  · intro sought
    cases sought with
    | error e => exact .pure (readSays_stable _) fun _ => id
    | ok u =>
        refine Prog.Guarantees.query_recorded
          (fun text => ReadSays acc m (populatedOf text))
          (stable_head acc m).recording ?_ ?_
        · intro l past text l' hserves hhead
          exact readToString_says hserves hhead past
        · exact fun text => .pure (readSays_stable _) fun _ => id

end

end Cosca.Ports.CgroupDrain
