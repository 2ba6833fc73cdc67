import Cosca.Ports.ReaperWorker
import Cosca.Verified.Interleave

/-!
# The reaper pool

`tokio/child/reaper.rs::{LazyPool::get, Pool::dispatch, submit_to, release}`:
each submitting thread runs `submitTo` for one job.  What it asks is served by
the process it shares with the others: the cell, the init lock, the channels
and the threads that were started on them.  A question that is not served
blocks.

A worker thread receives from its channel and tears the job down as `workOn`
does; where that aborts, the process is gone.
-/

namespace Cosca.Ports.ReaperPool

open Cosca.Ports.Errors
open Cosca.Ports.Identity (RawPid)
open Cosca.Ports.ReaperWorker
open Cosca.Verified.Interact
open Cosca.Verified.Unwind (Ending)

/-! ## The code -/

abbrev ChannelId := Nat

/-- The thread of a worker: the channel it receives from, and its place among
those that were started on it. -/
structure WorkerId where
  channel : ChannelId
  index : Nat
  deriving DecidableEq, Repr

inductive PoolCall where
  /-- `cell.get()`: the channel of the pool. -/
  | cellGet
  /-- `init.lock()`. -/
  | lockInit
  /-- `drop(guard)`. -/
  | dropGuard
  /-- `crossbeam_channel::unbounded`. -/
  | channel
  /-- `Builder::spawn` of `work` on a clone of the receiver. -/
  | spawn (rx : ChannelId)
  /-- `cell.set(Pool { tx })`. -/
  | cellSet (tx : ChannelId)
  /-- The drop of the receiver of the init attempt. -/
  | dropRx (rx : ChannelId)
  /-- The drop of the sender. -/
  | dropTx (tx : ChannelId)
  | join (worker : WorkerId)
  /-- `tx.len()`. -/
  | len (tx : ChannelId)
  /-- `tx.send(job)` of the job in hand. -/
  | send (tx : ChannelId)
  /-- `drop(job.os)` of the job in hand. -/
  | dropOs
  | log (line : LogLine)
  | debugAssert (text : String)
  deriving DecidableEq

abbrev PoolCall.Reply : PoolCall → Type
  | .cellGet => Option ChannelId
  | .channel => ChannelId
  | .spawn _ => Except IoError WorkerId
  | .cellSet _ => Except Unit Unit
  | .len _ => Nat
  | .send _ => Except Unit Unit
  | _ => Unit

/-- What a submitting thread runs. -/
abbrev Submitting := Prog PoolCall PoolCall.Reply

abbrev ask (q : PoolCall) : Submitting q.Reply :=
  query q

/-- `REAPER_POOL_THREADS`. -/
def reaperPoolThreads : Nat := 2

/-- What the critical section hands out. -/
structure Attempt where
  abandoned : List WorkerId
  failures : List IoError
  published : Bool
  deriving DecidableEq, Repr

/-- The spawn loop: how many workers started, and `abandoned` and `failures`. -/
structure Spawns where
  started : Nat
  abandoned : List WorkerId
  failures : List IoError
  deriving DecidableEq, Repr

/-- One turn of the spawn loop, by how the spawn went. -/
def Spawns.turn (s : Spawns) : Except IoError WorkerId → Spawns
  | .ok handle => { s with
      started := s.started + 1
      abandoned := s.abandoned ++ [handle] }
  | .error e => { s with failures := s.failures ++ [e] }

def spawnWorker (rx : ChannelId) (s : Spawns) : Submitting Spawns := do
  let spawned ← ask (.spawn rx)
  return s.turn spawned

/-- The end of an init attempt whose pool is not published: both ends drop. -/
def abandon (channel : ChannelId) (s : Spawns) : Submitting Attempt := do
  ask (.dropRx channel)
  ask (.dropTx channel)
  return ⟨s.abandoned, s.failures, false⟩

/-- The publication predicate. -/
def publish (bound : Nat) (channel : ChannelId) (s : Spawns) :
    Submitting Attempt :=
  if s.started = bound then do
    match ← ask (.cellSet channel) with
    | .ok () => do
        ask (.dropRx channel)
        return ⟨[], s.failures, true⟩
    | .error () => do
        ask (.debugAssert
          "the reaper cell was set past its own in-lock re-check")
        ask (.dropTx channel)
        ask (.dropRx channel)
        return ⟨s.abandoned, s.failures, false⟩
  else
    abandon channel s

/-- What is done under the lock. -/
def initSection (bound : Nat) : Submitting Attempt := do
  match ← ask .cellGet with
  | some _ => return ⟨[], [], false⟩
  | none => do
      let channel ← ask .channel
      let s ← (List.range bound).foldlM (fun s _ => spawnWorker channel s)
        ⟨0, [], []⟩
      publish bound channel s

def spawnFailed (e : IoError) : LogLine :=
  ⟨.error, "starting a reaper thread failed: ", some e⟩

def poolStarted (bound : Nat) : LogLine :=
  ⟨.debug, s!"reaper pool started ({bound} threads)", none⟩

def reportStart (bound : Nat) (published : Bool) : Submitting Unit :=
  if published then ask (.log (poolStarted bound)) else return ()

/-- `LazyPool::get` past the fast path. -/
def getSlow (bound : Nat) : Submitting (Option ChannelId) := do
  ask .lockInit
  let attempt ← initSection bound
  ask .dropGuard
  attempt.abandoned.forM fun handle => ask (.join handle)
  attempt.failures.forM fun e => ask (.log (spawnFailed e))
  reportStart bound attempt.published
  ask .cellGet

/-- `LazyPool::get`. -/
def get (bound : Nat) : Submitting (Option ChannelId) := do
  match ← ask .cellGet with
  | some pool => return some pool
  | none => getSlow bound

def noReaper (pid : RawPid) : LogLine :=
  ⟨.error, s!"no reaper thread is available; child {pid} is left to the runtime's orphan handling (it is already signalled)",
    none⟩

/-- `release`. -/
def release (pid : RawPid) : Submitting Unit := do
  ask (.log (noReaper pid))
  ask .dropOs

def queuedBehind (pid : RawPid) (backlog : Nat) : LogLine :=
  ⟨.debug, s!"child {pid} queued behind {backlog} reaps (pool width {reaperPoolThreads})",
    none⟩

def reportBacklog (pid : RawPid) (backlog : Nat) : Submitting Unit :=
  if backlog > 0 then ask (.log (queuedBehind pid backlog)) else return ()

/-- `Pool::dispatch`. -/
def dispatch (tx : ChannelId) (pid : RawPid) : Submitting Unit := do
  let backlog ← ask (.len tx)
  reportBacklog pid backlog
  match ← ask (.send tx) with
  | .ok () => return ()
  | .error () => do
      release pid
      ask (.debugAssert "a published reaper pool's channel cannot disconnect")

/-- `submit_to`. -/
def submitTo (bound : Nat) (pid : RawPid) : Submitting Unit := do
  match ← get bound with
  | some pool => dispatch pool pid
  | none => release pid

/-! ## The process -/

/-- What a worker thread is doing. -/
inductive Worker (C : Type) where
  | receiving
  | tearingDown (job : C)
  | exited
  deriving DecidableEq

/-- A channel: whether its sender and the receiver of its init attempt are
still there, the jobs in it, and the workers that were started on it.  Jobs are
named by the callers that submit them. -/
structure Channel (C : Type) where
  creator : C
  sender : Bool
  receiver : Bool
  queue : List C
  workers : List (Worker C)

/-- The state that the callers `C` share, with what was done so far: the pools
that were published, what the cell held when a caller left the critical
section, the jobs that were sent, received and released, and the debug
assertions that failed. -/
structure Host (C : Type) where
  cell : Option ChannelId
  holder : Option C
  chan : ChannelId → Option (Channel C)
  published : List ChannelId
  left : List (C × Option ChannelId)
  queued : List (C × ChannelId)
  received : List C
  released : List C
  asserted : List String

section

variable {C : Type}

def Channel.new (creator : C) : Channel C :=
  ⟨creator, true, true, [], []⟩

/-- Somebody can still receive. -/
def Channel.Connected (x : Channel C) : Prop :=
  x.receiver = true ∨ ∃ w ∈ x.workers, w ≠ .exited

def Channel.setWorker (x : Channel C) (i : Nat) (w : Worker C) : Channel C :=
  { x with workers := x.workers.set i w }

/-- A process without a pool. -/
def Host.new : Host C :=
  ⟨none, none, fun _ => none, [], [], [], [], [], []⟩

def Host.put (k : Host C) (ch : ChannelId) (x : Channel C) : Host C :=
  { k with chan := fun i => if i = ch then some x else k.chan i }

/-- A drop of one end of a channel. -/
def Host.modify (k : Host C) (ch : ChannelId) (f : Channel C → Channel C) :
    Host C :=
  match k.chan ch with
  | none => k
  | some x => k.put ch (f x)

/-- The worker's thread has ended. -/
def Host.HasExited (k : Host C) (worker : WorkerId) : Prop :=
  ∃ x, k.chan worker.channel = some x ∧
    x.workers[worker.index]? = some .exited

/-- How the calls of the caller `c` are served. -/
def Host.serves (c : C) (k : Host C) : (q : PoolCall) → q.Reply → Host C → Prop
  | .cellGet, pool, k' => pool = k.cell ∧ k' = k
  | .lockInit, _, k' => k.holder = none ∧ k' = { k with holder := some c }
  | .dropGuard, _, k' =>
      k' = { k with holder := none, left := k.left ++ [(c, k.cell)] }
  | .channel, ch, k' => k.chan ch = none ∧ k' = k.put ch (.new c)
  | .spawn rx, .ok worker, k' => ∃ x, k.chan rx = some x ∧
      worker = ⟨rx, x.workers.length⟩ ∧
      k' = k.put rx { x with workers := x.workers ++ [.receiving] }
  | .spawn _, .error _, k' => k' = k
  | .cellSet tx, .ok (), k' => k.cell = none ∧
      k' = { k with cell := some tx, published := k.published ++ [tx] }
  | .cellSet _, .error (), k' => k.cell ≠ none ∧ k' = k
  | .dropRx rx, _, k' => k' = k.modify rx fun x => { x with receiver := false }
  | .dropTx tx, _, k' => k' = k.modify tx fun x => { x with sender := false }
  | .join worker, _, k' => k.HasExited worker ∧ k' = k
  | .len tx, n, k' => (∃ x, k.chan tx = some x ∧ n = x.queue.length) ∧ k' = k
  | .send tx, .ok (), k' => ∃ x, k.chan tx = some x ∧ x.Connected ∧
      k' = { k.put tx { x with queue := x.queue ++ [c] } with
        queued := k.queued ++ [(c, tx)] }
  | .send tx, .error (), k' =>
      (∃ x, k.chan tx = some x ∧ ¬ x.Connected) ∧ k' = k
  | .dropOs, _, k' => k' = { k with released := k.released ++ [c] }
  | .log _, _, k' => k' = k
  | .debugAssert text, _, k' =>
      k' = { k with asserted := k.asserted ++ [text] }

end

section

variable {ρ ι : Type}

/-- The steps of the worker threads, on the jobs `job`. -/
inductive Host.Moves (job : ι → ReapJob ρ) : Host ι → Host ι → Prop where
  | recv {k : Host ι} {ch : ChannelId} {x : Channel ι} {i : Nat} {c : ι}
      {rest : List ι} (hchan : k.chan ch = some x)
      (hworker : x.workers[i]? = some .receiving)
      (hqueue : x.queue = c :: rest) :
      Moves job k { k.put ch ({ x with queue := rest }.setWorker i
        (.tearingDown c)) with received := k.received ++ [c] }
  | tornDown {k : Host ι} {ch : ChannelId} {x : Channel ι} {i : Nat} {c : ι}
      (hchan : k.chan ch = some x)
      (hworker : x.workers[i]? = some (.tearingDown c))
      (panics : Placement ρ)
      (hend : (workOn panics (job c)).ending = .returned ()) :
      Moves job k (k.put ch (x.setWorker i .receiving))
  | unwound {k : Host ι} {ch : ChannelId} {x : Channel ι} {i : Nat} {c : ι}
      (hchan : k.chan ch = some x)
      (hworker : x.workers[i]? = some (.tearingDown c))
      (panics : Placement ρ)
      (hend : (workOn panics (job c)).ending = .unwinding) :
      Moves job k (k.put ch (x.setWorker i .exited))
  | disconnected {k : Host ι} {ch : ChannelId} {x : Channel ι} {i : Nat}
      (hchan : k.chan ch = some x)
      (hworker : x.workers[i]? = some .receiving) (hqueue : x.queue = [])
      (hsender : x.sender = false) :
      Moves job k (k.put ch (x.setWorker i .exited))

/-- The threads that submit the jobs `job`, one each, to one lazy pool.  What
a thread submits after another job is a caller that starts later. -/
def submitting (bound : Nat) (job : ι → ReapJob ρ) :
    System ι PoolCall.Reply (Host ι) fun _ => Unit where
  serves := Host.serves
  moves := Host.Moves job
  body := fun c => submitTo bound (job c).pid

end

end Cosca.Ports.ReaperPool
