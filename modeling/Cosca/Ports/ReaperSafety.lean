import Cosca.Ports.ReaperProgress

/-!
# The reaper is safe

What is claimed of the pool holds in every reachable configuration, and what is
claimed of a worker for any jobs and panics that its teardowns survive.

## Main results

* `reaper_safe_iff`: for any callers and any interleaving, at most one pool is
  published, with all its workers, an abandoned attempt leaves the cell empty
  and its workers exit, every job is queued or released once, and every submit
  can finish; and a worker reaps every job if and only if no job has two panics
  in its release region.
-/

namespace Cosca.Ports.ReaperPool

open Relation (ReflTransGen)

open Cosca.Ports.Errors
open Cosca.Ports.ReaperWorker
open Cosca.Verified.Interact

variable {ρ ι : Type} [DecidableEq ι] {bound : Nat} {job : ι → ReapJob ρ}

/-- What is claimed of the pool, of a configuration. -/
structure PoolSafe (bound : Nat) (job : ι → ReapJob ρ)
    (cfg : Config ι PoolCall.Reply (Host ι) fun _ => Unit) : Prop where
  published_once : cfg.shared.published.length ≤ 1
  /-- A pool is published with all its workers, and keeps them. -/
  published_full : ∀ ch ∈ cfg.shared.published, ∃ x,
    cfg.shared.chan ch = some x ∧ x.workers.length = bound ∧
      ∀ w ∈ x.workers, w ≠ .exited
  /-- Whoever left the critical section without publishing its channel left
  the cell empty. -/
  abandoned_empty : ∀ ch x cell, cfg.shared.chan ch = some x →
    (x.creator, cell) ∈ cfg.shared.left → ch ∉ cfg.shared.published →
      cell = none
  /-- Nothing keeps the workers of an abandoned attempt from exiting. -/
  abandoned_exits : ∀ ch x cell i, cfg.shared.chan ch = some x →
    (x.creator, cell) ∈ cfg.shared.left → ch ∉ cfg.shared.published →
      i < x.workers.length → cfg.shared.HasExited ⟨ch, i⟩ ∨
        ∃ k', Host.Moves job cfg.shared k' ∧ k'.HasExited ⟨ch, i⟩
  /-- They have exited when the submit that abandoned it returns. -/
  abandoned_joined : ∀ c start, cfg.calls c = .finished start () →
    ∀ ch x i, cfg.shared.chan ch = some x → x.creator = c →
      ch ∉ cfg.shared.published → i < x.workers.length →
        cfg.shared.HasExited ⟨ch, i⟩
  queued_published : ∀ c ch, (c, ch) ∈ cfg.shared.queued →
    ch ∈ cfg.shared.published
  /-- The jobs that were queued were received or are in the queue. -/
  received_inOrder : ∀ ch ∈ cfg.shared.published, ∀ x,
    cfg.shared.chan ch = some x →
      cfg.shared.received ++ x.queue = cfg.shared.queued.map Prod.fst
  handled_at_most_once : ∀ c, cfg.shared.handled c ≤ 1
  handled_once : ∀ c start, cfg.calls c = .finished start () →
    cfg.shared.handled c = 1
  asserted : cfg.shared.asserted = []
  /-- No submit is stuck, or ever will be: there is a run from here in which it
  finishes. -/
  finishes : ∀ c, ∃ cfg' start,
    ReflTransGen ((submitting bound job).Step fun _ _ => True) cfg cfg' ∧
      cfg'.calls c = .finished start ()

theorem Inv.mem_published {k : Host ι} (hinv : Inv bound k) {ch : ChannelId} :
    ch ∈ k.published ↔ k.cell = some ch := by
  rw [hinv.published, Option.mem_toList]

theorem Reached.poolSafe (hbound : 0 < bound)
    {cfg : Config ι PoolCall.Reply (Host ι) fun _ => Unit}
    (hreach : Reached bound job cfg) : PoolSafe bound job cfg := by
  have houtlined := hreach.outlined hbound
  have hinv : Inv bound cfg.shared := houtlined.inv
  have hdone : ∀ c start, cfg.calls c = .finished start () →
      Waiting c 1 [] cfg.shared := by
    intro c start hcall
    have hstands := houtlined.stands c
    rw [hcall] at hstands
    exact hstands
  have hleft : ∀ ch x cell, cfg.shared.chan ch = some x →
      (x.creator, cell) ∈ cfg.shared.left → ch ∉ cfg.shared.published →
        cell = none ∧ x.sender = false := by
    intro ch x cell hchan hleft hpublished
    cases hinv.left ch x cell hchan hleft with
    | inl hcell => exact absurd (hinv.mem_published.mpr hcell) hpublished
    | inr h => exact h
  refine
    { published_once := ?_
      published_full := ?_
      abandoned_empty := fun ch x cell hchan hl hp =>
        (hleft ch x cell hchan hl hp).1
      abandoned_exits := ?_
      abandoned_joined := ?_
      queued_published := fun c ch h =>
        hinv.mem_published.mpr (hinv.queued c ch h)
      received_inOrder := fun ch h x hchan =>
        hinv.inOrder ch x (hinv.mem_published.mp h) hchan
      handled_at_most_once := hinv.once
      handled_once := fun c start hcall => (hdone c start hcall).handled
      asserted := hinv.asserted
      finishes := hreach.finishes hbound }
  · rw [hinv.published]
    exact Option.length_toList_le
  · intro ch hpublished
    have hcell := hinv.mem_published.mp hpublished
    obtain ⟨x, hchan, hsender, hlength⟩ := hinv.full ch hcell
    exact ⟨x, hchan, hlength, hinv.alive ch x hchan hsender⟩
  · intro ch x cell i hchan hl hp hi
    exact hinv.can_exit hchan (hleft ch x cell hchan hl hp).2 hi
  · intro c start hcall ch x i hchan hc hp hi
    cases (hdone c start hcall).own ch x hchan hc with
    | inl hcell => exact absurd (hinv.mem_published.mpr hcell) hp
    | inr hworkers =>
        cases hworkers i hi with
        | inl h => exact absurd h List.not_mem_nil
        | inr h => exact ⟨x, hchan, h⟩

/-- The pool is safe in every run; a worker reaps every job it receives if and
only if none of them has two panics in its release region. -/
theorem reaper_safe_iff {ρ ι : Type} [DecidableEq ι] (bound : Nat)
    (hbound : 0 < bound) (job : ι → ReapJob ρ)
    (cfg : Config ι PoolCall.Reply (Host ι) fun _ => Unit)
    (hreach : Reached bound job cfg)
    (received : List (ReapJob ρ × Placement ρ)) :
    PoolSafe bound job cfg ∧
      (Reaps received ↔ ∀ r ∈ received, ¬ Fatal r.2 r.1) :=
  ⟨hreach.poolSafe hbound, work_reaps_iff received⟩

/-- A child with a job object and a pipe at descriptor 3. -/
def sampleJob : ReapJob Nat :=
  ⟨⟨some 0, 1, [(⟨3⟩, 2)], []⟩, 42⟩

/-- The wait panics, and nothing else does. -/
def waitPanicking : Placement Nat
  | .waitAndReap .. => true
  | _ => false

/-- Two callers, for a pool of two workers. -/
abbrev sampling : System Bool PoolCall.Reply (Host Bool) fun _ => Unit :=
  submitting 2 fun _ => sampleJob

/-- A caller whose second worker does not start: it joins the first one, which
exits, and releases its job. -/
theorem submit_fails :
    ∃ k, (submitTo 2 42).RunsOn (sampling.alone false) Host.new () k ∧
      k.cell = none ∧ k.holder = none ∧ k.chan 1 = none ∧ k.queued = [] ∧
        k.released = [false] := by
  let alone := sampling.alone false
  have hget : ∀ k : Host Bool, alone.serves k .cellGet k.cell k :=
    fun k => ⟨rfl, rfl⟩
  let locked : Host Bool := { Host.new with holder := some false }
  have hlock : alone.serves Host.new .lockInit () locked := ⟨rfl, rfl⟩
  let opened := locked.put 0 (.new false)
  have hchannel : alone.serves locked .channel (0 : Nat) opened := ⟨rfl, rfl⟩
  let spawned := opened.put 0 ⟨false, true, true, [], [.receiving]⟩
  have hspawn : alone.serves opened (.spawn 0) (.ok ⟨0, 0⟩) spawned :=
    ⟨.new false, rfl, rfl, rfl⟩
  have hfailed : alone.serves spawned (.spawn 0) (.error (.other "")) spawned :=
    rfl
  let deaf := spawned.put 0 ⟨false, true, false, [], [.receiving]⟩
  have hrx : alone.serves spawned (.dropRx 0) () deaf := rfl
  let closed := deaf.put 0 ⟨false, false, false, [], [.receiving]⟩
  have htx : alone.serves deaf (.dropTx 0) () closed := rfl
  let left : Host Bool := { closed with holder := none, left := [(false, none)] }
  have hunlock : alone.serves closed .dropGuard () left := rfl
  let exited := left.put 0 ⟨false, false, false, [], [.exited]⟩
  have hexit : alone.moves left exited := by
    let queue : Channel Bool := ⟨false, false, false, [], [.receiving]⟩
    have hchan : left.chan 0 = some queue := rfl
    have hworker : queue.workers[0]? = some .receiving := rfl
    exact Host.Moves.disconnected hchan hworker rfl rfl
  have hjoin : alone.serves exited (.join ⟨0, 0⟩) () exited :=
    ⟨⟨_, rfl, rfl⟩, rfl⟩
  have hlog : ∀ (k : Host Bool) (line : LogLine),
      alone.serves k (.log line) () k := fun k line => rfl
  let released : Host Bool := { exited with released := [false] }
  have hdrop : alone.serves exited .dropOs () released := rfl
  refine ⟨released, ?_, rfl, rfl, rfl, rfl, rfl⟩
  refine Prog.RunsOn.ask none (hget Host.new) ?_
  refine Prog.RunsOn.ask () hlock ?_
  refine Prog.RunsOn.ask none (hget locked) ?_
  refine Prog.RunsOn.ask (0 : Nat) hchannel ?_
  refine Prog.RunsOn.ask (.ok ⟨0, 0⟩) hspawn ?_
  refine Prog.RunsOn.ask (.error (.other "")) hfailed ?_
  refine Prog.RunsOn.ask () hrx ?_
  refine Prog.RunsOn.ask () htx ?_
  refine Prog.RunsOn.ask () hunlock ?_
  refine Prog.RunsOn.move hexit ?_
  refine Prog.RunsOn.ask () hjoin ?_
  refine Prog.RunsOn.ask () (hlog exited (spawnFailed (.other ""))) ?_
  refine Prog.RunsOn.ask none (hget exited) ?_
  refine Prog.RunsOn.ask () (hlog exited (noReaper 42)) ?_
  refine Prog.RunsOn.ask () hdrop ?_
  exact .done _ _

/-- A caller after it that publishes a pool and queues its job. -/
theorem submit_publishes {k : Host Bool} (hcell : k.cell = none)
    (hholder : k.holder = none) (hchan : k.chan 1 = none) :
    ∃ k', (submitTo 2 42).RunsOn (sampling.alone true) k () k' ∧
      k'.queued = k.queued ++ [(true, 1)] ∧ k'.released = k.released := by
  let alone := sampling.alone true
  have hempty : alone.serves k .cellGet none k := ⟨hcell.symm, rfl⟩
  let locked : Host Bool := { k with holder := some true }
  have hlock : alone.serves k .lockInit () locked := ⟨hholder, rfl⟩
  have hrecheck : alone.serves locked .cellGet none locked := ⟨hcell.symm, rfl⟩
  let opened := locked.put 1 (.new true)
  have hchannel : alone.serves locked .channel (1 : Nat) opened :=
    ⟨hchan, rfl⟩
  let first := opened.put 1 ⟨true, true, true, [], [.receiving]⟩
  have hfirst : alone.serves opened (.spawn 1) (.ok ⟨1, 0⟩) first :=
    ⟨.new true, rfl, rfl, rfl⟩
  let second := first.put 1 ⟨true, true, true, [], [.receiving, .receiving]⟩
  have hsecond : alone.serves first (.spawn 1) (.ok ⟨1, 1⟩) second :=
    ⟨_, rfl, rfl, rfl⟩
  let published : Host Bool :=
    { second with cell := some 1, published := k.published ++ [1] }
  have hset : alone.serves second (.cellSet 1) (.ok ()) published :=
    ⟨hcell, rfl⟩
  let deaf := published.put 1 ⟨true, true, false, [], [.receiving, .receiving]⟩
  have hrx : alone.serves published (.dropRx 1) () deaf := rfl
  let left : Host Bool :=
    { deaf with holder := none, left := k.left ++ [(true, some 1)] }
  have hunlock : alone.serves deaf .dropGuard () left := rfl
  have hlog : alone.serves left (.log (poolStarted 2)) () left := rfl
  have hget : alone.serves left .cellGet (some 1) left := ⟨rfl, rfl⟩
  have hlen : alone.serves left (.len 1) (0 : Nat) left := ⟨⟨_, rfl, rfl⟩, rfl⟩
  let sent : Host Bool :=
    { left.put 1 ⟨true, true, false, [true], [.receiving, .receiving]⟩ with
      queued := k.queued ++ [(true, 1)] }
  have hsend : alone.serves left (.send 1) (.ok ()) sent :=
    ⟨_, rfl, Or.inr ⟨.receiving, by simp, nofun⟩, rfl⟩
  refine ⟨sent, ?_, rfl, rfl⟩
  refine Prog.RunsOn.ask none hempty ?_
  refine Prog.RunsOn.ask () hlock ?_
  refine Prog.RunsOn.ask none hrecheck ?_
  refine Prog.RunsOn.ask (1 : Nat) hchannel ?_
  refine Prog.RunsOn.ask (.ok ⟨1, 0⟩) hfirst ?_
  refine Prog.RunsOn.ask (.ok ⟨1, 1⟩) hsecond ?_
  refine Prog.RunsOn.ask (.ok ()) hset ?_
  refine Prog.RunsOn.ask () hrx ?_
  refine Prog.RunsOn.ask () hunlock ?_
  refine Prog.RunsOn.ask () hlog ?_
  refine Prog.RunsOn.ask (some 1) hget ?_
  refine Prog.RunsOn.ask (0 : Nat) hlen ?_
  refine Prog.RunsOn.ask (.ok ()) hsend ?_
  exact .done _ _

/-- One caller finds no second thread and releases its job; the next one
publishes a pool and queues its job, and a worker reaps it though the wait
panics. -/
theorem reaper_safe_iff_published :
    ∃ cfg : Config Bool PoolCall.Reply (Host Bool) fun _ => Unit,
      cfg.shared.released = [false] ∧ cfg.shared.queued = [(true, 1)] ∧
        PoolSafe 2 (fun _ => sampleJob) cfg ∧
          Reaps [(sampleJob, waitPanicking)] := by
  obtain ⟨k₁, hfirst, hcell, hholder, hchan, hqueued, hreleased⟩ :=
    submit_fails
  obtain ⟨k₂, hsecond, hqueued', hreleased'⟩ :=
    submit_publishes hcell hholder hchan
  have hstart : Reached 2 (fun _ : Bool => sampleJob)
      (Config.initial Host.new) := .initial
  obtain ⟨cfg₁, hreach₁, hshared₁, _, hothers⟩ :=
    System.Reachable.run hstart rfl trivial hfirst
  have hidle : cfg₁.calls true = .idle := hothers true (by decide)
  rw [← hshared₁] at hsecond
  obtain ⟨cfg₂, hreach₂, hshared₂, _, _⟩ :=
    System.Reachable.run hreach₁ hidle trivial hsecond
  have hsafe := reaper_safe_iff 2 Nat.two_pos (fun _ : Bool => sampleJob)
    cfg₂ hreach₂ [(sampleJob, waitPanicking)]
  refine ⟨cfg₂, ?_, ?_, hsafe.1, hsafe.2.mpr ?_⟩
  · rw [hshared₂, hreleased', hreleased]
  · rw [hshared₂, hqueued', hqueued]
    rfl
  · intro r hr
    rw [List.mem_singleton.mp hr]
    decide

/-- The logger panics, the wait panics, and closing the job object fails, which
its drop logs. -/
def loggerPanics : Placement Nat
  | .waitAndReap .. => true
  | .log _ => true
  | .debugAssert _ => true
  | .release r => r == 1

/-- The line about the wait unwinds with the resources in hand; the drop of the
job object panics while it does. -/
theorem reaper_aborts : ¬ Reaps [(sampleJob, loggerPanics)] := by
  intro h
  have haborts : (work [(sampleJob, loggerPanics)]).ending = .aborted := by
    decide
  have hreceiving := h.receiving
  rw [haborts] at hreceiving
  exact nomatch hreceiving

end Cosca.Ports.ReaperPool
