import Cosca.Ports.JobOperations

/-!
# The life of a job handle

The operations on a shared `JobHandle` and its drop, by any number of threads.

## Main results

* `sharing_lifetime`: over every interleaving of any number of operations and
  the drop, with handle values given out again at once: no call is made on a
  handle that is not open, the job is terminated and its handle closed at most
  once, after the drop exactly once, and whoever comes after a take finds it
  consumed.
-/

namespace Cosca.Ports.JobLifetime

open Cosca.Ports.JobDrain
open Cosca.Ports.JobHandle
open Cosca.Ports.JobOwnership
open Cosca.Verified.Interact

/-! ## The life of the object -/

section

variable {ι : Type} {ops : ι → Op} {job : Handle}

/-- What an operation returns that finds the handle consumed; the drop returns
nothing anyway. -/
def consumed (ops : ι → Op) : (c : Caller ι) → Result ops c
  | some i => (ops i).consumed
  | none => ()

/-- The discipline of a shared `JobHandle`. -/
def discipline (job : Handle) (ops : ι → Op) : Discipline (sharing ops) where
  inv := Inv job
  guar := fun c => Guar job (some c)
  ready := fun _ _ _ => True
  before := fun c => Holding job c []
  post := fun c start r k =>
    ((start.raw = none → r = consumed ops c) ∧ Holding job c [] k) ∧
      (c = none → k.raw = none)

theorem discipline_kept : (discipline job ops).Kept where
  moves := fun k k' hmove hinv => (hinv.moves hmove).1
  before := fun c => stable_holding
  post := by
    intro c start r
    have hends : (role job c).env.Stable (Ended job c start (consumed ops c) r) :=
      fun k k' hmove hk => ⟨hk.1, stable_holding k k' hmove hk.2⟩
    exact hends.and (stable_consumed.imp _)
  body := by
    intro c start hinv hbefore
    refine ⟨Begun job c start, ⟨fun h => h, hbefore⟩, ?_⟩
    cases c with
    | some i =>
        have hbody : (ops i).body.Abides (role job (some i))
            (Begun job (some i) start)
            (Ended job (some i) start (ops i).consumed) := body_abides (ops i)
        apply hbody.weaken
        exact fun r k _ hk => ⟨hk, by simp⟩
    | none =>
        have hdrop : drop.Abides (role job (none : Caller ι))
            (Begun job none start)
            fun _ k => k.raw = none ∧ Holding job none [] k := drop_abides
        apply hdrop.weaken
        exact fun r k _ hk => ⟨⟨fun _ => rfl, hk.2⟩, fun _ => hk.1⟩

/-- The handle a `JobHandle` is created with. -/
def jobOf (value : Nat) : Handle :=
  ⟨value, 0⟩

theorem new_inv {C : Type} (value : Nat) :
    Inv (jobOf value) (Host.new value : Host C) where
  known := by
    intro v i hi
    have hi : (if v = value then some 0 else none) = some i := hi
    by_cases heq : v = value
    · rw [if_pos heq] at hi
      rw [← Option.some.inj hi]
      exact Nat.zero_lt_one
    · rw [if_neg heq] at hi
      cases hi
  unowned := by
    intro i hi
    have hi : 1 ≤ i := hi
    exact if_neg (by omega)
  job_known := Nat.zero_lt_one
  live := fun m hm => absurd hm List.not_mem_nil
  taken := fun m hm => absurd hm List.not_mem_nil
  terminated := Nat.zero_le 1
  life := by
    show Life (jobOf value) (Host.new value : Host C)
      (if 0 = 0 then .jobHandle else .nobody)
    exact ⟨rfl, if_pos rfl, rfl, rfl, rfl⟩

/-- A call that is not running has nothing in hand. -/
theorem holding_of_not_running {value : Nat} {c : Caller ι}
    {status : Status Answer (Host (Caller ι)) (Result ops c)}
    {k : Host (Caller ι)}
    (hstands : (discipline (jobOf value) ops).Stands c k status)
    (hnot : ¬ status.isRunning) : Holding (jobOf value) c [] k := by
  cases status with
  | idle => exact hstands
  | running start rest => exact absurd trivial hnot
  | finished start r => exact hstands.1.2

/-- The reachable configurations of a `JobHandle`. -/
abbrev Reached [DecidableEq ι] (value : Nat) (ops : ι → Op)
    (cfg : Config (Caller ι) Answer (Host (Caller ι)) (Result ops)) : Prop :=
  (sharing ops).Reachable mayStart (Host.new value) cfg

section

variable [DecidableEq ι] {value : Nat}
  {cfg : Config (Caller ι) Answer (Host (Caller ι)) (Result ops)}

theorem Reached.outlined (hreach : Reached value ops cfg) :
    (discipline (jobOf value) ops).Outlined cfg := by
  apply System.Reachable.outlined discipline_kept (new_inv value) _ hreach
  intro c
  exact holding_nil (by
    show (if 0 = 0 then Owner.jobHandle else .nobody) ≠ _
    exact nofun)

/-- Once the drop has begun nothing else runs. -/
theorem Reached.drop_alone (hreach : Reached value ops cfg) :
    (cfg.calls none).isStarted → ∀ i, ¬ (cfg.calls (some i)).isRunning := by
  induction hreach with
  | initial => exact fun h => h.elim
  | @step cfg cfg' hreach hstep ih =>
      cases hstep with
      | outside hmove => exact ih
      | start c hidle hmay =>
          cases c with
          | none =>
              intro _ i
              rw [Config.update_of_ne cfg _ _ (by simp)]
              exact hmay i
          | some i =>
              rw [Config.update_of_ne cfg _ _ (by simp)]
              exact fun h => absurd h hmay
      | act c hcall a hserves =>
          cases c with
          | none =>
              intro _ i
              rw [Config.update_of_ne cfg _ _ (by simp)]
              apply ih
              rw [hcall]
              trivial
          | some i =>
              rw [Config.update_of_ne cfg _ _ (by simp)]
              intro hstarted
              have hidle := ih hstarted i
              rw [hcall] at hidle
              exact absurd trivial hidle
      | finish c hcall =>
          cases c with
          | none =>
              intro _ i
              rw [Config.update_of_ne cfg _ _ (by simp)]
              apply ih
              rw [hcall]
              trivial
          | some i =>
              rw [Config.update_of_ne cfg _ _ (by simp)]
              intro hstarted
              have hidle := ih hstarted i
              rw [hcall] at hidle
              exact absurd trivial hidle

/-- The job's handle has been closed once the object is dropped. -/
theorem Reached.closed (hreach : Reached value ops cfg)
    {start : Host (Caller ι)} (hdrop : cfg.calls none = .finished start ()) :
    count (closes (jobOf value)) cfg.shared = 1 := by
  have houtlined := hreach.outlined
  have halone := hreach.drop_alone
  have hstands := houtlined.stands none
  rw [hdrop] at halone hstands
  have hraw : cfg.shared.raw = none := hstands.2 rfl
  have hnot : ∀ c, cfg.shared.owner (jobOf value).opened ≠ .caller c := by
    intro c
    cases c with
    | none => exact hstands.1.2.not_taker
    | some i =>
        exact (holding_of_not_running (houtlined.stands (some i))
          (halone trivial i)).not_taker
  have hlife := houtlined.inv.life
  cases howner : cfg.shared.owner (jobOf value).opened with
  | jobHandle =>
      rw [howner] at hlife
      rw [hlife.1] at hraw
      cases hraw
  | caller c => exact absurd howner (hnot c)
  | others =>
      rw [howner] at hlife
      exact hlife.elim
  | nobody =>
      rw [howner] at hlife
      exact hlife.2

theorem Inv.closed_le {C : Type} {job : Handle} {k : Host C}
    (hinv : Inv job k) : count (closes job) k ≤ 1 := by
  have hlife := hinv.life
  cases howner : k.owner job.opened with
  | jobHandle =>
      rw [howner] at hlife
      rw [hlife.2.2.2.1]
      exact Nat.zero_le 1
  | caller c =>
      rw [howner] at hlife
      rw [hlife.2.2.2]
      exact Nat.zero_le 1
  | others =>
      rw [howner] at hlife
      exact hlife.elim
  | nobody =>
      rw [howner] at hlife
      exact Nat.le_of_eq hlife.2

end

/-- The life of a job handle in one configuration. -/
structure Lifetime (job : Handle) (ops : ι → Op)
    (cfg : Config (Caller ι) Answer (Host (Caller ι)) (Result ops)) :
    Prop where
  /-- Every call was made on handles that were open. -/
  live : ∀ m ∈ cfg.shared.made, m.live = true
  closed_at_most_once : count (closes job) cfg.shared ≤ 1
  closed_once : ∀ start, cfg.calls none = .finished start () →
    count (closes job) cfg.shared = 1
  terminated_at_most_once : count terminates cfg.shared ≤ 1
  /-- After the take, calls on the job's handle come from the taker only. -/
  taken : ∀ m ∈ cfg.shared.made, m.taken = true → job ∈ m.call.handles →
    cfg.shared.taker = some m.caller
  /-- An operation that began after the take has the answer for that. -/
  consumed : ∀ i start r, cfg.calls (some i) = .finished start r →
    start.raw = none → r = (ops i).consumed

/-- For any number of callers that share a `JobHandle`, whatever each of them
does and however their sections and calls interleave with each other and with
other code that is given the closed handle values at once, up to and beyond the
drop. -/
theorem sharing_lifetime {ι : Type} [DecidableEq ι] (value : Nat)
    (ops : ι → Op)
    (cfg : Config (Caller ι) Answer (Host (Caller ι)) (Result ops))
    (hreach : Reached value ops cfg) : Lifetime (jobOf value) ops cfg where
  live := hreach.outlined.inv.live
  closed_at_most_once := Inv.closed_le hreach.outlined.inv
  closed_once := fun _ hdrop => hreach.closed hdrop
  terminated_at_most_once := hreach.outlined.inv.terminated
  taken := hreach.outlined.inv.taken
  consumed := by
    intro i start r hcall hstart
    have hstands := hreach.outlined.stands (some i)
    rw [hcall] at hstands
    exact hstands.1.1 hstart

/-- One caller kills the tree, then the object is dropped. -/
theorem sharing_lifetime_killed : ∃ cfg : Config (Caller Unit) Answer
    (Host (Caller Unit)) (Result fun _ => Op.hardKill),
    Lifetime (jobOf 7) (fun _ => Op.hardKill) cfg ∧
      count (closes (jobOf 7)) cfg.shared = 1 := by
  let ops : Unit → Op := fun _ => .hardKill
  let taken : Host (Caller Unit) := (Host.new 7).handOver (some ()) (jobOf 7)
  let terminated := taken.record (some ()) (terminating (jobOf 7))
  let closed := ((terminated.record (some ()) (closing (jobOf 7))).close
    7).giveUp (jobOf 7)
  have hkill : hardKill.RunsOn ((sharing ops).alone (some ())) (Host.new 7)
      (.ok ()) closed := by
    let alone := (sharing ops).alone (some ())
    have htake : alone.serves (Host.new 7) .take (some (jobOf 7)) taken :=
      ⟨rfl, rfl⟩
    have hterminate : alone.serves taken (.call (terminating (jobOf 7)))
        (.ok ()) terminated := rfl
    have hclose : alone.serves terminated (.call (closing (jobOf 7)))
        (.ok ()) closed := rfl
    refine Prog.RunsOn.ask (some (jobOf 7)) htake ?_
    refine Prog.RunsOn.ask (.ok ()) hterminate ?_
    refine Prog.RunsOn.ask (.ok ()) hclose ?_
    exact .done _ _
  have hdrop : drop.RunsOn ((sharing ops).alone none) closed () closed := by
    have htake : Host.serves none closed .take none closed := ⟨rfl, rfl⟩
    exact .ask _ htake (.done _ _)
  have hstart : Reached 7 ops (Config.initial (Host.new 7)) := .initial
  have hfirst : mayStart (Config.initial (Host.new 7) :
      Config (Caller Unit) Answer (Host (Caller Unit)) (Result ops))
      (some ()) := id
  obtain ⟨killed, hreach, hshared, hcall, hothers⟩ :=
    System.Reachable.run hstart rfl hfirst hkill
  have hidle : killed.calls none = .idle := hothers none nofun
  have hmay : mayStart killed none := by
    show ∀ i, ¬ (killed.calls (some i)).isRunning
    intro i
    rw [hcall]
    exact id
  rw [← hshared] at hdrop
  obtain ⟨cfg, hreach', _, hcall', _⟩ :=
    System.Reachable.run hreach hidle hmay hdrop
  have hlife := sharing_lifetime 7 ops cfg hreach'
  exact ⟨cfg, hlife, hlife.closed_once _ hcall'⟩

end

end Cosca.Ports.JobLifetime


