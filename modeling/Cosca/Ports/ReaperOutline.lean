import Cosca.Ports.ReaperCaller

/-!
# The outline of a submit

Every submitting thread has a proof outline, so what they know holds in every
reachable configuration, and every question they put is one that the process
serves, at once or when somebody else has done what is left to do (`Ready`).

## Main results

* `submitTo_abides`: the outline of a submit.
* `Reached.outlined`: every reachable configuration is at its assertions.
-/

namespace Cosca.Ports.ReaperPool

open Cosca.Ports.Errors
open Cosca.Ports.Identity (RawPid)
open Cosca.Ports.ReaperWorker
open Cosca.Verified.Interact

variable {ρ ι : Type} [DecidableEq ι] {bound : Nat} {job : ι → ReapJob ρ} {c : ι}

/-- What a caller may ask for: the init lock where it does not hold it, the
end of a worker that it abandoned and not from inside the critical section, and
what is done to a channel where there is one. -/
def Ready (c : ι) : PoolCall → Host ι → Prop
  | .lockInit, k => k.holder ≠ some c
  | .join worker, k => k.holder ≠ some c ∧ k.Abandoned c worker
  | .len tx, k => ∃ x, k.chan tx = some x
  | .send tx, k => ∃ x, k.chan tx = some x
  | _, _ => True

/-- The discipline of the threads that submit. -/
def discipline (bound : Nat) (job : ι → ReapJob ρ) :
    Discipline (submitting bound job) where
  inv := Inv bound
  guar := Guar
  ready := Ready
  before := Fresh
  post := fun c _ _ => Waiting c 1 []

abbrev role (bound : Nat) (job : ι → ReapJob ρ) (c : ι) :
    Role PoolCall.Reply (Host ι) :=
  (discipline bound job).roleOf c

theorem stable_of {cond : Host ι → Prop}
    (h : ∀ k k', Undisturbed c k k' → cond k → cond k') :
    (role bound job c).env.Stable cond := by
  intro k k' hmove hk
  obtain ⟨_, _, hmove⟩ := hmove
  cases hmove with
  | inl hmove => exact h k k' (.moves c hmove) hk
  | inr hother =>
      obtain ⟨c', hne, hguar⟩ := hother
      exact h k k' (hguar c fun hc => hne hc.symm) hk

theorem stable_waiting {n : Nat} {handles : List WorkerId} :
    (role bound job c).env.Stable (Waiting c n handles) :=
  stable_of fun _ _ h hk => hk.undisturbed h

theorem stable_entered : (role bound job c).env.Stable (Entered c) :=
  stable_of fun _ _ h hk => hk.undisturbed h

theorem stable_ended {handles : List WorkerId} :
    (role bound job c).env.Stable (Ended c handles) :=
  stable_of fun _ _ h hk => hk.undisturbed h

/-! ## Rules for the questions -/

section

variable {α : Type} {q : PoolCall} {pre : Host ι → Prop}

theorem ask_bind {f : q.Reply → Submitting α} {post : α → Host ι → Prop}
    (mid : q.Reply → Host ι → Prop)
    (hstable : (role bound job c).env.Stable pre)
    (hserves : ∀ k a k', Host.serves c k q a k' → Inv bound k → pre k →
      Steps bound c k k' (mid a))
    (hf : ∀ a, (f a).Abides (role bound job c) (mid a) post)
    (hready : ∀ k, Inv bound k → pre k → Ready c q k) :
    Prog.Abides (role bound job c) (ask q >>= f) pre post := by
  refine .query_bind mid hstable ?_ hf hready
  intro k a k' hanswer hinv hk
  have hsteps := hserves k a k' hanswer hinv hk
  exact ⟨hsteps.inv, hsteps.guar, hsteps.post⟩

theorem ask_last {post : q.Reply → Host ι → Prop}
    (hstable : (role bound job c).env.Stable pre)
    (hpost : ∀ a, (role bound job c).env.Stable (post a))
    (hserves : ∀ k a k', Host.serves c k q a k' → Inv bound k → pre k →
      Steps bound c k k' (post a))
    (hready : ∀ k, Inv bound k → pre k → Ready c q k) :
    Prog.Abides (role bound job c) (ask q) pre post :=
  ask_bind post hstable hserves
    (fun a => .pure (hpost a) fun _ _ hk => hk) hready

/-- A log line changes nothing. -/
theorem log_abides {line : LogLine}
    (hstable : (role bound job c).env.Stable pre) :
    Prog.Abides (role bound job c) (ask (.log line)) pre fun _ => pre := by
  refine ask_last hstable (fun _ => hstable) ?_ fun _ _ _ => trivial
  intro k a k' hserves hinv hk
  have hsame : k' = k := hserves
  rw [hsame]
  exact .same hinv hk

end

/-! ## The outlines -/

theorem release_abides (pid : RawPid) :
    (release pid).Abides (role bound job c) (Waiting c 0 [])
      fun _ => Waiting c 1 [] := by
  refine .bind (fun _ => Waiting c 0 []) (log_abides stable_waiting) fun _ => ?_
  refine ask_last stable_waiting (fun _ => stable_waiting) ?_
    fun _ _ _ => trivial
  intro k a k' hserves hinv hk
  have hdrop : k' = { k with released := k.released ++ [c] } := hserves
  rw [hdrop]
  exact dropOs_steps hinv hk

/-- What `get` finds. -/
def Got (c : ι) (pool : Option ChannelId) (k : Host ι) : Prop :=
  Waiting c 0 [] k ∧ ∀ ch, pool = some ch → k.cell = some ch

/-- The pool has a channel. -/
theorem Got.ready {pool : ChannelId} {k : Host ι} (hinv : Inv bound k)
    (hk : Got c (some pool) k) : ∃ x, k.chan pool = some x := by
  obtain ⟨x, hx, _⟩ := hinv.full pool (hk.2 pool rfl)
  exact ⟨x, hx⟩

theorem stable_got {pool : Option ChannelId} :
    (role bound job c).env.Stable (Got c pool) :=
  stable_of fun _ _ h hk =>
    ⟨hk.1.undisturbed h, fun ch hch => h.cell ch (hk.2 ch hch)⟩

theorem reportBacklog_abides (pid : RawPid) (backlog : Nat)
    {pre : Host ι → Prop} (hstable : (role bound job c).env.Stable pre) :
    (reportBacklog pid backlog).Abides (role bound job c) pre
      fun _ => pre := by
  unfold reportBacklog
  by_cases hbacklog : backlog > 0
  · rw [if_pos hbacklog]
    exact log_abides hstable
  · rw [if_neg hbacklog]
    exact .pure hstable fun k _ hk => hk

/-- The send to a pool cannot fail. -/
def Sent (c : ι) : Except Unit Unit → Host ι → Prop
  | .ok () => Waiting c 1 []
  | .error () => fun _ => False

theorem dispatch_abides (hbound : 0 < bound) (pool : ChannelId) (pid : RawPid) :
    (dispatch pool pid).Abides (role bound job c) (Got c (some pool))
      fun _ => Waiting c 1 [] := by
  refine ask_bind (fun _ => Got c (some pool)) stable_got ?_ (fun backlog => ?_)
    fun _ hinv hk => hk.ready hinv
  · intro k a k' hserves hinv hk
    have hlen : _ ∧ k' = k := hserves
    rw [hlen.2]
    exact .same hinv hk
  refine .bind (fun _ => Got c (some pool))
    (reportBacklog_abides pid backlog stable_got) fun _ => ?_
  refine ask_bind (Sent c) stable_got ?_ (fun sent => ?_)
    fun _ hinv hk => hk.ready hinv
  · intro k sent k' hserves hinv hk
    have hcell := hk.2 pool rfl
    cases sent with
    | ok u =>
        obtain ⟨x, hchan, _, hsent⟩ := hserves
        rw [hsent]
        exact send_steps hinv hk.1 hcell hchan
    | error u =>
        obtain ⟨⟨x, hchan, hdisconnected⟩, _⟩ := hserves
        obtain ⟨hlength, _, halive⟩ := hinv.pool_alive hcell hchan
        have hsome : 0 < x.workers.length := by omega
        obtain ⟨w, hmem⟩ := List.exists_mem_of_length_pos hsome
        exact absurd (Or.inr ⟨w, hmem, halive w hmem⟩) hdisconnected
  · cases sent with
    | ok u => exact .pure stable_waiting fun k _ hk => hk
    | error u => exact .of_false fun _ h => h

/-- The channel of an attempt, and the handles of just the workers it
started. -/
def Started (c : ι) (ch : ChannelId) (s : Spawns) (k : Host ι) : Prop :=
  Opened c ch s.started k ∧ (∀ i, i < s.started → ⟨ch, i⟩ ∈ s.abandoned) ∧
    ∀ worker ∈ s.abandoned,
      worker.channel = ch ∧ worker.index < s.started

theorem stable_started {ch : ChannelId} {s : Spawns} :
    (role bound job c).env.Stable (Started c ch s) :=
  stable_of fun _ _ h hk => ⟨hk.1.undisturbed h, hk.2⟩

theorem spawnWorker_abides (ch : ChannelId) (s : Spawns) :
    (spawnWorker ch s).Abides (role bound job c) (Started c ch s)
      (Started c ch) := by
  refine ask_bind (fun spawned => Started c ch (s.turn spawned))
    stable_started ?_ (fun _ => .pure stable_started fun k _ hk => hk)
    fun _ _ _ => trivial
  intro k spawned k' hserves hinv hk
  cases spawned with
  | error e =>
      have hsame : k' = k := hserves
      rw [hsame]
      exact .same hinv hk
  | ok handle =>
      obtain ⟨x, hchan, hhandle, hspawned⟩ := hserves
      obtain ⟨y, hy, _, _, hlength⟩ := hk.1.chan
      rw [hchan] at hy
      rw [Option.some.inj hy, hlength] at hhandle
      have hsteps := spawn_steps hinv hk.1 hchan
      rw [hspawned]
      refine ⟨hsteps.inv, hsteps.guar, hsteps.post, ?_, ?_⟩
      · intro i hi
        have hi : i < s.started + 1 := hi
        show ⟨ch, i⟩ ∈ s.abandoned ++ [handle]
        by_cases hlast : i = s.started
        · rw [hhandle, hlast]
          simp
        · exact List.mem_append_left _ (hk.2.1 i (by omega))
      · intro worker hworker
        show worker.channel = ch ∧ worker.index < s.started + 1
        rcases List.mem_append.mp hworker with hold | hnew
        · obtain ⟨hchannel, hindex⟩ := hk.2.2 worker hold
          exact ⟨hchannel, by omega⟩
        · rw [List.mem_singleton.mp hnew, hhandle]
          exact ⟨rfl, Nat.lt_succ_self _⟩

theorem dropRx_abides {pre : Host ι → Prop} (ch : ChannelId)
    (hpre : ∀ k k', Undisturbed c k k' → pre k → pre k') :
    Prog.Abides (role bound job c) (ask (.dropRx ch)) pre fun _ => pre := by
  refine ask_last (stable_of hpre) (fun _ => stable_of hpre) ?_
    fun _ _ _ => trivial
  intro k a k' hserves hinv hk
  have hdrop : k' = k.modify ch fun x => { x with receiver := false } :=
    hserves
  obtain ⟨hinv', hquiet⟩ := dropRx_quiet hinv ch
  rw [hdrop]
  exact ⟨hinv', fun c' _ => hquiet c', hpre k _ (hquiet c) hk⟩

theorem abandon_abides (ch : ChannelId) (s : Spawns) :
    (abandon ch s).Abides (role bound job c) (Started c ch s)
      fun a => Ended c a.abandoned := by
  refine .bind (fun _ => Started c ch s) ?_ fun _ => ?_
  · exact dropRx_abides ch fun _ _ h hk => ⟨hk.1.undisturbed h, hk.2⟩
  refine ask_bind (fun _ => Ended c s.abandoned) stable_started ?_
    (fun _ => .pure stable_ended fun k _ hk => hk) fun _ _ _ => trivial
  intro k a k' hserves hinv hk
  have hdrop : k' = k.modify ch fun x => { x with sender := false } := hserves
  rw [hdrop]
  exact dropTx_steps hinv hk.1 hk.2.1 hk.2.2

/-- The cell is still empty when the attempt sets it. -/
def Published (c : ι) : Except Unit Unit → Host ι → Prop
  | .ok () => Ended c []
  | .error () => fun _ => False

theorem publish_abides (ch : ChannelId) (s : Spawns) :
    (publish bound ch s).Abides (role bound job c) (Started c ch s)
      fun a => Ended c a.abandoned := by
  unfold publish
  by_cases hstarted : s.started = bound
  · rw [if_pos hstarted]
    refine ask_bind (Published c) stable_started ?_ (fun set => ?_)
      fun _ _ _ => trivial
    · intro k set k' hserves hinv hk
      cases set with
      | ok u =>
          have hset : _ ∧ k' = { k with
            cell := some ch, published := k.published ++ [ch] } := hserves
          rw [hset.2]
          exact publish_steps hinv (hstarted ▸ hk.1)
      | error u =>
          have hset : k.cell ≠ none ∧ _ := hserves
          exact absurd hk.1.cell hset.1
    · cases set with
      | ok u =>
          refine .bind (fun _ => Ended c []) ?_ fun _ =>
            .pure stable_ended fun k _ hk => hk
          exact dropRx_abides ch fun _ _ h hk => hk.undisturbed h
      | error u => exact .of_false fun _ h => h
  · rw [if_neg hstarted]
    exact abandon_abides ch s

/-- Nothing was started yet. -/
theorem Entered.ended {k : Host ι} (hk : Entered c k) : Ended c [] k :=
  ⟨hk.locked, fun ch x hchan hc => absurd hc (hk.unstarted ch x hchan), nofun⟩

theorem initSection_abides :
    (initSection bound).Abides (role bound job c) (Entered c)
      fun a => Ended c a.abandoned := by
  refine ask_bind
    (fun pool k => Entered c k ∧ (pool = none → k.cell = none))
    stable_entered ?_ (fun pool => ?_) fun _ _ _ => trivial
  · intro k pool k' hserves hinv hk
    have hget : pool = k.cell ∧ k' = k := hserves
    rw [hget.2]
    exact .same hinv ⟨hk, fun hnone => hget.1.symm.trans hnone⟩
  · have hstable : (role bound job c).env.Stable fun k =>
        Entered c k ∧ (pool = none → k.cell = none) := by
      apply stable_of
      intro k k' h hk
      refine ⟨hk.1.undisturbed h, fun hnone => ?_⟩
      exact (h.locked hk.1.locked.holder).2.trans (hk.2 hnone)
    cases pool with
    | some pool =>
        have hdone : Prog.Abides (role bound job c)
            (Pure.pure ⟨[], [], false⟩ : Submitting Attempt) (Ended c [])
            fun a => Ended c a.abandoned :=
          .pure stable_ended fun k _ hk => hk
        exact hdone.strengthen hstable fun k _ hk => hk.1.ended
    | none =>
        refine ask_bind (fun ch => Opened c ch 0) hstable ?_ (fun ch => ?_)
          fun _ _ _ => trivial
        · intro k ch k' hserves hinv hk
          have hopened : k.chan ch = none ∧ k' = k.put ch (.new c) := hserves
          rw [hopened.2]
          exact channel_steps hinv hk.1 (hk.2 rfl) hopened.1
        · have hturn : ∀ (n : Nat) (todo : List Nat) (s : Spawns),
              (spawnWorker ch s).Abides (role bound job c) (Started c ch s)
                (Started c ch) := fun _ _ s => spawnWorker_abides ch s
          have hloop := Prog.Abides.foldlM (fun _ => Started c ch)
            (fun _ => stable_started) hturn (List.range bound) ⟨0, [], []⟩
          have hspawned := hloop.bind (Started c ch) fun s =>
            publish_abides ch s
          apply hspawned.strengthen
          · exact stable_of fun _ _ h hk => hk.undisturbed h
          · exact fun k _ hk =>
              ⟨hk, fun i hi => absurd hi (Nat.not_lt_zero i), nofun⟩

theorem reportStart_abides (published : Bool) {pre : Host ι → Prop}
    (hstable : (role bound job c).env.Stable pre) :
    (reportStart bound published).Abides (role bound job c) pre
      fun _ => pre := by
  unfold reportStart
  by_cases hpublished : published = true
  · rw [if_pos hpublished]
    exact log_abides hstable
  · rw [if_neg hpublished]
    exact .pure hstable fun k _ hk => hk

/-- The last look at the cell. -/
theorem cellGet_got :
    Prog.Abides (role bound job c) (ask .cellGet) (Waiting c 0 []) (Got c) := by
  refine ask_last stable_waiting (fun _ => stable_got) ?_
    fun _ _ _ => trivial
  intro k pool k' hserves hinv hk
  have hget : pool = k.cell ∧ k' = k := hserves
  rw [hget.2]
  exact .same hinv ⟨hk, fun ch hch => hget.1.symm.trans hch⟩

theorem join_abides {n : Nat} (worker : WorkerId) (todo : List WorkerId) :
    Prog.Abides (role bound job c) (ask (.join worker))
      (Waiting c n (worker :: todo)) fun _ => Waiting c n todo := by
  refine ask_last stable_waiting (fun _ => stable_waiting) ?_ ?_
  case refine_2 =>
    exact fun k _ hk =>
      ⟨hk.unlocked, hk.abandoned worker List.mem_cons_self⟩
  intro k a k' hserves hinv hk
  have hjoin : k.HasExited worker ∧ k' = k := hserves
  rw [hjoin.2]
  exact .same hinv (hk.join hjoin.1)

theorem getSlow_abides :
    (getSlow bound).Abides (role bound job c) (Fresh c) (Got c) := by
  refine ask_bind (fun _ => Entered c) ?_ ?_ (fun _ => ?_)
    fun _ _ hk => hk.unlocked
  · exact stable_of fun _ _ h hk => hk.undisturbed h
  · intro k a k' hserves hinv hk
    have hlock : k.holder = none ∧ k' = { k with holder := some c } := hserves
    rw [hlock.2]
    exact lock_steps hinv hk hlock.1
  refine .bind (fun a => Ended c a.abandoned) initSection_abides fun a => ?_
  refine ask_bind (fun _ => Waiting c 0 a.abandoned) stable_ended ?_
    (fun _ => ?_) fun _ _ _ => trivial
  · intro k u k' hserves hinv hk
    have hunlock : k' = { k with
      holder := none, left := k.left ++ [(c, k.cell)] } := hserves
    rw [hunlock]
    exact unlock_steps hinv hk
  refine .bind (fun _ => Waiting c 0 []) ?_ fun _ => ?_
  · exact .forM (Waiting c 0) stable_waiting join_abides a.abandoned
  refine .bind (fun _ => Waiting c 0 []) ?_ fun _ => ?_
  · exact .forM (fun _ => Waiting c 0 []) stable_waiting
      (fun _ _ => log_abides stable_waiting) a.failures
  refine .bind (fun _ => Waiting c 0 [])
    (reportStart_abides a.published stable_waiting) fun _ => cellGet_got

theorem Fresh.waiting {k : Host ι} (hk : Fresh c k) : Waiting c 0 [] k :=
  ⟨hk.unlocked, hk.handled,
    fun ch x hchan hc => absurd hc (hk.unstarted ch x hchan), nofun⟩

theorem stable_fresh : (role bound job c).env.Stable (Fresh c) :=
  stable_of fun _ _ h hk => hk.undisturbed h

theorem get_abides :
    (get bound).Abides (role bound job c) (Fresh c) (Got c) := by
  refine ask_bind
    (fun pool k => Fresh c k ∧ ∀ ch, pool = some ch → k.cell = some ch)
    stable_fresh ?_ (fun pool => ?_) fun _ _ _ => trivial
  · intro k pool k' hserves hinv hk
    have hget : pool = k.cell ∧ k' = k := hserves
    rw [hget.2]
    exact .same hinv ⟨hk, fun ch hch => hget.1.symm.trans hch⟩
  · have hstable : (role bound job c).env.Stable fun k =>
        Fresh c k ∧ ∀ ch, pool = some ch → k.cell = some ch :=
      stable_of fun _ _ h hk =>
        ⟨hk.1.undisturbed h, fun ch hch => h.cell ch (hk.2 ch hch)⟩
    cases pool with
    | some pool =>
        exact .pure hstable fun k _ hk => ⟨hk.1.waiting, hk.2⟩
    | none =>
        have hslow : (getSlow bound).Abides (role bound job c) (Fresh c)
            (Got c) := getSlow_abides
        exact hslow.strengthen hstable fun k _ hk => hk.1

theorem submitTo_abides (hbound : 0 < bound) (pid : RawPid) :
    (submitTo bound pid).Abides (role bound job c) (Fresh c)
      fun _ => Waiting c 1 [] := by
  refine .bind (Got c) get_abides fun pool => ?_
  cases pool with
  | some pool => exact dispatch_abides hbound pool pid
  | none =>
      have hrelease : (release pid).Abides (role bound job c) (Waiting c 0 [])
          fun _ => Waiting c 1 [] := release_abides pid
      exact hrelease.strengthen stable_got fun k _ hk => hk.1

theorem discipline_kept (hbound : 0 < bound) :
    (discipline bound job).Kept where
  moves := fun _ _ hmove hinv => hinv.moves hmove
  before := fun _ => stable_fresh
  post := fun _ _ _ => stable_waiting
  body := fun c _ _ hbefore =>
    ⟨Fresh c, hbefore, submitTo_abides hbound (job c).pid⟩

/-! ## Every run -/

/-- The configurations of the runs that begin without a pool. -/
abbrev Reached (bound : Nat) (job : ι → ReapJob ρ)
    (cfg : Config ι PoolCall.Reply (Host ι) fun _ => Unit) : Prop :=
  (submitting bound job).Reachable (fun _ _ => True) Host.new cfg

theorem new_fresh (c : ι) : Fresh c (Host.new : Host ι) :=
  ⟨nofun, List.not_mem_nil, rfl, nofun⟩

theorem Reached.outlined (hbound : 0 < bound)
    {cfg : Config ι PoolCall.Reply (Host ι) fun _ => Unit}
    (hreach : Reached bound job cfg) : (discipline bound job).Outlined cfg :=
  System.Reachable.outlined (discipline_kept hbound) new_inv new_fresh hreach

end Cosca.Ports.ReaperPool
