import Cosca.Ports.ReaperOutline

/-!
# Every submit can finish

A submit waits for two things only.  The init lock is held by a submit that
needs nobody else before it drops it; and a worker that is joined was
abandoned, so it exits as soon as it looks at its channel.

## Main results

* `Inv.can_exit`: nothing keeps an abandoned worker from exiting.
* `Reached.finishes`: from every reachable configuration there is a run in
  which any given caller finishes its submit.
-/

namespace Cosca.Ports.ReaperPool

open Relation (ReflTransGen)

open Cosca.Ports.ReaperWorker
open Cosca.Verified.Interact

variable {ρ ι : Type} [DecidableEq ι] {bound : Nat} {job : ι → ReapJob ρ} {c : ι}

/-- A worker of an abandoned attempt has exited, or can do so at once. -/
theorem Inv.can_exit {k : Host ι} (hinv : Inv bound k) {ch : ChannelId}
    {x : Channel ι} (hchan : k.chan ch = some x) (hsender : x.sender = false)
    {i : Nat} (hi : i < x.workers.length) :
    k.HasExited ⟨ch, i⟩ ∨
      ∃ k', Host.Moves job k k' ∧ k'.HasExited ⟨ch, i⟩ := by
  have hcell : k.cell ≠ some ch := by
    intro hcell
    have hpool := (hinv.pool_alive hcell hchan).2.1
    rw [hsender] at hpool
    exact Bool.false_ne_true hpool
  have hworker : x.workers[i]? = some x.workers[i] :=
    List.getElem?_eq_getElem hi
  have hunused := hinv.unused ch x hchan hcell
  cases hunused.workers _ (List.mem_of_getElem? hworker) with
  | inl hreceiving =>
      rw [hreceiving] at hworker
      have hmove : Host.Moves job k (k.put ch (x.setWorker i .exited)) :=
        .disconnected hchan hworker hunused.queue hsender
      refine Or.inr ⟨_, hmove, x.setWorker i .exited, if_pos rfl, ?_⟩
      exact List.getElem?_set_self hi
  | inr hexited =>
      rw [hexited] at hworker
      exact Or.inl ⟨x, hchan, hworker⟩

/-! ## The questions -/

/-- No other caller holds the init lock. -/
def Free (c : ι) (k : Host ι) : Prop :=
  k.holder = none ∨ k.holder = some c

omit [DecidableEq ι] in
theorem modify_holder (k : Host ι) (ch : ChannelId)
    (f : Channel ι → Channel ι) : (k.modify ch f).holder = k.holder := by
  unfold Host.modify
  split <;> rfl

omit [DecidableEq ι] in
theorem Host.Moves.holder {k k' : Host ι} (h : Host.Moves job k k') :
    k'.holder = k.holder := by
  cases h <;> rfl

/-- What a caller may ask for is served, once an abandoned worker that it joins
has exited. -/
theorem serves_of_ready {k : Host ι} (hinv : Inv bound k) {q : PoolCall}
    (hready : Ready c q k) (hfree : Free c k) :
    ∃ k₁, ReflTransGen (Host.Moves job) k k₁ ∧
      ∃ a k₂, Host.serves c k₁ q a k₂ ∧ Free c k₂ := by
  cases q with
  | cellGet => exact ⟨k, .refl, k.cell, k, ⟨rfl, rfl⟩, hfree⟩
  | lockInit =>
      have hnone : k.holder = none := hfree.resolve_right hready
      exact ⟨k, .refl, (), _, ⟨hnone, rfl⟩, .inr rfl⟩
  | dropGuard => exact ⟨k, .refl, (), _, rfl, .inl rfl⟩
  | channel =>
      obtain ⟨n, hn⟩ := hinv.bounded
      have hnew : k.chan n = none := hn n (Nat.le_refl n)
      exact ⟨k, .refl, n, k.put n (.new c), ⟨hnew, rfl⟩, hfree⟩
  | spawn rx => exact ⟨k, .refl, .error (.other ""), k, rfl, hfree⟩
  | cellSet tx =>
      cases hcell : k.cell with
      | none => exact ⟨k, .refl, .ok (), _, ⟨hcell, rfl⟩, hfree⟩
      | some pool =>
          have hset : k.cell ≠ none := by
            rw [hcell]
            exact Option.some_ne_none pool
          exact ⟨k, .refl, .error (), k, ⟨hset, rfl⟩, hfree⟩
  | dropRx rx =>
      refine ⟨k, .refl, (), _, rfl, ?_⟩
      unfold Free
      rw [modify_holder]
      exact hfree
  | dropTx tx =>
      refine ⟨k, .refl, (), _, rfl, ?_⟩
      unfold Free
      rw [modify_holder]
      exact hfree
  | join worker =>
      obtain ⟨_, x, hchan, _, hsender, hindex⟩ := hready
      have hexits : k.HasExited worker ∨ ∃ k', Host.Moves job k k' ∧
          k'.HasExited worker := hinv.can_exit hchan hsender hindex
      rcases hexits with hexited | ⟨k₁, hmove, hexited⟩
      · exact ⟨k, .refl, (), k, ⟨hexited, rfl⟩, hfree⟩
      · refine ⟨k₁, .single hmove, (), k₁, ⟨hexited, rfl⟩, ?_⟩
        unfold Free
        rw [hmove.holder]
        exact hfree
  | len tx =>
      obtain ⟨x, hx⟩ := hready
      exact ⟨k, .refl, x.queue.length, k, ⟨⟨x, hx, rfl⟩, rfl⟩, hfree⟩
  | send tx =>
      obtain ⟨x, hx⟩ := hready
      by_cases hconnected : x.Connected
      · exact ⟨k, .refl, .ok (), _, ⟨x, hx, hconnected, rfl⟩, hfree⟩
      · exact ⟨k, .refl, .error (), k, ⟨⟨x, hx, hconnected⟩, rfl⟩, hfree⟩
  | dropOs => exact ⟨k, .refl, (), _, rfl, hfree⟩
  | log line => exact ⟨k, .refl, (), k, rfl, hfree⟩
  | debugAssert text => exact ⟨k, .refl, (), _, rfl, hfree⟩

/-! ## The submits -/

theorem canServe (hbound : 0 < bound) (job : ι → ReapJob ρ) (c : ι) :
    (submitting bound job).CanServe (fun _ _ => True) Host.new (Free c) c := by
  intro cfg start q next hreach hfree hcall
  have houtlined := Reached.outlined hbound hreach
  exact serves_of_ready houtlined.inv (houtlined.ready hcall) hfree

/-- A submit that holds the lock is running. -/
theorem Reached.running_of_holder (hbound : 0 < bound)
    {cfg : Config ι PoolCall.Reply (Host ι) fun _ => Unit}
    (hreach : Reached bound job cfg) (hholder : cfg.shared.holder = some c) :
    ∃ start rest, cfg.calls c = .running start rest := by
  have hstands := (hreach.outlined hbound).stands c
  cases hcall : cfg.calls c with
  | idle =>
      rw [hcall] at hstands
      have hfresh : Fresh c cfg.shared := hstands
      exact absurd hholder hfresh.unlocked
  | running start rest => exact ⟨start, rest, rfl⟩
  | finished start r =>
      rw [hcall] at hstands
      have hwaiting : Waiting c 1 [] cfg.shared := hstands
      exact absurd hholder hwaiting.unlocked

/-- Whoever else holds the lock can finish first. -/
theorem Reached.can_unlock (hbound : 0 < bound)
    {cfg : Config ι PoolCall.Reply (Host ι) fun _ => Unit}
    (hreach : Reached bound job cfg) (c : ι) :
    ∃ cfg', ReflTransGen ((submitting bound job).Step fun _ _ => True)
        cfg cfg' ∧ Free c cfg'.shared ∧ cfg'.calls c = cfg.calls c := by
  cases hholder : cfg.shared.holder with
  | none => exact ⟨cfg, .refl, .inl hholder, rfl⟩
  | some c' =>
      by_cases hc : c' = c
      · exact ⟨cfg, .refl, .inr (hc ▸ hholder), rfl⟩
      · obtain ⟨start, rest, hcall⟩ := hreach.running_of_holder hbound hholder
        obtain ⟨cfg', r, hsteps, hfree, hdone, hothers⟩ :=
          (canServe hbound job c').finishes rest cfg hreach (.inr hholder) hcall
        refine ⟨cfg', hsteps, ?_, hothers c fun h => hc h.symm⟩
        rcases hfree with hnone | hheld
        · exact .inl hnone
        · -- a submit that has finished holds no lock
          have hreach' : Reached bound job cfg' := hreach.steps hsteps
          obtain ⟨start', rest', hrunning⟩ :=
            hreach'.running_of_holder hbound hheld
          rw [hdone] at hrunning
          exact nomatch hrunning

/-- A caller can finish its submit, wherever the others and itself are. -/
theorem Reached.finishes (hbound : 0 < bound)
    {cfg : Config ι PoolCall.Reply (Host ι) fun _ => Unit}
    (hreach : Reached bound job cfg) (c : ι) :
    ∃ cfg' start, ReflTransGen ((submitting bound job).Step fun _ _ => True)
      cfg cfg' ∧ cfg'.calls c = .finished start () := by
  obtain ⟨cfg₁, hsteps, hfree, hsame⟩ := hreach.can_unlock hbound c
  have hreach₁ : Reached bound job cfg₁ := hreach.steps hsteps
  have hserve := canServe hbound job c
  cases hcall : cfg₁.calls c with
  | idle =>
      have hstart := hsteps.tail (.start c hcall trivial)
      obtain ⟨cfg₂, _, hrest, _, hdone, _⟩ :=
        hserve.finishes _ _ (hreach.steps hstart) hfree
          (Config.update_self cfg₁ c _ _)
      exact ⟨cfg₂, _, hstart.trans hrest, hdone⟩
  | running start rest =>
      obtain ⟨cfg₂, _, hrest, _, hdone, _⟩ :=
        hserve.finishes rest cfg₁ hreach₁ hfree hcall
      exact ⟨cfg₂, start, hsteps.trans hrest, hdone⟩
  | finished start r => exact ⟨cfg₁, start, hsteps, hcall⟩

end Cosca.Ports.ReaperPool
