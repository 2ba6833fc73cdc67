import Cosca.Ports.ReaperPool

/-!
# The invariant of the reaper pool

What holds of the cell, the channels and the worker threads however the
submitting threads interleave, and what a step of one of them leaves to the
others: a caller that holds the init lock finds the cell as it was, and the
channel a caller created changes under it only by what its workers do.

## Main results

* `Inv.moves`: the worker threads keep the invariant; a published pool's
  workers never exit.
* `Undisturbed.moves`: what they do leaves every caller its own.
-/

namespace Cosca.Ports.ReaperPool

open Cosca.Ports.ReaperWorker

variable {C : Type}

/-! ## What others leave alone -/

/-- Work on a channel: it stays the creator's, its ends stay as they are, and
no thread is started on it or comes back. -/
structure Channel.Worked (x x' : Channel C) : Prop where
  creator : x'.creator = x.creator
  sender : x'.sender = x.sender
  started : x'.workers.length = x.workers.length
  exited : ∀ i : Nat, x.workers[i]? = some .exited →
    x'.workers[i]? = some .exited

theorem Channel.Worked.refl (x : Channel C) : x.Worked x :=
  ⟨rfl, rfl, rfl, fun _ h => h⟩

theorem Channel.Worked.setWorker {x : Channel C} {i : Nat} {w w' : Worker C}
    (hworker : x.workers[i]? = some w) (hw : w ≠ .exited) :
    x.Worked (x.setWorker i w') where
  creator := rfl
  sender := rfl
  started := List.length_set
  exited := by
    intro j hj
    have hne : i ≠ j := by
      intro heq
      subst heq
      rw [hworker] at hj
      exact hw (Option.some.inj hj)
    show (x.workers.set i w')[j]? = _
    rw [List.getElem?_set_ne hne]
    exact hj

section

variable [DecidableEq C]

/-- How often the caller's job was sent or released. -/
def Host.handled (k : Host C) (c : C) : Nat :=
  (k.queued.map Prod.fst).count c + k.released.count c

/-- What a step of somebody else leaves to the caller `c`. -/
structure Undisturbed (c : C) (k k' : Host C) : Prop where
  cell : ∀ ch, k.cell = some ch → k'.cell = some ch
  locked : k.holder = some c → k'.holder = some c ∧ k'.cell = k.cell
  unlocked : k.holder ≠ some c → k'.holder ≠ some c
  left : c ∉ k.left.map Prod.fst → c ∉ k'.left.map Prod.fst
  handled : k'.handled c = k.handled c
  kept : ∀ ch x, k.chan ch = some x → x.creator = c →
    ∃ x', k'.chan ch = some x' ∧ x.Worked x'
  own : ∀ ch x', k'.chan ch = some x' → x'.creator = c →
    ∃ x, k.chan ch = some x ∧ x.creator = c ∧ x.Worked x'

/-- What a step of the caller `c` guarantees to all others. -/
def Guar (c : C) (k k' : Host C) : Prop :=
  ∀ c', c' ≠ c → Undisturbed c' k k'

theorem Undisturbed.refl (c : C) (k : Host C) : Undisturbed c k k where
  cell := fun _ h => h
  locked := fun h => ⟨h, rfl⟩
  unlocked := fun h => h
  left := fun h => h
  handled := rfl
  kept := fun _ x h _ => ⟨x, h, .refl x⟩
  own := fun _ x h hc => ⟨x, h, hc, .refl x⟩

theorem Guar.refl (c : C) (k : Host C) : Guar c k k :=
  fun c' _ => .refl c' k

end

@[simp] theorem put_chan (k : Host C) (ch : ChannelId) (x : Channel C)
    (i : ChannelId) :
    (k.put ch x).chan i = if i = ch then some x else k.chan i := rfl

theorem modify_of_chan {k : Host C} {ch : ChannelId} {x : Channel C}
    (f : Channel C → Channel C) (h : k.chan ch = some x) :
    k.modify ch f = k.put ch (f x) := by
  unfold Host.modify
  rw [h]

/-- Work on an existing channel, with the caller's own jobs as they were. -/
theorem Undisturbed.put [DecidableEq C] {c : C} {k : Host C} {ch : ChannelId}
    {x x' : Channel C} {queued : List (C × ChannelId)} {received : List C}
    (hchan : k.chan ch = some x) (hworked : x.Worked x')
    (hqueued : (queued.map Prod.fst).count c =
      (k.queued.map Prod.fst).count c) :
    Undisturbed c k
      { k.put ch x' with queued := queued, received := received } where
  cell := fun _ h => h
  locked := fun h => ⟨h, rfl⟩
  unlocked := fun h => h
  left := fun h => h
  handled := congrArg (· + k.released.count c) hqueued
  kept := by
    intro i y hy _
    show ∃ y', (if i = ch then some x' else k.chan i) = some y' ∧ y.Worked y'
    by_cases hi : i = ch
    · subst hi
      rw [if_pos rfl]
      rw [hchan] at hy
      exact ⟨x', rfl, Option.some.inj hy ▸ hworked⟩
    · rw [if_neg hi]
      exact ⟨y, hy, .refl y⟩
  own := by
    intro i y' hy' hc
    by_cases hi : i = ch
    · subst hi
      simp only [put_chan, if_true, Option.some.injEq] at hy'
      subst hy'
      exact ⟨x, hchan, hworked.creator ▸ hc, hworked⟩
    · simp only [put_chan, if_neg hi] at hy'
      exact ⟨y', hy', hc, .refl y'⟩

/-- The channels stay as they are. -/
theorem Undisturbed.of_chan [DecidableEq C] {c : C} {k k' : Host C}
    (hchan : k'.chan = k.chan)
    (hcell : ∀ ch, k.cell = some ch → k'.cell = some ch)
    (hlocked : k.holder = some c → k'.holder = some c ∧ k'.cell = k.cell)
    (hunlocked : k.holder ≠ some c → k'.holder ≠ some c)
    (hleft : c ∉ k.left.map Prod.fst → c ∉ k'.left.map Prod.fst)
    (hhandled : k'.handled c = k.handled c) : Undisturbed c k k' where
  cell := hcell
  locked := hlocked
  unlocked := hunlocked
  left := hleft
  handled := hhandled
  kept := by
    intro ch x hx _
    exact ⟨x, hchan ▸ hx, .refl x⟩
  own := by
    intro ch x hx hc
    exact ⟨x, hchan ▸ hx, hc, .refl x⟩

/-- Somebody else works on a channel of its own. -/
theorem Undisturbed.put_of_ne [DecidableEq C] {c : C} {k : Host C}
    {ch : ChannelId} {x' : Channel C}
    (hold : ∀ x, k.chan ch = some x → x.creator ≠ c)
    (hnew : x'.creator ≠ c) : Undisturbed c k (k.put ch x') where
  cell := fun _ h => h
  locked := fun h => ⟨h, rfl⟩
  unlocked := fun h => h
  left := fun h => h
  handled := rfl
  kept := by
    intro i y hy hc
    have hi : i ≠ ch := by
      intro heq
      subst heq
      exact hold y hy hc
    exact ⟨y, (if_neg hi).trans hy, .refl y⟩
  own := by
    intro i y' hy' hc
    by_cases hi : i = ch
    · subst hi
      simp only [put_chan, if_true, Option.some.injEq] at hy'
      subst hy'
      exact absurd hc hnew
    · simp only [put_chan, if_neg hi] at hy'
      exact ⟨y', hy', hc, .refl y'⟩

/-- Whatever a caller does to a channel of its own. -/
theorem Guar.put [DecidableEq C] {c : C} {k : Host C} {ch : ChannelId}
    {x' : Channel C} (hold : ∀ x, k.chan ch = some x → x.creator = c)
    (hnew : x'.creator = c) : Guar c k (k.put ch x') := by
  intro c' hne
  apply Undisturbed.put_of_ne
  · intro x hx hc
    exact hne (hc.symm.trans (hold x hx))
  · intro hc
    exact hne (hc.symm.trans hnew)

/-! ## The invariant -/

section

variable [DecidableEq C]

/-- Nothing was ever sent on the channel. -/
structure Channel.Unused (x : Channel C) : Prop where
  queue : x.queue = []
  workers : ∀ w ∈ x.workers, w = .receiving ∨ w = .exited

/-- While a sender is left, no worker exits. -/
def Channel.Alive (x : Channel C) : Prop :=
  x.sender = true → ∀ w ∈ x.workers, w ≠ .exited

structure Inv (bound : Nat) (k : Host C) : Prop where
  published : k.published = k.cell.toList
  full : ∀ ch, k.cell = some ch → ∃ x, k.chan ch = some x ∧
    x.sender = true ∧ x.workers.length = bound
  alive : ∀ ch x, k.chan ch = some x → x.Alive
  unused : ∀ ch x, k.chan ch = some x → k.cell ≠ some ch → x.Unused
  left : ∀ ch x cell, k.chan ch = some x → (x.creator, cell) ∈ k.left →
    k.cell = some ch ∨ cell = none ∧ x.sender = false
  queued : ∀ c ch, (c, ch) ∈ k.queued → k.cell = some ch
  inOrder : ∀ ch x, k.cell = some ch → k.chan ch = some x →
    k.received ++ x.queue = k.queued.map Prod.fst
  idle : k.cell = none → k.received = []
  once : ∀ c, k.handled c ≤ 1
  asserted : k.asserted = []
  /-- There are always channels left to open. -/
  bounded : ∃ n, ∀ ch, n ≤ ch → k.chan ch = none

variable {bound : Nat} {k : Host C}

theorem new_inv : Inv bound (Host.new : Host C) where
  published := rfl
  full := nofun
  alive := nofun
  unused := nofun
  left := nofun
  queued := nofun
  inOrder := nofun
  idle := fun _ => rfl
  once := fun _ => Nat.zero_le 1
  asserted := rfl
  bounded := ⟨0, fun _ _ => rfl⟩

omit [DecidableEq C] in
theorem bounded_put (h : ∃ n, ∀ ch, n ≤ ch → k.chan ch = none)
    (ch : ChannelId) (x : Channel C) :
    ∃ n, ∀ i, n ≤ i → (k.put ch x).chan i = none := by
  obtain ⟨n, hn⟩ := h
  refine ⟨max n (ch + 1), ?_⟩
  intro i hi
  have hlt : ch < i := Nat.le_trans (Nat.le_max_right n (ch + 1)) hi
  rw [put_chan, if_neg (Nat.ne_of_gt hlt)]
  exact hn i (Nat.le_trans (Nat.le_max_left n (ch + 1)) hi)

/-- A channel that is not the pool's changes. -/
theorem Inv.putOther (hinv : Inv bound k) {ch : ChannelId} {x' : Channel C}
    (hcell : k.cell ≠ some ch) (halive : x'.Alive) (hunused : x'.Unused)
    (hleft : ∀ cell, (x'.creator, cell) ∈ k.left →
      cell = none ∧ x'.sender = false) :
    Inv bound (k.put ch x') where
  published := hinv.published
  full := by
    intro i hi
    have hne : i ≠ ch := fun heq => hcell (heq ▸ hi)
    obtain ⟨x, hx⟩ := hinv.full i hi
    exact ⟨x, (if_neg hne).trans hx.1, hx.2⟩
  alive := by
    intro i y hy
    by_cases hi : i = ch
    · rw [put_chan, if_pos hi] at hy
      exact Option.some.inj hy ▸ halive
    · rw [put_chan, if_neg hi] at hy
      exact hinv.alive i y hy
  unused := by
    intro i y hy hne
    by_cases hi : i = ch
    · rw [put_chan, if_pos hi] at hy
      exact Option.some.inj hy ▸ hunused
    · rw [put_chan, if_neg hi] at hy
      exact hinv.unused i y hy hne
  left := by
    intro i y cell hy hcreator
    by_cases hi : i = ch
    · rw [put_chan, if_pos hi] at hy
      have heq := Option.some.inj hy
      subst heq
      exact Or.inr (hleft cell hcreator)
    · rw [put_chan, if_neg hi] at hy
      exact hinv.left i y cell hy hcreator
  queued := hinv.queued
  inOrder := by
    intro i y hi hy
    have hne : i ≠ ch := fun heq => hcell (heq ▸ hi)
    rw [put_chan, if_neg hne] at hy
    exact hinv.inOrder i y hi hy
  idle := hinv.idle
  once := hinv.once
  asserted := hinv.asserted
  bounded := bounded_put hinv.bounded ch x'

/-- The pool's channel changes. -/
theorem Inv.putPool (hinv : Inv bound k) {ch : ChannelId} {x x' : Channel C}
    (hcell : k.cell = some ch) (hchan : k.chan ch = some x)
    (hworked : x.Worked x') (halive : ∀ w ∈ x'.workers, w ≠ .exited)
    {queued : List (C × ChannelId)} {received : List C}
    (hqueued : ∀ c i, (c, i) ∈ queued → i = ch)
    (hinOrder : received ++ x'.queue = queued.map Prod.fst)
    (honce : ∀ c, (queued.map Prod.fst).count c + k.released.count c ≤ 1) :
    Inv bound
      { k.put ch x' with queued := queued, received := received } where
  published := hinv.published
  full := by
    intro i hi
    have heq : i = ch := Option.some.inj (hi.symm.trans hcell)
    obtain ⟨y, hy, hsender, hlength⟩ := hinv.full i hi
    rw [heq, hchan] at hy
    have hxy := Option.some.inj hy
    subst hxy
    refine ⟨x', if_pos heq, ?_, ?_⟩
    · rw [hworked.sender, hsender]
    · rw [hworked.started, hlength]
  alive := by
    intro i y hy
    by_cases hi : i = ch
    · simp only [put_chan, if_pos hi, Option.some.injEq] at hy
      exact hy ▸ fun _ => halive
    · simp only [put_chan, if_neg hi] at hy
      exact hinv.alive i y hy
  unused := by
    intro i y hy hne
    have hi : i ≠ ch := fun heq => hne (heq ▸ hcell)
    simp only [put_chan, if_neg hi] at hy
    exact hinv.unused i y hy hne
  left := by
    intro i y cell hy hcreator
    by_cases hi : i = ch
    · exact Or.inl (hi ▸ hcell)
    · simp only [put_chan, if_neg hi] at hy
      exact hinv.left i y cell hy hcreator
  queued := by
    intro c i hi
    rw [hqueued c i hi]
    exact hcell
  inOrder := by
    intro i y hi hy
    have heq : i = ch := Option.some.inj (hi.symm.trans hcell)
    simp only [put_chan, if_pos heq, Option.some.injEq] at hy
    exact hy ▸ hinOrder
  idle := by
    intro hnone
    have hcell' : k.cell = none := hnone
    rw [hcell] at hcell'
    exact nomatch hcell'
  once := honce
  asserted := hinv.asserted
  bounded := bounded_put hinv.bounded ch x'

/-- The same where nothing is sent or received. -/
theorem Inv.workPool (hinv : Inv bound k) {ch : ChannelId} {x x' : Channel C}
    (hcell : k.cell = some ch) (hchan : k.chan ch = some x)
    (hworked : x.Worked x') (halive : ∀ w ∈ x'.workers, w ≠ .exited)
    (hqueue : x'.queue = x.queue) : Inv bound (k.put ch x') := by
  apply hinv.putPool hcell hchan hworked halive _ _ hinv.once
  · intro c i hi
    exact Option.some.inj ((hinv.queued c i hi).symm.trans hcell)
  · rw [hqueue]
    exact hinv.inOrder ch x hcell hchan

/-- The pool's workers are there. -/
theorem Inv.pool_alive (hinv : Inv bound k) {ch : ChannelId} {x : Channel C}
    (hcell : k.cell = some ch) (hchan : k.chan ch = some x) :
    x.workers.length = bound ∧ x.sender = true ∧
      ∀ w ∈ x.workers, w ≠ .exited := by
  obtain ⟨y, hy, hsender, hlength⟩ := hinv.full ch hcell
  rw [hchan] at hy
  have hxy := Option.some.inj hy
  subst hxy
  exact ⟨hlength, hsender, hinv.alive ch x hchan hsender⟩

/-! ## The worker threads -/

omit [DecidableEq C] in
theorem setWorker_mem {x : Channel C} {i : Nat} {w w' : Worker C}
    (h : w ∈ (x.setWorker i w').workers) : w ∈ x.workers ∨ w = w' :=
  List.mem_or_eq_of_mem_set h

/-- Only the pool is used. -/
theorem Inv.pool_of_used (hinv : Inv bound k) {ch : ChannelId} {x : Channel C}
    (hchan : k.chan ch = some x) (hused : ¬ x.Unused) : k.cell = some ch := by
  by_cases hcell : k.cell = some ch
  · exact hcell
  · exact absurd (hinv.unused ch x hchan hcell) hused

omit [DecidableEq C] in
theorem not_unused {x : Channel C} {i : Nat} {c : C}
    (hworker : x.workers[i]? = some (.tearingDown c)) : ¬ x.Unused := by
  intro hunused
  cases hunused.workers _ (List.mem_of_getElem? hworker) with
  | inl h => exact nomatch h
  | inr h => exact nomatch h

omit [DecidableEq C] in
theorem Channel.Worked.recv {x : Channel C} {i : Nat} (c : C) (rest : List C)
    (hworker : x.workers[i]? = some .receiving) :
    x.Worked (({ x with queue := rest } : Channel C).setWorker i
      (.tearingDown c)) := by
  have hset : x.Worked (x.setWorker i (.tearingDown c)) :=
    .setWorker hworker nofun
  exact ⟨hset.creator, hset.sender, hset.started, hset.exited⟩

section

variable {ρ : Type} {job : C → ReapJob ρ} {k' : Host C}

theorem Inv.recv (hinv : Inv bound k) {ch : ChannelId} {x : Channel C} {i : Nat}
    {c : C} {rest : List C} (hchan : k.chan ch = some x)
    (hworker : x.workers[i]? = some .receiving)
    (hqueue : x.queue = c :: rest) :
    Inv bound { k.put ch (({ x with queue := rest } : Channel C).setWorker i
      (.tearingDown c)) with received := k.received ++ [c] } := by
  have hcell : k.cell = some ch := by
    apply hinv.pool_of_used hchan
    intro hunused
    have hempty := hunused.queue
    rw [hqueue] at hempty
    exact nomatch hempty
  apply hinv.putPool hcell hchan (.recv c rest hworker)
  · intro w hw
    cases setWorker_mem hw with
    | inl h => exact (hinv.pool_alive hcell hchan).2.2 w h
    | inr h => exact h ▸ nofun
  · intro c i hi
    exact Option.some.inj ((hinv.queued c i hi).symm.trans hcell)
  · have hinOrder := hinv.inOrder ch x hcell hchan
    rw [hqueue] at hinOrder
    show (k.received ++ [c]) ++ rest = k.queued.map Prod.fst
    rw [← hinOrder, List.append_assoc]
    rfl
  · exact hinv.once

theorem Inv.tornDown (hinv : Inv bound k) {ch : ChannelId} {x : Channel C}
    {i : Nat} {c : C} (hchan : k.chan ch = some x)
    (hworker : x.workers[i]? = some (.tearingDown c)) :
    Inv bound (k.put ch (x.setWorker i .receiving)) := by
  have hcell := hinv.pool_of_used hchan (not_unused hworker)
  have hworked : x.Worked (x.setWorker i .receiving) :=
    .setWorker hworker nofun
  apply hinv.workPool hcell hchan hworked _ rfl
  intro w hw
  cases setWorker_mem hw with
  | inl h => exact (hinv.pool_alive hcell hchan).2.2 w h
  | inr h => exact h ▸ nofun

/-- A worker that finds its channel disconnected is not one of the pool. -/
theorem Inv.disconnected (hinv : Inv bound k) {ch : ChannelId} {x : Channel C}
    {i : Nat} (hchan : k.chan ch = some x) (hsender : x.sender = false) :
    Inv bound (k.put ch (x.setWorker i .exited)) := by
  have hcell : k.cell ≠ some ch := by
    intro hcell
    have hsender' := (hinv.pool_alive hcell hchan).2.1
    rw [hsender] at hsender'
    exact nomatch hsender'
  have hunused := hinv.unused ch x hchan hcell
  apply hinv.putOther hcell
  · intro hsender'
    have hsame : x.sender = true := hsender'
    rw [hsender] at hsame
    exact nomatch hsame
  · refine ⟨hunused.queue, ?_⟩
    intro w hw
    cases setWorker_mem hw with
    | inl h => exact hunused.workers w h
    | inr h => exact Or.inr h
  · intro cell hleft
    cases hinv.left ch x cell hchan hleft with
    | inl h => exact absurd h hcell
    | inr h => exact h

theorem Inv.moves (hinv : Inv bound k) (hmove : Host.Moves job k k') :
    Inv bound k' := by
  cases hmove with
  | recv hchan hworker hqueue => exact hinv.recv hchan hworker hqueue
  | tornDown hchan hworker panics hend => exact hinv.tornDown hchan hworker
  | unwound hchan hworker panics hend =>
      exact absurd hend (workOn_ne_unwinding panics _)
  | disconnected hchan hworker hqueue hsender =>
      exact hinv.disconnected hchan hsender

theorem Undisturbed.moves (c : C) (hmove : Host.Moves job k k') :
    Undisturbed c k k' := by
  cases hmove with
  | @recv ch x i c' rest hchan hworker hqueue =>
      exact .put hchan (.recv c' rest hworker) rfl
  | tornDown hchan hworker panics hend =>
      exact .put hchan (.setWorker hworker nofun) rfl
  | unwound hchan hworker panics hend =>
      exact absurd hend (workOn_ne_unwinding panics _)
  | disconnected hchan hworker hqueue hsender =>
      exact .put hchan (.setWorker hworker nofun) rfl

end

end

end Cosca.Ports.ReaperPool
