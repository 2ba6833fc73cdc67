import Cosca.Ports.ReaperInvariant

/-!
# What a submitting thread knows

The assertions of a caller between its questions, and what each call on the
process does to them.  All of them are about what only the caller changes: the
init lock while it holds it, the channel it created, and its own job.

## Main results

* `Fresh.undisturbed`, `Opened.undisturbed`, `Ended.undisturbed`,
  `Waiting.undisturbed`: the assertions survive what all others do.
* `lock_steps`, `channel_steps`, `spawn_steps`, `publish_steps`,
  `dropRx_quiet`, `dropTx_steps`, `unlock_steps`, `send_steps`,
  `dropOs_steps`: what a call keeps, and what the caller knows after it.
-/

namespace Cosca.Ports.ReaperPool

open Cosca.Ports.ReaperWorker

variable {C : Type} [DecidableEq C] {bound : Nat} {c : C} {k k' : Host C}

/-! ## Assertions -/

/-- The caller has done nothing yet. -/
structure Fresh (c : C) (k : Host C) : Prop where
  unlocked : k.holder ≠ some c
  left : c ∉ k.left.map Prod.fst
  handled : k.handled c = 0
  unstarted : ∀ ch x, k.chan ch = some x → x.creator ≠ c

/-- The caller is in the critical section. -/
structure Locked (c : C) (k : Host C) : Prop where
  holder : k.holder = some c
  left : c ∉ k.left.map Prod.fst
  handled : k.handled c = 0

/-- The same before it made a channel. -/
structure Entered (c : C) (k : Host C) : Prop where
  locked : Locked c k
  unstarted : ∀ ch x, k.chan ch = some x → x.creator ≠ c

/-- An init attempt of the caller, with so many workers started. -/
structure Opened (c : C) (ch : ChannelId) (n : Nat) (k : Host C) : Prop where
  locked : Locked c k
  cell : k.cell = none
  chan : ∃ x, k.chan ch = some x ∧ x.creator = c ∧ x.sender = true ∧
    x.workers.length = n
  solo : ∀ i x, k.chan i = some x → x.creator = c → i = ch

/-- A worker that the caller abandoned: nobody can send on its channel. -/
def Host.Abandoned (k : Host C) (c : C) (worker : WorkerId) : Prop :=
  ∃ x, k.chan worker.channel = some x ∧ x.creator = c ∧ x.sender = false ∧
    worker.index < x.workers.length

/-- The caller's attempt is published, or it leaves the cell empty and has the
handles of all the workers it started. -/
structure Ended (c : C) (handles : List WorkerId) (k : Host C) : Prop where
  locked : Locked c k
  own : ∀ ch x, k.chan ch = some x → x.creator = c → k.cell = some ch ∨
    k.cell = none ∧ x.sender = false ∧
      ∀ i, i < x.workers.length → ⟨ch, i⟩ ∈ handles
  abandoned : ∀ worker ∈ handles, k.Abandoned c worker

/-- The caller is past the critical section, with so many of its jobs handled
and these workers still to join. -/
structure Waiting (c : C) (n : Nat) (handles : List WorkerId) (k : Host C) :
    Prop where
  unlocked : k.holder ≠ some c
  handled : k.handled c = n
  own : ∀ ch x, k.chan ch = some x → x.creator = c → k.cell = some ch ∨
    ∀ i, i < x.workers.length →
      ⟨ch, i⟩ ∈ handles ∨ x.workers[i]? = some .exited
  abandoned : ∀ worker ∈ handles, k.Abandoned c worker

theorem Locked.not_left (hk : Locked c k) {cell : Option ChannelId} :
    (c, cell) ∉ k.left :=
  fun hmem => hk.left (List.mem_map.mpr ⟨_, hmem, rfl⟩)

/-! ## Under the steps of others -/

theorem Locked.undisturbed (h : Undisturbed c k k') (hk : Locked c k) :
    Locked c k' where
  holder := (h.locked hk.holder).1
  left := h.left hk.left
  handled := h.handled.trans hk.handled

theorem unstarted_undisturbed (h : Undisturbed c k k')
    (hk : ∀ ch x, k.chan ch = some x → x.creator ≠ c) :
    ∀ ch x, k'.chan ch = some x → x.creator ≠ c := by
  intro ch x hx hc
  obtain ⟨y, hy, hcreator, _⟩ := h.own ch x hx hc
  exact hk ch y hy hcreator

theorem Fresh.undisturbed (h : Undisturbed c k k') (hk : Fresh c k) :
    Fresh c k' where
  unlocked := h.unlocked hk.unlocked
  left := h.left hk.left
  handled := h.handled.trans hk.handled
  unstarted := unstarted_undisturbed h hk.unstarted

theorem Entered.undisturbed (h : Undisturbed c k k') (hk : Entered c k) :
    Entered c k' :=
  ⟨hk.locked.undisturbed h, unstarted_undisturbed h hk.unstarted⟩

theorem Opened.undisturbed {ch : ChannelId} {n : Nat}
    (h : Undisturbed c k k') (hk : Opened c ch n k) : Opened c ch n k' where
  locked := hk.locked.undisturbed h
  cell := (h.locked hk.locked.holder).2.trans hk.cell
  chan := by
    obtain ⟨x, hx, hcreator, hsender, hlength⟩ := hk.chan
    obtain ⟨x', hx', hworked⟩ := h.kept ch x hx hcreator
    refine ⟨x', hx', ?_, ?_, ?_⟩
    · rw [hworked.creator, hcreator]
    · rw [hworked.sender, hsender]
    · rw [hworked.started, hlength]
  solo := by
    intro i x hx hc
    obtain ⟨y, hy, hcreator, _⟩ := h.own i x hx hc
    exact hk.solo i y hy hcreator

theorem Host.Abandoned.undisturbed {worker : WorkerId}
    (h : Undisturbed c k k') (hk : k.Abandoned c worker) :
    k'.Abandoned c worker := by
  obtain ⟨x, hx, hcreator, hsender, hindex⟩ := hk
  obtain ⟨x', hx', hworked⟩ := h.kept worker.channel x hx hcreator
  refine ⟨x', hx', ?_, ?_, ?_⟩
  · rw [hworked.creator, hcreator]
  · rw [hworked.sender, hsender]
  · rw [hworked.started]
    exact hindex

theorem Ended.undisturbed {handles : List WorkerId} (h : Undisturbed c k k')
    (hk : Ended c handles k) : Ended c handles k' where
  locked := hk.locked.undisturbed h
  own := by
    intro ch x hx hc
    obtain ⟨y, hy, hcreator, hworked⟩ := h.own ch x hx hc
    rw [(h.locked hk.locked.holder).2, hworked.sender, hworked.started]
    exact hk.own ch y hy hcreator
  abandoned := fun worker hmem => (hk.abandoned worker hmem).undisturbed h

theorem Waiting.undisturbed {n : Nat} {handles : List WorkerId}
    (h : Undisturbed c k k') (hk : Waiting c n handles k) :
    Waiting c n handles k' where
  unlocked := h.unlocked hk.unlocked
  handled := h.handled.trans hk.handled
  own := by
    intro ch x hx hc
    obtain ⟨y, hy, hcreator, hworked⟩ := h.own ch x hx hc
    cases hk.own ch y hy hcreator with
    | inl hcell => exact Or.inl (h.cell ch hcell)
    | inr hhandles =>
        refine Or.inr fun i hi => ?_
        rw [hworked.started] at hi
        cases hhandles i hi with
        | inl hmem => exact Or.inl hmem
        | inr hexited => exact Or.inr (hworked.exited i hexited)
  abandoned := fun worker hmem => (hk.abandoned worker hmem).undisturbed h

/-! ## Calls -/

/-- What a call of `c` leads to. -/
structure Steps (bound : Nat) (c : C) (k k' : Host C) (post : Host C → Prop) :
    Prop where
  inv : Inv bound k'
  guar : Guar c k k'
  post : post k'

theorem Steps.same {post : Host C → Prop} (hinv : Inv bound k) (h : post k) :
    Steps bound c k k post :=
  ⟨hinv, .refl c k, h⟩

theorem lock_steps (hinv : Inv bound k) (hk : Fresh c k)
    (hfree : k.holder = none) :
    Steps bound c k { k with holder := some c } (Entered c) where
  inv := ⟨hinv.published, hinv.full, hinv.alive, hinv.unused, hinv.left,
    hinv.queued, hinv.inOrder, hinv.idle, hinv.once, hinv.asserted,
    hinv.bounded⟩
  guar := by
    intro c' hne
    refine .of_chan rfl (fun _ h => h) ?_ ?_ (fun h => h) rfl
    · intro hholder
      rw [hfree] at hholder
      exact nomatch hholder
    · intro _ hholder
      exact hne (Option.some.inj hholder).symm
  post := ⟨⟨rfl, hk.left, hk.handled⟩, hk.unstarted⟩

theorem channel_steps (hinv : Inv bound k) (hk : Entered c k)
    (hcell : k.cell = none) {ch : ChannelId} (hfree : k.chan ch = none) :
    Steps bound c k (k.put ch (.new c)) (Opened c ch 0) where
  inv := by
    apply hinv.putOther
    · rw [hcell]
      exact nofun
    · intro _ w hw
      exact absurd hw List.not_mem_nil
    · exact ⟨rfl, fun w hw => absurd hw List.not_mem_nil⟩
    · exact fun cell hleft => absurd hleft hk.locked.not_left
  guar := by
    refine Guar.put ?_ rfl
    intro x hx
    rw [hfree] at hx
    exact nomatch hx
  post := by
    refine ⟨⟨hk.locked.holder, hk.locked.left, hk.locked.handled⟩, hcell,
      ⟨.new c, if_pos rfl, rfl, rfl, rfl⟩, ?_⟩
    intro i x hx hc
    by_cases hi : i = ch
    · exact hi
    · rw [put_chan, if_neg hi] at hx
      exact absurd hc (hk.unstarted i x hx)

/-- Nobody else is concerned by what the caller does to the channel of its
attempt, as long as nothing is sent on it. -/
theorem Opened.put_steps (hinv : Inv bound k) {ch : ChannelId} {n : Nat}
    (hk : Opened c ch n k) {x : Channel C} (hcreator : x.creator = c)
    (halive : x.Alive) (hunused : x.Unused) {post : Host C → Prop}
    (hpost : post (k.put ch x)) : Steps bound c k (k.put ch x) post where
  inv := by
    refine hinv.putOther ?_ halive hunused fun cell hleft => ?_
    · rw [hk.cell]
      exact nofun
    · have hmem : (c, cell) ∈ k.left := hcreator ▸ hleft
      exact absurd hmem hk.locked.not_left
  guar := by
    refine Guar.put ?_ hcreator
    intro y hy
    obtain ⟨z, hz, hown, -⟩ := hk.chan
    rw [hz] at hy
    exact Option.some.inj hy ▸ hown
  post := hpost

theorem Opened.unused (hinv : Inv bound k) {ch : ChannelId} {n : Nat}
    (hk : Opened c ch n k) {x : Channel C} (hchan : k.chan ch = some x) :
    x.Unused := by
  refine hinv.unused ch x hchan ?_
  rw [hk.cell]
  exact nofun

theorem spawn_steps (hinv : Inv bound k) {ch : ChannelId} {n : Nat}
    (hk : Opened c ch n k) {x : Channel C} (hchan : k.chan ch = some x) :
    Steps bound c k
      (k.put ch { x with workers := x.workers ++ [.receiving] })
      (Opened c ch (n + 1)) := by
  obtain ⟨y, hy, hcreator, hsender, hlength⟩ := hk.chan
  rw [hchan] at hy
  have hxy := Option.some.inj hy
  subst hxy
  have hunused := hk.unused hinv hchan
  refine hk.put_steps hinv ?_ ?_ ?_ ?_
  · exact hcreator
  · intro _ w hw
    cases List.mem_append.mp hw with
    | inl h => exact hinv.alive ch x hchan hsender w h
    | inr h => exact List.mem_singleton.mp h ▸ nofun
  · refine ⟨hunused.queue, ?_⟩
    intro w hw
    cases List.mem_append.mp hw with
    | inl h => exact hunused.workers w h
    | inr h => exact Or.inl (List.mem_singleton.mp h)
  · refine ⟨⟨hk.locked.holder, hk.locked.left, hk.locked.handled⟩, hk.cell,
      ⟨_, if_pos rfl, hcreator, hsender, ?_⟩, ?_⟩
    · rw [List.length_append, hlength]
      rfl
    · intro i y hy hc
      by_cases hi : i = ch
      · exact hi
      · rw [put_chan, if_neg hi] at hy
        exact hk.solo i y hy hc

theorem publish_steps (hinv : Inv bound k) {ch : ChannelId}
    (hk : Opened c ch bound k) :
    Steps bound c k
      { k with cell := some ch, published := k.published ++ [ch] }
      (Ended c []) := by
  obtain ⟨x, hchan, hcreator, hsender, hlength⟩ := hk.chan
  have hcell : ∀ i, k.cell ≠ some i := by
    intro i
    rw [hk.cell]
    exact nofun
  have hqueued : k.queued = [] := by
    apply List.eq_nil_iff_forall_not_mem.mpr
    intro q hq
    exact hcell q.2 (hinv.queued q.1 q.2 hq)
  refine ⟨?_, ?_, ?_⟩
  · refine
      { published := ?_
        full := ?_
        alive := hinv.alive
        unused := fun i y hy _ => hinv.unused i y hy (hcell i)
        left := ?_
        queued := ?_
        inOrder := ?_
        idle := nofun
        once := hinv.once
        asserted := hinv.asserted
        bounded := hinv.bounded }
    · show k.published ++ [ch] = [ch]
      rw [hinv.published, hk.cell]
      rfl
    · intro i hi
      have hch : ch = i := Option.some.inj hi
      subst hch
      exact ⟨x, hchan, hsender, hlength⟩
    · intro i y cell hy hleft
      cases hinv.left i y cell hy hleft with
      | inl h => exact absurd h (hcell i)
      | inr h => exact Or.inr h
    · intro c' i hi
      have hmem : (c', i) ∈ k.queued := hi
      rw [hqueued] at hmem
      exact absurd hmem List.not_mem_nil
    · intro i y hi hy
      show k.received ++ y.queue = k.queued.map Prod.fst
      rw [hinv.idle hk.cell, (hinv.unused i y hy (hcell i)).queue, hqueued]
      rfl
  · intro c' hne
    refine .of_chan rfl (fun i hi => absurd hi (hcell i)) ?_ (fun h => h)
      (fun h => h) rfl
    intro hholder
    rw [hk.locked.holder] at hholder
    exact absurd (Option.some.inj hholder).symm hne
  · refine ⟨⟨hk.locked.holder, hk.locked.left, hk.locked.handled⟩, ?_, nofun⟩
    intro i y hy hc
    exact Or.inl (congrArg some (hk.solo i y hy hc).symm)

/-- The receiver of the init attempt is nobody's concern. -/
theorem dropRx_quiet (hinv : Inv bound k) (ch : ChannelId) :
    Inv bound (k.modify ch fun x => { x with receiver := false }) ∧
      ∀ c, Undisturbed c k
        (k.modify ch fun x => { x with receiver := false }) := by
  unfold Host.modify
  cases hchan : k.chan ch with
  | none => exact ⟨hinv, fun c => .refl c k⟩
  | some x =>
      have hworked : x.Worked { x with receiver := false } :=
        ⟨rfl, rfl, rfl, fun _ h => h⟩
      refine ⟨?_, fun c => .put hchan hworked rfl⟩
      by_cases hcell : k.cell = some ch
      · have halive := (hinv.pool_alive hcell hchan).2.2
        exact hinv.workPool hcell hchan hworked halive rfl
      · have hunused := hinv.unused ch x hchan hcell
        apply hinv.putOther hcell
        · exact hinv.alive ch x hchan
        · exact ⟨hunused.queue, hunused.workers⟩
        · intro cell hleft
          cases hinv.left ch x cell hchan hleft with
          | inl h => exact absurd h hcell
          | inr h => exact h

theorem dropTx_steps (hinv : Inv bound k) {ch : ChannelId} {n : Nat}
    (hk : Opened c ch n k) {handles : List WorkerId}
    (hhandles : ∀ i, i < n → ⟨ch, i⟩ ∈ handles)
    (hall : ∀ worker ∈ handles, worker.channel = ch ∧ worker.index < n) :
    Steps bound c k (k.modify ch fun x => { x with sender := false })
      (Ended c handles) := by
  obtain ⟨x, hchan, hcreator, hsender, hlength⟩ := hk.chan
  have hunused := hk.unused hinv hchan
  rw [modify_of_chan _ hchan]
  refine hk.put_steps hinv ?_ ?_ ?_ ?_
  · exact hcreator
  · intro hsender
    exact nomatch hsender
  · exact ⟨hunused.queue, hunused.workers⟩
  · refine
      ⟨⟨hk.locked.holder, hk.locked.left, hk.locked.handled⟩, ?_, ?_⟩
    · intro i y hy hc
      refine Or.inr ⟨hk.cell, ?_⟩
      by_cases hi : i = ch
      · subst hi
        simp only [put_chan, if_true, Option.some.injEq] at hy
        subst hy
        exact ⟨rfl, fun j hj => hhandles j (hlength ▸ hj)⟩
      · rw [put_chan, if_neg hi] at hy
        exact absurd (hk.solo i y hy hc) hi
    · intro worker hworker
      obtain ⟨hchannel, hindex⟩ := hall worker hworker
      exact ⟨{ x with sender := false }, if_pos hchannel, hcreator, rfl,
        hlength ▸ hindex⟩

theorem unlock_steps (hinv : Inv bound k) {handles : List WorkerId}
    (hk : Ended c handles k) :
    Steps bound c k
      { k with holder := none, left := k.left ++ [(c, k.cell)] }
      (Waiting c 0 handles) where
  inv := by
    refine ⟨hinv.published, hinv.full, hinv.alive, hinv.unused, ?_,
      hinv.queued, hinv.inOrder, hinv.idle, hinv.once, hinv.asserted,
      hinv.bounded⟩
    intro ch x cell hchan hleft
    cases List.mem_append.mp hleft with
    | inl h => exact hinv.left ch x cell hchan h
    | inr h =>
        have heq := Prod.mk.inj (List.mem_singleton.mp h)
        rw [heq.2]
        cases hk.own ch x hchan heq.1 with
        | inl hcell => exact Or.inl hcell
        | inr hcell => exact Or.inr ⟨hcell.1, hcell.2.1⟩
  guar := by
    intro c' hne
    refine .of_chan rfl (fun _ h => h) ?_ (fun _ => nofun) ?_ rfl
    · intro hholder
      rw [hk.locked.holder] at hholder
      exact absurd (Option.some.inj hholder).symm hne
    · intro hleft hmem
      rw [List.map_append, List.mem_append] at hmem
      cases hmem with
      | inl h => exact hleft h
      | inr h => exact hne (List.mem_singleton.mp h)
  post := by
    refine ⟨nofun, hk.locked.handled, ?_, hk.abandoned⟩
    intro ch x hchan hc
    cases hk.own ch x hchan hc with
    | inl hcell => exact Or.inl hcell
    | inr hcell => exact Or.inr fun i hi => Or.inl (hcell.2.2 i hi)

omit [DecidableEq C] in
/-- The counts after one more entry of `c`. -/
theorem count_concat [DecidableEq C] (l : List C) (c c' : C) :
    (l ++ [c]).count c' = l.count c' + if c = c' then 1 else 0 := by
  rw [List.count_append, List.count_singleton]
  by_cases h : c = c'
  · simp [h]
  · simp [h]

theorem send_steps (hinv : Inv bound k) {ch : ChannelId} {x : Channel C}
    (hk : Waiting c 0 [] k) (hcell : k.cell = some ch)
    (hchan : k.chan ch = some x) :
    Steps bound c k
      { k.put ch { x with queue := x.queue ++ [c] } with
        queued := k.queued ++ [(c, ch)] }
      (Waiting c 1 []) := by
  have hworked : x.Worked { x with queue := x.queue ++ [c] } :=
    ⟨rfl, rfl, rfl, fun _ h => h⟩
  have hcount : ∀ c', ((k.queued ++ [(c, ch)]).map Prod.fst).count c' =
      (k.queued.map Prod.fst).count c' + if c = c' then 1 else 0 := by
    intro c'
    rw [List.map_append]
    exact count_concat _ c c'
  refine ⟨?_, ?_, ?_⟩
  · apply hinv.putPool hcell hchan hworked (hinv.pool_alive hcell hchan).2.2
    · intro c' i hi
      cases List.mem_append.mp hi with
      | inl h =>
          exact Option.some.inj ((hinv.queued c' i h).symm.trans hcell)
      | inr h => exact (Prod.mk.inj (List.mem_singleton.mp h)).2
    · show k.received ++ (x.queue ++ [c]) = _
      rw [← List.append_assoc, hinv.inOrder ch x hcell hchan, List.map_append]
      rfl
    · intro c'
      have honce := hinv.once c'
      have hhandled := hk.handled
      rw [hcount]
      by_cases hc : c = c'
      · subst hc
        rw [if_pos rfl]
        unfold Host.handled at hhandled
        omega
      · rw [if_neg hc]
        exact honce
  · intro c' hne
    apply Undisturbed.put hchan hworked
    rw [hcount, if_neg fun hc => hne hc.symm]
    rfl
  · have hput : Undisturbed c k
        (k.put ch { x with queue := x.queue ++ [c] }) :=
      .put hchan hworked rfl
    have hwaiting := hk.undisturbed hput
    refine ⟨hwaiting.unlocked, ?_, hwaiting.own, nofun⟩
    have hhandled := hk.handled
    unfold Host.handled at hhandled ⊢
    show ((k.queued ++ [(c, ch)]).map Prod.fst).count c +
      k.released.count c = 1
    rw [hcount, if_pos rfl]
    omega

theorem dropOs_steps (hinv : Inv bound k) (hk : Waiting c 0 [] k) :
    Steps bound c k { k with released := k.released ++ [c] }
      (Waiting c 1 []) := by
  have hcount : ∀ c', Host.handled
      { k with released := k.released ++ [c] } c' =
        k.handled c' + if c = c' then 1 else 0 := by
    intro c'
    show _ + (k.released ++ [c]).count c' = _
    rw [count_concat, ← Nat.add_assoc]
    rfl
  refine ⟨?_, ?_, ?_⟩
  · refine ⟨hinv.published, hinv.full, hinv.alive, hinv.unused, hinv.left,
      hinv.queued, hinv.inOrder, hinv.idle, ?_, hinv.asserted, hinv.bounded⟩
    intro c'
    have honce := hinv.once c'
    rw [hcount]
    by_cases hc : c = c'
    · subst hc
      have hhandled := hk.handled
      rw [if_pos rfl]
      omega
    · rw [if_neg hc]
      exact honce
  · intro c' hne
    refine .of_chan rfl (fun _ h => h) (fun h => ⟨h, rfl⟩) (fun h => h)
      (fun h => h) ?_
    rw [hcount, if_neg fun hc => hne hc.symm]
    rfl
  · refine ⟨hk.unlocked, ?_, hk.own, nofun⟩
    rw [hcount, if_pos rfl, hk.handled]

omit [DecidableEq C] in
theorem Waiting.join [DecidableEq C] {n : Nat} {worker : WorkerId}
    {handles : List WorkerId} (hk : Waiting c n (worker :: handles) k)
    (hexited : k.HasExited worker) : Waiting c n handles k where
  unlocked := hk.unlocked
  handled := hk.handled
  own := by
    intro ch x hchan hc
    cases hk.own ch x hchan hc with
    | inl hcell => exact Or.inl hcell
    | inr hhandles =>
        refine Or.inr fun i hi => ?_
        cases hhandles i hi with
        | inl hmem =>
            cases List.mem_cons.mp hmem with
            | inl heq =>
                obtain ⟨y, hy, hworker⟩ := hexited
                rw [← heq] at hy hworker
                rw [hchan] at hy
                exact Or.inr (Option.some.inj hy ▸ hworker)
            | inr htail => exact Or.inl htail
        | inr hdone => exact Or.inr hdone
  abandoned := fun w hmem => hk.abandoned w (List.mem_cons_of_mem _ hmem)

end Cosca.Ports.ReaperPool
