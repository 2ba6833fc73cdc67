import Cosca.Verified.Interact

/-!
# Programs on an environment that moves

Partial-correctness triples for the runs of `Prog.RunsOn`: from a state that
satisfies `pre`, whatever the environment answers and however it moves in
between, the program can only end with a value and a state in `post`.  A
condition that the environment's own moves cannot break is `Stable`; only such
conditions can be carried from one question to the next.

## Main results

* `Prog.Guarantees.ask`, `Prog.Guarantees.bind`: the rules for one question
  and for a sequence.
* `Prog.RunsOn.of_recording`: a run told with all the states it goes through is
  a run.
-/

namespace Cosca.Verified.Interact

variable {Q : Type} {A : Q → Type} {α β K : Type} {env : Environment A K}

/-- The environment's moves keep the condition. -/
def Environment.Stable (env : Environment A K) (cond : K → Prop) : Prop :=
  ∀ k k', env.moves k k' → cond k → cond k'

theorem Environment.Stable.and {left right : K → Prop}
    (hleft : env.Stable left) (hright : env.Stable right) :
    env.Stable fun k => left k ∧ right k :=
  fun k k' hmove h => ⟨hleft k k' hmove h.1, hright k k' hmove h.2⟩

theorem Environment.Stable.imp (given : Prop) {cond : K → Prop}
    (hcond : env.Stable cond) : env.Stable fun k => given → cond k :=
  fun k k' hmove h hgiven => hcond k k' hmove (h hgiven)

/-- Every run from `pre` that ends, ends in `post`. -/
def Prog.Guarantees (env : Environment A K) (pre : K → Prop)
    (p : Prog Q A α) (post : α → K → Prop) : Prop :=
  ∀ k r k', p.RunsOn env k r k' → pre k → post r k'

theorem Prog.Guarantees.conseq {pre pre' : K → Prop} {p : Prog Q A α}
    {post post' : α → K → Prop} (h : p.Guarantees env pre post)
    (hpre : ∀ k, pre' k → pre k) (hpost : ∀ r k, post r k → post' r k) :
    p.Guarantees env pre' post' :=
  fun k r k' hrun hk => hpost r k' (h k r k' hrun (hpre k hk))

/-- A value that is returned at once is returned in any state that the moves
lead to. -/
theorem Prog.Guarantees.pure {pre : K → Prop} {a : α} {post : α → K → Prop}
    (hstable : env.Stable pre) (hpost : ∀ k, pre k → post a k) :
    (Pure.pure a : Prog Q A α).Guarantees env pre post := by
  intro k r k' hrun hk
  generalize hp : (Pure.pure a : Prog Q A α) = p at hrun
  induction hrun with
  | done a' k =>
      cases hp
      exact hpost k hk
  | move hmove _ ih => exact ih (hstable _ _ hmove hk) hp
  | ask _ _ _ _ => cases hp

theorem Prog.Guarantees.run_pure {ε : Type} {pre : K → Prop} {a : α}
    {post : Except ε α → K → Prop} (hstable : env.Stable pre)
    (hpost : ∀ k, pre k → post (.ok a) k) :
    Prog.Guarantees env pre (Pure.pure a : ExceptT ε (Prog Q A) α).run post :=
  Prog.Guarantees.pure hstable hpost

theorem Prog.Guarantees.run_throw {ε : Type} {pre : K → Prop} {e : ε}
    {post : Except ε α → K → Prop} (hstable : env.Stable pre)
    (hpost : ∀ k, pre k → post (.error e) k) :
    Prog.Guarantees env pre (throw e : ExceptT ε (Prog Q A) α).run post :=
  Prog.Guarantees.pure hstable hpost

/-- A question is answered in a state that still satisfies `pre`. -/
theorem Prog.Guarantees.ask {pre : K → Prop} {q : Q}
    {next : A q → Prog Q A α} {post : α → K → Prop} (mid : A q → K → Prop)
    (hstable : env.Stable pre)
    (hserves : ∀ k a k', env.serves k q a k' → pre k → mid a k')
    (hnext : ∀ a, (next a).Guarantees env (mid a) post) :
    (Prog.ask q next).Guarantees env pre post := by
  intro k r k' hrun hk
  obtain ⟨k₁, a, k₂, hk₁, hanswer, hrest⟩ := hrun.of_ask pre hstable hk
  exact hnext a k₂ r k' hrest (hserves k₁ a k₂ hanswer hk₁)

/-- The rule for a question in front of the rest of a program. -/
theorem Prog.Guarantees.query_bind {pre : K → Prop} {q : Q}
    {f : A q → Prog Q A α} {post : α → K → Prop} (mid : A q → K → Prop)
    (hstable : env.Stable pre)
    (hserves : ∀ k a k', env.serves k q a k' → pre k → mid a k')
    (hf : ∀ a, (f a).Guarantees env (mid a) post) :
    Prog.Guarantees env pre (query q >>= f) post :=
  Prog.Guarantees.ask mid hstable hserves hf

/-- The same in a program that may fail. -/
theorem Prog.Guarantees.run_query_bind {ε : Type} {pre : K → Prop} {q : Q}
    {f : A q → ExceptT ε (Prog Q A) α} {post : Except ε α → K → Prop}
    (mid : A q → K → Prop) (hstable : env.Stable pre)
    (hserves : ∀ k a k', env.serves k q a k' → pre k → mid a k')
    (hf : ∀ a, Prog.Guarantees env (mid a) (f a).run post) :
    Prog.Guarantees env pre
      (ExceptT.lift (query q : Prog Q A (A q)) >>= f).run post :=
  Prog.Guarantees.ask mid hstable hserves hf

theorem Prog.Guarantees.bind {pre : K → Prop} {p : Prog Q A α}
    {f : α → Prog Q A β} {post : β → K → Prop} (mid : α → K → Prop)
    (h : p.Guarantees env pre mid)
    (hf : ∀ a, (f a).Guarantees env (mid a) post) :
    Prog.Guarantees env pre (p >>= f) post := by
  intro k r k' hrun hk
  obtain ⟨a, k₁, hfirst, hrest⟩ := hrun.of_bind
  exact hf a k₁ r k' hrest (h k a k₁ hfirst hk)

/-- The rule for a sequence that may fail: what the first part fails with is
the result. -/
theorem Prog.Guarantees.run_bind {ε : Type} {pre : K → Prop}
    {p : ExceptT ε (Prog Q A) α} {f : α → ExceptT ε (Prog Q A) β}
    {post : Except ε β → K → Prop} (mid : Except ε α → K → Prop)
    (h : Prog.Guarantees env pre p.run mid)
    (hf : ∀ a, Prog.Guarantees env (mid (.ok a)) (f a).run post)
    (herror : ∀ e, env.Stable (mid (.error e)) ∧
      ∀ k, mid (.error e) k → post (.error e) k) :
    Prog.Guarantees env pre (p >>= f).run post := by
  refine Prog.Guarantees.bind (p := p.run) (f := ExceptT.bindCont f) mid h ?_
  intro r
  cases r with
  | ok a => exact hf a
  | error e => exact .pure (herror e).1 (herror e).2

/-- Two guarantees of one program hold together. -/
theorem Prog.Guarantees.and {p : Prog Q A α} {pre pre' : K → Prop}
    {post post' : α → K → Prop} (h : p.Guarantees env pre post)
    (h' : p.Guarantees env pre' post') :
    p.Guarantees env (fun k => pre k ∧ pre' k)
      fun r k => post r k ∧ post' r k :=
  fun k r k' hrun hk => ⟨h k r k' hrun hk.1, h' k r k' hrun hk.2⟩

/-- A condition that neither the moves nor the program's questions break. -/
theorem Prog.Guarantees.frame {p : Prog Q A α} {cond : K → Prop}
    (ok : Q → Prop) (hasks : p.Asks ok) (hstable : env.Stable cond)
    (hserves : ∀ q, ok q → ∀ k a k', env.serves k q a k' → cond k → cond k') :
    p.Guarantees env cond fun _ => cond :=
  fun _ _ _ hrun hk => hrun.invariant cond hstable hserves hasks hk

/-- A fact that does not depend on the state may be used in the proof. -/
theorem Prog.Guarantees.given {p : Prog Q A α} {fact : Prop} {pre : K → Prop}
    {post : α → K → Prop} (h : fact → p.Guarantees env pre post) :
    p.Guarantees env (fun k => fact ∧ pre k) post :=
  fun k r k' hrun hk => h hk.1 k r k' hrun hk.2

/-- A loop over a list, with an assertion on the elements still to come. -/
theorem Prog.Guarantees.foldlM {σ ι : Type} {step : σ → ι → Prog Q A σ}
    (assertion : List ι → σ → K → Prop)
    (hnil : ∀ s, env.Stable (assertion [] s))
    (hstep : ∀ x todo s, (step s x).Guarantees env (assertion (x :: todo) s)
      (assertion todo))
    (xs : List ι) :
    ∀ s, Prog.Guarantees env (assertion xs s) (xs.foldlM step s)
      (assertion []) := by
  induction xs with
  | nil =>
      intro s
      exact .pure (hnil s) fun k hk => hk
  | cons x xs ih =>
      intro s
      rw [List.foldlM_cons]
      exact .bind (assertion xs) (hstep x xs s) ih

/-! ## Views -/

section

variable {Q' : Type} {A' : Q' → Type} {K' : Type} {env' : Environment A' K'}
  {f : Q → Q'} {g : (q : Q) → A' (f q) → A q}

/-- A program that runs in a larger environment runs in the part of it that it
asks, if the larger one moves that part as the smaller one moves. -/
theorem Prog.RunsOn.of_embed (view : K' → K)
    (hmoves : ∀ k k', env'.moves k k' →
      view k' = view k ∨ env.moves (view k) (view k'))
    (hserves : ∀ q k a k', env'.serves k (f q) a k' →
      env.serves (view k) q (g q a) (view k'))
    {p : Prog Q A α} {k k' : K'} {r : α}
    (h : (p.embed f g).RunsOn env' k r k') :
    p.RunsOn env (view k) r (view k') := by
  generalize hwhole : p.embed f g = whole at h
  induction h generalizing p with
  | done a k =>
      cases p with
      | done a' =>
          cases hwhole
          exact .done _ _
      | ask q next => cases hwhole
  | move hmove _ ih =>
      rcases hmoves _ _ hmove with hsame | hmove
      · rw [← hsame]
        exact ih hwhole
      · exact .move hmove (ih hwhole)
  | ask a hanswer _ ih =>
      cases p with
      | done a' => cases hwhole
      | ask q next =>
          cases hwhole
          exact .ask _ (hserves q _ a _ hanswer) (ih rfl)

/-- An embedded program asks embedded questions. -/
theorem Prog.embed_asks (p : Prog Q A α) :
    (p.embed f g).Asks fun q' => ∃ q, q' = f q := by
  induction p with
  | done a => exact trivial
  | ask q next ih => exact ⟨⟨q, rfl⟩, fun a => ih (g q a)⟩

/-- What a program guarantees, it guarantees of the part of a larger
environment that it asks, and leaves alone what its questions do. -/
theorem Prog.Guarantees.embed {p : Prog Q A α} {pre : K → Prop}
    {post : α → K → Prop} (h : p.Guarantees env pre post) (view : K' → K)
    (frame : K' → Prop)
    (hmoves : ∀ k k', env'.moves k k' →
      view k' = view k ∨ env.moves (view k) (view k'))
    (hserves : ∀ q k a k', env'.serves k (f q) a k' →
      env.serves (view k) q (g q a) (view k'))
    (hstable : env'.Stable frame)
    (hframe : ∀ q k a k', env'.serves k (f q) a k' → frame k → frame k') :
    (p.embed f g).Guarantees env' (fun k => pre (view k) ∧ frame k)
      fun r k => post r (view k) ∧ frame k := by
  intro k r k' hrun hk
  refine ⟨h (view k) r (view k') (hrun.of_embed view hmoves hserves) hk.1, ?_⟩
  apply hrun.invariant frame hstable _ p.embed_asks hk.2
  rintro q' ⟨q, rfl⟩ k a k' hanswer hk
  exact hframe q k a k' hanswer hk

end

/-! ## Histories -/

/-- The environment with the states it has been in, the last one first. -/
def Environment.recording (env : Environment A K) :
    Environment A (K × List K) where
  serves s q a s' := env.serves s.1 q a s'.1 ∧ s'.2 = s'.1 :: s.2
  moves s s' := env.moves s.1 s'.1 ∧ s'.2 = s'.1 :: s.2

theorem Environment.Stable.recording {cond : K → Prop} (h : env.Stable cond) :
    env.recording.Stable fun s => cond s.1 :=
  fun s s' hmove hs => h s.1 s'.1 hmove.1 hs

/-- What has been the case at some instant stays so. -/
theorem Environment.recording_once (cond : K → Prop) :
    env.recording.Stable fun s => ∃ k ∈ s.2, cond k := by
  rintro s s' ⟨_, hpath⟩ ⟨k, hk, hcond⟩
  exact ⟨k, hpath ▸ List.mem_cons_of_mem _ hk, hcond⟩

/-- A recorded run is a run. -/
theorem Prog.RunsOn.of_recording {p : Prog Q A α} {s s' : K × List K} {r : α}
    (h : p.RunsOn env.recording s r s') : p.RunsOn env s.1 r s'.1 := by
  induction h with
  | done a s => exact .done a s.1
  | move hmove _ ih => exact .move hmove.1 ih
  | ask a hanswer _ ih => exact .ask a hanswer.1 ih

/-- A recorded run ends on its path. -/
theorem Prog.RunsOn.stop_mem {p : Prog Q A α} {s s' : K × List K} {r : α}
    (h : p.RunsOn env.recording s r s') (hs : s.1 ∈ s.2) : s'.1 ∈ s'.2 := by
  induction h with
  | done a s => exact hs
  | move hmove _ ih => exact ih (hmove.2 ▸ List.mem_cons_self)
  | ask a hanswer _ ih => exact ih (hanswer.2 ▸ List.mem_cons_self)

/-- What is guaranteed without a history is guaranteed with one. -/
theorem Prog.Guarantees.recording {p : Prog Q A α} {pre : K → Prop}
    {post : α → K → Prop} (h : p.Guarantees env pre post) :
    p.Guarantees env.recording (fun s => pre s.1) fun r s => post r s.1 :=
  fun s r s' hrun hs => h s.1 r s'.1 hrun.of_recording hs

/-- The rule for a question in front of the rest of a recorded program. -/
theorem Prog.Guarantees.query_recorded {pre : K × List K → Prop} {q : Q}
    {f : A q → Prog Q A α} {post : α → K × List K → Prop}
    (mid : A q → K × List K → Prop) (hstable : env.recording.Stable pre)
    (hserves : ∀ k past a k', env.serves k q a k' → pre (k, past) →
      mid a (k', k' :: past))
    (hf : ∀ a, (f a).Guarantees env.recording (mid a) post) :
    Prog.Guarantees env.recording pre (query q >>= f) post := by
  apply Prog.Guarantees.ask mid hstable _ hf
  intro s a s' hanswer hs
  have hstep : s' = (s'.1, s'.1 :: s.2) := by
    rw [← hanswer.2]
  rw [hstep]
  exact hserves s.1 s.2 a s'.1 hanswer.1 hs

end Cosca.Verified.Interact
