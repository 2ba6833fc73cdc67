/-!
# Programs that ask an environment

A `Prog Q A α` asks questions of type `Q`, is given answers whose type depends
on the question, and returns a value of type `α`.  Nothing is assumed about
the answers: `Runs` relates a program to every sequence of them, and
`Ensures` is the weakest precondition with the events so far as its state.

A loop without a bound of its own runs on fuel and returns `none` when the
fuel is used up, so that its termination is a statement about its result.
-/

namespace Cosca.Verified.Interact

/-- A program over the questions `Q`. -/
inductive Prog (Q : Type) (A : Q → Type) (α : Type) where
  | done (a : α)
  | ask (q : Q) (next : A q → Prog Q A α)

/-- A question with the answer it was given. -/
structure Event {Q : Type} (A : Q → Type) where
  question : Q
  answer : A question

variable {Q : Type} {A : Q → Type} {α β σ ι : Type}

/-- Sequencing. -/
def Prog.bind : Prog Q A α → (α → Prog Q A β) → Prog Q A β
  | .done a, f => f a
  | .ask q next, f => .ask q fun a => (next a).bind f

instance : Monad (Prog Q A) where
  pure := .done
  bind := Prog.bind

/-- The program that asks one question. -/
def query (q : Q) : Prog Q A (A q) :=
  .ask q .done

/-- The same program over a larger set of questions. -/
def Prog.embed {Q' : Type} {A' : Q' → Type} (f : Q → Q')
    (g : (q : Q) → A' (f q) → A q) : Prog Q A α → Prog Q' A' α
  | .done a => .done a
  | .ask q next => .ask (f q) fun a => (next (g q a)).embed f g

/-- `while body() { }`: a loop that goes on as long as its body says so. -/
def Prog.loop (body : σ → Prog Q A (Bool × σ)) : Nat → σ → Prog Q A (Option σ)
  | 0, _ => pure none
  | fuel + 1, s => do
      let (again, s') ← body s
      if again then Prog.loop body fuel s' else pure (some s')

/-! ## Runs -/

/-- The program runs through the events and returns the value. -/
inductive Prog.Runs : Prog Q A α → List (Event A) → α → Prop where
  | done (a : α) : Prog.Runs (.done a) [] a
  | ask (q : Q) (next : A q → Prog Q A α) (a : A q)
      {events : List (Event A)} {r : α} (hrest : Prog.Runs (next a) events r) :
      Prog.Runs (.ask q next) (⟨q, a⟩ :: events) r

/-- A program that asks begins its events with the question. -/
theorem Prog.Runs.first {q : Q} {next : A q → Prog Q A α}
    {events : List (Event A)} {r : α} (h : (Prog.ask q next).Runs events r) :
    ∃ a rest, events = ⟨q, a⟩ :: rest := by
  cases h with
  | ask q next a hrest => exact ⟨a, _, rfl⟩

/-- A run of a sequence is a run of its first part and one of its second. -/
theorem Prog.Runs.of_bind {p : Prog Q A α} {f : α → Prog Q A β}
    {events : List (Event A)} {r : β} (h : (p >>= f).Runs events r) :
    ∃ a first rest, p.Runs first a ∧ (f a).Runs rest r ∧
      events = first ++ rest := by
  induction p generalizing events with
  | done a => exact ⟨a, [], events, .done a, h, rfl⟩
  | ask q next ih =>
      have h' : (Prog.ask q fun a => (next a).bind f).Runs events r := h
      cases h' with
      | ask _ _ a hrest =>
          obtain ⟨b, first, rest, hfirst, hf, rfl⟩ := ih a hrest
          exact ⟨b, ⟨q, a⟩ :: first, rest, .ask q next a hfirst, hf, rfl⟩

/-- Runs of the two parts make a run of the sequence. -/
theorem Prog.Runs.bind {p : Prog Q A α} {f : α → Prog Q A β}
    {first rest : List (Event A)} {a : α} {r : β} (h : p.Runs first a)
    (hf : (f a).Runs rest r) : Prog.Runs (p >>= f) (first ++ rest) r := by
  induction h with
  | done a => exact hf
  | ask q next a _ ih => exact .ask q _ a (ih hf)

theorem Prog.Runs.of_pure {a r : α} {events : List (Event A)}
    (h : Prog.Runs (Pure.pure a : Prog Q A α) events r) :
    events = [] ∧ r = a := by
  have h' : Prog.Runs (.done a : Prog Q A α) events r := h
  cases h' with
  | done _ => exact ⟨rfl, rfl⟩

/-- A run that begins with one question. -/
theorem Prog.Runs.of_query_bind {q : Q} {f : A q → Prog Q A β}
    {events : List (Event A)} {r : β} (h : (query q >>= f).Runs events r) :
    ∃ a rest, events = ⟨q, a⟩ :: rest ∧ (f a).Runs rest r := by
  have h' : Prog.Runs (.ask q f) events r := h
  cases h' with
  | ask _ _ a hrest => exact ⟨a, _, rfl, hrest⟩

/-! ## Fixed answers -/

/-- An environment that is fixed in advance: its answer to a question after
the events so far. -/
abbrev Answers {Q : Type} (A : Q → Type) : Type :=
  List (Event A) → (q : Q) → A q

/-- The run of a program against fixed answers, after the events `past`. -/
def Prog.play (answers : Answers A) :
    Prog Q A α → List (Event A) → List (Event A) × α
  | .done a, past => (past, a)
  | .ask q next, past =>
      (next (answers past q)).play answers (past ++ [⟨q, answers past q⟩])

theorem Prog.play_bind (answers : Answers A) (p : Prog Q A α)
    (f : α → Prog Q A β) : ∀ past, (p >>= f).play answers past =
      (f (p.play answers past).2).play answers (p.play answers past).1 := by
  induction p with
  | done a => exact fun past => rfl
  | ask q next ih => exact fun past => ih _ _

/-- Whatever the answers are, the program ends with the value and all the
events, the `past` ones included, in `post`. -/
def Prog.Ensures : Prog Q A α → List (Event A) →
    (α → List (Event A) → Prop) → Prop
  | .done a, past, post => post a past
  | .ask q next, past, post =>
      ∀ a, (next a).Ensures (past ++ [⟨q, a⟩]) post

theorem Prog.Ensures.of_runs {p : Prog Q A α} {events : List (Event A)}
    {r : α} (hruns : p.Runs events r) :
    ∀ {past : List (Event A)} {post : α → List (Event A) → Prop},
      p.Ensures past post → post r (past ++ events) := by
  induction hruns with
  | done a =>
      intro past post h
      rw [List.append_nil]
      exact h
  | ask q next a _ ih =>
      intro past post h
      have hend := ih (h a)
      rw [List.append_assoc] at hend
      exact hend

/-! ## Rules -/

section

variable {past : List (Event A)} {post : α → List (Event A) → Prop}

theorem Prog.Ensures.mono {p : Prog Q A α}
    {weaker : α → List (Event A) → Prop} (h : p.Ensures past post)
    (himp : ∀ a t, post a t → weaker a t) : p.Ensures past weaker := by
  induction p generalizing past with
  | done a => exact himp a past h
  | ask q next ih => exact fun a => ih a (h a)

theorem Prog.Ensures.and {p : Prog Q A α}
    {post' : α → List (Event A) → Prop} (h : p.Ensures past post)
    (h' : p.Ensures past post') :
    p.Ensures past fun a t => post a t ∧ post' a t := by
  induction p generalizing past with
  | done a => exact ⟨h, h'⟩
  | ask q next ih => exact fun a => ih a (h a) (h' a)

theorem Prog.Ensures.bind {p : Prog Q A α} {f : α → Prog Q A β}
    {post : β → List (Event A) → Prop} {mid : α → List (Event A) → Prop}
    (h : p.Ensures past mid) (hf : ∀ a t, mid a t → (f a).Ensures t post) :
    Prog.Ensures (p >>= f) past post := by
  induction p generalizing past with
  | done a => exact hf a past h
  | ask q next ih => exact fun a => ih a (h a)

/-- A loop over a list, with an invariant on the elements still to come. -/
theorem Prog.Ensures.foldlM {step : σ → ι → Prog Q A σ}
    (inv : List ι → σ → List (Event A) → Prop)
    (hstep : ∀ x todo s t, inv (x :: todo) s t →
      (step s x).Ensures t (inv todo)) (xs : List ι) :
    ∀ {s : σ} {past : List (Event A)}, inv xs s past →
      Prog.Ensures (xs.foldlM step s) past (inv []) := by
  induction xs with
  | nil =>
      intro s past h
      exact h
  | cons x xs ih =>
      intro s past h
      rw [List.foldlM_cons]
      apply Prog.Ensures.bind (hstep x xs s past h)
      intro s' t h'
      exact ih h'

/-- A loop on fuel, with an invariant on the number of rounds made. -/
theorem Prog.Ensures.loop {body : σ → Prog Q A (Bool × σ)}
    (inv stop : Nat → σ → List (Event A) → Prop)
    (hbody : ∀ n s t, inv n s t → (body s).Ensures t fun (again, s') t' =>
      if again then inv (n + 1) s' t' else stop (n + 1) s' t')
    (fuel : Nat) : ∀ {n : Nat} {s : σ} {past : List (Event A)}, inv n s past →
      Prog.Ensures (Prog.loop body fuel s) past fun r t =>
        match r with
        | none => ∃ s', inv (n + fuel) s' t
        | some s' => ∃ k, n < k ∧ k ≤ n + fuel ∧ stop k s' t := by
  induction fuel with
  | zero =>
      intro n s past h
      exact ⟨s, h⟩
  | succ fuel ih =>
      intro n s past h
      apply Prog.Ensures.bind (hbody n s past h)
      rintro ⟨again, s'⟩ t h'
      cases again with
      | false =>
          exact ⟨n + 1, Nat.lt_succ_self n, by omega, h'⟩
      | true =>
          apply (ih h').mono
          intro r t' hr
          cases r with
          | none =>
              rw [show n + (fuel + 1) = n + 1 + fuel by omega]
              exact hr
          | some s'' =>
              obtain ⟨k, hlow, hhigh, hstop⟩ := hr
              exact ⟨k, by omega, by omega, hstop⟩

end

/-- Every run of the program is one that its events tell. -/
theorem Prog.ensures_runs (p : Prog Q A α) (past : List (Event A)) :
    p.Ensures past fun r t => ∃ new, t = past ++ new ∧ p.Runs new r := by
  induction p generalizing past with
  | done a => exact ⟨[], (List.append_nil past).symm, .done a⟩
  | ask q next ih =>
      intro a
      have hrest := ih a (past ++ [⟨q, a⟩])
      apply Prog.Ensures.mono hrest
      rintro r t ⟨new, ht, hruns⟩
      refine ⟨⟨q, a⟩ :: new, ?_, .ask q next a hruns⟩
      rw [ht, List.append_assoc]
      rfl

/-! ## What a program asks -/

/-- The program asks only questions that satisfy `ok`. -/
def Prog.Asks (ok : Q → Prop) : Prog Q A α → Prop
  | .done _ => True
  | .ask q next => ok q ∧ ∀ a, (next a).Asks ok

section

variable {ok : Q → Prop}

theorem Prog.Asks.pure (a : α) :
    Prog.Asks ok (pure a : Prog Q A α) := trivial

theorem Prog.Asks.query {q : Q} (h : ok q) :
    Prog.Asks ok (query q : Prog Q A (A q)) :=
  ⟨h, fun _ => trivial⟩

theorem Prog.Asks.bind {p : Prog Q A α} {f : α → Prog Q A β}
    (h : p.Asks ok) (hf : ∀ a, (f a).Asks ok) : Prog.Asks ok (p >>= f) := by
  induction p with
  | done a => exact hf a
  | ask q next ih => exact ⟨h.1, fun a => ih a (h.2 a)⟩

theorem Prog.Asks.foldlM {step : σ → ι → Prog Q A σ}
    (hstep : ∀ s x, (step s x).Asks ok) (xs : List ι) :
    ∀ s, Prog.Asks ok (xs.foldlM step s) := by
  induction xs with
  | nil =>
      intro s
      exact trivial
  | cons x xs ih =>
      intro s
      rw [List.foldlM_cons]
      exact (hstep s x).bind fun s' => ih s'

/-- Every event of the program is one of its questions. -/
theorem Prog.Asks.ensures {p : Prog Q A α} (h : p.Asks ok) :
    ∀ past : List (Event A), p.Ensures past fun _ t =>
      ∃ new, t = past ++ new ∧ ∀ e ∈ new, ok e.question := by
  induction p with
  | done a =>
      intro past
      exact ⟨[], by rw [List.append_nil], by simp⟩
  | ask q next ih =>
      intro past a
      apply (ih a (h.2 a) _).mono
      rintro r t ⟨new, ht, hnew⟩
      refine ⟨⟨q, a⟩ :: new, ?_, ?_⟩
      · rw [ht, List.append_assoc]
        rfl
      · intro e he
        rcases List.mem_cons.mp he with rfl | he
        · exact h.1
        · exact hnew e he

end

/-! ## Programs that may fail -/

section

variable {ε : Type} {ok : Q → Prop}

theorem Prog.Asks.run_pure (a : α) :
    Prog.Asks ok (Pure.pure a : ExceptT ε (Prog Q A) α).run := trivial

theorem Prog.Asks.run_bind {p : ExceptT ε (Prog Q A) α}
    {f : α → ExceptT ε (Prog Q A) β} (h : Prog.Asks ok p.run)
    (hf : ∀ a, Prog.Asks ok (f a).run) : Prog.Asks ok (p >>= f).run := by
  apply Prog.Asks.bind h
  intro r
  cases r with
  | ok a => exact hf a
  | error e => trivial

theorem Prog.Asks.run_foldlM {step : σ → ι → ExceptT ε (Prog Q A) σ}
    (hstep : ∀ s x, Prog.Asks ok (step s x).run) (xs : List ι) :
    ∀ s, Prog.Asks ok (xs.foldlM step s).run := by
  induction xs with
  | nil =>
      intro s
      exact trivial
  | cons x xs ih =>
      intro s
      rw [List.foldlM_cons]
      exact Prog.Asks.run_bind (hstep s x) ih

end

/-- Where a program that may fail ends: in `post` with its value, in `fail`
with its error. -/
def Ends {ε : Type} (post : α → List (Event A) → Prop)
    (fail : ε → List (Event A) → Prop) :
    Except ε α → List (Event A) → Prop
  | .ok a, t => post a t
  | .error e, t => fail e t

section

variable {ε : Type} {fail : ε → List (Event A) → Prop}

theorem Prog.Ensures.run_bind {past : List (Event A)}
    {p : ExceptT ε (Prog Q A) α} {f : α → ExceptT ε (Prog Q A) β}
    {mid : α → List (Event A) → Prop} {post : β → List (Event A) → Prop}
    (h : Prog.Ensures p.run past (Ends mid fail))
    (hf : ∀ a t, mid a t → Prog.Ensures (f a).run t (Ends post fail)) :
    Prog.Ensures (p >>= f).run past (Ends post fail) := by
  apply Prog.Ensures.bind h
  intro r t hr
  cases r with
  | ok a => exact hf a t hr
  | error e => exact hr

/-- A loop over a list whose body may fail. -/
theorem Prog.Ensures.run_foldlM {step : σ → ι → ExceptT ε (Prog Q A) σ}
    (inv : List ι → σ → List (Event A) → Prop)
    (hstep : ∀ x todo s t, inv (x :: todo) s t →
      Prog.Ensures (step s x).run t (Ends (inv todo) fail)) (xs : List ι) :
    ∀ {s : σ} {past : List (Event A)}, inv xs s past →
      Prog.Ensures (xs.foldlM step s).run past (Ends (inv []) fail) := by
  induction xs with
  | nil =>
      intro s past h
      exact h
  | cons x xs ih =>
      intro s past h
      rw [List.foldlM_cons]
      apply Prog.Ensures.run_bind (hstep x xs s past h)
      intro s' t h'
      exact ih h'

end

theorem Prog.play_run_bind {ε : Type} (answers : Answers A)
    (p : ExceptT ε (Prog Q A) α) (f : α → ExceptT ε (Prog Q A) β)
    (past : List (Event A)) : Prog.play answers (p >>= f).run past =
      match Prog.play answers p.run past with
      | (t, .ok a) => Prog.play answers (f a).run t
      | (t, .error e) => (t, .error e) := by
  have hbind := Prog.play_bind answers p.run (ExceptT.bindCont f) past
  refine hbind.trans ?_
  cases Prog.play answers p.run past with
  | mk t r =>
      cases r with
      | ok a => rfl
      | error e => rfl

/-- A run of a sequence that may fail. -/
theorem Prog.Runs.of_run_bind {ε : Type} {p : ExceptT ε (Prog Q A) α}
    {f : α → ExceptT ε (Prog Q A) β} {events : List (Event A)}
    {r : Except ε β} (h : Prog.Runs (p >>= f).run events r) :
    (∃ a first rest, Prog.Runs p.run first (.ok a) ∧
      Prog.Runs (f a).run rest r ∧ events = first ++ rest) ∨
    (∃ e, Prog.Runs p.run events (.error e) ∧ r = .error e) := by
  have h' : Prog.Runs (Prog.bind p.run (ExceptT.bindCont f)) events r := h
  obtain ⟨a, first, rest, hfirst, hrest, rfl⟩ := Prog.Runs.of_bind h'
  cases a with
  | ok a => exact Or.inl ⟨a, first, rest, hfirst, hrest, rfl⟩
  | error e =>
      obtain ⟨rfl, rfl⟩ := Prog.Runs.of_pure hrest
      rw [List.append_nil]
      exact Or.inr ⟨e, hfirst, rfl⟩

/-- An environment: how it answers out of its state, and how it moves by
itself. -/
structure Environment {Q : Type} (A : Q → Type) (K : Type) where
  serves : K → (q : Q) → A q → K → Prop
  moves : K → K → Prop

section

variable {K : Type} {env : Environment A K}

/-- A run on an environment, from one of its states to another.  The
environment may move before every question and at the end. -/
inductive Prog.RunsOn (env : Environment A K) :
    Prog Q A α → K → α → K → Prop where
  | done (a : α) (k : K) : Prog.RunsOn env (.done a) k a k
  | move {p : Prog Q A α} {k k' k'' : K} {r : α} (hmove : env.moves k k')
      (hrest : Prog.RunsOn env p k' r k'') : Prog.RunsOn env p k r k''
  | ask {q : Q} {next : A q → Prog Q A α} (a : A q) {k k' k'' : K} {r : α}
      (hserves : env.serves k q a k')
      (hrest : Prog.RunsOn env (next a) k' r k'') :
      Prog.RunsOn env (.ask q next) k r k''

theorem Prog.RunsOn.bind {p : Prog Q A α} {f : α → Prog Q A β} {k k' k'' : K}
    {a : α} {b : β} (h : p.RunsOn env k a k')
    (hf : (f a).RunsOn env k' b k'') :
    Prog.RunsOn env (p >>= f) k b k'' := by
  induction h with
  | done a k => exact hf
  | move hmove _ ih => exact .move hmove (ih hf)
  | ask a hserves _ ih => exact .ask a hserves (ih hf)

theorem Prog.RunsOn.of_bind {p : Prog Q A α} {f : α → Prog Q A β} {k k'' : K}
    {b : β} (h : Prog.RunsOn env (p >>= f) k b k'') :
    ∃ a k', p.RunsOn env k a k' ∧ (f a).RunsOn env k' b k'' := by
  generalize hwhole : p >>= f = whole at h
  induction h generalizing p with
  | done b k =>
      cases p with
      | done a =>
          have hf : f a = .done b := hwhole
          exact ⟨a, k, .done a k, hf ▸ .done b k⟩
      | ask q next => cases hwhole
  | move hmove _ ih =>
      obtain ⟨a, k', hfirst, hrest⟩ := ih hwhole
      exact ⟨a, k', .move hmove hfirst, hrest⟩
  | ask a hserves hrest ih =>
      cases p with
      | done a' =>
          have hf : f a' = _ := hwhole
          exact ⟨a', _, .done a' _, hf ▸ .ask a hserves hrest⟩
      | ask q next =>
          cases hwhole
          obtain ⟨a', k', hfirst, hrest⟩ := ih rfl
          exact ⟨a', k', .ask a hserves hfirst, hrest⟩

/-- A program that asks is answered in a state that the environment's moves
alone lead to. -/
theorem Prog.RunsOn.of_ask {q : Q} {next : A q → Prog Q A α} {k k'' : K} {r : α}
    (h : (Prog.ask q next).RunsOn env k r k'') (inv : K → Prop)
    (hmoves : ∀ k k', env.moves k k' → inv k → inv k') (hk : inv k) :
    ∃ k₁ a k₂, inv k₁ ∧ env.serves k₁ q a k₂ ∧
      (next a).RunsOn env k₂ r k'' := by
  generalize hp : Prog.ask q next = p at h
  induction h with
  | done a k => cases hp
  | move hmove _ ih => exact ih (hmoves _ _ hmove hk) hp
  | ask a hserves hrest =>
      cases hp
      exact ⟨_, a, _, hk, hserves, hrest⟩

/-- What the environment keeps while it moves and while it answers the
program's questions. -/
theorem Prog.RunsOn.invariant {p : Prog Q A α} {ok : Q → Prop} (inv : K → Prop)
    (hmoves : ∀ k k', env.moves k k' → inv k → inv k')
    (hserves : ∀ q, ok q → ∀ k a k', env.serves k q a k' → inv k → inv k')
    (hasks : p.Asks ok) {k k' : K} {r : α} (h : p.RunsOn env k r k') :
    inv k → inv k' := by
  induction h with
  | done a k => exact id
  | move hmove _ ih =>
      intro hk
      exact ih hasks (hmoves _ _ hmove hk)
  | ask a hanswer _ ih =>
      intro hk
      exact ih (hasks.2 a) (hserves _ hasks.1 _ a _ hanswer hk)

/-- A program that returns at once returns its value. -/
theorem Prog.RunsOn.of_pure {a r : α} {k k' : K}
    (h : Prog.RunsOn env (Pure.pure a : Prog Q A α) k r k') : r = a := by
  generalize hp : (Pure.pure a : Prog Q A α) = p at h
  induction h with
  | done a' k =>
      cases hp
      rfl
  | move _ _ ih => exact ih hp
  | ask _ _ _ _ => cases hp

end

end Cosca.Verified.Interact
