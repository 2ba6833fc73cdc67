import Mathlib.Logic.Relation
import Cosca.Verified.Rely

/-!
# Calls that run interleaved

Any number of calls run programs against one shared state; a step of the
system is one answered question of one call, the start or the end of a call, or
a move of the outside.  A blocked call is one whose question the shared state
does not serve.

Proofs go by rely and guarantee.  What a call may do to the shared state is its
`guar`; an assertion of one call must be stable under the `guar` of all others
and under the moves of the outside.  `Prog.Abides` is a proof outline of one
call: it carries an assertion from question to question, and shows each
question to be one that the shared state is `ready` for.

## Main results

* `System.Reachable.outlined`: if every call has a proof outline, then in every
  reachable configuration the invariant holds, every running call is at an
  assertion of its outline, and every finished call at its postcondition.
* `System.CanServe.finishes`: a call whose questions can always be served, the
  shared state moving first where it has to, can finish.
-/

namespace Cosca.Verified.Interact

variable {Q : Type} {A : Q → Type} {α β σ ι K : Type}

/-! ## Proof outlines -/

/-- What a proof outline of a call is relative to: its environment, the
invariant of the shared state, what the call may do to it and when a question
may be put. -/
structure Role {Q : Type} (A : Q → Type) (K : Type) where
  env : Environment A K
  inv : K → Prop
  guar : K → K → Prop
  ready : Q → K → Prop

variable {role : Role A K}

/-- The program has an outline that starts at `pre` and ends at `post`. -/
def Prog.Abides (role : Role A K) :
    Prog Q A α → (K → Prop) → (α → K → Prop) → Prop
  | .done a, pre, post =>
      role.env.Stable pre ∧ ∀ k, role.inv k → pre k → post a k
  | .ask q next, pre, post =>
      role.env.Stable pre ∧ (∀ k, role.inv k → pre k → role.ready q k) ∧
      ∃ mid : A q → K → Prop,
        (∀ k a k', role.env.serves k q a k' → role.inv k → pre k →
          role.inv k' ∧ role.guar k k' ∧ mid a k') ∧
        ∀ a, (next a).Abides role (mid a) post

theorem Prog.Abides.stable {p : Prog Q A α} {pre : K → Prop}
    {post : α → K → Prop} (h : p.Abides role pre post) :
    role.env.Stable pre := by
  cases p with
  | done a => exact h.1
  | ask q next => exact h.1

theorem Prog.Abides.strengthen {p : Prog Q A α} {pre pre' : K → Prop}
    {post : α → K → Prop} (h : p.Abides role pre post)
    (hstable : role.env.Stable pre')
    (hpre : ∀ k, role.inv k → pre' k → pre k) :
    p.Abides role pre' post := by
  cases p with
  | done a => exact ⟨hstable, fun k hinv hk => h.2 k hinv (hpre k hinv hk)⟩
  | ask q next =>
      obtain ⟨hready, mid, hserves, hnext⟩ := h.2
      refine ⟨hstable, fun k hinv hk => hready k hinv (hpre k hinv hk),
        mid, ?_, hnext⟩
      intro k a k' hanswer hinv hk
      exact hserves k a k' hanswer hinv (hpre k hinv hk)

theorem Prog.Abides.weaken {p : Prog Q A α} {pre : K → Prop}
    {post post' : α → K → Prop} (h : p.Abides role pre post)
    (hpost : ∀ a k, role.inv k → post a k → post' a k) :
    p.Abides role pre post' := by
  induction p generalizing pre with
  | done a => exact ⟨h.1, fun k hinv hk => hpost a k hinv (h.2 k hinv hk)⟩
  | ask q next ih =>
      obtain ⟨hready, mid, hserves, hnext⟩ := h.2
      exact ⟨h.1, hready, mid, hserves, fun a => ih a (hnext a)⟩

theorem Prog.Abides.pure {a : α} {pre : K → Prop} {post : α → K → Prop}
    (hstable : role.env.Stable pre)
    (hpost : ∀ k, role.inv k → pre k → post a k) :
    (Pure.pure a : Prog Q A α).Abides role pre post :=
  ⟨hstable, hpost⟩

/-- Nothing is to show where the program is never reached. -/
theorem Prog.Abides.of_false {p : Prog Q A α} {pre : K → Prop}
    {post : α → K → Prop} (hpre : ∀ k, ¬ pre k) : p.Abides role pre post := by
  induction p generalizing pre with
  | done a =>
      exact ⟨fun k _ _ hk => absurd hk (hpre k),
        fun k _ hk => absurd hk (hpre k)⟩
  | ask q next ih =>
      refine ⟨fun k _ _ hk => absurd hk (hpre k),
        fun k _ hk => absurd hk (hpre k), fun _ _ => False, ?_, ?_⟩
      · intro k a k' _ _ hk
        exact absurd hk (hpre k)
      · exact fun a => ih a fun _ h => h

/-- A fact that does not depend on the state may be used in the proof. -/
theorem Prog.Abides.given {p : Prog Q A α} {pre : K → Prop} {fact : Prop}
    {post : α → K → Prop} (h : fact → p.Abides role pre post) :
    p.Abides role (fun k => fact ∧ pre k) post := by
  by_cases hfact : fact
  · apply (h hfact).strengthen
    · intro k k' hmove hk
      exact ⟨hfact, (h hfact).stable k k' hmove hk.2⟩
    · exact fun k _ hk => hk.2
  · exact .of_false fun k hk => hfact hk.1

/-- The rule for a question in front of the rest of a program. -/
theorem Prog.Abides.query_bind {q : Q} {f : A q → Prog Q A α} {pre : K → Prop}
    {post : α → K → Prop} (mid : A q → K → Prop)
    (hstable : role.env.Stable pre)
    (hserves : ∀ k a k', role.env.serves k q a k' → role.inv k → pre k →
      role.inv k' ∧ role.guar k k' ∧ mid a k')
    (hf : ∀ a, (f a).Abides role (mid a) post)
    (hready : ∀ k, role.inv k → pre k → role.ready q k) :
    Prog.Abides role (query q >>= f) pre post :=
  ⟨hstable, hready, mid, hserves, hf⟩

theorem Prog.Abides.bind {p : Prog Q A α} {f : α → Prog Q A β}
    {pre : K → Prop} {post : β → K → Prop} (mid : α → K → Prop)
    (h : p.Abides role pre mid)
    (hf : ∀ a, (f a).Abides role (mid a) post) :
    Prog.Abides role (p >>= f) pre post := by
  induction p generalizing pre with
  | done a => exact (hf a).strengthen h.1 h.2
  | ask q next ih =>
      obtain ⟨hready, first, hserves, hnext⟩ := h.2
      exact ⟨h.1, hready, first, hserves, fun a => ih a (hnext a)⟩

/-- A loop over a list, with an assertion on the elements still to come. -/
theorem Prog.Abides.foldlM {step : σ → ι → Prog Q A σ}
    (assertion : List ι → σ → K → Prop)
    (hnil : ∀ s, role.env.Stable (assertion [] s))
    (hstep : ∀ x todo s,
      (step s x).Abides role (assertion (x :: todo) s) (assertion todo))
    (xs : List ι) :
    ∀ s, Prog.Abides role (xs.foldlM step s) (assertion xs s)
      (assertion []) := by
  induction xs with
  | nil =>
      intro s
      exact .pure (hnil s) fun k _ hk => hk
  | cons x xs ih =>
      intro s
      rw [List.foldlM_cons]
      exact Prog.Abides.bind (assertion xs) (hstep x xs s) ih

/-- The same for a loop without a state of its own. -/
theorem Prog.Abides.forM {step : ι → Prog Q A PUnit}
    (assertion : List ι → K → Prop) (hnil : role.env.Stable (assertion []))
    (hstep : ∀ x todo, (step x).Abides role (assertion (x :: todo))
      fun _ => assertion todo)
    (xs : List ι) :
    Prog.Abides role (xs.forM step) (assertion xs) fun _ => assertion [] := by
  induction xs with
  | nil => exact .pure hnil fun k _ hk => hk
  | cons x xs ih => exact .bind (fun _ => assertion xs) (hstep x xs) fun _ => ih

/-- The role of a program whose questions are embedded in a larger set. -/
def Role.pull {Q' : Type} {A' : Q' → Type} (role : Role A' K) (f : Q → Q')
    (g : (q : Q) → A' (f q) → A q) : Role A K where
  env :=
    { serves := fun k q a k' =>
        ∃ a', g q a' = a ∧ role.env.serves k (f q) a' k'
      moves := role.env.moves }
  inv := role.inv
  guar := role.guar
  ready := fun q => role.ready (f q)

theorem Role.pull_stable {Q' : Type} {A' : Q' → Type} {role : Role A' K}
    {f : Q → Q'} {g : (q : Q) → A' (f q) → A q} {cond : K → Prop}
    (h : role.env.Stable cond) : (role.pull f g).env.Stable cond := h

theorem Prog.Abides.embed {Q' : Type} {A' : Q' → Type} {role : Role A' K}
    {f : Q → Q'} {g : (q : Q) → A' (f q) → A q} {p : Prog Q A α}
    {pre : K → Prop} {post : α → K → Prop}
    (h : p.Abides (role.pull f g) pre post) :
    (p.embed f g).Abides role pre post := by
  induction p generalizing pre with
  | done a => exact h
  | ask q next ih =>
      obtain ⟨hstable, hready, mid, hserves, hnext⟩ := h
      refine ⟨hstable, hready, fun a => mid (g q a), ?_,
        fun a => ih _ (hnext _)⟩
      intro k a k' hanswer hinv hk
      exact hserves k (g q a) k' ⟨a, rfl, hanswer⟩ hinv hk

/-! ## Systems of calls -/

/-- Calls `C` over a shared state `K`: how the state serves a question of a
call, how it moves by itself, and what each call runs. -/
structure System (C : Type) {Q : Type} (A : Q → Type) (K : Type)
    (R : C → Type) where
  serves : C → K → (q : Q) → A q → K → Prop
  moves : K → K → Prop
  body : (c : C) → Prog Q A (R c)

/-- Where a call stands; it remembers the shared state it started in. -/
inductive Status {Q : Type} (A : Q → Type) (K : Type) (ρ : Type) where
  | idle
  | running (start : K) (rest : Prog Q A ρ)
  | finished (start : K) (result : ρ)

/-- The call is running. -/
def Status.isRunning {ρ : Type} : Status A K ρ → Prop
  | .running .. => True
  | _ => False

/-- The call has started. -/
def Status.isStarted {ρ : Type} : Status A K ρ → Prop
  | .idle => False
  | _ => True

section

variable {C : Type} [DecidableEq C] {R : C → Type}

/-- The shared state and where each call stands. -/
structure Config (C : Type) {Q : Type} (A : Q → Type) (K : Type)
    (R : C → Type) where
  shared : K
  calls : (c : C) → Status A K (R c)

/-- One call moves on to another status, the shared state to another state. -/
def Config.update (cfg : Config C A K R) (c : C) (status : Status A K (R c))
    (k : K) : Config C A K R where
  shared := k
  calls := fun c' => if h : c' = c then h ▸ status else cfg.calls c'

@[simp] theorem Config.update_self (cfg : Config C A K R) (c : C)
    (status : Status A K (R c)) (k : K) :
    (cfg.update c status k).calls c = status := by
  simp [Config.update]

theorem Config.update_of_ne (cfg : Config C A K R) {c c' : C}
    (status : Status A K (R c)) (k : K) (h : c' ≠ c) :
    (cfg.update c status k).calls c' = cfg.calls c' := by
  simp [Config.update, h]

/-- Nobody has started. -/
def Config.initial (k : K) : Config C A K R where
  shared := k
  calls := fun _ => .idle

/-- One step of the system, with the calls that `mayStart` allows to start. -/
inductive System.Step (system : System C A K R)
    (mayStart : Config C A K R → C → Prop) :
    Config C A K R → Config C A K R → Prop where
  | outside {cfg : Config C A K R} {k : K}
      (hmove : system.moves cfg.shared k) :
      Step system mayStart cfg { cfg with shared := k }
  | start {cfg : Config C A K R} (c : C) (hidle : cfg.calls c = .idle)
      (hmay : mayStart cfg c) :
      Step system mayStart cfg
        (cfg.update c (.running cfg.shared (system.body c)) cfg.shared)
  | act {cfg : Config C A K R} (c : C) {start : K} {q : Q}
      {next : A q → Prog Q A (R c)}
      (hcall : cfg.calls c = .running start (.ask q next)) (a : A q) {k : K}
      (hserves : system.serves c cfg.shared q a k) :
      Step system mayStart cfg (cfg.update c (.running start (next a)) k)
  | finish {cfg : Config C A K R} (c : C) {start : K} {r : R c}
      (hcall : cfg.calls c = .running start (.done r)) :
      Step system mayStart cfg
        (cfg.update c (.finished start r) cfg.shared)

/-- The configurations of the runs that begin in the shared state `k`. -/
inductive System.Reachable (system : System C A K R)
    (mayStart : Config C A K R → C → Prop) (k : K) :
    Config C A K R → Prop where
  | initial : Reachable system mayStart k (Config.initial k)
  | step {cfg cfg' : Config C A K R}
      (hreach : Reachable system mayStart k cfg)
      (hstep : System.Step system mayStart cfg cfg') :
      Reachable system mayStart k cfg'

/-! ## Undisturbed calls -/

/-- The environment of a call that no other call disturbs. -/
def System.alone (system : System C A K R) (c : C) : Environment A K where
  serves := system.serves c
  moves := system.moves

section

variable {system : System C A K R} {mayStart : Config C A K R → C → Prop}
  {k : K}

theorem System.Reachable.run_rest {c : C} {start : K} {p : Prog Q A (R c)}
    {k₁ k₂ : K} {r : R c} (hrun : p.RunsOn (system.alone c) k₁ r k₂) :
    ∀ {cfg : Config C A K R}, system.Reachable mayStart k cfg →
      cfg.shared = k₁ → cfg.calls c = .running start p →
      ∃ cfg', system.Reachable mayStart k cfg' ∧ cfg'.shared = k₂ ∧
        cfg'.calls c = .finished start r ∧
        ∀ c', c' ≠ c → cfg'.calls c' = cfg.calls c' := by
  induction hrun with
  | done r k₁ =>
      intro cfg hreach hshared hcall
      refine ⟨_, hreach.step (.finish c hcall), hshared, ?_, ?_⟩
      · exact Config.update_self cfg c _ _
      · exact fun c' hne => Config.update_of_ne cfg _ _ hne
  | @move p k₁ k' k₂ r hmove _ ih =>
      intro cfg hreach hshared hcall
      rw [← hshared] at hmove
      have hstep : system.Step mayStart cfg { cfg with shared := k' } :=
        .outside hmove
      have hrest := ih (hreach.step hstep) rfl hcall
      exact hrest
  | @ask q next a k₁ k' k₂ r hserves _ ih =>
      intro cfg hreach hshared hcall
      rw [← hshared] at hserves
      obtain ⟨cfg', hreach', hshared', hcall', hothers⟩ :=
        ih (hreach.step (.act c hcall a hserves)) rfl
          (Config.update_self cfg c _ _)
      refine ⟨cfg', hreach', hshared', hcall', ?_⟩
      intro c' hne
      rw [hothers c' hne, Config.update_of_ne cfg _ _ hne]

/-- A call that runs from its start to its end while no other call acts. -/
theorem System.Reachable.run {c : C} {cfg : Config C A K R} {r : R c} {k' : K}
    (hreach : system.Reachable mayStart k cfg) (hidle : cfg.calls c = .idle)
    (hmay : mayStart cfg c)
    (hrun : (system.body c).RunsOn (system.alone c) cfg.shared r k') :
    ∃ cfg', system.Reachable mayStart k cfg' ∧ cfg'.shared = k' ∧
      cfg'.calls c = .finished cfg.shared r ∧
      ∀ c', c' ≠ c → cfg'.calls c' = cfg.calls c' := by
  obtain ⟨cfg', hreach', hshared', hcall', hothers⟩ :=
    System.Reachable.run_rest hrun (hreach.step (.start c hidle hmay)) rfl
      (Config.update_self cfg c _ _)
  refine ⟨cfg', hreach', hshared', hcall', ?_⟩
  intro c' hne
  rw [hothers c' hne, Config.update_of_ne cfg _ _ hne]

end

/-! ## Soundness -/

/-- A discipline for a system: the invariant, what each call guarantees, when
it may put a question, what holds for a call that has not started, and its
postcondition. -/
structure Discipline (system : System C A K R) where
  inv : K → Prop
  guar : C → K → K → Prop
  ready : C → Q → K → Prop
  before : C → K → Prop
  post : (c : C) → K → R c → K → Prop

/-- The environment of one call: the outside and all other calls. -/
def Discipline.env {system : System C A K R} (d : Discipline system) (c : C) :
    Environment A K where
  serves := system.serves c
  moves := fun k k' => d.inv k ∧ d.inv k' ∧
    (system.moves k k' ∨ ∃ c', c' ≠ c ∧ d.guar c' k k')

def Discipline.roleOf {system : System C A K R} (d : Discipline system) (c : C) :
    Role A K where
  env := d.env c
  inv := d.inv
  guar := d.guar c
  ready := d.ready c

/-- Every call keeps the discipline. -/
structure Discipline.Kept {system : System C A K R} (d : Discipline system) :
    Prop where
  moves : ∀ k k', system.moves k k' → d.inv k → d.inv k'
  before : ∀ c, (d.env c).Stable (d.before c)
  post : ∀ c start r, (d.env c).Stable (d.post c start r)
  body : ∀ c start, d.inv start → d.before c start →
    ∃ pre : K → Prop, pre start ∧
      (system.body c).Abides (d.roleOf c) pre (d.post c start)

/-- What the discipline says about where one call stands. -/
def Discipline.Stands {system : System C A K R} (d : Discipline system) (c : C)
    (k : K) : Status A K (R c) → Prop
  | .idle => d.before c k
  | .running start rest => ∃ pre : K → Prop, pre k ∧
      rest.Abides (d.roleOf c) pre (d.post c start)
  | .finished start r => d.post c start r k

/-- A configuration at assertions of the outlines. -/
structure Discipline.Outlined {system : System C A K R}
    (d : Discipline system) (cfg : Config C A K R) : Prop where
  inv : d.inv cfg.shared
  stands : ∀ c, d.Stands c cfg.shared (cfg.calls c)

variable {system : System C A K R} {d : Discipline system}

omit [DecidableEq C] in
/-- Where a call stands is stable under everybody else. -/
theorem Discipline.Kept.stands_stable (hkept : d.Kept) {c : C} {k k' : K}
    {status : Status A K (R c)} (hmove : (d.env c).moves k k')
    (h : d.Stands c k status) : d.Stands c k' status := by
  cases status with
  | idle => exact hkept.before c k k' hmove h
  | running start rest =>
      obtain ⟨pre, hpre, habides⟩ := h
      exact ⟨pre, habides.stable k k' hmove hpre, habides⟩
  | finished start r => exact hkept.post c start r k k' hmove h

/-- A step of one call leaves every other call standing. -/
theorem Discipline.Outlined.update (hkept : d.Kept) {cfg : Config C A K R}
    (h : d.Outlined cfg) {c : C} {status : Status A K (R c)} {k : K}
    (hinv : d.inv k) (hguar : d.guar c cfg.shared k)
    (hstatus : d.Stands c k status) : d.Outlined (cfg.update c status k) := by
  refine ⟨hinv, ?_⟩
  intro c'
  by_cases heq : c' = c
  · subst heq
    rw [Config.update_self]
    exact hstatus
  · rw [Config.update_of_ne cfg status k heq]
    apply hkept.stands_stable _ (h.stands c')
    exact ⟨h.inv, hinv, Or.inr ⟨c, fun hc => heq hc.symm, hguar⟩⟩

/-- The same where the shared state stays. -/
theorem Discipline.Outlined.update_same {cfg : Config C A K R}
    (h : d.Outlined cfg) {c : C} {status : Status A K (R c)}
    (hstatus : d.Stands c cfg.shared status) :
    d.Outlined (cfg.update c status cfg.shared) := by
  refine ⟨h.inv, ?_⟩
  intro c'
  by_cases heq : c' = c
  · subst heq
    rw [Config.update_self]
    exact hstatus
  · rw [Config.update_of_ne cfg status _ heq]
    exact h.stands c'

theorem Discipline.Outlined.step (hkept : d.Kept)
    {mayStart : Config C A K R → C → Prop} {cfg cfg' : Config C A K R}
    (h : d.Outlined cfg) (hstep : system.Step mayStart cfg cfg') :
    d.Outlined cfg' := by
  cases hstep with
  | outside hmove =>
      have hinv := hkept.moves _ _ hmove h.inv
      refine ⟨hinv, ?_⟩
      intro c
      apply hkept.stands_stable _ (h.stands c)
      exact ⟨h.inv, hinv, Or.inl hmove⟩
  | start c hidle hmay =>
      apply h.update_same
      have hbefore := h.stands c
      rw [hidle] at hbefore
      exact hkept.body c _ h.inv hbefore
  | act c hcall a hserves =>
      have hstands := h.stands c
      rw [hcall] at hstands
      obtain ⟨pre, hpre, hstable, _, mid, hanswer, hnext⟩ := hstands
      obtain ⟨hinv, hguar, hmid⟩ := hanswer _ a _ hserves h.inv hpre
      exact h.update hkept hinv hguar ⟨mid a, hmid, hnext a⟩
  | finish c hcall =>
      apply h.update_same
      have hstands := h.stands c
      rw [hcall] at hstands
      obtain ⟨pre, hpre, hstable, hpost⟩ := hstands
      exact hpost _ h.inv hpre

omit [DecidableEq C] in
/-- A running call puts a question that the shared state is ready for. -/
theorem Discipline.Outlined.ready {cfg : Config C A K R} (h : d.Outlined cfg)
    {c : C} {start : K} {q : Q} {next : A q → Prog Q A (R c)}
    (hcall : cfg.calls c = .running start (.ask q next)) :
    d.ready c q cfg.shared := by
  have hstands := h.stands c
  rw [hcall] at hstands
  obtain ⟨pre, hpre, _, hready, _⟩ := hstands
  exact hready _ h.inv hpre

/-- Every reachable configuration is at assertions of the outlines. -/
theorem System.Reachable.outlined (hkept : d.Kept)
    {mayStart : Config C A K R → C → Prop} {k : K} (hinv : d.inv k)
    (hbefore : ∀ c, d.before c k) {cfg : Config C A K R}
    (hreach : system.Reachable mayStart k cfg) : d.Outlined cfg := by
  induction hreach with
  | initial => exact ⟨hinv, hbefore⟩
  | step _ hstep ih => exact ih.step hkept hstep

/-! ## Progress -/

open Relation (ReflTransGen)

/-- The outside moves, one step after the other. -/
theorem System.outside_steps (mayStart : Config C A K R → C → Prop)
    {k k' : K} (hmoves : ReflTransGen system.moves k k') :
    ∀ cfg : Config C A K R, cfg.shared = k →
      ReflTransGen (system.Step mayStart) cfg { cfg with shared := k' } := by
  induction hmoves with
  | refl =>
      rintro cfg rfl
      exact .refl
  | tail _ hmove ih =>
      intro cfg hcfg
      exact (ih cfg hcfg).tail (.outside hmove)

/-- A run goes on from where it has led. -/
theorem System.Reachable.steps {mayStart : Config C A K R → C → Prop} {k : K}
    {cfg cfg' : Config C A K R} (hreach : system.Reachable mayStart k cfg)
    (hsteps : ReflTransGen (system.Step mayStart) cfg cfg') :
    system.Reachable mayStart k cfg' := by
  induction hsteps with
  | refl => exact hreach
  | tail _ hstep ih => exact ih.step hstep

/-- In the reachable configurations whose shared state is `good`, each question
of the call `c` can be served, once the shared state has moved as far as it has
to, and the answer leaves it good. -/
def System.CanServe (system : System C A K R)
    (mayStart : Config C A K R → C → Prop) (k : K) (good : K → Prop)
    (c : C) : Prop :=
  ∀ cfg start q next, system.Reachable mayStart k cfg → good cfg.shared →
    cfg.calls c = .running start (.ask q next) →
      ∃ k₁, ReflTransGen system.moves cfg.shared k₁ ∧
        ∃ a k₂, system.serves c k₁ q a k₂ ∧ good k₂

/-- A call that can always be served can finish, while no other call acts. -/
theorem System.CanServe.finishes {mayStart : Config C A K R → C → Prop} {k : K}
    {good : K → Prop} {c : C} (hserve : system.CanServe mayStart k good c)
    {start : K} (rest : Prog Q A (R c)) :
    ∀ cfg, system.Reachable mayStart k cfg → good cfg.shared →
      cfg.calls c = .running start rest →
      ∃ cfg' r, ReflTransGen (system.Step mayStart) cfg cfg' ∧
        good cfg'.shared ∧ cfg'.calls c = .finished start r ∧
        ∀ c', c' ≠ c → cfg'.calls c' = cfg.calls c' := by
  induction rest with
  | done r =>
      intro cfg hreach hgood hcall
      exact ⟨_, r, .single (.finish c hcall), hgood,
        Config.update_self cfg c _ _, fun c' hne =>
          Config.update_of_ne cfg _ _ hne⟩
  | ask q next ih =>
      intro cfg hreach hgood hcall
      obtain ⟨k₁, hmoves, a, k₂, hanswer, hgood'⟩ :=
        hserve cfg start q next hreach hgood hcall
      let moved : Config C A K R := { cfg with shared := k₁ }
      have hmoved : ReflTransGen (system.Step mayStart) cfg moved :=
        System.outside_steps mayStart hmoves cfg rfl
      have hcall' : moved.calls c = .running start (.ask q next) := hcall
      have hacted := hmoved.tail (.act c hcall' a hanswer)
      obtain ⟨cfg', r, hrest, hend, hdone, hothers⟩ :=
        ih a _ (hreach.steps hacted) hgood' (Config.update_self moved c _ _)
      refine ⟨cfg', r, hacted.trans hrest, hend, hdone, ?_⟩
      intro c' hne
      rw [hothers c' hne, Config.update_of_ne moved _ _ hne]

end

end Cosca.Verified.Interact
