/-!
# Scanning loops

A hand-written lexer is a `while` loop over an index: each turn looks at the
current symbol, possibly at the ones after it, updates a record of local
variables and advances the index by one or more.  This module gives such a
loop as a total function of its body (`scan`) and a rule set for proving what
it does to a *piece* of its input.

`Reads Follow P w Q` says that, wherever the loop stands and whatever comes
after `w` (as long as it meets `Follow`), a scanner in a state that satisfies
`P` consumes exactly `w` and is then in a state that satisfies `Q`.  Pieces
compose by `Reads.seq`, so an encoder that emits its output piece by piece is
verified against the decoder piece by piece, and the decoder's transition
function is unfolded only for single turns (`Reads.turn`).
-/

namespace Cosca.Verified.Scan

variable {τ σ β : Type}

/-! ## The loop -/

/-- What one turn of the loop does: go on in a new state, after `extra`
symbols beyond the current one, or leave the loop with a result. -/
inductive Turn (σ β : Type) where
  | advance (st : σ) (extra : Nat)
  | exit (result : β)

/-- A scanner: the loop body, which sees the index, the current symbol and
the symbols after it, and what is computed when the input is used up. -/
structure Scanner (τ σ β : Type) where
  turn : σ → Nat → τ → List τ → Turn σ β
  finish : σ → β

/-- The loop with an explicit budget of turns. -/
def Scanner.scanFuel (S : Scanner τ σ β) : Nat → σ → Nat → List τ → β
  | _, st, _, [] => S.finish st
  | 0, st, _, _ :: _ => S.finish st
  | fuel + 1, st, i, c :: rest =>
      match S.turn st i c rest with
      | .exit result => result
      | .advance st' extra =>
          S.scanFuel fuel st' (i + 1 + extra) (rest.drop extra)

/-- The loop.  Every turn consumes a symbol, so as many turns as there are
symbols are enough. -/
def Scanner.scan (S : Scanner τ σ β) (st : σ) (i : Nat) (input : List τ) : β :=
  S.scanFuel input.length st i input

/-- A budget that covers the input computes what any larger one does. -/
theorem Scanner.scanFuel_eq_scan (S : Scanner τ σ β) (fuel : Nat) :
    ∀ (st : σ) (i : Nat) (input : List τ), input.length ≤ fuel →
      S.scanFuel fuel st i input = S.scan st i input := by
  induction fuel using Nat.strongRecOn with
  | ind fuel ih =>
      intro st i input hlen
      cases input with
      | nil => simp only [scan, scanFuel]
      | cons c rest =>
          obtain ⟨n, rfl⟩ : ∃ n, fuel = n + 1 :=
            ⟨fuel - 1, by simp only [List.length_cons] at hlen; omega⟩
          simp only [List.length_cons] at hlen
          simp only [scan, List.length_cons, scanFuel]
          cases hturn : S.turn st i c rest with
          | exit result => rfl
          | advance st' extra =>
              simp only
              have hdrop : (rest.drop extra).length ≤ rest.length := by
                rw [List.length_drop]
                omega
              rw [ih n (by omega) _ _ _ (by omega)]
              by_cases hn : rest.length = n
              · rw [hn, ih n (by omega) _ _ _ (by omega)]
              · rw [ih rest.length (by omega) _ _ _ hdrop]

@[simp] theorem Scanner.scan_nil (S : Scanner τ σ β) (st : σ) (i : Nat) :
    S.scan st i [] = S.finish st := rfl

/-- One turn of the loop. -/
theorem Scanner.scan_cons (S : Scanner τ σ β) (st : σ) (i : Nat) (c : τ)
    (rest : List τ) :
    S.scan st i (c :: rest) =
      match S.turn st i c rest with
      | .exit result => result
      | .advance st' extra => S.scan st' (i + 1 + extra) (rest.drop extra) := by
  simp only [scan, List.length_cons, scanFuel]
  cases S.turn st i c rest with
  | exit result => rfl
  | advance st' extra =>
      exact S.scanFuel_eq_scan _ _ _ _ (by rw [List.length_drop]; omega)

/-- A turn that goes on. -/
theorem Scanner.scan_advance (S : Scanner τ σ β) {st st' : σ} {i extra : Nat}
    {c : τ} {rest : List τ} (h : S.turn st i c rest = .advance st' extra) :
    S.scan st i (c :: rest) = S.scan st' (i + 1 + extra) (rest.drop extra) := by
  simp only [Scanner.scan_cons, h]

/-- A turn that leaves the loop. -/
theorem Scanner.scan_exit (S : Scanner τ σ β) {st : σ} {i : Nat} {c : τ}
    {rest : List τ} {result : β} (h : S.turn st i c rest = .exit result) :
    S.scan st i (c :: rest) = result := by
  simp only [Scanner.scan_cons, h]

/-! ## The loop heads -/

/-- `S.Visits st₀ i₀ input n st i rest`: after `n` turns the loop that started
in `st₀`, at the index `i₀`, is in `st`, at `i`, and has `rest` before it. -/
inductive Scanner.Visits (S : Scanner τ σ β) (st₀ : σ) (i₀ : Nat)
    (input : List τ) : Nat → σ → Nat → List τ → Prop
  | start : S.Visits st₀ i₀ input 0 st₀ i₀ input
  | turn {n : Nat} {st st' : σ} {i extra : Nat} {c : τ} {rest : List τ}
      (h : S.Visits st₀ i₀ input n st i (c :: rest))
      (hturn : S.turn st i c rest = .advance st' extra) :
      S.Visits st₀ i₀ input (n + 1) st' (i + 1 + extra) (rest.drop extra)

/-- The loop makes no more turns than there are symbols. -/
theorem Scanner.Visits.turns_le {S : Scanner τ σ β} {st₀ st : σ} {i₀ n i : Nat}
    {input rest : List τ} (h : S.Visits st₀ i₀ input n st i rest) :
    n + rest.length ≤ input.length := by
  induction h with
  | start => omega
  | turn _ _ ih =>
      simp only [List.length_cons, List.length_drop] at ih ⊢
      omega

/-- An invariant of single turns holds at every loop head. -/
theorem Scanner.Visits.invariant {S : Scanner τ σ β} {st₀ st : σ}
    {i₀ n i : Nat} {input rest : List τ} {I : σ → Prop} (hstart : I st₀)
    (hstep : ∀ st i c rest st' extra, I st →
      S.turn st i c rest = .advance st' extra → I st')
    (h : S.Visits st₀ i₀ input n st i rest) : I st := by
  induction h with
  | start => exact hstart
  | turn _ hturn ih => exact hstep _ _ _ _ _ _ ih hturn

/-! ## Reading a piece of the input -/

/-- From any state that satisfies `P`, the loop consumes exactly `w` and is
then in a state that satisfies `Q`, whatever follows `w` and satisfies
`Follow`. -/
def Scanner.Reads (S : Scanner τ σ β) (Follow : List τ → Prop) (P : σ → Prop)
    (w : List τ) (Q : σ → Prop) : Prop :=
  ∀ (st : σ) (i : Nat), P st → ∃ st', Q st' ∧
    ∀ rest, Follow rest →
      S.scan st i (w ++ rest) = S.scan st' (i + w.length) rest

/-- Any continuation of the input. -/
def anything : List τ → Prop := fun _ => True

variable {S : Scanner τ σ β}

theorem Scanner.Reads.nil {Follow : List τ → Prop} {P : σ → Prop} :
    S.Reads Follow P [] P :=
  fun st _ hst => ⟨st, hst, fun _ _ => rfl⟩

/-- Consequence: a weaker demand on what follows, on the state before and
after. -/
theorem Scanner.Reads.weaken {Follow Follow' : List τ → Prop} {P P' Q Q' : σ → Prop}
    {w : List τ} (h : S.Reads Follow P w Q)
    (hF : ∀ rest, Follow' rest → Follow rest) (hP : ∀ st, P' st → P st)
    (hQ : ∀ st, Q st → Q' st) : S.Reads Follow' P' w Q' := by
  intro st i hst
  obtain ⟨st', hst', hscan⟩ := h st i (hP st hst)
  exact ⟨st', hQ st' hst', fun rest hrest => hscan rest (hF rest hrest)⟩

/-- Consequence on the state after only. -/
theorem Scanner.Reads.post {Follow : List τ → Prop} {P Q Q' : σ → Prop}
    {w : List τ} (h : S.Reads Follow P w Q) (hQ : ∀ st, Q st → Q' st) :
    S.Reads Follow P w Q' :=
  h.weaken (fun _ hrest => hrest) (fun _ hst => hst) hQ

/-- Sequencing: what follows the first piece is the second one and then
whatever follows that. -/
theorem Scanner.Reads.seq {F G : List τ → Prop} {P Q R : σ → Prop} {u v : List τ}
    (hu : S.Reads F P u Q) (hv : S.Reads G Q v R)
    (hF : ∀ rest, G rest → F (v ++ rest)) : S.Reads G P (u ++ v) R := by
  intro st i hst
  obtain ⟨st₁, hst₁, hscan₁⟩ := hu st i hst
  obtain ⟨st₂, hst₂, hscan₂⟩ := hv st₁ (i + u.length) hst₁
  refine ⟨st₂, hst₂, ?_⟩
  intro rest hrest
  rw [List.append_assoc, hscan₁ _ (hF rest hrest), hscan₂ rest hrest,
    List.length_append, Nat.add_assoc]

/-- Sequencing when the first piece does not look at what follows it. -/
theorem Scanner.Reads.append {G : List τ → Prop} {P Q R : σ → Prop} {u v : List τ}
    (hu : S.Reads anything P u Q) (hv : S.Reads G Q v R) :
    S.Reads G P (u ++ v) R :=
  hu.seq hv (fun _ _ => trivial)

/-- One turn that consumes the symbol `c` and the symbols `w` after it. -/
theorem Scanner.Reads.turn {Follow : List τ → Prop} {P Q : σ → Prop} {c : τ}
    {w : List τ}
    (h : ∀ (st : σ) (i : Nat), P st → ∃ st', Q st' ∧ ∀ rest, Follow rest →
      S.turn st i c (w ++ rest) = .advance st' w.length) :
    S.Reads Follow P (c :: w) Q := by
  intro st i hst
  obtain ⟨st', hst', hturn⟩ := h st i hst
  refine ⟨st', hst', ?_⟩
  intro rest hrest
  rw [List.cons_append, Scanner.scan_cons, hturn rest hrest]
  simp only [List.drop_left, List.length_cons]
  congr 1
  omega

/-- A loop over the symbols of `w` whose body keeps the invariant `I`, which
is indexed by what has been read. -/
theorem Scanner.Reads.each {α : Type} (I : List α → σ → Prop) (enc : α → List τ)
    (hstep : ∀ (done : List α) (x : α),
      S.Reads anything (I done) (enc x) (I (done ++ [x]))) :
    ∀ (xs done : List α),
      S.Reads anything (I done) (xs.flatMap enc) (I (done ++ xs)) := by
  intro xs
  induction xs with
  | nil =>
      intro done
      rw [List.append_nil]
      exact Scanner.Reads.nil
  | cons x xs ih =>
      intro done
      have hrest := ih (done ++ [x])
      rw [List.append_assoc, List.singleton_append] at hrest
      rw [List.flatMap_cons]
      exact (hstep done x).append hrest

/-- What a whole run returns, once the input is read to its end. -/
theorem Scanner.Reads.scan_eq {Follow : List τ → Prop} {P Q : σ → Prop} {w : List τ}
    (h : S.Reads Follow P w Q) (hnil : Follow []) {st : σ} (hst : P st)
    (i : Nat) : ∃ st', Q st' ∧ S.scan st i w = S.finish st' := by
  obtain ⟨st', hst', hscan⟩ := h st i hst
  refine ⟨st', hst', ?_⟩
  have hend := hscan [] hnil
  rwa [List.append_nil, Scanner.scan_nil] at hend

end Cosca.Verified.Scan
