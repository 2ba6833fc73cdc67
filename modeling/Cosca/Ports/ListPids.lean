import Cosca.Ports.Errors
import Cosca.Verified.Checked
import Cosca.Verified.Interact

/-!
# Listing every pid

`containment/enumerate/macos.rs`: `proc_listallpids` fills the buffer it is
handed and does not say whether the list was cut off, so `collect_pids` asks
again with twice the room until the answer leaves room to spare.

## Main results

* `collected_of_runs`: what the loop can do, round by round.
-/

namespace Cosca.Ports.ListPids

open Cosca.Ports.Errors
open Cosca.Verified.Checked
open Cosca.Verified.Interact

/-! ## Buffers -/

/-- A `Vec<c_int>`: no more than `isize::MAX` bytes. -/
structure Pids where
  entries : List Int32
  fits : entries.length * 4 ≤ 2 ^ 63 - 1
  deriving DecidableEq, Repr

/-- `Vec::len`. -/
def Pids.len (pids : Pids) : UInt64 :=
  UInt64.ofNat pids.entries.length

/-- What a step leaves in a buffer it borrows. -/
abbrev Slice (pids : Pids) : Type :=
  { entries : List Int32 // entries.length = pids.entries.length }

def Pids.write (pids : Pids) (slice : Slice pids) : Pids where
  entries := slice.1
  fits := by
    rw [slice.2]
    exact pids.fits

/-- `Vec::truncate`. -/
def Pids.truncate (pids : Pids) (n : UInt64) : Pids where
  entries := pids.entries.take n.toNat
  fits := by
    have hfits := pids.fits
    rw [List.length_take]
    omega

@[simp] theorem Pids.toNat_len (pids : Pids) :
    pids.len.toNat = pids.entries.length := by
  have hfits := pids.fits
  exact UInt64.toNat_ofNat_of_lt' (by show _ < 2 ^ 64; omega)

/-! ## Sizes -/

/-- `HEADROOM`. -/
def headroom : UInt64 := 16

/-- `usize::saturating_add`. -/
def saturatingAdd (a b : UInt64) : UInt64 :=
  (checkedAdd a b).getD (UInt64.ofNat (2 ^ 64 - 1))

/-- `capacity_for`. -/
def capacityFor (needed : UInt64) : UInt64 :=
  saturatingAdd needed headroom

/-- `c_int::try_from`. -/
def toCInt (bytes : UInt64) : Option Int32 :=
  if bytes.toNat < 2 ^ 31 then some bytes.toInt64.toInt32 else none

/-- The error of a capacity whose bytes an `int` cannot count. -/
def sizeRefused (pidCount : UInt64) : IoError :=
  .other ("a " ++ toString pidCount ++ "-pid buffer cannot be described in " ++
    "proc_listallpids' int size argument")

/-- `size_argument_for`. -/
def sizeArgumentFor (pidCount : UInt64) : Except IoError Int32 :=
  match (checkedMul pidCount 4).bind toCInt with
  | some bytes => .ok bytes
  | none => .error (sizeRefused pidCount)

theorem sizeArgumentFor_isOk_iff (pidCount : UInt64) :
    (sizeArgumentFor pidCount).isOk = true ↔ pidCount.toNat < 2 ^ 29 := by
  unfold sizeArgumentFor checkedMul
  have hfour : (4 : UInt64).toNat = 4 := rfl
  by_cases hmul : pidCount.toNat * (4 : UInt64).toNat < 2 ^ 64
  · have hbytes := toNat_mul_of_lt hmul
    rw [hfour] at hbytes
    rw [if_pos hmul, Option.bind_some, toCInt]
    by_cases hint : (pidCount * 4).toNat < 2 ^ 31
    · rw [if_pos hint]
      exact iff_of_true rfl (by omega)
    · rw [if_neg hint]
      exact iff_of_false Bool.false_ne_true (by omega)
  · rw [if_neg hmul]
    rw [hfour] at hmul
    exact iff_of_false Bool.false_ne_true (by omega)

theorem sizeArgumentFor_error {pidCount : UInt64}
    (h : ¬ pidCount.toNat < 2 ^ 29) :
    sizeArgumentFor pidCount = .error (sizeRefused pidCount) := by
  rw [← sizeArgumentFor_isOk_iff] at h
  unfold sizeArgumentFor at h ⊢
  cases hbytes : (checkedMul pidCount 4).bind toCInt with
  | none => rfl
  | some bytes =>
      rw [hbytes] at h
      exact absurd rfl h

/-! ## The loop -/

/-- `Filled`. -/
structure Filled where
  pids : Pids
  rounds : UInt64
  deriving DecidableEq, Repr

/-- The three refusals of `collect_pids`. -/
def zeroCapacity : IoError :=
  .other "collect_pids requires a nonzero starting capacity"

def notGrown : IoError :=
  .other ("collect_pids's allocate step did not grow the buffer for a " ++
    "larger capacity")

def overReported : IoError :=
  .other "collect_pids's fill step reported more pids than the buffer holds"

section

variable {Q : Type} {A : Q → Type}
variable (fill : (pids : Pids) → Prog Q A (Slice pids × Except IoError UInt64))
variable (allocate : UInt64 → Prog Q A (Except IoError Pids))

/-- The loop of `collect_pids`; a fault is an overflow. -/
def collectLoop : Nat → UInt64 → UInt64 → UInt64 →
    Prog Q A (Option (Except Fault (Except IoError Filled)))
  | 0, _, _, _ => return none
  | fuel + 1, cap, prev, rounds =>
      match add rounds 1 with
      | .error fault => return some (.error fault)
      | .ok rounds => do
          match ← allocate cap with
          | .error e => return some (.ok (.error e))
          | .ok pids =>
              if pids.len ≤ prev then return some (.ok (.error notGrown))
              else
                match ← fill pids with
                | (_, .error e) => return some (.ok (.error e))
                | (slice, .ok written) =>
                    if pids.len < written then
                      return some (.ok (.error overReported))
                    else if written < pids.len then
                      return some (.ok (.ok {
                        pids := (pids.write slice).truncate written
                        rounds := rounds }))
                    else
                      match mul pids.len 2 with
                      | .error fault => return some (.error fault)
                      | .ok cap => collectLoop fuel cap pids.len rounds

/-- `collect_pids`. -/
def collectPids (fuel : Nat) (cap : UInt64) :
    Prog Q A (Option (Except Fault (Except IoError Filled))) :=
  if cap = 0 then return some (.ok (.error zeroCapacity))
  else collectLoop fill allocate fuel cap 0 0

/-! ## The rounds -/

/-- What the loop can do with so much fuel, the buffer of the last round
having had `prev` entries: a round ends it in one of five ways, or the list
filled the buffer and the next round asks for twice as many. -/
inductive Collected : Nat → UInt64 → UInt64 → UInt64 → List (Event A) →
    Option (Except IoError Filled) → Prop where
  | unfinished (cap prev rounds : UInt64) :
      Collected 0 cap prev rounds [] none
  | refused {fuel : Nat} {cap prev rounds : UInt64} {events : List (Event A)}
      {e : IoError} (halloc : (allocate cap).Runs events (.error e)) :
      Collected (fuel + 1) cap prev rounds events (some (.error e))
  | notGrown {fuel : Nat} {cap prev rounds : UInt64} {events : List (Event A)}
      {pids : Pids} (halloc : (allocate cap).Runs events (.ok pids))
      (hlen : pids.len ≤ prev) :
      Collected (fuel + 1) cap prev rounds events (some (.error notGrown))
  | failed {fuel : Nat} {cap prev rounds : UInt64}
      {first second : List (Event A)} {pids : Pids} {slice : Slice pids}
      {e : IoError} (halloc : (allocate cap).Runs first (.ok pids))
      (hlen : ¬ pids.len ≤ prev)
      (hfill : (fill pids).Runs second (slice, .error e)) :
      Collected (fuel + 1) cap prev rounds (first ++ second)
        (some (.error e))
  | overReported {fuel : Nat} {cap prev rounds : UInt64}
      {first second : List (Event A)} {pids : Pids} {slice : Slice pids}
      {written : UInt64} (halloc : (allocate cap).Runs first (.ok pids))
      (hlen : ¬ pids.len ≤ prev)
      (hfill : (fill pids).Runs second (slice, .ok written))
      (hmore : pids.len < written) :
      Collected (fuel + 1) cap prev rounds (first ++ second)
        (some (.error overReported))
  | listed {fuel : Nat} {cap prev rounds : UInt64}
      {first second : List (Event A)} {pids : Pids} {slice : Slice pids}
      {written : UInt64} (halloc : (allocate cap).Runs first (.ok pids))
      (hlen : ¬ pids.len ≤ prev)
      (hfill : (fill pids).Runs second (slice, .ok written))
      (hless : written < pids.len) :
      Collected (fuel + 1) cap prev rounds (first ++ second)
        (some (.ok ⟨(pids.write slice).truncate written, rounds + 1⟩))
  | saturated {fuel : Nat} {cap prev rounds : UInt64}
      {first second rest : List (Event A)} {pids : Pids} {slice : Slice pids}
      {r : Option (Except IoError Filled)}
      (halloc : (allocate cap).Runs first (.ok pids))
      (hlen : ¬ pids.len ≤ prev)
      (hfill : (fill pids).Runs second (slice, .ok pids.len))
      (hrest : Collected fuel (pids.len * 2) pids.len (rounds + 1) rest r) :
      Collected (fuel + 1) cap prev rounds (first ++ (second ++ rest)) r

theorem Pids.mul_two (pids : Pids) :
    mul pids.len 2 = .ok (pids.len * 2) := by
  refine mul_eq_ok ?_
  have hfits := pids.fits
  rw [Pids.toNat_len]
  show pids.entries.length * 2 < 2 ^ 64
  omega

/-- No run of the loop leaves the range of a `usize`, since the buffers of
the earlier rounds were each at least one entry longer. -/
theorem collected_of_runs {fuel : Nat} :
    ∀ {cap prev rounds : UInt64} {events : List (Event A)}
      {r : Option (Except Fault (Except IoError Filled))},
      rounds ≤ prev → prev.toNat < 2 ^ 63 →
      (collectLoop fill allocate fuel cap prev rounds).Runs events r →
        ∃ r', r = r'.map .ok ∧
          Collected fill allocate fuel cap prev rounds events r' := by
  induction fuel with
  | zero =>
      intro cap prev rounds events r hrounds hprev h
      obtain ⟨rfl, rfl⟩ := Prog.Runs.of_pure h
      exact ⟨none, rfl, .unfinished cap prev rounds⟩
  | succ fuel ih =>
      intro cap prev rounds events r hrounds hprev h
      rw [UInt64.le_iff_toNat_le] at hrounds
      have hadd : add rounds 1 = .ok (rounds + 1) :=
        add_eq_ok (by show rounds.toNat + 1 < 2 ^ 64; omega)
      unfold collectLoop at h
      rw [hadd] at h
      dsimp only at h
      obtain ⟨got, first, rest, halloc, h, rfl⟩ := Prog.Runs.of_bind h
      cases got with
      | error e =>
          obtain ⟨rfl, rfl⟩ := Prog.Runs.of_pure h
          rw [List.append_nil]
          exact ⟨_, rfl, .refused halloc⟩
      | ok pids =>
          dsimp only at h
          by_cases hlen : pids.len ≤ prev
          · rw [if_pos hlen] at h
            obtain ⟨rfl, rfl⟩ := Prog.Runs.of_pure h
            rw [List.append_nil]
            exact ⟨_, rfl, .notGrown halloc hlen⟩
          · rw [if_neg hlen] at h
            obtain ⟨⟨slice, got⟩, second, rest, hfill, h, rfl⟩ :=
              Prog.Runs.of_bind h
            cases got with
            | error e =>
                obtain ⟨rfl, rfl⟩ := Prog.Runs.of_pure h
                rw [List.append_nil]
                exact ⟨_, rfl, .failed halloc hlen hfill⟩
            | ok written =>
                dsimp only at h
                by_cases hmore : pids.len < written
                · rw [if_pos hmore] at h
                  obtain ⟨rfl, rfl⟩ := Prog.Runs.of_pure h
                  rw [List.append_nil]
                  exact ⟨_, rfl, .overReported halloc hlen hfill hmore⟩
                · rw [if_neg hmore] at h
                  by_cases hless : written < pids.len
                  · rw [if_pos hless] at h
                    obtain ⟨rfl, rfl⟩ := Prog.Runs.of_pure h
                    rw [List.append_nil]
                    exact ⟨_, rfl, .listed halloc hlen hfill hless⟩
                  · rw [if_neg hless, Pids.mul_two] at h
                    have hfull : written = pids.len := by
                      rw [UInt64.lt_iff_toNat_lt] at hmore hless
                      exact UInt64.toNat_inj.mp (by omega)
                    subst hfull
                    have hfits := pids.fits
                    rw [UInt64.le_iff_toNat_le] at hlen
                    have hnext : rounds + 1 ≤ pids.len := by
                      rw [UInt64.le_iff_toNat_le,
                        toNat_add_of_lt (by show rounds.toNat + 1 < _; omega)]
                      show rounds.toNat + 1 ≤ _
                      omega
                    have hbound : pids.len.toNat < 2 ^ 63 := by
                      rw [Pids.toNat_len]
                      omega
                    obtain ⟨r', rfl, hrest⟩ := ih hnext hbound h
                    rw [← UInt64.le_iff_toNat_le] at hlen
                    exact ⟨r', rfl, .saturated halloc hlen hfill hrest⟩

theorem Pids.len_lt (pids : Pids) : pids.len.toNat < 2 ^ 61 := by
  have hfits := pids.fits
  rw [Pids.toNat_len]
  omega

variable {fill allocate}

/-- A buffer cannot grow more often than it can have entries. -/
theorem Collected.finished {fuel : Nat} {cap prev rounds : UInt64}
    {events : List (Event A)} {r : Option (Except IoError Filled)}
    (h : Collected fill allocate fuel cap prev rounds events r)
    (hprev : prev.toNat < 2 ^ 61) (hfuel : 2 ^ 61 ≤ fuel + prev.toNat) :
    r.isSome = true := by
  induction h with
  | unfinished => omega
  | saturated halloc hlen hfill hrest ih =>
      rw [UInt64.le_iff_toNat_le] at hlen
      exact ih (Pids.len_lt _) (by omega)
  | refused | notGrown | failed | overReported | listed => rfl

end

/-! ## Injected steps -/

/-- The steps that are handed to `collect_pids`. -/
inductive Step where
  | allocate (cap : UInt64)
  | fill (pids : Pids)

/-- What a step may answer, whatever it is. -/
def Step.Answer : Step → Type
  | .allocate _ => Except IoError Pids
  | .fill pids => Slice pids × Except IoError UInt64

/-- `collect_pids` with steps of which nothing is known. -/
def collectInjected (fuel : Nat) (cap : UInt64) :
    Prog Step Step.Answer (Option (Except Fault (Except IoError Filled))) :=
  collectPids (fun pids => query (Step.fill pids))
    (fun cap => query (Step.allocate cap)) fuel cap

/-- The entries of the buffer that was handed out last. -/
def lastLength (prev : Nat) : List (Event Step.Answer) → Nat
  | [] => prev
  | ⟨.allocate _, .ok pids⟩ :: events => lastLength pids.entries.length events
  | _ :: events => lastLength prev events

/-- What no injected step can make of the loop: the doubling does not
overflow, a list is returned only behind a fill that left room, and a buffer
that did not grow or a fill beyond its buffer ends it. -/
structure Guarded (prev : Nat) (events : List (Event Step.Answer))
    (out : Except IoError Filled) : Prop where
  listed : ∀ filled, out = .ok filled → ∃ before pids slice written,
    events = before ++ [⟨.fill pids, (slice, .ok written)⟩] ∧
      written.toNat < pids.entries.length ∧
      filled.pids.entries = slice.1.take written.toNat
  grown : ∀ before cap pids after,
    events = before ++ ⟨.allocate cap, .ok pids⟩ :: after →
      pids.entries.length ≤ lastLength prev before → out = .error notGrown
  reported : ∀ before pids slice written after,
    events = before ++ ⟨.fill pids, (slice, .ok written)⟩ :: after →
      pids.entries.length < written.toNat → out = .error overReported

theorem of_query {Q : Type} {A : Q → Type} {q : Q} {events : List (Event A)}
    {a : A q} (h : (query q : Prog Q A (A q)).Runs events a) :
    events = [⟨q, a⟩] := by
  have h' : Prog.Runs (.ask q .done) events a := h
  cases h' with
  | ask _ _ _ hrest =>
      cases hrest with
      | done => rfl

theorem lastLength_cons (prev : Nat) (e : Event Step.Answer)
    (events : List (Event Step.Answer)) :
    lastLength prev (e :: events) =
      lastLength (lastLength prev [e]) events := by
  obtain ⟨q, a⟩ := e
  cases q with
  | allocate cap =>
      cases a with
      | ok pids => rfl
      | error e => rfl
  | fill pids => rfl

theorem Guarded.nil (prev : Nat) (e : IoError) :
    Guarded prev [] (.error e) where
  listed := fun filled h => by cases h
  grown := fun before cap pids after h => by
    cases before <;> cases h
  reported := fun before pids slice written after h => by
    cases before <;> cases h

/-- One event in front of the others. -/
theorem Guarded.cons {prev : Nat} {e : Event Step.Answer}
    {events : List (Event Step.Answer)} {out : Except IoError Filled}
    (hgrown : ∀ cap pids, e = ⟨.allocate cap, .ok pids⟩ →
      pids.entries.length ≤ prev → out = .error notGrown)
    (hreported : ∀ pids slice written,
      e = ⟨.fill pids, (slice, .ok written)⟩ →
        pids.entries.length < written.toNat → out = .error overReported)
    (h : Guarded (lastLength prev [e]) events out) :
    Guarded prev (e :: events) out where
  listed := by
    intro filled hout
    obtain ⟨before, pids, slice, written, rfl, hrest⟩ := h.listed filled hout
    exact ⟨e :: before, pids, slice, written, rfl, hrest⟩
  grown := by
    intro before cap pids after heq hlen
    rcases List.cons_eq_append_iff.mp heq with ⟨rfl, hhead⟩ |
      ⟨before, rfl, hrest⟩
    · exact hgrown cap pids (List.cons.inj hhead).1.symm hlen
    · rw [lastLength_cons] at hlen
      exact h.grown before cap pids after hrest hlen
  reported := by
    intro before pids slice written after heq hmore
    rcases List.cons_eq_append_iff.mp heq with ⟨rfl, hhead⟩ |
      ⟨before, rfl, hrest⟩
    · exact hreported pids slice written (List.cons.inj hhead).1.symm hmore
    · exact h.reported before pids slice written after hrest hmore

theorem Guarded.listing {prev : Nat} {pids : Pids} {slice : Slice pids}
    {written : UInt64} (hless : written < pids.len) (rounds : UInt64) :
    Guarded prev [⟨.fill pids, (slice, .ok written)⟩]
      (.ok ⟨(pids.write slice).truncate written, rounds⟩) where
  listed := by
    intro filled hout
    cases hout
    rw [UInt64.lt_iff_toNat_lt, Pids.toNat_len] at hless
    exact ⟨[], pids, slice, written, rfl, hless, rfl⟩
  grown := by
    intro before cap pids after heq
    rcases List.cons_eq_append_iff.mp heq with ⟨rfl, hhead⟩ |
      ⟨before, rfl, hrest⟩
    · cases hhead
    · cases before <;> cases hrest
  reported := by
    intro before pids' slice' written' after heq hmore
    rcases List.cons_eq_append_iff.mp heq with ⟨rfl, hhead⟩ |
      ⟨before, rfl, hrest⟩
    · cases hhead
      rw [UInt64.lt_iff_toNat_lt, Pids.toNat_len] at hless
      omega
    · cases before <;> cases hrest

/-- The buffer a round was given is the one it is compared with. -/
theorem Guarded.allocated {prev : Nat} {cap : UInt64} {pids : Pids}
    {events : List (Event Step.Answer)} {out : Except IoError Filled}
    (hlen : ¬ pids.entries.length ≤ prev)
    (h : Guarded pids.entries.length events out) :
    Guarded prev (⟨.allocate cap, .ok pids⟩ :: events) out := by
  refine Guarded.cons ?_ ?_ h
  · intro cap' pids' heq hle
    cases heq
    exact absurd hle hlen
  · intro pids' slice written heq
    cases heq

theorem guarded_of_collected {fuel : Nat} {cap prev rounds : UInt64}
    {events : List (Event Step.Answer)} {r : Option (Except IoError Filled)}
    (h : Collected (fun pids => query (Step.fill pids))
      (fun cap => query (Step.allocate cap)) fuel cap prev rounds events r) :
    ∀ {out}, r = some out → Guarded prev.toNat events out := by
  induction h with
  | unfinished =>
      intro out hout
      cases hout
  | refused halloc =>
      intro out hout
      cases hout
      rw [of_query halloc]
      refine Guarded.cons ?_ ?_ (.nil _ _)
      · intro cap pids heq
        cases heq
      · intro pids slice written heq
        cases heq
  | notGrown halloc hlen =>
      intro out hout
      cases hout
      rw [of_query halloc]
      refine Guarded.cons (fun _ _ _ _ => rfl) ?_ (.nil _ _)
      intro pids slice written heq
      cases heq
  | failed halloc hlen hfill =>
      intro out hout
      cases hout
      rw [UInt64.le_iff_toNat_le, Pids.toNat_len] at hlen
      rw [of_query halloc, of_query hfill]
      refine Guarded.allocated hlen (Guarded.cons ?_ ?_ (.nil _ _))
      · intro cap pids heq
        cases heq
      · intro pids slice written heq
        cases heq
  | overReported halloc hlen hfill hmore =>
      intro out hout
      cases hout
      rw [UInt64.le_iff_toNat_le, Pids.toNat_len] at hlen
      rw [of_query halloc, of_query hfill]
      refine Guarded.allocated hlen
        (Guarded.cons ?_ (fun _ _ _ _ _ => rfl) (.nil _ _))
      intro cap pids heq
      cases heq
  | listed halloc hlen hfill hless =>
      intro out hout
      cases hout
      rw [UInt64.le_iff_toNat_le, Pids.toNat_len] at hlen
      rw [of_query halloc, of_query hfill]
      exact Guarded.allocated hlen (Guarded.listing hless _)
  | saturated halloc hlen hfill hrest ih =>
      intro out hout
      have hguard := ih hout
      rw [Pids.toNat_len] at hguard
      rw [UInt64.le_iff_toNat_le, Pids.toNat_len] at hlen
      rw [of_query halloc, of_query hfill]
      refine Guarded.allocated hlen (Guarded.cons ?_ ?_ hguard)
      · intro cap pids heq
        cases heq
      · intro pids slice written heq hmore
        cases heq
        rw [Pids.toNat_len] at hmore
        omega

end Cosca.Ports.ListPids
