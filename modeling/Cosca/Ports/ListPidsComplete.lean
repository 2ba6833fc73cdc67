import Cosca.Ports.ListPids

/-!
# A listing is complete

With the steps of production the loop asks a kernel that lists what runs when it
is asked, and never writes over the buffer's end.

## Main results

* `collectPids_complete`: a list is returned in full or not at all, and what
  the injected steps cannot make of it.
-/

namespace Cosca.Ports.ListPids

open Cosca.Ports.Errors
open Cosca.Verified.Checked
open Cosca.Verified.Interact

/-! ## The kernel -/

/-- What a fill of `proc_listallpids` answers: its count, the error that
`last_os_error` would read, and the buffer. -/
structure Reply (pids : Pids) where
  written : Int32
  lastOsError : IoError
  entries : Slice pids

/-- What the production steps ask. -/
inductive Ask where
  /-- `try_reserve_exact` for so many entries. -/
  | tryReserveExact (cap : UInt64)
  /-- `proc_listallpids` with a buffer and its size in bytes. -/
  | procListallpids (pids : Pids) (bufBytes : Int32)
  /-- `proc_listallpids` with no buffer. -/
  | sizing

/-- The answers; a failed reservation has a text. -/
def Ask.Answer : Ask → Type
  | .tryReserveExact _ => Except String Unit
  | .procListallpids pids _ => Reply pids
  | .sizing => Int32 × IoError

/-- `interpret_written`. -/
def interpretWritten (written : Int32) (lastOsError : IoError) :
    Except IoError UInt64 :=
  if written ≤ 0 then .error lastOsError
  else .ok written.toInt64.toUInt64

/-- `fill_from_kernel`. -/
def fillFromKernel (pids : Pids) :
    Prog Ask Ask.Answer (Slice pids × Except IoError UInt64) :=
  match sizeArgumentFor pids.len with
  | .error e => return (⟨pids.entries, rfl⟩, .error e)
  | .ok bufBytes => do
      let reply ← query (Ask.procListallpids pids bufBytes)
      return (reply.entries, interpretWritten reply.written reply.lastOsError)

/-- The error of a reservation that failed. -/
def allocFailed (cap : UInt64) (e : String) : IoError :=
  .other ("a " ++ toString cap ++ "-pid buffer could not be allocated: " ++ e)

theorem lt_of_sizeArgumentFor {cap : UInt64} {bytes : Int32}
    (h : sizeArgumentFor cap = .ok bytes) : cap.toNat < 2 ^ 29 := by
  rw [← sizeArgumentFor_isOk_iff, h]
  rfl

/-- `resize(cap, 0)` on an empty buffer. -/
def Pids.zeroed (cap : UInt64) (h : cap.toNat < 2 ^ 29) : Pids where
  entries := List.replicate cap.toNat 0
  fits := by
    rw [List.length_replicate]
    omega

/-- `allocate_pids`. -/
def allocatePids (cap : UInt64) :
    Prog Ask Ask.Answer (Except IoError Pids) :=
  match h : sizeArgumentFor cap with
  | .error e => return .error e
  | .ok _ => do
      match ← query (Ask.tryReserveExact cap) with
      | .error e => return .error (allocFailed cap e)
      | .ok () => return .ok (Pids.zeroed cap (lt_of_sizeArgumentFor h))

/-- `fill_all`. -/
def fillAll (fuel : Nat) :
    Prog Ask Ask.Answer (Option (Except Fault (Except IoError Filled))) := do
  let (needed, lastOsError) ← query Ask.sizing
  match interpretWritten needed lastOsError with
  | .error e => return some (.ok (.error e))
  | .ok needed =>
      collectPids fillFromKernel allocatePids fuel (capacityFor needed)

/-- The kernel fills the buffer as far as its listing goes. -/
structure Reply.Lists {pids : Pids} (reply : Reply pids)
    (listing : List Int32) : Prop where
  count : reply.written.toInt =
    (min listing.length pids.entries.length : Nat)
  entries : reply.entries.1 = listing.take pids.entries.length ++
    pids.entries.drop listing.length

/-- Every listing has `size` entries. -/
def KernelLists (size : Nat) : Event Ask.Answer → Prop
  | ⟨.procListallpids _ _, reply⟩ =>
      ∃ listing, listing.length = size ∧ Reply.Lists reply listing
  | _ => True

/-- The capacities that were reserved, or tried to. -/
def reserved : List (Event Ask.Answer) → List Nat
  | [] => []
  | ⟨.tryReserveExact cap, _⟩ :: events => cap.toNat :: reserved events
  | _ :: events => reserved events

/-- The capacity asked for behind those that were reserved. -/
def nextCapacity : Nat → List Nat → Nat
  | start, [] => start
  | _, cap :: caps => nextCapacity (cap * 2) caps

/-- How the listing ends: with the whole of the last listing, or because the
next capacity does not fit an `int`, or because its reservation failed. -/
inductive Delivered (size start : Nat) (events : List (Event Ask.Answer)) :
    Except IoError Filled → Prop where
  | listed (before : List (Event Ask.Answer)) {pids : Pids} {bufBytes : Int32}
      {reply : Reply pids} {filled : Filled}
      (hlast : events = before ++ [⟨.procListallpids pids bufBytes, reply⟩])
      (hlists : reply.Lists filled.pids.entries)
      (hsize : filled.pids.entries.length = size) :
      Delivered size start events (.ok filled)
  | tooLarge {cap : UInt64}
      (hnext : cap.toNat = nextCapacity start (reserved events))
      (hint : 2 ^ 31 - 1 < cap.toNat * 4) :
      Delivered size start events (.error (sizeRefused cap))
  | unallocated (before : List (Event Ask.Answer)) {cap : UInt64}
      {e : String}
      (hlast : events = before ++ [⟨.tryReserveExact cap, .error e⟩]) :
      Delivered size start events (.error (allocFailed cap e))

/-! ## What the production steps do -/

theorem toNat_of_written {written : Int32} {n : Nat} (hpos : 0 < n)
    (h : written.toInt = n) (lastOsError : IoError) :
    ∃ count, interpretWritten written lastOsError = .ok count ∧
      count.toNat = n := by
  have hnot : ¬ written ≤ 0 := by
    rw [Int32.le_iff_toInt_le, h]
    show ¬ (n : Int) ≤ 0
    omega
  have hnonneg : 0 ≤ written.toInt64 := by
    rw [Int64.le_iff_toInt_le, Int32.toInt_toInt64, h]
    show (0 : Int) ≤ n
    omega
  refine ⟨written.toInt64.toUInt64, if_neg hnot, ?_⟩
  rw [Int64.toNat_toUInt64_of_le hnonneg, Int32.toNatClampNeg_toInt64,
    ← Int32.toNat_toInt, h]
  rfl

theorem fillFromKernel_runs {pids : Pids} {events : List (Event Ask.Answer)}
    {r : Slice pids × Except IoError UInt64} (hlen : pids.len.toNat < 2 ^ 29)
    (h : (fillFromKernel pids).Runs events r) :
    ∃ bufBytes, ∃ reply : Reply pids,
      events = [⟨.procListallpids pids bufBytes, reply⟩] ∧
        r = (reply.entries,
          interpretWritten reply.written reply.lastOsError) := by
  unfold fillFromKernel at h
  cases hsize : sizeArgumentFor pids.len with
  | error e =>
      rw [← sizeArgumentFor_isOk_iff, hsize] at hlen
      cases hlen
  | ok bufBytes =>
      rw [hsize] at h
      obtain ⟨reply, rest, rfl, hdone⟩ := Prog.Runs.of_query_bind h
      obtain ⟨rfl, rfl⟩ := Prog.Runs.of_pure hdone
      exact ⟨bufBytes, reply, rfl, rfl⟩

theorem allocatePids_runs {cap : UInt64} {events : List (Event Ask.Answer)}
    {r : Except IoError Pids} (h : (allocatePids cap).Runs events r) :
    (¬ cap.toNat < 2 ^ 29 ∧ events = [] ∧ r = .error (sizeRefused cap)) ∨
    (∃ e, events = [⟨.tryReserveExact cap, .error e⟩] ∧
      r = .error (allocFailed cap e)) ∨
    (∃ hcap, events = [⟨.tryReserveExact cap, .ok ()⟩] ∧
      r = .ok (Pids.zeroed cap hcap)) := by
  unfold allocatePids at h
  split at h
  · next e hsize =>
      obtain ⟨rfl, rfl⟩ := Prog.Runs.of_pure h
      have hcap : ¬ cap.toNat < 2 ^ 29 := by
        rw [← sizeArgumentFor_isOk_iff, hsize]
        exact Bool.false_ne_true
      rw [sizeArgumentFor_error hcap] at hsize
      cases hsize
      exact Or.inl ⟨hcap, rfl, rfl⟩
  · next bytes hsize =>
      obtain ⟨got, rest, rfl, hdone⟩ := Prog.Runs.of_query_bind h
      cases got with
      | error e =>
          obtain ⟨rfl, rfl⟩ := Prog.Runs.of_pure hdone
          exact Or.inr (Or.inl ⟨e, rfl, rfl⟩)
      | ok done =>
          obtain ⟨rfl, rfl⟩ := Prog.Runs.of_pure hdone
          exact Or.inr (Or.inr ⟨lt_of_sizeArgumentFor hsize, rfl, rfl⟩)

@[simp] theorem Pids.length_zeroed (cap : UInt64) (h : cap.toNat < 2 ^ 29) :
    (Pids.zeroed cap h).entries.length = cap.toNat :=
  List.length_replicate

theorem allocatePids_ok {cap : UInt64} {events : List (Event Ask.Answer)}
    {pids : Pids} (h : (allocatePids cap).Runs events (.ok pids)) :
    events = [⟨.tryReserveExact cap, .ok ()⟩] ∧ cap.toNat < 2 ^ 29 ∧
      pids.entries.length = cap.toNat := by
  rcases allocatePids_runs h with ⟨_, _, hr⟩ | ⟨_, _, hr⟩ |
    ⟨hcap, hevents, hr⟩
  · cases hr
  · cases hr
  · cases hr
    exact ⟨hevents, hcap, Pids.length_zeroed cap hcap⟩

/-- What a round with a fill told, and what it got: the fill was a success
and counted what it wrote. -/
structure FilledRound (size : Nat) (cap : UInt64) (pids : Pids)
    (slice : Slice pids) (first second : List (Event Ask.Answer))
    (got : Except IoError UInt64) : Prop where
  length : pids.entries.length = cap.toNat
  small : cap.toNat < 2 ^ 29
  reserves : first = [⟨.tryReserveExact cap, .ok ()⟩]
  fills : ∃ bufBytes, ∃ reply : Reply pids, ∃ listing,
    second = [⟨.procListallpids pids bufBytes, reply⟩] ∧
      listing.length = size ∧ reply.Lists listing ∧ slice = reply.entries
  counts : ∃ written : UInt64, got = .ok written ∧
    written.toNat = min size cap.toNat

theorem filledRound_of_runs {size : Nat} {cap : UInt64} {pids : Pids}
    {slice : Slice pids} {first second : List (Event Ask.Answer)}
    {got : Except IoError UInt64} (hsize : 1 ≤ size) (hpos : 0 < cap.toNat)
    (halloc : (allocatePids cap).Runs first (.ok pids))
    (hfill : (fillFromKernel pids).Runs second (slice, got))
    (hlists : ∀ e ∈ second, KernelLists size e) :
    FilledRound size cap pids slice first second got := by
  obtain ⟨hreserves, hsmall, hlength⟩ := allocatePids_ok halloc
  have hlen : pids.len.toNat < 2 ^ 29 := by
    rw [Pids.toNat_len]
    omega
  obtain ⟨bufBytes, reply, rfl, hr⟩ := fillFromKernel_runs hlen hfill
  obtain ⟨hslice, hgot⟩ := Prod.mk.inj hr
  obtain ⟨listing, hlisting, hreply⟩ :=
    hlists _ (List.mem_singleton.mpr rfl)
  have hcount := hreply.count
  rw [hlisting, hlength] at hcount
  obtain ⟨written, hwritten, htoNat⟩ :=
    toNat_of_written (by omega) hcount reply.lastOsError
  exact {
    length := hlength
    small := hsmall
    reserves := hreserves
    fills := ⟨bufBytes, reply, listing, rfl, hlisting, hreply, hslice⟩
    counts := ⟨written, hgot.trans hwritten, htoNat⟩ }

/-- A fill that left room wrote the whole listing. -/
theorem Reply.Lists.whole {pids : Pids} {reply : Reply pids}
    {listing : List Int32} (h : reply.Lists listing)
    (hroom : listing.length < pids.entries.length) :
    reply.entries.1.take listing.length = listing := by
  have hall : listing.take pids.entries.length = listing :=
    List.take_of_length_le (Nat.le_of_lt hroom)
  rw [h.entries, hall, List.take_left]

/-- A round whose list filled the buffer, in front of the others. -/
theorem Delivered.cons {size : Nat} {cap : UInt64} {pids : Pids}
    {bufBytes : Int32} {got : Except String Unit} {reply : Reply pids}
    {events : List (Event Ask.Answer)} {out : Except IoError Filled}
    (h : Delivered size (cap.toNat * 2) events out) :
    Delivered size cap.toNat (⟨.tryReserveExact cap, got⟩ ::
      ⟨.procListallpids pids bufBytes, reply⟩ :: events) out := by
  cases h with
  | listed before hlast hlists hsize =>
      subst hlast
      exact .listed (_ :: _ :: before) rfl hlists hsize
  | tooLarge hnext hint => exact .tooLarge hnext hint
  | unallocated before hlast =>
      subst hlast
      exact .unallocated (_ :: _ :: before) rfl

/-- Thirty rounds lead from one entry to more than an `int` counts in
bytes. -/
theorem delivered_of_collected {fuel : Nat} {cap prev rounds : UInt64}
    {events : List (Event Ask.Answer)} {r : Option (Except IoError Filled)}
    {size : Nat} (hsize : 1 ≤ size)
    (h : Collected fillFromKernel allocatePids fuel cap prev rounds events r) :
    prev < cap → 0 < fuel → 2 ^ 30 ≤ cap.toNat * 2 ^ fuel →
      (∀ e ∈ events, KernelLists size e) →
        ∃ out, r = some out ∧ (reserved events).Pairwise (· < ·) ∧
          (∀ c ∈ reserved events, cap.toNat ≤ c) ∧
          Delivered size cap.toNat events out := by
  induction h with
  | unfinished =>
      intro _ hfuel
      omega
  | refused halloc =>
      intro _ _ _ _
      rcases allocatePids_runs halloc with ⟨hcap, rfl, hr⟩ |
        ⟨e, rfl, hr⟩ | ⟨hcap, rfl, hr⟩
      · cases hr
        refine ⟨_, rfl, .nil, ?_, .tooLarge rfl (by omega)⟩
        intro c hc
        cases hc
      · cases hr
        refine ⟨_, rfl, List.pairwise_singleton _ _, ?_,
          .unallocated [] rfl⟩
        intro c hc
        exact Nat.le_of_eq (List.mem_singleton.mp hc).symm
      · cases hr
  | notGrown halloc hlen =>
      intro hprev _ _ _
      have hlength := (allocatePids_ok halloc).2.2
      rw [UInt64.le_iff_toNat_le, Pids.toNat_len] at hlen
      rw [UInt64.lt_iff_toNat_lt] at hprev
      omega
  | failed halloc hlen hfill =>
      intro hprev _ _ hlists
      rw [UInt64.lt_iff_toNat_lt] at hprev
      have hround := filledRound_of_runs hsize (by omega) halloc hfill
        fun e he => hlists e (List.mem_append_right _ he)
      obtain ⟨written, hgot, _⟩ := hround.counts
      cases hgot
  | overReported halloc hlen hfill hmore =>
      intro hprev _ _ hlists
      rw [UInt64.lt_iff_toNat_lt] at hprev
      have hround := filledRound_of_runs hsize (by omega) halloc hfill
        fun e he => hlists e (List.mem_append_right _ he)
      obtain ⟨written, hgot, hwritten⟩ := hround.counts
      cases hgot
      have hlength := hround.length
      rw [UInt64.lt_iff_toNat_lt, Pids.toNat_len] at hmore
      omega
  | @listed _ _ _ _ _ _ pids _ written halloc hlen hfill hless =>
      intro hprev _ _ hlists
      rw [UInt64.lt_iff_toNat_lt] at hprev
      have hround := filledRound_of_runs hsize (by omega) halloc hfill
        fun e he => hlists e (List.mem_append_right _ he)
      obtain ⟨_, hgot, hwritten⟩ := hround.counts
      obtain ⟨bufBytes, reply, listing, rfl, rfl, hreply, rfl⟩ := hround.fills
      rw [← Except.ok.inj hgot] at hwritten
      have hlength := hround.length
      rw [UInt64.lt_iff_toNat_lt, Pids.toNat_len] at hless
      have hfull : written.toNat = listing.length := by
        omega
      have hpids : ((pids.write reply.entries).truncate written).entries =
          listing := by
        show reply.entries.1.take written.toNat = listing
        rw [hfull]
        exact hreply.whole (by omega)
      rw [hround.reserves]
      refine ⟨_, rfl, List.pairwise_singleton _ _, ?_,
        .listed [_] rfl (hpids ▸ hreply) (congrArg List.length hpids)⟩
      intro c hc
      exact Nat.le_of_eq (List.mem_singleton.mp hc).symm
  | @saturated fuel cap _ _ _ _ _ pids _ _ halloc hlen hfill hrest ih =>
      intro hprev _ hfuel hlists
      rw [UInt64.lt_iff_toNat_lt] at hprev
      have hround := filledRound_of_runs hsize (by omega) halloc hfill
        fun e he => hlists e (List.mem_append_right _
          (List.mem_append_left _ he))
      obtain ⟨bufBytes, reply, listing, rfl, _, _, rfl⟩ := hround.fills
      have hlength := hround.length
      have hsmall := hround.small
      rw [hround.reserves]
      have hdouble : (pids.len * 2).toNat = cap.toNat * 2 := by
        have hrange : pids.len.toNat * (2 : UInt64).toNat < 2 ^ 64 := by
          rw [Pids.toNat_len, hlength]
          show cap.toNat * 2 < 2 ^ 64
          omega
        rw [toNat_mul_of_lt hrange, Pids.toNat_len, hlength]
        rfl
      have hgrown : pids.len < pids.len * 2 := by
        rw [UInt64.lt_iff_toNat_lt, hdouble, Pids.toNat_len]
        omega
      have henough : 2 ^ 30 ≤ (pids.len * 2).toNat * 2 ^ fuel := by
        rw [hdouble, Nat.mul_assoc, ← Nat.pow_succ']
        exact hfuel
      have hmore : 0 < fuel := by
        rw [Nat.pos_iff_ne_zero]
        rintro rfl
        omega
      obtain ⟨out, hr, hgrows, hleast, hout⟩ := ih hgrown hmore henough
        fun e he => hlists e (List.mem_append_right _
          (List.mem_append_right _ he))
      rw [hdouble] at hleast hout
      refine ⟨out, hr, List.pairwise_cons.mpr ⟨?_, hgrows⟩, ?_, hout.cons⟩
      · intro c hc
        have hle := hleast c hc
        omega
      · intro c hc
        rcases List.mem_cons.mp hc with rfl | hc
        · exact Nat.le_refl _
        · have hle := hleast c hc
          omega

/-- The loop with the production steps, from any capacity but none. -/
theorem collectPids_delivers {fuel size : Nat} {cap : UInt64}
    {events : List (Event Ask.Answer)}
    {r : Option (Except Fault (Except IoError Filled))} (hcap : cap ≠ 0)
    (hsize : 1 ≤ size) (hfuel : 30 ≤ fuel)
    (h : (collectPids fillFromKernel allocatePids fuel cap).Runs events r)
    (hlists : ∀ e ∈ events, KernelLists size e) :
    ∃ out, r = some (.ok out) ∧ (reserved events).Pairwise (· < ·) ∧
      Delivered size cap.toNat events out := by
  unfold collectPids at h
  rw [if_neg hcap] at h
  obtain ⟨r', rfl, hcollected⟩ := collected_of_runs _ _
    (UInt64.le_refl 0) (by decide) h
  have hpos : 0 < cap.toNat := by
    rw [Nat.pos_iff_ne_zero]
    exact fun h => hcap (UInt64.toNat_inj.mp h)
  have henough : 2 ^ 30 ≤ cap.toNat * 2 ^ fuel := by
    calc 2 ^ 30 ≤ 2 ^ fuel := Nat.pow_le_pow_right (by decide) hfuel
      _ ≤ cap.toNat * 2 ^ fuel := Nat.le_mul_of_pos_left _ hpos
  obtain ⟨out, rfl, hgrows, _, hout⟩ := delivered_of_collected hsize
    hcollected (UInt64.lt_iff_toNat_lt.mpr hpos) (by omega) henough hlists
  exact ⟨out, rfl, hgrows, hout⟩

theorem capacityFor_ne_zero (needed : UInt64) : capacityFor needed ≠ 0 := by
  unfold capacityFor saturatingAdd checkedAdd headroom
  by_cases h : needed.toNat + (16 : UInt64).toNat < 2 ^ 64
  · rw [if_pos h]
    intro hzero
    have hsum := toNat_add_of_lt h
    rw [Option.getD_some] at hzero
    rw [hzero] at hsum
    have hsixteen : (16 : UInt64).toNat = 16 := rfl
    have hnone : (0 : UInt64).toNat = 0 := rfl
    omega
  · rw [if_neg h]
    decide

/-- The two calls wired together: a failed sizing is an error of its own. -/
theorem fillAll_delivers {fuel size : Nat} {events : List (Event Ask.Answer)}
    {r : Option (Except Fault (Except IoError Filled))} (hsize : 1 ≤ size)
    (hfuel : 30 ≤ fuel) (h : (fillAll fuel).Runs events r)
    (hlists : ∀ e ∈ events, KernelLists size e) :
    ∃ needed lastOsError rest,
      events = ⟨.sizing, (needed, lastOsError)⟩ :: rest ∧
      ((needed ≤ 0 ∧ rest = [] ∧ r = some (.ok (.error lastOsError))) ∨
        ∃ out, r = some (.ok out) ∧ (reserved rest).Pairwise (· < ·) ∧
          Delivered size
            (capacityFor needed.toInt64.toUInt64).toNat rest out) := by
  obtain ⟨⟨needed, lastOsError⟩, rest, rfl, hrest⟩ :=
    Prog.Runs.of_query_bind h
  refine ⟨needed, lastOsError, rest, rfl, ?_⟩
  dsimp only at hrest
  unfold interpretWritten at hrest
  by_cases hneeded : needed ≤ 0
  · rw [if_pos hneeded] at hrest
    obtain ⟨rfl, rfl⟩ := Prog.Runs.of_pure hrest
    exact Or.inl ⟨hneeded, rfl, rfl⟩
  · rw [if_neg hneeded] at hrest
    exact Or.inr (collectPids_delivers (capacityFor_ne_zero _) hsize hfuel
      hrest fun e he => hlists e (List.mem_cons_of_mem _ he))

/-! ## Complete or not at all -/

/-- With the production steps and listings of one size the loop returns within
thirty rounds, asks for growing buffers, and what it returns is the whole of
the last listing or the refusal of the next buffer.  With steps of which
nothing is known it cannot overflow, refuses a capacity of nothing, and
returns a list only behind a fill that left room. -/
theorem collectPids_complete :
    (∀ (cap : UInt64) (size fuel : Nat) (events : List (Event Ask.Answer))
        (r : Option (Except Fault (Except IoError Filled))),
      cap ≠ 0 → 1 ≤ size → 30 ≤ fuel →
      (collectPids fillFromKernel allocatePids fuel cap).Runs events r →
      (∀ e ∈ events, KernelLists size e) →
        ∃ out, r = some (.ok out) ∧ (reserved events).Pairwise (· < ·) ∧
          Delivered size cap.toNat events out) ∧
    (∀ (cap : UInt64) (fuel : Nat) (events : List (Event Step.Answer))
        (r : Option (Except Fault (Except IoError Filled))),
      (collectInjected fuel cap).Runs events r →
        (2 ^ 61 ≤ fuel → r.isSome = true) ∧
        ∀ result, r = some result → ∃ out, result = .ok out ∧
          (cap = 0 → out = .error zeroCapacity) ∧ Guarded 0 events out) := by
  constructor
  · intro cap size fuel events r hcap hsize hfuel h hlists
    exact collectPids_delivers hcap hsize hfuel h hlists
  · intro cap fuel events r h
    unfold collectInjected collectPids at h
    by_cases hcap : cap = 0
    · rw [if_pos hcap] at h
      obtain ⟨rfl, rfl⟩ := Prog.Runs.of_pure h
      refine ⟨fun _ => rfl, ?_⟩
      intro result hresult
      cases hresult
      exact ⟨_, rfl, fun _ => rfl, .nil 0 _⟩
    · rw [if_neg hcap] at h
      obtain ⟨r', rfl, hcollected⟩ := collected_of_runs _ _
        (UInt64.le_refl 0) (by decide) h
      constructor
      · intro hfuel
        rw [Option.isSome_map]
        exact hcollected.finished (by decide) hfuel
      · intro result hresult
        cases hr : r' with
        | none =>
            rw [hr] at hresult
            cases hresult
        | some out =>
            rw [hr] at hresult
            cases hresult
            exact ⟨out, rfl, fun hzero => absurd hzero hcap,
              guarded_of_collected hcollected hr⟩

/-- Three processes listed into two entries, and then into four. -/
def threeListed : List (Event Ask.Answer) :=
  [⟨.tryReserveExact 2, .ok ()⟩,
    ⟨.procListallpids ⟨[0, 0], by decide⟩ 8, ⟨2, .os 0, ⟨[7, 8], rfl⟩⟩⟩,
    ⟨.tryReserveExact 4, .ok ()⟩,
    ⟨.procListallpids ⟨[0, 0, 0, 0], by decide⟩ 16,
      ⟨3, .os 0, ⟨[7, 8, 9, 0], rfl⟩⟩⟩]

theorem collectPids_complete_three :
    Delivered 3 2 threeListed
      (.ok ⟨⟨[7, 8, 9], by decide⟩, 2⟩) := by
  have hruns : (collectPids fillFromKernel allocatePids 30 2).Runs threeListed
      (some (.ok (.ok ⟨⟨[7, 8, 9], by decide⟩, 2⟩))) := by
    exact .ask _ _ _ (.ask _ _ _ (.ask _ _ _ (.ask _ _ _ (.done _))))
  have hlists : ∀ e ∈ threeListed, KernelLists 3 e := by
    simp only [threeListed, List.forall_mem_cons]
    refine ⟨trivial, ?_, trivial, ?_, fun e he => nomatch he⟩
    · exact ⟨[7, 8, 9], rfl, ⟨by decide, rfl⟩⟩
    · exact ⟨[7, 8, 9], rfl, ⟨by decide, rfl⟩⟩
  obtain ⟨out, hout, _, hdelivered⟩ := collectPids_complete.1 2 3 30
    threeListed _ (by decide) (by decide) (by decide) hruns hlists
  cases hout
  exact hdelivered

end Cosca.Ports.ListPids


