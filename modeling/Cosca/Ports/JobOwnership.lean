import Cosca.Ports.JobHandle

/-!
# Who owns a handle

The ownership behind `JobHandle`: while the lock holds the handle it is open
and nobody closes it, `take` hands it to one caller, and that caller is the
only one to use and close it from then on.  Duplicates and process handles
belong to the caller that opened them.

## Main results

* `take_took`, `plain_steps`, `opening_steps`, `closing_steps`,
  `terminating_steps`, `closing_job_steps`: what each kind of step keeps.
-/

namespace Cosca.Ports.JobOwnership

open Cosca.Ports.Errors
open Cosca.Ports.JobDrain
open Cosca.Ports.JobHandle
open Cosca.Verified.Interact

section

variable {C : Type} {job : Handle}

/-! ## The invariant -/

/-- How many calls of a kind were made. -/
def count (kind : JobCall → Bool) (k : Host C) : Nat :=
  (k.made.filter fun m => kind m.call).length

/-- The calls that may be made only once: closing the job's handle, and
terminating a job. -/
def closes (job : Handle) : JobCall → Bool
  | .closeHandle h => h == job
  | _ => false

def terminates : JobCall → Bool
  | .terminateJobObject .. => true
  | _ => false

abbrev closing (job : Handle) : JobCall := .closeHandle job
abbrev terminating (job : Handle) : JobCall := .terminateJobObject job 1

/-- The caller may use and close the handle. -/
def Owns (c : C) (h : Handle) (k : Host C) : Prop :=
  k.owner h.opened = .caller c ∧ k.IsOpen h

/-- What the owner of the job's handle says about its life. -/
def Life (job : Handle) (k : Host C) : Owner C → Prop
  | .jobHandle => k.raw = some job ∧ k.IsOpen job ∧ k.taker = none ∧
      count (closes job) k = 0 ∧ count terminates k = 0
  | .caller c => k.raw = none ∧ k.IsOpen job ∧ k.taker = some c ∧
      count (closes job) k = 0
  | .nobody => k.raw = none ∧ count (closes job) k = 1
  | .others => False

structure Inv (job : Handle) (k : Host C) : Prop where
  known : ∀ value i, k.table value = some i → i < k.opened
  unowned : ∀ i, k.opened ≤ i → k.owner i = .nobody
  job_known : job.opened < k.opened
  live : ∀ m ∈ k.made, m.live = true
  /-- Once the handle is taken, only the taker makes calls on it. -/
  taken : ∀ m ∈ k.made, m.taken = true → job ∈ m.call.handles →
    k.taker = some m.caller
  terminated : count terminates k ≤ 1
  life : Life job k (k.owner job.opened)

/-- What the steps of a caller, or of other code, leave alone for everybody
else. -/
structure Guar (job : Handle) (actor : Option C) (k k' : Host C) : Prop where
  consumed : k.raw = none → k'.raw = none
  owns : ∀ c h, some c ≠ actor → Owns c h k → Owns c h k'
  not_taker : ∀ c, some c ≠ actor → k.owner job.opened ≠ .caller c →
    k'.owner job.opened ≠ .caller c
  taker : ∀ c, some c ≠ actor → k.owner job.opened = .caller c →
    k'.owner job.opened = .caller c ∧
      count terminates k' = count terminates k

theorem Guar.refl (actor : Option C) (k : Host C) : Guar job actor k k where
  consumed := fun h => h
  owns := fun _ _ _ h => h
  not_taker := fun _ _ h => h
  taker := fun _ _ h => ⟨h, rfl⟩

theorem Guar.trans {actor : Option C} {k k' k'' : Host C}
    (h : Guar job actor k k') (h' : Guar job actor k' k'') :
    Guar job actor k k'' where
  consumed := fun hraw => h'.consumed (h.consumed hraw)
  owns := fun c x hne howns => h'.owns c x hne (h.owns c x hne howns)
  not_taker := fun c hne hnot => h'.not_taker c hne (h.not_taker c hne hnot)
  taker := by
    intro c hne howner
    have hfirst := h.taker c hne howner
    have hsecond := h'.taker c hne hfirst.1
    exact ⟨hsecond.1, hsecond.2.trans hfirst.2⟩

/-! ## Calls on open handles -/

/-- A call is made on open handles only, and on the job's own, once taken, by
its taker only. -/
structure Allowed (job : Handle) (c : C) (call : JobCall) (k : Host C) :
    Prop where
  live : ∀ h ∈ call.handles, k.IsOpen h
  taken : job ∈ call.handles → k.raw = none → k.owner job.opened = .caller c

theorem count_record (kind : JobCall → Bool) (k : Host C) (c : C)
    (call : JobCall) : count kind (k.record c call) =
      count kind k + (if kind call then 1 else 0) := by
  unfold count Host.record
  rw [List.filter_append, List.length_append]
  cases hkind : kind call with
  | false => simp [hkind]
  | true => simp [hkind]

theorem count_record_of_not {kind : JobCall → Bool} {k : Host C} {c : C}
    {call : JobCall} (hkind : kind call = false) :
    count kind (k.record c call) = count kind k := by
  simp [count_record, hkind]

theorem live_record {c : C} {call : JobCall} {k : Host C}
    (hinv : Inv job k) (hcall : ∀ h ∈ call.handles, k.IsOpen h) :
    ∀ m ∈ (k.record c call).made, m.live = true := by
  intro m hm
  cases List.mem_append.mp hm with
  | inl hm => exact hinv.live m hm
  | inr hm =>
      rw [List.mem_singleton.mp hm]
      simpa using hcall

theorem taken_record {c : C} {call : JobCall} {k : Host C}
    (hinv : Inv job k)
    (hcall : job ∈ call.handles → k.raw = none →
      k.owner job.opened = .caller c) :
    ∀ m ∈ (k.record c call).made, m.taken = true → job ∈ m.call.handles →
      k.taker = some m.caller := by
  intro m hm htaken hjob
  cases List.mem_append.mp hm with
  | inl hm => exact hinv.taken m hm htaken hjob
  | inr hm =>
      have hm := List.mem_singleton.mp hm
      rw [hm] at htaken hjob ⊢
      have hlife := hinv.life
      rw [hcall hjob (by simpa using htaken)] at hlife
      exact hlife.2.2.1

theorem Life.record {c : C} {call : JobCall} {k : Host C} {owner : Owner C}
    (hlife : Life job k owner) (hclose : closes job call = false)
    (hterminate : terminates call = true → owner ≠ .jobHandle) :
    Life job (k.record c call) owner := by
  have hcloses := count_record_of_not (k := k) (c := c) hclose
  cases owner with
  | jobHandle =>
      have hterminates : count terminates (k.record c call) =
          count terminates k :=
        count_record_of_not (by
          simpa using fun heq => hterminate heq rfl)
      exact ⟨hlife.1, hlife.2.1, hlife.2.2.1, hcloses.trans hlife.2.2.2.1,
        hterminates.trans hlife.2.2.2.2⟩
  | caller c' =>
      exact ⟨hlife.1, hlife.2.1, hlife.2.2.1, hcloses.trans hlife.2.2.2⟩
  | others => exact hlife
  | nobody => exact ⟨hlife.1, hcloses.trans hlife.2⟩

/-- Recording a call keeps the invariant, if the job is not terminated a second
time and its handle not closed. -/
theorem Inv.record {c : C} {call : JobCall} {k : Host C} (hinv : Inv job k)
    (hallowed : Allowed job c call k) (hclose : closes job call = false)
    (hterminate : terminates call = true →
      k.owner job.opened ≠ .jobHandle ∧ count terminates k = 0) :
    Inv job (k.record c call) where
  known := hinv.known
  unowned := hinv.unowned
  job_known := hinv.job_known
  live := live_record hinv hallowed.live
  taken := taken_record hinv hallowed.taken
  terminated := by
    cases hkind : terminates call with
    | true =>
        rw [count_record, (hterminate hkind).2, hkind]
        exact Nat.le_refl 1
    | false =>
        rw [count_record_of_not hkind]
        exact hinv.terminated
  life := hinv.life.record hclose fun heq => (hterminate heq).1

theorem Guar.record {c : C} {call : JobCall} {k : Host C}
    (hterminate : terminates call = true →
      k.owner job.opened = .caller c) :
    Guar job (some c) k (k.record c call) where
  consumed := fun h => h
  owns := fun _ _ _ h => h
  not_taker := fun _ _ h => h
  taker := by
    intro c' hne howner
    refine ⟨howner, count_record_of_not ?_⟩
    cases hkind : terminates call with
    | false => rfl
    | true =>
        rw [hterminate hkind] at howner
        exact absurd (congrArg some (Owner.caller.inj howner).symm) hne

/-! ## Opening -/

theorem isOpen_open {k : Host C} {h : Handle} {value : Nat} {owner : Owner C}
    (hopen : k.IsOpen h) (hfree : k.table value = none) :
    (k.open value owner).IsOpen h := by
  have hne : h.value ≠ value := by
    intro heq
    rw [← heq, show k.table h.value = some h.opened from hopen] at hfree
    cases hfree
  show (if h.value = value then some k.opened else k.table h.value) = _
  rw [if_neg hne]
  exact hopen

theorem owner_open {k : Host C} {i value : Nat} {owner : Owner C}
    (hi : i < k.opened) : (k.open value owner).owner i = k.owner i := by
  show (if i = k.opened then owner else k.owner i) = _
  rw [if_neg (by omega)]

theorem Life.open {k : Host C} {value : Nat} {owner o : Owner C}
    (hlife : Life job k o) (hfree : k.table value = none) :
    Life job (k.open value owner) o := by
  cases o with
  | jobHandle => exact ⟨hlife.1, isOpen_open hlife.2.1 hfree, hlife.2.2⟩
  | caller c => exact ⟨hlife.1, isOpen_open hlife.2.1 hfree, hlife.2.2⟩
  | others => exact hlife
  | nobody => exact hlife

theorem Inv.open {k : Host C} {value : Nat} {owner : Owner C}
    (hinv : Inv job k) (hfree : k.table value = none) :
    Inv job (k.open value owner) where
  known := by
    intro v i hi
    show i < k.opened + 1
    by_cases heq : v = value
    · have hi : (if v = value then some k.opened else k.table v) = some i := hi
      rw [if_pos heq] at hi
      have := Option.some.inj hi
      omega
    · have hi : (if v = value then some k.opened else k.table v) = some i := hi
      rw [if_neg heq] at hi
      have := hinv.known v i hi
      omega
  unowned := by
    intro i hi
    have hi : k.opened + 1 ≤ i := hi
    show (if i = k.opened then owner else k.owner i) = _
    rw [if_neg (by omega)]
    exact hinv.unowned i (by omega)
  job_known := Nat.lt_succ_of_lt hinv.job_known
  live := hinv.live
  taken := hinv.taken
  terminated := hinv.terminated
  life := by
    rw [owner_open hinv.job_known]
    exact hinv.life.open hfree

/-- Whoever is owned was opened before. -/
theorem Inv.opened_lt {k : Host C} (hinv : Inv job k) {i : Nat}
    (howner : k.owner i ≠ .nobody) : i < k.opened := by
  by_cases hlt : i < k.opened
  · exact hlt
  · exact absurd (hinv.unowned i (by omega)) howner

theorem Guar.open {actor : Option C} {k : Host C} {value : Nat}
    {owner : Owner C} (hinv : Inv job k) (hfree : k.table value = none) :
    Guar job actor k (k.open value owner) where
  consumed := fun h => h
  owns := by
    intro c h _ howns
    have hlt : h.opened < k.opened := by
      apply hinv.opened_lt
      rw [howns.1]
      exact nofun
    exact ⟨(owner_open hlt).trans howns.1, isOpen_open howns.2 hfree⟩
  not_taker := by
    intro c _ hnot
    rw [owner_open hinv.job_known]
    exact hnot
  taker := by
    intro c _ howner
    exact ⟨(owner_open hinv.job_known).trans howner, rfl⟩

/-! ## Closing -/

theorem isOpen_close {k : Host C} {h h' : Handle} (hopen : k.IsOpen h)
    (hopen' : k.IsOpen h') (hne : h'.opened ≠ h.opened) :
    (k.close h.value).IsOpen h' := by
  have hvalue : h'.value ≠ h.value := by
    intro heq
    have hsame : k.table h'.value = some h'.opened := hopen'
    rw [heq, show k.table h.value = some h.opened from hopen] at hsame
    exact hne (Option.some.inj hsame).symm
  show (if h'.value = h.value then none else k.table h'.value) = _
  rw [if_neg hvalue]
  exact hopen'

theorem owner_giveUp {k : Host C} {h : Handle} {i : Nat}
    (hne : i ≠ h.opened) : (k.giveUp h).owner i = k.owner i := by
  show (if i = h.opened then Owner.nobody else k.owner i) = _
  rw [if_neg hne]

theorem owner_giveUp_self (k : Host C) (h : Handle) :
    (k.giveUp h).owner h.opened = .nobody := by
  show (if h.opened = h.opened then Owner.nobody else _) = _
  rw [if_pos rfl]

theorem Life.close {k : Host C} {h : Handle} {o : Owner C}
    (hlife : Life job k o) (hopen : k.IsOpen h)
    (hne : job.opened ≠ h.opened) : Life job (k.close h.value) o := by
  cases o with
  | jobHandle => exact ⟨hlife.1, isOpen_close hopen hlife.2.1 hne, hlife.2.2⟩
  | caller c => exact ⟨hlife.1, isOpen_close hopen hlife.2.1 hne, hlife.2.2⟩
  | others => exact hlife
  | nobody => exact hlife

theorem known_close {k : Host C} (hinv : Inv job k) (value : Nat) :
    ∀ v i, (k.close value).table v = some i → i < k.opened := by
  intro v i hi
  have hi : (if v = value then none else k.table v) = some i := hi
  by_cases heq : v = value
  · rw [if_pos heq] at hi
    cases hi
  · rw [if_neg heq] at hi
    exact hinv.known v i hi

/-- A handle other than the job's is closed. -/
theorem Inv.close {k : Host C} {h : Handle} (hinv : Inv job k)
    (hopen : k.IsOpen h) (hne : job.opened ≠ h.opened) :
    Inv job (k.close h.value) where
  known := known_close hinv h.value
  unowned := hinv.unowned
  job_known := hinv.job_known
  live := hinv.live
  taken := hinv.taken
  terminated := hinv.terminated
  life := hinv.life.close hopen hne

theorem unowned_giveUp {k : Host C} (hinv : Inv job k) (h : Handle) :
    ∀ i, k.opened ≤ i → (k.giveUp h).owner i = .nobody := by
  intro i hi
  by_cases heq : i = h.opened
  · rw [heq]
    exact owner_giveUp_self k h
  · rw [owner_giveUp heq]
    exact hinv.unowned i hi

theorem Inv.giveUp {k : Host C} {h : Handle} (hinv : Inv job k)
    (hne : job.opened ≠ h.opened) : Inv job (k.giveUp h) where
  known := hinv.known
  unowned := unowned_giveUp hinv h
  job_known := hinv.job_known
  live := hinv.live
  taken := hinv.taken
  terminated := hinv.terminated
  life := by
    rw [owner_giveUp hne]
    exact hinv.life

theorem Guar.close {c : C} {k : Host C} {h : Handle} (howns : Owns c h k) :
    Guar job (some c) k (k.close h.value) where
  consumed := fun hraw => hraw
  owns := by
    intro c' h' hne howns'
    refine ⟨howns'.1, isOpen_close howns.2 howns'.2 ?_⟩
    intro heq
    have howner := howns.1
    rw [← heq, howns'.1] at howner
    exact hne (congrArg some (Owner.caller.inj howner))
  not_taker := fun _ _ hnot => hnot
  taker := fun _ _ howner => ⟨howner, rfl⟩

theorem Guar.giveUp {c : C} {k : Host C} {h : Handle}
    (howner : k.owner h.opened = .caller c) :
    Guar job (some c) k (k.giveUp h) where
  consumed := fun hraw => hraw
  owns := by
    intro c' h' hne howns'
    refine ⟨(owner_giveUp ?_).trans howns'.1, howns'.2⟩
    intro heq
    rw [← heq, howns'.1] at howner
    exact hne (congrArg some (Owner.caller.inj howner))
  not_taker := by
    intro c' hne hnot
    by_cases heq : job.opened = h.opened
    · rw [heq, owner_giveUp_self]
      exact nofun
    · rw [owner_giveUp heq]
      exact hnot
  taker := by
    intro c' hne howner'
    refine ⟨(owner_giveUp ?_).trans howner', rfl⟩
    intro heq
    rw [heq, howner] at howner'
    exact hne (congrArg some (Owner.caller.inj howner').symm)

/-! ## Other code of the process -/

theorem Inv.moves {k k' : Host C} (hinv : Inv job k)
    (hmove : Host.Moves k k') : Inv job k' ∧ Guar job none k k' := by
  cases hmove with
  | «open» value hfree => exact ⟨hinv.open hfree, .open hinv hfree⟩
  | close value i hopen howner =>
      have hother : k.IsOpen ⟨value, i⟩ := hopen
      have hne : job.opened ≠ i := by
        intro heq
        have hlife := hinv.life
        rw [heq, howner] at hlife
        exact hlife
      refine ⟨hinv.close hother hne, ?_⟩
      refine
        { consumed := fun hraw => hraw
          owns := ?_
          not_taker := fun _ _ hnot => hnot
          taker := fun _ _ howner => ⟨howner, rfl⟩ }
      intro c h _ howns
      refine ⟨howns.1, isOpen_close hother howns.2 ?_⟩
      intro heq
      have howner' := howns.1
      rw [heq, show (⟨value, i⟩ : Handle).opened = i from rfl,
        howner] at howner'
      cases howner'

/-! ## The lock -/

/-- While the lock holds a handle, it is the job's, and open. -/
theorem Inv.raw_some {k : Host C} {h : Handle} (hinv : Inv job k)
    (hraw : k.raw = some h) :
    h = job ∧ k.IsOpen job ∧ k.owner job.opened = .jobHandle := by
  have hlife := hinv.life
  cases howner : k.owner job.opened with
  | jobHandle =>
      rw [howner] at hlife
      rw [hlife.1] at hraw
      exact ⟨(Option.some.inj hraw).symm, hlife.2.1, rfl⟩
  | caller c =>
      rw [howner] at hlife
      rw [hlife.1] at hraw
      cases hraw
  | others =>
      rw [howner] at hlife
      exact hlife.elim
  | nobody =>
      rw [howner] at hlife
      rw [hlife.1] at hraw
      cases hraw

theorem owner_handOver {k : Host C} {c : C} {i : Nat}
    (hne : i ≠ job.opened) : (k.handOver c job).owner i = k.owner i := by
  show (if i = job.opened then Owner.caller c else k.owner i) = _
  rw [if_neg hne]

theorem owner_handOver_job (k : Host C) (c : C) :
    (k.handOver c job).owner job.opened = .caller c := by
  show (if job.opened = job.opened then Owner.caller c else _) = _
  rw [if_pos rfl]

theorem Inv.handOver {k : Host C} (hinv : Inv job k) (c : C)
    (howner : k.owner job.opened = .jobHandle) :
    Inv job (k.handOver c job) := by
  have hlife := hinv.life
  rw [howner] at hlife
  refine
    { known := hinv.known
      unowned := ?_
      job_known := hinv.job_known
      live := hinv.live
      taken := ?_
      terminated := hinv.terminated
      life := ?_ }
  · intro i hi
    have hi : k.opened ≤ i := hi
    have hjob := hinv.job_known
    rw [owner_handOver (by omega)]
    exact hinv.unowned i hi
  · intro m hm htaken hmem
    -- nothing was taken before
    have hnever := hinv.taken m hm htaken hmem
    rw [hlife.2.2.1] at hnever
    cases hnever
  · rw [owner_handOver_job]
    exact ⟨rfl, hlife.2.1, rfl, hlife.2.2.2.1⟩

theorem Guar.handOver {k : Host C} {c : C}
    (howner : k.owner job.opened = .jobHandle) :
    Guar job (some c) k (k.handOver c job) where
  consumed := fun _ => rfl
  owns := by
    intro c' h hne howns
    refine ⟨(owner_handOver ?_).trans howns.1, howns.2⟩
    intro heq
    rw [← heq, howns.1] at howner
    cases howner
  not_taker := by
    intro c' hne hnot
    rw [owner_handOver_job]
    intro heq
    exact hne (congrArg some (Owner.caller.inj heq).symm)
  taker := by
    intro c' hne howner'
    rw [howner] at howner'
    cases howner'

/-- What `take` leaves the caller with. -/
def Took (job : Handle) (c : C) (answer : Option Handle) (k : Host C) : Prop :=
  k.raw = none ∧
    match answer with
    | none => k.owner job.opened ≠ .caller c
    | some h => h = job ∧ Owns c job k ∧ count terminates k = 0

/-- A caller finds the lock empty, or takes the handle and owns it. -/
theorem take_took {c : C} {k k' : Host C} {answer : Option Handle}
    (htake : k.take c answer k') (hinv : Inv job k)
    (hnot : k.owner job.opened ≠ .caller c) :
    Inv job k' ∧ Guar job (some c) k k' ∧ Took job c answer k' ∧
      (k.raw = none → answer = none) := by
  unfold Host.take at htake
  cases hraw : k.raw with
  | none =>
      rw [hraw] at htake
      obtain ⟨hanswer, hsame⟩ := htake
      rw [hanswer, hsame]
      exact ⟨hinv, .refl _ k, ⟨hraw, hnot⟩, fun _ => rfl⟩
  | some h =>
      obtain ⟨hjob, hopen, howner⟩ := hinv.raw_some hraw
      rw [hraw, hjob] at htake
      obtain ⟨hanswer, hnext⟩ := htake
      have hlife := hinv.life
      rw [howner] at hlife
      rw [hanswer, hnext]
      refine ⟨hinv.handOver c howner, .handOver howner, ?_, by simp⟩
      exact ⟨rfl, rfl, ⟨owner_handOver_job k c, hopen⟩, hlife.2.2.2.2⟩

/-! ## A caller's own handles -/

/-- The caller owns these handles, all different, and not the job's. -/
structure Holding (job : Handle) (c : C) (hs : List Handle) (k : Host C) :
    Prop where
  owns : ∀ h ∈ hs, Owns c h k
  distinct : hs.Pairwise fun h h' => h.opened ≠ h'.opened
  not_taker : k.owner job.opened ≠ .caller c

variable {c : C} {hs : List Handle} {k : Host C}

theorem Holding.ne_job (hheld : Holding job c hs k) {h : Handle}
    (hh : h ∈ hs) : job.opened ≠ h.opened := by
  intro heq
  apply hheld.not_taker
  rw [heq]
  exact (hheld.owns h hh).1

theorem Holding.perm {hs' : List Handle} (hheld : Holding job c hs k)
    (hperm : hs.Perm hs') : Holding job c hs' k where
  owns := fun h hh => hheld.owns h (hperm.mem_iff.mpr hh)
  distinct := (hperm.pairwise_iff fun hne => hne.symm).mp hheld.distinct
  not_taker := hheld.not_taker

theorem Holding.keep {actor : Option C} {k' : Host C}
    (hheld : Holding job c hs k) (hguar : Guar job actor k k')
    (hne : some c ≠ actor) : Holding job c hs k' where
  owns := fun h hh => hguar.owns c h hne (hheld.owns h hh)
  distinct := hheld.distinct
  not_taker := hguar.not_taker c hne hheld.not_taker

/-- A caller may make any call on its own handles. -/
theorem Holding.allowed (hheld : Holding job c hs k) {call : JobCall}
    (hhandles : ∀ h ∈ call.handles, h ∈ hs) : Allowed job c call k where
  live := fun h hh => (hheld.owns h (hhandles h hh)).2
  taken := fun hjob _ => (hheld.owns job (hhandles job hjob)).1

/-- The calls that neither open nor close a handle, nor terminate the job. -/
def isPlain : JobCall → Bool
  | .setInformationJobObject .. | .isProcessInJob .. | .queryProcessIds ..
  | .waitForMultipleObjects .. | .cancelState | .lastError | .now => true
  | .duplicateHandle _ | .terminateJobObject .. | .closeHandle _
  | .openProcess .. => false

/-- What a step of a caller has to establish. -/
def Steps (job : Handle) (c : C) (k k' : Host C) (post : Host C → Prop) :
    Prop :=
  Inv job k' ∧ Guar job (some c) k k' ∧ post k'

theorem Holding.record (hheld : Holding job c hs k) (call : JobCall) :
    Holding job c hs (k.record c call) :=
  ⟨hheld.owns, hheld.distinct, hheld.not_taker⟩

theorem record_steps (hinv : Inv job k) (hheld : Holding job c hs k)
    {call : JobCall} (hallowed : Allowed job c call k)
    (hclose : closes job call = false)
    (hterminate : terminates call = false) :
    Steps job c k (k.record c call) (Holding job c hs) :=
  ⟨hinv.record hallowed hclose fun h => by simp [hterminate] at h,
    .record fun h => by simp [hterminate] at h, hheld.record call⟩

theorem answers_plain {call : JobCall} (hplain : isPlain call = true)
    {reply : call.Reply} {k' : Host C} (h : k.answers c call reply k') :
    k' = k.record c call := by
  cases call with
  | duplicateHandle _ => cases hplain
  | terminateJobObject _ _ => cases hplain
  | closeHandle _ => cases hplain
  | openProcess _ _ => cases hplain
  | _ => exact h

theorem plain_steps {call : JobCall} (hplain : isPlain call = true)
    {reply : call.Reply} {k' : Host C} (h : k.answers c call reply k')
    (hinv : Inv job k) (hheld : Holding job c hs k)
    (hallowed : Allowed job c call k) :
    Steps job c k k' (Holding job c hs) := by
  rw [answers_plain hplain h]
  have hkinds : closes job call = false ∧ terminates call = false := by
    cases call with
    | terminateJobObject _ _ => cases hplain
    | closeHandle _ => cases hplain
    | _ => exact ⟨rfl, rfl⟩
  exact record_steps hinv hheld hallowed hkinds.1 hkinds.2

/-- What a call leaves behind that may open a handle. -/
def Opened (job : Handle) (c : C) (hs : List Handle)
    (opened : Except StartToken.HResult Handle) (k : Host C) : Prop :=
  match opened with
  | .ok h => Holding job c (h :: hs) k
  | .error _ => Holding job c hs k

/-- The caller owns the handle it opens. -/
theorem Holding.open (hinv : Inv job k) (hheld : Holding job c hs k)
    {value : Nat} (hfree : k.table value = none) :
    Holding job c (k.fresh value :: hs) (k.open value (.caller c)) := by
  have hlt : ∀ h ∈ hs, h.opened < k.opened := by
    intro h hh
    apply hinv.opened_lt
    rw [(hheld.owns h hh).1]
    exact nofun
  refine ⟨?_, ?_, ?_⟩
  · intro h hh
    cases List.mem_cons.mp hh with
    | inl heq =>
        rw [heq]
        exact ⟨if_pos rfl, if_pos rfl⟩
    | inr hmem =>
        have howns := hheld.owns h hmem
        exact ⟨(owner_open (hlt h hmem)).trans howns.1,
          isOpen_open howns.2 hfree⟩
  · apply List.Pairwise.cons _ hheld.distinct
    intro h hh
    exact (Nat.ne_of_lt (hlt h hh)).symm
  · rw [owner_open hinv.job_known]
    exact hheld.not_taker

theorem opening_steps {call : JobCall}
    {opened : Except StartToken.HResult Handle} {k' : Host C}
    (h : match opened with
      | .ok h => k.table h.value = none ∧ h = k.fresh h.value ∧
          k' = (k.record c call).open h.value (.caller c)
      | .error _ => k' = k.record c call)
    (hinv : Inv job k) (hheld : Holding job c hs k)
    (hallowed : Allowed job c call k) (hclose : closes job call = false)
    (hterminate : terminates call = false) :
    Steps job c k k' (Opened job c hs opened) := by
  obtain ⟨hinv', hguar, hheld'⟩ :=
    record_steps hinv hheld hallowed hclose hterminate
  cases opened with
  | ok opened =>
      obtain ⟨hfree, hfresh, hnext⟩ := h
      rw [hnext, hfresh]
      exact ⟨hinv'.open hfree, hguar.trans (.open hinv' hfree),
        hheld'.open hinv' hfree⟩
  | error e =>
      have hnext : k' = k.record c call := h
      rw [hnext]
      exact ⟨hinv', hguar, hheld'⟩

/-- What the caller keeps when it gives a handle up. -/
theorem Holding.giveUp {h : Handle} (hheld : Holding job c (h :: hs) k) :
    Holding job c hs (k.giveUp h) where
  owns := by
    intro h' hh'
    have hne := List.rel_of_pairwise_cons hheld.distinct hh'
    have howns := hheld.owns h' (List.mem_cons_of_mem _ hh')
    exact ⟨(owner_giveUp hne.symm).trans howns.1, howns.2⟩
  distinct := hheld.distinct.of_cons
  not_taker := by
    rw [owner_giveUp (hheld.ne_job List.mem_cons_self)]
    exact hheld.not_taker

/-- What the caller keeps when it closes a handle and gives it up. -/
theorem Holding.close {h : Handle} (hheld : Holding job c (h :: hs) k) :
    Holding job c hs ((k.close h.value).giveUp h) where
  owns := by
    intro h' hh'
    have hne := List.rel_of_pairwise_cons hheld.distinct hh'
    have hopen := (hheld.owns h List.mem_cons_self).2
    have howns := hheld.giveUp.owns h' hh'
    exact ⟨howns.1, isOpen_close hopen howns.2 hne.symm⟩
  distinct := hheld.distinct.of_cons
  not_taker := hheld.giveUp.not_taker

/-- The caller closes one of its handles. -/
theorem closing_steps {h : Handle} {reply : Except StartToken.HResult Unit}
    {k' : Host C} (hanswer : k.answers c (.closeHandle h) reply k')
    (hinv : Inv job k) (hheld : Holding job c (h :: hs) k) :
    Steps job c k k' (Holding job c hs) := by
  have hne := hheld.ne_job List.mem_cons_self
  have howns := hheld.owns h List.mem_cons_self
  have hallowed : Allowed job c (.closeHandle h) k := by
    apply hheld.allowed
    intro h' hh'
    rw [List.mem_singleton.mp hh']
    exact List.mem_cons_self
  have hclose : closes job (.closeHandle h) = false := by
    apply beq_false_of_ne
    intro heq
    exact hne (congrArg Handle.opened heq.symm)
  obtain ⟨hinv', hguar, hheld'⟩ :=
    record_steps hinv hheld hallowed hclose rfl
  cases reply with
  | ok u =>
      have hnext : k' =
          ((k.record c (.closeHandle h)).close h.value).giveUp h := hanswer
      rw [hnext]
      refine ⟨(hinv'.close howns.2 hne).giveUp hne, ?_, hheld'.close⟩
      exact hguar.trans (Guar.trans (.close howns) (.giveUp howns.1))
  | error e =>
      have hnext : k' = (k.record c (.closeHandle h)).giveUp h := hanswer
      rw [hnext]
      exact ⟨hinv'.giveUp hne, hguar.trans (.giveUp howns.1), hheld'.giveUp⟩

/-! ## The taker -/

/-- The taker of the job's handle before its last call. -/
def Taken (job : Handle) (c : C) (k : Host C) : Prop :=
  Owns c job k ∧ count terminates k = 0

theorem Owns.allowed {call : JobCall} (howns : Owns c job k)
    (hhandles : ∀ h ∈ call.handles, h = job) : Allowed job c call k where
  live := fun h hh => (hhandles h hh) ▸ howns.2
  taken := fun _ _ => howns.1

theorem terminating_steps {reply : Except StartToken.HResult Unit}
    {k' : Host C} (hanswer : k.answers c (terminating job) reply k')
    (hinv : Inv job k) (htaken : Taken job c k) :
    Steps job c k k' (Owns c job) := by
  have hnext : k' = k.record c (terminating job) := hanswer
  have hallowed : Allowed job c (terminating job) k :=
    htaken.1.allowed fun h hh => List.mem_singleton.mp hh
  rw [hnext]
  refine ⟨?_, .record fun _ => htaken.1.1, htaken.1⟩
  apply hinv.record hallowed rfl
  intro _
  refine ⟨?_, htaken.2⟩
  rw [htaken.1.1]
  exact nofun

/-- The end of the job's handle: the close is recorded, and nobody owns it. -/
theorem Inv.ended {k₁ : Host C} (hinv : Inv job k) (howns : Owns c job k)
    (hraw : k₁.raw = k.raw) (hopened : k₁.opened = k.opened)
    (howner : k₁.owner = k.owner) (htaker : k₁.taker = k.taker)
    (hmade : k₁.made = (k.record c (closing job)).made)
    (hknown : ∀ value i, k₁.table value = some i → i < k.opened) :
    Inv job (k₁.giveUp job) := by
  have hlife := hinv.life
  rw [howns.1] at hlife
  have hallowed : Allowed job c (closing job) k :=
    howns.allowed fun h hh => List.mem_singleton.mp hh
  have hcount : ∀ kind, count kind (k₁.giveUp job) =
      count kind (k.record c (closing job)) := by
    intro kind
    unfold count
    rw [show (k₁.giveUp job).made = k₁.made from rfl, hmade]
  refine
    { known := ?_
      unowned := ?_
      job_known := ?_
      live := ?_
      taken := ?_
      terminated := ?_
      life := ?_ }
  · intro value i hi
    rw [show (k₁.giveUp job).opened = k₁.opened from rfl, hopened]
    exact hknown value i hi
  · intro i hi
    rw [show (k₁.giveUp job).opened = k₁.opened from rfl, hopened] at hi
    by_cases heq : i = job.opened
    · rw [heq]
      exact owner_giveUp_self k₁ job
    · rw [owner_giveUp heq, howner]
      exact hinv.unowned i hi
  · rw [show (k₁.giveUp job).opened = k₁.opened from rfl, hopened]
    exact hinv.job_known
  · rw [show (k₁.giveUp job).made = k₁.made from rfl, hmade]
    exact live_record hinv hallowed.live
  · rw [show (k₁.giveUp job).made = k₁.made from rfl, hmade,
      show (k₁.giveUp job).taker = k₁.taker from rfl, htaker]
    exact taken_record hinv hallowed.taken
  · rw [hcount, count_record_of_not rfl]
    exact hinv.terminated
  · rw [owner_giveUp_self]
    refine ⟨hraw.trans hlife.1, ?_⟩
    rw [hcount, count_record, hlife.2.2.2]
    simp [closes]

/-- The taker closes the job's handle. -/
theorem closing_job_steps {reply : Except StartToken.HResult Unit}
    {k' : Host C} (hanswer : k.answers c (closing job) reply k')
    (hinv : Inv job k) (howns : Owns c job k) :
    Steps job c k k' fun k' => k'.owner job.opened ≠ .caller c := by
  have hguar : Guar job (some c) k (k.record c (closing job)) :=
    .record (by simp [terminates])
  have hgone : ∀ k₁ : Host C,
      (k₁.giveUp job).owner job.opened ≠ .caller c := by
    intro k₁
    rw [owner_giveUp_self]
    exact nofun
  cases reply with
  | ok u =>
      have hnext : k' =
          ((k.record c (closing job)).close job.value).giveUp job := hanswer
      rw [hnext]
      refine ⟨?_, ?_, hgone _⟩
      · exact hinv.ended howns rfl rfl rfl rfl rfl (known_close hinv job.value)
      · exact hguar.trans (Guar.trans (.close howns) (.giveUp howns.1))
  | error e =>
      have hnext : k' = (k.record c (closing job)).giveUp job := hanswer
      rw [hnext]
      refine ⟨?_, hguar.trans (.giveUp howns.1), hgone _⟩
      exact hinv.ended howns rfl rfl rfl rfl rfl hinv.known

end

end Cosca.Ports.JobOwnership
