import Cosca.Ports.Identity

/-!
# The tree walk

`containment/treewalk.rs`: the walk down the parent links of a snapshot, which
keeps a process whose start token orders after the root's.  Resolution is
memoized, so an identity is asked for once per pid.

## Main results

* `mem_descendantsWith_iff`: what the walk returns, as reachability.
-/

namespace Cosca.Ports.TreeWalk

open Cosca.Ports.Identity

/-- A line of the snapshot: a pid and its parent's pid. -/
abbrev Edge := RawPid × RawPid

/-- `keeps_token`. -/
def keepsToken (token anchor : UInt64) (allowEqual : Bool) : Bool :=
  anchor < token || (allowEqual && token == anchor)

/-! ## The walk -/

/-- The memo of the identities resolved so far. -/
abbrev Memo := List (RawPid × Option ProcessId)

/-- `resolved.entry(pid).or_insert_with(|| resolve(pid))`. -/
def Memo.resolve (resolve : RawPid → Option ProcessId) (pid : RawPid)
    (memo : Memo) : Option ProcessId × Memo :=
  match memo.lookup pid with
  | some id => (id, memo)
  | none => (resolve pid, memo ++ [(pid, resolve pid)])

/-- The variables of `descendants_with`.  Between rounds `next` is the
frontier and `stillPending` the pending edges. -/
structure Walk where
  result : List ProcessId
  next : List RawPid
  stillPending : List Edge
  accepted : List RawPid
  resolved : Memo
  deriving DecidableEq, Repr

section

variable (root : ProcessId) (allowEqual : Bool)
variable (resolve : RawPid → Option ProcessId)

/-- The body of the loop over the pending edges. -/
def Walk.visit (frontier : List RawPid) (w : Walk) (edge : Edge) : Walk :=
  let (pid, ppid) := edge
  if !frontier.contains ppid then
    { w with stillPending := w.stillPending ++ [(pid, ppid)] }
  else if pid == ppid then w
  else
    let (id, resolved) := w.resolved.resolve resolve pid
    let w := { w with resolved := resolved }
    match id with
    | none => w
    | some id =>
        if !keepsToken id.start root.start allowEqual then w
        else if w.accepted.contains pid then w
        else
          { w with
            accepted := w.accepted ++ [pid]
            result := w.result ++ [id]
            next := w.next ++ [pid] }

/-- One round of the walk. -/
def Walk.round (w : Walk) : Walk :=
  w.stillPending.foldl (Walk.visit root allowEqual resolve w.next)
    { w with next := [], stillPending := [] }

/-- `while !frontier.is_empty()`. -/
def Walk.rounds : Nat → Walk → Walk
  | 0, w => w
  | fuel + 1, w =>
      if w.next.isEmpty then w
      else Walk.rounds fuel (w.round root allowEqual resolve)

/-- The walk before its first round. -/
def Walk.start (parents : List Edge) : Walk where
  result := []
  next := [root.pid]
  stillPending := parents
  accepted := []
  resolved := []

/-- `descendants_with`.  A round that accepts a pid uses up an edge, so the
fuel is enough (`walk_next`). -/
def descendantsWith (parents : List Edge) : List ProcessId :=
  (Walk.rounds root allowEqual resolve (parents.length + 1)
    (Walk.start root parents)).result

end

/-- `resolve_or_drop`. -/
def resolveOrDrop (start : RawPid → Resolved UInt64) (pid : RawPid) :
    Option ProcessId :=
  match ProcessId.of pid (start pid) with
  | .found id => some id
  | .gone | .unknown => none

/-- `KillOutcome`. -/
inductive KillOutcome where
  | terminated
  | alreadyGone
  | notAttempted
  deriving DecidableEq, Repr

/-- The loop of `children_of_with`: the pids seen and the identities kept. -/
def childrenVisit (parent : ProcessId) (allowEqual : Bool)
    (resolve : RawPid → Option ProcessId)
    (acc : List RawPid × List ProcessId) (edge : Edge) :
    List RawPid × List ProcessId :=
  let (pid, ppid) := edge
  if ppid != parent.pid || pid == ppid then acc
  else
    match resolve pid with
    | none => acc
    | some id =>
        if !keepsToken id.start parent.start allowEqual then acc
        else if acc.1.contains pid then acc
        else (acc.1 ++ [pid], acc.2 ++ [id])

/-- `children_of_with`. -/
def childrenOfWith (parent : ProcessId) (parents : List Edge)
    (allowEqual : Bool) (resolve : RawPid → Option ProcessId) :
    List ProcessId :=
  (parents.foldl (childrenVisit parent allowEqual resolve) ([], [])).2

/-! ## What a visit does -/

section

variable {root : ProcessId} {allowEqual : Bool}
variable {resolve : RawPid → Option ProcessId} {parents : List Edge}

/-- The pid resolves to an identity the filter keeps. -/
def Takes (root : ProcessId) (allowEqual : Bool)
    (resolve : RawPid → Option ProcessId) (pid : RawPid) : Prop :=
  ∃ id, resolve pid = some id ∧
    keepsToken id.start root.start allowEqual = true

/-- The memo holds answers of `resolve`. -/
def Memo.Faithful (resolve : RawPid → Option ProcessId) (memo : Memo) : Prop :=
  ∀ pid id, memo.lookup pid = some id → id = resolve pid

theorem Memo.resolve_spec {memo : Memo} (h : memo.Faithful resolve)
    (pid : RawPid) :
    (memo.resolve resolve pid).1 = resolve pid ∧
      (memo.resolve resolve pid).2.Faithful resolve := by
  unfold Memo.resolve
  cases hlook : memo.lookup pid with
  | some id => exact ⟨h pid id hlook, h⟩
  | none =>
      constructor
      · rfl
      · intro p id hp
        rw [List.lookup_append] at hp
        cases hmemo : memo.lookup p with
        | some id' =>
            rw [hmemo] at hp
            cases hp
            exact h p id hmemo
        | none =>
            rw [hmemo] at hp
            by_cases hpid : p = pid
            · subst hpid
              simp at hp
              exact hp.symm
            · simp [List.lookup_cons, beq_eq_false_iff_ne.mpr hpid] at hp

/-- A visit sets the edge aside, or drops it, or accepts its pid. -/
inductive Visited (root : ProcessId) (allowEqual : Bool)
    (resolve : RawPid → Option ProcessId) (frontier : List RawPid)
    (w w' : Walk) (pid ppid : RawPid) : Prop where
  | aside (hppid : ppid ∉ frontier)
      (hpending : w'.stillPending = w.stillPending ++ [(pid, ppid)])
      (hrest : w'.result = w.result ∧ w'.next = w.next ∧
        w'.accepted = w.accepted)
  | dropped (hppid : ppid ∈ frontier)
      (hpid : pid = ppid ∨ ¬ Takes root allowEqual resolve pid ∨
        pid ∈ w.accepted)
      (hrest : w'.stillPending = w.stillPending ∧ w'.result = w.result ∧
        w'.next = w.next ∧ w'.accepted = w.accepted)
  | accepted (id : ProcessId) (hppid : ppid ∈ frontier) (hpid : pid ≠ ppid)
      (hid : resolve pid = some id)
      (hkeep : keepsToken id.start root.start allowEqual = true)
      (hrest : w'.stillPending = w.stillPending ∧
        w'.result = w.result ++ [id] ∧ w'.next = w.next ++ [pid] ∧
        w'.accepted = w.accepted ++ [pid])

/-- One visit, and the memo it leaves. -/
theorem Walk.visit_cases (root : ProcessId) (allowEqual : Bool) {w : Walk}
    (h : w.resolved.Faithful resolve) (frontier : List RawPid)
    (pid ppid : RawPid) :
    Visited root allowEqual resolve frontier w
        (w.visit root allowEqual resolve frontier (pid, ppid)) pid ppid ∧
      (w.visit root allowEqual resolve frontier
        (pid, ppid)).resolved.Faithful resolve := by
  obtain ⟨hid, hmemo⟩ := Memo.resolve_spec h pid
  unfold Walk.visit
  dsimp only
  by_cases hfrontier : ppid ∈ frontier
  · rw [if_neg (by simp [hfrontier])]
    by_cases hself : pid = ppid
    · rw [if_pos (by simpa using hself)]
      exact ⟨.dropped hfrontier (.inl hself) ⟨rfl, rfl, rfl, rfl⟩, h⟩
    · rw [if_neg (by simpa using hself), hid]
      cases hres : resolve pid with
      | none =>
          have hnot : ¬ Takes root allowEqual resolve pid := by
            rintro ⟨id, hsome, _⟩
            rw [hres] at hsome
            cases hsome
          exact ⟨.dropped hfrontier (.inr (.inl hnot)) ⟨rfl, rfl, rfl, rfl⟩,
            hmemo⟩
      | some id =>
          dsimp only
          by_cases hkeep : keepsToken id.start root.start allowEqual = true
          · rw [if_neg (by simp [hkeep])]
            by_cases hacc : pid ∈ w.accepted
            · rw [if_pos (by simpa using hacc)]
              exact ⟨.dropped hfrontier (.inr (.inr hacc))
                ⟨rfl, rfl, rfl, rfl⟩, hmemo⟩
            · rw [if_neg (by simpa using hacc)]
              exact ⟨.accepted id hfrontier hself hres hkeep
                ⟨rfl, rfl, rfl, rfl⟩, hmemo⟩
          · rw [if_pos (by simp [hkeep])]
            have hnot : ¬ Takes root allowEqual resolve pid := by
              rintro ⟨id', hsome, hkeep'⟩
              rw [hres] at hsome
              cases hsome
              exact hkeep hkeep'
            exact ⟨.dropped hfrontier (.inr (.inl hnot))
              ⟨rfl, rfl, rfl, rfl⟩, hmemo⟩
  · rw [if_pos (by simp [hfrontier])]
    exact ⟨.aside hfrontier rfl ⟨rfl, rfl, rfl⟩, h⟩

/-! ## What the walk reaches -/

/-- A chain of edges from the root down to the pid, none of them a self-loop,
on which every pid below the root is taken. -/
inductive Reached (root : ProcessId) (allowEqual : Bool)
    (resolve : RawPid → Option ProcessId) (parents : List Edge) :
    RawPid → Prop where
  | child {pid : RawPid} (hedge : (pid, root.pid) ∈ parents)
      (hpid : pid ≠ root.pid) (htakes : Takes root allowEqual resolve pid) :
      Reached root allowEqual resolve parents pid
  | step {pid ppid : RawPid}
      (hreached : Reached root allowEqual resolve parents ppid)
      (hedge : (pid, ppid) ∈ parents) (hpid : pid ≠ ppid)
      (htakes : Takes root allowEqual resolve pid) :
      Reached root allowEqual resolve parents pid

/-- The root, and the pids accepted so far. -/
def Walk.Inside (root : ProcessId) (w : Walk) (pid : RawPid) : Prop :=
  pid = root.pid ∨ pid ∈ w.accepted

/-- What holds inside a round, of the edges still `todo` in it. -/
structure RoundInv (root : ProcessId) (allowEqual : Bool)
    (resolve : RawPid → Option ProcessId) (parents : List Edge)
    (frontier : List RawPid) (todo : List Edge) (w : Walk) : Prop where
  memo : w.resolved.Faithful resolve
  reached : ∀ p ∈ w.accepted, Reached root allowEqual resolve parents p
  result : w.result.map some = w.accepted.map resolve
  edges : ∀ e ∈ todo, e ∈ parents
  frontier_inside : ∀ q ∈ frontier, w.Inside root q
  next_inside : ∀ q ∈ w.next, w.Inside root q
  /-- An edge that is neither to come nor set aside is used up. -/
  covered : ∀ p q, (p, q) ∈ parents →
    (p, q) ∈ todo ∨ (p, q) ∈ w.stillPending ∨ p = q ∨
      ¬ Takes root allowEqual resolve p ∨ p ∈ w.accepted
  /-- An edge below a pid that is inside waits for that pid's turn. -/
  waiting : ∀ q, w.Inside root q → q ∈ frontier ∨ q ∈ w.next ∨
    ∀ p, (p, q) ∉ todo ∧ (p, q) ∉ w.stillPending
  aside : ∀ p q, (p, q) ∈ w.stillPending → (p, q) ∈ parents ∧ q ∉ frontier

/-- A visit that sets the edges `aside` aside and accepts the pids `new` keeps
the invariant. -/
theorem RoundInv.advance {frontier : List RawPid} {pid ppid : RawPid}
    {todo : List Edge} {w w' : Walk}
    (h : RoundInv root allowEqual resolve parents frontier
      ((pid, ppid) :: todo) w)
    (aside : List Edge) (new : List RawPid) (ids : List ProcessId)
    (hmemo : w'.resolved.Faithful resolve)
    (hpending : w'.stillPending = w.stillPending ++ aside)
    (hnext : w'.next = w.next ++ new)
    (haccepted : w'.accepted = w.accepted ++ new)
    (hresult : w'.result = w.result ++ ids)
    (hids : ids.map some = new.map resolve)
    (hnew : ∀ p ∈ new, Reached root allowEqual resolve parents p)
    (haside : ∀ e ∈ aside, e = (pid, ppid) ∧ ppid ∉ frontier)
    (hused : (pid, ppid) ∈ aside ∨ pid = ppid ∨
      ¬ Takes root allowEqual resolve pid ∨ pid ∈ w.accepted ++ new) :
    RoundInv root allowEqual resolve parents frontier todo w' := by
  have hinside : ∀ q, w'.Inside root q ↔ w.Inside root q ∨ q ∈ new := by
    intro q
    rw [Walk.Inside, haccepted, List.mem_append, Walk.Inside, or_assoc]
  refine
    { memo := hmemo
      reached := ?_
      result := ?_
      edges := fun e he => h.edges e (List.mem_cons_of_mem _ he)
      frontier_inside := fun q hq =>
        (hinside q).mpr (.inl (h.frontier_inside q hq))
      next_inside := ?_
      covered := ?_
      waiting := ?_
      aside := ?_ }
  · intro p hp
    rw [haccepted] at hp
    rcases List.mem_append.mp hp with hp | hp
    · exact h.reached p hp
    · exact hnew p hp
  · rw [hresult, haccepted, List.map_append, List.map_append, h.result, hids]
  · intro q hq
    rw [hnext] at hq
    rcases List.mem_append.mp hq with hq | hq
    · exact (hinside q).mpr (.inl (h.next_inside q hq))
    · exact (hinside q).mpr (.inr hq)
  · intro p q hpq
    rw [hpending, haccepted]
    rcases h.covered p q hpq with hc | hc | hc | hc | hc
    · rcases List.mem_cons.mp hc with hc | hc
      · obtain ⟨rfl, rfl⟩ := Prod.mk.inj hc
        rcases hused with hu | hu
        · exact .inr (.inl (List.mem_append_right _ hu))
        · exact .inr (.inr hu)
      · exact .inl hc
    · exact .inr (.inl (List.mem_append_left _ hc))
    · exact .inr (.inr (.inl hc))
    · exact .inr (.inr (.inr (.inl hc)))
    · exact .inr (.inr (.inr (.inr (List.mem_append_left _ hc))))
  · intro q hq
    rw [hnext, hpending]
    rcases (hinside q).mp hq with hq | hq
    · rcases h.waiting q hq with hw | hw | hw
      · exact .inl hw
      · exact .inr (.inl (List.mem_append_left _ hw))
      · right
        right
        intro p
        obtain ⟨htodo, hstill⟩ := hw p
        constructor
        · intro hmem
          exact htodo (List.mem_cons_of_mem _ hmem)
        · intro hmem
          rcases List.mem_append.mp hmem with hmem | hmem
          · exact hstill hmem
          · rw [(haside _ hmem).1] at htodo
            exact htodo List.mem_cons_self
    · exact .inr (.inl (List.mem_append_right _ hq))
  · intro p q hmem
    rw [hpending] at hmem
    rcases List.mem_append.mp hmem with hmem | hmem
    · exact h.aside p q hmem
    · obtain ⟨heq, hppid⟩ := haside _ hmem
      obtain ⟨rfl, rfl⟩ := Prod.mk.inj heq
      exact ⟨h.edges _ List.mem_cons_self, hppid⟩

/-- One visit keeps the invariant. -/
theorem RoundInv.visit {frontier : List RawPid} {pid ppid : RawPid}
    {todo : List Edge} {w : Walk}
    (h : RoundInv root allowEqual resolve parents frontier
      ((pid, ppid) :: todo) w) :
    RoundInv root allowEqual resolve parents frontier todo
      (w.visit root allowEqual resolve frontier (pid, ppid)) := by
  obtain ⟨hvisit, hmemo⟩ :=
    Walk.visit_cases root allowEqual h.memo frontier pid ppid
  generalize w.visit root allowEqual resolve frontier (pid, ppid) = w'
    at hvisit hmemo ⊢
  cases hvisit with
  | aside hppid hpending hrest =>
      obtain ⟨hresult, hnext, haccepted⟩ := hrest
      apply h.advance [(pid, ppid)] [] [] hmemo hpending
        (by simpa using hnext) (by simpa using haccepted)
        (by simpa using hresult) rfl
      · simp
      · intro e he
        exact ⟨List.mem_singleton.mp he, hppid⟩
      · exact .inl List.mem_cons_self
  | dropped hppid hpid hrest =>
      obtain ⟨hpending, hresult, hnext, haccepted⟩ := hrest
      apply h.advance [] [] [] hmemo (by simpa using hpending)
        (by simpa using hnext) (by simpa using haccepted)
        (by simpa using hresult) rfl
      · simp
      · simp
      · rw [List.append_nil]
        exact .inr hpid
  | accepted id hppid hpid hid hkeep hrest =>
      obtain ⟨hpending, hresult, hnext, haccepted⟩ := hrest
      have htakes : Takes root allowEqual resolve pid := ⟨id, hid, hkeep⟩
      have hedge : (pid, ppid) ∈ parents := h.edges _ List.mem_cons_self
      apply h.advance [] [pid] [id] hmemo (by simpa using hpending) hnext
        haccepted hresult (by simp [hid])
      · intro p hp
        obtain rfl := List.mem_singleton.mp hp
        rcases h.frontier_inside ppid hppid with rfl | hacc
        · exact .child hedge hpid htakes
        · exact .step (h.reached ppid hacc) hedge hpid htakes
      · simp
      · exact .inr (.inr (.inr (by simp)))

/-! ## Rounds -/

/-- What holds between two rounds. -/
structure WalkInv (root : ProcessId) (allowEqual : Bool)
    (resolve : RawPid → Option ProcessId) (parents : List Edge) (w : Walk) :
    Prop where
  memo : w.resolved.Faithful resolve
  reached : ∀ p ∈ w.accepted, Reached root allowEqual resolve parents p
  result : w.result.map some = w.accepted.map resolve
  edges : ∀ e ∈ w.stillPending, e ∈ parents
  next_inside : ∀ q ∈ w.next, w.Inside root q
  covered : ∀ p q, (p, q) ∈ parents → (p, q) ∈ w.stillPending ∨ p = q ∨
    ¬ Takes root allowEqual resolve p ∨ p ∈ w.accepted
  waiting : ∀ q, w.Inside root q →
    q ∈ w.next ∨ ∀ p, (p, q) ∉ w.stillPending

theorem WalkInv.start (root : ProcessId) (allowEqual : Bool)
    (resolve : RawPid → Option ProcessId) (parents : List Edge) :
    WalkInv root allowEqual resolve parents (Walk.start root parents) := by
  refine
    { memo := ?_
      reached := ?_
      result := rfl
      edges := fun e he => he
      next_inside := ?_
      covered := fun p q hpq => .inl hpq
      waiting := ?_ }
  · intro p id h
    cases h
  · intro p hp
    cases hp
  · intro q hq
    exact .inl (List.mem_singleton.mp hq)
  · intro q hq
    rcases hq with rfl | hq
    · exact .inl List.mem_cons_self
    · cases hq

theorem RoundInv.foldl {frontier : List RawPid} (todo : List Edge) :
    ∀ {w : Walk}, RoundInv root allowEqual resolve parents frontier todo w →
      RoundInv root allowEqual resolve parents frontier []
        (todo.foldl (Walk.visit root allowEqual resolve frontier) w) := by
  induction todo with
  | nil =>
      intro w h
      exact h
  | cons e todo ih =>
      intro w h
      exact ih h.visit

/-- One round keeps the invariant. -/
theorem WalkInv.round {w : Walk}
    (h : WalkInv root allowEqual resolve parents w) :
    WalkInv root allowEqual resolve parents
      (w.round root allowEqual resolve) := by
  have hfirst : RoundInv root allowEqual resolve parents w.next
      w.stillPending { w with next := [], stillPending := [] } :=
    { memo := h.memo
      reached := h.reached
      result := h.result
      edges := h.edges
      frontier_inside := h.next_inside
      next_inside := fun q hq => by cases hq
      covered := fun p q hpq => by
        rcases h.covered p q hpq with hc | hc
        · exact .inl hc
        · exact .inr (.inr hc)
      waiting := fun q hq => by
        rcases h.waiting q hq with hw | hw
        · exact .inl hw
        · exact .inr (.inr fun p => ⟨hw p, List.not_mem_nil⟩)
      aside := fun p q hpq => by cases hpq }
  have hlast := RoundInv.foldl w.stillPending hfirst
  exact
    { memo := hlast.memo
      reached := hlast.reached
      result := hlast.result
      edges := fun e he => (hlast.aside e.1 e.2 he).1
      next_inside := hlast.next_inside
      covered := fun p q hpq => by
        rcases hlast.covered p q hpq with hc | hc
        · cases hc
        · exact hc
      waiting := fun q hq => by
        rcases hlast.waiting q hq with hw | hw | hw
        · exact .inr fun p hp => (hlast.aside p q hp).2 hw
        · exact .inl hw
        · exact .inr fun p => (hw p).2 }

theorem WalkInv.rounds (fuel : Nat) : ∀ {w : Walk},
    WalkInv root allowEqual resolve parents w →
      WalkInv root allowEqual resolve parents
        (Walk.rounds root allowEqual resolve fuel w) := by
  induction fuel with
  | zero =>
      intro w h
      exact h
  | succ fuel ih =>
      intro w h
      unfold Walk.rounds
      split
      · exact h
      · exact ih h.round

/-! ## The walk ends -/

/-- A visit spends its edge on one list or the other, or on none. -/
theorem Walk.visit_length {w : Walk} (h : w.resolved.Faithful resolve)
    (frontier : List RawPid) (e : Edge) :
    (w.visit root allowEqual resolve frontier e).stillPending.length +
        (w.visit root allowEqual resolve frontier e).next.length ≤
      w.stillPending.length + w.next.length + 1 := by
  obtain ⟨hvisit, _⟩ :=
    Walk.visit_cases root allowEqual h frontier e.1 e.2
  cases hvisit with
  | aside hppid hpending hrest =>
      rw [hpending, hrest.2.1, List.length_append]
      show _ + 1 + _ ≤ _
      omega
  | dropped hppid hpid hrest =>
      rw [hrest.1, hrest.2.2.1]
      omega
  | accepted id hppid hpid hid hkeep hrest =>
      rw [hrest.1, hrest.2.2.1, List.length_append]
      show _ + (_ + 1) ≤ _
      omega

theorem Walk.foldl_visit_length (frontier : List RawPid) (todo : List Edge) :
    ∀ {w : Walk}, w.resolved.Faithful resolve →
      (todo.foldl (Walk.visit root allowEqual resolve frontier)
          w).stillPending.length +
          (todo.foldl (Walk.visit root allowEqual resolve frontier)
            w).next.length ≤
        w.stillPending.length + w.next.length + todo.length := by
  induction todo with
  | nil =>
      intro w _
      exact Nat.le_refl _
  | cons e todo ih =>
      intro w h
      have hstep := @Walk.visit_length root allowEqual resolve w h frontier e
      have hmemo : (w.visit root allowEqual resolve frontier
          e).resolved.Faithful resolve :=
        (Walk.visit_cases root allowEqual h frontier e.1 e.2).2
      have hrest := ih hmemo
      rw [List.foldl_cons, List.length_cons]
      omega

/-- With enough fuel the walk stops at an empty frontier. -/
theorem walk_next (fuel : Nat) : ∀ {w : Walk},
    WalkInv root allowEqual resolve parents w →
      (w.next = [] ∨ w.stillPending.length < fuel) →
      (Walk.rounds root allowEqual resolve fuel w).next = [] := by
  induction fuel with
  | zero =>
      intro w _ hfuel
      rcases hfuel with hnext | hlt
      · exact hnext
      · exact absurd hlt (Nat.not_lt_zero _)
  | succ fuel ih =>
      intro w h hfuel
      unfold Walk.rounds
      split
      · next hnext => exact List.isEmpty_iff.mp hnext
      · next hnext =>
          apply ih h.round
          have hlen : (w.round root allowEqual resolve).stillPending.length +
              (w.round root allowEqual resolve).next.length ≤
                0 + 0 + w.stillPending.length :=
            Walk.foldl_visit_length w.next w.stillPending h.memo
          have hlt : w.stillPending.length < fuel + 1 := by
            rcases hfuel with hempty | hlt
            · exact absurd (List.isEmpty_iff.mpr hempty) hnext
            · exact hlt
          by_cases hround : (w.round root allowEqual resolve).next = []
          · exact .inl hround
          · have hpos := List.length_pos_iff.mpr hround
            right
            omega

/-- A walk that has ended has accepted what it reaches. -/
theorem WalkInv.mem_accepted_iff {w : Walk}
    (h : WalkInv root allowEqual resolve parents w) (hnext : w.next = [])
    (pid : RawPid) :
    pid ∈ w.accepted ↔ Reached root allowEqual resolve parents pid := by
  have hclosed : ∀ p q, (p, q) ∈ parents → w.Inside root q → p ≠ q →
      Takes root allowEqual resolve p → p ∈ w.accepted := by
    intro p q hpq hq hne htakes
    rcases h.waiting q hq with hw | hw
    · rw [hnext] at hw
      cases hw
    · rcases h.covered p q hpq with hc | hc | hc | hc
      · exact absurd hc (hw p)
      · exact absurd hc hne
      · exact absurd htakes hc
      · exact hc
  constructor
  · exact h.reached pid
  · intro hreached
    induction hreached with
    | child hedge hpid htakes => exact hclosed _ _ hedge (.inl rfl) hpid htakes
    | step _ hedge hpid htakes ih =>
        exact hclosed _ _ hedge (.inr ih) hpid htakes

/-- **What the walk returns**: the identities of the pids it reaches. -/
theorem mem_descendantsWith_iff (root : ProcessId) (parents : List Edge)
    (allowEqual : Bool) (resolve : RawPid → Option ProcessId)
    (id : ProcessId) :
    id ∈ descendantsWith root allowEqual resolve parents ↔
      ∃ pid, Reached root allowEqual resolve parents pid ∧
        resolve pid = some id := by
  have hstart := WalkInv.start root allowEqual resolve parents
  have hend := hstart.rounds (parents.length + 1)
  have hnext := walk_next (parents.length + 1) hstart
    (.inr (Nat.lt_succ_self _))
  unfold descendantsWith
  generalize Walk.rounds root allowEqual resolve (parents.length + 1)
    (Walk.start root parents) = w at hend hnext ⊢
  have hsome : some id ∈ w.result.map some ↔
      some id ∈ w.accepted.map resolve := by rw [hend.result]
  have hmem : id ∈ w.result ↔ ∃ pid ∈ w.accepted, resolve pid = some id := by
    simpa using hsome
  simp only [hmem, hend.mem_accepted_iff hnext]

/-- Once the walk has ended, more fuel changes nothing. -/
theorem rounds_add (n k : Nat) : ∀ {w : Walk},
    (Walk.rounds root allowEqual resolve n w).next = [] →
      Walk.rounds root allowEqual resolve (n + k) w =
        Walk.rounds root allowEqual resolve n w := by
  induction n with
  | zero =>
      intro w h
      have hnext : w.next = [] := h
      cases k with
      | zero => rfl
      | succ k => simp [Walk.rounds, hnext]
  | succ n ih =>
      intro w h
      rw [show n + 1 + k = n + k + 1 by omega]
      unfold Walk.rounds at h ⊢
      split
      · rfl
      · next hnext =>
          rw [if_neg hnext] at h
          exact ih h

end

/-! ## One level -/

theorem mem_childrenVisit {parent : ProcessId} {allowEqual : Bool}
    {resolve : RawPid → Option ProcessId}
    {acc : List RawPid × List ProcessId} {edge : Edge} {id : ProcessId}
    (h : id ∈ (childrenVisit parent allowEqual resolve acc edge).2) :
    id ∈ acc.2 ∨ edge.2 = parent.pid ∧ resolve edge.1 = some id ∧
      keepsToken id.start parent.start allowEqual = true := by
  obtain ⟨pid, ppid⟩ := edge
  unfold childrenVisit at h
  dsimp only at h
  split at h
  · exact .inl h
  · next hedge =>
      split at h
      · exact .inl h
      · next id' hid =>
          split at h
          · exact .inl h
          · next hkeep =>
              split at h
              · exact .inl h
              · rcases List.mem_append.mp h with h | h
                · exact .inl h
                · right
                  obtain rfl := List.mem_singleton.mp h
                  have hppid : ppid = parent.pid := by
                    by_cases hne : ppid = parent.pid
                    · exact hne
                    · exact absurd (by simp [hne]) hedge
                  exact ⟨hppid, hid, by simpa using hkeep⟩

/-- What the one-level filter returns is on an edge below the parent, and
passes the token rule against the parent. -/
theorem mem_childrenOfWith {parent : ProcessId} {allowEqual : Bool}
    {resolve : RawPid → Option ProcessId} {parents : List Edge}
    {id : ProcessId}
    (h : id ∈ childrenOfWith parent parents allowEqual resolve) :
    ∃ pid, (pid, parent.pid) ∈ parents ∧ resolve pid = some id ∧
      keepsToken id.start parent.start allowEqual = true := by
  have hfold : ∀ (todo : List Edge) (acc : List RawPid × List ProcessId),
      id ∈ (todo.foldl (childrenVisit parent allowEqual resolve) acc).2 →
      id ∈ acc.2 ∨ ∃ edge ∈ todo, edge.2 = parent.pid ∧
        resolve edge.1 = some id ∧
        keepsToken id.start parent.start allowEqual = true := by
    intro todo
    induction todo with
    | nil =>
        intro acc h
        exact .inl h
    | cons edge todo ih =>
        intro acc h
        rcases ih _ h with h | ⟨e, he, hrest⟩
        · rcases mem_childrenVisit h with h | hrest
          · exact .inl h
          · exact .inr ⟨edge, List.mem_cons_self, hrest⟩
        · exact .inr ⟨e, List.mem_cons_of_mem _ he, hrest⟩
  rcases hfold parents _ h with h | ⟨⟨pid, ppid⟩, hmem, rfl, hrest⟩
  · cases h
  · exact ⟨pid, hmem, hrest⟩

end Cosca.Ports.TreeWalk
