import Cosca.Ports.TreeWalk
import Cosca.Verified.Interact

/-!
# The tree walk, exactly

`descendants_with` against any resolver: the walk is a program that asks for
the identity of a pid, so that a resolver may answer as it likes and what it
was asked is on record.  Each pid is asked for at most once, the walk ends by
its own condition, and it returns one identity for each pid it reaches.

## Main results

* `walk_exact`: the calls, the end and the result of the walk.
* `descendantsWith_excludes_root_iff`: when the root is among the results.
-/

namespace Cosca.Ports.TreeWalkExact

open Cosca.Ports.Identity
open Cosca.Ports.TreeWalk
open Cosca.Verified.Interact

/-! ## The walk as a program -/

/-- A program that calls `resolve`. -/
abbrev Resolving := Prog RawPid (fun _ => Option ProcessId)

/-- A call of `resolve` and what it returned. -/
abbrev Call := Event (fun _ : RawPid => Option ProcessId)

/-- `resolved.entry(pid).or_insert_with(|| resolve(pid))`. -/
def memoize (pid : RawPid) (memo : Memo) :
    Resolving (Option ProcessId × Memo) :=
  match memo.lookup pid with
  | some id => pure (id, memo)
  | none => do
      let id ← query pid
      pure (id, memo ++ [(pid, id)])

section

variable (root : ProcessId) (allowEqual : Bool)

/-- The body of the loop over the edges, once the pid is resolved. -/
def settle (w : Walk) (pid : RawPid) (id : Option ProcessId) (memo : Memo) :
    Walk :=
  let w := { w with resolved := memo }
  match id with
  | none => w
  | some id =>
      if !keepsToken id.start root.start allowEqual then w
      else if w.accepted.contains pid then w
      else
        { w with
          accepted := w.accepted ++ [pid]
          result := w.result ++ [id]
          next := w.next ++ [pid] }

/-- The body of the loop over the pending edges. -/
def visit (frontier : List RawPid) (w : Walk) (edge : Edge) :
    Resolving Walk :=
  let (pid, ppid) := edge
  if !frontier.contains ppid then
    pure { w with stillPending := w.stillPending ++ [(pid, ppid)] }
  else if pid == ppid then pure w
  else do
    let (id, memo) ← memoize pid w.resolved
    pure (settle root allowEqual w pid id memo)

/-- One round of the walk. -/
def round (w : Walk) : Resolving Walk :=
  w.stillPending.foldlM (visit root allowEqual w.next)
    { w with next := [], stillPending := [] }

/-- `while !frontier.is_empty()`. -/
def rounds : Nat → Walk → Resolving Walk
  | 0, w => pure w
  | fuel + 1, w =>
      if w.next.isEmpty then pure w
      else do
        let w ← round root allowEqual w
        rounds fuel w

end

/-! ## The calls -/

/-- The resolver gave these answers. -/
def Answered (resolve : RawPid → Option ProcessId) (calls : List Call) :
    Prop :=
  ∀ e ∈ calls, e.answer = resolve e.question

theorem Answered.before {resolve : RawPid → Option ProcessId}
    {calls more : List Call} (h : Answered resolve (calls ++ more)) :
    Answered resolve calls :=
  fun e he => h e (List.mem_append_left more he)

/-- The memo is the calls, and no pid was asked for twice. -/
structure Logged (memo : Memo) (calls : List Call) : Prop where
  memo_eq : memo = calls.map fun e => (e.question, e.answer)
  once : (calls.map (·.question)).Nodup

theorem memoize_ensures (pid : RawPid) {memo : Memo} {calls : List Call}
    (h : Logged memo calls) :
    (memoize pid memo).Ensures calls fun r calls' =>
      Logged r.2 calls' ∧ ∀ resolve, Answered resolve calls' →
        Answered resolve calls ∧ r = memo.resolve resolve pid := by
  unfold memoize Memo.resolve
  cases hlook : memo.lookup pid with
  | some id => exact ⟨h, fun resolve hans => ⟨hans, rfl⟩⟩
  | none =>
      intro id
      have hnew : pid ∉ calls.map (·.question) := by
        rw [h.memo_eq, List.lookup_eq_none_iff] at hlook
        intro hmem
        obtain ⟨e, he, rfl⟩ := List.mem_map.mp hmem
        have hne := hlook _ (List.mem_map_of_mem he)
        simp at hne
      refine ⟨⟨?_, ?_⟩, ?_⟩
      · rw [h.memo_eq, List.map_append]
        rfl
      · rw [List.map_append, List.nodup_append]
        refine ⟨h.once, by simp, ?_⟩
        intro p hp q hq
        obtain rfl : q = pid := by simpa using hq
        rintro rfl
        exact hnew hp
      · intro resolve hans
        have hid : id = resolve pid := hans ⟨pid, id⟩ (by simp)
        exact ⟨hans.before, by rw [hid]⟩

section

variable {root : ProcessId} {allowEqual : Bool}

/-- A visit that asks does what the visit that is told does. -/
theorem visit_ensures (frontier : List RawPid) {w : Walk} (edge : Edge)
    {calls : List Call} (h : Logged w.resolved calls) :
    (visit root allowEqual frontier w edge).Ensures calls fun w' calls' =>
      Logged w'.resolved calls' ∧ ∀ resolve, Answered resolve calls' →
        Answered resolve calls ∧
          w' = w.visit root allowEqual resolve frontier edge := by
  obtain ⟨pid, ppid⟩ := edge
  unfold visit Walk.visit
  dsimp only
  split
  · exact ⟨h, fun resolve hans => ⟨hans, rfl⟩⟩
  · split
    · exact ⟨h, fun resolve hans => ⟨hans, rfl⟩⟩
    · refine (memoize_ensures pid h).bind ?_
      rintro ⟨id, memo⟩ calls' ⟨hlog, hsame⟩
      have hmemo : (settle root allowEqual w pid id memo).resolved = memo := by
        unfold settle
        dsimp only
        split
        · rfl
        · split
          · rfl
          · split <;> rfl
      refine ⟨by rw [hmemo]; exact hlog, ?_⟩
      intro resolve hans
      obtain ⟨hbefore, hr⟩ := hsame resolve hans
      refine ⟨hbefore, ?_⟩
      rw [← hr]
      rfl

/-- The same for a round. -/
theorem round_ensures {w : Walk} {calls : List Call}
    (h : Logged w.resolved calls) :
    (round root allowEqual w).Ensures calls fun w' calls' =>
      Logged w'.resolved calls' ∧ ∀ resolve, Answered resolve calls' →
        Answered resolve calls ∧
          w' = w.round root allowEqual resolve := by
  refine Prog.Ensures.foldlM
    (fun todo v calls' => Logged v.resolved calls' ∧
      ∀ resolve, Answered resolve calls' → Answered resolve calls ∧
        todo.foldl (Walk.visit root allowEqual resolve w.next) v =
          w.round root allowEqual resolve)
    ?_ w.stillPending ⟨h, fun resolve hans => ⟨hans, rfl⟩⟩
  intro edge todo v calls' hv
  refine (visit_ensures w.next edge hv.1).mono ?_
  rintro v' calls'' ⟨hlog, hsame⟩
  refine ⟨hlog, ?_⟩
  intro resolve hans
  obtain ⟨hbefore, rfl⟩ := hsame resolve hans
  exact hv.2 resolve hbefore

/-- The same for any number of rounds. -/
theorem rounds_ensures (fuel : Nat) :
    ∀ {w : Walk} {calls : List Call}, Logged w.resolved calls →
      (rounds root allowEqual fuel w).Ensures calls fun w' calls' =>
        Logged w'.resolved calls' ∧ ∀ resolve, Answered resolve calls' →
          Answered resolve calls ∧
            w' = Walk.rounds root allowEqual resolve fuel w := by
  induction fuel with
  | zero => exact fun h => ⟨h, fun resolve hans => ⟨hans, rfl⟩⟩
  | succ fuel ih =>
      intro w calls h
      unfold rounds Walk.rounds
      split
      · exact ⟨h, fun resolve hans => ⟨hans, rfl⟩⟩
      · refine (round_ensures h).bind ?_
        rintro w' calls' ⟨hlog, hsame⟩
        refine (ih hlog).mono ?_
        rintro w'' calls'' ⟨hlog', hsame'⟩
        refine ⟨hlog', ?_⟩
        intro resolve hans
        obtain ⟨hmid, rfl⟩ := hsame' resolve hans
        obtain ⟨hbefore, rfl⟩ := hsame resolve hmid
        exact ⟨hbefore, rfl⟩

/-! ## Each pid once -/

variable {resolve : RawPid → Option ProcessId} {parents : List Edge}

theorem visit_accepted_nodup {w : Walk} (h : w.accepted.Nodup)
    (frontier : List RawPid) (edge : Edge) :
    (w.visit root allowEqual resolve frontier edge).accepted.Nodup := by
  obtain ⟨pid, ppid⟩ := edge
  unfold Walk.visit
  dsimp only
  split
  · exact h
  · split
    · exact h
    · split
      · exact h
      · split
        · exact h
        · split
          · exact h
          · next hnew =>
              have hpid : pid ∉ w.accepted := by simpa using hnew
              refine List.nodup_append.mpr ⟨h, by simp, ?_⟩
              intro p hp q hq
              obtain rfl : q = pid := by simpa using hq
              rintro rfl
              exact hpid hp

theorem round_accepted_nodup {w : Walk} (h : w.accepted.Nodup) :
    (w.round root allowEqual resolve).accepted.Nodup := by
  have hfold : ∀ (todo : List Edge) (v : Walk), v.accepted.Nodup →
      (todo.foldl (Walk.visit root allowEqual resolve w.next)
        v).accepted.Nodup := by
    intro todo
    induction todo with
    | nil => exact fun v hv => hv
    | cons edge todo ih =>
        exact fun v hv => ih _ (visit_accepted_nodup hv w.next edge)
  exact hfold w.stillPending _ h

theorem rounds_accepted_nodup (fuel : Nat) :
    ∀ {w : Walk}, w.accepted.Nodup →
      (Walk.rounds root allowEqual resolve fuel w).accepted.Nodup := by
  induction fuel with
  | zero => exact fun h => h
  | succ fuel ih =>
      intro w h
      unfold Walk.rounds
      split
      · exact h
      · exact ih (round_accepted_nodup h)

/-- A list with one occurrence of `p`, filtered for it. -/
private theorem filter_beq_of_nodup {pids : List RawPid} (h : pids.Nodup)
    {p : RawPid} (hp : p ∈ pids) : pids.filter (· == p) = [p] := by
  rw [List.filter_beq, List.Nodup.count h, if_pos hp]
  rfl

end

/-- The identities of a pid, when each carries the pid it was asked for. -/
private theorem filter_map_resolve {resolve : RawPid → Option ProcessId}
    (hpid : ∀ p id, resolve p = some id → id.pid = p) (p : RawPid)
    (pids : List RawPid) : ∀ {ids : List ProcessId},
      ids.map some = pids.map resolve →
        (ids.filter (·.pid == p)).map some =
          (pids.filter (· == p)).map resolve := by
  induction pids with
  | nil =>
      intro ids h
      obtain rfl : ids = [] := by simpa using h
      rfl
  | cons q pids ih =>
      intro ids h
      cases ids with
      | nil => exact nomatch h
      | cons id ids =>
          obtain ⟨hid, hrest⟩ : some id = resolve q ∧
              ids.map some = pids.map resolve := by simpa using h
          have hq := hpid q id hid.symm
          have htail := ih hrest
          by_cases hp : q = p
          · rw [List.filter_cons_of_pos (by simp [hq, hp]),
              List.filter_cons_of_pos (by simp [hp]), List.map_cons,
              List.map_cons, htail, hid]
          · rw [List.filter_cons_of_neg (by simp [hq, hp]),
              List.filter_cons_of_neg (by simp [hp]), htail]

/-- Calls that name each pid once are answered by a function. -/
theorem exists_answered (calls : List Call)
    (h : (calls.map (·.question)).Nodup) :
    ∃ resolve, Answered resolve calls := by
  induction calls with
  | nil => exact ⟨fun _ => none, nofun⟩
  | cons e calls ih =>
      rw [List.map_cons, List.nodup_cons] at h
      obtain ⟨resolve, hans⟩ := ih h.2
      refine ⟨fun p => if p = e.question then e.answer else resolve p, ?_⟩
      intro e' he'
      rcases List.mem_cons.mp he' with rfl | hmem
      · exact (if_pos rfl).symm
      · have hne : e'.question ≠ e.question := fun heq =>
          h.1 (heq ▸ List.mem_map_of_mem hmem)
        exact (hans e' hmem).trans (if_neg hne).symm

/-- The walk against any resolver.  With any fuel above the number of edges it
ends with an empty frontier, it calls `resolve` at most once for a pid, and it
returns what the answers give: one identity for each pid that a chain of
edges leads to. -/
theorem walk_exact (root : ProcessId) (allowEqual : Bool)
    (parents : List Edge) (extra : Nat) :
    (rounds root allowEqual (parents.length + 1 + extra)
        (Walk.start root parents)).Ensures [] fun w calls =>
      w.next = [] ∧ (calls.map (·.question)).Nodup ∧
      (∃ resolve, Answered resolve calls) ∧
      ∀ resolve, Answered resolve calls →
        w.result = descendantsWith root allowEqual resolve parents ∧
        (∃ pids : List RawPid, pids.Nodup ∧
          w.result.map some = pids.map resolve ∧
          ∀ p, p ∈ pids ↔ Reached root allowEqual resolve parents p) ∧
        ((∀ p id, resolve p = some id → id.pid = p) → ∀ p,
          (Reached root allowEqual resolve parents p →
            (w.result.filter (·.pid == p)).map some = [resolve p]) ∧
          (¬Reached root allowEqual resolve parents p →
            w.result.filter (·.pid == p) = [])) := by
  have hstart : Logged (Walk.start root parents).resolved [] := ⟨rfl, .nil⟩
  refine (rounds_ensures _ hstart).mono ?_
  rintro w calls ⟨hlog, hsame⟩
  have hfuel : ∀ resolve, Answered resolve calls →
      WalkInv root allowEqual resolve parents w ∧ w.next = [] ∧
        w.accepted.Nodup ∧
        w.result = descendantsWith root allowEqual resolve parents := by
    intro resolve hans
    obtain ⟨-, rfl⟩ := hsame resolve hans
    have hinv := WalkInv.start root allowEqual resolve parents
    have hnext := walk_next (parents.length + 1) hinv
      (.inr (Nat.lt_succ_self _))
    rw [rounds_add _ extra hnext]
    exact ⟨hinv.rounds _, hnext, rounds_accepted_nodup _ .nil, rfl⟩
  obtain ⟨resolve₀, hans₀⟩ := exists_answered calls hlog.once
  refine ⟨(hfuel resolve₀ hans₀).2.1, hlog.once, ⟨resolve₀, hans₀⟩, ?_⟩
  intro resolve hans
  obtain ⟨hinv, hnext, hnodup, hresult⟩ := hfuel resolve hans
  refine ⟨hresult, ⟨w.accepted, hnodup, hinv.result,
    hinv.mem_accepted_iff hnext⟩, ?_⟩
  intro hpid p
  have hfilter := filter_map_resolve hpid p w.accepted hinv.result
  have hmem := hinv.mem_accepted_iff hnext p
  constructor
  · intro hreached
    rw [hfilter, filter_beq_of_nodup hnodup (hmem.mpr hreached),
      List.map_singleton]
  · intro hnot
    have hnone : w.accepted.filter (· == p) = [] := by
      rw [List.filter_eq_nil_iff]
      intro q hq heq
      obtain rfl : q = p := by simpa using heq
      exact hnot (hmem.mp hq)
    rw [hnone, List.map_nil] at hfilter
    simpa using hfilter

/-! ## The root -/

/-- A chain leads from the root down to another pid on record as the root's
parent. -/
def Cycle (root : ProcessId) (allowEqual : Bool)
    (resolve : RawPid → Option ProcessId) (parents : List Edge) : Prop :=
  ∃ p, p ≠ root.pid ∧ Reached root allowEqual resolve parents p ∧
    (root.pid, p) ∈ parents

/-- The root's own token passes the filter where equal tokens do. -/
theorem takes_root_iff {root : ProcessId} {allowEqual : Bool}
    {resolve : RawPid → Option ProcessId}
    (hroot : resolve root.pid = some root) :
    Takes root allowEqual resolve root.pid ↔ allowEqual = true := by
  unfold Takes keepsToken
  rw [hroot]
  simp

/-- The walk comes back to the root on a cycle, where equal tokens pass. -/
theorem reached_root_iff {root : ProcessId} {allowEqual : Bool}
    {resolve : RawPid → Option ProcessId} {parents : List Edge}
    (hroot : resolve root.pid = some root) :
    Reached root allowEqual resolve parents root.pid ↔
      allowEqual = true ∧ Cycle root allowEqual resolve parents := by
  constructor
  · intro h
    generalize hp : root.pid = p at h
    cases h with
    | child _ hne _ => exact absurd hp.symm hne
    | @step _ ppid hreached hedge hne htakes =>
        subst hp
        exact ⟨(takes_root_iff hroot).mp htakes, ppid, Ne.symm hne, hreached,
          hedge⟩
  · rintro ⟨hequal, p, hne, hreached, hedge⟩
    exact .step hreached hedge (Ne.symm hne) ((takes_root_iff hroot).mpr hequal)

/-- The root is not in the result exactly if equal tokens are not kept or no
cycle leads back to it, and no other pid the walk reaches is given an identity
with the root's pid. -/
theorem descendantsWith_excludes_root_iff (root : ProcessId)
    (allowEqual : Bool) (parents : List Edge)
    (resolve : RawPid → Option ProcessId)
    (hroot : resolve root.pid = some root) :
    (∀ id ∈ descendantsWith root allowEqual resolve parents,
      id.pid ≠ root.pid) ↔
    ¬(allowEqual = true ∧ Cycle root allowEqual resolve parents) ∧
      ∀ p id, p ≠ root.pid → Reached root allowEqual resolve parents p →
        resolve p = some id → id.pid ≠ root.pid := by
  simp only [mem_descendantsWith_iff]
  constructor
  · intro h
    refine ⟨?_, fun p id _ hreached hid => h id ⟨p, hreached, hid⟩⟩
    intro hcycle
    exact h root ⟨root.pid, (reached_root_iff hroot).mpr hcycle, hroot⟩ rfl
  · rintro ⟨hno, hothers⟩ id ⟨p, hreached, hid⟩
    by_cases hp : p = root.pid
    · subst hp
      exact absurd ((reached_root_iff hroot).mp hreached) hno
    · exact hothers p id hp hreached hid

/-- On a snapshot without a cycle the root is left out. -/
theorem descendantsWith_excludes_root_child :
    (descendantsWith ⟨10, 5⟩ true
      (fun p => if p = 10 then some ⟨10, 5⟩ else some ⟨p, 7⟩)
      [(20, 10)]).all (fun id => id.pid != 10) = true := by
  rw [List.all_eq_true]
  intro id hmem
  rw [bne_iff_ne]
  refine (descendantsWith_excludes_root_iff ⟨10, 5⟩ true [(20, 10)] _
    (by decide)).mpr ⟨?_, ?_⟩ id hmem
  · rintro ⟨-, p, -, -, hedge⟩
    simp at hedge
  · intro p id hp _ hid
    have hne : p ≠ 10 := hp
    obtain rfl : ProcessId.mk p 7 = id := by simpa [hne] using hid
    exact hp

/-- A snapshot that mixes an old and a new parent of the root puts the root
among its own descendants, where equal tokens are kept. -/
theorem descendantsWith_returns_root :
    ¬∀ (root : ProcessId) (allowEqual : Bool) (parents : List Edge)
        (resolve : RawPid → Option ProcessId),
      resolve root.pid = some root →
        ∀ id ∈ descendantsWith root allowEqual resolve parents,
          id.pid ≠ root.pid := by
  intro h
  exact h ⟨10, 5⟩ true [(20, 10), (10, 20)]
    (fun p => if p = 10 then some ⟨10, 5⟩ else some ⟨p, 7⟩) (by decide)
    ⟨10, 5⟩ (by decide) rfl

end Cosca.Ports.TreeWalkExact
