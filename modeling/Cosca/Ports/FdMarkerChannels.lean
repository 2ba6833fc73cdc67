import Cosca.Ports.FdMarker

/-!
# The channels of the fd-marker sweep

A sweep is read off its events: which identities it found, which it attempted,
and what it was told about them.  The set `seen` of the source is at all times
the attempts made so far followed by the identities the running pass has found
and not attempted yet.

## Main results

* `walkChannel_spec`, `holderVisit_spec` and `groupChannel_spec`: the invariant
  across the three channels, and what each adds.
-/

namespace Cosca.Ports.FdMarkerPass

open Cosca.Ports.Errors
open Cosca.Ports.Identity
open Cosca.Ports.TreeWalk
open Cosca.Ports.FdMarker
open Cosca.Verified.Interact

/-! ## Reading the events -/

/-- An event of a sweep. -/
abbrev SweepEvent := Event Answer

/-- The identities the walk returned or the holder scan resolved. -/
def foundBy : SweepEvent → List ProcessId
  | ⟨.walk root parents, start⟩ =>
      descendantsWith root true (resolveOrDrop start) parents
  | ⟨.identity pid, .found start⟩ => [⟨pid, start⟩]
  | _ => []

/-- The identity whose kill begins: the walk kills at once, a holder is asked
for the marker first. -/
def attemptBy : SweepEvent → List ProcessId
  | ⟨.killByIdentity .walk id _, _⟩ => [id]
  | ⟨.holdsMarker id _, _⟩ => [id]
  | _ => []

/-- The identity a kill was aimed at. -/
def killBy : SweepEvent → List ProcessId
  | ⟨.killByIdentity _ id _, _⟩ => [id]
  | _ => []

def found (events : List SweepEvent) : List ProcessId :=
  events.flatMap foundBy

def attempts (events : List SweepEvent) : List ProcessId :=
  events.flatMap attemptBy

def kills (events : List SweepEvent) : List ProcessId :=
  events.flatMap killBy

/-- The event leaves no gap: the snapshot is not blind, nothing is refused. -/
def Clean : SweepEvent → Prop
  | ⟨.snapshot, (pids, _)⟩ => pids ≠ []
  | ⟨.identity _, start⟩ => start ≠ .unknown
  | ⟨.holdsMarker _ _, holds⟩ => holds ≠ .denied
  | ⟨.killByIdentity _ _ _, outcome⟩ => outcome ≠ .notAttempted
  | _ => True

/-- A group signal returned `Ok`. -/
def GroupOk : SweepEvent → Prop
  | ⟨.signalGroup _ _, result⟩ => result = .ok ()
  | _ => True

/-- What the holder channel aims at may be signalled. -/
def Aimed (sup : Supervisor) : SweepEvent → Prop
  | ⟨.holdsMarker id _, _⟩ => isSignalable sup id.pid = true
  | ⟨.killByIdentity .holder id _, _⟩ => isSignalable sup id.pid = true
  | _ => True

@[simp] theorem attempts_append (t t' : List SweepEvent) :
    attempts (t ++ t') = attempts t ++ attempts t' :=
  List.flatMap_append

@[simp] theorem kills_append (t t' : List SweepEvent) :
    kills (t ++ t') = kills t ++ kills t' :=
  List.flatMap_append

@[simp] theorem found_append (t t' : List SweepEvent) :
    found (t ++ t') = found t ++ found t' :=
  List.flatMap_append

/-! ## The invariant -/

/-- The identities that ever appear: the root and those that were found. -/
def appeared (m : Marker) (events : List SweepEvent) : List ProcessId :=
  m.root.toList ++ found events

/-- What holds of the variables and the events when the identities `todo` are
still to be attempted. -/
structure SweepInv (m : Marker) (sup : Supervisor) (todo : List ProcessId)
    (s : Sweep) (t : List SweepEvent) : Prop where
  seen : s.seen = attempts t ++ todo
  nodup : s.seen.Nodup
  found_seen : ∀ id ∈ found t, id ∈ s.seen
  known : ∀ id ∈ s.seen, id ∈ appeared m t
  clean : s.incomplete = false → ∀ e ∈ t, Clean e
  group : s.groupResult = .ok () → ∀ e ∈ t, GroupOk e
  aimed : ∀ e ∈ t, Aimed sup e
  held : ∀ id handle, ⟨.holdsMarker id handle, .held⟩ ∈ t → id ∈ kills t
  killed : ∀ id ∈ kills t, id ∈ attempts t
  kills_nodup : (kills t).Nodup

theorem appeared_left {m : Marker} {t : List SweepEvent} {id : ProcessId}
    (es : List SweepEvent) (h : id ∈ appeared m t) :
    id ∈ appeared m (t ++ es) := by
  rw [appeared, found_append, ← List.append_assoc]
  exact List.mem_append_left _ h

theorem appeared_right {m : Marker} {es : List SweepEvent} {id : ProcessId}
    (t : List SweepEvent) (h : id ∈ appeared m es) :
    id ∈ appeared m (t ++ es) := by
  rw [appeared, found_append]
  rcases List.mem_append.mp h with h | h
  · exact List.mem_append_left _ h
  · exact List.mem_append_right _ (List.mem_append_right _ h)

/-- More events `es` attempt `tried` and turn up `new`. -/
theorem SweepInv.extend {m : Marker} {sup : Supervisor} (tried : List ProcessId)
    {rest : List ProcessId} {s s' : Sweep} {t : List SweepEvent}
    (h : SweepInv m sup (tried ++ rest) s t) (es : List SweepEvent)
    (new : List ProcessId) (hattempts : attempts es = tried)
    (hseen : s'.seen = s.seen ++ new) (hnodup : s'.seen.Nodup)
    (hfound : ∀ id ∈ found es, id ∈ s'.seen)
    (hknown : ∀ id ∈ new, id ∈ appeared m es)
    (hclean : s'.incomplete = false → s.incomplete = false ∧
      ∀ e ∈ es, Clean e)
    (hgroup : s'.groupResult = .ok () → s.groupResult = .ok () ∧
      ∀ e ∈ es, GroupOk e)
    (haimed : ∀ e ∈ es, Aimed sup e)
    (hheld : ∀ id handle, ⟨.holdsMarker id handle, .held⟩ ∈ es →
      id ∈ kills es)
    (hkilled : ∀ id ∈ kills es, id ∈ tried)
    (hkills : (kills es).Nodup) :
    SweepInv m sup (rest ++ new) s' (t ++ es) := by
  have hdisjoint : ∀ id ∈ kills t, id ∉ kills es := by
    intro id hid hes
    have hseen' := h.nodup
    rw [h.seen, ← List.append_assoc] at hseen'
    have htried := (List.nodup_append.mp hseen').1
    exact (List.nodup_append.mp htried).2.2 id (h.killed id hid) id
      (hkilled id hes) rfl
  refine
    { seen := ?_
      nodup := hnodup
      found_seen := ?_
      known := ?_
      clean := ?_
      group := ?_
      aimed := ?_
      held := ?_
      killed := ?_
      kills_nodup := ?_ }
  · rw [hseen, h.seen, attempts_append, hattempts]
    simp only [List.append_assoc]
  · intro id hid
    rw [found_append] at hid
    rcases List.mem_append.mp hid with hid | hid
    · rw [hseen]
      exact List.mem_append_left _ (h.found_seen id hid)
    · exact hfound id hid
  · intro id hid
    rw [hseen] at hid
    rcases List.mem_append.mp hid with hid | hid
    · exact appeared_left es (h.known id hid)
    · exact appeared_right t (hknown id hid)
  · intro hincomplete e he
    obtain ⟨hold, hnew⟩ := hclean hincomplete
    rcases List.mem_append.mp he with he | he
    · exact h.clean hold e he
    · exact hnew e he
  · intro hresult e he
    obtain ⟨hold, hnew⟩ := hgroup hresult
    rcases List.mem_append.mp he with he | he
    · exact h.group hold e he
    · exact hnew e he
  · intro e he
    rcases List.mem_append.mp he with he | he
    · exact h.aimed e he
    · exact haimed e he
  · intro id handle he
    rw [kills_append]
    rcases List.mem_append.mp he with he | he
    · exact List.mem_append_left _ (h.held id handle he)
    · exact List.mem_append_right _ (hheld id handle he)
  · intro id hid
    rw [attempts_append, hattempts]
    rw [kills_append] at hid
    rcases List.mem_append.mp hid with hid | hid
    · exact List.mem_append_left _ (h.killed id hid)
    · exact List.mem_append_right _ (hkilled id hid)
  · rw [kills_append]
    refine List.nodup_append.mpr ⟨h.kills_nodup, hkills, ?_⟩
    intro id hid id' hid' heq
    rw [heq] at hid
    exact hdisjoint id' hid hid'

/-- The invariant before the first pass. -/
theorem SweepInv.start (m : Marker) (sup : Supervisor) (info : Option UInt64) :
    SweepInv m sup [] Sweep.start [⟨.readEnd, info⟩] := by
  have honly : ∀ e ∈ [(⟨.readEnd, info⟩ : SweepEvent)],
      e = ⟨.readEnd, info⟩ := fun e he => List.mem_singleton.mp he
  refine
    { seen := rfl
      nodup := List.nodup_nil
      found_seen := fun id hid => by cases hid
      known := fun id hid => by cases hid
      clean := ?_
      group := ?_
      aimed := ?_
      held := ?_
      killed := fun id hid => by cases hid
      kills_nodup := List.nodup_nil }
  · intro _ e he
    rw [honly e he]
    trivial
  · intro _ e he
    rw [honly e he]
    trivial
  · intro e he
    rw [honly e he]
    trivial
  · intro id handle he
    have heq := honly _ he
    cases heq

/-- An event that attempts nothing is aimed at nothing. -/
theorem aimed_of_quiet {sup : Supervisor} {e : SweepEvent}
    (hattempt : attemptBy e = []) (hkill : killBy e = []) : Aimed sup e := by
  obtain ⟨q, a⟩ := e
  cases q with
  | holdsMarker id handle => cases hattempt
  | killByIdentity channel id signal => cases hkill
  | _ => trivial

/-- An event that attempts nothing, and the identities it turns up. -/
theorem SweepInv.discover {m : Marker} {sup : Supervisor}
    {todo : List ProcessId} {s s' : Sweep} {t : List SweepEvent}
    (h : SweepInv m sup todo s t) (e : SweepEvent) (new : List ProcessId)
    (hattempt : attemptBy e = [])
    (hkill : killBy e = []) (hseen : s'.seen = s.seen ++ new)
    (hnodup : s'.seen.Nodup) (hfound : ∀ id ∈ foundBy e, id ∈ s'.seen)
    (hknown : ∀ id ∈ new, id ∈ m.root.toList ++ foundBy e)
    (hclean : s'.incomplete = false → s.incomplete = false ∧ Clean e)
    (hgroup : s'.groupResult = .ok () → s.groupResult = .ok () ∧ GroupOk e) :
    SweepInv m sup (todo ++ new) s' (t ++ [e]) := by
  have hkills : kills [e] = [] := by simp [kills, hkill]
  apply SweepInv.extend [] h [e] new
  · simp [attempts, hattempt]
  · exact hseen
  · exact hnodup
  · intro id hid
    exact hfound id (by simpa [found] using hid)
  · intro id hid
    simpa [appeared, found] using hknown id hid
  · intro hincomplete
    obtain ⟨hold, hnew⟩ := hclean hincomplete
    exact ⟨hold, by simpa using hnew⟩
  · intro hresult
    obtain ⟨hold, hnew⟩ := hgroup hresult
    exact ⟨hold, by simpa using hnew⟩
  · simpa using aimed_of_quiet hattempt hkill
  · intro id handle he
    rw [← List.mem_singleton.mp he] at hattempt
    cases hattempt
  · intro id hid
    rw [hkills] at hid
    cases hid
  · rw [hkills]
    exact List.nodup_nil

/-- An event that neither attempts nor turns up anything. -/
theorem SweepInv.observe {m : Marker} {sup : Supervisor}
    {todo : List ProcessId} {s s' : Sweep} {t : List SweepEvent}
    (h : SweepInv m sup todo s t) (e : SweepEvent) (hattempt : attemptBy e = [])
    (hkill : killBy e = []) (hfound : foundBy e = [])
    (hseen : s'.seen = s.seen)
    (hclean : s'.incomplete = false → s.incomplete = false ∧ Clean e)
    (hgroup : s'.groupResult = .ok () → s.groupResult = .ok () ∧ GroupOk e) :
    SweepInv m sup todo s' (t ++ [e]) := by
  have hinv : SweepInv m sup (todo ++ []) s' (t ++ [e]) :=
    h.discover e [] hattempt hkill (by rw [hseen, List.append_nil])
      (hseen ▸ h.nodup) (by simp [hfound]) (by simp) hclean hgroup
  rw [List.append_nil] at hinv
  exact hinv

/-- The variables change without an event. -/
theorem SweepInv.quiet {m : Marker} {sup : Supervisor} {todo : List ProcessId}
    {s s' : Sweep} {t : List SweepEvent} (h : SweepInv m sup todo s t)
    (new : List ProcessId) (hseen : s'.seen = s.seen ++ new)
    (hnodup : s'.seen.Nodup) (hknown : ∀ id ∈ new, id ∈ m.root.toList)
    (hclean : s'.incomplete = false → s.incomplete = false)
    (hgroup : s'.groupResult = s.groupResult) :
    SweepInv m sup (todo ++ new) s' t := by
  have hextend : SweepInv m sup (todo ++ new) s' (t ++ []) :=
    SweepInv.extend [] h [] new rfl hseen hnodup (by simp [found])
      (fun id hid => List.mem_append_left _ (hknown id hid))
      (fun hi => ⟨hclean hi, by simp⟩) (fun hr => ⟨hgroup ▸ hr, by simp⟩)
      (by simp) (by simp) (by simp [kills]) List.nodup_nil
  rw [List.append_nil] at hextend
  exact hextend

/-! ## Collecting new identities -/

/-- Insertion into `seen` appends what is new. -/
theorem insertSeen_spec (acc : List ProcessId × List ProcessId)
    (id : ProcessId) (hnodup : acc.1.Nodup) :
    ∃ added, insertSeen acc id = (acc.1 ++ added, acc.2 ++ added) ∧
      (acc.1 ++ added).Nodup ∧ id ∈ acc.1 ++ added ∧ ∀ x ∈ added, x = id := by
  unfold insertSeen
  by_cases hid : id ∈ acc.1
  · rw [if_pos (by simpa using hid)]
    refine ⟨[], by simp, by simpa using hnodup, by simpa using hid, by simp⟩
  · rw [if_neg (by simpa using hid)]
    refine ⟨[id], rfl, ?_, by simp, by simp⟩
    rw [List.nodup_append]
    refine ⟨hnodup, by simp, ?_⟩
    intro x hx y hy heq
    rw [heq, List.mem_singleton.mp hy] at hx
    exact hid hx

theorem foldl_insertSeen_spec (ids : List ProcessId) :
    ∀ acc : List ProcessId × List ProcessId, acc.1.Nodup →
      ∃ added, ids.foldl insertSeen acc = (acc.1 ++ added, acc.2 ++ added) ∧
        (acc.1 ++ added).Nodup ∧ (∀ id ∈ ids, id ∈ acc.1 ++ added) ∧
        ∀ id ∈ added, id ∈ ids := by
  induction ids with
  | nil =>
      intro acc hnodup
      exact ⟨[], by simp, by simpa using hnodup, by simp, by simp⟩
  | cons id ids ih =>
      intro acc hnodup
      obtain ⟨first, hfirst, hnodup₁, hid, hfirst_mem⟩ :=
        insertSeen_spec acc id hnodup
      obtain ⟨rest, hrest, hnodup₂, hids, hrest_mem⟩ :=
        ih (acc.1 ++ first, acc.2 ++ first) hnodup₁
      refine ⟨first ++ rest, ?_, ?_, ?_, ?_⟩
      · rw [List.foldl_cons, hfirst, hrest]
        simp only [List.append_assoc]
      · rw [← List.append_assoc]
        exact hnodup₂
      · intro x hx
        rw [← List.append_assoc]
        rcases List.mem_cons.mp hx with rfl | hx
        · exact List.mem_append_left _ hid
        · exact hids x hx
      · intro x hx
        rcases List.mem_append.mp hx with hx | hx
        · rw [hfirst_mem x hx]
          exact List.mem_cons_self
        · exact List.mem_cons_of_mem _ (hrest_mem x hx)

/-! ## The channels of a pass -/

/-- A pass has found the identities `new` on top of the set `base`. -/
structure Discovered (m : Marker) (sup : Supervisor) (base : List ProcessId)
    (new : List ProcessId) (s : Sweep) (t : List SweepEvent) : Prop where
  inv : SweepInv m sup new s t
  seen : s.seen = base ++ new
  denied : s.incomplete = false → m.rootDenied = false
  rooted : ∀ root, m.root = some root → root ∈ s.seen

section

variable {m : Marker} {sup : Supervisor}

/-- The snapshot and what it says about the pass. -/
theorem SweepInv.snapshot {s : Sweep} {t : List SweepEvent}
    (h : SweepInv m sup [] s t) (answer : List RawPid × List Edge) :
    SweepInv m sup []
      ((s.markIncomplete answer.1.isEmpty).markIncomplete m.rootDenied)
      (t ++ [⟨.snapshot, answer⟩]) := by
  have hclean : ((s.markIncomplete answer.1.isEmpty).markIncomplete
      m.rootDenied).incomplete = false →
      s.incomplete = false ∧ Clean ⟨.snapshot, answer⟩ := by
    intro hincomplete
    simp only [Sweep.markIncomplete, Bool.or_eq_false_iff] at hincomplete
    obtain ⟨⟨hold, hblind⟩, _⟩ := hincomplete
    exact ⟨hold, by simpa [Clean] using hblind⟩
  exact h.observe ⟨.snapshot, answer⟩ rfl rfl rfl rfl hclean
    (fun hr => ⟨hr, trivial⟩)

/-- The set after the root and the identities `ids` of the walk. -/
theorem collect_spec (root : ProcessId) (ids seen : List ProcessId)
    (hnodup : seen.Nodup) :
    ∃ added, ids.foldl insertSeen (insertSeen (seen, []) root) =
        (seen ++ added, added) ∧ (seen ++ added).Nodup ∧
      root ∈ seen ++ added ∧ (∀ id ∈ ids, id ∈ seen ++ added) ∧
      ∀ id ∈ added, id ∈ root :: ids := by
  obtain ⟨added, hadded, hnodup', hall, hknown⟩ :=
    foldl_insertSeen_spec (root :: ids) (seen, []) hnodup
  rw [List.foldl_cons, List.nil_append] at hadded
  have hroot : root ∈ seen ++ added := hall root List.mem_cons_self
  have hids : ∀ id ∈ ids, id ∈ seen ++ added :=
    fun id hid => hall id (List.mem_cons_of_mem _ hid)
  exact ⟨added, hadded, hnodup', hroot, hids, hknown⟩

theorem walkChannel_spec {s : Sweep} {t : List SweepEvent}
    (h : SweepInv m sup [] s t)
    (hdenied : s.incomplete = false → m.rootDenied = false) (blind : Bool)
    (parents : List Edge) :
    (m.walkChannel blind parents s).Ensures t fun r t' =>
      Discovered m sup s.seen r.1 r.2 t' := by
  unfold Marker.walkChannel
  cases hroot : m.root with
  | none =>
      exact
        { inv := h
          seen := by simp
          denied := hdenied
          rooted := fun root hr => by
            rw [hroot] at hr
            cases hr }
  | some root =>
      have hrooted : ∀ seen : List ProcessId, root ∈ seen →
          ∀ root', m.root = some root' → root' ∈ seen := by
        intro seen hin root' hr
        rw [hroot] at hr
        exact Option.some.inj hr ▸ hin
      dsimp only
      cases blind with
      | true =>
          obtain ⟨added, hadded, hnodup, hin, _, hknown⟩ :=
            collect_spec root [] s.seen h.nodup
          rw [List.foldl_nil] at hadded
          show Discovered m sup s.seen (insertSeen (s.seen, []) root).2
            { s with seen := (insertSeen (s.seen, []) root).1 } t
          rw [hadded]
          have hroot_only : ∀ id ∈ added, id ∈ m.root.toList := by
            rw [hroot]
            exact hknown
          exact
            { inv := h.quiet added rfl hnodup hroot_only (fun hi => hi) rfl
              seen := rfl
              denied := hdenied
              rooted := hrooted _ hin }
      | false =>
          intro start
          obtain ⟨added, hadded, hnodup, hin, hids, hknown⟩ :=
            collect_spec root (descendantsWith root true
              (resolveOrDrop start) parents) s.seen h.nodup
          show Discovered m sup s.seen
            ((descendantsWith root true (resolveOrDrop start)
              parents).foldl insertSeen (insertSeen (s.seen, []) root)).2
            { s with seen := ((descendantsWith root true
              (resolveOrDrop start) parents).foldl insertSeen
                (insertSeen (s.seen, []) root)).1 }
            (t ++ [⟨.walk root parents, start⟩])
          rw [hadded]
          have hfound : ∀ id ∈ added, id ∈ m.root.toList ++
              foundBy ⟨.walk root parents, start⟩ := by
            rw [hroot]
            exact hknown
          exact
            { inv := h.discover ⟨.walk root parents, start⟩ added rfl rfl rfl
                hnodup hids hfound (fun hi => ⟨hi, trivial⟩)
                (fun hr => ⟨hr, trivial⟩)
              seen := rfl
              denied := hdenied
              rooted := hrooted _ hin }

/-- An event that turns nothing up, and what it does to the flags. -/
theorem Discovered.observe {base new : List ProcessId} {s s' : Sweep}
    {t : List SweepEvent} (h : Discovered m sup base new s t)
    (e : SweepEvent) (hattempt : attemptBy e = []) (hkill : killBy e = [])
    (hfound : foundBy e = []) (hseen : s'.seen = s.seen)
    (hclean : s'.incomplete = false → s.incomplete = false ∧ Clean e)
    (hgroup : s'.groupResult = .ok () → s.groupResult = .ok () ∧ GroupOk e) :
    Discovered m sup base new s' (t ++ [e]) where
  inv := h.inv.observe e hattempt hkill hfound hseen hclean hgroup
  seen := hseen.trans h.seen
  denied := fun hi => h.denied (hclean hi).1
  rooted := fun root hr => hseen ▸ h.rooted root hr

/-- An event without bearing on the invariant. -/
theorem Discovered.neutral {base new : List ProcessId} {s : Sweep}
    {t : List SweepEvent} (h : Discovered m sup base new s t)
    (e : SweepEvent) (hattempt : attemptBy e = []) (hkill : killBy e = [])
    (hfound : foundBy e = []) (hclean : Clean e) (hgroup : GroupOk e) :
    Discovered m sup base new s (t ++ [e]) :=
  h.observe e hattempt hkill hfound rfl (fun hi => ⟨hi, hclean⟩)
    (fun hr => ⟨hr, hgroup⟩)

/-- One holder: an identity keeps the pid it was asked for. -/
theorem holderVisit_spec {base newWalk : List ProcessId}
    {acc : List ProcessId × Sweep} {t : List SweepEvent}
    (h : Discovered m sup base (newWalk ++ acc.1) acc.2 t)
    (hsignalable : ∀ id ∈ acc.1, isSignalable sup id.pid = true)
    (pid : RawPid) :
    (holderVisit sup acc pid).Ensures t fun r t' =>
      Discovered m sup base (newWalk ++ r.1) r.2 t' ∧
        ∀ id ∈ r.1, isSignalable sup id.pid = true := by
  obtain ⟨new, s⟩ := acc
  unfold holderVisit
  dsimp only at h hsignalable ⊢
  by_cases hpid : isSignalable sup pid = true
  · rw [if_neg (by simp [hpid])]
    intro start
    cases start with
    | gone =>
        exact ⟨h.neutral ⟨.identity pid, .gone⟩ rfl rfl rfl (by simp [Clean])
          trivial, hsignalable⟩
    | unknown =>
        have hgap : Discovered m sup base (newWalk ++ new)
            (s.markIncomplete true) (t ++ [⟨.identity pid, .unknown⟩]) :=
          h.observe ⟨.identity pid, .unknown⟩ rfl rfl rfl rfl
            (fun hi => by simp [Sweep.markIncomplete] at hi)
            (fun hr => ⟨hr, trivial⟩)
        exact ⟨hgap, hsignalable⟩
    | found token =>
        obtain ⟨added, hadded, hnodup, hin, honly⟩ :=
          insertSeen_spec (s.seen, new) ⟨pid, token⟩ h.inv.nodup
        show Discovered m sup base
            (newWalk ++ (insertSeen (s.seen, new) ⟨pid, token⟩).2)
            { s with seen := (insertSeen (s.seen, new) ⟨pid, token⟩).1 }
            (t ++ [⟨.identity pid, .found token⟩]) ∧
          ∀ id ∈ (insertSeen (s.seen, new) ⟨pid, token⟩).2,
            isSignalable sup id.pid = true
        rw [hadded]
        have hknown : ∀ id ∈ added, id ∈ m.root.toList ++ foundBy
            ⟨.identity pid, .found token⟩ := by
          intro id hid
          rw [honly id hid]
          exact List.mem_append_right _ List.mem_cons_self
        constructor
        · have hinv : SweepInv m sup ((newWalk ++ new) ++ added)
              { s with seen := s.seen ++ added }
              (t ++ [⟨.identity pid, .found token⟩]) :=
            h.inv.discover ⟨.identity pid, .found token⟩ added rfl rfl rfl
              hnodup (by simpa [foundBy] using hin) hknown
              (fun hi => ⟨hi, by simp [Clean]⟩) (fun hr => ⟨hr, trivial⟩)
          rw [List.append_assoc] at hinv
          exact
            { inv := hinv
              seen := by
                show s.seen ++ added = _
                rw [h.seen]
                simp only [List.append_assoc]
              denied := h.denied
              rooted := fun root hr =>
                List.mem_append_left _ (h.rooted root hr) }
        · intro id hid
          rcases List.mem_append.mp hid with hid | hid
          · exact hsignalable id hid
          · rw [honly id hid]
            exact hpid
  · rw [if_pos (by simpa using hpid)]
    exact ⟨h, hsignalable⟩

theorem anyLiveGroupMember_spec {base new : List ProcessId} {s : Sweep}
    (pgid : Int32) (holders : List RawPid) :
    ∀ {t : List SweepEvent}, Discovered m sup base new s t →
      (anyLiveGroupMember sup pgid holders).Ensures t fun _ t' =>
        Discovered m sup base new s t' := by
  induction holders with
  | nil =>
      intro t h
      exact h
  | cons pid rest ih =>
      intro t h
      unfold anyLiveGroupMember
      split
      · exact ih h
      · intro group
        have hnext := h.neutral ⟨.getpgid pid, group⟩ rfl rfl rfl trivial
          trivial
        show Prog.Ensures (if group == some pgid then pure true
          else anyLiveGroupMember sup pgid rest) _ _
        split
        · exact hnext
        · exact ih hnext

theorem confirmsPgid_spec {base new : List ProcessId} {s : Sweep}
    {t : List SweepEvent} (h : Discovered m sup base new s t) (blind : Bool)
    (holders : List RawPid) :
    (m.confirmsPgid sup blind holders).Ensures t fun _ t' =>
      Discovered m sup base new s t' := by
  unfold Marker.confirmsPgid
  split
  · exact h
  · split
    · exact h
    · next pgid _ => exact anyLiveGroupMember_spec pgid holders h

/-- The folded result is `Ok` only where both results are. -/
theorem foldGroupResult_ok {earlier latest : Except Error Unit}
    (h : foldGroupResult sup earlier latest = .ok ()) :
    earlier = .ok () ∧ latest = .ok () := by
  unfold foldGroupResult at h
  split at h
  · exact ⟨rfl, h⟩
  · cases h
  · cases h

/-- A group signal: `Ok` stays only where every signal returned it. -/
theorem groupChannel_spec {base new : List ProcessId} {s : Sweep}
    {t : List SweepEvent} (h : Discovered m sup base new s t)
    (signal : Signal) (blind firstPass : Bool) (holders : List RawPid) :
    (m.groupChannel sup signal blind firstPass holders s).Ensures t
      fun s' t' => Discovered m sup base new s' t' := by
  unfold Marker.groupChannel
  apply Prog.Ensures.bind (confirmsPgid_spec h blind holders)
  intro confirmed t' h'
  split
  · unfold Marker.signalOwnGroup
    cases m.pgid with
    | none =>
        show Discovered m sup base new
          { s with groupResult := foldGroupResult sup s.groupResult (.ok ()) }
          t'
        have hsame : foldGroupResult sup s.groupResult (.ok ()) =
            s.groupResult := by
          cases s.groupResult <;> rfl
        rw [hsame]
        exact h'
    | some pgid =>
        intro result
        show Discovered m sup base new
          { s with groupResult := foldGroupResult sup s.groupResult result }
          (t' ++ [⟨.signalGroup pgid signal, result⟩])
        exact h'.observe ⟨.signalGroup pgid signal, result⟩ rfl rfl rfl rfl
          (fun hi => ⟨hi, trivial⟩) foldGroupResult_ok
  · exact h'

end

end Cosca.Ports.FdMarkerPass
