import Cosca.Ports.PipeFds

/-!
# Who holds a pipe

A scan for the holders of a marker is a series of calls.  Between two of them
anybody may open and close descriptors, fork, exec and exit, so what a scan says
is so at some of the instants of it.

## Main results

* `holders_found`: who is listed has held the marker, and who is not listed has
  not held it all along on any one descriptor.
* `marker_queried`: the same of the question about one holder.
-/

namespace Cosca.Ports.PipeFds

open Cosca.Ports.Identity (RawPid)
open Cosca.Ports.FdMarker (MarkerQuery)
open Cosca.Verified.Interact

/-! ## A host that goes on -/

/-- The host, on which anything may happen between two calls. -/
def busy : Environment PipeCall.Reply Kernel where
  serves k c a k' := k.serves c a ∧ k' = k
  moves _ _ := True

/-- A host and the hosts that it has been. -/
abbrev Recorded := Kernel × List Kernel

/-- It was so at some instant. -/
def Once (cond : Kernel → Prop) (s : Recorded) : Prop :=
  ∃ k ∈ s.2, cond k

/-- What is still so when more has happened. -/
def Persists (cond : Recorded → Prop) : Prop :=
  ∀ s s' : Recorded, s'.2 = s'.1 :: s.2 → cond s → cond s'

section Persists

variable {cond : Recorded → Prop} {s s' : Recorded} {c : PipeCall}
  {a : c.Reply}

theorem Persists.stable (h : Persists cond) : busy.recording.Stable cond :=
  fun s s' hmove hs => h s s' hmove.2 hs

theorem Persists.serves (h : Persists cond)
    (hserves : busy.recording.serves s c a s') (hs : cond s) : cond s' :=
  h s s' hserves.2 hs

theorem persists_once (cond : Kernel → Prop) : Persists (Once cond) := by
  rintro s s' hpath ⟨k, hk, hcond⟩
  exact ⟨k, hpath ▸ List.mem_cons_of_mem _ hk, hcond⟩

theorem Persists.and {cond' : Recorded → Prop} (h : Persists cond)
    (h' : Persists cond') : Persists fun s => cond s ∧ cond' s :=
  fun s s' hpath hs => ⟨h s s' hpath hs.1, h' s s' hpath hs.2⟩

theorem answers_recording : Answers busy.recording Prod.fst :=
  fun _ _ _ _ h => h.1.1

theorem once_of_serves {cond : Kernel → Prop}
    (hserves : busy.recording.serves s c a s') (hcond : cond s.1) :
    Once cond s' := by
  refine ⟨s.1, ?_, hcond⟩
  rw [hserves.2, hserves.1.2]
  exact List.mem_cons_self

theorem fdPipeInfo_once (h : Persists cond) (pid : RawPid) (fd : Int32) :
    (fdPipeInfo pid fd).Guarantees busy.recording cond
      fun q s => cond s ∧ Once (fun k => k.TellsFd pid fd q) s :=
  fdPipeInfo_guarantees answers_recording h.stable
    (fun _ => (h.and (persists_once _)).stable)
    fun _ _ _ _ _ hserves htells hs =>
      ⟨h.serves hserves hs, once_of_serves hserves htells⟩

theorem pipeFdsOf_once (h : Persists cond) (pid : RawPid) :
    (pipeFdsOf pid).Guarantees busy.recording cond
      fun q s => cond s ∧ Once (fun k => k.Tells pid q) s :=
  pipeFdsOf_guarantees answers_recording h.stable
    (fun _ => (h.and (persists_once _)).stable)
    (fun _ _ _ _ hserves hs => h.serves hserves hs)
    fun _ _ _ _ _ hserves htells hs =>
      ⟨h.serves hserves hs, once_of_serves hserves htells⟩

end Persists

theorem Once.imp {cond cond' : Kernel → Prop} {s : Recorded}
    (h : Once cond s) (himp : ∀ k, cond k → cond' k) : Once cond' s := by
  obtain ⟨k, hk, hcond⟩ := h
  exact ⟨k, hk, himp k hcond⟩

/-! ## The copies of a process -/

section Copies

variable {handle : UInt64} {pid : RawPid}

/-- The process does not hold the pipe on this descriptor, or cannot be asked
about. -/
def Unheld (handle : UInt64) (pid : RawPid) (fd : Int32) (k : Kernel) : Prop :=
  ¬ (k.Holds pid fd handle ∧ k.Plain pid)

/-- Nor does it keep it. -/
def Unkept (handle : UInt64) (pid : RawPid) (fd : Int32) (k : Kernel) : Prop :=
  ¬ (k.Keeps pid fd handle ∧ k.Plain pid)

theorem Unheld.unkept {fd : Int32} {k : Kernel} (h : Unheld handle pid fd k) :
    Unkept handle pid fd k := by
  rintro ⟨⟨e, hat, hhandle, _⟩, hplain⟩
  exact h ⟨⟨e, hat, hhandle⟩, hplain⟩

theorem unheld_of_none {fd : Int32} {k : Kernel}
    (h : k.pipeAt pid fd = none) : Unheld handle pid fd k := by
  rintro ⟨⟨e, hat, _⟩, _⟩
  exact absurd (hat.symm.trans h) (Option.some_ne_none e)

theorem unheld_of_not_plain {fd : Int32} {k : Kernel} (h : ¬ k.Plain pid) :
    Unheld handle pid fd k :=
  fun hk => h hk.2

/-- What the copies say that were found on the descriptors visited. -/
structure Visited (handle : UInt64) (pid : RawPid) (todo : List Int32)
    (copies : Copies) (s : Recorded) : Prop where
  found : copies.found = true →
    Once (fun k => ∃ fd, k.Holds pid fd handle) s
  missed : copies.found = false → ∀ fd, fd ∉ todo →
    Once (Unheld handle pid fd) s
  losing : copies.allClexec = true → ∀ fd, fd ∉ todo →
    Once (Unkept handle pid fd) s
  kept : copies.allClexec = false →
    Once (fun k => ∃ fd, k.Keeps pid fd handle) s

theorem persists_visited (todo : List Int32) (copies : Copies) :
    Persists (Visited handle pid todo copies) := by
  intro s s' hpath hs
  exact ⟨fun h => persists_once _ s s' hpath (hs.found h),
    fun h fd hfd => persists_once _ s s' hpath (hs.missed h fd hfd),
    fun h fd hfd => persists_once _ s s' hpath (hs.losing h fd hfd),
    fun h => persists_once _ s s' hpath (hs.kept h)⟩

/-- A descriptor on which the pipe is not found. -/
theorem Visited.skip {todo : List Int32} {copies : Copies} {fd : Int32}
    {s : Recorded} (h : Visited handle pid (fd :: todo) copies s)
    (hunheld : Once (Unheld handle pid fd) s) :
    Visited handle pid todo copies s := by
  refine ⟨h.found, fun hfound fd' hfd' => ?_, fun hall fd' hfd' => ?_, h.kept⟩
  · by_cases heq : fd' = fd
    · exact heq ▸ hunheld
    · exact h.missed hfound fd' (List.not_mem_cons_of_ne_of_not_mem heq hfd')
  · by_cases heq : fd' = fd
    · exact heq ▸ hunheld.imp fun k => Unheld.unkept
    · exact h.losing hall fd' (List.not_mem_cons_of_ne_of_not_mem heq hfd')

/-- A descriptor on which it is found. -/
theorem Visited.take {todo : List Int32} {copies : Copies} {fd : Int32}
    {s : Recorded} {clexec : Bool}
    (h : Visited handle pid (fd :: todo) copies s)
    (hfound : Once (fun k => ∃ e, k.pipeAt pid fd = some e ∧
      e.handle = handle ∧ clexec = e.cloexec) s) :
    Visited handle pid todo ⟨true, copies.allClexec && clexec⟩ s := by
  refine ⟨fun _ => hfound.imp ?_, fun hnone => absurd hnone.symm
    Bool.false_ne_true, fun hall fd' hfd' => ?_, fun hsome => ?_⟩
  · exact fun k ⟨e, hat, hhandle, _⟩ => ⟨fd, e, hat, hhandle⟩
  · obtain ⟨hrest, hclexec⟩ := Bool.and_eq_true_iff.mp hall
    by_cases heq : fd' = fd
    · refine hfound.imp ?_
      rintro k ⟨e, hat, _, hcloexec⟩ ⟨⟨e', hat', _, hopen⟩, _⟩
      rw [heq] at hat'
      cases Option.some.inj (hat.symm.trans hat')
      exact Bool.false_ne_true ((hopen.symm.trans hcloexec.symm).trans hclexec)
    · exact h.losing hrest fd' (List.not_mem_cons_of_ne_of_not_mem heq hfd')
  · cases hrest : copies.allClexec with
    | false => exact h.kept hrest
    | true =>
        rw [hrest, Bool.true_and] at hsome
        refine hfound.imp fun k ⟨e, hat, hhandle, hcloexec⟩ => ?_
        exact ⟨fd, e, hat, hhandle, hcloexec.symm.trans hsome⟩

theorem visitFd_visits {frame : Recorded → Prop} (hframe : Persists frame)
    (fd : Int32) (todo : List Int32) (copies : Copies) :
    (visitFd handle pid copies fd).Guarantees busy.recording
      (fun s => frame s ∧ Visited handle pid (fd :: todo) copies s)
      fun copies s => frame s ∧ Visited handle pid todo copies s := by
  have hvisited : Persists (Visited handle pid (fd :: todo) copies) :=
    persists_visited (fd :: todo) copies
  have hstart := hframe.and hvisited
  refine (fdPipeInfo_once hstart pid fd).bind _ fun info => ?_
  have hstable := (hstart.and
    (persists_once fun k => k.TellsFd pid fd info)).stable
  cases info with
  | absent =>
      exact .pure hstable fun s hs => ⟨hs.1.1, hs.1.2.skip
        (hs.2.imp fun k hk => unheld_of_none hk)⟩
  | denied =>
      exact .pure hstable fun s hs => ⟨hs.1.1, hs.1.2.skip
        (hs.2.imp fun k hk => unheld_of_not_plain hk)⟩
  | found info =>
      refine .pure hstable fun s hs => ⟨hs.1.1, ?_⟩
      by_cases hhandle : info.pipeHandle = handle
      · simp only [hhandle, ne_eq, not_true, if_false]
        refine hs.1.2.take (hs.2.imp fun k ⟨e, hat, hsame, _, hclexec⟩ => ?_)
        exact ⟨e, hat, hsame.symm.trans hhandle, hclexec⟩
      · simp only [hhandle, ne_eq, not_false_eq_true, if_true]
        refine hs.1.2.skip (hs.2.imp fun k ⟨e, hat, hsame, _⟩ => ?_)
        rintro ⟨⟨e', hat', hother⟩, _⟩
        cases Option.some.inj (hat.symm.trans hat')
        exact hhandle (hsame.trans hother)

/-- Nothing is known before the first descriptor, but what is no pipe. -/
theorem visited_start {fds : List Int32} {s : Recorded}
    (h : Once (fun k => k.Tells pid (.found fds)) s) :
    Visited handle pid fds ⟨false, true⟩ s := by
  have hunheld : ∀ fd, fd ∉ fds → Once (Unheld handle pid fd) s := by
    intro fd hfd
    refine h.imp fun k ⟨p, hp, hfds⟩ => unheld_of_none ?_
    have hnone : p.pipe fd = none :=
      Option.not_isSome_iff_eq_none.mp fun hpipe => hfd ((hfds fd).mpr hpipe)
    rw [Kernel.pipeAt, hp, Option.bind_some, hnone]
  exact ⟨fun hfound => absurd hfound Bool.false_ne_true,
    fun _ fd hfd => hunheld fd hfd,
    fun _ fd hfd => (hunheld fd hfd).imp fun k => Unheld.unkept,
    fun hnone => absurd hnone.symm Bool.false_ne_true⟩

end Copies

/-! ## All holders -/

/-- What a list of holders says of the processes that were asked about, from the
instants of the scan. -/
structure Found (handle : UInt64) (pids : List RawPid) (todo : List RawPid)
    (out : List Holder) (s : Recorded) : Prop where
  /-- Who is listed has held the pipe. -/
  held : ∀ h ∈ out, Once (fun k => ∃ fd, k.Holds h.pid fd handle) s
  /-- Who is not listed has not held it all along on any one descriptor. -/
  missed : ∀ pid ∈ pids, pid ∉ todo → (∀ h ∈ out, h.pid ≠ pid) →
    ∀ fd, Once (Unheld handle pid fd) s
  /-- Who is to lose it has not kept it all along on any one descriptor. -/
  losing : ∀ h ∈ out, h.clexec = true → ∀ fd,
    Once (Unkept handle h.pid fd) s
  /-- Who is not to lose it has kept it. -/
  kept : ∀ h ∈ out, h.clexec = false →
    Once (fun k => ∃ fd, k.Keeps h.pid fd handle) s
  /-- Nobody is listed twice who was not asked about twice. -/
  order : (out.map (·.pid) ++ todo).Sublist pids

section Holders

variable {handle : UInt64} {pids todo : List RawPid} {pid : RawPid}
  {out : List Holder} {s : Recorded}

theorem persists_found : Persists (Found handle pids todo out) := by
  intro s s' hpath hs
  exact ⟨fun h hh => persists_once _ s s' hpath (hs.held h hh),
    fun pid hpid htodo hnone fd =>
      persists_once _ s s' hpath (hs.missed pid hpid htodo hnone fd),
    fun h hh hclexec fd =>
      persists_once _ s s' hpath (hs.losing h hh hclexec fd),
    fun h hh hclexec => persists_once _ s s' hpath (hs.kept h hh hclexec),
    hs.order⟩

/-- A process that is not listed. -/
theorem Found.skip (h : Found handle pids (pid :: todo) out s)
    (hunheld : ∀ fd, Once (Unheld handle pid fd) s) :
    Found handle pids todo out s := by
  refine ⟨h.held, fun pid' hpid' htodo hnone fd => ?_, h.losing, h.kept, ?_⟩
  · by_cases heq : pid' = pid
    · exact heq ▸ hunheld fd
    · exact h.missed pid' hpid' (List.not_mem_cons_of_ne_of_not_mem heq htodo)
        hnone fd
  · refine List.Sublist.trans ?_ h.order
    exact (List.sublist_cons_self pid todo).append_left _

/-- A process that is listed. -/
theorem Found.list {clexec : Bool} (h : Found handle pids (pid :: todo) out s)
    (hvisited : Visited handle pid [] ⟨true, clexec⟩ s) :
    Found handle pids todo (out ++ [⟨pid, clexec⟩]) s := by
  have hlast : ∀ h ∈ out ++ [⟨pid, clexec⟩], h ∈ out ∨ h = ⟨pid, clexec⟩ := by
    intro h hh
    simpa using hh
  refine ⟨fun h' hh' => ?_, fun pid' hpid' htodo hnone fd => ?_,
    fun h' hh' hclexec fd => ?_, fun h' hh' hclexec => ?_, ?_⟩
  · obtain hold | rfl := hlast h' hh'
    · exact h.held h' hold
    · exact hvisited.found rfl
  · have hne : pid' ≠ pid :=
      fun heq => hnone ⟨pid, clexec⟩ (by simp) heq.symm
    exact h.missed pid' hpid' (List.not_mem_cons_of_ne_of_not_mem hne htodo)
      (fun h' hh' => hnone h' (List.mem_append_left _ hh')) fd
  · obtain hold | rfl := hlast h' hh'
    · exact h.losing h' hold hclexec fd
    · exact hvisited.losing hclexec fd List.not_mem_nil
  · obtain hold | rfl := hlast h' hh'
    · exact h.kept h' hold hclexec
    · exact hvisited.kept hclexec
  · simpa using h.order

theorem visitPid_finds :
    (visitPid handle out pid).Guarantees busy.recording
      (Found handle pids (pid :: todo) out) (Found handle pids todo) := by
  refine (pipeFdsOf_once persists_found pid).bind _ fun fds => ?_
  have hpersists : Persists fun s => Found handle pids (pid :: todo) out s ∧
      Once (fun k => k.Tells pid fds) s :=
    persists_found.and (persists_once _)
  cases fds with
  | gone =>
      refine .pure hpersists.stable fun s hs => hs.1.skip fun fd => ?_
      refine hs.2.imp fun k hgone => unheld_of_none ?_
      have htable : k.table pid = none := hgone
      rw [Kernel.pipeAt, htable, Option.bind_none]
  | denied =>
      exact .pure hpersists.stable fun s hs => hs.1.skip fun fd =>
        hs.2.imp fun k hk => unheld_of_not_plain hk
  | found fds =>
      have hloop : (fds.foldlM (visitFd handle pid) ⟨false, true⟩).Guarantees
          busy.recording (fun s => Found handle pids (pid :: todo) out s ∧
            Visited handle pid fds ⟨false, true⟩ s)
          fun copies s => Found handle pids (pid :: todo) out s ∧
            Visited handle pid [] copies s :=
        Prog.Guarantees.foldlM
          (fun fds copies s => Found handle pids (pid :: todo) out s ∧
            Visited handle pid fds copies s)
          (fun copies =>
            (persists_found.and (persists_visited [] copies)).stable)
          (fun fd fds copies => visitFd_visits persists_found fd fds copies) _ _
      refine (hloop.conseq (fun s hs => ⟨hs.1, visited_start hs.2⟩)
        fun _ _ h => h).bind _ fun copies => ?_
      refine .pure (persists_found.and (persists_visited [] copies)).stable
        fun s hs => ?_
      obtain ⟨found, allClexec⟩ := copies
      cases found with
      | false => exact hs.1.skip fun fd => hs.2.missed rfl fd List.not_mem_nil
      | true => exact hs.1.list hs.2

end Holders

/-! ## One holder again -/

section Query

variable {handle : UInt64} {pid : RawPid}

/-- The pipe is not there on this descriptor. -/
def Elsewhere (handle : UInt64) (pid : RawPid) (fd : Int32) (k : Kernel) :
    Prop :=
  ¬ k.Holds pid fd handle

theorem elsewhere_of_none {fd : Int32} {k : Kernel}
    (h : k.pipeAt pid fd = none) : Elsewhere handle pid fd k := by
  rintro ⟨e, hat, _⟩
  exact absurd (hat.symm.trans h) (Option.some_ne_none e)

/-- What `holds_marker_query` says of the instants of the query. -/
def Queried (handle : UInt64) (pid : RawPid) : MarkerQuery → Recorded → Prop
  | .held, s => Once (fun k => ∃ fd, k.Holds pid fd handle) s
  | .notHeld, s => ∀ fd, Once (Elsewhere handle pid fd) s
  | .denied, s => Once (fun k => ¬ k.Plain pid) s

/-- The descriptors before these have been looked at. -/
def Passed (handle : UInt64) (pid : RawPid) (fds : List Int32)
    (s : Recorded) : Prop :=
  ∀ fd, fd ∉ fds → Once (Elsewhere handle pid fd) s

theorem persists_passed (fds : List Int32) :
    Persists (Passed handle pid fds) :=
  fun s s' hpath hs fd hfd => persists_once _ s s' hpath (hs fd hfd)

theorem Passed.skip {fd : Int32} {fds : List Int32} {s : Recorded}
    (h : Passed handle pid (fd :: fds) s)
    (hfd : Once (Elsewhere handle pid fd) s) : Passed handle pid fds s := by
  intro fd' hfd'
  by_cases heq : fd' = fd
  · exact heq ▸ hfd
  · exact h fd' (List.not_mem_cons_of_ne_of_not_mem heq hfd')

theorem holdsOn_queried (fds : List Int32) :
    (holdsOn pid handle fds).Guarantees busy.recording
      (Passed handle pid fds) (Queried handle pid) := by
  induction fds with
  | nil =>
      exact .pure (persists_passed []).stable
        fun s hs fd => hs fd List.not_mem_nil
  | cons fd fds ih =>
      refine (fdPipeInfo_once (persists_passed (fd :: fds)) pid fd).bind _
        fun info => ?_
      have hpersists : Persists fun s => Passed handle pid (fd :: fds) s ∧
          Once (fun k => k.TellsFd pid fd info) s :=
        (persists_passed _).and (persists_once _)
      cases info with
      | absent =>
          exact ih.conseq (fun s hs => hs.1.skip (hs.2.imp fun k hk =>
            elsewhere_of_none hk)) fun _ _ h => h
      | denied => exact .pure hpersists.stable fun s hs => hs.2
      | found info =>
          dsimp only
          by_cases hhandle : info.pipeHandle = handle
          · rw [if_pos hhandle]
            refine .pure hpersists.stable fun s hs => ?_
            exact hs.2.imp fun k ⟨e, hat, hsame, _⟩ =>
              ⟨fd, e, hat, hsame.symm.trans hhandle⟩
          · rw [if_neg hhandle]
            refine ih.conseq (fun s hs => hs.1.skip (hs.2.imp ?_))
              fun _ _ h => h
            rintro k ⟨e, hat, hsame, _⟩ ⟨e', hat', hother⟩
            cases Option.some.inj (hat.symm.trans hat')
            exact hhandle (hsame.trans hother)

theorem holdsMarkerQuery_queried :
    (holdsMarkerQuery pid handle).Guarantees busy.recording (fun _ => True)
      (Queried handle pid) := by
  have htrue : Persists fun _ => True := fun _ _ _ _ => trivial
  refine (pipeFdsOf_once htrue pid).bind _ fun fds => ?_
  have hpersists : Persists fun s => True ∧ Once (fun k => k.Tells pid fds) s :=
    htrue.and (persists_once _)
  cases fds with
  | gone =>
      refine .pure hpersists.stable fun s hs fd => ?_
      refine hs.2.imp fun k hgone => elsewhere_of_none ?_
      have htable : k.table pid = none := hgone
      rw [Kernel.pipeAt, htable, Option.bind_none]
  | denied => exact .pure hpersists.stable fun s hs => hs.2
  | found fds =>
      refine (holdsOn_queried fds).conseq (fun s hs fd hfd => ?_)
        fun _ _ h => h
      refine hs.2.imp fun k hfound => elsewhere_of_none ?_
      obtain ⟨p, hp, hfds⟩ := hfound
      have hnone : p.pipe fd = none :=
        Option.not_isSome_iff_eq_none.mp fun hpipe => hfd ((hfds fd).mpr hpipe)
      rw [Kernel.pipeAt, hp, Option.bind_some, hnone]

/-- The question about one holder, over every run of it on a host that goes
on. -/
theorem marker_queried (k k' : Kernel) (path : List Kernel) (r : MarkerQuery)
    (h : (holdsMarkerQuery pid handle).RunsOn busy.recording (k, [k]) r
      (k', path)) : Queried handle pid r (k', path) :=
  holdsMarkerQuery_queried _ _ _ h trivial

end Query

/-- The holders of a marker, over every scan of a host that goes on. -/
theorem holders_found (handle : UInt64) (pids : List RawPid)
    (k k' : Kernel) (path : List Kernel) (r : List Holder)
    (h : (holders handle pids).RunsOn busy.recording (k, [k]) r (k', path)) :
    Found handle pids [] r (k', path) := by
  have hloop : (holders handle pids).Guarantees busy.recording
      (Found handle pids pids []) (Found handle pids []) :=
    Prog.Guarantees.foldlM (Found handle pids)
      (fun out => persists_found.stable)
      (fun pid todo out => visitPid_finds) pids []
  refine hloop _ _ _ h ⟨fun h hh => absurd hh List.not_mem_nil,
    fun pid hpid htodo => absurd hpid htodo,
    fun h hh => absurd hh List.not_mem_nil,
    fun h hh => absurd hh List.not_mem_nil, ?_⟩
  exact List.Sublist.refl pids

/-! ## A scan -/

/-- A process that holds the pipe 5 on descriptor 4. -/
def sampleProcess (allowed : Bool) : Process where
  numbers := [4]
  pipe := fun fd => if fd = 4 then some ⟨5, 6, false⟩ else none
  slots := 1
  allowed := allowed
  numbered := by
    intro fd hpipe
    split at hpipe
    · next heq => exact heq ▸ List.mem_cons_self
    · cases hpipe
  room := Nat.le_refl 1

/-- A host with two such processes, of which the second may be gone, and with a
third that may not be asked about. -/
def sampleKernel (alive : Bool) : Kernel where
  table := fun pid =>
    if pid = 7 then some (sampleProcess true)
    else if pid = 8 then if alive then some (sampleProcess true) else none
    else if pid = 9 then some (sampleProcess false)
    else none

theorem sample_lists : (sampleProcess true).Lists 136 ⟨8, 0⟩
    [⟨4, proxFdtypePipe⟩] where
  order := ⟨[4], List.Perm.refl _, rfl⟩
  types := by
    intro f hf
    cases List.mem_singleton.mp hf
    exact ⟨fun _ => rfl, fun _ => rfl⟩
  value := rfl
  errno := rfl

section Sample

variable {k k' : Kernel} {pid : RawPid} {past path : List Kernel}

/-- One call of a recorded run. -/
theorem call_runs {α : Type} {c : PipeCall} {f : c.Reply → Scanning α} {r : α}
    (a : c.Reply) (hserves : k.serves c a)
    (hrest : (f a).RunsOn busy.recording (k, k :: past) r (k', path)) :
    (Prog.ask c f).RunsOn busy.recording (k, past) r (k', path) := by
  have hstep : busy.recording.serves (k, past) c a (k, k :: past) :=
    ⟨⟨hserves, rfl⟩, rfl⟩
  exact .ask a hstep hrest

/-- Something happens on the host. -/
theorem move_runs {α : Type} {p : Scanning α} {r : α} {k₁ : Kernel}
    (hrest : p.RunsOn busy.recording (k₁, k₁ :: past) r (k', path)) :
    p.RunsOn busy.recording (k, past) r (k', path) := by
  have hmove : busy.recording.moves (k, past) (k₁, k₁ :: past) :=
    ⟨trivial, rfl⟩
  exact .move hmove hrest

/-- The descriptors of such a process. -/
theorem sample_listed (hp : k.table pid = some (sampleProcess true)) :
    (pipeFdsOf pid).RunsOn busy.recording (k, past) (.found [4])
      (k, k :: k :: past) := by
  have hsize : k.serves (.sizeOfFds pid) ⟨8, 0⟩ := by
    simp only [Kernel.serves, hp]
    exact ⟨trivial, rfl⟩
  have hlist : k.serves (.procPidinfo pid 136)
      (⟨8, 0⟩, [⟨4, proxFdtypePipe⟩]) := by
    simp only [Kernel.serves, hp]
    exact sample_lists
  refine call_runs (c := .sizeOfFds pid) _ hsize ?_
  have hfill : (fillFrom pid 17 (by decide)).RunsOn busy.recording
      (k, k :: past) (.found [4]) (k, k :: k :: past) := by
    rw [fillFrom]
    split
    · next hnone => exact absurd hnone (by decide)
    · next bytes hbytes =>
        obtain rfl : 136 = bytes := Option.some.inj hbytes
        exact call_runs (c := .procPidinfo pid 136) _ hlist (.done _ _)
  exact hfill

/-- Process 7 is listed, process 8 exits before its descriptor is asked about,
and process 9 may not be asked about. -/
theorem sample_runs : ∃ path, (holders 5 [7, 8, 9]).RunsOn busy.recording
    (sampleKernel true, [sampleKernel true]) [⟨7, false⟩]
    (sampleKernel false, path) := by
  have hinfo : (sampleKernel true).serves (.procPidfdinfo 7 4)
      (⟨184, 0⟩, ⟨0, 5, 6⟩) := ⟨rfl, rfl, rfl, rfl⟩
  have hgone : (sampleKernel false).serves (.procPidfdinfo 8 4)
      (⟨0, esrch⟩, ⟨0, 0, 0⟩) := ⟨by decide, rfl⟩
  have hrefused : (sampleKernel false).serves (.sizeOfFds 9) ⟨0, eperm⟩ :=
    ⟨by decide, rfl⟩
  have hfirst : (visitPid 5 [] 7).RunsOn busy.recording
      (sampleKernel true, [sampleKernel true]) [⟨7, false⟩]
      (sampleKernel true, _) :=
    (sample_listed rfl).bind
      (call_runs (c := .procPidfdinfo 7 4) _ hinfo (.done _ _))
  have hsecond : ∀ past, (visitPid 5 [⟨7, false⟩] 8).RunsOn busy.recording
      (sampleKernel true, past) [⟨7, false⟩] (sampleKernel false, _) :=
    fun past => (sample_listed rfl).bind
      (move_runs (call_runs (c := .procPidfdinfo 8 4) _ hgone (.done _ _)))
  have hthird : ∀ past, (visitPid 5 [⟨7, false⟩] 9).RunsOn busy.recording
      (sampleKernel false, past) [⟨7, false⟩] (sampleKernel false, _) :=
    fun past => call_runs (c := .sizeOfFds 9) _ hrefused (.done _ _)
  exact ⟨_, hfirst.bind ((hsecond _).bind ((hthird _).bind (.done _ _)))⟩

theorem holders_found_sample : ∃ path,
    Found 5 [7, 8, 9] [] [⟨7, false⟩] (sampleKernel false, path) := by
  obtain ⟨path, h⟩ := sample_runs
  exact ⟨path, holders_found 5 [7, 8, 9] _ _ path _ h⟩

/-- Process 8 is asked about while it exits. -/
theorem sample_query_runs : ∃ path, (holdsMarkerQuery 8 5).RunsOn
    busy.recording (sampleKernel true, [sampleKernel true]) .notHeld
    (sampleKernel false, path) := by
  have hgone : (sampleKernel false).serves (.procPidfdinfo 8 4)
      (⟨0, esrch⟩, ⟨0, 0, 0⟩) := ⟨by decide, rfl⟩
  have hholds : ∀ past, (holdsOn 8 5 [4]).RunsOn busy.recording
      (sampleKernel true, past) .notHeld (sampleKernel false, _) :=
    fun past => move_runs
      (call_runs (c := .procPidfdinfo 8 4) _ hgone (.done _ _))
  exact ⟨_, (sample_listed rfl).bind (hholds _)⟩

theorem marker_queried_sample : ∃ path,
    Queried 5 8 .notHeld (sampleKernel false, path) := by
  obtain ⟨path, h⟩ := sample_query_runs
  exact ⟨path, marker_queried _ _ path _ h⟩

end Sample

end Cosca.Ports.PipeFds
