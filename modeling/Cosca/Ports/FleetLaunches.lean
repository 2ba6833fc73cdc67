import Cosca.Ports.SpawnFleet

/-!
# What a child of the fleet is given

What a job has prepared is ready for a launch, so that the launch reaches its
`exec` with the descriptors that were meant for it: the end of its own tree's
marker, and the `cgroup.procs` of all the leaves that are open.

## Main results

* `Owned.given_of_holds` and `Owned.holds_of_given`: what a child holds at its
  `exec` is what it was given.
-/

namespace Cosca.Ports.SpawnFleet

open Cosca.Ports.CommandRecord
open Cosca.Ports.ForkedChild
open Cosca.Verified.Descriptors

/-! ## What a job prepares -/

theorem openLeaf_eq (t : Table File) (k fd : Nat) :
    openLeaf t k fd = t.put fd (some ⟨.procs k, false⟩) := by
  funext n
  by_cases h : n = fd
  · simp [openLeaf, Table.open, Table.setCloexec, h]
  · simp [openLeaf, Table.open, Table.setCloexec, Table.put_ne _ _ h]

/-- Both ends are left, and the number of the write end's first copy is free
again. -/
theorem openMarker_eq {t : Table File} {k readFd writeFd placedFd : Nat}
    (hfree : t writeFd = none)
    (hne : readFd ≠ writeFd ∧ placedFd ≠ readFd ∧ placedFd ≠ writeFd) :
    openMarker t k readFd writeFd placedFd =
      (t.put readFd (some ⟨.markerRead k, true⟩)).put placedFd
        (some ⟨.markerWrite k, true⟩) := by
  obtain ⟨hrw, hpr, hpw⟩ := hne
  funext n
  by_cases hw : n = writeFd
  · have hp : n ≠ placedFd := fun h => hpw (h.symm.trans hw)
    have hr : n ≠ readFd := fun h => hrw (h.symm.trans hw)
    rw [Table.put_ne _ _ hp, Table.put_ne _ _ hr, hw, hfree]
    exact Table.put_self ..
  · simp only [openMarker, Table.close, Table.put_ne _ _ hw, Table.dupCloexec]
    by_cases hp : n = placedFd
    · subst hp
      simp [Table.open]
    · simp only [Table.put_ne _ _ hp, Table.open, Table.put_ne _ _ hw]

/-- A job has what its mode asks for on its platform. -/
structure Job.Sound (os : Os) (job : Job) : Prop where
  leaf : ∀ fd, job.fd .procs = some fd →
    os = .linux ∧ leafWanted job.mode job.isRoot
  marker : ∀ fd, job.fd .write = some fd →
    os = .macos ∧ markerWanted job.mode job.isRoot job.suppressed ∧
      highFloor ≤ fd ∧ fd ∉ job.reserved
  paired : job.done = false →
    (job.fd .read = none ↔ job.fd .write = none)

theorem Job.Sound.begin (os : Os) (mode : Option ContainMode)
    (isRoot suppressed : Bool) (reserved : List Nat) (nodup : reserved.Nodup)
    (above : ∀ fd ∈ reserved, 3 ≤ fd) :
    (Job.begin mode isRoot suppressed reserved nodup above).Sound os :=
  ⟨nofun, nofun, fun _ => ⟨fun _ => rfl, fun _ => rfl⟩⟩

theorem Job.Sound.ownLeaf {os : Os} {job : Job} (h : job.Sound os)
    (hos : os = .linux) (hwanted : leafWanted job.mode job.isRoot) (fd : Nat) :
    (job.own .procs fd).Sound os :=
  ⟨fun _ _ => ⟨hos, hwanted⟩, h.marker, h.paired⟩

theorem Job.Sound.ownMarker {os : Os} {job : Job} (h : job.Sound os)
    (hos : os = .macos)
    (hwanted : markerWanted job.mode job.isRoot job.suppressed)
    {readFd writeFd placedFd : Nat}
    (hplaced : safeMarkerFd writeFd job.reserved ≤ placedFd)
    (hmax : placedFd < rawFdMax) :
    ((job.own .read readFd).own .write placedFd).Sound os := by
  refine ⟨h.leaf, fun fd hfd => ?_, fun _ => ⟨nofun, nofun⟩⟩
  obtain rfl : placedFd = fd := Option.some.inj hfd
  exact ⟨hos, hwanted, Nat.le_trans (le_safeMarkerFd _ _) hplaced,
    safeMarkerFd_clear hplaced hmax⟩

theorem Job.Sound.disown {os : Os} {job : Job} (h : job.Sound os)
    (r : Resource) : (job.disown r).Sound os := by
  refine ⟨fun fd hfd => ?_, fun fd hfd => ?_, nofun⟩
  · simp only [Job.disown] at hfd
    split at hfd
    · exact absurd hfd.symm (Option.some_ne_none _)
    · exact h.leaf fd hfd
  · simp only [Job.disown] at hfd
    split at hfd
    · exact absurd hfd.symm (Option.some_ne_none _)
    · exact h.marker fd hfd

/-- The job leaves its preparation. -/
theorem Job.Sound.finish {os : Os} {job : Job} (h : job.Sound os) :
    Job.Sound os { job with done := true } :=
  ⟨h.leaf, h.marker, nofun⟩

/-! ## What a child is given -/

section Launches

variable {os : Os} {s : Fleet} {k : Nat} {job : Job}
  {stdin stdout stderr : Nat} {mappings : List FdMapping}

/-- A job prepares what its launch then has. -/
theorem Job.Sound.prepared (h : job.Sound os) :
    (job.launch os k stdin stdout stderr mappings).prepared.cgroupLeaf =
        (job.fd .procs).map (⟨k, ·⟩) ∧
      (job.launch os k stdin stdout stderr mappings).prepared.marker =
        (job.fd .read).bind fun readFd =>
          (job.fd .write).map (⟨k, readFd, ·⟩) := by
  apply Launch.prepared_eq
  · intro leaf hleaf
    obtain ⟨fd, hfd, _⟩ := Option.map_eq_some_iff.mp hleaf
    exact h.leaf fd hfd
  · intro m hm
    obtain ⟨readFd, _, hwrite⟩ := Option.bind_eq_some_iff.mp hm
    obtain ⟨fd, hfd, _⟩ := Option.map_eq_some_iff.mp hwrite
    obtain ⟨hos, hwanted, _⟩ := h.marker fd hfd
    exact ⟨hos, hwanted⟩

theorem Job.Sound.cgroupLeaf_iff (h : job.Sound os) {leaf : Leaf} :
    (job.launch os k stdin stdout stderr mappings).prepared.cgroupLeaf =
      some leaf ↔ leaf.seq = k ∧ job.fd .procs = some leaf.procsFd := by
  rw [h.prepared.1, Option.map_eq_some_iff]
  constructor
  · rintro ⟨fd, hfd, rfl⟩
    exact ⟨rfl, hfd⟩
  · rintro ⟨rfl, hfd⟩
    exact ⟨leaf.procsFd, hfd, rfl⟩

theorem Job.Sound.marker_fd (h : job.Sound os) {m : PreparedMarker}
    (hm : (job.launch os k stdin stdout stderr mappings).prepared.marker =
      some m) : job.fd .write = some m.fd := by
  rw [h.prepared.2] at hm
  obtain ⟨readFd, _, hwrite⟩ := Option.bind_eq_some_iff.mp hm
  obtain ⟨fd, hfd, rfl⟩ := Option.map_eq_some_iff.mp hwrite
  exact hfd

/-- The launch of a job meets what its child relies on. -/
theorem Owned.ready (hs : Owned s) (hjob : s.jobs k = some job)
    (hsound : job.Sound os)
    (hreserved : mappings.map (·.childFd) = job.reserved)
    (hstdio : ∀ fd ∈ [stdin, stdout, stderr], 3 ≤ fd ∧ Plain s.sup fd)
    (hparents : ∀ x ∈ mappings, 3 ≤ x.parentFd ∧ Plain s.sup x.parentFd) :
    (job.launch os k stdin stdout stderr mappings).Ready s.sup where
  stdin := (hstdio stdin (by simp)).1
  stdout := (hstdio stdout (by simp)).1
  stderr := (hstdio stderr (by simp)).1
  nodup := by
    have hnodup := job.nodup
    rw [← hreserved] at hnodup
    exact hnodup
  child := by
    intro x hx
    apply job.above
    rw [← hreserved]
    exact List.mem_map_of_mem hx
  parent := by
    intro x hx
    obtain ⟨hge, id, cloexec, hid⟩ := hparents x hx
    refine ⟨hge, ?_⟩
    rw [hid]
    exact Option.some_ne_none _
  leaf := by
    intro leaf hleaf
    obtain ⟨rfl, hfd⟩ := hsound.cgroupLeaf_iff.mp hleaf
    have hopen := hs.opened _ job .procs leaf.procsFd hjob hfd
    refine ⟨Nat.le_of_not_lt fun hlt => ?_, hopen, fun x hx heq => ?_⟩
    · exact (hs.stdio _ hlt).ne_file hopen .procs _ rfl
    · exact (heq ▸ (hparents x hx).2).ne_file hopen .procs _ rfl
  marker := by
    intro m hm
    obtain ⟨_, _, hfloor, hclear⟩ := hsound.marker m.fd (hsound.marker_fd hm)
    refine ⟨hfloor, ?_⟩
    show m.fd ∉ mappings.map (·.childFd)
    rw [hreserved]
    exact hclear

theorem kept_file {t : Table File} {fd : Nat} {e : Entry File}
    (h : Launch.kept t fd = some e) :
    ∃ e', t fd = some e' ∧ e'.file = e.file := by
  obtain ⟨e', he', rfl⟩ := Option.map_eq_some_iff.mp h
  exact ⟨e', he', rfl⟩

theorem not_reserved {l : Launch} {fd : Nat}
    (h : l.mappings.find? (·.childFd == fd) = none) : fd ∉ l.reserved := by
  intro hmem
  obtain ⟨x, hx, rfl⟩ := List.mem_map.mp hmem
  exact List.find?_eq_none.mp h x hx (beq_self_eq_true _)

/-- Where a descriptor of the containment in the child comes from: it is the
marker, or was inherited with its number. -/
theorem execTable_source {l : Launch} {t : Table File} {r : Resource} {n : Nat}
    (hstdio : ∀ fd ∈ [l.stdin, l.stdout, l.stderr], Plain t fd)
    (hparents : ∀ x ∈ l.mappings, Plain t x.parentFd) {fd : Nat}
    {e : Entry File} (he : l.execTable t fd = some e)
    (hfile : e.file = r.file n) :
    (∃ m, l.prepared.marker = some m ∧ ∃ e', t m.fd = some e' ∧
        e'.file = r.file n) ∨
      (t fd = some e ∧ e.cloexec = false ∧ fd ∉ l.reserved ∧
        ¬ l.prepared.cgroupLeaf.any (·.procsFd == fd)) := by
  have hcopy : ∀ src, Plain t src → Launch.kept t src ≠ some e := by
    intro src hplain hkept
    obtain ⟨e', he', heq⟩ := kept_file hkept
    exact hplain.ne_file he' r n (heq.trans hfile)
  unfold Launch.execTable at he
  split at he
  · exact absurd he (hcopy _ (hstdio _ (by simp)))
  · split at he
    · exact absurd he (hcopy _ (hstdio _ (by simp)))
    · split at he
      · exact absurd he (hcopy _ (hstdio _ (by simp)))
      · split at he
        · next x hfind =>
            exact absurd he
              (hcopy _ (hparents x (List.mem_of_find?_eq_some hfind)))
        · next hfind =>
          split at he
          · exact nomatch he
          · next hleaf =>
              split at he
              · next hmarker =>
                  obtain ⟨m, hm, hfd⟩ := Option.any_eq_true _ _ |>.mp hmarker
                  obtain rfl : m.fd = fd := by simpa using hfd
                  obtain ⟨e', he', heq⟩ := kept_file he
                  exact .inl ⟨m, hm, e', he', heq.trans hfile⟩
              · obtain ⟨hopen, hflag⟩ := Table.exec_eq_some.mp he
                exact .inr ⟨hopen, hflag, not_reserved hfind, hleaf⟩

/-- A number above the stdio that nothing is mapped to. -/
theorem execTable_unmapped {l : Launch} {t : Table File} {fd : Nat}
    (hge : 3 ≤ fd) (hclear : fd ∉ l.reserved) :
    l.execTable t fd =
      if l.prepared.cgroupLeaf.any (·.procsFd == fd) then none
      else if l.prepared.marker.any (·.fd == fd) then Launch.kept t fd
      else t.exec fd := by
  have hfind : l.mappings.find? (·.childFd == fd) = none := by
    refine List.find?_eq_none.mpr fun x hx heq => hclear ?_
    obtain rfl : x.childFd = fd := by simpa using heq
    exact List.mem_map_of_mem hx
  have hne0 : fd ≠ 0 := by omega
  have hne1 : fd ≠ 1 := by omega
  have hne2 : fd ≠ 2 := by omega
  simp only [Launch.execTable, hne0, hne1, hne2, if_false, hfind]

/-- What a child is given of the containment's descriptors: of its own, the
marker; of the others, every `cgroup.procs` that is open. -/
def Given (tree : Nat) (l : Launch) (t : Table File) : Resource → Nat → Prop
  | .procs, n =>
      n ≠ tree ∧ ∃ fd, t fd = some ⟨.procs n, false⟩ ∧ fd ∉ l.reserved
  | .write, n => n = tree ∧ l.prepared.marker ≠ none
  | .read, _ => False

theorem Owned.given_of_holds (hs : Owned s) (hjob : s.jobs k = some job)
    (hsound : job.Sound os)
    (hstdio : ∀ fd ∈ [stdin, stdout, stderr], 3 ≤ fd ∧ Plain s.sup fd)
    (hparents : ∀ x ∈ mappings, 3 ≤ x.parentFd ∧ Plain s.sup x.parentFd)
    {r : Resource} {n : Nat}
    (h : ((job.launch os k stdin stdout stderr mappings).execTable s.sup).Holds
      (r.file n)) :
    Given k (job.launch os k stdin stdout stderr mappings) s.sup r n := by
  obtain ⟨fd, e, he, hfile⟩ := h
  obtain ⟨m, hm, e', he', hsame⟩ | ⟨hopen, hflag, hclear, hleaf⟩ :=
    execTable_source (fun fd hfd => (hstdio fd hfd).2)
      (fun x hx => (hparents x hx).2) he hfile
  · have hown := hs.opened k job .write m.fd hjob (hsound.marker_fd hm)
    rw [hown] at he'
    obtain rfl := Option.some.inj he'
    obtain ⟨rfl, rfl⟩ := Resource.file_inj (r := .write) (k := k) hsame
    exact ⟨rfl, by rw [hm]; exact Option.some_ne_none _⟩
  · obtain ⟨job', hn, hfd⟩ := hs.owned r n fd e hopen hfile
    have hown := hs.opened n job' r fd hn hfd
    rw [hopen] at hown
    obtain rfl := Option.some.inj hown
    cases r with
    | procs =>
        refine ⟨?_, fd, hopen, hclear⟩
        rintro rfl
        obtain rfl : job' = job := Option.some.inj (hn.symm.trans hjob)
        have hmine : (job'.launch os n stdin stdout stderr
            mappings).prepared.cgroupLeaf = some ⟨n, fd⟩ :=
          hsound.cgroupLeaf_iff.mpr ⟨rfl, hfd⟩
        exact hleaf (by rw [hmine]; exact beq_self_eq_true _)
    | write => exact absurd hflag.symm Bool.false_ne_true
    | read => exact absurd hflag.symm Bool.false_ne_true

theorem Owned.holds_of_given (hs : Owned s) (hjob : s.jobs k = some job)
    (hsound : job.Sound os)
    (hreserved : mappings.map (·.childFd) = job.reserved)
    {r : Resource} {n : Nat}
    (h : Given k (job.launch os k stdin stdout stderr mappings) s.sup r n) :
    ((job.launch os k stdin stdout stderr mappings).execTable s.sup).Holds
      (r.file n) := by
  have habove : ∀ {fd : Nat} {e : Entry File} (r : Resource) (n : Nat),
      s.sup fd = some e → e.file = r.file n → 3 ≤ fd := by
    intro fd e r n he hfile
    refine Nat.le_of_not_lt fun hlt => ?_
    exact (hs.stdio fd hlt).ne_file he r n hfile
  have hmine : ∀ {fd : Nat} {e : Entry File}, s.sup fd = some e →
      e.file ≠ .procs k →
      (job.launch os k stdin stdout stderr mappings).prepared.cgroupLeaf.any
        (·.procsFd == fd) = false := by
    intro fd e he hne
    cases hl : (job.launch os k stdin stdout stderr
        mappings).prepared.cgroupLeaf with
    | none => rfl
    | some leaf =>
        obtain ⟨-, hfd⟩ := hsound.cgroupLeaf_iff.mp hl
        have hown := hs.opened k job .procs leaf.procsFd hjob hfd
        refine beq_eq_false_iff_ne.mpr ?_
        rintro rfl
        rw [hown] at he
        obtain rfl := Option.some.inj he
        exact hne rfl
  cases r with
  | procs =>
      obtain ⟨hne, fd, hopen, hclear⟩ := h
      refine ⟨fd, ⟨.procs n, false⟩, ?_, rfl⟩
      have hmarker : (job.launch os k stdin stdout stderr
          mappings).prepared.marker.any (·.fd == fd) = false := by
        cases hm : (job.launch os k stdin stdout stderr
            mappings).prepared.marker with
        | none => rfl
        | some m =>
            have hown := hs.opened k job .write m.fd hjob (hsound.marker_fd hm)
            refine beq_eq_false_iff_ne.mpr ?_
            rintro rfl
            rw [hown] at hopen
            exact nomatch hopen
      rw [execTable_unmapped (habove .procs n hopen rfl) hclear,
        hmine hopen (fun heq => hne (File.procs.inj heq)), hmarker]
      exact Table.exec_eq_some.mpr ⟨hopen, rfl⟩
  | write =>
      obtain ⟨rfl, hm⟩ := h
      obtain ⟨m, hm⟩ := Option.ne_none_iff_exists'.mp hm
      have hfd := hsound.marker_fd hm
      have hown := hs.opened n job .write m.fd hjob hfd
      obtain ⟨_, _, _, hclear⟩ := hsound.marker m.fd hfd
      refine ⟨m.fd, ⟨.markerWrite n, false⟩, ?_, rfl⟩
      have hclear' : m.fd ∉ (job.launch os n stdin stdout stderr
          mappings).reserved := by
        show m.fd ∉ mappings.map (·.childFd)
        rw [hreserved]
        exact hclear
      rw [execTable_unmapped (habove .write n hown rfl) hclear',
        hmine hown nofun, hm]
      simp [Launch.kept, hown, Resource.file]
  | read => exact h.elim

end Launches

end Cosca.Ports.SpawnFleet
