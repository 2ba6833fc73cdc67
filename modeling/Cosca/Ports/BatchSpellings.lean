import Cosca.Ports.BatchRejection
import Cosca.Ports.Win32Files

/-!
# Programs that are batch files behind a directory

A program name says what Win32 opens only together with the directory it is
looked for in: `..` may climb into the directory, and a verbatim directory
makes `std` resolve the name and Win32 take it as it is.

## Main results

* `exists_search_iff`: the names that are a batch file in some directory that
  `CreateProcessW` looks in (`SearchedBatch`).
* `exists_join_iff`: the names that are one once `std` joins them to some
  directory (`JoinedBatch`).
-/

namespace Cosca.Ports.BatchSpellings

open Cosca.Ports.BatchRejection
open Cosca.Ports.Win32Files
open Cosca.Ports.WindowsCommandLine (Wide)
open Cosca.Ports.WindowsPath
open Cosca.Verified.Utf16 (lowerUnit)

/-! ## Spellings -/

/-- The file Win32 opens for the path is a batch file. -/
def OpensBatch (p : Path) : Prop :=
  ∃ name, win32Name p = some name ∧ isBatchName name = true

/-- Resolving the components ends at one of their own that is read as a batch
name, or it leaves them for the directory in front. -/
def Lands (reads : Wide → Wide) (comps : List Component) (root : Bool) : Prop :=
  match landing comps with
  | some name => isBatchName (reads name) = true
  | none => root = false

/-- Behind some directory Win32 opens a batch file for the name: it has a
prefix and opens one by itself, or, its trailing spaces gone, its components
lead to one. -/
def SearchedBatch (p : Path) : Prop :=
  match p.pfx with
  | some _ => OpensBatch p
  | none => p.isEmpty = false ∧ p.trailing = false ∧
      Lands stripTrailing (settled p.comps) p.physicalRoot

/-- Joined to some directory the name opens one: a verbatim directory makes
`std` resolve the components and Win32 take them as they are. -/
def JoinedBatch (p : Path) : Prop :=
  SearchedBatch p ∨
    p.pfx = none ∧ p.isEmpty = false ∧ Lands id p.comps p.physicalRoot

/-- A batch name ends neither in a dot nor in a space. -/
theorem exists_last_of_isBatchName {name : Wide}
    (h : isBatchName name = true) :
    ∃ init c, name = init ++ [c] ∧ c ≠ dot ∧ c ≠ space := by
  obtain ⟨before, ext, rfl, _, hlen, hext⟩ := (isBatchName_iff name).mp h
  obtain ⟨a, b, c, rfl⟩ := List.length_eq_three.mp hlen
  have hlow : lowerUnit c = 116 ∨ lowerUnit c = 100 := by
    rcases (isBatchExtension_iff _).mp hext with h | h
    · exact .inl (by simpa using h : _ ∧ _ ∧ lowerUnit c = 116).2.2
    · exact .inr (by simpa using h : _ ∧ _ ∧ lowerUnit c = 100).2.2
  refine ⟨before ++ [dot, a, b], c, by simp, ?_, ?_⟩
  · rintro rfl
    exact absurd hlow (by decide)
  · rintro rfl
    exact absurd hlow (by decide)

theorem stripTrailing_of_isBatchName {name : Wide}
    (h : isBatchName name = true) : stripTrailing name = name := by
  obtain ⟨init, c, rfl, hdot, hspace⟩ := exists_last_of_isBatchName h
  exact List.rdropWhile_concat_neg _ _ _ (by simp [hdot, hspace])

theorem settle_of_isBatchName {name : Wide} (h : isBatchName name = true) :
    settle (.normal name) = .normal name := by
  obtain ⟨init, c, rfl, hdot, hspace⟩ := exists_last_of_isBatchName h
  exact settle_normal List.getLast?_concat hspace hdot

/-- Components that lead to a batch name behind a directory do so by
themselves, unless they leave it to the directory. -/
theorem lands_of_append {reads : Wide → Wide} {front comps : List Component}
    {root : Bool} {name : Wide} (hfront : root = true → front = [])
    (h : landing (front ++ comps) = some name)
    (hbatch : isBatchName (reads name) = true) : Lands reads comps root := by
  unfold Lands
  cases hown : landing comps with
  | some own =>
      rw [landing_append_of_some front hown] at h
      obtain rfl := Option.some.inj h
      exact hbatch
  | none =>
      cases root with
      | false => rfl
      | true =>
          rw [hfront rfl, List.nil_append, hown] at h
          exact absurd h (by simp)

/-- A path that ends in a batch name, as it is written, lands there. -/
theorem lands_of_last {comps : List Component} {root : Bool} {name : Wide}
    (h : comps.getLast? = some (.normal name))
    (hbatch : isBatchName name = true) :
    Lands stripTrailing (settled comps) root := by
  obtain ⟨init, rfl⟩ := List.getLast?_eq_some_iff.mp h
  rw [Lands, settled_concat, settle_of_isBatchName hbatch,
    landing_concat_normal]
  simpa only [stripTrailing_of_isBatchName hbatch] using hbatch

/-- A path without a prefix that is not empty has a component or a root. -/
theorem comps_ne_nil {p : Path} (hpfx : p.pfx = none)
    (hempty : p.isEmpty = false) (hroot : p.physicalRoot = false) :
    p.comps ≠ [] := by
  intro hnil
  simp [Path.isEmpty, hpfx, hroot, hnil] at hempty

/-! ## Behind a directory -/

/-- What opens a batch file behind a directory is spelt so. -/
theorem searchedBatch_of_search {dir p : Path} (hempty : p.isEmpty = false)
    (h : OpensBatch (search dir p)) : SearchedBatch p := by
  unfold SearchedBatch
  cases hpfx : p.pfx with
  | some pre =>
      have hself : search dir p = p := by
        simp [search, hpfx]
      rwa [hself] at h
  | none =>
      obtain ⟨name, hname, hbatch⟩ := h
      have hsearch : search dir p =
          { pfx := dir.pfx
            physicalRoot := dir.physicalRoot || p.physicalRoot
            comps := (if p.physicalRoot then [] else dir.comps) ++ p.comps
            trailing := p.trailing } := by
        simp [search, hpfx]
      rw [hsearch] at hname
      by_cases hnil : p.comps = []
      · -- a root by itself opens nothing
        have hroot : p.physicalRoot = true := by
          by_contra hroot
          exact comps_ne_nil hpfx hempty (by simpa using hroot) hnil
        rw [win32Name_of_no_comps (by simp [hroot, hnil])] at hname
        exact absurd hname (by simp)
      · obtain ⟨htrailing, ⟨_, hlast⟩ | ⟨_, own, hown, rfl⟩⟩ :=
          win32Name_eq_some hname
        · rw [List.getLast?_append_of_ne_nil _ hnil] at hlast
          exact ⟨hempty, htrailing, lands_of_last hlast hbatch⟩
        · rw [settled_append _ hnil] at hown
          exact ⟨hempty, htrailing,
            lands_of_append (fun hroot => if_pos hroot) hown hbatch⟩

/-- The empty path joined to a directory names the directory. -/
theorem not_opensBatch_join_empty {dir p : Path} (hpfx : p.pfx = none)
    (hempty : p.isEmpty = true) : ¬ OpensBatch (dir.join p) := by
  rintro ⟨name, hname, _⟩
  have hjoin : dir.join p =
      { dir with trailing := !(dir.isEmpty || dir.isBareDrive) } := by
    simp [Path.join, hpfx, hempty]
  rw [hjoin] at hname
  have hbare := (win32Name_eq_some hname).1
  simp only [Bool.not_eq_false', Bool.or_eq_true] at hbare
  have hnil : dir.comps = [] := by
    rcases hbare with hdir | hdir
    · exact (by simpa [Path.isEmpty] using hdir :
        (_ ∧ _) ∧ dir.comps = []).2
    · unfold Path.isBareDrive at hdir
      split at hdir
      · exact (by simpa using hdir : _ ∧ dir.comps = []).2
      · exact absurd hdir Bool.false_ne_true
  rw [win32Name_of_no_comps (by exact hnil)] at hname
  exact absurd hname (by simp)

/-- What a verbatim join leaves of a path and of the directory. -/
theorem join_of_verbatim {dir p : Path} (hpfx : p.pfx = none)
    (hempty : p.isEmpty = false) (hdir : dir.isVerbatim = true) :
    ∃ base, base <+: (if p.physicalRoot then [] else dir.comps) ∧
      (if p.physicalRoot then [] else dir.comps).length ≤
        base.length + p.comps.length ∧
      (dir.join p).isVerbatim = true ∧
      (dir.join p).comps = stack base (p.comps.foldl landStep []) ∧
      (dir.join p).trailing = ((dir.physicalRoot || p.physicalRoot) &&
        (dir.join p).comps.isEmpty) := by
  obtain ⟨base, hpre, hlen, hfold⟩ := foldl_verbatimPush p.comps
    (if p.physicalRoot then [] else dir.comps) []
  rw [show stack (if p.physicalRoot then [] else dir.comps) [] =
    if p.physicalRoot then [] else dir.comps by simp [stack]] at hfold
  have hjoin : dir.join p =
      { dir with
        physicalRoot := dir.physicalRoot || p.physicalRoot
        comps := stack base (p.comps.foldl landStep [])
        trailing := (dir.physicalRoot || p.physicalRoot) &&
          (stack base (p.comps.foldl landStep [])).isEmpty } := by
    simp only [Path.join, hpfx, hempty, hdir, Option.isSome_none,
      Bool.false_eq_true, if_false, if_true, hfold]
  rw [hjoin]
  exact ⟨base, hpre, hlen, hdir, rfl, rfl⟩

/-- What opens a batch file once it is joined to a verbatim directory leads to
one as it is written. -/
theorem lands_of_verbatim_join {dir p : Path} {name : Wide}
    (hpfx : p.pfx = none) (hempty : p.isEmpty = false)
    (hdir : dir.isVerbatim = true) (hname : win32Name (dir.join p) = some name)
    (hbatch : isBatchName name = true) : Lands id p.comps p.physicalRoot := by
  obtain ⟨base, hpre, _, hverbatim, hcomps, _⟩ :=
    join_of_verbatim hpfx hempty hdir
  have hopened := (win32Name_eq_some hname).2
  rw [hverbatim, hcomps] at hopened
  have hlast : (stack base (p.comps.foldl landStep [])).getLast? =
      some (.normal name) := by
    simpa using hopened
  unfold Lands landing
  cases hown : p.comps.foldl landStep [] with
  | cons own owns =>
      rw [hown, getLast?_stack_cons] at hlast
      obtain rfl : own = name := by simpa using hlast
      exact hbatch
  | nil =>
      cases hroot : p.physicalRoot with
      | false => rfl
      | true =>
          rw [hroot] at hpre
          obtain rfl := List.prefix_nil.mp hpre
          rw [hown] at hlast
          exact absurd hlast (by simp [stack])

/-- Joined to any other directory it leads to one as a search reads it. -/
theorem lands_of_plain_join {dir p : Path} {name : Wide}
    (hpfx : p.pfx = none) (hempty : p.isEmpty = false)
    (hdir : dir.isVerbatim = false) (hname : win32Name (dir.join p) = some name)
    (hbatch : isBatchName name = true) :
    p.trailing = false ∧
      Lands stripTrailing (settled p.comps) p.physicalRoot := by
  obtain ⟨hplain, hsame, comps, hcomps, hcut⟩ := join_of_plain hpfx hempty hdir
  obtain ⟨htrailing, hopened⟩ := win32Name_eq_some hname
  rw [hplain, hcomps] at hopened
  obtain ⟨own, hown, rfl⟩ : ∃ own, landing (settled
      ((if p.physicalRoot then [] else dir.comps) ++ comps)) = some own ∧
        name = stripTrailing own := by
    simpa using hopened
  refine ⟨hsame ▸ htrailing, ?_⟩
  by_cases hnil : comps = []
  · subst hnil
    rcases hcut with hcut | ⟨hroot, hcut⟩
    · have hroot : p.physicalRoot = true := by
        by_contra hroot
        exact comps_ne_nil hpfx hempty (by simpa using hroot) hcut.symm
      simp [hroot, settled, landing] at hown
    · -- a `.` alone names the directory
      rw [hcut, hroot]
      rfl
  · rw [settled_append _ hnil] at hown
    have hlands := lands_of_append (fun hroot => if_pos hroot) hown hbatch
    rcases hcut with rfl | ⟨_, hcut⟩
    · exact hlands
    · rw [hcut, show Component.curDir :: comps = [.curDir] ++ comps from rfl,
        settled_append _ hnil]
      exact hlands

/-- What opens a batch file once it is joined to a directory is spelt so. -/
theorem joinedBatch_of_join {dir p : Path} (h : OpensBatch (dir.join p)) :
    JoinedBatch p := by
  cases hpfx : p.pfx with
  | some pre =>
      have hself : dir.join p = p := by
        simp [Path.join, hpfx]
      left
      simp only [SearchedBatch, hpfx]
      rwa [hself] at h
  | none =>
      cases hempty : p.isEmpty with
      | true => exact absurd h (not_opensBatch_join_empty hpfx hempty)
      | false =>
          obtain ⟨name, hname, hbatch⟩ := h
          cases hdir : dir.isVerbatim with
          | true =>
              exact .inr ⟨hpfx, hempty,
                lands_of_verbatim_join hpfx hempty hdir hname hbatch⟩
          | false =>
              left
              simp only [SearchedBatch, hpfx]
              exact ⟨hempty, lands_of_plain_join hpfx hempty hdir hname hbatch⟩

/-! ## Directories of batch names -/

/-- `a.bat`. -/
abbrev batName : Wide := [97, 46, 98, 97, 116]

/-- A directory whose components are all named `a.bat`. -/
def batDir (pfx : PathPrefix) (depth : Nat) : Path where
  pfx := some pfx
  physicalRoot := true
  comps := List.replicate depth (.normal batName)
  trailing := false

theorem foldl_landStep_replicate (name : Wide) (depth : Nat) :
    ∀ own : List Wide,
      (List.replicate depth (Component.normal name)).foldl landStep own =
        List.replicate depth name ++ own := by
  induction depth with
  | zero => exact fun own => rfl
  | succ depth ih =>
      intro own
      rw [List.replicate_succ, List.foldl_cons, ih]
      show List.replicate depth name ++ name :: own = _
      rw [List.replicate_succ', List.append_assoc]
      rfl

/-- A path that leaves its own components lands in a directory deeper than it
can climb. -/
theorem landing_batDir (pfx : PathPrefix) {comps : List Component} {depth : Nat}
    (hdeep : comps.length < depth) (h : landing comps = none) :
    landing ((batDir pfx depth).comps ++ comps) = some batName := by
  obtain ⟨kept, hsuf, hlen, hland⟩ :=
    landing_append_of_none (batDir pfx depth).comps h
  rw [show (batDir pfx depth).comps.foldl landStep [] =
    List.replicate depth batName by
      simpa [batDir] using foldl_landStep_replicate batName depth []] at hsuf hlen
  rw [List.length_replicate] at hlen
  rw [hland]
  cases kept with
  | nil =>
      rw [List.length_nil] at hlen
      omega
  | cons name kept =>
      have hname := List.eq_of_mem_replicate
        (hsuf.subset (List.mem_cons_self (a := name)))
      rw [hname]
      rfl

theorem length_settled (comps : List Component) :
    (settled comps).length = comps.length := by
  rcases List.eq_nil_or_concat comps with rfl | ⟨init, c, rfl⟩
  · rfl
  · rw [List.concat_eq_append, settled_concat, List.length_append,
      List.length_append]
    rfl

/-- Components that land on a batch name, or nowhere, land on one behind a
directory of them that is deep enough. -/
theorem lands_behind {p : Path} (hempty : p.isEmpty = false)
    (hpfx : p.pfx = none)
    (hland : Lands stripTrailing (settled p.comps) p.physicalRoot) :
    ∃ own, landing (settled ((if p.physicalRoot then []
        else (batDir (.disk 67) (p.comps.length + 1)).comps) ++ p.comps)) =
          some own ∧ isBatchName (stripTrailing own) = true := by
  unfold Lands at hland
  by_cases hnil : p.comps = []
  · -- a root by itself lands nowhere
    have hroot : p.physicalRoot = true := by
      by_contra hroot
      exact comps_ne_nil hpfx hempty (by simpa using hroot) hnil
    rw [hnil, hroot] at hland
    exact absurd hland (by simp [settled, landing])
  · rw [settled_append _ hnil]
    cases hown : landing (settled p.comps) with
    | some own =>
        rw [hown] at hland
        exact ⟨own, landing_append_of_some _ hown, hland⟩
    | none =>
        rw [hown] at hland
        have hroot : p.physicalRoot = false := hland
        have hdeep : (settled p.comps).length < p.comps.length + 1 := by
          rw [length_settled]
          omega
        refine ⟨batName, ?_, by decide⟩
        rw [hroot]
        exact landing_batDir (.disk 67) hdeep hown

/-- A path that lands on a batch name opens it, unless it is verbatim or ends
in a separator. -/
theorem opensBatch_of_landing {p : Path} (hplain : p.isVerbatim = false)
    (htrailing : p.trailing = false) {own : Wide}
    (hown : landing (settled p.comps) = some own)
    (hbatch : isBatchName (stripTrailing own) = true) : OpensBatch p := by
  refine ⟨stripTrailing own, ?_, hbatch⟩
  simp [win32Name, hplain, htrailing, hown]

/-- The names that are a batch file in some directory `CreateProcessW` looks
in. -/
theorem exists_search_iff (p : Path) :
    (p.isEmpty = false ∧ ∃ dir, OpensBatch (search dir p)) ↔
      SearchedBatch p := by
  constructor
  · rintro ⟨hempty, dir, h⟩
    exact searchedBatch_of_search hempty h
  · intro h
    unfold SearchedBatch at h
    cases hpfx : p.pfx with
    | some pre =>
        rw [hpfx] at h
        refine ⟨by simp [Path.isEmpty, hpfx], p, ?_⟩
        simpa [search, hpfx] using h
    | none =>
        rw [hpfx] at h
        obtain ⟨hempty, htrailing, hland⟩ := h
        refine ⟨hempty, batDir (.disk 67) (p.comps.length + 1), ?_⟩
        obtain ⟨own, hown, hbatch⟩ := lands_behind hempty hpfx hland
        have hsearch : search (batDir (.disk 67) (p.comps.length + 1)) p =
            { pfx := some (.disk 67)
              physicalRoot := true
              comps := (if p.physicalRoot then []
                else (batDir (.disk 67) (p.comps.length + 1)).comps) ++ p.comps
              trailing := p.trailing } := by
          simp [search, hpfx, batDir]
        rw [hsearch]
        exact opensBatch_of_landing rfl htrailing hown hbatch

/-- A `.` in front of the components changes nothing behind a directory. -/
theorem landing_settled_dropLeadingCurDir {front : List Component}
    (hfront : settled front = front) (comps : List Component) :
    landing (settled (front ++ dropLeadingCurDir comps)) =
      landing (settled (front ++ comps)) := by
  cases comps with
  | nil => rfl
  | cons c rest =>
      cases c with
      | parentDir => rfl
      | normal name => rfl
      | curDir =>
          simp only [dropLeadingCurDir]
          by_cases hnil : rest = []
          · subst hnil
            rw [List.append_nil, hfront, settled_concat]
            simp [landing, settle, landStep]
          · rw [settled_append _ hnil, settled_append _ (by simp),
              show Component.curDir :: rest = [.curDir] ++ rest from rfl,
              settled_append _ hnil]
            simp [landing, landStep]

theorem settled_batDir (pfx : PathPrefix) (depth : Nat) :
    settled (batDir pfx depth).comps = (batDir pfx depth).comps := by
  cases depth with
  | zero => rfl
  | succ depth =>
      rw [show (batDir pfx (depth + 1)).comps =
          List.replicate depth (.normal batName) ++ [.normal batName] from
            List.replicate_succ', settled_concat,
        settle_of_isBatchName (by decide)]

/-- Joined to a directory on a drive, what lands on a batch name, or nowhere,
opens one. -/
theorem opensBatch_join_drive {p : Path} (hpfx : p.pfx = none)
    (hempty : p.isEmpty = false) (htrailing : p.trailing = false)
    (hland : Lands stripTrailing (settled p.comps) p.physicalRoot) :
    OpensBatch ((batDir (.disk 67) (p.comps.length + 1)).join p) := by
  obtain ⟨own, hown, hbatch⟩ := lands_behind hempty hpfx hland
  cases hroot : p.physicalRoot with
  | true =>
      have hjoin : (batDir (.disk 67) (p.comps.length + 1)).join p =
          { p with pfx := some (.disk 67) } := by
        simp [Path.join, hpfx, hempty, hroot, batDir, Path.isVerbatim,
          PathPrefix.isVerbatim]
      rw [hroot] at hown
      rw [hjoin]
      exact opensBatch_of_landing rfl htrailing hown hbatch
  | false =>
      have hjoin : (batDir (.disk 67) (p.comps.length + 1)).join p =
          { batDir (.disk 67) (p.comps.length + 1) with
            comps := (batDir (.disk 67) (p.comps.length + 1)).comps ++
              dropLeadingCurDir p.comps
            trailing := p.trailing } := by
        simp [Path.join, hpfx, hempty, hroot, batDir, Path.hasRoot,
          Path.isVerbatim, PathPrefix.isVerbatim]
      rw [hroot] at hown
      rw [hjoin]
      refine opensBatch_of_landing rfl htrailing ?_ hbatch
      rw [landing_settled_dropLeadingCurDir (settled_batDir _ _)]
      exact hown

/-- Joined to a verbatim directory, what lands on a batch name as it is
written, or nowhere, opens one. -/
theorem opensBatch_join_verbatim {p : Path} (hpfx : p.pfx = none)
    (hempty : p.isEmpty = false) (hland : Lands id p.comps p.physicalRoot) :
    OpensBatch ((batDir (.verbatimDisk 67) (p.comps.length + 1)).join p) := by
  obtain ⟨base, hpre, hlen, hverbatim, hcomps, htrailing⟩ :=
    join_of_verbatim hpfx hempty
      (show (batDir (.verbatimDisk 67) (p.comps.length + 1)).isVerbatim = true
        from rfl)
  have hopens : ∀ name, isBatchName name = true →
      (stack base (p.comps.foldl landStep [])).getLast? =
        some (.normal name) →
      OpensBatch ((batDir (.verbatimDisk 67) (p.comps.length + 1)).join p) := by
    intro name hbatch hlast
    have hne : ((batDir (.verbatimDisk 67) (p.comps.length + 1)).join
        p).comps.isEmpty = false := by
      rw [hcomps]
      cases hstack : stack base (p.comps.foldl landStep []) with
      | nil =>
          rw [hstack] at hlast
          exact absurd hlast (by simp)
      | cons c cs => rfl
    refine ⟨name, ?_, hbatch⟩
    rw [hne, Bool.and_false] at htrailing
    simp only [win32Name, htrailing, hverbatim, Bool.false_eq_true, if_false,
      if_true, Path.fileName, hcomps, hlast]
  unfold Lands landing at hland
  cases hown : p.comps.foldl landStep [] with
  | cons own owns =>
      rw [hown] at hland hopens
      exact hopens own hland (getLast?_stack_cons base own owns)
  | nil =>
      rw [hown] at hland hopens
      have hroot : p.physicalRoot = false := hland
      -- the directory is deeper than the path can climb
      simp only [hroot, Bool.false_eq_true, if_false, batDir,
        List.length_replicate] at hpre hlen
      have hne : base ≠ [] := by
        rintro rfl
        simp only [List.length_nil] at hlen
        omega
      have hlast : base.getLast hne = .normal batName :=
        List.eq_of_mem_replicate (hpre.subset (List.getLast_mem hne))
      refine hopens batName (by decide) ?_
      simp [stack, List.getLast?_eq_some_getLast hne, hlast]

/-- The names that are a batch file once they are joined to some directory. -/
theorem exists_join_iff (p : Path) :
    (∃ dir : Path, OpensBatch (dir.join p)) ↔ JoinedBatch p := by
  constructor
  · rintro ⟨dir, h⟩
    exact joinedBatch_of_join h
  · rintro (hsearched | ⟨hpfx, hempty, hland⟩)
    · unfold SearchedBatch at hsearched
      cases hpfx : p.pfx with
      | some pre =>
          rw [hpfx] at hsearched
          exact ⟨p, by simpa [Path.join, hpfx] using hsearched⟩
      | none =>
          rw [hpfx] at hsearched
          obtain ⟨hempty, htrailing, hland⟩ := hsearched
          exact ⟨_, opensBatch_join_drive hpfx hempty htrailing hland⟩
    · exact ⟨_, opensBatch_join_verbatim hpfx hempty hland⟩

end Cosca.Ports.BatchSpellings
