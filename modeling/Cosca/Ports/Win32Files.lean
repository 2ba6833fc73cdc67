import Mathlib.Data.List.DropRight
import Mathlib.Data.List.Infix
import Cosca.Ports.WindowsPath

/-!
# The file Win32 opens for a path

Win32 normalises a path before it opens the file: the blanks at its end go,
`.` and `..` are resolved, and the name that is left loses its trailing dots
and spaces.  A verbatim path is opened as it is written, and a path that ends
in a separator or climbs out of what it names opens a directory, no file.
Names are taken as spelt: the streams of a file (`a::$DATA`) are not resolved.

`search` is the path Win32 makes of a program name and a directory it looks
in, and `join` the one `std` makes of them: it resolves the components when
the directory is verbatim.

## Main results

* `landing_append_of_some`, `landing_append_of_none`: a component of the path's
  own that its `..`s leave decides the name; otherwise the directory does.
* `foldl_verbatimPush`: what a verbatim join keeps of both.
-/

namespace Cosca.Ports.Win32Files

open Cosca.Ports.WindowsCommandLine (Wide)
open Cosca.Ports.WindowsPath

abbrev space : UInt16 := 32

/-! ## Names -/

/-- The final component as Win32 normalises it: without trailing dots and
spaces. -/
def stripTrailing (name : Wide) : Wide :=
  name.rdropWhile fun c => c == dot || c == space

/-- A component whose trailing spaces are gone may be a `.` or a `..`. -/
def settle : Component → Component
  | .normal name =>
      let cut := name.rdropWhile (· == space)
      if cut == [dot] then .curDir
      else if cut == [dot, dot] then .parentDir
      else .normal name
  | c => c

/-- The spaces at the end of the path go first. -/
def settled (comps : List Component) : List Component :=
  match comps.getLast? with
  | some last => comps.dropLast ++ [settle last]
  | none => []

/-- The names left of a path once `.` and `..` are resolved, last one
first. -/
def landStep (own : List Wide) : Component → List Wide
  | .curDir => own
  | .parentDir => own.tail
  | .normal name => name :: own

/-- The component of its own that a path ends at, if its `..`s leave one. -/
def landing (comps : List Component) : Option Wide :=
  (comps.foldl landStep []).head?

/-- The name of the file Win32 opens. -/
def win32Name (p : Path) : Option Wide :=
  if p.trailing then none
  else if p.isVerbatim then p.fileName
  else (landing (settled p.comps)).map stripTrailing

/-- A name behind a directory, as the search of Win32 puts them together. -/
def search (dir p : Path) : Path :=
  if p.pfx.isSome then p
  else
    { pfx := dir.pfx
      physicalRoot := dir.physicalRoot || p.physicalRoot
      comps := (if p.physicalRoot then [] else dir.comps) ++ p.comps
      trailing := p.trailing }

/-! ## Components -/

theorem settled_concat (init : List Component) (c : Component) :
    settled (init ++ [c]) = init ++ [settle c] := by
  simp [settled]

/-- Only the last component settles. -/
theorem settled_append (front : List Component) {comps : List Component}
    (h : comps ≠ []) : settled (front ++ comps) = front ++ settled comps := by
  obtain ⟨init, c, rfl⟩ := List.eq_nil_or_concat comps |>.resolve_left h
  rw [List.concat_eq_append, ← List.append_assoc, settled_concat,
    settled_concat, List.append_assoc]

/-- A name that does not end in a space settles as it is, unless it is made of
dots. -/
theorem settle_normal {name : Wide} {c : UInt16}
    (hlast : (name ++ [c]).getLast? = some c) (hspace : c ≠ space)
    (hdot : c ≠ dot) : settle (.normal (name ++ [c])) =
      .normal (name ++ [c]) := by
  have hcut : (name ++ [c]).rdropWhile (· == space) = name ++ [c] :=
    List.rdropWhile_concat_neg _ _ _ (by simpa using hspace)
  have hends : ∀ w : Wide, w.getLast? = some dot → name ++ [c] ≠ w := by
    rintro w hw rfl
    exact hdot (Option.some.inj (hlast.symm.trans hw))
  simp only [settle, hcut, beq_iff_eq, hends [dot] rfl,
    hends [dot, dot] rfl, if_false]

/-- One step over the names of a directory: the path's own names follow
`landStep`, the directory loses at most its last one. -/
theorem landStep_append (own front : List Wide) (c : Component) :
    ∃ kept, kept <:+ front ∧ front.length ≤ kept.length + 1 ∧
      landStep (own ++ front) c = landStep own c ++ kept := by
  cases c with
  | curDir => exact ⟨front, List.suffix_refl _, by omega, rfl⟩
  | normal name => exact ⟨front, List.suffix_refl _, by omega, rfl⟩
  | parentDir =>
      cases own with
      | cons name own => exact ⟨front, List.suffix_refl _, by omega, rfl⟩
      | nil =>
          refine ⟨front.tail, List.tail_suffix _, ?_, rfl⟩
          rw [List.length_tail]
          omega

/-- All components over the names of a directory. -/
theorem foldl_landStep_append (comps : List Component) :
    ∀ own front : List Wide, ∃ kept, kept <:+ front ∧
      front.length ≤ kept.length + comps.length ∧
      comps.foldl landStep (own ++ front) =
        comps.foldl landStep own ++ kept := by
  induction comps with
  | nil => exact fun own front => ⟨front, List.suffix_refl _, by simp, rfl⟩
  | cons c comps ih =>
      intro own front
      obtain ⟨kept₁, hsuf₁, hlen₁, hstep⟩ := landStep_append own front c
      obtain ⟨kept₂, hsuf₂, hlen₂, hfold⟩ := ih (landStep own c) kept₁
      refine ⟨kept₂, hsuf₂.trans hsuf₁, ?_, ?_⟩
      · rw [List.length_cons]
        omega
      · rw [List.foldl_cons, hstep, hfold, List.foldl_cons]

/-- A component of the path's own that is left is where it lands, whatever
stands in front. -/
theorem landing_append_of_some (front : List Component)
    {comps : List Component} {name : Wide} (h : landing comps = some name) :
    landing (front ++ comps) = some name := by
  obtain ⟨kept, _, _, hfold⟩ :=
    foldl_landStep_append comps [] (front.foldl landStep [])
  rw [List.nil_append] at hfold
  obtain ⟨own, hown⟩ := List.head?_eq_some_iff.mp h
  rw [landing, List.foldl_append, hfold, hown]
  rfl

/-- Otherwise it lands on one of the names in front, if on any. -/
theorem landing_append_of_none (front : List Component)
    {comps : List Component} (h : landing comps = none) :
    ∃ kept, kept <:+ front.foldl landStep [] ∧
      (front.foldl landStep []).length ≤ kept.length + comps.length ∧
      landing (front ++ comps) = kept.head? := by
  obtain ⟨kept, hsuf, hlen, hfold⟩ :=
    foldl_landStep_append comps [] (front.foldl landStep [])
  rw [List.nil_append] at hfold
  have hown := List.head?_eq_none_iff.mp h
  refine ⟨kept, hsuf, hlen, ?_⟩
  rw [landing, List.foldl_append, hfold, hown, List.nil_append]

/-- A path that ends in an ordinary component lands there. -/
theorem landing_concat_normal (init : List Component) (name : Wide) :
    landing (init ++ [.normal name]) = some name :=
  landing_append_of_some init rfl

/-! ## The name opened -/

theorem fileName_eq_some {p : Path} {name : Wide} (h : p.fileName = some name) :
    p.comps.getLast? = some (.normal name) := by
  unfold Path.fileName at h
  split at h
  · next last hlast =>
      rw [hlast, Option.some.inj h]
  · exact absurd h (by simp)

/-- What is opened does not end in a separator, and it is the last component
of a verbatim path, or the name a path lands on. -/
theorem win32Name_eq_some {p : Path} {name : Wide}
    (h : win32Name p = some name) : p.trailing = false ∧
      (p.isVerbatim = true ∧ p.comps.getLast? = some (.normal name) ∨
        p.isVerbatim = false ∧
          ∃ own, landing (settled p.comps) = some own ∧
            name = stripTrailing own) := by
  unfold win32Name at h
  split at h
  · exact absurd h (by simp)
  · next htrailing =>
      refine ⟨by simpa using htrailing, ?_⟩
      split at h
      · next hverbatim => exact .inl ⟨hverbatim, fileName_eq_some h⟩
      · next hverbatim =>
          obtain ⟨own, hown, hname⟩ := Option.map_eq_some_iff.mp h
          exact .inr ⟨by simpa using hverbatim, own, hown, hname.symm⟩

/-- A path without components opens no file. -/
theorem win32Name_of_no_comps {p : Path} (h : p.comps = []) :
    win32Name p = none := by
  simp [win32Name, Path.fileName, settled, landing, h]

/-! ## Joining -/

/-- The stack a verbatim join works on: what is left of the directory, and
the path's own components above it. -/
def stack (base : List Component) (own : List Wide) : List Component :=
  base ++ own.reverse.map .normal

theorem stack_cons (base : List Component) (name : Wide) (own : List Wide) :
    stack base (name :: own) = stack base own ++ [.normal name] := by
  simp [stack]

theorem getLast?_stack_cons (base : List Component) (name : Wide)
    (own : List Wide) :
    (stack base (name :: own)).getLast? = some (.normal name) := by
  rw [stack_cons, List.getLast?_concat]

/-- One push: the path's own part follows `landStep`, the directory loses at
most its last component. -/
theorem verbatimPush_stack (base : List Component) (own : List Wide)
    (c : Component) : ∃ base', base' <+: base ∧
      base.length ≤ base'.length + 1 ∧
      verbatimPush (stack base own) c = stack base' (landStep own c) := by
  cases c with
  | curDir => exact ⟨base, List.prefix_refl _, by omega, rfl⟩
  | normal name =>
      exact ⟨base, List.prefix_refl _, by omega,
        (stack_cons base name own).symm⟩
  | parentDir =>
      cases own with
      | cons name own =>
          refine ⟨base, List.prefix_refl _, by omega, ?_⟩
          simp only [verbatimPush, getLast?_stack_cons, landStep,
            List.tail_cons]
          rw [stack_cons, List.dropLast_concat]
      | nil =>
          have hstack : stack base [] = base := by simp [stack]
          rw [hstack]
          simp only [verbatimPush, landStep, List.tail_nil]
          split
          · refine ⟨base.dropLast, List.dropLast_prefix _, ?_, ?_⟩
            · rw [List.length_dropLast]
              omega
            · simp [stack]
          · exact ⟨base, List.prefix_refl _, by omega, hstack.symm⟩

/-- A whole verbatim join. -/
theorem foldl_verbatimPush (comps : List Component) :
    ∀ (base : List Component) (own : List Wide), ∃ base', base' <+: base ∧
      base.length ≤ base'.length + comps.length ∧
      comps.foldl verbatimPush (stack base own) =
        stack base' (comps.foldl landStep own) := by
  induction comps with
  | nil => exact fun base own => ⟨base, List.prefix_refl _, by simp, rfl⟩
  | cons c comps ih =>
      intro base own
      obtain ⟨base₁, hpre₁, hlen₁, hpush⟩ := verbatimPush_stack base own c
      obtain ⟨base₂, hpre₂, hlen₂, hfold⟩ := ih base₁ (landStep own c)
      refine ⟨base₂, hpre₂.trans hpre₁, ?_, ?_⟩
      · rw [List.length_cons]
        omega
      · rw [List.foldl_cons, hpush, hfold, List.foldl_cons]

/-- Onto a directory that is not verbatim, a join puts the components behind
those of the directory; a `.` in front may go. -/
theorem join_of_plain {dir p : Path} (hpfx : p.pfx = none)
    (hempty : p.isEmpty = false) (hdir : dir.isVerbatim = false) :
    (dir.join p).isVerbatim = false ∧ (dir.join p).trailing = p.trailing ∧
      ∃ comps, (dir.join p).comps =
          (if p.physicalRoot then [] else dir.comps) ++ comps ∧
        (comps = p.comps ∨
          p.physicalRoot = false ∧ p.comps = .curDir :: comps) := by
  unfold Path.join
  simp only [hpfx, Option.isSome_none, Bool.false_eq_true, if_false, hempty,
    hdir]
  cases hroot : p.physicalRoot with
  | true =>
      simp only [if_true]
      exact ⟨hdir, trivial, p.comps, rfl, .inl rfl⟩
  | false =>
      simp only [Bool.false_eq_true, if_false]
      split
      · next hbare =>
          have hnil : dir.comps = [] := by
            simpa using (Bool.and_eq_true_iff.mp hbare).1
          refine ⟨hdir, rfl, p.comps, ?_, .inl rfl⟩
          rw [hnil, List.nil_append]
      · refine ⟨hdir, rfl, dropLeadingCurDir p.comps, rfl, ?_⟩
        cases hcomps : p.comps with
        | nil => exact .inl rfl
        | cons c comps =>
            cases c with
            | curDir => exact .inr ⟨trivial, rfl⟩
            | parentDir => exact .inl rfl
            | normal name => exact .inl rfl

end Cosca.Ports.Win32Files
