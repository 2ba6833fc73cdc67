import Cosca.Ports.BatchSpellings
import Cosca.Ports.RawCommandLine

/-!
# Batch files and the raw backend

`resolve_executable_in` (`child/spawn/windows_raw/resolve.rs`) and what the raw
backend then loads.  With an `executable()` it is the resolved image.  Without
one `CreateProcessW` reads the program off the command line and searches for
it by itself: an unquoted line is tried up to each of its blanks.

The check sees the spelling of one token.  Win32 opens what the spelling comes
to: without trailing dots and spaces, with `..` resolved, and, off an unquoted
line, with the arguments behind it.

## Main results

* `batch_never_loaded_iff`: the check refuses a program that opens a batch file
  if and only if the program ends in the name plainly spelt; and a command
  loads none if and only if it is refused or nothing it may load is one
  (`SafeCommand`).
-/

namespace Cosca.Ports.BatchLoads

open Cosca.Ports.BatchRejection
open Cosca.Ports.BatchSpellings
open Cosca.Ports.CommandRecord
open Cosca.Ports.Errors
open Cosca.Ports.RawCommandLine
open Cosca.Ports.Win32Files
open Cosca.Ports.WindowsCommandLine (Wide isBlank quote)
open Cosca.Ports.WindowsPath

/-! ## The resolution -/

/-- The text `exe`. -/
abbrev exeExtension : Wide := [101, 120, 101]

/-- The search of `resolve_executable_in` through the directories. -/
def searchDirs (exe : Path) (appendExe : Bool) (isFile : Path → Bool) :
    List Path → Option Path
  | [] => none
  | dir :: dirs =>
      let candidate := dir.join exe
      let withExe := candidate.withExtension exeExtension
      if isFile candidate then some candidate
      else if appendExe && isFile withExe then some withExe
      else searchDirs exe appendExe isFile dirs

/-- `resolve_executable_in`; `isFile` answers `Path::is_file`. -/
def resolveExecutableIn (isFile : Path → Bool) (exe : Wide) (baseCwd : Path)
    (path : Option Wide) : Except Error Path :=
  let parsed := Path.parse exe
  if parsed.isAbsolute && isFile parsed then .ok parsed
  else
    let dirs := baseCwd :: path.elim [] splitPaths
    match searchDirs parsed parsed.extension.isNone isFile dirs with
    | some image => .ok image
    | none => .error (.io (.custom .notFound
        ("could not resolve executable: " ++ display exe)))

/-! ## What is loaded -/

/-- What stands before each blank, and the whole text. -/
def blankPrefixes : Wide → List Wide
  | [] => [[]]
  | c :: rest =>
      (if isBlank c then [[]] else []) ++ (blankPrefixes rest).map (c :: ·)

/-- The names `CreateProcessW` tries when it is given a command line alone:
what stands between a first quote and the next one, or, without a quote, the
line up to each of its blanks. -/
def lineNames : Wide → List Wide
  | [] => []
  | c :: rest =>
      if c == quote then [rest.takeWhile (· != quote)]
      else blankPrefixes (c :: rest)

/-- The files the raw backend may load for a command, whatever the directories
and the answers about files.  `CreateProcessW` looks for the names of a line
in directories of its own and, where a name has no extension, appends
`.exe`. -/
inductive Loads (isFile : Path → Bool) (baseCwd : Path) (path : Option Wide)
    (cmd : Command Wide) : Path → Prop
  | resolved {exe : Wide} {image : Path} (hexe : cmd.executable = some exe)
      (himage : resolveExecutableIn isFile exe baseCwd path = .ok image) :
      Loads isFile baseCwd path cmd image
  | searched {line name : Wide} {dir file : Path}
      (hexe : cmd.executable = none) (hline : rawProgramAndLine cmd = .ok line)
      (hname : name ∈ lineNames line)
      (hempty : (Path.parse name).isEmpty = false)
      (hfile : file = search dir (Path.parse name) ∨
        file = (search dir (Path.parse name)).withExtension exeExtension) :
      Loads isFile baseCwd path cmd file

/-! ## The search -/

/-- The extension `exe` makes no batch name. -/
theorem not_opensBatch_withExe {p : Path} (h : ¬ OpensBatch p) :
    ¬ OpensBatch (p.withExtension exeExtension) := by
  cases hfile : p.fileName with
  | none =>
      simp only [Path.withExtension, hfile]
      exact h
  | some file =>
      have hexe : ∀ name, name = fileStem file ++ dot :: exeExtension →
          isBatchName name = false := by
        rintro name rfl
        by_contra hbatch
        obtain ⟨before, ext, heq, -, hlen, hisbatch⟩ :=
          (isBatchName_iff _).mp (by simpa using hbatch)
        have htail : dot :: exeExtension = dot :: ext :=
          (List.append_inj' heq (by simp [hlen])).2
        obtain rfl := (List.cons.inj htail).2
        exact absurd hisbatch (by decide)
      have hends : fileStem file ++ dot :: exeExtension =
          (fileStem file ++ [dot, 101, 120]) ++ [101] := by
        simp
      have hstrip : stripTrailing (fileStem file ++ dot :: exeExtension) =
          fileStem file ++ dot :: exeExtension := by
        rw [hends]
        exact List.rdropWhile_concat_neg _ _ _ (by decide)
      have hsettle : settle (.normal (fileStem file ++ dot :: exeExtension)) =
          .normal (fileStem file ++ dot :: exeExtension) := by
        rw [hends]
        exact settle_normal List.getLast?_concat (by decide) (by decide)
      rintro ⟨name, hname, hbatch⟩
      obtain ⟨-, ⟨-, hlast⟩ | ⟨-, own, hown, rfl⟩⟩ := win32Name_eq_some hname
      · simp only [Path.withExtension, hfile, List.getLast?_concat,
          Option.some.injEq, Component.normal.injEq, exeExtension,
          List.isEmpty_cons, Bool.false_eq_true, if_false] at hlast
        rw [hexe name hlast.symm] at hbatch
        exact Bool.false_ne_true hbatch
      · simp only [Path.withExtension, hfile, exeExtension,
          List.isEmpty_cons, Bool.false_eq_true, if_false] at hown
        rw [settled_concat, hsettle, landing_concat_normal] at hown
        obtain rfl := Option.some.inj hown
        rw [hstrip, hexe _ rfl] at hbatch
        exact Bool.false_ne_true hbatch

/-- What the search finds is a candidate of one of the directories. -/
theorem searchDirs_some (exe : Path) (appendExe : Bool) (isFile : Path → Bool)
    (dirs : List Path) {image : Path}
    (h : searchDirs exe appendExe isFile dirs = some image) :
    ∃ dir : Path, image = dir.join exe ∨
      image = (dir.join exe).withExtension exeExtension := by
  induction dirs with
  | nil => exact absurd h (by simp [searchDirs])
  | cons dir dirs ih =>
      unfold searchDirs at h
      simp only at h
      split at h
      · exact ⟨dir, .inl (Option.some.inj h).symm⟩
      · split at h
        · exact ⟨dir, .inr (Option.some.inj h).symm⟩
        · exact ih h

/-- The image is the program joined to some directory, or that with `.exe`. -/
theorem resolveExecutableIn_ok {isFile : Path → Bool} {exe : Wide}
    {baseCwd image : Path} {path : Option Wide}
    (h : resolveExecutableIn isFile exe baseCwd path = .ok image) :
    ∃ dir : Path, image = dir.join (Path.parse exe) ∨
      image = (dir.join (Path.parse exe)).withExtension exeExtension := by
  unfold resolveExecutableIn at h
  simp only at h
  split at h
  · next habs =>
      obtain rfl := Except.ok.inj h
      have hpfx : (Path.parse exe).pfx.isSome = true := by
        simp only [Path.isAbsolute, Bool.and_eq_true] at habs
        exact habs.1.2
      refine ⟨baseCwd, .inl ?_⟩
      simp only [Path.join, hpfx, if_true]
  · split at h
    · next found hsearch =>
        obtain rfl := Except.ok.inj h
        exact searchDirs_some _ _ _ _ hsearch
    · exact absurd h (by simp)

/-- Where every path is a file, the first candidate is the image. -/
theorem resolveExecutableIn_all (exe : Wide) (dir : Path)
    (path : Option Wide) :
    resolveExecutableIn (fun _ => true) exe dir path =
      .ok (dir.join (Path.parse exe)) := by
  unfold resolveExecutableIn
  simp only [Bool.and_true, searchDirs, if_true]
  split
  · next habs =>
      have hpfx : (Path.parse exe).pfx.isSome = true := by
        simp only [Path.isAbsolute, Bool.and_eq_true] at habs
        exact habs.2
      simp only [Path.join, hpfx, if_true]
  · rfl

/-! ## Commands -/

/-- A command that passes the check loads no batch file, from any directory,
with any search path and any answers about files.  What the spawn checks
after the resolution, the NULs of the image and the directory, is left out. -/
def NeverLoadsBatch (cmd : Command Wide) : Prop :=
  ∀ (isFile : Path → Bool) (baseCwd : Path) (path : Option Wide) (file : Path),
    rejectBatchProgram cmd = .ok () → Loads isFile baseCwd path cmd file →
      ¬ OpensBatch file

/-- The program the check reads ends in a plainly spelt batch name, or none of
the names the command may load is a batch file behind some directory. -/
def SafeCommand (cmd : Command Wide) : Prop :=
  (∃ prog, cmd.executable.or (programToken cmd) = some prog ∧
    PlainBatch (Path.parse prog)) ∨
  match cmd.executable with
  | some exe => ¬ JoinedBatch (Path.parse exe)
  | none => ∀ line, rawProgramAndLine cmd = .ok line →
      ∀ name ∈ lineNames line, ¬ SearchedBatch (Path.parse name)

/-- The check refuses a command whose program is plainly a batch file, and no
other. -/
theorem rejectBatchProgram_ok_iff (cmd : Command Wide) :
    rejectBatchProgram cmd = .ok () ↔
      ¬ ∃ prog, cmd.executable.or (programToken cmd) = some prog ∧
        PlainBatch (Path.parse prog) := by
  unfold rejectBatchProgram
  cases hprog : cmd.executable.or (programToken cmd) with
  | none => simp
  | some prog =>
      simp only [Option.some.injEq, exists_eq_left',
        ← rejectBatchPath_error_iff]
      cases rejectBatchPath prog with
      | ok u => simp
      | error e => simp

theorem neverLoadsBatch_of_safe {cmd : Command Wide} (h : SafeCommand cmd) :
    NeverLoadsBatch cmd := by
  intro isFile baseCwd path file hok hloads hopens
  rcases h with hplain | hsafe
  · exact (rejectBatchProgram_ok_iff cmd).mp hok hplain
  · cases hloads with
    | resolved hexe himage =>
        rw [hexe] at hsafe
        simp only at hsafe
        have hjoined : ∀ dir : Path, ¬ OpensBatch (dir.join _) :=
          fun dir hdir => hsafe ((exists_join_iff _).mp ⟨dir, hdir⟩)
        obtain ⟨dir, rfl | rfl⟩ := resolveExecutableIn_ok himage
        · exact hjoined dir hopens
        · exact not_opensBatch_withExe (hjoined dir) hopens
    | searched hexe hline hname hempty hfile =>
        rw [hexe] at hsafe
        simp only at hsafe
        have hsearched : ∀ dir, ¬ OpensBatch (search dir _) :=
          fun dir hdir => hsafe _ hline _ hname
            ((exists_search_iff _).mp ⟨hempty, dir, hdir⟩)
        rcases hfile with rfl | rfl
        · exact hsearched _ hopens
        · exact not_opensBatch_withExe (hsearched _) hopens

theorem safe_of_neverLoadsBatch {cmd : Command Wide}
    (h : NeverLoadsBatch cmd) : SafeCommand cmd := by
  by_cases hplain : ∃ prog, cmd.executable.or (programToken cmd) = some prog ∧
      PlainBatch (Path.parse prog)
  · exact .inl hplain
  · right
    have hok := (rejectBatchProgram_ok_iff cmd).mpr hplain
    cases hexe : cmd.executable with
    | some exe =>
        intro hjoined
        obtain ⟨dir, hopens⟩ := (exists_join_iff _).mpr hjoined
        exact h (fun _ => true) dir none _ hok
          (.resolved hexe (resolveExecutableIn_all exe dir none)) hopens
    | none =>
        intro line hline name hname hsearched
        obtain ⟨hempty, dir, hopens⟩ := (exists_search_iff _).mpr hsearched
        exact h (fun _ => true) dir none _ hok
          (.searched hexe hline hname hempty (.inl rfl)) hopens

/-- The check refuses a program that opens a batch file if and only if it is
plainly spelt, and a command loads none if and only if it is safe. -/
theorem batch_never_loaded_iff (prog : Wide) (cmd : Command Wide) :
    ((OpensBatch (Path.parse prog) → ∃ e, rejectBatchPath prog = .error e) ↔
      (OpensBatch (Path.parse prog) → PlainBatch (Path.parse prog))) ∧
    (NeverLoadsBatch cmd ↔ SafeCommand cmd) := by
  refine ⟨?_, safe_of_neverLoadsBatch, neverLoadsBatch_of_safe⟩
  rw [rejectBatchPath_error_iff]

/-- `C:\a.bat\x\..` passes the check and opens `a.bat`. -/
example : rejectBatchPath
      [67, 58, 92, 97, 46, 98, 97, 116, 92, 120, 92, 46, 46] = .ok () ∧
    win32Name (Path.parse
      [67, 58, 92, 97, 46, 98, 97, 116, 92, 120, 92, 46, 46]) =
        some batName := by
  exact ⟨rfl, by decide⟩

/-- `x y.bat` is read as two arguments and tried as one name. -/
example : programToken
      { Command.default with
        input := .commandLine [120, 32, 121, 46, 98, 97, 116] } =
          some [120] ∧
    lineNames [120, 32, 121, 46, 98, 97, 116] =
      [[120], [120, 32, 121, 46, 98, 97, 116]] := by
  exact ⟨rfl, by decide⟩

/-- `a.bat ` (with a trailing space) opens `a.bat` and passes the check, and
so does a command for it. -/
theorem batch_loaded_trailing_space :
    ¬ (OpensBatch (Path.parse (batName ++ [space])) →
        ∃ e, rejectBatchPath (batName ++ [space]) = .error e) ∧
      ¬ NeverLoadsBatch
        { Command.default with executable := some (batName ++ [space]) } := by
  have hopens : OpensBatch (Path.parse (batName ++ [space])) :=
    ⟨batName, by decide, by decide⟩
  have hpass : rejectBatchPath (batName ++ [space]) = .ok () := by
    rfl
  constructor
  · intro h
    obtain ⟨e, he⟩ := h hopens
    rw [hpass] at he
    exact absurd he (by simp)
  · intro h
    have hroot : OpensBatch ((batDir (.disk 67) 0).join
        (Path.parse (batName ++ [space]))) :=
      ⟨batName, by decide, by decide⟩
    exact h (fun _ => true) (batDir (.disk 67) 0) none _ hpass
      (.resolved rfl (resolveExecutableIn_all _ _ none)) hroot

end Cosca.Ports.BatchLoads
