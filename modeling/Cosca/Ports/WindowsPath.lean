import Cosca.Ports.WindowsCommandLine

/-!
# Windows paths

The part of `std::path` the raw backend rests on, as it behaves on Windows: a
path is parsed into a prefix, a root and components; `fileName`, `extension`,
`join` and `withExtension` are those of `Path` and `PathBuf`, the special rule
for joining onto a verbatim prefix included.  `splitPaths` is
`std::env::split_paths`.
-/

namespace Cosca.Ports.WindowsPath

open Cosca.Ports.WindowsCommandLine (Wide)

/-! ## The units a path is made of -/

abbrev doubleQuote : UInt16 := 34
abbrev dot : UInt16 := 46
abbrev slash : UInt16 := 47
abbrev colon : UInt16 := 58
abbrev semicolon : UInt16 := 59
abbrev question : UInt16 := 63
abbrev backslash : UInt16 := 92

def isSep (c : UInt16) : Bool :=
  c == slash || c == backslash

/-- Verbatim paths are separated by backslashes only. -/
def isVerbatimSep (c : UInt16) : Bool :=
  c == backslash

def isDriveLetter (c : UInt16) : Bool :=
  (65 ≤ c && c ≤ 90) || (97 ≤ c && c ≤ 122)

/-! ## Prefixes -/

/-- `std::path::Prefix`. -/
inductive PathPrefix where
  | verbatim (name : Wide)
  | verbatimUnc (server share : Wide)
  | verbatimDisk (drive : UInt16)
  | deviceNs (name : Wide)
  | unc (server share : Wide)
  | disk (drive : UInt16)
  deriving DecidableEq, Repr

def PathPrefix.isVerbatim : PathPrefix → Bool
  | .verbatim _ | .verbatimUnc .. | .verbatimDisk _ => true
  | _ => false

/-- Every prefix but a drive letter implies a root. -/
def PathPrefix.hasImplicitRoot : PathPrefix → Bool
  | .disk _ => false
  | _ => true

/-- The number of units the prefix takes. -/
def PathPrefix.len : PathPrefix → Nat
  | .verbatim name => 4 + name.length
  | .verbatimUnc server share =>
      8 + server.length + (if share.isEmpty then 0 else 1 + share.length)
  | .verbatimDisk _ => 6
  | .deviceNs name => 4 + name.length
  | .unc server share =>
      2 + server.length + (if share.isEmpty then 0 else 1 + share.length)
  | .disk _ => 2

/-- Up to the next separator, and what is behind it. -/
def parseNextComponent (path : Wide) (verbatim : Bool) : Wide × Wide :=
  let sep := if verbatim then isVerbatimSep else isSep
  (path.takeWhile (!sep ·), (path.dropWhile (!sep ·)).drop 1)

def parseDrive : Wide → Option UInt16
  | drive :: c :: _ =>
      if isDriveLetter drive && c == colon then some drive else none
  | _ => none

/-- A drive that is not part of a longer name. -/
def parseDriveExact (path : Wide) : Option UInt16 :=
  match path.drop 2 with
  | [] => parseDrive path
  | c :: _ => if isSep c then parseDrive path else none

/-- `parse_prefix`.  Slashes count as backslashes while the opening of a
prefix is recognised, except that a verbatim one must be spelled exactly. -/
def parsePrefix (path : Wide) : Option PathPrefix :=
  let head := (path.take 8).map fun c => if c == slash then backslash else c
  if [backslash, backslash].isPrefixOf head then
    if [question, backslash].isPrefixOf (head.drop 2) &&
        !(path.take 4).contains slash then
      if [85, 78, 67, backslash].isPrefixOf (head.drop 4) then
        let (server, rest) := parseNextComponent (path.drop 8) true
        let (share, _) := parseNextComponent rest true
        some (.verbatimUnc server share)
      else
        match parseDriveExact (path.drop 4) with
        | some drive => some (.verbatimDisk drive)
        | none => some (.verbatim (parseNextComponent (path.drop 4) true).1)
    else if [dot, backslash].isPrefixOf (head.drop 2) then
      some (.deviceNs (parseNextComponent (path.drop 4) false).1)
    else
      let (server, rest) := parseNextComponent (path.drop 2) false
      let (share, _) := parseNextComponent rest false
      if server.isEmpty || share.isEmpty then none
      else some (.unc server share)
  else (parseDrive path).map .disk

/-! ## Components -/

/-- `std::path::Component`, behind the prefix and the root. -/
inductive Component where
  | curDir
  | parentDir
  | normal (name : Wide)
  deriving DecidableEq, Repr

/-- A parsed path.  `std` drops a separator at the end of a path from its
components but keeps it in the text, so it is kept here. -/
structure Path where
  pfx : Option PathPrefix
  physicalRoot : Bool
  comps : List Component
  trailing : Bool
  deriving DecidableEq, Repr

def Path.isVerbatim (p : Path) : Bool :=
  p.pfx.any PathPrefix.isVerbatim

/-- `Path::has_root`. -/
def Path.hasRoot (p : Path) : Bool :=
  p.physicalRoot || p.pfx.any PathPrefix.hasImplicitRoot

/-- `Path::is_absolute`. -/
def Path.isAbsolute (p : Path) : Bool :=
  p.hasRoot && p.pfx.isSome

/-- The empty path. -/
def Path.isEmpty (p : Path) : Bool :=
  p.pfx.isNone && !p.physicalRoot && p.comps.isEmpty

/-- A drive letter and its colon, and nothing else. -/
def Path.isBareDrive (p : Path) : Bool :=
  match p.pfx with
  | some (.disk _) => !p.physicalRoot && p.comps.isEmpty
  | _ => false

/-- `parse_single_component`: empty pieces and, outside verbatim paths, `.`
are dropped. -/
def parseSingleComponent (verbatim : Bool) (comp : Wide) : Option Component :=
  if comp == [dot] then if verbatim then some .curDir else none
  else if comp == [dot, dot] then some .parentDir
  else if comp.isEmpty then none
  else some (.normal comp)

/-- The path a text spells.  A leading `.` of a path without a root stays. -/
def Path.parse (text : Wide) : Path :=
  let pfx := parsePrefix text
  let body := text.drop (pfx.elim 0 PathPrefix.len)
  let verbatim := pfx.any PathPrefix.isVerbatim
  let physicalRoot := body.head?.any isSep
  let hasRoot := physicalRoot || pfx.any PathPrefix.hasImplicitRoot
  let sep := if verbatim then isVerbatimSep else isSep
  let pieces := (if physicalRoot then body.drop 1 else body).splitOnP sep
  let leading :=
    if !hasRoot && pieces.head? == some [dot] then [.curDir] else []
  { pfx := pfx
    physicalRoot := physicalRoot
    comps := leading ++ pieces.filterMap (parseSingleComponent verbatim)
    trailing := text.getLast?.any sep }

/-! ## Names -/

/-- `Path::file_name`: the last component, if it is an ordinary one. -/
def Path.fileName (p : Path) : Option Wide :=
  match p.comps.getLast? with
  | some (.normal name) => some name
  | _ => none

/-- The name up to its last dot and what is behind that dot. -/
def splitAtLastDot (file : Wide) : Option (Wide × Wide) :=
  if file.contains dot then
    let after := (file.reverse.takeWhile (· != dot)).reverse
    some (file.take (file.length - after.length - 1), after)
  else none

/-- `rsplit_file_at_dot`: a name that begins with its only dot has no
extension. -/
def rsplitFileAtDot (file : Wide) : Option Wide × Option Wide :=
  if file == [dot, dot] then (some file, none)
  else
    match splitAtLastDot file with
    | none => (none, some file)
    | some (before, after) =>
        if before.isEmpty then (some file, none) else (some before, some after)

/-- `Path::extension`. -/
def Path.extension (p : Path) : Option Wide :=
  p.fileName.bind fun file =>
    match rsplitFileAtDot file with
    | (some _, after) => after
    | (none, _) => none

/-- `Path::file_stem`, of a file name. -/
def fileStem (file : Wide) : Wide :=
  match rsplitFileAtDot file with
  | (some before, _) => before
  | (none, after) => after.getD []

/-- `Path::with_extension`; a path without a file name stays as it is. -/
def Path.withExtension (p : Path) (ext : Wide) : Path :=
  match p.fileName with
  | none => p
  | some file =>
      { p with
        comps := p.comps.dropLast ++
          [.normal (fileStem file ++ (if ext.isEmpty then [] else dot :: ext))]
        trailing := false }

/-! ## Joining -/

/-- One component pushed onto a verbatim path: `.` and `..` are resolved. -/
def verbatimPush (buf : List Component) : Component → List Component
  | .curDir => buf
  | .parentDir =>
      match buf.getLast? with
      | some (.normal _) => buf.dropLast
      | _ => buf
  | c => buf ++ [c]

/-- A `.` that is no longer at the front of a path without a root vanishes. -/
def dropLeadingCurDir : List Component → List Component
  | .curDir :: comps => comps
  | comps => comps

/-- `Path::join`.  A path with a prefix replaces the directory; one with a
root keeps the directory's prefix only; the empty one makes the directory end
in a separator.  A directory whose text is an unfinished prefix (`\\server`
without a share), which the joined text would finish, is read as what it
spells by itself. -/
def Path.join (dir path : Path) : Path :=
  if path.pfx.isSome then path
  else if path.isEmpty then
    { dir with trailing := !(dir.isEmpty || dir.isBareDrive) }
  else if dir.isVerbatim then
    let physicalRoot := dir.physicalRoot || path.physicalRoot
    let comps := path.comps.foldl verbatimPush
      (if path.physicalRoot then [] else dir.comps)
    { dir with
      physicalRoot := physicalRoot
      comps := comps
      trailing := physicalRoot && comps.isEmpty }
  else if path.physicalRoot then { path with pfx := dir.pfx }
  else if dir.comps.isEmpty && !dir.hasRoot then
    { dir with comps := path.comps, trailing := path.trailing }
  else
    { dir with
      comps := dir.comps ++ dropLeadingCurDir path.comps
      trailing := path.trailing }

/-! ## The search path -/

/-- The entries of a search path are separated by semicolons outside double
quotes, and the quotes are dropped. -/
def splitPathsLoop : Wide → Bool → Wide → List Wide
  | [], _, entry => [entry]
  | c :: rest, inQuote, entry =>
      if c == doubleQuote then splitPathsLoop rest (!inQuote) entry
      else if c == semicolon && !inQuote then
        entry :: splitPathsLoop rest false []
      else splitPathsLoop rest inQuote (entry ++ [c])

/-- `std::env::split_paths`. -/
def splitPaths (path : Wide) : List Path :=
  (splitPathsLoop path false []).map Path.parse

end Cosca.Ports.WindowsPath
