import Cosca.Ports.CommandRecord
import Cosca.Ports.Shutdown
import Cosca.Ports.StartToken
import Cosca.Verified.Flags

/-!
# Creation flags

`command/flags.rs`: the `dwCreationFlags` word of a Windows spawn, composed from
the containment and the caller's request, and the requests that are refused;
`containment/windows.rs` and `graceful.rs`: the cooperative signal that such a
child can be sent, and who sends it.

## Main results

* `windowsSpawn_decides`: a request is refused by naming exactly its reserved
  bits, or the word says exactly what was requested.
* `signal_addresses`: a console event goes to a child that leads a group of its
  own, and to no other.
-/

namespace Cosca.Ports.CreationFlags

open Cosca.Ports.CommandRecord
open Cosca.Ports.Errors
open Cosca.Ports.Identity
open Cosca.Ports.Shutdown (GracefulMechanism)
open Cosca.Ports.StartToken (HResult HResult.io)
open Cosca.Verified.Flags
open Cosca.Verified.Interact

/-! ## The request -/

def debugProcess : UInt32 := 0x1
def debugOnlyThisProcess : UInt32 := 0x2
def createSuspended : UInt32 := 0x4
def detachedProcess : UInt32 := 0x8
def createNewConsole : UInt32 := 0x10
def createNewProcessGroup : UInt32 := 0x200
def createUnicodeEnvironment : UInt32 := 0x400
def extendedStartupinfoPresent : UInt32 := 0x80000
def createBreakawayFromJob : UInt32 := 0x1000000
def createNoWindow : UInt32 := 0x8000000

/-- `FlagsRequest`. -/
structure FlagsRequest where
  noWindow : Bool
  detached : Bool
  breakawayFromJob : Bool
  raw : UInt32

/-- `SpawnBackend`. -/
inductive SpawnBackend where
  | std
  | raw
  deriving DecidableEq

/-- `WindowsSpawn`. -/
structure WindowsSpawn where
  creationFlags : UInt32
  markerEnv : Bool

/-- `Reserved`. -/
structure Reserved where
  bit : UInt32
  name : String
  remedy : String

/-- `reserved_table`. -/
def reservedTable : List Reserved :=
  [ ⟨debugProcess, "DEBUG_PROCESS",
      "no replacement: it makes the spawner a debugger, and the child stops on debug events nothing here services, so wait()/wait_tree() would hang"⟩
  , ⟨debugOnlyThisProcess, "DEBUG_ONLY_THIS_PROCESS",
      "no replacement: same reason as DEBUG_PROCESS"⟩
  , ⟨createSuspended, "CREATE_SUSPENDED",
      "no replacement today, a suspended-spawn window is being designed in cosca#49: cosca suspends and resumes a contained root itself, so a caller's suspend would be resumed silently on a contained spawn and never resumed at all on an uncontained one"⟩
  , ⟨detachedProcess, "DETACHED_PROCESS", "use detached()"⟩
  , ⟨createNewConsole, "CREATE_NEW_CONSOLE",
      "no replacement: measured to give the child its own VISIBLE console window, overriding a requested window suppression"⟩
  , ⟨createNewProcessGroup, "CREATE_NEW_PROCESS_GROUP",
      "use contain(), which is what makes the child's group addressable"⟩
  , ⟨createUnicodeEnvironment, "CREATE_UNICODE_ENVIRONMENT",
      "no replacement: both backends supply it structurally — the raw one always builds a UTF-16 environment block, and std ORs the bit in regardless of what it was given"⟩
  , ⟨extendedStartupinfoPresent, "EXTENDED_STARTUPINFO_PRESENT",
      "no replacement: it announces a structure only the spawn backend can supply"⟩
  , ⟨createBreakawayFromJob, "CREATE_BREAKAWAY_FROM_JOB",
      "use breakaway_from_job(), which also classifies the failure a forbidding ambient job produces"⟩
  , ⟨createNoWindow, "CREATE_NO_WINDOW", "use no_window()"⟩ ]

/-- `reserved_bits_in`; the sort is stable. -/
def reservedBitsIn (raw : UInt32) : List Reserved :=
  (reservedTable.filter fun r => has raw r.bit).mergeSort
    fun a b => decide (a.bit ≤ b.bit)

/-- How a reserved bit is named to the caller. -/
def Reserved.describe (r : Reserved) : String :=
  r.name ++ " (" ++ r.remedy ++ ")"

/-- `root_flags`. -/
def rootFlags : UInt32 := createSuspended ||| createNewProcessGroup

/-- `group_flags`. -/
def groupFlags : UInt32 := createNewProcessGroup

/-- `windows_contain_setup`. -/
def windowsContainSetup (req : ContainRequest) (isRoot : Bool) :
    WindowsSpawn :=
  match req.mode with
  | none => ⟨0, false⟩
  | some mode =>
      ⟨if isRoot && mode != .treeWalk then rootFlags else groupFlags,
        isRoot && req.nesting == .mark⟩

/-- The refusal of reserved bits. -/
def rawRefusal (offending : List Reserved) : Error :=
  .unsupported "creation_flags" "windows"
    ("creation flags cosca manages itself cannot be set through the raw hatch: "
      ++ "; ".intercalate (offending.map Reserved.describe))

/-- The refusal of a contained child that is to leave its job. -/
def breakawayRefusal : Error :=
  .unsupported "breakaway_from_job() with contain()" "windows"
    "cosca's containment is a job object the child must be inside for the tree teardown it reports to be true, and a nested contained spawn's containment IS inheriting the ancestor's job. Drop one of the two."

/-- The word of an accepted request. -/
def composed (setup : UInt32) (flags : FlagsRequest) (backend : SpawnBackend) :
    UInt32 :=
  let word := setup ||| flags.raw
  let word := if flags.noWindow then word ||| createNoWindow else word
  let word := if flags.detached then word ||| detachedProcess else word
  let word :=
    if flags.breakawayFromJob then word ||| createBreakawayFromJob else word
  if backend = .raw then
    word ||| (createUnicodeEnvironment ||| extendedStartupinfoPresent)
  else word

/-- `windows_spawn`. -/
def windowsSpawn (contain : ContainRequest) (flags : FlagsRequest)
    (isRoot : Bool) (backend : SpawnBackend) : Except Error WindowsSpawn :=
  let offending := reservedBitsIn flags.raw
  if !offending.isEmpty then .error (rawRefusal offending)
  else if flags.breakawayFromJob && contain.mode.isSome then
    .error breakawayRefusal
  else
    let setup := windowsContainSetup contain isRoot
    .ok ⟨composed setup.creationFlags flags backend, setup.markerEnv⟩

/-! ## What the word says -/

/-- Whether the child is to start suspended: the root of a job. -/
def startsSuspended (contain : ContainRequest) (isRoot : Bool) : Bool :=
  isRoot && contain.mode.isSome && contain.mode != some .treeWalk

/-- The bits that a caller cannot set through the raw hatch. -/
def managedBits : List UInt32 :=
  reservedTable.map (·.bit)

def managed : UInt32 :=
  union managedBits

/-- The word says what was requested, and no more. -/
structure Says (contain : ContainRequest) (flags : FlagsRequest)
    (isRoot : Bool) (backend : SpawnBackend) (word : UInt32) : Prop where
  suspended : has word createSuspended = startsSuspended contain isRoot
  newGroup : has word createNewProcessGroup = contain.mode.isSome
  noWindow : has word createNoWindow = flags.noWindow
  detached : has word detachedProcess = flags.detached
  breakaway : has word createBreakawayFromJob = flags.breakawayFromJob
  unicode : has word createUnicodeEnvironment = (backend == .raw)
  extended : has word extendedStartupinfoPresent = (backend == .raw)
  newConsole : has word createNewConsole = false
  debug : has word (debugProcess ||| debugOnlyThisProcess) = false
  caller : word &&& ~~~managed = flags.raw

/-- What `windows_spawn` accepts. -/
def Acceptable (contain : ContainRequest) (flags : FlagsRequest) : Prop :=
  has flags.raw managed = false ∧
    (flags.breakawayFromJob = true → contain.mode = none)

theorem has_self {bit : UInt32} (hbit : bit ∈ managedBits) :
    has bit bit = true := by
  have hall : managedBits.all (fun bit => has bit bit) = true := by decide
  exact List.all_eq_true.mp hall bit hbit

theorem has_other {bit bit' : UInt32} (hbit : bit ∈ managedBits)
    (hbit' : bit' ∈ managedBits) (hne : bit ≠ bit') : has bit bit' = false := by
  have hall : managedBits.all (fun bit => managedBits.all fun bit' =>
      bit == bit' || !has bit bit') = true := by decide
  have hpair := List.all_eq_true.mp (List.all_eq_true.mp hall bit hbit) bit'
    hbit'
  simpa [hne] using hpair

theorem not_has_of_mem {raw bit : UInt32} (h : has raw managed = false)
    (hbit : bit ∈ managedBits) : has raw bit = false := by
  rw [managed, has_union, List.any_eq_false] at h
  exact Bool.eq_false_iff.mpr (h bit hbit)

section Composed

variable {contain : ContainRequest} {flags : FlagsRequest} {isRoot : Bool}
  {backend : SpawnBackend}

/-- A flag is in the word if one of its parts puts it there. -/
theorem has_composed (setup flag : UInt32) :
    has (composed setup flags backend) flag =
      (has setup flag || has flags.raw flag ||
        (flags.noWindow && has createNoWindow flag) ||
        (flags.detached && has detachedProcess flag) ||
        (flags.breakawayFromJob && has createBreakawayFromJob flag) ||
        (backend == .raw && has (createUnicodeEnvironment |||
          extendedStartupinfoPresent) flag)) := by
  obtain ⟨noWindow, detached, breakaway, raw⟩ := flags
  cases noWindow <;> cases detached <;> cases breakaway <;> cases backend <;>
    simp [composed, has_or]

theorem setup_eq (mode : ContainMode) (nesting : Nesting) :
    (windowsContainSetup ⟨some mode, nesting⟩ isRoot).creationFlags =
      if startsSuspended ⟨some mode, nesting⟩ isRoot then rootFlags
      else groupFlags := by
  cases isRoot <;> cases mode <;> rfl

/-- The containment's part of the word. -/
theorem has_setup (flag : UInt32) :
    has (windowsContainSetup contain isRoot).creationFlags flag =
      (startsSuspended contain isRoot && has createSuspended flag ||
        contain.mode.isSome && has createNewProcessGroup flag) := by
  obtain ⟨mode, nesting⟩ := contain
  cases mode with
  | none => exact (has_zero flag).trans (by simp [startsSuspended])
  | some mode =>
      rw [setup_eq, has_ite]
      cases startsSuspended ⟨some mode, nesting⟩ isRoot <;>
        simp [rootFlags, groupFlags, has_or]

theorem setup_and_not_managed :
    (windowsContainSetup contain isRoot).creationFlags &&& ~~~managed = 0 := by
  obtain ⟨mode, nesting⟩ := contain
  cases mode with
  | none => exact UInt32.zero_and
  | some mode =>
      rw [setup_eq]
      split <;> decide

/-- What is left of an accepted word without the managed bits is the caller's
own. -/
theorem composed_and_not_managed (hraw : has flags.raw managed = false) :
    composed (windowsContainSetup contain isRoot).creationFlags flags backend
      &&& ~~~managed = flags.raw := by
  have hnoWindow : createNoWindow &&& ~~~managed = 0 := by decide
  have hdetached : detachedProcess &&& ~~~managed = 0 := by decide
  have hbreakaway : createBreakawayFromJob &&& ~~~managed = 0 := by decide
  have hbackend : (createUnicodeEnvironment ||| extendedStartupinfoPresent) &&&
      ~~~managed = 0 := by decide
  have hkept := and_not_of_not_has hraw
  unfold composed
  cases flags.noWindow <;> cases flags.detached <;>
    cases flags.breakawayFromJob <;> cases backend <;>
    simp [or_and, setup_and_not_managed, hkept, hnoWindow, hdetached,
      hbreakaway, hbackend]

/-- A managed bit of an accepted word. -/
theorem has_accepted (h : Acceptable contain flags) {bit : UInt32}
    (hbit : bit ∈ managedBits) :
    has (composed (windowsContainSetup contain isRoot).creationFlags flags
        backend) bit =
      (startsSuspended contain isRoot && has createSuspended bit ||
        contain.mode.isSome && has createNewProcessGroup bit ||
        flags.noWindow && has createNoWindow bit ||
        flags.detached && has detachedProcess bit ||
        flags.breakawayFromJob && has createBreakawayFromJob bit ||
        backend == .raw && (has createUnicodeEnvironment bit ||
          has extendedStartupinfoPresent bit)) := by
  rw [has_composed, has_setup, not_has_of_mem h.1 hbit, Bool.or_false, has_or]

theorem says_composed (h : Acceptable contain flags) :
    Says contain flags isRoot backend
      (composed (windowsContainSetup contain isRoot).creationFlags flags
        backend) where
  suspended := by
    simp (disch := decide) [has_accepted h, has_self, has_other]
  newGroup := by
    simp (disch := decide) [has_accepted h, has_self, has_other]
  noWindow := by
    simp (disch := decide) [has_accepted h, has_self, has_other]
  detached := by
    simp (disch := decide) [has_accepted h, has_self, has_other]
  breakaway := by
    simp (disch := decide) [has_accepted h, has_self, has_other]
  unicode := by
    simp (disch := decide) [has_accepted h, has_self, has_other]
  extended := by
    simp (disch := decide) [has_accepted h, has_self, has_other]
  newConsole := by
    simp (disch := decide) [has_accepted h, has_other]
  debug := by
    simp (disch := decide) [has_or_flags, has_accepted h, has_other]
  caller := composed_and_not_managed h.1

end Composed

/-! ## What is refused -/

theorem reservedTable_ascending :
    reservedTable.Pairwise fun a b => a.bit < b.bit := by
  decide

/-- The sort finds the table in its order. -/
theorem reservedBitsIn_eq (raw : UInt32) :
    reservedBitsIn raw = reservedTable.filter fun r => has raw r.bit := by
  apply List.mergeSort_of_pairwise
  have hsorted := reservedTable_ascending.filter fun r => has raw r.bit
  refine hsorted.imp fun hlt => ?_
  exact decide_eq_true (UInt32.le_of_lt hlt)

theorem reservedBitsIn_isEmpty (raw : UInt32) :
    (reservedBitsIn raw).isEmpty = !has raw managed := by
  rw [reservedBitsIn_eq, managed, has_union, managedBits, List.any_map,
    Bool.eq_iff_iff]
  simp [List.isEmpty_iff, List.filter_eq_nil_iff]

/-- Why a request is refused: by all of its reserved bits, each once and in
ascending order, or because the child would leave its containment. -/
inductive Refuses (contain : ContainRequest) (flags : FlagsRequest) :
    Error → Prop where
  | reserved (offending : List Reserved) (hsome : offending ≠ [])
      (hmem : ∀ r, r ∈ offending ↔
        r ∈ reservedTable ∧ has flags.raw r.bit = true)
      (hascending : offending.Pairwise fun a b => a.bit < b.bit) :
      Refuses contain flags (rawRefusal offending)
  | breakaway (hraw : has flags.raw managed = false)
      (hbreakaway : flags.breakawayFromJob = true)
      (hcontained : contain.mode ≠ none) :
      Refuses contain flags breakawayRefusal

theorem Refuses.not_acceptable {contain : ContainRequest}
    {flags : FlagsRequest} {e : Error} (h : Refuses contain flags e) :
    ¬ Acceptable contain flags := by
  intro haccept
  cases h with
  | reserved offending hsome hmem hascending =>
      obtain ⟨r, hr⟩ := List.exists_mem_of_ne_nil offending hsome
      obtain ⟨htable, hbit⟩ := (hmem r).mp hr
      have hclear := not_has_of_mem haccept.1 (List.mem_map_of_mem htable)
      exact Bool.false_ne_true (hclear.symm.trans hbit)
  | breakaway hraw hbreakaway hcontained =>
      exact hcontained (haccept.2 hbreakaway)

/-! ## The cooperative signal -/

/-- `mechanism_from_flags`. -/
def mechanismFromFlags (creationFlags : UInt32) : GracefulMechanism :=
  if creationFlags &&& createNewProcessGroup = 0 then .none
  else if creationFlags &&&
      (detachedProcess ||| createNewConsole ||| createNoWindow) ≠ 0 then
    .otherConsoleGroup
  else .consoleGroup

/-- The signal that fits the request. -/
def mechanismFor (contain : ContainRequest) (flags : FlagsRequest) :
    GracefulMechanism :=
  if contain.mode.isNone then .none
  else if flags.detached || flags.noWindow then .otherConsoleGroup
  else .consoleGroup

theorem Says.mechanism {contain : ContainRequest} {flags : FlagsRequest}
    {isRoot : Bool} {backend : SpawnBackend} {word : UInt32}
    (h : Says contain flags isRoot backend word) :
    mechanismFromFlags word = mechanismFor contain flags := by
  have hgroup : word &&& createNewProcessGroup = 0 ↔ contain.mode = none := by
    have hbit := h.newGroup
    cases hmode : contain.mode <;> simp_all [has]
  have houtside : word &&&
      (detachedProcess ||| createNewConsole ||| createNoWindow) ≠ 0 ↔
        (flags.detached || flags.noWindow) = true := by
    have hbits : has word
        (detachedProcess ||| createNewConsole ||| createNoWindow) =
          (flags.detached || flags.noWindow) := by
      rw [has_or_flags, has_or_flags, h.detached, h.newConsole, h.noWindow,
        Bool.or_false]
    rw [← hbits, has, bne_iff_ne]
  simp only [mechanismFromFlags, mechanismFor, hgroup, houtside,
    Option.isNone_iff_eq_none]

/-- What `windows_spawn` says to a request: the word and the marker of an
accepted one, or why it is refused. -/
def Decides (contain : ContainRequest) (flags : FlagsRequest) (isRoot : Bool)
    (backend : SpawnBackend) : Except Error WindowsSpawn → Prop
  | .ok spawn =>
      Acceptable contain flags ∧
        Says contain flags isRoot backend spawn.creationFlags ∧
        spawn.markerEnv = (contain.mode.isSome && isRoot &&
          contain.nesting == .mark) ∧
        mechanismFromFlags spawn.creationFlags = mechanismFor contain flags
  | .error e => Refuses contain flags e

section Decides

variable {contain : ContainRequest} {flags : FlagsRequest} {isRoot : Bool}
  {backend : SpawnBackend}

theorem windowsSpawn_of_acceptable (h : Acceptable contain flags) :
    windowsSpawn contain flags isRoot backend =
      .ok ⟨composed (windowsContainSetup contain isRoot).creationFlags flags
        backend, (windowsContainSetup contain isRoot).markerEnv⟩ := by
  have hstays : (flags.breakawayFromJob && contain.mode.isSome) = false := by
    cases hbreakaway : flags.breakawayFromJob with
    | false => rfl
    | true =>
        rw [h.2 hbreakaway]
        rfl
  simp [windowsSpawn, reservedBitsIn_isEmpty, h.1, hstays]

theorem windowsSpawn_refuses (h : ¬ Acceptable contain flags) :
    ∃ e, windowsSpawn contain flags isRoot backend = .error e ∧
      Refuses contain flags e := by
  simp only [windowsSpawn, reservedBitsIn_isEmpty, Bool.not_not]
  cases hraw : has flags.raw managed with
  | true =>
      refine ⟨_, if_pos rfl, .reserved _ ?_ (fun r => ?_) ?_⟩
      · intro hnil
        have hempty := reservedBitsIn_isEmpty flags.raw
        rw [hnil, hraw] at hempty
        exact Bool.false_ne_true hempty.symm
      · rw [reservedBitsIn_eq, List.mem_filter]
      · rw [reservedBitsIn_eq]
        exact reservedTable_ascending.filter _
  | false =>
      cases hbreakaway : flags.breakawayFromJob with
      | false =>
          exact absurd ⟨hraw, fun hleaves => absurd
            (hbreakaway.symm.trans hleaves) Bool.false_ne_true⟩ h
      | true =>
          cases hmode : contain.mode with
          | none => exact absurd ⟨hraw, fun _ => hmode⟩ h
          | some mode =>
              have hcontained : contain.mode ≠ none :=
                hmode ▸ Option.some_ne_none mode
              exact ⟨_, rfl, .breakaway hraw hbreakaway hcontained⟩

theorem windowsSpawn_accepts {spawn : WindowsSpawn}
    (h : windowsSpawn contain flags isRoot backend = .ok spawn) :
    Decides contain flags isRoot backend (.ok spawn) := by
  have haccept : Acceptable contain flags := by
    by_cases haccept : Acceptable contain flags
    · exact haccept
    · obtain ⟨e, he, _⟩ := windowsSpawn_refuses haccept
      cases h.symm.trans he
  rw [windowsSpawn_of_acceptable haccept] at h
  cases h
  have hword : Says contain flags isRoot backend
      (composed (windowsContainSetup contain isRoot).creationFlags flags
        backend) := says_composed haccept
  refine ⟨haccept, hword, ?_, hword.mechanism⟩
  obtain ⟨mode, nesting⟩ := contain
  cases mode <;> rfl

end Decides

/-- Every request is decided by what was requested alone: it is refused with
the names of exactly its reserved bits, or because it would leave its job, or
its word says bit by bit what was requested. -/
theorem windowsSpawn_decides (contain : ContainRequest) (flags : FlagsRequest)
    (isRoot : Bool) (backend : SpawnBackend) :
    Decides contain flags isRoot backend
      (windowsSpawn contain flags isRoot backend) := by
  cases hspawn : windowsSpawn contain flags isRoot backend with
  | ok spawn => exact windowsSpawn_accepts hspawn
  | error e =>
      have hrefused : ¬ Acceptable contain flags := by
        intro haccept
        cases (windowsSpawn_of_acceptable haccept).symm.trans hspawn
      obtain ⟨e', he', hrefuses⟩ := windowsSpawn_refuses hrefused
      cases hspawn.symm.trans he'
      exact hrefuses

/-! ## Sending the signal -/

/-- The calls of a cooperative signal. -/
inductive ConsoleCall where
  | generateConsoleCtrlEvent (group : RawPid)
  /-- `GetConsoleProcessList`, with the last error cleared before. -/
  | getConsoleProcessList
  /-- `wait::terminate`. -/
  | terminate (id : ProcessId)

/-- How many processes are attached to the caller's console, and the last
error. -/
structure ConsoleList where
  attached : UInt32
  lastError : Int
  deriving DecidableEq

abbrev ConsoleCall.Reply : ConsoleCall → Type
  | .generateConsoleCtrlEvent _ => Except HResult Unit
  | .getConsoleProcessList => ConsoleList
  | .terminate _ => Except Error Unit

abbrev Signalling := Prog ConsoleCall ConsoleCall.Reply

abbrev call (c : ConsoleCall) : Signalling c.Reply :=
  query c

/-- `ERROR_INVALID_HANDLE`. -/
def errorInvalidHandle : Int := 6

/-- `HRESULT::from_win32(ERROR_INVALID_HANDLE)`. -/
def invalidHandleHresult : HResult :=
  HResult.fromWin32 6

/-- `caller_has_console`. -/
def callerHasConsole : Signalling (Except IoError Bool) := do
  let list : ConsoleList ← call .getConsoleProcessList
  if list.attached ≠ 0 then return .ok true
  else if list.lastError = errorInvalidHandle then return .ok false
  else return .error (.os list.lastError)

/-- The error of a caller without a console. -/
def noConsole (pid : RawPid) : Error :=
  .noConsole ("cannot send CTRL_BREAK to process group " ++ toString pid ++
    ": this process has no attached console. A GUI-subsystem binary, a service, or a detached spawn cannot deliver console control events — Windows delivers them only within the caller's console. Attach a console before spawning the tree, or use kill_tree() for a hard teardown.")

/-- `classify_ctrl_event_failure`. -/
def classifyCtrlEventFailure (pid : RawPid) (err : HResult)
    (console : Except IoError Bool) : Error :=
  if err = invalidHandleHresult then
    match console with
    | .ok true => .io (HResult.io err)
    | .error _ => .io (HResult.io err)
    | .ok false => noConsole pid
  else .io (HResult.io err)

/-- `terminate`. -/
def terminate (pid : RawPid) : Signalling (Except Error Unit) := do
  let sent : Except HResult Unit ← call (.generateConsoleCtrlEvent pid)
  match sent with
  | .ok () => return .ok ()
  | .error e => do
      let console ← callerHasConsole
      return .error (classifyCtrlEventFailure pid e console)

/-- The refusal for a child that cosca did not create. -/
def unknownRefusal : Error :=
  .unsupported "graceful terminate" "windows"
    "cosca did not create this child — a system elevation service did — so whether it leads a console process group of its own is unknown, and an event addressed to its pid would reach its leader's whole group instead. Use kill() for a hard teardown."

/-- The refusal for a child without a group. -/
def noGroupRefusal : Error :=
  .unsupported "graceful terminate" "windows"
    "this child leads no console process group of its own, so no console control event can be addressed to it by any process; group leadership is fixed at creation. Spawn it with contain() to give it one, or use kill() for a hard teardown."

/-- `signal`. -/
def signal (mechanism : GracefulMechanism) (id : ProcessId) :
    Signalling (Except Error Unit) :=
  match mechanism with
  | .process => call (.terminate id)
  | .consoleGroup | .otherConsoleGroup => terminate id.pid
  | .unknown => return .error unknownRefusal
  | .none => return .error noGroupRefusal

abbrev ConsoleEvent := Event ConsoleCall.Reply

/-- What an event and the probe after it amount to: an accepted event is not
asked about, and a caller is said to have no console only if both the failure
and the probe say so. -/
inductive Delivered (pid : RawPid) : List ConsoleEvent → Except Error Unit →
    Prop where
  | sent : Delivered pid [⟨.generateConsoleCtrlEvent pid, .ok ()⟩] (.ok ())
  | noConsole (list : ConsoleList) (hattached : list.attached = 0)
      (herror : list.lastError = errorInvalidHandle) :
      Delivered pid
        [⟨.generateConsoleCtrlEvent pid, .error invalidHandleHresult⟩,
          ⟨.getConsoleProcessList, list⟩]
        (.error (CreationFlags.noConsole pid))
  | failed (e : HResult) (list : ConsoleList)
      (hother : ¬ (e = invalidHandleHresult ∧ list.attached = 0 ∧
        list.lastError = errorInvalidHandle)) :
      Delivered pid [⟨.generateConsoleCtrlEvent pid, .error e⟩,
        ⟨.getConsoleProcessList, list⟩] (.error (.io (HResult.io e)))

theorem terminate_runs {pid : RawPid} {events : List ConsoleEvent}
    {r : Except Error Unit} (h : (terminate pid).Runs events r) :
    Delivered pid events r := by
  obtain ⟨sent, rest, rfl, hrest⟩ := h.of_query_bind
  cases sent with
  | ok u =>
      obtain ⟨rfl, rfl⟩ := hrest.of_pure
      exact .sent
  | error e =>
      obtain ⟨console, first, last, hconsole, hlast, rfl⟩ := hrest.of_bind
      obtain ⟨rfl, rfl⟩ := hlast.of_pure
      obtain ⟨list, probe, rfl, hprobe⟩ := hconsole.of_query_bind
      rw [List.append_nil]
      by_cases hattached : list.attached = 0
      · by_cases herror : list.lastError = errorInvalidHandle
        · simp only [hattached, herror, ne_eq, not_true, if_false,
            if_true] at hprobe
          obtain ⟨rfl, rfl⟩ := hprobe.of_pure
          by_cases he : e = invalidHandleHresult
          · subst he
            exact .noConsole list hattached herror
          · rw [classifyCtrlEventFailure, if_neg he]
            exact .failed e list fun h => he h.1
        · simp only [hattached, herror, ne_eq, not_true, if_false] at hprobe
          obtain ⟨rfl, rfl⟩ := hprobe.of_pure
          have hio : classifyCtrlEventFailure pid e
              (.error (.os list.lastError)) = .io (HResult.io e) := by
            unfold classifyCtrlEventFailure
            split <;> rfl
          rw [hio]
          exact .failed e list fun h => herror h.2.2
      · simp only [hattached, ne_eq, not_false_eq_true, if_true] at hprobe
        obtain ⟨rfl, rfl⟩ := hprobe.of_pure
        have hio : classifyCtrlEventFailure pid e (.ok true) =
            .io (HResult.io e) := by
          unfold classifyCtrlEventFailure
          split <;> rfl
        rw [hio]
        exact .failed e list fun h => hattached h.2.1

/-- What the signal to a spawned child does: a child that leads a group of its
own is sent one event, to its own pid, and any other child none at all. -/
def Addresses (contain : ContainRequest) (id : ProcessId)
    (events : List ConsoleEvent) (r : Except Error Unit) : Prop :=
  if contain.mode.isSome then Delivered id.pid events r
  else events = [] ∧ r = .error noGroupRefusal

/-- Whatever was requested of a spawn that was accepted, the signal of its word
addresses a group only if that word made the child its leader. -/
theorem signal_addresses (contain : ContainRequest) (flags : FlagsRequest)
    (isRoot : Bool) (backend : SpawnBackend) (spawn : WindowsSpawn)
    (id : ProcessId) (events : List ConsoleEvent) (r : Except Error Unit)
    (h : windowsSpawn contain flags isRoot backend = .ok spawn)
    (hrun : (signal (mechanismFromFlags spawn.creationFlags) id).Runs events
      r) :
    has spawn.creationFlags createNewProcessGroup = contain.mode.isSome ∧
      Addresses contain id events r := by
  obtain ⟨_, hword, _, hmechanism⟩ := windowsSpawn_accepts h
  refine ⟨hword.newGroup, ?_⟩
  rw [hmechanism, mechanismFor] at hrun
  unfold Addresses
  cases hmode : contain.mode with
  | none =>
      have hrefused : (pure (.error noGroupRefusal) :
          Signalling (Except Error Unit)).Runs events r := by
        simpa only [hmode, Option.isNone_none, if_true, signal] using hrun
      obtain ⟨rfl, rfl⟩ := hrefused.of_pure
      exact ⟨rfl, rfl⟩
  | some mode =>
      have hsent : (terminate id.pid).Runs events r := by
        simp only [hmode, Option.isNone_some, Bool.false_eq_true,
          if_false] at hrun
        split at hrun <;> exact hrun
      exact terminate_runs hsent

/-- A contained child of a caller without a console. -/
theorem signal_addresses_console : ∃ spawn : WindowsSpawn,
    has spawn.creationFlags createNewProcessGroup = true ∧
      Addresses ⟨some .strongest, .mark⟩ ⟨100, 7⟩
        [⟨.generateConsoleCtrlEvent 100, .error invalidHandleHresult⟩,
          ⟨.getConsoleProcessList, ⟨0, errorInvalidHandle⟩⟩]
        (.error (noConsole 100)) := by
  have hspawn : windowsSpawn ⟨some .strongest, .mark⟩
      ⟨false, false, false, 0⟩ true .std = .ok ⟨rootFlags, true⟩ := by
    have hraw : has 0 managed = false := has_zero managed
    simp only [windowsSpawn, reservedBitsIn_isEmpty, hraw]
    rfl
  have hmechanism : mechanismFromFlags rootFlags = .consoleGroup := by decide
  refine ⟨_, signal_addresses _ _ _ _ _ ⟨100, 7⟩ _ _ hspawn ?_⟩
  rw [hmechanism]
  exact .ask _ _ _ (.ask _ _ _ (.done _))

/-! ## A spawn that is denied -/

/-- `JobBreakaway`. -/
inductive JobBreakaway where
  | notInJob
  | permitted
  | silentBreakaway
  | forbidden
  | unknown
  deriving DecidableEq

/-- `JOB_OBJECT_LIMIT_BREAKAWAY_OK` and its silent sibling. -/
def jobObjectLimitBreakawayOk : UInt32 := 0x800
def jobObjectLimitSilentBreakawayOk : UInt32 := 0x1000

/-- `probe_job_breakaway`, from what `IsProcessInJob` and
`QueryInformationJobObject` answer about the calling process. -/
def probeJobBreakaway (inJob : Except HResult Bool)
    (limitFlags : Except HResult UInt32) : JobBreakaway :=
  match inJob with
  | .error _ => .unknown
  | .ok false => .notInJob
  | .ok true =>
      match limitFlags with
      | .error _ => .unknown
      | .ok limits =>
          if limits &&& jobObjectLimitBreakawayOk ≠ 0 then .permitted
          else if limits &&& jobObjectLimitSilentBreakawayOk ≠ 0 then
            .silentBreakaway
          else .forbidden

/-- A job is said to forbid a breakaway only if it was read to permit none. -/
theorem probe_forbidden {inJob : Except HResult Bool}
    {limitFlags : Except HResult UInt32}
    (h : probeJobBreakaway inJob limitFlags = .forbidden) :
    inJob = .ok true ∧ ∃ limits, limitFlags = .ok limits ∧
      has limits jobObjectLimitBreakawayOk = false ∧
      has limits jobObjectLimitSilentBreakawayOk = false := by
  unfold probeJobBreakaway at h
  split at h
  · cases h
  · cases h
  · split at h
    · cases h
    · next limits =>
        split at h
        · cases h
        · next hpermits =>
            split at h
            · cases h
            · next hsilent =>
                refine ⟨rfl, limits, rfl, ?_, ?_⟩
                · simpa [has] using hpermits
                · simpa [has] using hsilent

/-- The denial that the job is the cause of. -/
def breakawayDenied : Error :=
  .containment "the spawn was refused with ACCESS_DENIED, and this process's job object sets neither JOB_OBJECT_LIMIT_BREAKAWAY_OK nor JOB_OBJECT_LIMIT_SILENT_BREAKAWAY_OK, so it forbids the breakaway_from_job() this spawn requested. Windows evaluates that check before it resolves the image, so this is the FIRST thing refused and not necessarily the only problem: dropping the request may reveal a different failure rather than making the spawn work. Only whoever created that job can permit breakaway — and if this process was itself spawned by cosca with contain(), the job is cosca's own, which sets neither limit and whose limits a member process cannot relax."

/-- `ERROR_ACCESS_DENIED`, bare and as an `HRESULT`. -/
def IsAccessDenied (e : IoError) : Prop :=
  e = .os 5 ∨ e = HResult.io (HResult.fromWin32 5)

instance (e : IoError) : Decidable (IsAccessDenied e) :=
  inferInstanceAs (Decidable (_ ∨ _))

/-- `classify_spawn_denial`. -/
def classifySpawnDenial (err : Error) (flags : FlagsRequest)
    (job : JobBreakaway) : Error :=
  if !flags.breakawayFromJob then err
  else
    match err with
    | .io e =>
        if ¬ IsAccessDenied e then err
        else if job ≠ .forbidden then err
        else breakawayDenied
    | _ => err

/-- A failure of a spawn that was accepted is passed on, unless the word asked
for a breakaway that the job was measured to forbid. -/
theorem spawnDenial_measured {contain : ContainRequest} {flags : FlagsRequest}
    {isRoot : Bool} {backend : SpawnBackend} {spawn : WindowsSpawn}
    (h : windowsSpawn contain flags isRoot backend = .ok spawn) (err : Error)
    (inJob : Except HResult Bool) (limitFlags : Except HResult UInt32) :
    classifySpawnDenial err flags (probeJobBreakaway inJob limitFlags) = err ∨
      has spawn.creationFlags createBreakawayFromJob = true ∧
        contain.mode = none ∧ (∃ e, err = .io e ∧ IsAccessDenied e) ∧
        inJob = .ok true ∧ ∃ limits, limitFlags = .ok limits ∧
          has limits jobObjectLimitBreakawayOk = false ∧
          has limits jobObjectLimitSilentBreakawayOk = false := by
  obtain ⟨haccept, hword, _⟩ := windowsSpawn_accepts h
  unfold classifySpawnDenial
  cases hbreakaway : flags.breakawayFromJob with
  | false => exact .inl rfl
  | true =>
      rw [Bool.not_true, if_neg Bool.false_ne_true]
      split
      · next e =>
          split
          · exact .inl rfl
          · next hdenied =>
              split
              · exact .inl rfl
              · next hforbidden =>
                  refine .inr ⟨hword.breakaway.trans hbreakaway,
                    haccept.2 hbreakaway,
                    ⟨e, rfl, Decidable.not_not.mp hdenied⟩,
                    probe_forbidden (Decidable.not_not.mp hforbidden)⟩
      · exact .inl rfl

end Cosca.Ports.CreationFlags
