import Cosca.Ports.FdMarker
import Cosca.Verified.Rely

/-!
# The pipe descriptors of a process

The descriptor scans of `containment/fdmarker.rs`: `pipe_fds_of` asks macOS for
the pipe descriptors of a process, with a buffer that is doubled until it is
larger than the answer, and `fd_pipe_info` for the pipe behind one of them.
`holders` finds the processes that hold a marker, and `holds_marker_query` asks
again about one of them.

## Main results

* `fdPipeInfo_guarantees`: what is said of one descriptor is so at an instant.
* `pipeFdsOf_guarantees`: a list is that of one instant, and whole.
-/

namespace Cosca.Ports.PipeFds

open Cosca.Ports.Identity (RawPid)
open Cosca.Ports.FdMarker (MarkerQuery)
open Cosca.Verified.Interact

/-! ## Calls -/

/-- `proc_fdinfo`. -/
structure ProcFdinfo where
  procFd : Int32
  procFdtype : UInt32
  deriving DecidableEq

/-- `PipeFdInfo`: what is read of it. -/
structure PipeFdInfo where
  fiStatus : UInt32
  pipeHandle : UInt64
  pipePeerhandle : UInt64
  deriving DecidableEq

/-- What a call returned, and `errno`, which is cleared before it. -/
structure Returned where
  value : Int32
  errno : Int
  deriving DecidableEq

/-- The calls of a scan. -/
inductive PipeCall where
  /-- `proc_pidfdinfo` with `PROC_PIDFDPIPEINFO`. -/
  | procPidfdinfo (pid : RawPid) (fd : Int32)
  /-- `proc_pidinfo` with `PROC_PIDLISTFDS` and no buffer. -/
  | sizeOfFds (pid : RawPid)
  /-- `proc_pidinfo` with `PROC_PIDLISTFDS`. -/
  | procPidinfo (pid : RawPid) (bufBytes : Int32)

/-- What a call returns, with what it has written. -/
abbrev PipeCall.Reply : PipeCall → Type
  | .procPidfdinfo .. => Returned × PipeFdInfo
  | .sizeOfFds _ => Returned
  | .procPidinfo .. => Returned × List ProcFdinfo

/-- A program that scans. -/
abbrev Scanning := Prog PipeCall PipeCall.Reply

abbrev call (c : PipeCall) : Scanning c.Reply :=
  query c

/-! ## One descriptor -/

/-- `ESRCH`, `EBADF` and `EPERM`. -/
def esrch : Int := 3
def ebadf : Int := 9
def eperm : Int := 1

/-- The sizes of `PipeFdInfo` and of `proc_fdinfo`. -/
def pipeFdInfoSize : Int32 := 184
def procFdinfoSize : Nat := 8

/-- `PROX_FDTYPE_PIPE`. -/
def proxFdtypePipe : UInt32 := 6

/-- `PROC_FP_CLEXEC`. -/
def procFpClexec : UInt32 := 2

/-- `FdPipeInfoQuery`. -/
inductive FdPipeInfoQuery where
  | found (info : PipeFdInfo)
  | absent
  | denied
  deriving DecidableEq

/-- What `fd_pipe_info` makes of the reply. -/
def classifyPipeInfo (returned : Returned) (info : PipeFdInfo) :
    FdPipeInfoQuery :=
  if returned.value = pipeFdInfoSize then .found info
  else if returned.errno = 0 ∨ returned.errno = esrch ∨ returned.errno = ebadf
  then .absent
  else .denied

/-- `fd_pipe_info`. -/
def fdPipeInfo (pid : RawPid) (fd : Int32) : Scanning FdPipeInfoQuery := do
  let reply : Returned × PipeFdInfo ← call (.procPidfdinfo pid fd)
  return classifyPipeInfo reply.1 reply.2

/-! ## The descriptors of a process -/

/-- `PipeQuery`. -/
inductive PipeQuery where
  | found (fds : List Int32)
  | gone
  | denied
  deriving DecidableEq

/-- `classify_pidlistfds_failure`. -/
def classifyPidlistfdsFailure (errno : Int) : PipeQuery :=
  if errno = 0 then .found []
  else if errno = esrch then .gone
  else .denied

/-- `fd_list_buf_bytes`; its error is only logged. -/
def fdListBufBytes (cap entry : Nat) : Option Int32 :=
  if cap * entry < 2 ^ 31 then some (.ofNat (cap * entry)) else none

theorem lt_of_fdListBufBytes {cap entry : Nat} {bytes : Int32}
    (h : fdListBufBytes cap entry = some bytes) :
    cap * entry < 2 ^ 31 ∧ bytes.toInt = cap * entry := by
  unfold fdListBufBytes at h
  split at h
  · next hfits =>
      obtain rfl := Option.some.inj h
      exact ⟨hfits, Int32.toInt_ofNat_of_lt hfits⟩
  · cases h

theorem le_of_fdListBufBytes {cap entry : Nat}
    (h : fdListBufBytes cap entry = none) : 2 ^ 31 ≤ cap * entry := by
  unfold fdListBufBytes at h
  split at h
  · cases h
  · next hlarge => exact Nat.not_lt.mp hlarge

/-- The pipes of a list. -/
def pipesOf (fds : List ProcFdinfo) : List Int32 :=
  (fds.filter fun f => f.procFdtype == proxFdtypePipe).map (·.procFd)

/-- The loop of `pipe_fds_of`. -/
def fillFrom (pid : RawPid) (cap : Nat) (hcap : 0 < cap) :
    Scanning PipeQuery :=
  match hbytes : fdListBufBytes cap procFdinfoSize with
  | none => return .denied
  | some bytes => do
      let filled : Returned × List ProcFdinfo ← call (.procPidinfo pid bytes)
      let written := filled.1.value.toInt
      if written ≤ 0 then return classifyPidlistfdsFailure filled.1.errno
      else
        let count := written.toNat / procFdinfoSize
        if count > cap then return .denied
        else if count = cap then
          fillFrom pid (cap * 2) (Nat.mul_pos hcap (by decide))
        else return .found (pipesOf (filled.2.take count))
termination_by 2 ^ 31 - cap
decreasing_by
  have hfits := (lt_of_fdListBufBytes hbytes).1
  simp only [procFdinfoSize] at hfits
  omega

/-- `pipe_fds_of`. -/
def pipeFdsOf (pid : RawPid) : Scanning PipeQuery := do
  let needed : Returned ← call (.sizeOfFds pid)
  if needed.value.toInt ≤ 0 then return classifyPidlistfdsFailure needed.errno
  else
    fillFrom pid (needed.value.toInt.toNat / procFdinfoSize + 16)
      (Nat.succ_pos _)

/-! ## The scans -/

/-- `Holder`. -/
structure Holder where
  pid : RawPid
  clexec : Bool
  deriving DecidableEq

/-- What is known of a process: whether it was found, and whether all its
copies close at exec. -/
structure Copies where
  found : Bool
  allClexec : Bool

/-- The body of the loop over the descriptors of a process. -/
def visitFd (handle : UInt64) (pid : RawPid) (acc : Copies) (fd : Int32) :
    Scanning Copies := do
  let info ← fdPipeInfo pid fd
  return match info with
    | .found info =>
        if info.pipeHandle ≠ handle then acc
        else ⟨true, acc.allClexec && (info.fiStatus &&& procFpClexec) != 0⟩
    | .absent | .denied => acc

/-- A process is listed if it was found. -/
def Copies.list (copies : Copies) (pid : RawPid) (out : List Holder) :
    List Holder :=
  if copies.found then out ++ [⟨pid, copies.allClexec⟩] else out

/-- The body of the loop over the processes. -/
def visitPid (handle : UInt64) (out : List Holder) (pid : RawPid) :
    Scanning (List Holder) := do
  let fds ← pipeFdsOf pid
  match fds with
  | .found fds => do
      let copies ← fds.foldlM (visitFd handle pid) ⟨false, true⟩
      return copies.list pid out
  | .gone | .denied => return out

/-- `holders`. -/
def holders (handle : UInt64) (pids : List RawPid) :
    Scanning (List Holder) :=
  pids.foldlM (visitPid handle) []

/-- The loop of `holds_marker_query`. -/
def holdsOn (pid : RawPid) (handle : UInt64) : List Int32 →
    Scanning MarkerQuery
  | [] => return .notHeld
  | fd :: fds => do
      let info ← fdPipeInfo pid fd
      match info with
      | .found info =>
          if info.pipeHandle = handle then return .held
          else holdsOn pid handle fds
      | .absent => holdsOn pid handle fds
      | .denied => return .denied

/-- `holds_marker_query`. -/
def holdsMarkerQuery (pid : RawPid) (handle : UInt64) :
    Scanning MarkerQuery := do
  let fds ← pipeFdsOf pid
  match fds with
  | .found fds => holdsOn pid handle fds
  | .gone => return .notHeld
  | .denied => return .denied

/-! ## The kernel -/

/-- The end of a pipe behind a descriptor. -/
structure PipeEnd where
  handle : UInt64
  peer : UInt64
  cloexec : Bool
  deriving DecidableEq

/-- A process: its descriptors, with the pipe behind each that is one, how many
its table has room for, and whether the supervisor may ask about them. -/
structure Process where
  numbers : List Int32
  pipe : Int32 → Option PipeEnd
  slots : Nat
  allowed : Bool
  numbered : ∀ fd, (pipe fd).isSome → fd ∈ numbers
  room : numbers.length ≤ slots

/-- The processes of the host. -/
structure Kernel where
  table : RawPid → Option Process

/-- A refused call. -/
def Refused (returned : Returned) (errno : Int) : Prop :=
  returned.value.toInt ≤ 0 ∧ returned.errno = errno

/-- The list of a process, cut off where the buffer ends. -/
structure Process.Lists (p : Process) (bufBytes : Int32)
    (returned : Returned) (written : List ProcFdinfo) : Prop where
  order : ∃ order : List Int32, order.Perm p.numbers ∧
    written.map (·.procFd) = order.take (bufBytes.toInt.toNat / procFdinfoSize)
  types : ∀ f ∈ written,
    f.procFdtype = proxFdtypePipe ↔ (p.pipe f.procFd).isSome
  value : returned.value.toInt = written.length * procFdinfoSize
  errno : returned.errno = 0

/-- What the kernel answers. -/
def Kernel.serves (k : Kernel) : (c : PipeCall) → c.Reply → Prop
  | .procPidfdinfo pid fd, (returned, info) =>
      match k.table pid with
      | none => Refused returned esrch
      | some p =>
          if p.allowed then
            match p.pipe fd with
            | none => Refused returned ebadf
            | some e => returned.value = pipeFdInfoSize ∧
                info.pipeHandle = e.handle ∧ info.pipePeerhandle = e.peer ∧
                (info.fiStatus &&& procFpClexec != 0) = e.cloexec
          else Refused returned eperm
  | .sizeOfFds pid, returned =>
      match k.table pid with
      | none => Refused returned esrch
      | some p =>
          if p.allowed then returned.errno = 0 ∧
            returned.value.toInt = p.slots * procFdinfoSize
          else Refused returned eperm
  | .procPidinfo pid bytes, (returned, written) =>
      match k.table pid with
      | none => Refused returned esrch
      | some p =>
          if p.allowed then p.Lists bytes returned written
          else Refused returned eperm

/-- The pipe behind a descriptor, where the supervisor may ask. -/
def Kernel.pipeAt (k : Kernel) (pid : RawPid) (fd : Int32) : Option PipeEnd :=
  (k.table pid).bind (·.pipe fd)

/-- The process holds the pipe on this descriptor. -/
def Kernel.Holds (k : Kernel) (pid : RawPid) (fd : Int32) (handle : UInt64) :
    Prop :=
  ∃ e, k.pipeAt pid fd = some e ∧ e.handle = handle

/-- It keeps the pipe on this descriptor when it execs. -/
def Kernel.Keeps (k : Kernel) (pid : RawPid) (fd : Int32) (handle : UInt64) :
    Prop :=
  ∃ e, k.pipeAt pid fd = some e ∧ e.handle = handle ∧ e.cloexec = false

/-- The process can be asked about, and its list fits a buffer. -/
def Kernel.Plain (k : Kernel) (pid : RawPid) : Prop :=
  ∃ p, k.table pid = some p ∧ p.allowed = true ∧ p.slots < 2 ^ 27

/-- What may be said of the descriptors of a process. -/
def Kernel.Tells (k : Kernel) (pid : RawPid) : PipeQuery → Prop
  | .found fds => ∃ p, k.table pid = some p ∧
      ∀ fd, fd ∈ fds ↔ (p.pipe fd).isSome
  | .gone => k.table pid = none
  | .denied => ¬ k.Plain pid

/-- What may be said of one descriptor. -/
def Kernel.TellsFd (k : Kernel) (pid : RawPid) (fd : Int32) :
    FdPipeInfoQuery → Prop
  | .found info => ∃ e, k.pipeAt pid fd = some e ∧
      info.pipeHandle = e.handle ∧ info.pipePeerhandle = e.peer ∧
      (info.fiStatus &&& procFpClexec != 0) = e.cloexec
  | .absent => k.pipeAt pid fd = none
  | .denied => ¬ k.Plain pid

/-! ## One call -/

section Calls

variable {k : Kernel} {pid : RawPid} {fd : Int32} {returned : Returned}

theorem Kernel.Plain.allowed (h : k.Plain pid) {p : Process}
    (hp : k.table pid = some p) : p.allowed = true ∧ p.slots < 2 ^ 27 := by
  obtain ⟨q, hq, hallowed, hslots⟩ := h
  cases Option.some.inj (hp.symm.trans hq)
  exact ⟨hallowed, hslots⟩

theorem not_plain_of_refused {p : Process} (hp : k.table pid = some p)
    (hrefused : p.allowed = false) : ¬ k.Plain pid :=
  fun h => Bool.false_ne_true (hrefused.symm.trans (h.allowed hp).1)

theorem not_plain_of_crowded {p : Process} (hp : k.table pid = some p)
    (hslots : 2 ^ 27 ≤ p.slots) : ¬ k.Plain pid :=
  fun h => absurd hslots (Nat.not_le.mpr (h.allowed hp).2)

theorem Refused.ne_size {errno : Int} (h : Refused returned errno) :
    returned.value ≠ pipeFdInfoSize := by
  intro hsize
  have hvalue := h.1
  rw [hsize] at hvalue
  exact absurd hvalue (by decide)

theorem tellsFd_of_serves {info : PipeFdInfo}
    (h : k.serves (.procPidfdinfo pid fd) (returned, info)) :
    k.TellsFd pid fd (classifyPipeInfo returned info) := by
  unfold classifyPipeInfo
  cases hp : k.table pid with
  | none =>
      have hrefused : Refused returned esrch := by
        simpa only [Kernel.serves, hp] using h
      rw [if_neg hrefused.ne_size, if_pos (.inr (.inl hrefused.2))]
      simp [Kernel.TellsFd, Kernel.pipeAt, hp]
  | some p =>
      cases hallowed : p.allowed with
      | false =>
          have hrefused : Refused returned eperm := by
            simpa [Kernel.serves, hp, hallowed] using h
          have herrno : ¬ (returned.errno = 0 ∨ returned.errno = esrch ∨
              returned.errno = ebadf) := by
            rw [hrefused.2]
            decide
          rw [if_neg hrefused.ne_size, if_neg herrno]
          exact not_plain_of_refused hp hallowed
      | true =>
          have hat : k.pipeAt pid fd = p.pipe fd := by
            simp [Kernel.pipeAt, hp]
          cases hpipe : p.pipe fd with
          | none =>
              have hrefused : Refused returned ebadf := by
                simpa [Kernel.serves, hp, hallowed, hpipe] using h
              rw [if_neg hrefused.ne_size, if_pos (.inr (.inr hrefused.2))]
              exact hat.trans hpipe
          | some e =>
              have hfound : returned.value = pipeFdInfoSize ∧
                  info.pipeHandle = e.handle ∧ info.pipePeerhandle = e.peer ∧
                  (info.fiStatus &&& procFpClexec != 0) = e.cloexec := by
                simpa only [Kernel.serves, hp, hallowed, hpipe, if_true] using h
              rw [if_pos hfound.1]
              exact ⟨e, hat.trans hpipe, hfound.2⟩

/-- A call that may not be asked, or whose process is gone. -/
theorem tells_of_refused {errno : Int} (h : Refused returned errno)
    (herrno : errno = esrch ∧ k.table pid = none ∨
      errno = eperm ∧ ¬ k.Plain pid) :
    k.Tells pid (classifyPidlistfdsFailure returned.errno) := by
  rw [h.2]
  obtain ⟨rfl, hgone⟩ | ⟨rfl, hdenied⟩ := herrno
  · exact hgone
  · exact hdenied

/-- No process, or one that may not be asked about, or an answer. -/
theorem answer_cases {good : Process → Prop}
    (h : match k.table pid with
      | none => Refused returned esrch
      | some p => if p.allowed then good p else Refused returned eperm) :
    (∃ errno, Refused returned errno ∧ (errno = esrch ∧ k.table pid = none ∨
      errno = eperm ∧ ¬ k.Plain pid)) ∨
    ∃ p, k.table pid = some p ∧ good p := by
  cases hp : k.table pid with
  | none =>
      simp only [hp] at h
      exact .inl ⟨_, h, .inl ⟨rfl, rfl⟩⟩
  | some p =>
      simp only [hp] at h
      cases hallowed : p.allowed with
      | false =>
          rw [hallowed, if_neg Bool.false_ne_true] at h
          exact .inl ⟨_, h, .inr ⟨rfl, not_plain_of_refused hp hallowed⟩⟩
      | true =>
          rw [hallowed, if_pos rfl] at h
          exact .inr ⟨p, rfl, h⟩

/-- A process without descriptors. -/
theorem tells_nil {p : Process} (hp : k.table pid = some p)
    (hnone : p.numbers = []) : k.Tells pid (.found []) := by
  refine ⟨p, hp, fun fd => ⟨fun hmem => absurd hmem List.not_mem_nil,
    fun hpipe => ?_⟩⟩
  rw [← hnone]
  exact p.numbered fd hpipe

/-- The size of a table without descriptors. -/
theorem tells_of_no_size (h : k.serves (.sizeOfFds pid) returned)
    (hsize : returned.value.toInt ≤ 0) :
    k.Tells pid (classifyPidlistfdsFailure returned.errno) := by
  obtain ⟨errno, hrefused, herrno⟩ | ⟨p, hp, herrno, hvalue⟩ :=
    answer_cases h
  · exact tells_of_refused hrefused herrno
  · rw [herrno]
    have hroom := p.room
    have hslots : p.slots = 0 := by
      simp only [procFdinfoSize] at hvalue
      omega
    exact tells_nil hp (List.length_eq_zero_iff.mp (by omega))

/-- A table that no buffer is large enough for. -/
theorem tells_of_crowded (h : k.serves (.sizeOfFds pid) returned)
    (hsize : ¬ returned.value.toInt ≤ 0)
    (hcrowded : fdListBufBytes
      (returned.value.toInt.toNat / procFdinfoSize + 16) procFdinfoSize =
        none) : k.Tells pid .denied := by
  obtain ⟨errno, hrefused, _⟩ | ⟨p, hp, _, hvalue⟩ :=
    answer_cases h
  · exact absurd hrefused.1 hsize
  · refine not_plain_of_crowded hp ?_
    have hlarge := le_of_fdListBufBytes hcrowded
    simp only [procFdinfoSize] at hvalue hlarge
    omega

section Lists

variable {p : Process} {written : List ProcFdinfo} {bytes : Int32} {cap : Nat}

theorem Process.Lists.length (h : p.Lists bytes returned written)
    (hbytes : bytes.toInt = cap * procFdinfoSize) :
    written.length = min cap p.numbers.length := by
  obtain ⟨order, hperm, hmap⟩ := h.order
  have hlength := congrArg List.length hmap
  rw [List.length_map, List.length_take, hperm.length_eq, hbytes] at hlength
  simp only [procFdinfoSize] at hlength
  omega

/-- A list that is shorter than its buffer is whole. -/
theorem Process.Lists.mem_pipesOf (h : p.Lists bytes returned written)
    (hbytes : bytes.toInt = cap * procFdinfoSize)
    (hshort : written.length < cap) (fd : Int32) :
    fd ∈ pipesOf written ↔ (p.pipe fd).isSome := by
  have hlength := h.length hbytes
  obtain ⟨order, hperm, hmap⟩ := h.order
  have hwhole : written.map (·.procFd) = order := by
    rw [hmap, List.take_of_length_le]
    rw [hperm.length_eq, hbytes]
    simp only [procFdinfoSize]
    omega
  have hmem : ∀ fd, fd ∈ written.map (·.procFd) ↔ fd ∈ p.numbers := by
    intro fd
    rw [hwhole]
    exact hperm.mem_iff
  simp only [pipesOf, List.mem_map, List.mem_filter, beq_iff_eq]
  constructor
  · rintro ⟨f, ⟨hf, htype⟩, rfl⟩
    exact (h.types f hf).mp htype
  · intro hpipe
    obtain ⟨f, hf, rfl⟩ := List.mem_map.mp ((hmem fd).mpr
      (p.numbered fd hpipe))
    exact ⟨f, ⟨hf, (h.types f hf).mpr hpipe⟩, rfl⟩

end Lists

/-- What the loop makes of a list call. -/
theorem tells_of_list {bytes : Int32} {cap : Nat} {written : List ProcFdinfo}
    (hcap : 0 < cap) (hbytes : bytes.toInt = cap * procFdinfoSize)
    (h : k.serves (.procPidinfo pid bytes) (returned, written)) :
    (returned.value.toInt ≤ 0 →
      k.Tells pid (classifyPidlistfdsFailure returned.errno)) ∧
    (¬ returned.value.toInt ≤ 0 →
      let count := returned.value.toInt.toNat / procFdinfoSize
      count ≤ cap ∧
      (count = cap → fdListBufBytes (cap * 2) procFdinfoSize = none →
        k.Tells pid .denied) ∧
      (count < cap → k.Tells pid (.found (pipesOf (written.take count))))) := by
  obtain ⟨errno, hrefused, herrno⟩ | ⟨p, hp, hlists⟩ :=
    answer_cases h
  · exact ⟨fun _ => tells_of_refused hrefused herrno,
      fun hpos => absurd hrefused.1 hpos⟩
  · have hlength := hlists.length hbytes
    have hvalue := hlists.value
    have hroom := p.room
    simp only [procFdinfoSize] at hvalue
    constructor
    · intro hempty
      rw [hlists.errno]
      exact tells_nil hp (List.length_eq_zero_iff.mp (by omega))
    · intro _
      have hcount : returned.value.toInt.toNat / procFdinfoSize =
          written.length := by
        simp only [procFdinfoSize]
        omega
      simp only [hcount]
      refine ⟨by omega, fun hfull hlarge => ?_, fun hshort => ?_⟩
      · refine not_plain_of_crowded hp ?_
        have hbig := le_of_fdListBufBytes hlarge
        simp only [procFdinfoSize] at hbig
        omega
      · rw [List.take_length]
        exact ⟨p, hp, hlists.mem_pipesOf hbytes hshort⟩

end Calls

/-! ## Rules for the scans -/

/-- The environment answers as the kernel that it has in view. -/
def Answers {K : Type} (env : Environment PipeCall.Reply K)
    (view : K → Kernel) : Prop :=
  ∀ s c a s', env.serves s c a s' → (view s).serves c a

section Rules

variable {K : Type} {env : Environment PipeCall.Reply K} {view : K → Kernel}
  {pid : RawPid} {fd : Int32} {pre : K → Prop}

theorem fdPipeInfo_guarantees {post : FdPipeInfoQuery → K → Prop}
    (hanswers : Answers env view) (hpre : env.Stable pre)
    (hpost : ∀ q, env.Stable (post q))
    (htell : ∀ s c a s' q, env.serves s c a s' →
      (view s).TellsFd pid fd q → pre s → post q s') :
    (fdPipeInfo pid fd).Guarantees env pre post := by
  refine .query_bind (fun reply => post (classifyPipeInfo reply.1 reply.2))
    hpre (fun s reply s' h hs => ?_) fun reply => ?_
  · exact htell _ _ _ _ _ h (tellsFd_of_serves (hanswers _ _ _ _ h)) hs
  · exact .pure (hpost _) fun _ h => h

variable {post : PipeQuery → K → Prop} (hanswers : Answers env view)
  (hpre : env.Stable pre) (hpost : ∀ q, env.Stable (post q))
  (hkeep : ∀ s c a s', env.serves s c a s' → pre s → pre s')
  (htell : ∀ s c a s' q, env.serves s c a s' → (view s).Tells pid q →
    pre s → post q s')

include hanswers hpre hpost hkeep htell

/-- The loop: a buffer that cannot be described has been told already. -/
theorem fillFrom_guarantees (cap : Nat) (hcap : 0 < cap) :
    (fillFrom pid cap hcap).Guarantees env
      (fun s => pre s ∧ (fdListBufBytes cap procFdinfoSize = none →
        post .denied s)) post := by
  induction hleft : 2 ^ 31 - cap using Nat.strongRecOn generalizing cap with
  | ind n ih =>
      rw [fillFrom]
      split
      · next hnone =>
          exact Prog.Guarantees.pure (hpre.and ((hpost .denied).imp _))
            fun s hs => hs.2 hnone
      · next bytes hbytes =>
          obtain ⟨hfits, hvalue⟩ := lt_of_fdListBufBytes hbytes
          refine .query_bind (fun filled s =>
            (filled.1.value.toInt ≤ 0 →
              post (classifyPidlistfdsFailure filled.1.errno) s) ∧
            (¬ filled.1.value.toInt ≤ 0 →
              let count := filled.1.value.toInt.toNat / procFdinfoSize
              count ≤ cap ∧
              (count = cap → pre s ∧
                (fdListBufBytes (cap * 2) procFdinfoSize = none →
                  post .denied s)) ∧
              (count < cap → post (.found (pipesOf (filled.2.take count))) s)))
            (hpre.and ((hpost .denied).imp _)) ?_ fun filled => ?_
          · intro s filled s' h hs
            have htells := tells_of_list hcap hvalue (hanswers _ _ _ _ h)
            refine ⟨fun hempty => htell _ _ _ _ _ h (htells.1 hempty) hs.1,
              fun hpos => ?_⟩
            obtain ⟨hle, hfull, hshort⟩ := htells.2 hpos
            exact ⟨hle, fun heq => ⟨hkeep _ _ _ _ h hs.1, fun hnone =>
              htell _ _ _ _ _ h (hfull heq hnone) hs.1⟩,
              fun hlt => htell _ _ _ _ _ h (hshort hlt) hs.1⟩
          · by_cases hempty : filled.1.value.toInt ≤ 0
            · rw [if_pos hempty]
              exact Prog.Guarantees.conseq (.pure (hpost _) fun _ h => h)
                (fun s hs => hs.1 hempty) fun _ _ h => h
            · rw [if_neg hempty]
              refine Prog.Guarantees.conseq ?_ (fun s hs => hs.2 hempty)
                fun _ _ h => h
              refine .given fun hle => ?_
              rw [if_neg (Nat.not_lt.mpr hle)]
              by_cases hfull : filled.1.value.toInt.toNat / procFdinfoSize = cap
              · rw [if_pos hfull]
                refine (ih _ ?_ _ _ rfl).conseq (fun s hs => hs.1 hfull)
                  fun _ _ h => h
                simp only [procFdinfoSize] at hfits
                omega
              · rw [if_neg hfull]
                exact Prog.Guarantees.conseq (.pure (hpost _) fun _ h => h)
                  (fun s hs => hs.2 (Nat.lt_of_le_of_ne hle hfull))
                  fun _ _ h => h

/-- What `pipe_fds_of` says is so at an instant. -/
theorem pipeFdsOf_guarantees : (pipeFdsOf pid).Guarantees env pre post := by
  refine .query_bind (fun needed s =>
    (needed.value.toInt ≤ 0 →
      post (classifyPidlistfdsFailure needed.errno) s) ∧
    (¬ needed.value.toInt ≤ 0 → pre s ∧ (fdListBufBytes
      (needed.value.toInt.toNat / procFdinfoSize + 16) procFdinfoSize = none →
        post .denied s))) hpre ?_ fun needed => ?_
  · intro s needed s' h hs
    have hserves := hanswers _ _ _ _ h
    exact ⟨fun hempty => htell _ _ _ _ _ h (tells_of_no_size hserves hempty) hs,
      fun hpos => ⟨hkeep _ _ _ _ h hs, fun hnone =>
        htell _ _ _ _ _ h (tells_of_crowded hserves hpos hnone) hs⟩⟩
  · by_cases hempty : needed.value.toInt ≤ 0
    · rw [if_pos hempty]
      exact Prog.Guarantees.conseq (.pure (hpost _) fun _ h => h)
        (fun s hs => hs.1 hempty) fun _ _ h => h
    · rw [if_neg hempty]
      exact (fillFrom_guarantees hanswers hpre hpost hkeep htell _ _).conseq
        (fun s hs => hs.2 hempty) fun _ _ h => h

end Rules

end Cosca.Ports.PipeFds
