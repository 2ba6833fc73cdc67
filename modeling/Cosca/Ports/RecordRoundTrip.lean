import Cosca.Ports.StartToken

/-!
# Records restored in the session that wrote them

`identity/persist.rs`: `to_record` checks nothing, so a record comes back only
if the identities that exist lie inside what `validate` takes.

## Main results

* `restore_recordFrom_iff`: every record comes back, the kernel's on macOS
  excepted.
-/

namespace Cosca.Ports.RecordRoundTrip

open Cosca.Ports.Errors
open Cosca.Ports.Identity
open Cosca.Ports.IdentityRecord
open Cosca.Ports.StartToken

variable (io : IoError → String) (printable : Char → Bool)

/-- A record read in the session that wrote it: the pid alone decides. -/
theorem acceptable_recordFrom_iff {target : Target} {id : ProcessId}
    {scope : Scope} {record : ProcessIdRecord}
    (h : recordFrom io target id (.ok scope) = .ok record) :
    Acceptable record (Platform.current target) scope ↔
      pidIsAddressable id.pid (Platform.current target) = true := by
  have hrecord := Except.ok.inj h
  subst hrecord
  constructor
  · intro haccept
    exact haccept.pid
  · intro hpid
    exact
      { version := rfl
        platform := rfl
        pid := hpid
        bootId := fun _ hlive => hlive
        pidNs := fun _ hlive => hlive }

/-- For every identity a process gets hold of, and every session: its record
is restored to it there exactly when it is not macOS's kernel, pid 0. -/
theorem restore_recordFrom_iff {backend : Backend} {self : RawPid}
    (hdoc : backend.Documented self) {id : ProcessId}
    (hid : Produced backend self id) {scope : Scope}
    {record : ProcessIdRecord}
    (hwritten :
      recordFrom io backend.target id (.ok scope) = .ok record) :
    restore io printable record (Platform.current backend.target)
        (.ok scope) = .ok id ↔
      ¬(backend.target = .macOs ∧ id.pid = 0) := by
  have hid' : id = ⟨record.pid, record.token⟩ := by
    rw [← Except.ok.inj hwritten]
  rw [restore_eq_ok_iff, acceptable_recordFrom_iff io hwritten]
  constructor
  · rintro ⟨hpid, -⟩ ⟨hmac, hzero⟩
    rw [hmac, hzero] at hpid
    exact absurd hpid (by decide)
  · intro hnot
    rcases Produced.addressable hdoc hid with hpid | hkernel
    · exact ⟨hpid, hid'⟩
    · exact absurd hkernel hnot

/-! ## The kernel's record -/

/-- A macOS host that knows its kernel and the process 42. -/
def sampleMac : MacosReads where
  procPidinfo pid :=
    if pid = 0 then (136, ⟨1700000000, 5⟩)
    else if pid = 42 then (136, ⟨1700000001, 6⟩)
    else (0, ⟨0, 0⟩)
  sysctl _ := .ok (0, ⟨0, 0⟩)

theorem sampleMac_documented : (Backend.macOs sampleMac).Documented 42 := by
  refine ⟨?_, by decide⟩
  intro pid hneg
  have hzero : pid ≠ 0 := by
    rintro rfl
    exact absurd hneg (by decide)
  have hself : pid ≠ 42 := by
    rintro rfl
    exact absurd hneg (by decide)
  refine ⟨?_, rfl⟩
  simp [sampleMac, hzero, hself]

/-- The process 42's own record comes back. -/
theorem restore_recordFrom_self :
    restore (fun _ => "") (fun _ => true)
        ⟨1, .macOs, 42, 1700000001000006, none, none⟩ .macOs
        (.ok Scope.none) = .ok ⟨42, 1700000001000006⟩ := by
  have hid : Produced (.macOs sampleMac) 42 ⟨42, 1700000001000006⟩ :=
    Produced.current (by decide)
  have hwritten : recordFrom (fun _ => "") (Backend.macOs sampleMac).target
      ⟨42, 1700000001000006⟩ (.ok Scope.none) =
        .ok ⟨1, .macOs, 42, 1700000001000006, none, none⟩ := rfl
  exact (restore_recordFrom_iff (fun _ => "") (fun _ => true)
    sampleMac_documented hid hwritten).mpr (by decide)

/-- The kernel resolves on macOS and its record is written, but is refused
where it was written. -/
theorem restore_recordFrom_kernel :
    ProcessId.of 0 ((Backend.macOs sampleMac).startToken 0) =
        .found ⟨0, 1700000000000005⟩ ∧
      recordFrom (fun _ => "") .macOs ⟨0, 1700000000000005⟩
          (.ok Scope.none) =
        .ok ⟨1, .macOs, 0, 1700000000000005, none, none⟩ ∧
      restore (fun _ => "") (fun _ => true)
          ⟨1, .macOs, 0, 1700000000000005, none, none⟩ .macOs
          (.ok Scope.none) =
        .error (reject (fun _ => true)
          ⟨1, .macOs, 0, 1700000000000005, none, none⟩ Scope.none
          .invalidPid) :=
  ⟨by decide, rfl, rfl⟩

end Cosca.Ports.RecordRoundTrip
