import Mathlib.Algebra.Group.Int.Defs
import Mathlib.Algebra.Group.Nat.Defs

/-!
# Process identities

`identity.rs` and `identity/probe.rs`: a process is known by its pid and its
start token, and `kill(2)` is aimed through `signal_target`.
-/

namespace Cosca.Ports.Identity

/-- `RawPid`. -/
abbrev RawPid := UInt32

/-- `ProcessId`. -/
structure ProcessId where
  pid : RawPid
  start : UInt64
  deriving DecidableEq, Repr

/-- `Resolved`. -/
inductive Resolved (α : Type) where
  | found (value : α)
  | gone
  | unknown
  deriving DecidableEq, Repr

/-- `Resolved::map`. -/
def Resolved.map {α β : Type} (f : α → β) : Resolved α → Resolved β
  | .found a => .found (f a)
  | .gone => .gone
  | .unknown => .unknown

/-- `ProcessId::of`, from the start token the backend reads for the pid. -/
def ProcessId.of (pid : RawPid) (start : Resolved UInt64) :
    Resolved ProcessId :=
  start.map fun start => ⟨pid, start⟩

/-- The signals a teardown sends. -/
inductive Signal where
  | sigterm
  | sigkill
  deriving DecidableEq, Repr

/-- `signal_target`: the pid as a positive `i32`. -/
def signalTarget (pid : RawPid) : Option Int32 :=
  if pid.toNat < 2 ^ 31 then
    if 0 < pid.toInt32 then some pid.toInt32 else none
  else none

theorem RawPid.toInt_toInt32 {pid : RawPid} (h : pid.toNat < 2 ^ 31) :
    pid.toInt32.toInt = (pid.toNat : Int) := by
  rw [← Int32.toInt_toBitVec]
  show pid.toBitVec.toInt = _
  rw [BitVec.toInt_eq_toNat_of_lt]
  · rfl
  · show 2 * pid.toNat < 2 ^ 32
    omega

/-- Past the signed range the number wraps to a negative one. -/
theorem RawPid.toInt32_neg {pid : RawPid} (h : ¬ pid.toNat < 2 ^ 31) :
    pid.toInt32 < 0 := by
  rw [Int32.lt_iff_toInt_lt, ← Int32.toInt_toBitVec]
  show pid.toBitVec.toInt < 0
  have hlt := pid.toNat_lt
  rw [BitVec.toInt_eq_toNat_cond]
  rw [if_neg (by show ¬ (2 * pid.toNat < 2 ^ 32); omega)]
  show (pid.toNat : Int) - 2 ^ 32 < 0
  omega

theorem signalTarget_isSome_iff (pid : RawPid) :
    (signalTarget pid).isSome = true ↔
      0 < pid.toNat ∧ pid.toNat < 2 ^ 31 := by
  unfold signalTarget
  by_cases hlt : pid.toNat < 2 ^ 31
  · have hint := RawPid.toInt_toInt32 hlt
    have hpos : 0 < pid.toInt32 ↔ 0 < pid.toNat := by
      rw [Int32.lt_iff_toInt_lt, hint]
      show (0 : Int) < _ ↔ _
      omega
    rw [if_pos hlt]
    by_cases h : 0 < pid.toNat
    · rw [if_pos (hpos.mpr h)]
      exact ⟨fun _ => ⟨h, hlt⟩, fun _ => rfl⟩
    · rw [if_neg (mt hpos.mp h)]
      exact ⟨nofun, fun hboth => absurd hboth.1 h⟩
  · rw [if_neg hlt]
    exact ⟨nofun, fun hboth => absurd hboth.2 hlt⟩

/-- `Existence`. -/
inductive Existence where
  | present
  | gone
  | unknown
  deriving DecidableEq, Repr

/-- `Liveness`. -/
inductive Liveness where
  | alive
  | dead
  | unknown
  deriving DecidableEq, Repr

/-- `ProcessId::exists`, from the start token the backend reads. -/
def ProcessId.exists (id : ProcessId) : Resolved UInt64 → Existence
  | .found start => if start == id.start then .present else .gone
  | .gone => .gone
  | .unknown => .unknown

end Cosca.Ports.Identity
