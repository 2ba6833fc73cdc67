import Mathlib.Algebra.Group.Int.Defs
import Mathlib.Algebra.Group.Nat.Defs

/-!
# Checked arithmetic and points in time

Arithmetic on 64-bit numbers that faults where it leaves the range, durations,
and the two layouts of a point in time: signed seconds with nanoseconds, and
signed intervals of 100 ns since 1601.

## Main results

* `Timespec.epoch_add`, `Filetime.epoch_add`: the durations that can be added
  to the start of 1970.
-/

namespace Cosca.Verified.Checked

/-- What ends a computation. -/
inductive Fault where
  /-- An operation left the range of its type. -/
  | overflow
  | divideByZero
  /-- "overflow in Duration::new". -/
  | duration
  /-- "overflow when adding duration to instant". -/
  | instant
  deriving DecidableEq, Repr

/-- `Option::expect`. -/
def expect {α : Type} (fault : Fault) : Option α → Except Fault α
  | some a => .ok a
  | none => .error fault

/-! ## Operations -/

def add (a b : UInt64) : Except Fault UInt64 :=
  if a.toNat + b.toNat < 2 ^ 64 then .ok (a + b) else .error .overflow

def mul (a b : UInt64) : Except Fault UInt64 :=
  if a.toNat * b.toNat < 2 ^ 64 then .ok (a * b) else .error .overflow

def div (a b : UInt64) : Except Fault UInt64 :=
  if b = 0 then .error .divideByZero else .ok (a / b)

def rem (a b : UInt64) : Except Fault UInt64 :=
  if b = 0 then .error .divideByZero else .ok (a % b)

/-- `u64::checked_sub`. -/
def checkedSub (a b : UInt64) : Option UInt64 :=
  if b ≤ a then some (a - b) else none

/-- `u64::checked_add`. -/
def checkedAdd (a b : UInt64) : Option UInt64 :=
  if a.toNat + b.toNat < 2 ^ 64 then some (a + b) else none

/-- `u64::checked_mul`. -/
def checkedMul (a b : UInt64) : Option UInt64 :=
  if a.toNat * b.toNat < 2 ^ 64 then some (a * b) else none

theorem toNat_add_of_lt {a b : UInt64} (h : a.toNat + b.toNat < 2 ^ 64) :
    (a + b).toNat = a.toNat + b.toNat := by
  rw [UInt64.toNat_add]
  exact Nat.mod_eq_of_lt h

theorem toNat_mul_of_lt {a b : UInt64} (h : a.toNat * b.toNat < 2 ^ 64) :
    (a * b).toNat = a.toNat * b.toNat := by
  rw [UInt64.toNat_mul]
  exact Nat.mod_eq_of_lt h

theorem add_eq_ok {a b : UInt64} (h : a.toNat + b.toNat < 2 ^ 64) :
    add a b = .ok (a + b) :=
  if_pos h

theorem add_eq_error {a b : UInt64} (h : ¬ a.toNat + b.toNat < 2 ^ 64) :
    add a b = .error .overflow :=
  if_neg h

theorem mul_eq_ok {a b : UInt64} (h : a.toNat * b.toNat < 2 ^ 64) :
    mul a b = .ok (a * b) :=
  if_pos h

theorem div_eq_ok {a b : UInt64} (h : b ≠ 0) : div a b = .ok (a / b) :=
  if_neg h

theorem rem_eq_ok {a b : UInt64} (h : b ≠ 0) : rem a b = .ok (a % b) :=
  if_neg h

/-! ## Durations -/

/-- `Duration`. -/
structure Duration where
  secs : UInt64
  nanos : UInt32
  lt : nanos.toNat < 1000000000
  deriving DecidableEq, Repr

/-- `Duration::new`: the seconds among the nanoseconds are carried over. -/
def Duration.new (secs : UInt64) (nanos : UInt32) : Except Fault Duration :=
  if h : nanos.toNat < 1000000000 then .ok ⟨secs, nanos, h⟩
  else match checkedAdd secs (nanos / 1000000000).toUInt64 with
    | none => .error .duration
    | some secs => .ok {
        secs := secs
        nanos := nanos % 1000000000
        lt := by
          rw [UInt32.toNat_mod]
          exact Nat.mod_lt _ (by decide) }

theorem Duration.new_eq_ok {secs : UInt64} {nanos : UInt32}
    (h : nanos.toNat < 1000000000) :
    Duration.new secs nanos = .ok ⟨secs, nanos, h⟩ :=
  dif_pos h

/-- `Duration::from_micros`. -/
def Duration.fromMicros (micros : UInt64) : Duration where
  secs := micros / 1000000
  nanos := (micros % 1000000).toUInt32 * 1000
  lt := by
    have hmicros : (micros % 1000000).toNat < 1000000 := by
      rw [UInt64.toNat_mod]
      exact Nat.mod_lt _ (by decide)
    have hcast : (micros % 1000000).toUInt32.toNat < 1000000 := by
      rw [UInt64.toNat_toUInt32]
      omega
    rw [UInt32.toNat_mul]
    refine Nat.lt_of_le_of_lt (Nat.mod_le _ _) ?_
    show (micros % 1000000).toUInt32.toNat * 1000 < 1000000000
    omega

/-! ## Points in time -/

/-- A signed 64-bit number, where the value is one. -/
def int64 (value : Int) : Option Int64 :=
  if -2 ^ 63 ≤ value ∧ value < 2 ^ 63 then some (Int64.ofInt value) else none

theorem int64_natCast (n : Nat) :
    int64 n = if n < 2 ^ 63 then some (Int64.ofInt n) else none := by
  unfold int64
  by_cases h : n < 2 ^ 63
  · rw [if_pos h, if_pos (by omega)]
  · rw [if_neg h, if_neg (by omega)]

/-- A point in time on Unix. -/
structure Timespec where
  secs : Int64
  nanos : UInt32
  lt : nanos.toNat < 1000000000
  deriving DecidableEq, Repr

/-- `UNIX_EPOCH` on Unix. -/
def Timespec.epoch : Timespec where
  secs := 0
  nanos := 0
  lt := by decide

theorem nanos_carry {m n : UInt32} (hm : m.toNat < 1000000000)
    (hn : n.toNat < 1000000000) (h : ¬ (m + n).toNat < 1000000000) :
    (m + n - 1000000000).toNat < 1000000000 := by
  have hsum : (m + n).toNat = m.toNat + n.toNat := by
    rw [UInt32.toNat_add]
    omega
  have hle : (1000000000 : UInt32) ≤ m + n := by
    rw [UInt32.le_iff_toNat_le]
    show 1000000000 ≤ (m + n).toNat
    omega
  rw [UInt32.toNat_sub_of_le _ _ hle]
  show (m + n).toNat - 1000000000 < 1000000000
  omega

/-- `Timespec::checked_add_duration`. -/
def Timespec.checkedAdd (time : Timespec) (dur : Duration) :
    Option Timespec := do
  let secs ← int64 (time.secs.toInt + dur.secs.toNat)
  if h : (dur.nanos + time.nanos).toNat < 1000000000 then
    return ⟨secs, dur.nanos + time.nanos, h⟩
  else
    let secs ← int64 (secs.toInt + 1)
    return ⟨secs, dur.nanos + time.nanos - 1000000000,
      nanos_carry dur.lt time.lt h⟩

/-- The seconds after the start of 1970 must be those of a signed number. -/
theorem Timespec.epoch_add (dur : Duration) :
    Timespec.epoch.checkedAdd dur =
      if dur.secs.toNat < 2 ^ 63 then
        some ⟨Int64.ofInt dur.secs.toNat, dur.nanos, dur.lt⟩
      else none := by
  have hzero : (0 : Int64).toInt = 0 := by decide
  simp only [Timespec.checkedAdd, Timespec.epoch, hzero, Int.zero_add,
    int64_natCast, UInt32.add_zero, dif_pos dur.lt]
  by_cases h : dur.secs.toNat < 2 ^ 63
  · rw [if_pos h, if_pos h]
    rfl
  · rw [if_neg h, if_neg h]
    rfl

/-- A point in time on Windows: intervals of 100 ns since 1601. -/
structure Filetime where
  intervals : Int64
  deriving DecidableEq, Repr

/-- The intervals from the start of 1601 to that of 1970. -/
def epochIntervals : Int64 := 116444736000000000

/-- `UNIX_EPOCH` on Windows. -/
def Filetime.epoch : Filetime where
  intervals := epochIntervals

/-- `checked_dur2intervals`. -/
def checkedIntervals (dur : Duration) : Option Int64 := do
  let whole ← checkedMul dur.secs 10000000
  let all ← checkedAdd whole (dur.nanos.toUInt64 / 100)
  int64 all.toNat

/-- `SystemTime::checked_add_duration` on Windows. -/
def Filetime.checkedAdd (time : Filetime) (dur : Duration) :
    Option Filetime := do
  let intervals ← checkedIntervals dur
  let sum ← int64 (time.intervals.toInt + intervals.toInt)
  return ⟨sum⟩

/-- The intervals of a duration. -/
def Duration.intervals (dur : Duration) : Nat :=
  dur.secs.toNat * 10000000 + dur.nanos.toNat / 100

theorem checkedIntervals_eq (dur : Duration) :
    checkedIntervals dur = int64 dur.intervals := by
  have hnanos : (dur.nanos.toUInt64 / 100).toNat = dur.nanos.toNat / 100 := by
    rw [UInt64.toNat_div]
    rfl
  have hten : (10000000 : UInt64).toNat = 10000000 := rfl
  have hlarge (h : ¬ dur.intervals < 2 ^ 64) :
      int64 dur.intervals = none := by
    rw [int64_natCast, if_neg (by omega)]
  simp only [checkedIntervals, checkedMul, checkedAdd]
  by_cases hmul : dur.secs.toNat * (10000000 : UInt64).toNat < 2 ^ 64
  · have hwhole := toNat_mul_of_lt hmul
    rw [if_pos hmul, Option.bind_eq_bind, Option.bind_some]
    by_cases hadd : (dur.secs * 10000000).toNat +
        (dur.nanos.toUInt64 / 100).toNat < 2 ^ 64
    · have hall := toNat_add_of_lt hadd
      rw [hwhole, hten, hnanos] at hall
      rw [if_pos hadd, Option.bind_some, hall]
      rfl
    · rw [if_neg hadd, Option.bind_none]
      rw [hwhole, hten, hnanos] at hadd
      exact (hlarge hadd).symm
  · rw [if_neg hmul, Option.bind_eq_bind, Option.bind_none]
    rw [hten] at hmul
    refine (hlarge fun h => hmul ?_).symm
    exact Nat.lt_of_le_of_lt (Nat.le_add_right _ _) h

/-- The intervals since the start of 1601 must be those of a signed number. -/
theorem Filetime.epoch_add (dur : Duration) :
    Filetime.epoch.checkedAdd dur =
      if epochIntervals.toInt + dur.intervals < 2 ^ 63 then
        some ⟨Int64.ofInt (epochIntervals.toInt + dur.intervals)⟩
      else none := by
  have hepoch : epochIntervals.toInt = 116444736000000000 := by
    decide +kernel
  simp only [Filetime.checkedAdd, Filetime.epoch, checkedIntervals_eq,
    int64_natCast, Option.bind_eq_bind]
  by_cases h : dur.intervals < 2 ^ 63
  · have hvalue : (Int64.ofInt dur.intervals).toInt = dur.intervals :=
      Int64.toInt_ofInt_of_le (by omega) (by omega)
    rw [if_pos h, Option.bind_some, hvalue]
    by_cases hsum : epochIntervals.toInt + dur.intervals < 2 ^ 63
    · rw [int64, if_pos ⟨by omega, hsum⟩, if_pos hsum]
      rfl
    · rw [int64, if_neg (fun hin => hsum hin.2), if_neg hsum]
      rfl
  · rw [if_neg h, if_neg (by omega)]
    rfl

end Cosca.Verified.Checked
