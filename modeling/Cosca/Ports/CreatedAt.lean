import Cosca.Ports.StartToken
import Cosca.Verified.Checked

/-!
# The time of creation

`created_at` of the three backends: a start token turned into a wall-clock
time.  The token of a restored identity is any 64-bit number.

## Main results

* `createdAt_returns_iff`: for which tokens the backend of a build answers.
-/

namespace Cosca.Ports.CreatedAt

open Cosca.Ports.Errors
open Cosca.Ports.Identity
open Cosca.Ports.IdentityRecord
open Cosca.Verified.Checked
open Cosca.Verified.Text

/-- `SystemTime`, of which a build has one layout. -/
inductive SystemTime where
  | unix (time : Timespec)
  | windows (time : Filetime)
  deriving DecidableEq, Repr

/-- `SystemTime::UNIX_EPOCH + dur` on Unix. -/
def unixTime (dur : Duration) : Except Fault SystemTime :=
  (expect .instant (Timespec.epoch.checkedAdd dur)).map .unix

/-- `SystemTime::UNIX_EPOCH + dur` on Windows. -/
def windowsTime (dur : Duration) : Except Fault SystemTime :=
  (expect .instant (Filetime.epoch.checkedAdd dur)).map .windows

/-! ## Windows -/

/-- `EPOCH_DIFF_100NS`. -/
def epochDiff100ns : UInt64 := 116444736000000000

/-- The time that lies a number of intervals after the start of 1970. -/
def afterEpoch (unix100ns : UInt64) : Except Fault SystemTime := do
  let secs ← div unix100ns 10000000
  let rest ← rem unix100ns 10000000
  let nanos ← mul rest 100
  let dur ← Duration.new secs nanos.toUInt32
  windowsTime dur

/-- `created_at` on Windows. -/
def createdAtWindows (start : UInt64) : Except Fault (Option SystemTime) :=
  match checkedSub start epochDiff100ns with
  | none => .ok none
  | some unix100ns => (afterEpoch unix100ns).map some

/-! ## Linux -/

/-- What Linux answers about its clock. -/
structure LinuxClock where
  /-- `sysconf` of `_SC_CLK_TCK`. -/
  clkTck : Int64
  /-- `std::fs::read_to_string` of `/proc/stat`. -/
  procStat : Except IoError (List Char)

/-- `clock_ticks_per_sec`. -/
def LinuxClock.clockTicksPerSec (os : LinuxClock) : Option UInt64 :=
  if 0 < os.clkTck then some os.clkTck.toUInt64 else none

/-- `str::strip_prefix`. -/
def stripPrefix (pre line : List Char) : Option (List Char) :=
  if pre <+: line then some (line.drop pre.length) else none

/-- `boot_time_secs`. -/
def LinuxClock.bootTimeSecs (os : LinuxClock) : Option UInt64 := do
  let text ← os.procStat.toOption
  let value ← (lines text).findSome? (stripPrefix "btime ".toList)
  parseU64 (trim value)

/-- The time that lies a number of ticks after the boot. -/
def sinceBoot (hz btime jiffies : UInt64) : Except Fault SystemTime := do
  let whole ← div jiffies hz
  let secs ← add btime whole
  let rest ← rem jiffies hz
  let scaled ← mul rest 1000000000
  let nanos ← div scaled hz
  let dur ← Duration.new secs nanos.toUInt32
  unixTime dur

/-- `created_at` on Linux.  An overflow is a fault, which it is with overflow
checks; in a release build, as the crate is modelled otherwise, a `+` or `*`
that overflows goes on with a wrapped and wrong number. -/
def createdAtLinux (os : LinuxClock) (start : UInt64) :
    Except Fault (Option SystemTime) :=
  match os.clockTicksPerSec, os.bootTimeSecs with
  | some hz, some btime => (sinceBoot hz btime start).map some
  | _, _ => .ok none

/-! ## macOS -/

/-- `created_at` on macOS. -/
def createdAtMacOs (start : UInt64) : Except Fault (Option SystemTime) := do
  let time ← unixTime (Duration.fromMicros start)
  return some time

/-- `ProcessId::created_at`, in the build for a target. -/
def createdAt (target : Target) (os : LinuxClock) (id : ProcessId) :
    Except Fault (Option SystemTime) :=
  match target with
  | .linux => createdAtLinux os id.start
  | .macOs => createdAtMacOs id.start
  | .windows => createdAtWindows id.start

/-! ## Which tokens are answered -/

theorem ok_bind {α β : Type} (a : α) (next : α → Except Fault β) :
    (Except.ok a >>= next) = next a :=
  rfl

theorem toUInt32_of_lt {n : UInt64} (h : n.toNat < 1000000000) :
    n.toUInt32.toNat = n.toNat := by
  rw [UInt64.toNat_toUInt32]
  exact Nat.mod_eq_of_lt (by omega)

theorem toNat_epochDiff : epochDiff100ns.toNat = 116444736000000000 := by
  decide +kernel

theorem toInt_epochIntervals : epochIntervals.toInt = 116444736000000000 := by
  decide +kernel

theorem windowsTime_eq (dur : Duration) :
    windowsTime dur =
      if 116444736000000000 + dur.intervals < 2 ^ 63 then
        .ok (.windows ⟨Int64.ofInt ↑(116444736000000000 + dur.intervals)⟩)
      else .error .instant := by
  rw [windowsTime, Filetime.epoch_add, toInt_epochIntervals]
  by_cases h : 116444736000000000 + dur.intervals < 2 ^ 63
  · rw [if_pos (by omega), if_pos h]
    rfl
  · rw [if_neg (by omega), if_neg h]
    rfl

theorem unixTime_eq (dur : Duration) :
    unixTime dur =
      if dur.secs.toNat < 2 ^ 63 then
        .ok (.unix ⟨Int64.ofInt dur.secs.toNat, dur.nanos, dur.lt⟩)
      else .error .instant := by
  rw [unixTime, Timespec.epoch_add]
  by_cases h : dur.secs.toNat < 2 ^ 63
  · rw [if_pos h, if_pos h]
    rfl
  · rw [if_neg h, if_neg h]
    rfl

theorem afterEpoch_eq (unix : UInt64) :
    afterEpoch unix =
      if 116444736000000000 + unix.toNat < 2 ^ 63 then
        .ok (.windows ⟨Int64.ofInt ↑(116444736000000000 + unix.toNat)⟩)
      else .error .instant := by
  have hten : (10000000 : UInt64) ≠ 0 := by
    decide
  have hsecs : (unix / 10000000).toNat = unix.toNat / 10000000 := by
    rw [UInt64.toNat_div]
    rfl
  have hrest : (unix % 10000000).toNat = unix.toNat % 10000000 := by
    rw [UInt64.toNat_mod]
    rfl
  have hrange : (unix % 10000000).toNat * (100 : UInt64).toNat < 2 ^ 64 := by
    show (unix % 10000000).toNat * 100 < 2 ^ 64
    omega
  have hnanos : (unix % 10000000 * 100).toNat =
      unix.toNat % 10000000 * 100 := by
    rw [toNat_mul_of_lt hrange, hrest]
    rfl
  have hsmall : (unix % 10000000 * 100).toNat < 1000000000 := by
    omega
  have hcast := toUInt32_of_lt hsmall
  have hproper : (unix % 10000000 * 100).toUInt32.toNat < 1000000000 := by
    omega
  have hintervals : Duration.intervals
      ⟨unix / 10000000, (unix % 10000000 * 100).toUInt32, hproper⟩ =
        unix.toNat := by
    show (unix / 10000000).toNat * 10000000 +
      (unix % 10000000 * 100).toUInt32.toNat / 100 = unix.toNat
    omega
  unfold afterEpoch
  rw [div_eq_ok hten, rem_eq_ok hten, ok_bind, ok_bind, mul_eq_ok hrange,
    ok_bind, Duration.new_eq_ok hproper, ok_bind, windowsTime_eq, hintervals]

/-- The token counts intervals since 1601: earlier than 1970 there is no
answer, and past the signed range there is no time. -/
theorem createdAtWindows_eq (start : UInt64) :
    createdAtWindows start =
      if start.toNat < 116444736000000000 then .ok none
      else if start.toNat < 2 ^ 63 then
        .ok (some (.windows ⟨Int64.ofInt start.toNat⟩))
      else .error .instant := by
  unfold createdAtWindows checkedSub
  by_cases hlt : start.toNat < 116444736000000000
  · have hnot : ¬ epochDiff100ns ≤ start := by
      rw [UInt64.le_iff_toNat_le, toNat_epochDiff]
      omega
    rw [if_neg hnot, if_pos hlt]
  · have hle : epochDiff100ns ≤ start := by
      rw [UInt64.le_iff_toNat_le, toNat_epochDiff]
      omega
    have hall : 116444736000000000 + (start - epochDiff100ns).toNat =
        start.toNat := by
      rw [UInt64.toNat_sub_of_le _ _ hle, toNat_epochDiff]
      omega
    rw [if_pos hle, if_neg hlt]
    dsimp only
    rw [afterEpoch_eq, hall]
    by_cases hin : start.toNat < 2 ^ 63
    · rw [if_pos hin, if_pos hin]
      rfl
    · rw [if_neg hin, if_neg hin]
      rfl

theorem LinuxClock.ticks_pos {os : LinuxClock} {hz : UInt64}
    (h : os.clockTicksPerSec = some hz) : hz ≠ 0 := by
  unfold LinuxClock.clockTicksPerSec at h
  by_cases hpos : 0 < os.clkTck
  · rw [if_pos hpos] at h
    rintro rfl
    have hzero : os.clkTck = 0 := by
      rw [← Int64.toInt64_toUInt64 os.clkTck, Option.some.inj h]
      rfl
    rw [hzero] at hpos
    exact absurd hpos (by decide)
  · rw [if_neg hpos] at h
    cases h

theorem createdAtLinux_some {os : LinuxClock} {hz btime : UInt64}
    (hclock : os.clockTicksPerSec = some hz)
    (hboot : os.bootTimeSecs = some btime) (start : UInt64) :
    createdAtLinux os start = (sinceBoot hz btime start).map some := by
  unfold createdAtLinux
  rw [hclock, hboot]

/-- With a clock that ticks no faster than once a nanosecond, only the sum of
the seconds can leave its range. -/
theorem sinceBoot_isOk_iff {hz btime start : UInt64} (hne : hz ≠ 0)
    (hhz : hz.toNat ≤ 1000000000) :
    (sinceBoot hz btime start).isOk = true ↔
      btime.toNat + start.toNat / hz.toNat < 2 ^ 63 := by
  have hpos : 0 < hz.toNat := by
    rw [Nat.pos_iff_ne_zero]
    exact fun h => hne (UInt64.toNat_inj.mp h)
  have hwhole : (start / hz).toNat = start.toNat / hz.toNat :=
    UInt64.toNat_div start hz
  have hrest : (start % hz).toNat < hz.toNat := by
    rw [UInt64.toNat_mod]
    exact Nat.mod_lt _ hpos
  have hrange : (start % hz).toNat * (1000000000 : UInt64).toNat < 2 ^ 64 := by
    show (start % hz).toNat * 1000000000 < 2 ^ 64
    omega
  have hnanos : (start % hz * 1000000000 / hz).toNat < 1000000000 := by
    rw [UInt64.toNat_div, toNat_mul_of_lt hrange]
    refine Nat.div_lt_of_lt_mul ?_
    exact Nat.mul_lt_mul_of_pos_right hrest (by decide)
  have hproper : (start % hz * 1000000000 / hz).toUInt32.toNat <
      1000000000 := by
    rw [toUInt32_of_lt hnanos]
    exact hnanos
  unfold sinceBoot
  rw [div_eq_ok hne, rem_eq_ok hne, ok_bind]
  by_cases hsum : btime.toNat + (start / hz).toNat < 2 ^ 64
  · have hsecs := toNat_add_of_lt hsum
    rw [add_eq_ok hsum, ok_bind, ok_bind, mul_eq_ok hrange, ok_bind,
      div_eq_ok hne, ok_bind, Duration.new_eq_ok hproper, ok_bind,
      unixTime_eq, hsecs, hwhole]
    by_cases hin : btime.toNat + start.toNat / hz.toNat < 2 ^ 63
    · rw [if_pos hin]
      exact iff_of_true rfl hin
    · rw [if_neg hin]
      exact iff_of_false Bool.false_ne_true hin
  · rw [add_eq_error hsum]
    refine iff_of_false Bool.false_ne_true ?_
    rw [← hwhole]
    omega

/-- Microseconds since 1970 are always a time. -/
theorem createdAtMacOs_isOk (start : UInt64) :
    (createdAtMacOs start).isOk = true := by
  have hsecs : (Duration.fromMicros start).secs.toNat < 2 ^ 63 := by
    show (start / 1000000).toNat < 2 ^ 63
    have hlt := start.toNat_lt
    rw [UInt64.toNat_div]
    show start.toNat / 1000000 < 2 ^ 63
    omega
  unfold createdAtMacOs
  rw [unixTime_eq, if_pos hsecs]
  rfl

/-! ## Restored identities -/

/-- The tokens that lie in the range of a wall clock: on Windows it is signed,
and on Linux it has to hold the seconds of the boot and those since. -/
def Datable (target : Target) (os : LinuxClock) (token : UInt64) : Prop :=
  match target with
  | .linux => ∀ hz btime, os.clockTicksPerSec = some hz →
      os.bootTimeSecs = some btime →
        btime.toNat + token.toNat / hz.toNat < 2 ^ 63
  | .macOs => True
  | .windows => token.toNat < 2 ^ 63

/-- A clock that ticks three times a second cannot count that far. -/
theorem datable_of_ticks {os : LinuxClock}
    (hhz : ∀ hz, os.clockTicksPerSec = some hz → 3 ≤ hz.toNat)
    (hbtime : ∀ btime, os.bootTimeSecs = some btime → btime.toNat < 2 ^ 40)
    (token : UInt64) : Datable .linux os token := by
  intro hz btime hclock hboot
  have hthree : token.toNat / hz.toNat ≤ token.toNat / 3 :=
    Nat.div_le_div_left (hhz hz hclock) (by decide)
  have hboot := hbtime btime hboot
  have hlt := token.toNat_lt
  omega

theorem createdAt_isOk_iff (target : Target) {os : LinuxClock}
    (hhz : ∀ hz, os.clockTicksPerSec = some hz → hz.toNat ≤ 1000000000)
    (id : ProcessId) :
    (createdAt target os id).isOk = true ↔ Datable target os id.start := by
  cases target with
  | linux =>
      show (createdAtLinux os id.start).isOk = true ↔ _
      cases hclock : os.clockTicksPerSec with
      | none =>
          have hnone : createdAtLinux os id.start = .ok none := by
            unfold createdAtLinux
            rw [hclock]
          rw [hnone]
          refine iff_of_true rfl fun hz btime h => ?_
          rw [hclock] at h
          cases h
      | some hz =>
          cases hboot : os.bootTimeSecs with
          | none =>
              have hnone : createdAtLinux os id.start = .ok none := by
                unfold createdAtLinux
                rw [hclock, hboot]
              rw [hnone]
              refine iff_of_true rfl fun hz btime _ h => ?_
              rw [hboot] at h
              cases h
          | some btime =>
              have hne := LinuxClock.ticks_pos hclock
              have hsome : (createdAtLinux os id.start).isOk =
                  (sinceBoot hz btime id.start).isOk := by
                rw [createdAtLinux_some hclock hboot]
                cases sinceBoot hz btime id.start <;> rfl
              rw [hsome, sinceBoot_isOk_iff hne (hhz hz hclock)]
              constructor
              · intro hin hz' btime' hhz' hbtime'
                rw [hclock] at hhz'
                rw [hboot] at hbtime'
                cases hhz'
                cases hbtime'
                exact hin
              · intro hin
                exact hin hz btime hclock hboot
  | macOs => exact iff_of_true (createdAtMacOs_isOk id.start) trivial
  | windows =>
      show (createdAtWindows id.start).isOk = true ↔ id.start.toNat < 2 ^ 63
      rw [createdAtWindows_eq]
      by_cases hlt : id.start.toNat < 116444736000000000
      · rw [if_pos hlt]
        exact iff_of_true rfl (by omega)
      · rw [if_neg hlt]
        by_cases hin : id.start.toNat < 2 ^ 63
        · rw [if_pos hin]
          exact iff_of_true rfl hin
        · rw [if_neg hin]
          exact iff_of_false Bool.false_ne_true hin

/-- The time of a restored identity can be asked for exactly when the token in
its record lies in the range of the clock. -/
theorem createdAt_returns_iff (io : IoError → String)
    (printable : Char → Bool) (target : Target) (record : ProcessIdRecord)
    (scope : Except ScopeReadError Scope) (id : ProcessId) (os : LinuxClock)
    (hhz : ∀ hz, os.clockTicksPerSec = some hz → hz.toNat ≤ 1000000000)
    (h : restore io printable record (Platform.current target) scope =
      .ok id) :
    (createdAt target os id).isOk = true ↔
      Datable target os record.token := by
  have hid : id.start = record.token := by
    cases scope with
    | error e => cases h
    | ok scope =>
        rw [restore_eq_ok_iff] at h
        rw [h.2]
  rw [createdAt_isOk_iff target hhz, hid]

/-- A host that counts a hundred ticks a second. -/
def hundredHz : LinuxClock where
  clkTck := 100
  procStat := .ok "cpu  1 2 3 4\nbtime 1700000000\nprocesses 9\n".toList

/-- A record of Windows, with the token that a file holds. -/
def windowsRecord (token : UInt64) : ProcessIdRecord where
  version := recordVersion
  platform := .windows
  pid := 4242
  token := token
  bootId := none
  pidNs := none

theorem createdAt_returns_windows :
    (createdAt .windows hundredHz ⟨4242, 134301578477907396⟩).isOk = true := by
  have hin : UInt64.toNat 134301578477907396 < 2 ^ 63 := by
    decide +kernel
  refine (createdAt_returns_iff (fun _ => "") (fun _ => true) .windows
    (windowsRecord 134301578477907396) (.ok Scope.none) _ hundredHz ?_
    rfl).mpr hin
  intro hz hclock
  cases hclock
  decide

/-- The bit above the range of the clock is restored and then not answered. -/
theorem createdAt_of_restored :
    restore (fun _ => "") (fun _ => true)
        (windowsRecord 0x8000000000000000) (Platform.current .windows)
        (.ok Scope.none) = .ok ⟨4242, 0x8000000000000000⟩ ∧
      createdAt .windows hundredHz ⟨4242, 0x8000000000000000⟩ =
        .error .instant := by
  constructor
  · rfl
  · show createdAtWindows 0x8000000000000000 = .error .instant
    rw [createdAtWindows_eq]
    rfl

end Cosca.Ports.CreatedAt
